import RunnelMoe.Results
import RunnelMoe.SimSketch
import RunnelMoe.Sketches

/-! The sketch of the admission filter against an exact record. Every page has a door bit
and a count of its own, updated at its own accesses only and aged whenever the sketch
ages; pages share the cells of the sketch and its door bits, so the sketch may count more
than that, and never counts less. -/
namespace RunnelMoe.Sim
open Words Results Sketches

structure Frequency where
  door : Bool
  count : Nat
  deriving DecidableEq, Repr

abbrev Frequencies := PageId → Frequency

namespace Frequencies

def zero : Frequencies := fun _ => ⟨false,0⟩

def see (exactly : Frequencies) (page : PageId) : Frequencies :=
  Function.update exactly page
    (if (exactly page).door then ⟨true,min ((exactly page).count + 1) sketchCounterMax⟩ else ⟨true,(exactly page).count⟩)

def age (exactly : Frequencies) : Frequencies := fun page => ⟨false,(exactly page).count / 2⟩

end Frequencies

def TinyLfu.ages (tiny : TinyLfu) : Bool := wrappingAdd tiny.observed 1 ≥ tiny.sampleAccesses

def TinyLfu.counts (tiny : TinyLfu) (page : PageId) : TinyLfu :=
  {(if tiny.doorContains page then tiny.raise page else tiny.setDoor page) with
    observed := wrappingAdd tiny.observed 1}

theorem observeAges (tiny : TinyLfu) (page : PageId) :
    tiny.observe page = if tiny.ages then (tiny.counts page).age else tiny.counts page := by
  unfold TinyLfu.observe TinyLfu.ages TinyLfu.counts
  cases known : tiny.doorContains page with
  | false =>
    simp only [Bool.false_eq_true,if_false,decide_eq_true_eq]
    rfl
  | true =>
    simp only [if_true,decide_eq_true_eq]
    rfl

def observeBoth (both : TinyLfu × Frequencies) (page : PageId) : TinyLfu × Frequencies :=
  (both.1.observe page,if both.1.ages then (both.2.see page).age else both.2.see page)

theorem observeBothRun (pages : List PageId) (both : TinyLfu × Frequencies) :
    (pages.foldl observeBoth both).1 = pages.foldl TinyLfu.observe both.1 := by
  induction pages generalizing both with
  | nil => rfl
  | cons page rest ih => exact ih _

def TinyLfu.columns (tiny : TinyLfu) (page : PageId) : List Nat := (List.range tiny.depth).map (tiny.column page)

def TinyLfu.cells (tiny : TinyLfu) (page : PageId) : List Nat :=
  (List.range tiny.depth).map (fun row => row * tiny.width + tiny.column page row)

structure Sized (tiny : TinyLfu) : Prop where
  depth : 0 < tiny.depth
  width : 0 < tiny.width
  sample : 0 < tiny.sampleAccesses
  counters : tiny.counters.length = tiny.depth * tiny.width
  door : tiny.doorkeeper.length = (tiny.width + 7) / 8

section Cells
variable {tiny : TinyLfu} {page : PageId}

theorem newSized {config : TinyLfuConfig} (ok : TinyLfu.new config = .ok tiny) :
    Sized tiny ∧ Capped sketchCounterMax tiny.counters ∧ tiny.observed = 0 := by
  obtain ⟨deep,ok⟩ := guardOk.mp ok
  obtain ⟨wide,ok⟩ := guardOk.mp ok
  obtain ⟨sampled,ok⟩ := guardOk.mp ok
  obtain ⟨counterLen,product,ok⟩ := bindOk.mp ok
  obtain ⟨doorLen,sum,ok⟩ := bindOk.mp ok
  cases ok
  have columns := (checkedMulSome.mp (okOrSome.mp product)).2
  have bits := (checkedAddSome.mp (okOrSome.mp sum)).2
  refine ⟨⟨Nat.not_lt.mp (not_or.mp deep).1,by dsimp only; omega,Nat.pos_of_ne_zero sampled,?_,?_⟩,fun i => ?_,rfl⟩
  · rw [List.length_replicate,columns]
  · rw [List.length_replicate,bits]
  · rw [List.getD_eq_getElem?_getD,List.getElem?_replicate]
    split <;> exact Nat.zero_le _

theorem minimumLeast : tiny.minimum page = least tiny.counters (tiny.cells page) := by
  rw [TinyLfu.minimum,least,TinyLfu.cells,List.map_map]
  rfl

theorem raiseCells : tiny.raise page =
    {tiny with counters := raise (least tiny.counters (tiny.cells page)) sketchCounterMax (tiny.cells page) tiny.counters} := by
  unfold TinyLfu.raise raise TinyLfu.cells
  have cut (n : Nat) : min (min n 255) sketchCounterMax = min n sketchCounterMax := by
    unfold sketchCounterMax
    omega
  rw [List.foldl_map,minimumLeast]
  simp only [cut]
  rfl

theorem doorBits : tiny.doorContains page = (tiny.columns page).all (bitAt tiny.doorkeeper) := by
  rw [TinyLfu.doorContains,TinyLfu.columns,List.all_map]
  rfl

theorem setDoorBits : tiny.setDoor page = {tiny with doorkeeper := setBits (tiny.columns page) tiny.doorkeeper} := by
  unfold TinyLfu.setDoor setBits TinyLfu.columns
  rw [List.foldl_map]
  rfl

theorem cellsSome (sized : Sized tiny) (page : PageId) : tiny.cells page ≠ [] := by
  have deep := sized.depth
  simp [TinyLfu.cells]
  omega

theorem columnBelow (sized : Sized tiny) (page : PageId) (row : Nat) : tiny.column page row < tiny.width :=
  Nat.mod_lt _ sized.width

theorem cellsInside (sized : Sized tiny) (page : PageId) : ∀ i ∈ tiny.cells page, i < tiny.counters.length := by
  intro i member
  obtain ⟨row,among,rfl⟩ := List.mem_map.mp member
  have below := columnBelow sized page row
  rw [sized.counters]
  calc row * tiny.width + tiny.column page row < row * tiny.width + tiny.width := by omega
    _ = (row + 1) * tiny.width := (Nat.succ_mul ..).symm
    _ ≤ tiny.depth * tiny.width := Nat.mul_le_mul_right _ (List.mem_range.mp among)

theorem columnsInside (sized : Sized tiny) (page : PageId) : ∀ c ∈ tiny.columns page, c / 8 < tiny.doorkeeper.length := by
  intro c member
  obtain ⟨row,-,rfl⟩ := List.mem_map.mp member
  have below := columnBelow sized page row
  rw [sized.door]
  omega

end Cells

structure Covers (tiny : TinyLfu) (exactly : Frequencies) : Prop where
  sized : Sized tiny
  capped : Capped sketchCounterMax tiny.counters
  counts : ∀ page, (exactly page).count ≤ least tiny.counters (tiny.cells page)
  doors : ∀ page, (exactly page).door = true → tiny.doorContains page = true

section Covering
variable {tiny : TinyLfu} {exactly : Frequencies} {page : PageId}

theorem raiseCovers (covers : Covers tiny exactly) (known : tiny.doorContains page = true) :
    Covers (tiny.raise page) (exactly.see page) := by
  obtain ⟨sized,capped,counts,doors⟩ := covers
  have inside := cellsInside sized page
  have some_ (other : PageId) := cellsSome sized other
  rw [raiseCells]
  refine ⟨⟨sized.depth,sized.width,sized.sample,(raiseLength ..).trans sized.counters,sized.door⟩,
    raiseCapped capped _,fun other => ?_,fun other open_ => ?_⟩
  · have kept : (exactly other).count ≤ least (raise (least tiny.counters (tiny.cells page)) sketchCounterMax
        (tiny.cells page) tiny.counters) (tiny.cells other) :=
      Nat.le_trans (counts other) (leastGrows capped _ (some_ other))
    by_cases same : other = page
    · subst same
      have raised := leastRaised capped (some_ other) inside
      have before := counts other
      simp only [Frequencies.see,Function.update_self]
      split
      · exact Nat.le_trans (by dsimp only; omega) raised
      · exact kept
    · rw [Frequencies.see,Function.update_of_ne same]
      exact kept
  · by_cases same : other = page
    · subst same
      exact known
    · rw [Frequencies.see,Function.update_of_ne same] at open_
      exact doors other open_

theorem setDoorCovers (covers : Covers tiny exactly) (unknown : tiny.doorContains page = false) :
    Covers (tiny.setDoor page) (exactly.see page) := by
  obtain ⟨sized,capped,counts,doors⟩ := covers
  have shut : (exactly page).door = false := by
    by_contra open_
    rw [doors page (by simpa using open_)] at unknown
    contradiction
  rw [setDoorBits]
  refine ⟨⟨sized.depth,sized.width,sized.sample,sized.counters,(setBitsLength ..).trans sized.door⟩,capped,
    fun other => ?_,fun other open_ => ?_⟩
  · by_cases same : other = page
    · subst same
      simp only [Frequencies.see,Function.update_self,shut]
      exact counts other
    · rw [Frequencies.see,Function.update_of_ne same]
      exact counts other
  · rw [doorBits,List.all_eq_true]
    intro c member
    by_cases same : other = page
    · subst same
      exact setBitsSet (columnsInside sized other) member
    · rw [Frequencies.see,Function.update_of_ne same] at open_
      have before := doors other open_
      rw [doorBits,List.all_eq_true] at before
      exact setBitsKeep (before c member) _

theorem ageCovers (covers : Covers tiny exactly) : Covers tiny.age exactly.age := by
  obtain ⟨sized,capped,counts,-⟩ := covers
  refine ⟨⟨sized.depth,sized.width,sized.sample,List.length_map .. |>.trans sized.counters,
    List.length_map .. |>.trans sized.door⟩,cappedHalved capped,fun other => ?_,nofun⟩
  exact Nat.le_trans (Nat.div_le_div_right (counts other)) (leastHalved (cellsSome sized other))

theorem countsCovers (covers : Covers tiny exactly) (page : PageId) : Covers (tiny.counts page) (exactly.see page) := by
  have seen : Covers (if tiny.doorContains page then tiny.raise page else tiny.setDoor page) (exactly.see page) := by
    split
    · rename_i known
      exact raiseCovers covers known
    · rename_i unknown
      exact setDoorCovers covers (by simpa using unknown)
  exact ⟨⟨seen.sized.depth,seen.sized.width,seen.sized.sample,seen.sized.counters,seen.sized.door⟩,seen.capped,
    seen.counts,seen.doors⟩

theorem observeCovers {both : TinyLfu × Frequencies} (covers : Covers both.1 both.2) (page : PageId) :
    Covers (observeBoth both page).1 (observeBoth both page).2 := by
  have counted := countsCovers covers page
  unfold observeBoth
  simp only [observeAges]
  split
  · exact ageCovers counted
  · exact counted

theorem observeFresh (positive : 0 < tiny.sampleAccesses) (fresh : tiny.observed < tiny.sampleAccesses) (page : PageId) :
    (tiny.observe page).observed < (tiny.observe page).sampleAccesses := by
  have next : wrappingAdd tiny.observed 1 ≤ tiny.observed + 1 := by
    unfold wrappingAdd
    split <;> omega
  have sample : (tiny.counts page).sampleAccesses = tiny.sampleAccesses := by
    unfold TinyLfu.counts
    dsimp only
    split <;> rfl
  rw [observeAges]
  split
  · show wrappingAdd tiny.observed 1 / 2 < (tiny.counts page).sampleAccesses
    omega
  · rename_i young
    show wrappingAdd tiny.observed 1 < (tiny.counts page).sampleAccesses
    rw [sample]
    simpa [TinyLfu.ages] using young

theorem runCovers {both : TinyLfu × Frequencies} (covers : Covers both.1 both.2)
    (fresh : both.1.observed < both.1.sampleAccesses) (pages : List PageId) :
    Covers (pages.foldl observeBoth both).1 (pages.foldl observeBoth both).2 ∧
      (pages.foldl observeBoth both).1.observed < (pages.foldl observeBoth both).1.sampleAccesses := by
  induction pages generalizing both with
  | nil => exact ⟨covers,fresh⟩
  | cons page rest ih => exact ih (observeCovers covers page) (observeFresh covers.sized.sample fresh page)

end Covering

theorem sketchNeverUnderestimates {config : TinyLfuConfig} {tiny : TinyLfu} (accepted : TinyLfu.new config = .ok tiny)
    (pages : List PageId) :
    let last := pages.foldl observeBoth (tiny,Frequencies.zero)
    last.1 = pages.foldl TinyLfu.observe tiny ∧
      (∀ page, (last.2 page).count + (if (last.2 page).door then 1 else 0) ≤ last.1.estimate page) ∧
      (∀ counter ∈ last.1.counters, counter ≤ sketchCounterMax) ∧ last.1.observed < last.1.sampleAccesses := by
  obtain ⟨sized,capped,none⟩ := newSized accepted
  have start : Covers tiny Frequencies.zero := ⟨sized,capped,fun _ => Nat.zero_le _,nofun⟩
  have fresh : tiny.observed < tiny.sampleAccesses := none ▸ sized.sample
  obtain ⟨covers,young⟩ := @runCovers (tiny,Frequencies.zero) start fresh pages
  refine ⟨observeBothRun pages _,fun page => ?_,fun counter member => ?_,young⟩
  · rw [TinyLfu.estimate,minimumLeast]
    have counts := covers.counts page
    split
    · rename_i open_
      rw [if_pos (covers.doors page open_)]
      omega
    · omega
  · obtain ⟨i,found⟩ := List.mem_iff_getElem?.mp member
    have bound := covers.capped i
    rwa [List.getD_eq_getElem?_getD,found] at bound

theorem thriceObserved : ∃ tiny, TinyLfu.new ⟨2,64,8⟩ = .ok tiny ∧
    3 ≤ ([5,5,5].foldl TinyLfu.observe tiny).estimate 5 := by
  obtain ⟨tiny,accepted,exactly⟩ : ∃ tiny, TinyLfu.new ⟨2,64,8⟩ = .ok tiny ∧
      ([5,5,5].foldl observeBoth (tiny,Frequencies.zero)).2 5 = ⟨true,2⟩ := okAny (by decide +kernel)
  obtain ⟨same,counts,-⟩ := sketchNeverUnderestimates accepted [5,5,5]
  have bound := counts 5
  rw [exactly,same] at bound
  exact ⟨tiny,accepted,bound⟩

end RunnelMoe.Sim
