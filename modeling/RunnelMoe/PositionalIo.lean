import RunnelMoe.CasCopy

/-! Reads and writes at a position, one system call a turn. A turn says what the checks around
the call find and what the call answers: a count of its choice, cut to what was asked and to
what the file holds, an interruption, or an error. Beside the count that the program reports
the model keeps the bytes that calls returned, and of a write the pieces that reached the
file. Sizes of 64 bits convert to lengths and back without loss. -/
namespace RunnelMoe.Positional
open Readers Results StoreErrors Words Format PageSpecs Cas Scripts Script

inductive Outcome where
  | moved (count : Nat)
  | interrupted
  | failed (kind : Nat)
  deriving DecidableEq, Repr

structure Turn where
  before : Option StoreError
  outcome : Outcome
  after : Option StoreError
  deriving DecidableEq, Repr

inductive Observed where
  | panicked
  | running
  | returned (result : Except StoreError Bytes) (physical moved : Nat)

-- No allocation is larger.
def maxAllocation : Nat := 9223372036854775807

def pread (content : Bytes) (position capacity count : Nat) : Bytes :=
  (content.drop position).take (min count capacity)

def overwrite (buffer : Bytes) (start : Nat) (bytes : Bytes) : Bytes :=
  buffer.take start ++ (bytes ++ buffer.drop (start + bytes.length))

section Read
variable (content : Bytes) (offset length : Nat) (kind : String) (last : Option StoreError)

def readFinished (buffer : Bytes) (filled moved : Nat) : Observed :=
  match last with
  | none => .returned (.ok buffer) filled moved
  | some error => .returned (.error error) filled moved

def readLoop : List Turn → Bytes → Nat → Nat → Observed
  | [], buffer, filled, moved => if filled < buffer.length then .running else readFinished last buffer filled moved
  | turn::rest, buffer, filled, moved =>
    if filled < buffer.length then match turn.before with
      | some error => .returned (.error error) filled moved
      | none =>
        let chunkEnd := min (saturatingAdd filled readChunkBytes) buffer.length
        match checkedAdd offset filled with
        | none => .returned (.error (.arithmeticOverflow "computing a positional read offset")) filled moved
        | some position => match turn.outcome with
          | .moved count =>
            let bytes := pread content position (chunkEnd - filled) count
            let moved := moved + bytes.length
            if bytes.length = 0 then .returned (.error (.lengthMismatch kind length filled)) filled moved
            else match checkedAdd filled bytes.length with
              | some value => readLoop rest (overwrite buffer filled bytes) value moved
              | none => .returned (.error (.arithmeticOverflow "accounting positional read bytes")) filled moved
          | .interrupted => match turn.after with
            | some error => .returned (.error error) filled moved
            | none => readLoop rest buffer filled moved
          | .failed error => .returned (.error (.io "reading retained bytes" error)) filled moved
    else readFinished last buffer filled moved

def readExactAtObserved (first : Option StoreError) (turns : List Turn) : Observed × Option Nat :=
  match first with
  | some error => (.returned (.error error) 0 0,none)
  | none => match alignedPageBufferBytes length with
    | .error error => (.returned (.error error) 0 0,none)
    | .ok allocation =>
      if allocation > maxAllocation then (.panicked,some allocation)
      else (readLoop content offset length kind last turns (List.replicate length 0) 0 0,some allocation)

end Read

inductive Written where
  | running (writes : List (Nat × Bytes))
  | returned (result : Except StoreError Unit) (writes : List (Nat × Bytes))

section Write
variable (last : Option StoreError)

def writeFinished (writes : List (Nat × Bytes)) : Written :=
  match last with
  | none => .returned (.ok ()) writes
  | some error => .returned (.error error) writes

def writeAllAt : List Turn → Nat → Bytes → List (Nat × Bytes) → Written
  | [], _, bytes, writes => if bytes = [] then writeFinished last writes else .running writes
  | turn::rest, offset, bytes, writes =>
    if bytes = [] then writeFinished last writes
    else match turn.before with
      | some error => .returned (.error error) writes
      | none => match turn.outcome with
        | .moved count =>
          let count := min count (min bytes.length readChunkBytes)
          if count = 0 then .returned (.error (.io "writing retained bytes" writeZero)) writes
          else
            let writes := writes ++ [(offset,bytes.take count)]
            match checkedAdd offset count with
            | some next => writeAllAt rest next (bytes.drop count) writes
            | none => .returned (.error (.arithmeticOverflow "computing a positional write offset")) writes
        | .interrupted => match turn.after with
          | some error => .returned (.error error) writes
          | none => writeAllAt rest offset bytes writes
        | .failed error => .returned (.error (.io "writing retained bytes" error)) writes

end Write

def Serving (turn : Turn) : Prop :=
  turn.before = none ∧ turn.after = none ∧ (turn.outcome = .interrupted ∨ ∃ count > 0, turn.outcome = .moved count)

def moving (turns : List Turn) : Nat := turns.countP (fun turn => turn.outcome ≠ .interrupted)

/- Every read by turns is a run of the loop of calls, with faults only where a turn or a check has one. -/

section Reads
variable {content buffer bytes s : Bytes} {offset length unread : Nat} {kind : String} {last : Option StoreError}
  {turns rest : List Turn} {turn : Turn} {faults : Prop} {script : FileTask Bytes} {f : Bytes → FileTask Bytes}

variable (content s length faults) in
def Traced (turns : List Turn) (unread : Nat) (script : FileTask Bytes) : Observed → Prop
  | .panicked => False
  | .running => (∀ turn ∈ turns, Serving turn) → moving turns < unread
  | .returned result physical moved => physical = moved ∧ (∀ bytes, result = .ok bytes → moved = length) ∧
      Runs (Disk content faults) script s (some (liftStore result)) s

structure Held (length : Nat) (buffer bytes : Bytes) : Prop where
  size : buffer.length = length
  front : bytes <+: buffer

theorem heldNext {piece : Bytes} (held : Held length buffer bytes) (room : bytes.length + piece.length ≤ length) :
    Held length (overwrite buffer bytes.length piece) (bytes ++ piece) := by
  unfold overwrite
  rw [← List.prefix_iff_eq_take.mp held.front]
  refine ⟨?_,by rw [← List.append_assoc]; exact List.prefix_append ..⟩
  have size := held.size
  rw [List.length_append,List.length_append,List.length_drop]
  omega

theorem tracedLater {later : FileTask Bytes} {fewer : Nat} {observed : Observed}
    (moves : (∀ turn ∈ turns, Serving turn) → (∀ turn ∈ rest, Serving turn) ∧ (moving rest < fewer → moving turns < unread))
    (runs : ∀ {result}, Runs (Disk content faults) later s result s → Runs (Disk content faults) script s result s)
    (traced : Traced content s length faults rest fewer later observed) :
    Traced content s length faults turns unread script observed := by
  cases observed with
  | panicked => exact traced
  | running => exact fun serving => (moves serving).2 (traced (moves serving).1)
  | returned result physical moved => exact ⟨traced.1,traced.2.1,runs traced.2.2⟩

theorem checked : Disk content faults .check s (.ok ()) s := .inl ⟨rfl,rfl⟩

theorem faulted (fault : faults) (call : FileCall) (error : StoreError) : Disk content faults call s (failed error) s :=
  .inr ⟨fault,⟨error,rfl⟩,.inl rfl⟩

theorem finishedRuns (held : Held length buffer bytes) (done : ¬bytes.length < buffer.length) (faulty : last ≠ none → faults) :
    Traced content s length faults turns unread
      (Files.readFilled .source offset length kind bytes >>= fun all => Files.check >>= fun _ => pure all)
      (readFinished last buffer bytes.length bytes.length) := by
  have size := held.size
  have whole : bytes = buffer := held.front.eq_of_length_le (by omega)
  subst whole
  rw [Files.readFilled,if_neg (by omega)]
  unfold readFinished
  split
  · exact ⟨rfl,fun _ _ => size,.act checked (.done _ s)⟩
  · exact ⟨rfl,nofun,.act (faulted (faulty nofun) _ _) (.done _ s)⟩

theorem chunkSame {filled : Nat} (word : length < modulus) :
    min (saturatingAdd filled readChunkBytes) length = min (readChunkBytes + filled) length := by
  unfold saturatingAdd
  have top : modulus = maxWord + 1 := rfl
  omega

theorem preadServes (content s : Bytes) (position capacity count : Nat) :
    (pread content position capacity count).length ≤ capacity ∧ (pread content position capacity count).length ≤ count ∧
      (0 < count → Serves content (.pread .source position capacity) s (.ok (pread content position capacity count)) s) := by
  have size : (pread content position capacity count).length ≤ min count capacity := List.length_take_le ..
  refine ⟨by omega,by omega,fun positive => ⟨rfl,min count capacity,Nat.min_le_right ..,?_,fun room _ => ?_⟩⟩
  · rw [List.extract,Nat.add_sub_cancel_left]
    rfl
  · exact Nat.lt_min.mpr ⟨positive,room⟩

theorem loopRuns (word : length < modulus) (faulty : ¬(last = none ∧ ∀ turn ∈ turns, Serving turn) → faults)
    (held : Held length buffer bytes) :
    Traced content s length faults turns (length - bytes.length)
      (Files.readFilled .source offset length kind bytes >>= fun all => Files.check >>= fun _ => pure all)
      (readLoop content offset length kind last turns buffer bytes.length bytes.length) := by
  have size := held.size
  have ends (wrong : last ≠ none) : faults := faulty (fun all => wrong all.1)
  induction turns generalizing buffer bytes with
  | nil =>
    unfold readLoop
    split
    · rename_i more
      intro _
      exact Nat.sub_pos_of_lt (size ▸ more)
    · rename_i done
      exact finishedRuns held done ends
  | cons turn rest ih =>
    have odd (wrong : ¬Serving turn) : faults := faulty (fun all => wrong (all.2 turn List.mem_cons_self))
    have later (wrong : ¬(last = none ∧ ∀ turn ∈ rest, Serving turn)) : faults :=
      faulty (fun all => wrong ⟨all.1,(List.forall_mem_cons.mp all.2).2⟩)
    unfold readLoop
    split
    case isFalse done => exact finishedRuns held done ends
    case isTrue more =>
      have open_ := more
      rw [size] at open_
      split
      · rename_i error before
        have fault := odd (fun all => nomatch before.symm.trans all.1)
        refine ⟨rfl,nofun,?_⟩
        rw [Files.readFilled,if_pos open_]
        exact .act (faulted fault _ _) (.done _ s)
      simp only
      split
      · rename_i overflow
        refine ⟨rfl,nofun,?_⟩
        rw [Files.readFilled,if_pos open_,overflow]
        exact .act checked (.done _ s)
      rename_i position sum
      obtain ⟨-,rfl⟩ := checkedAddSome.mp sum
      have fails (fault : faults) (error : StoreError) : Runs (Disk content faults)
          (Files.readFilled .source offset length kind bytes >>= fun all => Files.check >>= fun _ => pure all) s
          (some (failed error)) s := by
        rw [Files.readFilled,if_pos open_,sum]
        exact .act checked (.act (faulted fault _ _) (.done _ s))
      rw [size,chunkSame word]
      split
      · rename_i count answered
        obtain ⟨most,less,serves⟩ := preadServes content s (offset + bytes.length)
          (min (readChunkBytes + bytes.length) length - bytes.length) count
        generalize pread content (offset + bytes.length) _ count = piece at most less serves ⊢
        split
        · rename_i empty
          refine ⟨by omega,nofun,?_⟩
          by_cases positive : 0 < count
          · cases List.eq_nil_of_length_eq_zero empty
            rw [Files.readFilled,if_pos open_,sum]
            exact .act checked (.act (.inl (serves positive)) (.done _ s))
          · exact fails (odd (fun all => by simp [Serving,answered,Nat.eq_zero_of_not_pos positive] at all)) _
        split
        · rename_i some value total
          obtain ⟨-,rfl⟩ := checkedAddSome.mp total
          rw [← List.length_append]
          have fewer : moving (turn::rest) = moving rest + 1 := by simp [moving,answered]
          have next := heldNext held (show bytes.length + piece.length ≤ length by omega)
          refine tracedLater (fun all => ⟨(List.forall_mem_cons.mp all).2,fun less => ?_⟩) (fun {result} later => ?_)
            (ih later next next.size)
          · rw [List.length_append] at less
            omega
          · rw [Files.readFilled,if_pos open_,sum]
            refine .act checked (.act (.inl (serves (by omega))) ?_)
            cases piece with
            | nil => contradiction
            | cons first tail =>
              change Runs _ ((Files.lift (orFail _ (checkedAdd bytes.length (first::tail).length)) >>= fun _ =>
                Files.readFilled .source offset length kind (bytes ++ first::tail)) >>= _) s _ s
              rw [total]
              exact later
        · rename_i overflow
          have := checkedAddNone.mp overflow
          omega
      · rename_i interrupted
        split
        · rename_i error after
          exact ⟨rfl,nofun,fails (odd (fun all => nomatch after.symm.trans all.2.1)) error⟩
        · have same : moving (turn::rest) = moving rest := by simp [moving,interrupted]
          exact tracedLater (fun all => ⟨(List.forall_mem_cons.mp all).2,fun less => same ▸ less⟩) id (ih later held size)
      · rename_i error failure
        exact ⟨rfl,nofun,fails (odd (fun all => by simp [Serving,failure] at all)) _⟩

theorem alignedRounds {allocation : Nat} (ok : alignedPageBufferBytes length = .ok allocation) :
    allocation = (length + 63) / 64 * 64 := by
  obtain ⟨above,below,⟨blocks,rfl⟩,-⟩ := alignedExact ok
  omega

theorem observedTraced {first : Option StoreError} {observed : Observed} {requested : Option Nat} (word : length < modulus)
    (faulty : ¬(first = none ∧ last = none ∧ ∀ turn ∈ turns, Serving turn) → faults)
    (read : readExactAtObserved content offset length kind last first turns = (observed,requested)) :
    (observed = .panicked ∧ maxAllocation < (length + 63) / 64 * 64 ∨
      Traced content s length faults turns length (Files.readExactAt .source offset length kind) observed) ∧
    (∀ capacity, requested = some capacity → capacity = (length + 63) / 64 * 64) ∧
    (requested = none → ∃ error, observed = .returned (.error error) 0 0) := by
  unfold readExactAtObserved at read
  split at read
  · cases read
    have fault := faulty (fun all => nomatch all.1)
    exact ⟨.inr ⟨rfl,nofun,.act (faulted fault _ _) (.done _ s)⟩,nofun,fun _ => ⟨_,rfl⟩⟩
  split at read
  · rename_i error aligned
    cases read
    refine ⟨.inr ⟨rfl,nofun,?_⟩,nofun,fun _ => ⟨_,rfl⟩⟩
    rw [Files.readExactAt,aligned]
    exact .act checked (.done _ s)
  rename_i allocation aligned
  have rounded := alignedRounds aligned
  have capacities (capacity : Nat) (same : some allocation = some capacity) : capacity = (length + 63) / 64 * 64 :=
    Option.some.inj same ▸ rounded
  split at read
  · rename_i large
    cases read
    exact ⟨.inl ⟨rfl,rounded ▸ large⟩,capacities,nofun⟩
  · cases read
    have held : Held length (List.replicate length 0) [] := ⟨List.length_replicate,List.nil_prefix⟩
    have traced : Traced content s length faults turns length _ (readLoop content offset length kind last turns _ 0 0) :=
      loopRuns word (fun wrong => faulty (fun all => wrong all.2)) held
    refine ⟨.inr (tracedLater (fun all => ⟨all,id⟩) (fun {result} runs => ?_) traced),capacities,nofun⟩
    rw [Files.readExactAt,aligned]
    exact .act checked runs

theorem tracedExact {result : Except StoreError Bytes} {physical moved : Nat} (word : length < modulus)
    (traced : Traced content s length faults turns unread (Files.readExactAt .source offset length kind)
      (.returned result physical moved)) :
    physical = moved ∧ ∀ bytes, result = .ok bytes →
      bytes = (content.drop offset).take length ∧ bytes.length = length ∧ moved = length := by
  refine ⟨traced.1,fun bytes ok => ?_⟩
  subst ok
  have meets : Meets (Disk content faults) (fun _ _ => True) _ _ (Files.readExactAt .source offset length kind) s :=
    readWhole rfl False.elim False.elim word
  obtain ⟨-,ends,-⟩ := meetsRuns meets traced.2.2
  obtain ⟨-,long,front⟩ := ends bytes rfl
  exact ⟨long ▸ List.prefix_iff_eq_take.mp front,long,traced.2.1 bytes rfl⟩

theorem readExact {first : Option StoreError} {requested : Option Nat} {result : Except StoreError Bytes} {physical moved : Nat}
    (word : length < modulus)
    (read : readExactAtObserved content offset length kind last first turns = (.returned result physical moved,requested)) :
    physical = moved ∧ ∀ bytes, result = .ok bytes →
      bytes = (content.drop offset).take length ∧ bytes.length = length ∧ moved = length := by
  obtain ⟨panicked | traced,-⟩ := observedTraced (s := []) word (fun _ => trivial) read
  · cases panicked.1
  · exact tracedExact word traced

theorem readReturns (word : content.length < modulus) (within : offset + length ≤ content.length)
    (fits : (length + 63) / 64 * 64 ≤ maxAllocation) (serving : ∀ turn ∈ turns, Serving turn) (enough : length ≤ moving turns) :
    (readExactAtObserved content offset length kind none none turns).1 =
      .returned (.ok ((content.drop offset).take length)) length length := by
  have room : length + 63 < modulus := by
    unfold maxAllocation at fits
    unfold modulus
    omega
  have short : length < modulus := by omega
  have meets : Meets (Disk content False) (fun _ _ => True) _ _ (Files.readExactAt .source offset length kind) [] :=
    readWhole rfl (fun _ : True => within) (fun _ => ⟨word,room⟩) short
  generalize read : readExactAtObserved content offset length kind none none turns = both
  obtain ⟨observed,requested⟩ := both
  obtain ⟨⟨-,large⟩ | traced,-⟩ := observedTraced (s := []) short (fun wrong => wrong ⟨rfl,rfl,serving⟩) read
  · exact absurd fits (Nat.not_le.mpr large)
  cases observed with
  | panicked => exact traced.elim
  | running => exact absurd enough (Nat.not_le.mpr (traced serving))
  | returned result physical moved =>
    obtain ⟨counted,whole⟩ := tracedExact short traced
    cases result with
    | error error => simpa using (meetsRuns meets traced.2.2).2.2 _ rfl
    | ok bytes =>
      obtain ⟨same,-,all⟩ := whole bytes rfl
      rw [counted,all,same]

end Reads

section Writes
variable {offset : Nat} {bytes given done : Bytes} {writes : List (Nat × Bytes)} {last : Option StoreError} {turns : List Turn}

inductive Laid : Nat → List (Nat × Bytes) → Bytes → Prop where
  | nil (start : Nat) : Laid start [] []
  | cons {start : Nat} {piece rest : Bytes} {writes : List (Nat × Bytes)} :
      Laid (start + piece.length) writes rest → Laid start ((start,piece)::writes) (piece ++ rest)

theorem laidSnoc {start : Nat} (laid : Laid start writes done) (piece : Bytes) :
    Laid start (writes ++ [(start + done.length,piece)]) (done ++ piece) := by
  induction laid with
  | nil start => simpa using Laid.cons (.nil (start + piece.length))
  | @cons start first rest writes laid ih =>
    rw [List.cons_append,List.append_assoc,List.length_append,← Nat.add_assoc]
    exact .cons ih

theorem laidInside {start : Nat} (laid : Laid start writes done) {position : Nat} {piece : Bytes}
    (member : (position,piece) ∈ writes) : start ≤ position ∧ position + piece.length ≤ start + done.length ∧
      (done.drop (position - start)).take piece.length = piece := by
  induction laid with
  | nil => contradiction
  | @cons start first rest writes laid ih =>
    rw [List.length_append]
    rcases List.mem_cons.mp member with same | later
    · cases same
      simp
    · obtain ⟨after,before,same⟩ := ih later
      refine ⟨by omega,by omega,?_⟩
      have skipped : first.drop (position - start) = [] := List.drop_eq_nil_of_le (by omega)
      rw [List.drop_append,skipped,List.nil_append,Nat.sub_sub]
      exact same

def Placed (start : Nat) (given : Bytes) : Written → Prop
  | .running writes => ∃ done, Laid start writes done ∧ done <+: given
  | .returned result writes => ∃ done, Laid start writes done ∧ done <+: given ∧ (result = .ok () → done = given)

theorem finishedPlaced {start : Nat} (laid : Laid start writes given) : Placed start given (writeFinished last writes) := by
  unfold writeFinished
  split
  · exact ⟨given,laid,List.prefix_rfl,fun _ => rfl⟩
  · exact ⟨given,laid,List.prefix_rfl,nofun⟩

theorem loopPlaced {start : Nat} (laid : Laid start writes done) (rest : done ++ bytes = given) (here : offset = start + done.length) :
    Placed start given (writeAllAt last turns offset bytes writes) := by
  induction turns generalizing offset bytes writes done with
  | nil =>
    unfold writeAllAt
    split
    · rename_i none
      rw [none,List.append_nil] at rest
      exact finishedPlaced (rest ▸ laid)
    · exact ⟨done,laid,bytes,rest⟩
  | cons turn later ih =>
    have stopped (error : StoreError) : Placed start given (.returned (.error error) writes) :=
      ⟨done,laid,⟨bytes,rest⟩,nofun⟩
    unfold writeAllAt
    split
    · rename_i none
      rw [none,List.append_nil] at rest
      exact finishedPlaced (rest ▸ laid)
    split
    · exact stopped _
    split
    · rename_i count answered
      have most : min count (min bytes.length readChunkBytes) ≤ bytes.length :=
        Nat.le_trans (Nat.min_le_right ..) (Nat.min_le_left ..)
      simp only
      generalize min count (min bytes.length readChunkBytes) = count at most ⊢
      split
      · exact stopped _
      have wrote : Laid start (writes ++ [(offset,bytes.take count)]) (done ++ bytes.take count) := by
        rw [here]
        exact laidSnoc laid _
      have whole : done ++ bytes.take count ++ bytes.drop count = given := by
        rw [List.append_assoc,List.take_append_drop,rest]
      split
      · rename_i next sum
        obtain ⟨-,rfl⟩ := checkedAddSome.mp sum
        refine ih wrote whole ?_
        rw [List.length_append,List.length_take,Nat.min_eq_left most,here,Nat.add_assoc]
      · exact ⟨_,wrote,⟨_,whole⟩,nofun⟩
    · split
      · exact stopped _
      · exact ih laid rest here
    · exact stopped _

theorem writeReturns (word : offset + bytes.length < modulus) (serving : ∀ turn ∈ turns, Serving turn)
    (enough : bytes.length ≤ moving turns) : ∃ all, writeAllAt none turns offset bytes writes = .returned (.ok ()) all := by
  induction turns generalizing offset bytes writes with
  | nil =>
    have empty : bytes = [] := List.eq_nil_of_length_eq_zero (Nat.le_zero.mp enough)
    exact ⟨writes,by rw [writeAllAt,if_pos empty,writeFinished]⟩
  | cons turn rest ih =>
    obtain ⟨⟨before,after,outcome⟩,later⟩ := List.forall_mem_cons.mp serving
    rw [writeAllAt]
    split
    · exact ⟨writes,rfl⟩
    · rename_i filled
      rcases outcome with interrupted | ⟨count,positive,counted⟩
      · simp only [before,interrupted,after]
        exact ih word later (by simpa [moving,interrupted] using enough)
      · have fewer : moving (turn::rest) = moving rest + 1 := by simp [moving,counted]
        have most : min count (min bytes.length readChunkBytes) ≤ bytes.length :=
          Nat.le_trans (Nat.min_le_right ..) (Nat.min_le_left ..)
        have some : 0 < min count (min bytes.length readChunkBytes) :=
          Nat.lt_min.mpr ⟨positive,Nat.lt_min.mpr ⟨List.length_pos_iff.mpr filled,by decide⟩⟩
        simp only [before,counted]
        generalize min count (min bytes.length readChunkBytes) = count at most some ⊢
        have sum : checkedAdd offset count = .some (offset + count) :=
          checkedAddSome.mpr ⟨Nat.lt_of_le_of_lt (Nat.add_le_add_left most _) word,rfl⟩
        simp only [if_neg (Nat.ne_of_gt some),sum]
        have less : (bytes.drop count).length = bytes.length - count := List.length_drop
        refine ih ?_ later ?_
        · have same : offset + count + (bytes.drop count).length = offset + bytes.length := by omega
          rw [same]
          exact word
        · omega

end Writes

theorem laidWithin {offset : Nat} {given done : Bytes} {writes : List (Nat × Bytes)} (laid : Laid offset writes done)
    (front : done <+: given) {position : Nat} {piece : Bytes} (member : (position,piece) ∈ writes) :
    offset ≤ position ∧ position + piece.length ≤ offset + given.length ∧
      piece = (given.drop (position - offset)).take piece.length := by
  obtain ⟨rest,rfl⟩ := front
  obtain ⟨after,before,same⟩ := laidInside laid member
  rw [List.length_append]
  refine ⟨after,by omega,?_⟩
  rw [List.drop_append_of_le_length (by omega),List.take_append_of_le_length (by rw [List.length_drop]; omega),same]

theorem positionalExact :
    (∀ content offset length kind first last turns, offset < modulus → length < modulus →
      ∀ observed requested, readExactAtObserved content offset length kind last first turns = (observed,requested) →
        (∀ result physical moved, observed = .returned result physical moved → physical = moved ∧
          ∀ bytes, result = .ok bytes → bytes = (content.drop offset).take length ∧ bytes.length = length ∧ moved = length) ∧
        (∀ capacity, requested = some capacity → capacity = (length + 63) / 64 * 64) ∧
        (requested = none → ∃ error, observed = .returned (.error error) 0 0)) ∧
    (∀ content offset length kind turns, content.length < modulus → offset + length ≤ content.length →
      (length + 63) / 64 * 64 ≤ maxAllocation → (∀ turn ∈ turns, Serving turn) → length ≤ moving turns →
        (readExactAtObserved content offset length kind none none turns).1 =
          .returned (.ok ((content.drop offset).take length)) length length) ∧
    (∀ offset given last turns, offset < modulus →
      (∀ result writes, writeAllAt last turns offset given [] = .returned result writes →
        ∃ done, Laid offset writes done ∧ done <+: given ∧ (result = .ok () → done = given)) ∧
      (∀ writes, (∃ result, writeAllAt last turns offset given [] = .returned result writes) ∨
          writeAllAt last turns offset given [] = .running writes →
        ∀ position piece, (position,piece) ∈ writes → offset ≤ position ∧ position + piece.length ≤ offset + given.length ∧
          piece = (given.drop (position - offset)).take piece.length)) ∧
    ∀ offset given turns, offset + given.length < modulus → (∀ turn ∈ turns, Serving turn) → given.length ≤ moving turns →
      ∃ writes, writeAllAt none turns offset given [] = .returned (.ok ()) writes := by
  refine ⟨?read,?returns,?write,fun offset given turns word => writeReturns word⟩
  case read =>
    intro content offset length kind first last turns _ word observed requested read
    refine ⟨fun result physical moved returned => ?_,(observedTraced (s := []) word (fun _ => trivial) read).2⟩
    subst returned
    exact readExact word read
  case returns =>
    intro content offset length kind turns word within fits serving enough
    exact readReturns word within fits serving enough
  case write =>
    intro offset given last turns _
    have placed : Placed offset given (writeAllAt last turns offset given []) :=
      loopPlaced (.nil offset) (List.nil_append given) (Nat.add_zero offset).symm
    refine ⟨fun result writes returned => ?_,fun writes stopped position piece member => ?_⟩
    · rw [returned] at placed
      exact placed
    · rcases stopped with ⟨result,returned⟩ | running
      · rw [returned] at placed
        obtain ⟨done,laid,front,-⟩ := placed
        exact laidWithin laid front member
      · rw [running] at placed
        obtain ⟨done,laid,front⟩ := placed
        exact laidWithin laid front member

def shortTurns : List Turn :=
  [⟨none,.interrupted,none⟩,⟨none,.moved 1,none⟩,⟨none,.moved 9,none⟩,⟨none,.moved 1,none⟩]

theorem shortTurnsExact :
    (readExactAtObserved [10,20,30,40,50] 1 3 "page" none none shortTurns).1 = .returned (.ok [20,30,40]) 3 3 ∧
      ∃ writes, writeAllAt none shortTurns 7 [1,2,3] [] = .returned (.ok ()) writes := by
  have serving : ∀ turn ∈ shortTurns, Serving turn := by simp [shortTurns,Serving]
  exact ⟨positionalExact.2.1 [10,20,30,40,50] 1 3 "page" shortTurns (by decide) (by decide) (by decide) serving (by decide),
    positionalExact.2.2.2 7 [1,2,3] shortTurns (by decide) serving (by decide)⟩

end RunnelMoe.Positional
