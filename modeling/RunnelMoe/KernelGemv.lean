import Mathlib.Algebra.Ring.Basic
import Mathlib.Algebra.BigOperators.Group.List.Basic
import Mathlib.Tactic.Ring
import RunnelMoe.KernelBf16
import RunnelMoe.KernelChecks

/-! The native kernel and the scalar one over any commutative ring. An element read outside its
buffer stops the native kernel, and beside its output it keeps which weight it used with which
input and which rows it wrote. Both kernels come to the same sum over the columns of a row. -/
namespace RunnelMoe.Kernels
open Results Words

def runnelWidenBf16 (value : BitVec 16) : F32 := value.setWidth 32 <<< 16

abbrev Uses := List (Nat × Nat)

structure Computed (R : Type) where
  output : List R
  uses : Uses
  writes : List Nat

section Kernels
variable {R : Type} [CommRing R] (real : F32 → R)

def load8 {A : Type} (values : List A) (start : Nat) : Option (Fin 8 → A) :=
  if inside : start + 8 ≤ values.length then some (fun i => values.get ⟨start + i,by omega⟩) else none

def laneSum (lanes : Fin 8 → R) : R :=
  lanes 0 + lanes 1 + lanes 2 + lanes 3 + lanes 4 + lanes 5 + lanes 6 + lanes 7

variable (weights : List (BitVec 16)) (input : List F32)

def vectorStep (base : Nat) (state : (Fin 8 → R) × Uses) (column : Nat) : Option ((Fin 8 → R) × Uses) := do
  let packed ← load8 weights (base + column)
  let values ← load8 input column
  some (fun i => state.1 i + real (runnelWidenBf16 (packed i)) * real (values i),
    state.2 ++ (List.range 8).map (fun i => (base + (column + i),column + i)))

def tailStep (base column remaining : Nat) (state : R × Uses) (k : Nat) : Option (R × Uses) :=
  if remaining ≥ k + 1 then do
    let weight ← weights[base + (column + k)]?
    let value ← input[column + k]?
    some (state.1 + real (runnelWidenBf16 weight) * real value,state.2 ++ [(base + (column + k),column + k)])
  else some state

def nativeRow (columns row : Nat) : Option (R × Uses) := do
  let vectorColumns := columns - columns % 8
  let base := row * columns % modulus
  let (lanes,uses) ← (List.range' 0 (vectorColumns / 8) 8).foldlM (vectorStep real weights input base) (fun _ => 0,[])
  (List.range 7).foldlM (tailStep real weights input base vectorColumns (columns - vectorColumns)) (laneSum lanes,uses)

def nativeStep (columns : Nat) (state : Computed R) (row : Nat) : Option (Computed R) := do
  let (sum,uses) ← nativeRow real weights input columns row
  if row < state.output.length then some ⟨state.output.set row sum,state.uses ++ uses,state.writes ++ [row]⟩ else none

def runnelBf16GemvAvx2 (output : List R) (rows columns : Nat) : Option (Computed R) :=
  (List.range rows).foldlM (nativeStep real weights input columns) ⟨output,[],[]⟩

-- A row of the matrix beyond its words stops the program.
def scalarRow (words : List (BitVec 16)) (columns row : Nat) : Option R :=
  let start := row * columns
  if start + columns ≤ words.length then
    some ((((words.drop start).take columns).zip input).foldl
      (fun sum pair => sum + real (Bf16.mk pair.1).toF32 * real pair.2) 0)
  else none

def scalarCompute (words : List (BitVec 16)) (columns : Nat) (output : List R) : Option (List R) :=
  (List.range output.length).mapM (scalarRow real input words columns)

end Kernels

section Rows
variable {R : Type} [CommRing R] {real : F32 → R} {weights : List (BitVec 16)} {input : List F32}
  {base columns row : Nat}

def term (real : F32 → R) (weights : List (BitVec 16)) (input : List F32) (base column : Nat) : R :=
  real (runnelWidenBf16 (weights.getD (base + column) 0)) * real (input.getD column 0)

def total (real : F32 → R) (weights : List (BitVec 16)) (input : List F32) (base columns : Nat) : R :=
  ((List.range columns).map (term real weights input base)).sum

def rowUses (base columns : Nat) : Uses := (List.range columns).map (fun column => (base + column,column))

theorem totalAdd (n m : Nat) : total real weights input base (n + m) =
    total real weights input base n + ((List.range m).map (fun k => term real weights input base (n + k))).sum := by
  unfold total
  rw [List.range_add,List.map_append,List.sum_append,List.map_map]
  rfl

theorem usesAdd (n m : Nat) : rowUses base (n + m) =
    rowUses base n ++ (List.range m).map (fun k => (base + (n + k),n + k)) := by
  unfold rowUses
  rw [List.range_add,List.map_append,List.map_map]
  rfl

theorem laneSumAdd (lanes terms : Fin 8 → R) : laneSum (fun i => lanes i + terms i) = laneSum lanes + laneSum terms := by
  unfold laneSum
  ring

theorem loaded {A : Type} (values : List A) (fallback : A) {start : Nat} (inside : start + 8 ≤ values.length) :
    load8 values start = some (fun i : Fin 8 => values.getD (start + i.val) fallback) := by
  rw [load8,dif_pos inside]
  congr 1
  funext i
  rw [List.getD_eq_getElem _ _ (by omega),List.get_eq_getElem]

theorem vectorSteps (real : F32 → R) {weights : List (BitVec 16)} {input : List F32} {base n : Nat} (weightsLong : base + 8*n ≤ weights.length) (inputLong : 8*n ≤ input.length) :
    ∃ lanes, (List.range' 0 n 8).foldlM (vectorStep real weights input base) (fun _ => 0,[]) =
      some (lanes,rowUses base (8*n)) ∧ laneSum lanes = total real weights input base (8*n) := by
  induction n with
  | zero => exact ⟨fun _ => 0,rfl,by simp [laneSum,total]⟩
  | succ n ih =>
    obtain ⟨lanes,ok,sum⟩ := ih (by omega) (by omega)
    refine ⟨fun i => lanes i + term real weights input base (8*n + i.val),?_,?_⟩
    · rw [List.range'_concat,List.foldlM_append,ok,Nat.zero_add]
      show (vectorStep real weights input base (lanes,rowUses base (8*n)) (8*n) >>= fun s => pure s) = _
      rw [bind_pure,vectorStep,loaded weights 0 (by omega),loaded input 0 (by omega),Nat.mul_succ,usesAdd]
      simp only [Option.bind_eq_bind,Option.bind_some,term,Nat.add_assoc]
    · rw [laneSumAdd,sum,Nat.mul_succ,totalAdd]
      congr 1
      simp [laneSum,List.range_succ,add_assoc]

theorem tailSteps {column remaining m : Nat} (sum : R) (uses : Uses) (weightsLong : base + (column + remaining) ≤ weights.length)
    (inputLong : column + remaining ≤ input.length) (small : m ≤ remaining) :
    (List.range m).foldlM (tailStep real weights input base column remaining) (sum,uses) =
      some (sum + ((List.range m).map (fun k => term real weights input base (column + k))).sum,
        uses ++ (List.range m).map (fun k => (base + (column + k),column + k))) := by
  induction m with
  | zero => simp
  | succ m ih =>
    have weight : weights[base + (column + m)]? = some (weights.getD (base + (column + m)) 0) := by
      rw [List.getD_eq_getElem _ _ (by omega),List.getElem?_eq_getElem]
    have value : input[column + m]? = some (input.getD (column + m) 0) := by
      rw [List.getD_eq_getElem _ _ (by omega),List.getElem?_eq_getElem]
    rw [List.range_succ,List.foldlM_append,ih (Nat.le_of_succ_le small)]
    show (tailStep real weights input base column remaining _ m >>= fun s => pure s) = _
    rw [bind_pure,tailStep,if_pos small,weight,value]
    simp [term,add_assoc]

theorem tailIdle {column remaining : Nat} (state : R × Uses) {ks : List Nat} (past : ∀ k ∈ ks, remaining ≤ k) :
    ks.foldlM (tailStep real weights input base column remaining) state = some state := by
  induction ks with
  | nil => rfl
  | cons k rest ih =>
    obtain ⟨here,later⟩ := List.forall_mem_cons.mp past
    rw [List.foldlM_cons,tailStep,if_neg (by omega)]
    exact ih later

theorem tailWhole (real : F32 → R) {column remaining : Nat} (sum : R) (uses : Uses) (short : remaining ≤ 7)
    (weightsLong : base + (column + remaining) ≤ weights.length) (inputLong : column + remaining ≤ input.length) :
    (List.range 7).foldlM (tailStep real weights input base column remaining) (sum,uses) =
      some (sum + ((List.range remaining).map (fun k => term real weights input base (column + k))).sum,
        uses ++ (List.range remaining).map (fun k => (base + (column + k),column + k))) := by
  have cut : List.range 7 = List.range remaining ++ (List.range (7 - remaining)).map (remaining + ·) := by
    rw [← List.range_add,Nat.add_sub_cancel' short]
  rw [cut,List.foldlM_append,tailSteps sum uses weightsLong inputLong (Nat.le_refl _)]
  refine tailIdle _ (fun k member => ?_)
  obtain ⟨j,-,rfl⟩ := List.mem_map.mp member
  exact Nat.le_add_right ..

theorem nativeRowValue (word : row * columns < modulus) (weightsLong : row * columns + columns ≤ weights.length)
    (inputLong : columns ≤ input.length) : nativeRow real weights input columns row =
      some (total real weights input (row * columns) columns,rowUses (row * columns) columns) := by
  have small : columns % 8 < 8 := Nat.mod_lt _ (by decide)
  have most : columns % 8 ≤ columns := Nat.mod_le ..
  have blocks : 8 * ((columns - columns % 8) / 8) = columns - columns % 8 := by omega
  have whole : columns - columns % 8 + (columns - (columns - columns % 8)) = columns := by omega
  obtain ⟨lanes,body,sum⟩ := vectorSteps real (show row * columns + 8 * ((columns - columns % 8) / 8) ≤ weights.length by omega)
    (show 8 * ((columns - columns % 8) / 8) ≤ input.length by omega)
  rw [blocks] at body sum
  have tail := tailWhole real (laneSum lanes) (rowUses (row * columns) (columns - columns % 8)) (show _ ≤ 7 by omega)
    (show row * columns + (columns - columns % 8 + (columns - (columns - columns % 8))) ≤ weights.length by omega)
    (whole ▸ inputLong)
  rw [nativeRow]
  simp only [Nat.mod_eq_of_lt word,body,Option.bind_eq_bind,Option.bind_some]
  rw [tail,sum,← totalAdd,← usesAdd,whole]

theorem foldTotal (pairs : List (BitVec 16 × F32)) (sum : R) :
    pairs.foldl (fun sum pair => sum + real (Bf16.mk pair.1).toF32 * real pair.2) sum =
      sum + (pairs.map (fun pair => real (Bf16.mk pair.1).toF32 * real pair.2)).sum := by
  induction pairs generalizing sum with
  | nil => simp
  | cons pair rest ih => rw [List.foldl_cons,ih,List.map_cons,List.sum_cons,add_assoc]

theorem scalarRowValue (weightsLong : row * columns + columns ≤ weights.length) (inputExact : input.length = columns) :
    scalarRow real input weights columns row = some (total real weights input (row * columns) columns) := by
  have pairs : ((weights.drop (row * columns)).take columns).zip input =
      (List.range columns).map (fun k => (weights.getD (row * columns + k) 0,input.getD k 0)) := by
    apply List.ext_getElem
    · simp only [List.length_zip,List.length_take,List.length_drop,List.length_map,List.length_range]
      omega
    · intro k left right
      rw [List.length_map,List.length_range] at right
      rw [List.getElem_zip,List.getElem_take,List.getElem_drop,List.getElem_map,List.getElem_range,
        List.getD_eq_getElem _ _ (by omega),List.getD_eq_getElem _ _ (by omega)]
  rw [scalarRow]
  simp only [if_pos weightsLong]
  rw [foldTotal,pairs,List.map_map,zero_add]
  rfl

end Rows

section Whole
variable {R : Type} [CommRing R] {real : F32 → R} {weights : List (BitVec 16)} {input : List F32} {output : List R}
  {rows columns : Nat}

theorem usesRow (row : Nat) : rowUses (row * columns) columns =
    (List.range columns).map (fun k => (row * columns + k,(row * columns + k) % columns)) := by
  refine List.map_congr_left (fun k member => ?_)
  rw [Nat.mul_add_mod',Nat.mod_eq_of_lt (List.mem_range.mp member)]

theorem nativeSteps (real : F32 → R) {n : Nat} (word : rows * columns < modulus)
    (weightsExact : weights.length = rows * columns) (inputExact : input.length = columns) (outputExact : output.length = rows)
    (most : n ≤ rows) : (List.range n).foldlM (nativeStep real weights input columns) ⟨output,[],[]⟩ =
      some ⟨(List.range n).map (fun row => total real weights input (row * columns) columns) ++ output.drop n,
        (List.range (n * columns)).map (fun i => (i,i % columns)),List.range n⟩ := by
  induction n with
  | zero => simp
  | succ n ih =>
    have inside : n * columns + columns ≤ rows * columns := by
      rw [← Nat.succ_mul]
      exact Nat.mul_le_mul_right _ most
    rw [List.range_succ,List.foldlM_append,ih (Nat.le_of_succ_le most)]
    show (nativeStep real weights input columns _ n >>= fun s => pure s) = _
    have room : n < ((List.range n).map (fun row => total real weights input (row * columns) columns) ++ output.drop n).length := by
      simp only [List.length_append,List.length_map,List.length_range,List.length_drop]
      omega
    have next : output.drop n = output[n] :: output.drop (n+1) := List.drop_eq_getElem_cons (by omega)
    rw [bind_pure,nativeStep,nativeRowValue (by omega) (by omega) (by omega)]
    simp only [Option.bind_eq_bind,Option.bind_some,if_pos room]
    rw [List.set_append_right _ _ (by simp),List.length_map,List.length_range,Nat.sub_self,next,List.set_cons_zero,
      List.map_append,List.append_assoc,Nat.succ_mul,List.range_add,List.map_append,List.map_map,usesRow]
    rfl

theorem mapSome {A B : Type} {f : A → Option B} {g : A → B} {items : List A} (each : ∀ a ∈ items, f a = some (g a)) :
    items.mapM f = some (items.map g) := by
  induction items with
  | nil => rfl
  | cons a rest ih =>
    obtain ⟨here,later⟩ := List.forall_mem_cons.mp each
    rw [List.mapM_cons,here,ih later]
    rfl

theorem rowInside {row : Nat} (below : row < rows) : row * columns + columns ≤ rows * columns := by
  rw [← Nat.succ_mul]
  exact Nat.mul_le_mul_right _ below

theorem scalarValue (weightsExact : weights.length = rows * columns) (inputExact : input.length = columns)
    (outputExact : output.length = rows) : scalarCompute real input weights columns output =
      some ((List.range rows).map (fun row => total real weights input (row * columns) columns)) := by
  rw [scalarCompute,outputExact]
  refine mapSome (fun row member => scalarRowValue ?_ inputExact)
  rw [weightsExact]
  exact rowInside (List.mem_range.mp member)

end Whole

def mapStatus : NativeStatus → Except KernelError Unit
  | .success => .ok ()
  | status => .error (.nativeFailure status)

def gemv {R : Type} [CommRing R] (real : F32 → R) (compiled avx2 : Bool) (weightsAt inputAt outputAt : Nat)
    (weights : List (BitVec 16)) (input : List F32) (output : List R) (rows columns : Nat) :
    Except KernelError (Option (Computed R)) := do
  let sizes ← gemvChecks ⟨weightsAt,weights.length⟩ ⟨inputAt,input.length⟩ ⟨outputAt,output.length⟩ rows columns
  if !compiled then .error .backendUnavailable
  else do
    mapStatus (entryStatus avx2 (sliceArguments ⟨weightsAt,weights.length⟩ ⟨inputAt,input.length⟩ ⟨outputAt,output.length⟩ rows columns sizes))
    .ok (runnelBf16GemvAvx2 real weights input output rows columns)

theorem acceptedWords {a : Arguments} (accepts : Accepts a) : a.Words := by
  have top (x y : Nat) (fits : x + y < modulus) : x < modulus ∧ y < modulus :=
    ⟨Nat.lt_of_le_of_lt (Nat.le_add_right ..) fits,Nat.lt_of_le_of_lt (Nat.le_add_left ..) fits⟩
  obtain ⟨weights,weightBytes⟩ := top _ _ accepts.weightsEnd
  obtain ⟨input,inputBytes⟩ := top _ _ accepts.inputEnd
  obtain ⟨output,outputBytes⟩ := top _ _ accepts.outputEnd
  refine ⟨weights,weightBytes,input,inputBytes,output,outputBytes,?_,?_⟩
  · rw [accepts.outputBytes] at outputBytes
    exact Nat.lt_of_le_of_lt (Nat.le_mul_of_pos_right _ (by decide)) outputBytes
  · rw [accepts.inputBytes] at inputBytes
    exact Nat.lt_of_le_of_lt (Nat.le_mul_of_pos_right _ (by decide)) inputBytes

theorem nativeRefinesScalar :
    (∀ {R : Type} [CommRing R] (real : F32 → R) (weightsAt inputAt outputAt : Nat) (weights : List (BitVec 16))
      (input : List F32) (output : List R) (rows columns : Nat) (sizes : ByteLengths),
      gemvChecks ⟨weightsAt,weights.length⟩ ⟨inputAt,input.length⟩ ⟨outputAt,output.length⟩ rows columns = .ok sizes →
      (∀ avx2, entryStatus avx2 ⟨weightsAt,sizes.weights,inputAt,sizes.input,outputAt,sizes.output,rows,columns⟩ =
        if avx2 then .success else .unavailableIsa) ∧
      ∃ computed, runnelBf16GemvAvx2 real weights input output rows columns = some computed ∧
        computed.uses = (List.range (rows * columns)).map (fun index => (index,index % columns)) ∧
        computed.writes = List.range rows ∧
        scalarCompute real input weights columns output = some computed.output ∧
        (∀ avx2, gemv real true avx2 weightsAt inputAt outputAt weights input output rows columns =
          if avx2 then .ok (some computed) else .error (.nativeFailure .unavailableIsa))) ∧
    ∀ a : Arguments, a.Words → entryRejects a = none →
      gemvChecks ⟨a.weights,a.weightBytes / 2⟩ ⟨a.input,a.inputBytes / 4⟩ ⟨a.output,a.outputBytes / 4⟩ a.rows a.columns =
        .ok ⟨a.weightBytes,a.inputBytes,a.outputBytes⟩ := by
  refine ⟨?native,?back⟩
  case native =>
    intro R _ real weightsAt inputAt outputAt weights input output rows columns sizes ok
    obtain ⟨accepts,weightsExact,inputExact,outputExact⟩ := gemvChecksOk.mp ok
    have words := acceptedWords accepts
    have passed := (entryAccepts words).mpr accepts
    have status (avx2 : Bool) : entryStatus avx2 (sliceArguments ⟨weightsAt,weights.length⟩ ⟨inputAt,input.length⟩
        ⟨outputAt,output.length⟩ rows columns sizes) = if avx2 then .success else .unavailableIsa := by
      rw [entryStatus,passed]
    have word : rows * columns < modulus := by
      have bytes := words.weightBytes
      rw [accepts.weightBytes] at bytes
      exact Nat.lt_of_le_of_lt (Nat.le_mul_of_pos_right _ (by decide)) bytes
    have native := nativeSteps real word weightsExact inputExact outputExact (Nat.le_refl rows)
    rw [List.drop_of_length_le (Nat.le_of_eq outputExact),List.append_nil] at native
    refine ⟨status,_,native,rfl,rfl,scalarValue weightsExact inputExact outputExact,fun avx2 => ?_⟩
    have called : gemv real true avx2 weightsAt inputAt outputAt weights input output rows columns =
        mapStatus (if avx2 then .success else .unavailableIsa) >>= fun _ =>
          .ok (runnelBf16GemvAvx2 real weights input output rows columns) := by
      rw [← status,gemv,ok]
      rfl
    rw [called,runnelBf16GemvAvx2,native]
    cases avx2 with
    | true => rfl
    | false => rfl
  case back =>
    intro a words passed
    have accepts := (entryAccepts words).mp passed
    refine gemvChecksOk.mpr ⟨accepts,?_,?_,?_⟩
    · have := accepts.weightBytes
      show a.weightBytes / 2 = _
      omega
    · have := accepts.inputBytes
      show a.inputBytes / 4 = _
      omega
    · have := accepts.outputBytes
      show a.outputBytes / 4 = _
      omega

def nineWeights : List (BitVec 16) := [1,2,3,4,5,6,7,8,9]
def nineInput : List F32 := [1,1,1,1,1,1,1,1,1]

theorem nineColumnsAgree :
    ∃ computed, runnelBf16GemvAvx2 (fun x : F32 => (x.toNat : Int)) nineWeights nineInput [0] 1 9 = some computed ∧
      scalarCompute (fun x : F32 => (x.toNat : Int)) nineInput nineWeights 9 [0] = some computed.output := by
  have ok : gemvChecks ⟨64,nineWeights.length⟩ ⟨128,nineInput.length⟩ ⟨256,[(0 : Int)].length⟩ 1 9 = .ok ⟨18,36,4⟩ := by
    decide
  obtain ⟨-,computed,native,-,-,scalar,-⟩ :=
    nativeRefinesScalar.1 (fun x : F32 => (x.toNat : Int)) 64 128 256 nineWeights nineInput [0] 1 9 _ ok
  exact ⟨computed,native,scalar⟩

end RunnelMoe.Kernels
