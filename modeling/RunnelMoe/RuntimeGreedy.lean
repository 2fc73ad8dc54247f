import RunnelMoe.KernelBf16
import RunnelMoe.Results
import RunnelMoe.Words

/-! Greedy generation over a model whose evaluation is any function of its state and a token.
The model checks the token and the context before it evaluates, so a generation that passed
its own check of the length never meets the second one, and its steps are those of a run
over the prompt and the tokens it fed back. -/
namespace RunnelMoe.Runtime
open Results Words Kernels

def eosToken : Nat := 0

inductive RuntimeError (E : Type) where
  | emptySequence
  | invalidToken (token vocabSize : Nat)
  | contextLimit (limit : Nat)
  | evaluation (error : E)
  deriving DecidableEq, Repr

inductive Halt (E : Type) where
  | panicked
  | failed (error : RuntimeError E)
  deriving DecidableEq, Repr

structure StepOutput (R : Type) where
  inputToken : Nat
  logits : List F32
  route : R
  deriving DecidableEq, Repr

structure Generation (R : Type) where
  generatedTokens : List Nat
  steps : List (StepOutput R)
  deriving DecidableEq, Repr

-- Evaluation is what follows the two checks: its state, its errors and its routes are its own.
structure TinyModel (S R E : Type) where
  contextLength : Nat
  vocabSize : Nat
  fresh : S
  length : S → Nat
  evaluate : S → Nat → Except E (S × StepOutput R)
  contextWord : contextLength < modulus
  vocabPositive : 0 < vocabSize
  vocabWord : vocabSize ≤ 2^32
  freshLength : length fresh = 0
  grows : ∀ {s token s' out}, evaluate s token = .ok (s',out) → length s' = length s + 1
  wide : ∀ {s token s' out}, evaluate s token = .ok (s',out) → out.logits.length = vocabSize
  finite : ∀ {s token s' out}, evaluate s token = .ok (s',out) → ∀ logit ∈ out.logits, finite32 logit = true

-- Comparison of two patterns as numbers, false on every NaN.
def greater (a b : F32) : Bool := !nan32 a && !nan32 b && decide (value32 b < value32 a)

def bestOf (logits : List F32) : Nat :=
  (List.range' 1 (logits.length - 1)).foldl
    (fun best candidate => if greater (logits.getD candidate 0) (logits.getD best 0) then candidate else best) 0

def greedyToken {E : Type} (logits : List F32) : Except (Halt E) Nat :=
  if bestOf logits < 2^32 then .ok (bestOf logits) else .error .panicked

namespace TinyModel
variable {S R E : Type} (model : TinyModel S R E)

def forwardToken (state : S) (token : Nat) : Except (Halt E) (S × StepOutput R) :=
  if token ≥ model.vocabSize then .error (.failed (.invalidToken token model.vocabSize))
  else if model.length state ≥ model.contextLength then .error (.failed (.contextLimit model.contextLength))
  else (model.evaluate state token).mapError (fun error => .failed (.evaluation error))

def feed : S → List Nat → List (StepOutput R) → Except (Halt E) (S × List (StepOutput R))
  | state, [], outputs => .ok (state,outputs)
  | state, token::rest, outputs => do
    let (state,output) ← model.forwardToken state token
    feed state rest (outputs ++ [output])

def runTokens (tokens : List Nat) : Except (Halt E) (List (StepOutput R)) :=
  if tokens = [] then .error (.failed .emptySequence)
  else if tokens.length > model.contextLength then .error (.failed (.contextLimit model.contextLength))
  else do
    let (_,outputs) ← model.feed model.fresh tokens []
    .ok outputs

def extend : Nat → S → List (StepOutput R) → List Nat → Except (Halt E) (Generation R)
  | 0, _, steps, tokens => .ok ⟨tokens,steps⟩
  | left+1, state, steps, tokens => match steps.getLast? with
    | none => .error .panicked
    | some last => do
      let next ← greedyToken last.logits
      let tokens := tokens ++ [next]
      if next = eosToken ∨ left = 0 then .ok ⟨tokens,steps⟩
      else
        let (state,output) ← model.forwardToken state next
        extend left state (steps ++ [output]) tokens

def generateGreedy (prompt : List Nat) (maxNewTokens : Nat) : Except (Halt E) (Generation R) :=
  if prompt = [] then .error (.failed .emptySequence)
  else match checkedAdd prompt.length (maxNewTokens - 1) with
    | none => .error (.failed (.contextLimit model.contextLength))
    | some required =>
      if required > model.contextLength then .error (.failed (.contextLimit model.contextLength))
      else do
        let (state,steps) ← model.feed model.fresh prompt []
        model.extend maxNewTokens state steps []

end TinyModel

section Choice
variable {logits : List F32}

def Leads (logits : List F32) (best seen : Nat) : Prop :=
  best < seen ∧ (∀ j < seen, value32 (logits.getD j 0) ≤ value32 (logits.getD best 0)) ∧
    ∀ j < best, value32 (logits.getD j 0) < value32 (logits.getD best 0)

theorem finiteGreater {a b : F32} (first : finite32 a = true) (second : finite32 b = true) :
    greater a b = true ↔ value32 b < value32 a := by
  simp [greater,finiteNumber first,finiteNumber second]

theorem leadsStep {best seen : Nat} (finite : ∀ logit ∈ logits, finite32 logit = true) (inside : seen < logits.length)
    (leads : Leads logits best seen) :
    Leads logits (if greater (logits.getD seen 0) (logits.getD best 0) then seen else best) (seen+1) := by
  obtain ⟨earlier,most,first⟩ := leads
  have pattern {i : Nat} (below : i < logits.length) : finite32 (logits.getD i 0) = true := by
    rw [List.getD_eq_getElem _ _ below]
    exact finite _ (List.getElem_mem below)
  have compared := finiteGreater (pattern inside) (pattern (Nat.lt_trans earlier inside))
  split
  · rename_i passed
    have more := compared.mp passed
    have strict (j : Nat) (below : j < seen) := lt_of_le_of_lt (most j below) more
    refine ⟨Nat.lt_succ_self seen,fun j below => ?_,strict⟩
    rcases Nat.lt_succ_iff_lt_or_eq.mp below with old | rfl
    · exact le_of_lt (strict j old)
    · exact le_refl _
  · rename_i kept
    refine ⟨Nat.lt_succ_of_lt earlier,fun j below => ?_,first⟩
    rcases Nat.lt_succ_iff_lt_or_eq.mp below with old | rfl
    · exact most j old
    · exact not_lt.mp (mt compared.mpr kept)

theorem bestLeads (finite : ∀ logit ∈ logits, finite32 logit = true) (some : 0 < logits.length) :
    Leads logits (bestOf logits) logits.length := by
  have run (count start best : Nat) (inside : start + count ≤ logits.length) (leads : Leads logits best start) :
      Leads logits ((List.range' start count).foldl
        (fun best candidate => if greater (logits.getD candidate 0) (logits.getD best 0) then candidate else best) best)
        (start + count) := by
    induction count generalizing start best with
    | zero => exact leads
    | succ count ih =>
      rw [List.range'_succ,List.foldl_cons,Nat.add_comm count,← Nat.add_assoc]
      exact ih (start+1) _ (by omega) (leadsStep finite (by omega) leads)
  have start : Leads logits 0 1 := by
    refine ⟨Nat.one_pos,fun j below => ?_,nofun⟩
    rw [Nat.lt_one_iff.mp below]
  have whole := run (logits.length - 1) 1 0 (by omega) start
  rwa [Nat.add_sub_cancel' some] at whole

end Choice

section Generated
variable {S R E : Type} {model : TinyModel S R E} {s s' : S} {tokens : List Nat} {outs : List (StepOutput R)}
  {logits : List F32} {left : Nat}

inductive Fed (model : TinyModel S R E) : S → List Nat → List (StepOutput R) → S → Prop where
  | nil (s : S) : Fed model s [] [] s
  | cons {s s' last : S} {token : Nat} {out : StepOutput R} {rest : List Nat} {outs : List (StepOutput R)} : model.forwardToken s token = .ok (s',out) →
      Fed model s' rest outs last → Fed model s (token::rest) (out::outs) last

inductive Chain (model : TinyModel S R E) : Nat → S → List F32 → List Nat → List (StepOutput R) → Prop where
  | none (s : S) (logits : List F32) : Chain model 0 s logits [] []
  | last {left : Nat} (s : S) (logits : List F32) : bestOf logits = eosToken ∨ left = 0 → Chain model (left+1) s logits [bestOf logits] []
  | more {left : Nat} {s s' : S} {logits : List F32} {out : StepOutput R} {tokens : List Nat} {outs : List (StepOutput R)} :
      ¬(bestOf logits = eosToken ∨ left = 0) →
      model.forwardToken s (bestOf logits) = .ok (s',out) → Chain model left s' out.logits tokens outs →
      Chain model (left+1) s logits (bestOf logits::tokens) (out::outs)

structure Scored (model : TinyModel S R E) (logits : List F32) : Prop where
  wide : logits.length = model.vocabSize
  finite : ∀ logit ∈ logits, finite32 logit = true

theorem forwardEvaluates {token : Nat} {out : StepOutput R} (ok : model.forwardToken s token = .ok (s',out)) :
    model.evaluate s token = .ok (s',out) := by
  obtain ⟨-,ok⟩ := guardOk.mp ok
  obtain ⟨-,ok⟩ := guardOk.mp ok
  exact mapErrorOk.mp ok

theorem forwardScored {token : Nat} {out : StepOutput R} (ok : model.forwardToken s token = .ok (s',out)) :
    Scored model out.logits :=
  ⟨model.wide (forwardEvaluates ok),model.finite (forwardEvaluates ok)⟩

theorem scoredLeads (scored : Scored model logits) : Leads logits (bestOf logits) logits.length :=
  bestLeads scored.finite (scored.wide ▸ model.vocabPositive)

theorem scoredToken (scored : Scored model logits) : (greedyToken logits : Except (Halt E) Nat) = .ok (bestOf logits) := by
  have inside := (scoredLeads scored).1
  have word := model.vocabWord
  rw [scored.wide] at inside
  exact if_pos (Nat.lt_of_lt_of_le inside word)

theorem feedOk {all : List (StepOutput R)} : model.feed s tokens outs = .ok (s',all) ↔
    ∃ more, Fed model s tokens more s' ∧ all = outs ++ more := by
  induction tokens generalizing s outs with
  | nil =>
    constructor
    · intro ok
      cases ok
      exact ⟨[],.nil _,(List.append_nil _).symm⟩
    · rintro ⟨more,fed,rfl⟩
      cases fed
      rw [List.append_nil]
      rfl
  | cons token rest ih =>
    constructor
    · intro ok
      obtain ⟨⟨next,out⟩,first,ok⟩ := bindOk.mp ok
      obtain ⟨more,fed,rfl⟩ := ih.mp ok
      exact ⟨out::more,.cons first fed,by simp⟩
    · rintro ⟨more,fed,rfl⟩
      cases fed with
      | cons first fed => exact bindOk.mpr ⟨_,first,ih.mpr ⟨_,fed,by simp⟩⟩

theorem fedAppend {rest : List Nat} {more : List (StepOutput R)} {last : S} (first : Fed model s tokens outs s')
    (second : Fed model s' rest more last) : Fed model s (tokens ++ rest) (outs ++ more) last := by
  induction first with
  | nil => exact second
  | cons step _ ih => exact .cons step (ih second)

theorem fedLength (fed : Fed model s tokens outs s') :
    model.length s' = model.length s + tokens.length ∧ outs.length = tokens.length := by
  induction fed with
  | nil => exact ⟨rfl,rfl⟩
  | cons step _ ih =>
    have grown := model.grows (forwardEvaluates step)
    simp only [List.length_cons]
    omega

theorem fedLast (fed : Fed model s tokens outs s') (filled : tokens ≠ []) :
    ∃ last, outs.getLast? = some last ∧ Scored model last.logits := by
  induction fed with
  | nil => contradiction
  | @cons _ _ _ _ out _ _ step fed ih =>
    cases fed with
    | nil => exact ⟨out,rfl,forwardScored step⟩
    | cons second fed =>
      obtain ⟨found,ends,scored⟩ := ih (by simp)
      exact ⟨found,by rw [List.getLast?_cons_cons]; exact ends,scored⟩

theorem extendOk {steps : List (StepOutput R)} {last : StepOutput R} {gen : Generation R}
    (ends : steps.getLast? = some last) (scored : Scored model last.logits) :
    model.extend left s steps tokens = .ok gen ↔
      ∃ more outs, Chain model left s last.logits more outs ∧ gen = ⟨tokens ++ more,steps ++ outs⟩ := by
  induction left generalizing s steps tokens last with
  | zero =>
    constructor
    · intro ok
      cases ok
      exact ⟨[],[],.none s _,by simp⟩
    · rintro ⟨more,outs,chain,rfl⟩
      cases chain
      simp [TinyModel.extend]
  | succ left ih =>
    rw [TinyModel.extend,ends]
    simp only
    rw [scoredToken scored]
    constructor
    · intro ok
      obtain ⟨_,same,ok⟩ := bindOk.mp ok
      cases same
      split at ok
      · rename_i stop
        cases ok
        exact ⟨[bestOf last.logits],[],.last s _ stop,by simp⟩
      · rename_i go
        obtain ⟨⟨next,out⟩,step,ok⟩ := bindOk.mp ok
        obtain ⟨more,outs,chain,rfl⟩ := (ih (by simp) (forwardScored step)).mp ok
        exact ⟨_,_,.more go step chain,by simp⟩
    · rintro ⟨more,outs,chain,rfl⟩
      refine bindOk.mpr ⟨_,rfl,?_⟩
      cases chain with
      | last _ _ stop =>
        rw [if_pos stop]
        simp
      | more go step chain =>
        rw [if_neg go]
        exact bindOk.mpr ⟨_,step,(ih (by simp) (forwardScored step)).mpr ⟨_,_,chain,by simp⟩⟩

theorem chainFilled (chain : Chain model (left+1) s logits tokens outs) : tokens ≠ [] := by
  cases chain <;> simp

theorem chainFed (chain : Chain model left s logits tokens outs) : ∃ last, Fed model s tokens.dropLast outs last := by
  induction chain with
  | none s => exact ⟨s,.nil s⟩
  | last s => exact ⟨s,.nil s⟩
  | @more left _ _ _ _ _ _ go step chain ih =>
    obtain ⟨last,fed⟩ := ih
    cases left with
    | zero => exact absurd (.inr rfl) go
    | succ left =>
      rw [List.dropLast_cons_of_ne_nil (chainFilled chain)]
      exact ⟨last,.cons step fed⟩

theorem chainShortened (chain : Chain model left s logits tokens outs) {fewer : Nat} (le : fewer ≤ left) :
    Chain model fewer s logits (tokens.take fewer) (outs.take (fewer - 1)) := by
  induction chain generalizing fewer with
  | none s logits =>
    cases Nat.le_zero.mp le
    exact .none s logits
  | @last left s logits stop =>
    cases fewer with
    | zero => exact .none s logits
    | succ fewer =>
      rw [List.take_nil,List.take_of_length_le (by simp)]
      refine .last s logits (stop.imp_right fun none => ?_)
      omega
  | @more left s _ logits _ _ _ go step chain ih =>
    cases fewer with
    | zero => exact .none s logits
    | succ fewer =>
      cases fewer with
      | zero => exact .last s logits (.inr rfl)
      | succ fewer =>
        have rest := ih (Nat.le_of_succ_le_succ le)
        exact .more (fun stop => go (stop.imp_right fun none => absurd none (Nat.succ_ne_zero _))) step rest

theorem chainChosen (chain : Chain model left s logits tokens outs) (scored : Scored model logits) {i : Nat}
    (inside : i < tokens.length) : ∃ scores, (logits::outs.map StepOutput.logits)[i]? = some scores ∧
      Scored model scores ∧ tokens[i] = bestOf scores := by
  induction chain generalizing i with
  | none => exact absurd inside (Nat.not_lt_zero _)
  | last s logits =>
    cases Nat.lt_one_iff.mp inside
    exact ⟨logits,rfl,scored,rfl⟩
  | more go step chain ih =>
    cases i with
    | zero => exact ⟨_,rfl,scored,rfl⟩
    | succ i => exact ih (forwardScored step) (Nat.lt_of_succ_lt_succ inside)

theorem chainEnds (chain : Chain model left s logits tokens outs) :
    eosToken ∉ tokens.dropLast ∧ tokens.length ≤ left ∧ (tokens.length = left ∨ tokens.getLast? = some eosToken) := by
  induction chain with
  | none => simp
  | last s logits stop =>
    refine ⟨by simp,by simp,?_⟩
    rcases stop with eos | rfl
    · exact .inr (by simp [eos])
    · exact .inl rfl
  | @more left _ _ _ _ _ _ go step chain ih =>
    obtain ⟨inner,short,full⟩ := ih
    cases left with
    | zero => exact absurd (.inr rfl) go
    | succ left =>
      have filled := chainFilled chain
      rw [List.dropLast_cons_of_ne_nil filled,List.getLast?_cons_of_ne_nil filled]
      refine ⟨List.not_mem_cons_of_ne_of_not_mem (fun eos => go (.inl eos.symm)) inner,Nat.succ_le_succ short,?_⟩
      exact full.imp_left (congrArg Nat.succ)

def Own : Halt E → Prop
  | .panicked => False
  | .failed (.contextLimit _) => False
  | .failed _ => True

theorem forwardOwn (token : Nat) (room : model.length s < model.contextLength) :
    Ends Own (fun next => model.length next.1 = model.length s + 1) (model.forwardToken s token) := by
  unfold TinyModel.forwardToken
  split
  · trivial
  rw [if_neg (Nat.not_le.mpr room)]
  cases found : model.evaluate s token with
  | error stop => trivial
  | ok next => exact model.grows found

theorem feedOwn (room : model.length s + tokens.length ≤ model.contextLength) :
    Ends Own (fun _ => True) (model.feed s tokens outs) := by
  induction tokens generalizing s outs with
  | nil => trivial
  | cons token rest ih =>
    rw [List.length_cons] at room
    refine endsBind (forwardOwn token (by omega)) (fun next grown => ih ?_)
    omega

theorem extendOwn {steps : List (StepOutput R)} {last : StepOutput R} (ends : steps.getLast? = some last)
    (scored : Scored model last.logits) (room : model.length s + (left - 1) ≤ model.contextLength) :
    Ends Own (fun _ => True) (model.extend left s steps tokens) := by
  induction left generalizing s steps tokens last with
  | zero => trivial
  | succ left ih =>
    rw [TinyModel.extend,ends]
    simp only
    rw [scoredToken scored]
    show Ends Own _ (if bestOf last.logits = eosToken ∨ left = 0 then _ else _)
    split
    · trivial
    · rename_i go
      have positive : left ≠ 0 := fun none => go (.inr none)
      refine endsBindOk (forwardOwn (bestOf last.logits) (by omega)) (fun next step grown => ?_)
      exact ih (by simp) (forwardScored step) (by omega)

variable {prompt : List Nat} {maxNewTokens : Nat} {gen : Generation R}

theorem generateRoomy (filled : prompt ≠ []) (room : prompt.length + (maxNewTokens - 1) ≤ model.contextLength) :
    model.generateGreedy prompt maxNewTokens = (do
      let (state,steps) ← model.feed model.fresh prompt []
      model.extend maxNewTokens state steps []) := by
  have word := model.contextWord
  have sum : checkedAdd prompt.length (maxNewTokens - 1) = some (prompt.length + (maxNewTokens - 1)) :=
    checkedAddSome.mpr ⟨by omega,rfl⟩
  rw [TinyModel.generateGreedy,if_neg filled,sum]
  simp only [if_neg (Nat.not_lt.mpr room)]

theorem generateOk : model.generateGreedy prompt maxNewTokens = .ok gen ↔
    prompt ≠ [] ∧ prompt.length + (maxNewTokens - 1) ≤ model.contextLength ∧
      ∃ s steps last more outs, Fed model model.fresh prompt steps s ∧ steps.getLast? = some last ∧
        Scored model last.logits ∧ Chain model maxNewTokens s last.logits more outs ∧ gen = ⟨more,steps ++ outs⟩ := by
  constructor
  · intro ok
    have filled : prompt ≠ [] := (guardOk.mp ok).1
    have room : prompt.length + (maxNewTokens - 1) ≤ model.contextLength := by
      have rest := (guardOk.mp ok).2
      cases sum : checkedAdd prompt.length (maxNewTokens - 1) with
      | none => simp [sum] at rest
      | some required =>
        simp only [sum] at rest
        rw [← (checkedAddSome.mp sum).2]
        exact Nat.not_lt.mp (guardOk.mp rest).1
    rw [generateRoomy filled room] at ok
    obtain ⟨⟨s,steps⟩,fed,ok⟩ := bindOk.mp ok
    obtain ⟨steps,fed,rfl⟩ := feedOk.mp fed
    obtain ⟨last,ends,scored⟩ := fedLast fed filled
    obtain ⟨more,outs,chain,rfl⟩ := (extendOk ends scored).mp ok
    exact ⟨filled,room,s,steps,last,more,outs,fed,ends,scored,chain,rfl⟩
  · rintro ⟨filled,room,s,steps,last,more,outs,fed,ends,scored,chain,rfl⟩
    rw [generateRoomy filled room]
    exact bindOk.mpr ⟨(s,steps),feedOk.mpr ⟨steps,fed,rfl⟩,(extendOk ends scored).mpr ⟨more,outs,chain,rfl⟩⟩

theorem generateOwn (filled : prompt ≠ []) (room : prompt.length + (maxNewTokens - 1) ≤ model.contextLength) :
    Ends Own (fun _ => True) (model.generateGreedy prompt maxNewTokens) := by
  rw [generateRoomy filled room]
  have short : model.length model.fresh + prompt.length ≤ model.contextLength := by
    rw [model.freshLength]
    omega
  refine endsBindOk (feedOwn short) (fun ⟨s,steps⟩ ok _ => ?_)
  obtain ⟨steps,fed,rfl⟩ := feedOk.mp ok
  obtain ⟨last,ends,scored⟩ := fedLast fed filled
  exact extendOwn ends scored (by rw [(fedLength fed).1,model.freshLength]; omega)

theorem fedRuns (filled : tokens ≠ []) (short : tokens.length ≤ model.contextLength)
    (fed : Fed model model.fresh tokens outs s) : model.runTokens tokens = .ok outs := by
  rw [TinyModel.runTokens,if_neg filled,if_neg (Nat.not_lt.mpr short)]
  exact bindOk.mpr ⟨(s,outs),feedOk.mpr ⟨outs,fed,rfl⟩,rfl⟩

end Generated

theorem greedyAgrees {S R E : Type} (model : TinyModel S R E) (prompt : List Nat) (filled : prompt ≠ []) :
    (∀ n gen, model.generateGreedy prompt n = .ok gen → ∀ m ≤ n, ∃ part, model.generateGreedy prompt m = .ok part ∧
      part.generatedTokens = gen.generatedTokens.take (min m gen.generatedTokens.length) ∧
      model.runTokens (prompt ++ part.generatedTokens.dropLast) = .ok part.steps ∧
      (∀ i, (inside : i < part.generatedTokens.length) → ∃ step, part.steps[prompt.length - 1 + i]? = some step ∧
        step.logits.length = model.vocabSize ∧ Leads step.logits part.generatedTokens[i] step.logits.length) ∧
      eosToken ∉ part.generatedTokens.dropLast ∧ part.generatedTokens.length ≤ m ∧
      (part.generatedTokens.length = m ∨ part.generatedTokens.getLast? = some eosToken)) ∧
    ∀ n, prompt.length + (n - 1) ≤ model.contextLength →
      (∀ limit, model.generateGreedy prompt n ≠ .error (.failed (.contextLimit limit))) ∧
        model.generateGreedy prompt n ≠ .error .panicked := by
  refine ⟨?generated,?limited⟩
  case limited =>
    intro n room
    have own := generateOwn filled room
    exact ⟨fun limit stop => by rw [stop] at own; exact own,fun stop => by rw [stop] at own; exact own⟩
  intro n gen ok m le
  obtain ⟨-,room,s,steps,last,tokens,outs,fed,ends,scored,chain,rfl⟩ := generateOk.mp ok
  have shorter := chainShortened chain le
  have room' : prompt.length + (m - 1) ≤ model.contextLength := by omega
  obtain ⟨once,short,full⟩ := chainEnds shorter
  refine ⟨⟨tokens.take m,steps ++ outs.take (m - 1)⟩,generateOk.mpr
    ⟨filled,room',s,steps,last,_,_,fed,ends,scored,shorter,rfl⟩,?_,?_,?_,once,short,full⟩
  · rw [List.take_eq_take_min]
  · obtain ⟨final,fed'⟩ := chainFed shorter
    refine fedRuns (by simp [filled]) ?_ (fedAppend fed fed')
    rw [List.length_append,List.length_dropLast]
    exact Nat.le_trans (Nat.add_le_add_left (Nat.sub_le_sub_right short 1) _) room'
  · intro i inside
    obtain ⟨scores,found,scored',chosen⟩ := chainChosen shorter scored inside
    obtain ⟨before,rfl⟩ := List.getLast?_eq_some_iff.mp ends
    have length : prompt.length = before.length + 1 := by
      rw [← (fedLength fed).2,List.length_append,List.length_singleton]
    have placed : (before ++ [last] ++ outs.take (m - 1))[prompt.length - 1 + i]? = (last::outs.take (m - 1))[i]? := by
      rw [List.append_assoc,length,Nat.add_sub_cancel,List.getElem?_append_right (Nat.le_add_right ..),Nat.add_sub_cancel_left]
      rfl
    rw [← List.map_cons (f := StepOutput.logits),List.getElem?_map] at found
    obtain ⟨step,here,rfl⟩ := Option.map_eq_some_iff.mp found
    exact ⟨step,placed.trans here,scored'.wide,chosen ▸ scoredLeads scored'⟩

def shortModel : TinyModel Nat Unit Unit where
  contextLength := 5
  vocabSize := 2
  fresh := 0
  length := id
  evaluate s token := .ok (s+1,⟨token,if s < 2 then [0,0x3f800000] else [0x3f800000,0],()⟩)
  contextWord := by decide
  vocabPositive := by decide
  vocabWord := by norm_num
  freshLength := rfl
  grows ok := by
    cases ok
    rfl
  wide ok := by
    cases ok
    dsimp only
    split <;> rfl
  finite ok := by
    cases ok
    dsimp only
    intro logit member
    have either : logit = 0 ∨ logit = 0x3f800000 := by
      split at member <;> simpa [or_comm] using member
    rcases either with rfl | rfl <;> decide

theorem shortGeneration : ∃ gen part, shortModel.generateGreedy [1] 5 = .ok gen ∧ gen.generatedTokens = [1,1,0] ∧
    shortModel.generateGreedy [1] 2 = .ok part ∧ part.generatedTokens = [1,1] := by
  obtain ⟨gen,whole,all⟩ := okAny (x := shortModel.generateGreedy [1] 5) (P := fun gen => gen.generatedTokens = [1,1,0])
    (by decide +kernel)
  obtain ⟨part,ok,tokens,-⟩ := (greedyAgrees shortModel [1] (by decide)).1 5 gen whole 2 (by decide)
  rw [all] at tokens
  exact ⟨gen,part,whole,all,ok,tokens⟩

end RunnelMoe.Runtime
