import Mathlib.Logic.Relation
import Mathlib.Tactic.Common

/-! Programs that act on a shared state through calls. What a call answers and does to
the state is a relation, so one call may have many outcomes; a script may be stopped
before any of its calls, and then its run has no result. The rules for Does say at once
by which moves each call changes the state, wherever a run is stopped, and what holds of
the value of a run that was not stopped. -/
namespace RunnelMoe.Scripts

inductive Script (S E : Type) {C : Type} (Value : C → Type) (A : Type) : Type 1 where
  | done (result : Except E A)
  | look {B : Type} (read : S → B) (next : B → Script S E Value A)
  | act (call : C) (next : Except E (Value call) → Script S E Value A)

namespace Script
variable {S E C : Type} {Value : C → Type} {A B : Type}

def bind : Script S E Value A → (A → Script S E Value B) → Script S E Value B
  | .done (.ok a), f => f a
  | .done (.error e), _ => .done (.error e)
  | .look read next, f => .look read (fun b => (next b).bind f)
  | .act call next, f => .act call (fun answer => (next answer).bind f)

instance scriptMonad : Monad (Script S E Value) where
  pure a := .done (.ok a)
  bind := bind

def fail (e : E) : Script S E Value A := .done (.error e)

def reading (read : S → Except E A) : Script S E Value A := .look read .done

def perform (call : C) : Script S E Value (Value call) := .act call .done

-- The result of a part as a value: an error in it is left to the caller.
def attempt : Script S E Value A → Script S E Value (Except E A)
  | .done result => .done (.ok result)
  | .look read next => .look read (fun b => (next b).attempt)
  | .act call next => .act call (fun answer => (next answer).attempt)

theorem bindPure (p : Script S E Value A) : p >>= pure = p := by
  induction p with
  | done result =>
    cases result with
    | ok a => rfl
    | error e => rfl
  | look read next ih => exact congrArg (look read) (funext ih)
  | act call next ih => exact congrArg (act call) (funext ih)

theorem bindAssoc {D : Type} (p : Script S E Value A) (f : A → Script S E Value B) (g : B → Script S E Value D) :
    (p >>= f) >>= g = p >>= fun a => f a >>= g := by
  induction p with
  | done result =>
    cases result with
    | ok a => rfl
    | error e => rfl
  | look read next ih => exact congrArg (look read) (funext ih)
  | act call next ih => exact congrArg (act call) (funext ih)

end Script

open Script

section Runs
variable {S E C : Type} {Value : C → Type} {A B I X : Type}
  (acts : (call : C) → S → Except E (Value call) → S → Prop)

inductive Runs : Script S E Value A → S → Option (Except E A) → S → Prop where
  | stopped (p s) : Runs p s none s
  | done (result s) : Runs (.done result) s (some result) s
  | look {B : Type} {read : S → B} {next s out last} (later : Runs (next (read s)) s out last) :
      Runs (.look read next) s out last
  | act {call next s answer middle out last} (acted : acts call s answer middle)
      (later : Runs (next answer) middle out last) : Runs (.act call next) s out last

inductive Steps : Script S E Value A → S → Script S E Value A → S → Prop where
  | look {B : Type} {read : S → B} {next s} : Steps (.look read next) s (next (read s)) s
  | act {call next s answer last} (acted : acts call s answer last) : Steps (.act call next) s (next answer) last

abbrev Trails (move : S → S → Prop) : S → S → Prop := Relation.ReflTransGen move

def Does (move : S → S → Prop) (post : A → S → Prop) : Script S E Value A → S → Prop
  | .done result, s => ∀ a, result = .ok a → post a s
  | .look read next, s => Does move post (next (read s)) s
  | .act call next, s => ∀ answer t, acts call s answer t → Trails move s t ∧ Does move post (next answer) t

variable {acts} {move : S → S → Prop} {post : A → S → Prop} {p : Script S E Value A} {s t : S}

theorem doesRuns (does : Does acts move post p s) {out : Option (Except E A)} (runs : Runs acts p s out t) :
    Trails move s t ∧ ∀ a, out = some (.ok a) → post a t := by
  induction runs with
  | stopped => exact ⟨.refl,nofun⟩
  | done result s => exact ⟨.refl,fun a same => does a (Option.some.inj same)⟩
  | look _ ih => exact ih does
  | act acted _ ih =>
    obtain ⟨first,does⟩ := does _ _ acted
    obtain ⟨rest,value⟩ := ih does
    exact ⟨first.trans rest,value⟩

variable {f : A → Script S E Value B}

theorem runsBind {out : Option (Except E B)} (runs : Runs acts (p >>= f) s out t) :
    (∃ a m, Runs acts p s (some (.ok a)) m ∧ Runs acts (f a) m out t) ∨ (Runs acts p s none t ∧ out = none) ∨
      ∃ e, Runs acts p s (some (.error e)) t ∧ out = some (.error e) := by
  induction p generalizing s with
  | done result =>
    cases result with
    | ok a => exact .inl ⟨a,s,.done _ s,runs⟩
    | error e =>
      cases runs with
      | stopped => exact .inr (.inl ⟨.stopped _ _,rfl⟩)
      | done => exact .inr (.inr ⟨e,.done _ _,rfl⟩)
  | look read next ih =>
    cases runs with
    | stopped => exact .inr (.inl ⟨.stopped _ _,rfl⟩)
    | look runs =>
      rcases ih _ runs with ⟨a,m,first,later⟩ | ⟨first,none⟩ | ⟨e,first,failed⟩
      · exact .inl ⟨a,m,.look first,later⟩
      · exact .inr (.inl ⟨.look first,none⟩)
      · exact .inr (.inr ⟨e,.look first,failed⟩)
  | act call next ih =>
    cases runs with
    | stopped => exact .inr (.inl ⟨.stopped _ _,rfl⟩)
    | act acted runs =>
      rcases ih _ runs with ⟨a,m,first,later⟩ | ⟨first,none⟩ | ⟨e,first,failed⟩
      · exact .inl ⟨a,m,.act acted first,later⟩
      · exact .inr (.inl ⟨.act acted first,none⟩)
      · exact .inr (.inr ⟨e,.act acted first,failed⟩)

theorem trailsMono {wide : S → S → Prop} (widen : ∀ t u, Trails move s t → move t u → wide t u) (trail : Trails move s t) :
    Trails wide s t := by
  induction trail with
  | refl => exact .refl
  | tail before moved ih => exact ih.tail (widen _ _ before moved)

theorem doesMono {wide : S → S → Prop} {loose : A → S → Prop} (does : Does acts move post p s)
    (widen : ∀ t u, Trails move s t → move t u → wide t u) (loosen : ∀ a t, Trails move s t → post a t → loose a t) :
    Does acts wide loose p s := by
  induction p generalizing s with
  | done result => exact fun a same => loosen a s .refl (does a same)
  | look read next ih => exact ih (read s) does widen loosen
  | act call next ih =>
    intro answer t acted
    obtain ⟨trail,does⟩ := does answer t acted
    refine ⟨trailsMono widen trail,ih answer does (fun u v rest => ?_) (fun a u rest => ?_)⟩
    · exact widen u v (trail.trans rest)
    · exact loosen a u (trail.trans rest)

theorem doesLoose {loose : A → S → Prop} (does : Does acts move post p s)
    (loosen : ∀ a t, Trails move s t → post a t → loose a t) : Does acts move loose p s :=
  doesMono does (fun _ _ _ moved => moved) loosen

theorem doesPure {a : A} (value : post a s) : Does acts move post (pure a : Script S E Value A) s := by
  intro b same
  cases same
  exact value

theorem doesFail {e : E} : Does acts move post (fail e : Script S E Value A) s := nofun

theorem doesReading {read : S → Except E A} (value : ∀ a, read s = .ok a → post a s) :
    Does acts move post (reading read : Script S E Value A) s := value

theorem doesBind {middle : A → S → Prop} {post : B → S → Prop} (first : Does acts move middle p s)
    (second : ∀ a t, Trails move s t → middle a t → Does acts move post (f a) t) :
    Does acts move post (p >>= f) s := by
  induction p generalizing s with
  | done result =>
    cases result with
    | error e => exact doesFail
    | ok a => exact second a s .refl (first a rfl)
  | look read next ih => exact ih (read s) first second
  | act call next ih =>
    intro answer t acted
    obtain ⟨trail,first⟩ := first answer t acted
    exact ⟨trail,ih answer first (fun a u rest => second a u (trail.trans rest))⟩

theorem doesAttemptThen {call : C} {f : Except E (Value call) → Script S E Value B} {post : B → S → Prop}
    (later : ∀ answer t, acts call s answer t → Trails move s t ∧ Does acts move post (f answer) t) :
    Does acts move post ((perform call).attempt >>= f) s := later

theorem doesPerformThen {call : C} {f : Value call → Script S E Value B} {post : B → S → Prop}
    (later : ∀ answer t, acts call s answer t → Trails move s t ∧ ∀ a, answer = .ok a → Does acts move post (f a) t) :
    Does acts move post (perform call >>= f) s := by
  intro answer t acted
  obtain ⟨trail,later⟩ := later answer t acted
  cases answer with
  | error e => exact ⟨trail,doesFail⟩
  | ok a => exact ⟨trail,later a rfl⟩

theorem doesFold {step : X → I → Script S E Value X} (Inv : List I → X → S → Prop) {items : List I} {x : X}
    (start : Inv items x s)
    (preserved : ∀ i rest x t, i ∈ items → Trails move s t → Inv (i::rest) x t →
      Does acts move (Inv rest) (step x i) t) :
    Does acts move (Inv []) (items.foldlM step x) s := by
  induction items generalizing x s with
  | nil => exact doesPure start
  | cons i rest ih =>
    rw [List.foldlM_cons]
    refine doesBind (preserved i rest x s List.mem_cons_self .refl start) (fun next t trail kept => ih kept ?_)
    exact fun j more x u member further => preserved j more x u (List.mem_cons_of_mem _ member) (trail.trans further)

/-! Values and errors together: what holds where a run ends well and where it fails -/

variable (acts move) in
def Meets (post : A → S → Prop) (wrong : E → S → Prop) : Script S E Value A → S → Prop
  | .done (.ok a), s => post a s
  | .done (.error e), s => wrong e s
  | .look read next, s => Meets post wrong (next (read s)) s
  | .act call next, s => ∀ answer t, acts call s answer t → Trails move s t ∧ Meets post wrong (next answer) t

section Meeting
variable {wrong : E → S → Prop}

theorem meetsRuns (meets : Meets acts move post wrong p s) {out : Option (Except E A)} (runs : Runs acts p s out t) :
    Trails move s t ∧ (∀ a, out = some (.ok a) → post a t) ∧ ∀ e, out = some (.error e) → wrong e t := by
  induction runs with
  | stopped => exact ⟨.refl,nofun,nofun⟩
  | done result s =>
    cases result with
    | ok a => exact ⟨.refl,fun b same => by cases same; exact meets,nofun⟩
    | error e => exact ⟨.refl,nofun,fun d same => by cases same; exact meets⟩
  | look _ ih => exact ih meets
  | act acted _ ih =>
    obtain ⟨first,meets⟩ := meets _ _ acted
    obtain ⟨rest,ends⟩ := ih meets
    exact ⟨first.trans rest,ends⟩

theorem meetsBind {middle : A → S → Prop} {f : A → Script S E Value B} {post : B → S → Prop}
    (first : Meets acts move middle wrong p s)
    (second : ∀ a t, Trails move s t → middle a t → Meets acts move post wrong (f a) t) :
    Meets acts move post wrong (p >>= f) s := by
  induction p generalizing s with
  | done result =>
    cases result with
    | error e => exact first
    | ok a => exact second a s .refl first
  | look read next ih => exact ih (read s) first second
  | act call next ih =>
    intro answer t acted
    obtain ⟨trail,first⟩ := first answer t acted
    exact ⟨trail,ih answer first (fun a u rest => second a u (trail.trans rest))⟩

theorem meetsPerformThen {call : C} {f : Value call → Script S E Value B} {post : B → S → Prop}
    (later : ∀ answer t, acts call s answer t → Trails move s t ∧
      (∀ a, answer = .ok a → Meets acts move post wrong (f a) t) ∧ ∀ e, answer = .error e → wrong e t) :
    Meets acts move post wrong (perform call >>= f) s := by
  intro answer t acted
  obtain ⟨trail,ok,fails⟩ := later answer t acted
  cases answer with
  | error e => exact ⟨trail,fails e rfl⟩
  | ok a => exact ⟨trail,ok a rfl⟩

end Meeting

theorem runsEnd (total : ∀ call s, ∃ answer t, acts call s answer t) (p : Script S E Value A) (s : S) :
    ∃ out last, Runs acts p s (some out) last := by
  induction p generalizing s with
  | done result => exact ⟨result,s,.done result s⟩
  | look read next ih =>
    obtain ⟨out,last,runs⟩ := ih (read s) s
    exact ⟨out,last,.look runs⟩
  | act call next ih =>
    obtain ⟨answer,t,acted⟩ := total call s
    obtain ⟨out,last,runs⟩ := ih answer t
    exact ⟨out,last,.act acted runs⟩

theorem stepsEnd (path : Nat → Script S E Value A × S) :
    ¬∀ n, Steps acts (path n).1 (path n).2 (path (n + 1)).1 (path (n + 1)).2 := by
  suffices ∀ p (path : Nat → Script S E Value A × S), (path 0).1 = p →
      ¬∀ n, Steps acts (path n).1 (path n).2 (path (n + 1)).1 (path (n + 1)).2 from this _ path rfl
  intro p
  induction p with
  | done result =>
    intro path start steps
    have first := steps 0
    rw [start] at first
    cases first
  | look read next ih =>
    intro path start steps
    have first := steps 0
    rw [start] at first
    refine ih (read (path 0).2) (fun n => path (n + 1)) ?_ (fun n => steps (n + 1))
    generalize path (0 + 1) = after at first
    obtain ⟨q,t⟩ := after
    cases first
    rfl
  | act call next ih =>
    intro path start steps
    have first := steps 0
    rw [start] at first
    generalize same : path (0 + 1) = after at first
    obtain ⟨q,t⟩ := after
    cases first with
    | act acted => exact ih _ (fun n => path (n + 1)) (congrArg Prod.fst same) (fun n => steps (n + 1))

variable (acts) in
def Concludes (allowed : Except E A → Prop) (p : Script S E Value A) (s : S) : Prop :=
  ∀ out last, Runs acts p s (some out) last → allowed out

section Conclusions
variable {allowed : Except E A → Prop}

theorem concludesDone {result : Except E A} : Concludes acts allowed (.done result) s ↔ allowed result := by
  refine ⟨fun all => all result s (.done result s),fun holds out last runs => ?_⟩
  cases runs
  exact holds

theorem concludesLook {read : S → B} {next : B → Script S E Value A} :
    Concludes acts allowed (.look read next) s ↔ Concludes acts allowed (next (read s)) s := by
  refine ⟨fun all out last runs => all out last (.look runs),fun all out last runs => ?_⟩
  cases runs with
  | look runs => exact all out last runs

theorem concludesAct {call : C} {next : Except E (Value call) → Script S E Value A} :
    Concludes acts allowed (.act call next) s ↔
      ∀ answer t, acts call s answer t → Concludes acts allowed (next answer) t := by
  refine ⟨fun all answer t acted out last runs => all out last (.act acted runs),fun all out last runs => ?_⟩
  cases runs with
  | act acted runs => exact all _ _ acted out last runs

end Conclusions

/-! Scripts that come to a value only with a watched call -/

variable (acts) in
def Reaches (p : Script S E Value A) (s : S) (q : Script S E Value A) (t : S) : Prop :=
  Relation.ReflTransGen (fun a b : Script S E Value A × S => Steps acts a.1 a.2 b.1 b.2) (p,s) (q,t)

def Heeds (watch : C → Prop) : Script S E Value A → Prop
  | .done _ => True
  | .look _ next => ∀ b, Heeds watch (next b) ∧ ∀ a, next b ≠ .done (.ok a)
  | .act call next => ∀ answer, Heeds watch (next answer) ∧
      ∀ a, next answer = .done (.ok a) → watch call ∧ ∃ value, answer = .ok value

section Heeding
variable {watch : C → Prop} {q : Script S E Value A}

theorem doesReaches (does : Does acts move post p s) (reaches : Reaches acts p s q t) :
    Trails move s t ∧ Does acts move post q t := by
  unfold Reaches at reaches
  generalize last : (q,t) = b at reaches
  induction reaches generalizing q t with
  | refl =>
    cases last
    exact ⟨.refl,does⟩
  | @tail a b _ step ih =>
    cases last
    obtain ⟨trail,does⟩ := ih rfl
    generalize a.1 = middle at step does
    cases step with
    | look => exact ⟨trail,does⟩
    | act acted => exact ⟨trail.trans (does _ _ acted).1,(does _ _ acted).2⟩

theorem heedsReaches (heeds : Heeds watch p) (reaches : Reaches acts p s q t) : Heeds watch q := by
  unfold Reaches at reaches
  generalize last : (q,t) = b at reaches
  induction reaches generalizing q t with
  | refl =>
    cases last
    exact heeds
  | @tail a b _ step ih =>
    cases last
    have heeds := ih rfl
    generalize a.1 = middle at step heeds
    cases step with
    | look => exact (heeds _).1
    | act => exact (heeds _).1

theorem heedsRuns (fails : ∀ call s answer t, watch call → acts call s answer t → ∃ e, answer = .error e)
    (heeds : Heeds watch p) (unfinished : ∀ a, p ≠ .done (.ok a)) {out : Option (Except E A)} (runs : Runs acts p s out t) :
    ∀ a, out ≠ some (.ok a) := by
  induction runs with
  | stopped => exact nofun
  | done result s =>
    intro a same
    exact unfinished a (congrArg Script.done (Option.some.inj same))
  | look _ ih => exact ih (heeds _).1 (heeds _).2
  | act acted _ ih =>
    refine ih (heeds _).1 (fun a same => ?_)
    obtain ⟨watched,value,rfl⟩ := (heeds _).2 a same
    obtain ⟨e,wrong⟩ := fails _ _ _ _ watched acted
    cases wrong

theorem heedsBind (later : ∀ a, Heeds watch (f a) ∧ ∀ b, f a ≠ .done (.ok b)) (p : Script S E Value A) :
    Heeds watch (p >>= f) ∧ ∀ b, p >>= f ≠ .done (.ok b) := by
  induction p with
  | done result =>
    cases result with
    | ok a => exact later a
    | error e => exact ⟨trivial,nofun⟩
  | look read next ih => exact ⟨ih,nofun⟩
  | act call next ih => exact ⟨fun answer => ⟨(ih answer).1,fun b same => absurd same ((ih answer).2 b)⟩,nofun⟩

variable (watch) in
theorem heedsLast {call : C} (watched : watch call) (b : B) :
    Heeds watch (perform call >>= fun _ => pure b : Script S E Value B) ∧
      ∀ a, (perform call >>= fun _ => pure b : Script S E Value B) ≠ .done (.ok a) := by
  refine ⟨fun answer => ?_,nofun⟩
  cases answer with
  | ok value => exact ⟨trivial,fun _ _ => ⟨watched,value,rfl⟩⟩
  | error e => exact ⟨trivial,nofun⟩

end Heeding

theorem runsMono {wide : (call : C) → S → Except E (Value call) → S → Prop}
    (widen : ∀ call s answer t, acts call s answer t → wide call s answer t) {out : Option (Except E A)}
    (runs : Runs acts p s out t) : Runs wide p s out t := by
  induction runs with
  | stopped => exact .stopped _ _
  | done result s => exact .done result s
  | look _ ih => exact .look ih
  | act acted _ ih => exact .act (widen _ _ _ _ acted) ih

/-! A player answers every call of a script. -/

def play (player : (call : C) → S → Except E (Value call) × S) : Script S E Value A → S → Except E A × S
  | .done result, s => (result,s)
  | .look read next, s => play player (next (read s)) s
  | .act call next, s => play player (next (player call s).1) (player call s).2

theorem playBind (player : (call : C) → S → Except E (Value call) × S) (p : Script S E Value A) (f : A → Script S E Value B)
    (s : S) : play player (p >>= f) s = match play player p s with
      | (.ok a,t) => play player (f a) t
      | (.error e,t) => (.error e,t) := by
  induction p generalizing s with
  | done result => cases result <;> rfl
  | look read next ih => exact ih (read s) s
  | act call next ih => exact ih _ _

theorem playRuns {player : (call : C) → S → Except E (Value call) × S}
    (allowed : ∀ call s, acts call s (player call s).1 (player call s).2) (p : Script S E Value A) (s : S) :
    Runs acts p s (some (play player p s).1) (play player p s).2 := by
  induction p generalizing s with
  | done result => exact .done result s
  | look read next ih => exact .look (ih _ s)
  | act call next ih => exact .act (allowed call s) (ih _ _)

end Runs

end RunnelMoe.Scripts
