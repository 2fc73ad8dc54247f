import Mathlib.Tactic.Common

/-! Runs of a partial step function. A label that is not enabled gives none, so
a run that ends in some state is a finite execution with every step enabled.
The rules below are stated once: an invariant of one step is an invariant of
every run, also when only labels that meet a condition are taken. -/
namespace RunnelMoe.Runs

variable {S L : Type*}

def run (step : S → L → Option S) : S → List L → Option S
  | s, [] => some s
  | s, l::rest => (step s l).bind (fun next => run step next rest)

def Reachable (step : S → L → Option S) (start s : S) : Prop := ∃ labels, run step start labels = some s

variable {step : S → L → Option S}

theorem runCons {s l rest out} :
    run step s (l::rest) = some out ↔ ∃ next, step s l = some next ∧ run step next rest = some out := by
  simp [run,Option.bind_eq_some_iff]

theorem runAppend (step : S → L → Option S) (s : S) (before after : List L) :
    run step s (before ++ after) = (run step s before).bind (fun middle => run step middle after) := by
  induction before generalizing s with
  | nil => rfl
  | cons l rest ih =>
    simp only [List.cons_append,run]
    cases step s l with
    | none => rfl
    | some next => exact ih next

theorem runJoin {s before middle after out}
    (first : run step s before = some middle) (second : run step middle after = some out) :
    run step s (before ++ after) = some out := by
  rw [runAppend,first]
  exact second

theorem runEnds {s labels} (enabled : (run step s labels).isSome = true) (other : S) :
    run step s labels = some ((run step s labels).getD other) := by
  obtain ⟨out,ended⟩ := Option.isSome_iff_exists.mp enabled
  rw [ended,Option.getD_some]

theorem reachableStart (step : S → L → Option S) (start : S) : Reachable step start start := ⟨[],rfl⟩

theorem reachableRun {start s labels next}
    (reached : Reachable step start s) (ok : run step s labels = some next) : Reachable step start next := by
  obtain ⟨earlier,ran⟩ := reached
  exact ⟨earlier ++ labels,runJoin ran ok⟩

theorem guardedInvariant (Inv : S → Prop) (Guard : L → Prop)
    (preserved : ∀ s l next, Inv s → Guard l → step s l = some next → Inv next)
    {s labels out} (holds : Inv s) (guarded : ∀ l ∈ labels, Guard l)
    (ok : run step s labels = some out) : Inv out := by
  induction labels generalizing s with
  | nil => cases Option.some.inj ok; exact holds
  | cons l rest ih =>
    obtain ⟨next,one,more⟩ := runCons.mp ok
    have stepped := preserved s l next holds (guarded l List.mem_cons_self) one
    exact ih stepped (fun k member => guarded k (List.mem_cons_of_mem _ member)) more

theorem runInvariant (Inv : S → Prop) (preserved : ∀ s l next, Inv s → step s l = some next → Inv next)
    {s labels out} (holds : Inv s) (ok : run step s labels = some out) : Inv out :=
  guardedInvariant Inv (fun _ => True) (fun s l next inv _ => preserved s l next inv)
    holds (fun _ _ => trivial) ok

theorem reachableInvariant (Inv : S → Prop) {start : S}
    (initial : Inv start) (preserved : ∀ s l next, Inv s → step s l = some next → Inv next)
    {s} (reached : Reachable step start s) : Inv s := by
  obtain ⟨labels,ok⟩ := reached
  exact runInvariant Inv preserved initial ok

end RunnelMoe.Runs
