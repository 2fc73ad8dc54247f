import Mathlib.Data.List.Forall2
import Mathlib.Tactic.Common

/-! Computations that stop at the first error. A sequence that ends in a value has
every step of it end in a value, and a fold keeps what each of its steps keeps. The
rules for Ends say at once which errors a computation can end in and what holds of its
value. -/
namespace RunnelMoe.Results

universe u

variable {E I : Type*} {A B S : Type u}

variable {x : Except E A} {f : A → Except E B} {e : E} {step : S → I → Except E S} {s out : S} {a : I} {items : List I}

theorem bindOk {b : B} :
    (x >>= f) = .ok b ↔ ∃ a, x = .ok a ∧ f a = .ok b := by
  cases x with
  | error e => exact ⟨nofun,nofun⟩
  | ok a =>
    constructor
    · exact fun later => ⟨a,rfl,later⟩
    · rintro ⟨_,⟨⟩,later⟩
      exact later

theorem guardOk {c : Prop} [Decidable c] {a : A} :
    (if c then .error e else x) = .ok a ↔ ¬c ∧ x = .ok a := by
  split
  · rename_i holds
    exact ⟨nofun,fun both => absurd holds both.1⟩
  · rename_i fails
    exact ⟨fun ok => ⟨fails,ok⟩,And.right⟩

theorem bindError :
    x >>= f = .error e ↔ x = .error e ∨ ∃ a, x = .ok a ∧ f a = .error e := by
  cases x with
  | error stop => simp [bind,Except.bind]
  | ok a => simp [bind,Except.bind]

theorem mapErrorOk {F : Type*} {f : E → F} {a : A} : x.mapError f = .ok a ↔ x = .ok a := by
  cases x with
  | error e => exact ⟨nofun,nofun⟩
  | ok b => simp only [Except.mapError,Except.ok.injEq]

def value (x : Except E A) (ends : x.toOption.isSome) : A := x.toOption.get ends

theorem valueOk (ends : x.toOption.isSome) : x = .ok (value x ends) := by
  cases x with
  | error e => contradiction
  | ok a => rfl

theorem okAny {P : A → Prop} [DecidablePred P] (any : x.toOption.any (fun a => decide (P a))) :
    ∃ a, x = .ok a ∧ P a := by
  cases x with
  | error e => contradiction
  | ok a => exact ⟨a,rfl,of_decide_eq_true any⟩

theorem foldNil : [].foldlM step s = .ok out ↔ out = s := by
  simp only [List.foldlM_nil]
  exact ⟨fun same => (Except.ok.inj same).symm,fun same => congrArg Except.ok same.symm⟩

theorem foldCons {rest : List I} :
    (a::rest).foldlM step s = .ok out ↔ ∃ next, step s a = .ok next ∧ rest.foldlM step next = .ok out := by
  rw [List.foldlM_cons,bindOk]

theorem foldInvariant (Inv : S → Prop) (preserved : ∀ s a next, a ∈ items → Inv s → step s a = .ok next → Inv next)
    (ok : items.foldlM step s = .ok out) (holds : Inv s) : Inv out := by
  induction items generalizing s with
  | nil =>
    rw [foldNil.mp ok]
    exact holds
  | cons a rest ih =>
    obtain ⟨next,first,later⟩ := foldCons.mp ok
    have kept := preserved s a next List.mem_cons_self holds first
    exact ih (fun s b next member => preserved s b next (List.mem_cons_of_mem _ member)) later kept

theorem foldTogether {T : Type*} {other : T → I → Except E T} (R : S → T → Prop) {t end_ : T} (ok : items.foldlM step s = .ok out) (ok' : items.foldlM other t = .ok end_)
    (related : R s t) (kept : ∀ a ∈ items, ∀ s t s' t', R s t → step s a = .ok s' → other t a = .ok t' → R s' t') :
    R out end_ := by
  induction items generalizing s t with
  | nil =>
    cases ok
    cases ok'
    exact related
  | cons a rest ih =>
    rw [List.foldlM_cons] at ok ok'
    cases first : step s a with
    | error e =>
      rw [first] at ok
      contradiction
    | ok s' =>
      cases first' : other t a with
      | error e =>
        rw [first'] at ok'
        contradiction
      | ok t' =>
        rw [first] at ok
        rw [first'] at ok'
        exact ih ok ok' (kept a List.mem_cons_self s t s' t' related first first')
          (fun b member => kept b (List.mem_cons_of_mem _ member))

theorem foldEach (ok : items.foldlM step s = .ok out) (member : a ∈ items) : ∃ before after, step before a = .ok after := by
  induction items generalizing s with
  | nil => contradiction
  | cons b rest ih =>
    obtain ⟨next,first,later⟩ := foldCons.mp ok
    rcases List.mem_cons.mp member with rfl | inside
    · exact ⟨s,next,first⟩
    · exact ih later inside

theorem foldSame {other : S → I → Except E S} (same : ∀ a ∈ items, ∀ s, step s a = other s a) : items.foldlM step s = items.foldlM other s := by
  induction items generalizing s with
  | nil => rfl
  | cons a rest ih =>
    rw [List.foldlM_cons,List.foldlM_cons,same a List.mem_cons_self]
    exact congrArg _ (funext fun _ => ih (fun b member => same b (List.mem_cons_of_mem _ member)))

theorem foldAppends {B : Type*} {step : List B → I → Except E (List B)} {piece : I → List B}
    (each : ∀ a ∈ items, ∀ out, step out a = .ok (out ++ piece a)) {out : List B} :
    items.foldlM step out = .ok (out ++ (items.map piece).flatten) := by
  induction items generalizing out with
  | nil =>
    rw [List.map_nil,List.flatten_nil,List.append_nil]
    rfl
  | cons a rest ih =>
    refine foldCons.mpr ⟨_,each a List.mem_cons_self out,?_⟩
    rw [ih (fun b member => each b (List.mem_cons_of_mem _ member)),List.append_assoc]
    rfl

theorem checksAll {check : I → Prop} {step : Unit → I → Except E Unit}
    (exactly : ∀ a ∈ items, step () a = .ok () ↔ check a) : items.foldlM step () = .ok () ↔ ∀ a ∈ items, check a := by
  induction items with
  | nil => exact ⟨fun _ => nofun,fun _ => rfl⟩
  | cons a rest ih =>
    rw [foldCons,List.forall_mem_cons,← exactly a List.mem_cons_self,
      ← ih (fun b member => exactly b (List.mem_cons_of_mem _ member))]
    constructor
    · rintro ⟨⟨⟩,first,later⟩
      exact ⟨first,later⟩
    · rintro ⟨first,later⟩
      exact ⟨(),first,later⟩

theorem foldAppend {B : Type*} (view : S → List B) {P : I → List B → Prop}
    (adds : ∀ s a next, step s a = .ok next → ∃ part, view next = view s ++ part ∧ P a part)
    (ok : items.foldlM step s = .ok out) :
    (∀ b ∈ view s, b ∈ view out) ∧ (∀ a ∈ items, ∃ part, P a part ∧ ∀ b ∈ part, b ∈ view out) ∧
      ∀ b ∈ view out, b ∈ view s ∨ ∃ a ∈ items, ∃ part, P a part ∧ b ∈ part := by
  induction items generalizing s with
  | nil =>
    rw [foldNil.mp ok]
    exact ⟨fun _ inside => inside,nofun,fun _ inside => .inl inside⟩
  | cons a rest ih =>
    obtain ⟨next,first,later⟩ := foldCons.mp ok
    obtain ⟨part,grown,here⟩ := adds s a next first
    obtain ⟨kept,each,origin⟩ := ih later
    rw [grown] at kept origin
    refine ⟨fun b inside => kept b (List.mem_append_left _ inside),fun c member => ?_,fun b inside => ?_⟩
    · rcases List.mem_cons.mp member with rfl | member
      · exact ⟨part,here,fun b inside => kept b (List.mem_append_right _ inside)⟩
      · exact each c member
    · rcases origin b inside with before | ⟨c,member,more,from_⟩
      · rcases List.mem_append.mp before with old | new
        · exact .inl old
        · exact .inr ⟨a,List.mem_cons_self,part,here,new⟩
      · exact .inr ⟨c,List.mem_cons_of_mem _ member,more,from_⟩

theorem foldSelects {B : Type u} {step : List B → I → Except E (List B)} {f : I → B}
    (adds : ∀ out a next, step out a = .ok next → next = out ∨ next = out ++ [f a]) {start out : List B}
    (ok : items.foldlM step start = .ok out) : ∃ part : List I, part.Sublist items ∧ out = start ++ part.map f := by
  induction items generalizing start with
  | nil =>
    rw [foldNil.mp ok]
    exact ⟨[],List.Sublist.refl _,(List.append_nil _).symm⟩
  | cons a rest ih =>
    obtain ⟨next,first,later⟩ := foldCons.mp ok
    obtain ⟨part,among,rfl⟩ := ih later
    rcases adds start a next first with rfl | rfl
    · exact ⟨part,among.cons a,rfl⟩
    · exact ⟨a::part,among.cons_cons a,by rw [List.append_assoc]; rfl⟩

/- A step that refuses or updates in one fixed way: the fold is the pure fold, and it
ends in a value when every item is accepted in the state that the items before it leave. -/
theorem foldAccepts (accepts : S → I → Prop) (after : S → I → S)
    (exactly : ∀ s a next, step s a = .ok next ↔ accepts s a ∧ next = after s a) :
    items.foldlM step s = .ok out ↔
      out = items.foldl after s ∧ ∀ i a, items[i]? = some a → accepts ((items.take i).foldl after s) a := by
  induction items generalizing s with
  | nil =>
    rw [foldNil]
    simp
  | cons first rest ih =>
    rw [foldCons]
    constructor
    · intro ok
      obtain ⟨next,one,later⟩ := ok
      obtain ⟨here,same⟩ := (exactly s first next).mp one
      subst same
      obtain ⟨last,each⟩ := ih.mp later
      refine ⟨last,fun i a found => ?_⟩
      cases i with
      | zero =>
        cases Option.some.inj found
        exact here
      | succ i => exact each i a found
    · intro ok
      obtain ⟨last,each⟩ := ok
      have here : accepts s first := each 0 first rfl
      exact ⟨_,(exactly s first _).mpr ⟨here,rfl⟩,ih.mpr ⟨last,fun i a found => each (i + 1) a found⟩⟩

/-! Two computations that differ only in what they refuse -/

def Agrees (x y : Except E A) : Prop := ∀ a b, x = .ok a → y = .ok b → a = b

theorem agreesRefl (x : Except E A) : Agrees x x := fun _ _ left right => Except.ok.inj (left.symm.trans right)

theorem agreesBind {y : Except E A} {g : A → Except E B} (first : Agrees x y) (rest : ∀ a, Agrees (f a) (g a)) :
    Agrees (x >>= f) (y >>= g) := by
  intro b c left right
  obtain ⟨a,found,left⟩ := bindOk.mp left
  obtain ⟨a',found',right⟩ := bindOk.mp right
  cases first a a' found found'
  exact rest a b c left right

theorem agreesThen {g : A → Except E B} (rest : ∀ a, Agrees (f a) (g a)) :
    Agrees (x >>= f) (x >>= g) := agreesBind (agreesRefl x) rest

theorem agreesGuard {c d : Prop} [Decidable c] [Decidable d] {e' : E} {y : Except E A} (rest : Agrees x y) :
    Agrees (if c then .error e else x) (if d then .error e' else y) :=
  fun a b left right => rest a b (guardOk.mp left).2 (guardOk.mp right).2

theorem agreesFold {f g : S → I → Except E S} (each : ∀ s i, Agrees (f s i) (g s i)) (items : List I) (s : S) :
    Agrees (items.foldlM f s) (items.foldlM g s) := by
  induction items generalizing s with
  | nil => exact agreesRefl _
  | cons i rest ih =>
    rw [List.foldlM_cons,List.foldlM_cons]
    exact agreesBind (each s i) ih

def collect (f : I → Except E B) : List I → Except E (List B)
  | [] => .ok []
  | i::rest => do
    let b ← f i
    let more ← collect f rest
    .ok (b::more)

theorem collectOk {f : I → Except E B} {out : List B} :
    collect f items = .ok out ↔ List.Forall₂ (fun i b => f i = .ok b) items out := by
  induction items generalizing out with
  | nil =>
    rw [List.forall₂_nil_left_iff]
    exact ⟨fun ok => (Except.ok.inj ok).symm,fun none => congrArg Except.ok none.symm⟩
  | cons i rest ih =>
    rw [collect,bindOk,List.forall₂_cons_left_iff]
    constructor
    · rintro ⟨b,first,ok⟩
      obtain ⟨more,later,last⟩ := bindOk.mp ok
      cases last
      exact ⟨b,more,first,ih.mp later,rfl⟩
    · rintro ⟨b,more,first,later,rfl⟩
      exact ⟨b,first,bindOk.mpr ⟨more,ih.mpr later,rfl⟩⟩

theorem collectEach {f : I → Except E B} {out : List B} (ok : collect f items = .ok out)
    (member : a ∈ items) : ∃ b ∈ out, f a = .ok b := by
  have pairs := collectOk.mp ok
  induction pairs with
  | nil => contradiction
  | cons first rest ih =>
    rcases List.mem_cons.mp member with rfl | later
    · exact ⟨_,List.mem_cons_self,first⟩
    · obtain ⟨b,inside,found⟩ := ih (collectOk.mpr rest) later
      exact ⟨b,List.mem_cons_of_mem _ inside,found⟩

theorem collectError {f : I → Except E B} : collect f items = .error e ↔
    ∃ front i back, items = front ++ i::back ∧ f i = .error e ∧ ∀ j ∈ front, ∃ b, f j = .ok b := by
  induction items with
  | nil => simp [collect]
  | cons i rest ih =>
    cases first : f i with
    | error stop =>
      rw [collect,first]
      constructor
      · intro same
        cases same
        exact ⟨[],i,rest,rfl,first,nofun⟩
      · rintro ⟨front,j,back,split,found,early⟩
        cases front with
        | nil =>
          cases split
          rw [first] at found
          cases found
          rfl
        | cons k front =>
          cases split
          obtain ⟨b,ok⟩ := early i List.mem_cons_self
          rw [first] at ok
          contradiction
    | ok b =>
      have later : collect f (i::rest) = .error e ↔ collect f rest = .error e := by
        rw [collect,first]
        cases collect f rest with
        | error stop => exact Iff.rfl
        | ok more => exact ⟨nofun,nofun⟩
      rw [later,ih]
      constructor
      · rintro ⟨front,j,back,rfl,found,early⟩
        exact ⟨i::front,j,back,rfl,found,List.forall_mem_cons.mpr ⟨⟨b,first⟩,early⟩⟩
      · rintro ⟨front,j,back,split,found,early⟩
        cases front with
        | nil =>
          cases split
          rw [first] at found
          contradiction
        | cons k front =>
          cases split
          exact ⟨front,j,back,rfl,found,fun j member => early j (List.mem_cons_of_mem _ member)⟩

section Renaming
variable {C : Type u} {x : Except E A}

theorem collectMem {f : I → Except E B} {items : List I} {out : List B} (ok : collect f items = .ok out) {b : B}
    (member : b ∈ out) : ∃ a ∈ items, f a = .ok b := by
  have pairs := collectOk.mp ok
  induction pairs with
  | nil => contradiction
  | cons first rest ih =>
    rcases List.mem_cons.mp member with rfl | later
    · exact ⟨_,List.mem_cons_self,first⟩
    · obtain ⟨a,inside,found⟩ := ih (collectOk.mpr rest) later
      exact ⟨a,List.mem_cons_of_mem _ inside,found⟩

theorem mapBind {f : A → Except E B} {g : B → C} : (x >>= f).map g = x >>= fun a => (f a).map g := by
  cases x with
  | error e => rfl
  | ok a => rfl

theorem bindMap {g : A → B} {f : B → Except E C} : x.map g >>= f = x >>= fun a => f (g a) := by
  cases x with
  | error e => rfl
  | ok a => rfl

theorem mapOk {f : A → B} {b : B} : x.map f = .ok b ↔ ∃ a, x = .ok a ∧ f a = b := by
  cases x with
  | error e => simp [Except.map]
  | ok a => simp [Except.map]

theorem mapTwice {f : A → B} {g : B → C} : (x.map f).map g = x.map (fun a => g (f a)) := by
  cases x with
  | error e => rfl
  | ok a => rfl

theorem bindTogether {D : Type u} {y : Except E B} {f : A → C} {g : B → C} {left : A → Except E D} {right : B → Except E D}
    (same : x.map f = y.map g) (each : ∀ a b, x = .ok a → y = .ok b → f a = g b → left a = right b) :
    x >>= left = y >>= right := by
  cases x with
  | error e =>
    cases y with
    | error e' =>
      cases same
      rfl
    | ok b => contradiction
  | ok a =>
    cases y with
    | error e' => contradiction
    | ok b => exact each a b rfl rfl (Except.ok.inj same)

theorem mapFold {step : S → I → Except E S} {rename : S → S}
    (commutes : ∀ s a, step (rename s) a = (step s a).map rename) (items : List I) (s : S) :
    items.foldlM step (rename s) = (items.foldlM step s).map rename := by
  induction items generalizing s with
  | nil => rfl
  | cons a rest ih =>
    rw [List.foldlM_cons,List.foldlM_cons,commutes,mapBind,bindMap]
    simp only [ih]

end Renaming

def Ends (allowed : E → Prop) (post : A → Prop) : Except E A → Prop
  | .error e => allowed e
  | .ok a => post a

section Outcomes
variable {allowed : E → Prop} {x : Except E A} {post : A → Prop}

theorem endsValue {a : A} (ends : Ends allowed post x) (ok : x = .ok a) : post a := by
  subst ok
  exact ends

theorem endsMono {weaker : A → Prop} (ends : Ends allowed post x) (weaken : ∀ a, post a → weaker a) :
    Ends allowed weaker x := by
  cases x with
  | error e => exact ends
  | ok a => exact weaken a ends

theorem endsBind {f : A → Except E B} {last : B → Prop} (ends : Ends allowed post x)
    (later : ∀ a, post a → Ends allowed last (f a)) : Ends allowed last (x >>= f) := by
  cases x with
  | error e => exact ends
  | ok a => exact later a ends

theorem endsBindOk {f : A → Except E B} {last : B → Prop} (ends : Ends allowed post x)
    (later : ∀ a, x = .ok a → post a → Ends allowed last (f a)) : Ends allowed last (x >>= f) := by
  cases x with
  | error e => exact ends
  | ok a => exact later a rfl ends

theorem endsFold {step : S → I → Except E S} (Inv : List I → S → Prop) {items : List I} {s : S} (holds : Inv items s)
    (preserved : ∀ a rest s, a ∈ items → Inv (a::rest) s → Ends allowed (Inv rest) (step s a)) :
    Ends allowed (Inv []) (items.foldlM step s) := by
  induction items generalizing s with
  | nil => exact holds
  | cons a rest ih =>
    rw [List.foldlM_cons]
    refine endsBind (preserved a rest s List.mem_cons_self holds) (fun next kept => ih kept ?_)
    exact fun b more s member => preserved b more s (List.mem_cons_of_mem _ member)

end Outcomes

end RunnelMoe.Results
