import Mathlib.Data.Finset.Card
import Mathlib.Data.Finset.Insert
import Mathlib.Order.Bounds.Basic
import Mathlib.Tactic.Common

/-! Offline paging. A schedule serves a list of demands from a resident set: before
each demand it may evict any pages, a demand for a page that is not kept costs that
page's fill, and afterwards any part of the kept pages and the demanded one stays, as
long as it fits. Bypassing is the choice not to keep the demanded page. The minimum
over all schedules is what an offline reference has to reach. -/
namespace RunnelMoe.OfflinePaging

variable {P : Type*} [DecidableEq P]

inductive Serves (fits : Finset P → Prop) (cost : P → Nat) : Finset P → List P → Nat → Prop where
  | done (residents : Finset P) : Serves fits cost residents [] 0
  | demand {residents kept next : Finset P} {page : P} {later : List P} {spent : Nat}
      (evicts : kept ⊆ residents) (stays : next ⊆ insert page kept) (room : fits next)
      (rest : Serves fits cost next later spent) :
      Serves fits cost residents (page::later) ((if page ∈ kept then 0 else cost page) + spent)

def Optimal (fits : Finset P → Prop) (cost : P → Nat) (demands : List P) (best : Nat) : Prop :=
  IsLeast {spent | Serves fits cost ∅ demands spent} best

section Schedules
variable {fits : Finset P → Prop} {cost : P → Nat} {residents more : Finset P} {demands : List P} {spent : Nat}

/- More residents never hurt, since the surplus can be evicted first. -/
theorem servesMore (serves : Serves fits cost residents demands spent) (subset : residents ⊆ more) :
    Serves fits cost more demands spent := by
  cases serves with
  | done => exact .done more
  | demand evicts stays room rest => exact .demand (evicts.trans subset) stays room rest

theorem servesHit {page : P} {later : List P} (present : page ∈ residents) (room : fits residents)
    (rest : Serves fits cost residents later spent) : Serves fits cost residents (page::later) spent := by
  have step := Serves.demand (Finset.Subset.refl residents) (Finset.subset_insert page residents) room rest
  rwa [if_pos present,Nat.zero_add] at step

theorem servesMiss {next : Finset P} {page : P} {later : List P} (absent : page ∉ residents)
    (stays : next ⊆ insert page residents) (room : fits next) (rest : Serves fits cost next later spent) :
    Serves fits cost residents (page::later) (cost page + spent) := by
  have step := Serves.demand (Finset.Subset.refl residents) stays room rest
  rwa [if_neg absent] at step

/- Capacity and costs matter only on the pages that can be resident. -/
theorem servesCongr {fits' : Finset P → Prop} {cost' : P → Nat} {pages : Finset P}
    (room : ∀ set ⊆ pages, fits set → fits' set) (same : ∀ page ∈ pages, cost' page = cost page)
    (inside : residents ⊆ pages) (known : ∀ page ∈ demands, page ∈ pages)
    (serves : Serves fits cost residents demands spent) : Serves fits' cost' residents demands spent := by
  induction serves with
  | done set => exact .done set
  | @demand residents kept next page later spent evicts stays fit rest ih =>
    have demanded : page ∈ pages := known page List.mem_cons_self
    have next_inside : next ⊆ pages := by
      intro p member
      rcases Finset.mem_insert.mp (stays member) with rfl | old
      · exact demanded
      · exact inside (evicts old)
    rw [← same page demanded]
    exact .demand evicts stays (room next next_inside fit)
      (ih next_inside (fun p member => known p (List.mem_cons_of_mem _ member)))

/- Giving up one resident costs at most one fill of it. -/
theorem servesForgone (closed : ∀ set page, fits set → fits (set.erase page)) (given : P)
    (serves : Serves fits cost residents demands spent) :
    ∃ paid ≤ spent + cost given, Serves fits cost (residents.erase given) demands paid := by
  induction serves with
  | done set => exact ⟨0,Nat.zero_le _,.done _⟩
  | @demand residents kept next page later spent evicts stays room rest ih =>
    have evicts' := Finset.erase_subset_erase given evicts
    by_cases same : page = given
    · subst same
      have stays' : next ⊆ insert page (kept.erase page) := stays.trans (fun p member => by grind)
      have step := servesMiss (Finset.notMem_erase page kept) stays' room rest
      exact ⟨cost page + spent,by omega,servesMore step evicts'⟩
    · obtain ⟨paid,bound,serves⟩ := ih
      have stays' : next.erase given ⊆ insert page (kept.erase given) := by
        rw [← Finset.erase_insert_of_ne same]
        exact Finset.erase_subset_erase given stays
      have step := Serves.demand evicts' stays' (closed next given room) serves
      have kept_same : page ∈ kept.erase given ↔ page ∈ kept := by simp [same]
      simp only [kept_same] at step
      exact ⟨_,by omega,step⟩

end Schedules

/-! Farthest next use, with equal costs and a number of slots -/

abbrev ServesSlots (slots price : Nat) : Finset P → List P → Nat → Prop :=
  Serves (fun set => set.card ≤ slots) (fun _ => price)

section Slots
variable {slots price : Nat} {demands : List P} {spent : Nat}

/- Of two pages, the one that is demanded first is worth at least as much. -/
theorem servesExchange {base : Finset P} {sooner late : P} (sooner_out : sooner ∉ base) (late_out : late ∉ base)
    (different : sooner ≠ late) (order : demands.idxOf sooner ≤ demands.idxOf late)
    (serves : ServesSlots slots price (insert late base) demands spent) :
    ∃ paid ≤ spent, ServesSlots slots price (insert sooner base) demands paid := by
  generalize start : insert late base = residents at serves
  induction serves generalizing base with
  | done set => exact ⟨0,le_rfl,.done _⟩
  | @demand residents kept next page later spent evicts stays room rest ih =>
    subst start
    by_cases first : page = sooner
    · -- The schedule misses here, which pays for giving up the late page.
      subst first
      have missed : page ∉ kept := by grind
      obtain ⟨paid,bound,serves⟩ := servesForgone (fun set p fit => (Finset.card_erase_le).trans fit) late rest
      refine ⟨paid,by simp only [missed,if_false]; omega,?_⟩
      have stays' : next.erase late ⊆ insert page (insert page base) := by grind
      have step : ServesSlots slots price (insert page base) (page::later) _ :=
        .demand (Finset.Subset.refl _) stays' (Finset.card_erase_le.trans room) serves
      simpa using step
    · have last : page ≠ late := by
        intro same
        subst same
        rw [List.idxOf_cons_self,Nat.le_zero,List.idxOf_cons_ne _ first] at order
        contradiction
      rw [List.idxOf_cons_ne _ first,List.idxOf_cons_ne _ last,Nat.succ_le_succ_iff] at order
      have hits : page ∈ kept ↔ page ∈ insert sooner (kept.erase late) := by grind
      by_cases kept_late : late ∈ next
      · -- The late page stays, so the sooner one takes its place.
        have sooner_missing : sooner ∉ next.erase late := by grind
        obtain ⟨paid,bound,serves⟩ := ih sooner_missing (Finset.notMem_erase late next) order
          (Finset.insert_erase kept_late)
        have evicts' : insert sooner (kept.erase late) ⊆ insert sooner base := by grind
        have stays' : insert sooner (next.erase late) ⊆ insert page (insert sooner (kept.erase late)) := by grind
        have room' : (insert sooner (next.erase late)).card ≤ slots := by
          have smaller := Finset.card_insert_le sooner (next.erase late)
          rw [Finset.card_erase_of_mem kept_late] at smaller
          have some_ := Finset.card_pos.mpr ⟨late,kept_late⟩
          omega
        have step : ServesSlots slots price (insert sooner base) (page::later) _ :=
          .demand evicts' stays' room' serves
        simp only [← hits] at step
        exact ⟨_,by omega,step⟩
      · have evicts' : kept.erase late ⊆ insert sooner base := by grind
        have stays' : next ⊆ insert page (kept.erase late) := by grind
        have step : ServesSlots slots price (insert sooner base) (page::later) _ :=
          .demand evicts' stays' room rest
        have same : page ∈ kept.erase late ↔ page ∈ kept := by grind
        simp only [same] at step
        exact ⟨_,le_rfl,step⟩

structure Farthest (residents : Finset P) (page : P) (later : List P) (victim : P) : Prop where
  member : victim ∈ insert page residents
  last : ∀ p ∈ insert page residents, later.idxOf p ≤ later.idxOf victim

inductive Replays (slots : Nat) : Finset P → List P → Nat → Prop where
  | done (residents : Finset P) : Replays slots residents [] 0
  | hit {residents page later misses} (present : page ∈ residents) (rest : Replays slots residents later misses) :
      Replays slots residents (page::later) misses
  | fill {residents page later misses} (absent : page ∉ residents) (room : residents.card < slots)
      (rest : Replays slots (insert page residents) later misses) : Replays slots residents (page::later) (misses + 1)
  | replace {residents page later misses victim} (absent : page ∉ residents) (full : residents.card = slots)
      (farthest : Farthest residents page later victim)
      (rest : Replays slots ((insert page residents).erase victim) later misses) :
      Replays slots residents (page::later) (misses + 1)

variable {residents : Finset P} {misses : Nat}

theorem replaceCard {page victim : P} (absent : page ∉ residents)
    (member : victim ∈ insert page residents) : ((insert page residents).erase victim).card = residents.card := by
  rw [Finset.card_erase_of_mem member,Finset.card_insert_of_notMem absent,Nat.add_sub_cancel]

theorem replayServes (fit : residents.card ≤ slots)
    (replay : Replays slots residents demands misses) : ServesSlots slots price residents demands (misses * price) := by
  induction replay with
  | done set =>
    rw [Nat.zero_mul]
    exact .done set
  | hit present rest ih => exact servesHit present fit (ih fit)
  | @fill residents page later misses absent room rest ih =>
    have next : (insert page residents).card ≤ slots := by
      rw [Finset.card_insert_of_notMem absent]
      exact room
    have step := servesMiss absent (Finset.Subset.refl _) next (ih next)
    rwa [Nat.add_comm,← Nat.succ_mul] at step
  | @replace residents page later misses victim absent full farthest rest ih =>
    have next := (replaceCard absent farthest.member).trans_le fit
    have step := servesMiss absent (Finset.erase_subset victim _) next (ih next)
    rwa [Nat.add_comm,← Nat.succ_mul] at step

/- A schedule that keeps a set without some page of a full cache could as well keep
everything but the page used last. -/
theorem servesFarthest {next : Finset P} {page victim : P} {later : List P} (absent : page ∉ residents)
    (full : residents.card = slots) (farthest : Farthest residents page later victim)
    (stays : next ⊆ insert page residents) (room : next.card ≤ slots)
    (serves : ServesSlots slots price next later spent) :
    ∃ paid ≤ spent, ServesSlots slots price ((insert page residents).erase victim) later paid := by
  obtain ⟨out,inside,outside⟩ : ∃ p ∈ insert page residents, p ∉ next := by
    by_contra all
    have whole : insert page residents ⊆ next := fun p member => by_contra fun other => all ⟨p,member,other⟩
    have large := Finset.card_le_card whole
    rw [Finset.card_insert_of_notMem absent] at large
    omega
  have without : next ⊆ (insert page residents).erase out := fun p member => by grind
  have serves := servesMore serves without
  by_cases same : out = victim
  · subst same
    exact ⟨spent,le_rfl,serves⟩
  · have member := farthest.member
    have left : (insert page residents).erase out = insert victim (((insert page residents).erase out).erase victim) :=
      (Finset.insert_erase (Finset.mem_erase.mpr ⟨Ne.symm same,member⟩)).symm
    have right : (insert page residents).erase victim =
        insert out (((insert page residents).erase out).erase victim) := by grind
    rw [left] at serves
    rw [right]
    exact servesExchange (by grind) (by grind) same (farthest.last out inside) serves

theorem replayLeast (replay : Replays slots residents demands misses)
    (serves : ServesSlots slots price residents demands spent) : misses * price ≤ spent := by
  induction replay generalizing spent with
  | done set => simp
  | @hit residents page later misses present rest ih =>
    cases serves with
    | demand evicts stays room served =>
      have inside := stays.trans (Finset.insert_subset present evicts)
      exact (ih (servesMore served inside)).trans (Nat.le_add_left _ _)
  | @fill residents page later misses absent room rest ih =>
    cases serves with
    | @demand _ kept next _ _ spent evicts stays _ served =>
      have missed : page ∉ kept := fun member => absent (evicts member)
      have bound := ih (servesMore served (stays.trans (Finset.insert_subset_insert page evicts)))
      rw [if_neg missed,Nat.succ_mul]
      omega
  | @replace residents page later misses victim absent full farthest rest ih =>
    cases serves with
    | @demand _ kept next _ _ spent evicts stays room served =>
      have missed : page ∉ kept := fun member => absent (evicts member)
      obtain ⟨paid,bound,better⟩ := servesFarthest absent full farthest
        (stays.trans (Finset.insert_subset_insert page evicts)) room served
      have least := ih better
      rw [if_neg missed,Nat.succ_mul]
      omega

theorem replayOptimal (replay : Replays slots ∅ demands misses) :
    Optimal (fun set => set.card ≤ slots) (fun _ => price) demands (misses * price) :=
  ⟨replayServes (Nat.zero_le _) replay,fun _ serves => replayLeast replay serves⟩

end Slots

-- Evictions are deferred to an admission: a hit and a bypass leave the set alone.
inductive Defers (fits : Finset P → Prop) (cost : P → Nat) (page : P) (residents : Finset P) :
    Nat → Finset P → Nat → Prop where
  | hit {spent} (present : page ∈ residents) : Defers fits cost page residents spent residents spent
  | bypass {spent} (absent : page ∉ residents) : Defers fits cost page residents spent residents (spent + cost page)
  | fill {spent retained} (absent : page ∉ residents) (some : retained ⊆ residents) (room : fits (insert page retained)) :
      Defers fits cost page residents spent (insert page retained) (spent + cost page)

structure Advances (fits : Finset P → Prop) (cost : P → Nat) (page : P) (before after : Finset P → Nat → Prop) : Prop where
  reached : ∀ next paid, after next paid → ∃ residents spent, before residents spent ∧
    Defers fits cost page residents spent next paid
  least : ∀ residents spent next paid, before residents spent → Defers fits cost page residents spent next paid →
    ∃ less ≤ paid, after next less

inductive Explores (fits : Finset P → Prop) (cost : P → Nat) :
    (Finset P → Nat → Prop) → List P → (Finset P → Nat → Prop) → Prop where
  | done (frontier) : Explores fits cost frontier [] frontier
  | demand {before middle after page later} (advances : Advances fits cost page before middle)
      (rest : Explores fits cost middle later after) : Explores fits cost before (page::later) after

section Frontiers
variable {fits : Finset P → Prop} {cost : P → Nat} {before after : Finset P → Nat → Prop} {demands : List P}

theorem deferredFits {page : P} {residents next : Finset P} {spent paid : Nat} (fit : fits residents)
    (defers : Defers fits cost page residents spent next paid) : fits next := by
  cases defers with
  | hit | bypass => exact fit
  | fill _ _ room => exact room

theorem exploredServes (explores : Explores fits cost before demands after)
    (fit : ∀ residents spent, before residents spent → fits residents) {final : Finset P} {paid : Nat}
    (ends : after final paid) :
    ∃ residents spent more, before residents spent ∧ Serves fits cost residents demands more ∧ paid = spent + more := by
  induction explores with
  | done frontier => exact ⟨final,paid,0,ends,.done final,rfl⟩
  | @demand before middle after page later advances rest ih =>
    have fit_next : ∀ next spent, middle next spent → fits next := by
      intro next spent reached
      obtain ⟨residents,earlier,started,defers⟩ := advances.reached next spent reached
      exact deferredFits (fit residents earlier started) defers
    obtain ⟨next,spent,more,reached,serves,total⟩ := ih fit_next ends
    obtain ⟨residents,earlier,started,defers⟩ := advances.reached next spent reached
    have room := fit residents earlier started
    cases defers with
    | hit present => exact ⟨_,_,more,started,servesHit present room serves,total⟩
    | bypass absent =>
      have step := servesMiss absent (Finset.subset_insert _ _) room serves
      exact ⟨_,_,cost page + more,started,step,by omega⟩
    | fill absent some room =>
      have step := servesMiss absent (Finset.insert_subset_insert page some) room serves
      exact ⟨_,_,cost page + more,started,step,by omega⟩

theorem exploredLeast (explores : Explores fits cost before demands after) {residents start : Finset P}
    {spent more : Nat} (started : before start spent) (inside : residents ⊆ start)
    (serves : Serves fits cost residents demands more) : ∃ final paid, after final paid ∧ paid ≤ spent + more := by
  induction explores generalizing residents start spent more with
  | done frontier => exact ⟨start,spent,started,Nat.le_add_right _ _⟩
  | @demand before middle after page later advances rest ih =>
    cases serves with
    | @demand _ kept next _ _ more evicts stays room served =>
      have kept_inside := evicts.trans inside
      by_cases present : page ∈ start
      · obtain ⟨less,bound,reached⟩ := advances.least _ _ _ _ started (.hit present)
        obtain ⟨final,paid,ends,total⟩ := ih reached (stays.trans (Finset.insert_subset present kept_inside)) served
        exact ⟨final,paid,ends,by omega⟩
      · have missed : page ∉ kept := fun member => present (kept_inside member)
        rw [if_neg missed]
        by_cases admitted : page ∈ next
        · have some : next.erase page ⊆ start := fun p member => by grind
          have same : insert page (next.erase page) = next := Finset.insert_erase admitted
          obtain ⟨less,bound,reached⟩ := advances.least _ _ _ _ started
            (.fill present some (by rw [same]; exact room))
          rw [same] at reached
          obtain ⟨final,paid,ends,total⟩ := ih reached (Finset.Subset.refl next) served
          exact ⟨final,paid,ends,by omega⟩
        · obtain ⟨less,bound,reached⟩ := advances.least _ _ _ _ started (.bypass present)
          obtain ⟨final,paid,ends,total⟩ := ih reached (fun p member => by grind) served
          exact ⟨final,paid,ends,by omega⟩

theorem exploredOptimal {best : Nat} (empty : fits ∅) (start : ∀ residents spent, before residents spent ↔
      residents = ∅ ∧ spent = 0) (explores : Explores fits cost before demands after)
    (ends : ∃ final, after final best) (least : ∀ final paid, after final paid → best ≤ paid) :
    Optimal fits cost demands best := by
  obtain ⟨final,reached⟩ := ends
  refine ⟨?_,fun spent serves => ?_⟩
  · have fit : ∀ residents spent, before residents spent → fits residents := by
      intro residents spent started
      rw [((start residents spent).mp started).1]
      exact empty
    obtain ⟨residents,spent,more,started,serves,total⟩ := exploredServes explores fit reached
    obtain ⟨rfl,rfl⟩ := (start residents spent).mp started
    rw [total,Nat.zero_add]
    exact serves
  · have started := (start ∅ 0).mpr ⟨rfl,rfl⟩
    obtain ⟨final,paid,ends,bound⟩ := exploredLeast explores started (Finset.Subset.refl ∅) serves
    have lower := least final paid ends
    omega

end Frontiers

end RunnelMoe.OfflinePaging
