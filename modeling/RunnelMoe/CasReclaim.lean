import Mathlib.Algebra.Order.BigOperators.Group.Finset
import RunnelMoe.CasCollected
import RunnelMoe.CasPlays
import RunnelMoe.SharedBlocks

/-! Bytes that a garbage collection reclaims. The usage of a store charges every inode
once, at the first of its names; a plan gives the bytes of an inode to the last of its
names, unless a name that stays leads to it. Both are sums over the inodes that have a
name, so after every part of the plan they tell the same drop. -/
namespace RunnelMoe.Cas
open Readers Results StoreErrors Words Format PageSpecs Scripts Script SharedBlocks

def places : List Place := [.digest .manifest,.digest .pageTable,.digest .object,.staging]

def allocated (s : Seen) (i : Nat) : Nat := (s.inodes i).blocks * 512

def named (s : Seen) : Finset (Place × Name) :=
  (places.flatMap (fun place => (s.names place).toList.map (fun row => (place,row.1)))).toFinset

def inodeOf (s : Seen) (link : Place × Name) : Nat :=
  match s.entry link.1 link.2 with
  | some (.file i) => i
  | _ => 0

def inodesOf (entries : List LeafEntry) : Finset Nat := (entries.map LeafEntry.inode).toFinset

section Listings
variable {s : Seen} {place : Place} {entries : List LeafEntry}

theorem memNamed {link : Place × Name} : link ∈ named s ↔ s.entry link.1 link.2 ≠ none := by
  obtain ⟨place,name⟩ := link
  have every : place ∈ places := by
    cases place with
    | staging => decide
    | digest kind => cases kind <;> decide
  simp only [named,List.mem_toFinset,List.mem_flatMap,List.mem_map]
  constructor
  · rintro ⟨other,-,row,member,same⟩
    cases same
    have found := KeyedSum.memToList.mp member
    rw [Seen.entry,found]
    exact Option.some_ne_none _
  · intro present
    obtain ⟨leaf,found⟩ := Option.ne_none_iff_exists'.mp present
    exact ⟨place,every,(name,leaf),KeyedSum.memToList.mpr found,rfl⟩

structure Listed (s : Seen) (place : Place) (entries : List LeafEntry) : Prop where
  names : entries.map LeafEntry.name = (s.names place).toList.map Prod.fst
  files : ∀ entry ∈ entries, s.entry place entry.name = some (.file entry.inode)
  sized : ∀ entry ∈ entries, entry.chargedBytes = allocated s entry.inode

theorem collectedListed {kind : String} {read : Name → Result LeafEntry} {names : List Name}
    (opens : ∀ name entry, read name = .ok entry → openEntry s place kind name = .ok entry)
    (same : names = (s.names place).toList.map Prod.fst) (ok : collect read names = .ok entries) : Listed s place entries where
  names := (collectNames (fun name entry opened => (entryOpened (opens name entry opened)).1) ok).trans same
  files := fun entry member => by
    obtain ⟨name,-,opened⟩ := collectMem ok member
    obtain ⟨same,found,-⟩ := entryOpened (opens name entry opened)
    rw [same]
    exact found
  sized := fun entry member => by
    obtain ⟨name,-,opened⟩ := collectMem ok member
    exact (entryOpened (opens name entry opened)).2.2.2

theorem digestsListed {kind : BlobKind} (ok : digestEntries s kind = .ok entries) : Listed s (.digest kind) entries := by
  obtain ⟨names,read,collected⟩ := bindOk.mp ok
  exact collectedListed (fun _ _ opened => (digestOpened opened).1) (namesRead read) collected

theorem stagesListed {s : Seen} {entries : List LeafEntry} (ok : stageEntries s = .ok entries) : Listed s .staging entries := by
  obtain ⟨names,read,collected⟩ := bindOk.mp ok
  exact collectedListed (fun _ _ opened => (stageOpened opened).1) (namesRead read) collected

theorem listedEntry (listed : Listed s place entries) {name : Name} {leaf : Leaf} (found : s.entry place name = some leaf) :
    ∃ entry ∈ entries, entry.name = name ∧ leaf = .file entry.inode := by
  have member : name ∈ entries.map LeafEntry.name := by
    rw [listed.names]
    exact List.mem_map_of_mem (KeyedSum.memToList.mpr found)
  obtain ⟨entry,inside,rfl⟩ := List.mem_map.mp member
  exact ⟨entry,inside,rfl,Option.some.inj (found.symm.trans (listed.files entry inside))⟩

theorem listedInodes (listed : Listed s place entries) {i : Nat} :
    i ∈ inodesOf entries ↔ ∃ name, s.entry place name = some (.file i) := by
  rw [inodesOf,List.mem_toFinset,List.mem_map]
  constructor
  · rintro ⟨entry,member,rfl⟩
    exact ⟨entry.name,listed.files entry member⟩
  · rintro ⟨name,found⟩
    obtain ⟨entry,member,-,same⟩ := listedEntry listed found
    exact ⟨entry,member,(Leaf.file.inj same).symm⟩

end Listings

section Usage
variable {s t : Seen}

variable {entries : List LeafEntry} {used : Nat × Nat} {place : Place}

theorem chargesExact (context : String) (size : Nat → Nat)
    (sized : ∀ entry ∈ entries, entry.chargedBytes = size entry.inode) {seen : Finset Nat} {bytes : Nat} (small : bytes < modulus)
    {out : Finset Nat × Nat} : entries.foldlM (chargeEntry context) (seen,bytes) = .ok out ↔
      out.1 = seen ∪ inodesOf entries ∧ out.2 + ∑ i ∈ seen, size i = bytes + ∑ i ∈ out.1, size i ∧ out.2 < modulus := by
  induction entries generalizing seen bytes with
  | nil =>
    rw [foldNil]
    constructor
    · rintro rfl
      exact ⟨by simp [inodesOf],rfl,small⟩
    · rintro ⟨same,sum,-⟩
      have same : out.1 = seen := by simpa [inodesOf] using same
      rw [same] at sum
      exact Prod.ext same (Nat.add_right_cancel sum)
  | cons entry rest ih =>
    have first := sized entry List.mem_cons_self
    have later : ∀ other ∈ rest, other.chargedBytes = size other.inode := fun other member =>
      sized other (List.mem_cons_of_mem _ member)
    have union : seen ∪ inodesOf (entry::rest) = insert entry.inode seen ∪ inodesOf rest := by
      simp only [inodesOf,List.map_cons,List.toFinset_cons,Finset.union_insert,Finset.insert_union]
    rw [foldCons,union]
    by_cases known : entry.inode ∈ seen
    · have step : chargeEntry context (seen,bytes) entry = .ok (seen,bytes) := if_pos known
      rw [step,Finset.insert_eq_self.mpr known,← ih later small]
      exact ⟨fun ⟨next,same,ok⟩ => by cases same; exact ok,fun ok => ⟨_,rfl,ok⟩⟩
    · have grown : ∑ i ∈ insert entry.inode seen, size i = size entry.inode + ∑ i ∈ seen, size i :=
        Finset.sum_insert known
      rw [chargeEntry,if_neg known]
      constructor
      · rintro ⟨next,step,ok⟩
        obtain ⟨more,added,step⟩ := bindOk.mp step
        obtain ⟨fits,rfl⟩ := checkedAddSome.mp (orFailOk.mp added)
        cases step
        obtain ⟨all,sum,fine⟩ := (ih later fits).mp ok
        rw [grown,first] at sum
        exact ⟨all,by omega,fine⟩
      · rintro ⟨all,sum,fine⟩
        have covered : ∑ i ∈ insert entry.inode seen, size i ≤ ∑ i ∈ out.1, size i := by
          rw [all]
          exact Finset.sum_le_sum_of_subset Finset.subset_union_left
        rw [grown] at covered
        have fits : bytes + entry.chargedBytes < modulus := by
          rw [first]
          omega
        refine ⟨_,bindOk.mpr ⟨_,orFailOk.mpr (checkedAddSome.mpr ⟨fits,rfl⟩),rfl⟩,(ih later fits).mpr ⟨all,?_,fine⟩⟩
        rw [grown,first]
        omega

def finalKinds : List BlobKind := [.manifest,.pageTable,.object]

theorem finalsCharged {context : String} {kinds : List BlobKind} {start out : Finset Nat × Nat} :
    kinds.foldlM (fun charged kind => do
      let entries ← digestEntries s kind
      entries.foldlM (chargeEntry context) charged) start = .ok out ↔
    ∃ lists, collect (digestEntries s) kinds = .ok lists ∧ lists.flatten.foldlM (chargeEntry context) start = .ok out := by
  induction kinds generalizing start with
  | nil =>
    constructor
    · exact fun ok => ⟨[],rfl,ok⟩
    · rintro ⟨lists,same,ok⟩
      cases same
      exact ok
  | cons kind rest ih =>
    rw [foldCons]
    constructor
    · rintro ⟨next,first,later⟩
      obtain ⟨entries,listed,charged⟩ := bindOk.mp first
      obtain ⟨lists,more,all⟩ := ih.mp later
      refine ⟨entries::lists,bindOk.mpr ⟨entries,listed,bindOk.mpr ⟨lists,more,rfl⟩⟩,?_⟩
      rw [List.flatten_cons,List.foldlM_append]
      exact bindOk.mpr ⟨next,charged,all⟩
    · rintro ⟨lists,collected,all⟩
      obtain ⟨entries,listed,collected⟩ := bindOk.mp collected
      obtain ⟨more,later,same⟩ := bindOk.mp collected
      cases same
      rw [List.flatten_cons,List.foldlM_append] at all
      obtain ⟨next,charged,all⟩ := bindOk.mp all
      exact ⟨next,bindOk.mpr ⟨entries,listed,charged⟩,ih.mpr ⟨more,later,all⟩⟩

theorem inodesAppend (a b : List LeafEntry) : inodesOf (a ++ b) = inodesOf a ∪ inodesOf b := by
  simp only [inodesOf,List.map_append,List.toFinset_append]

theorem listsSized {lists : List (List LeafEntry)} (collected : collect (digestEntries s) finalKinds = .ok lists) :
    ∀ entry ∈ lists.flatten, entry.chargedBytes = allocated s entry.inode := by
  intro entry member
  obtain ⟨entries,among,inside⟩ := List.mem_flatten.mp member
  obtain ⟨kind,-,listed⟩ := collectMem collected among
  exact (digestsListed listed).sized entry inside

theorem usedExact : usedBytes s = .ok used ↔ ∃ lists stages,
    collect (digestEntries s) finalKinds = .ok lists ∧ stageEntries s = .ok stages ∧
    used.1 = ∑ i ∈ inodesOf lists.flatten, allocated s i ∧ used.1 < modulus ∧
    used.1 + used.2 = ∑ i ∈ inodesOf (lists.flatten ++ stages), allocated s i ∧ used.2 < modulus := by
  have zero : 0 < modulus := by decide
  constructor
  · intro ok
    obtain ⟨final,finals,ok⟩ := bindOk.mp ok
    obtain ⟨stages,staged,ok⟩ := bindOk.mp ok
    obtain ⟨last,charged,ok⟩ := bindOk.mp ok
    cases ok
    obtain ⟨lists,collected,finals⟩ := finalsCharged.mp finals
    obtain ⟨known,sum,small⟩ := (chargesExact _ (allocated s) (listsSized collected) zero).mp finals
    obtain ⟨every,sums,fits⟩ := (chargesExact _ (allocated s) (stagesListed staged).sized zero).mp charged
    rw [known,Finset.empty_union] at sum sums every
    rw [every,← inodesAppend] at sums
    rw [Finset.sum_empty] at sum
    exact ⟨lists,stages,collected,staged,by omega,small,by omega,fits⟩
  · rintro ⟨lists,stages,collected,staged,final,small,sum,fits⟩
    have finals : lists.flatten.foldlM (chargeEntry "summing final CAS bytes") (∅,0) =
        .ok (inodesOf lists.flatten,used.1) :=
      (chargesExact _ (allocated s) (listsSized collected) zero).mpr ⟨(Finset.empty_union _).symm,by simp [final],small⟩
    have all : used.2 + ∑ i ∈ inodesOf lists.flatten, allocated s i =
        0 + ∑ i ∈ inodesOf lists.flatten ∪ inodesOf stages, allocated s i := by
      rw [← inodesAppend]
      omega
    have charged : stages.foldlM (chargeEntry "summing staged CAS bytes") (inodesOf lists.flatten,0) =
        .ok (inodesOf lists.flatten ∪ inodesOf stages,used.2) :=
      (chargesExact _ (allocated s) (stagesListed staged).sized zero).mpr ⟨rfl,all,fits⟩
    exact bindOk.mpr ⟨_,finalsCharged.mpr ⟨lists,collected,finals⟩,bindOk.mpr ⟨stages,staged,bindOk.mpr ⟨_,charged,rfl⟩⟩⟩

theorem listsInodes {lists : List (List LeafEntry)} {stages : List LeafEntry}
    (collected : collect (digestEntries s) finalKinds = .ok lists) (staged : stageEntries s = .ok stages) :
    inodesOf (lists.flatten ++ stages) = (named s).image (inodeOf s) := by
  have every (kind : BlobKind) : kind ∈ finalKinds := by cases kind <;> decide
  ext i
  have finals : i ∈ inodesOf lists.flatten ↔ ∃ kind name, s.entry (.digest kind) name = some (.file i) := by
    rw [inodesOf,List.mem_toFinset,List.mem_map]
    constructor
    · rintro ⟨entry,member,rfl⟩
      obtain ⟨entries,among,inside⟩ := List.mem_flatten.mp member
      obtain ⟨kind,-,listed⟩ := collectMem collected among
      exact ⟨kind,entry.name,(digestsListed listed).files entry inside⟩
    · rintro ⟨kind,name,found⟩
      obtain ⟨entries,among,listed⟩ := collectEach collected (every kind)
      obtain ⟨entry,inside,-,same⟩ := listedEntry (digestsListed listed) found
      exact ⟨entry,List.mem_flatten.mpr ⟨entries,among,inside⟩,(Leaf.file.inj same).symm⟩
  rw [inodesAppend,Finset.mem_union,finals,listedInodes (stagesListed staged),Finset.mem_image]
  constructor
  · rintro (⟨kind,name,found⟩ | ⟨name,found⟩)
    · exact ⟨(.digest kind,name),memNamed.mpr (by rw [found]; nofun),by simp only [inodeOf,found]⟩
    · exact ⟨(.staging,name),memNamed.mpr (by rw [found]; nofun),by simp only [inodeOf,found]⟩
  · rintro ⟨⟨place,name⟩,present,rfl⟩
    obtain ⟨leaf,found⟩ := Option.ne_none_iff_exists'.mp (memNamed.mp present)
    cases place with
    | staging =>
      obtain ⟨entry,-,-,rfl⟩ := listedEntry (stagesListed staged) found
      exact .inr ⟨name,by simp only [inodeOf,found]⟩
    | digest kind =>
      obtain ⟨entries,-,listed⟩ := collectEach collected (every kind)
      obtain ⟨entry,-,-,rfl⟩ := listedEntry (digestsListed listed) found
      exact .inl ⟨kind,name,by simp only [inodeOf,found]⟩

theorem usedTotal (ok : usedBytes s = .ok used) :
    used.1 + used.2 = charged (inodeOf s) (allocated s) (named s) := by
  obtain ⟨lists,stages,collected,staged,-,-,sum,-⟩ := usedExact.mp ok
  rw [sum,listsInodes collected staged]
  rfl

structure Fewer (s t : Seen) : Prop where
  inodes : t.inodes = s.inodes
  entries : ∀ place name, t.entry place name = s.entry place name ∨ t.entry place name = none

theorem fewerEntry (fewer : Fewer s t) {name : Name} {leaf : Leaf} (found : t.entry place name = some leaf) :
    s.entry place name = some leaf := by
  rcases fewer.entries place name with same | none
  · rw [← same,found]
  · rw [none] at found
    contradiction

theorem fewerNames (fewer : Fewer s t) {kind : String} {names : List Name}
    (read : readNames s place kind = .ok names) :
    ∃ fewerNames, readNames t place kind = .ok fewerNames ∧ ∀ name ∈ fewerNames, name ∈ names ∧ t.entry place name ≠ none := by
  obtain ⟨rfl,texts,few⟩ := namesOk.mp read
  have among : ∀ name ∈ (t.names place).toList.map Prod.fst, name ∈ (s.names place).toList.map Prod.fst ∧
      t.entry place name ≠ none := by
    intro name member
    obtain ⟨⟨_,leaf⟩,row,rfl⟩ := List.mem_map.mp member
    have found : t.entry place _ = some leaf := KeyedSum.memToList.mp row
    refine ⟨List.mem_map_of_mem (KeyedSum.memToList.mpr (fewerEntry fewer found)),?_⟩
    rw [found]
    nofun
  have shorter := ((KeyedSum.keysNodup (t.names place)).subperm (fun name member => (among name member).1)).length_le
  exact ⟨_,namesOk.mpr ⟨rfl,fun name member => texts name (among name member).1,shorter.trans few⟩,among⟩

theorem fewerCollected {read read' : Name → Result LeafEntry} {names fewerNames : List Name}
    (among : ∀ name ∈ fewerNames, name ∈ names ∧ t.entry place name ≠ none)
    (same : ∀ name, t.entry place name ≠ none → read' name = read name)
    (ok : collect read names = .ok entries) : ∃ fewerEntries, collect read' fewerNames = .ok fewerEntries := by
  cases collected : collect read' fewerNames with
  | ok fewerEntries => exact ⟨fewerEntries,rfl⟩
  | error stop =>
    obtain ⟨front,name,back,rfl,stops,-⟩ := collectError.mp collected
    obtain ⟨member,present⟩ := among name (by simp)
    obtain ⟨entry,-,read⟩ := collectEach ok member
    rw [same name present,read] at stops
    contradiction

theorem fewerOpened (fewer : Fewer s t) {kind : String} {name : Name} (present : t.entry place name ≠ none) :
    openEntry t place kind name = openEntry s place kind name := by
  have same := (fewer.entries place name).resolve_right present
  simp only [openEntry,same,Seen.content,fewer.inodes]

theorem fewerDigests (fewer : Fewer s t) {kind : BlobKind}
    (ok : digestEntries s kind = .ok entries) : ∃ fewerEntries, digestEntries t kind = .ok fewerEntries := by
  obtain ⟨names,read,collected⟩ := bindOk.mp ok
  obtain ⟨left,read,among⟩ := fewerNames fewer read
  have same (name : Name) (present : t.entry (.digest kind) name ≠ none) : digestEntry t kind name = digestEntry s kind name := by
    rw [digestEntry,digestEntry,fewerOpened fewer present]
  obtain ⟨fewerEntries,collected⟩ := fewerCollected among same collected
  exact ⟨fewerEntries,bindOk.mpr ⟨left,read,collected⟩⟩

theorem fewerStages (fewer : Fewer s t) (ok : stageEntries s = .ok entries) :
    ∃ fewerEntries, stageEntries t = .ok fewerEntries := by
  obtain ⟨names,read,collected⟩ := bindOk.mp ok
  obtain ⟨left,read,among⟩ := fewerNames fewer read
  have same (name : Name) (present : t.entry .staging name ≠ none) : stageEntry t name = stageEntry s name := by
    simp only [stageEntry,fewerOpened fewer present]
  obtain ⟨fewerEntries,collected⟩ := fewerCollected among same collected
  exact ⟨fewerEntries,bindOk.mpr ⟨left,read,collected⟩⟩

theorem fewerInodes (fewer : Fewer s t) : (named t).image (inodeOf t) = (named t).image (inodeOf s) := by
  refine Finset.image_congr (fun link present => ?_)
  have same := (fewer.entries link.1 link.2).resolve_right (memNamed.mp present)
  simp only [inodeOf,same]

theorem fewerUsed (fewer : Fewer s t) (ok : usedBytes s = .ok used) (small : used.1 + used.2 < modulus) :
    ∃ left, usedBytes t = .ok left ∧ left.1 + left.2 = charged (inodeOf s) (allocated s) (named t) ∧
      left.1 + left.2 ≤ used.1 + used.2 := by
  have total := usedTotal ok
  obtain ⟨lists,stages,collected,staged,-⟩ := usedExact.mp ok
  obtain ⟨lists',collected'⟩ : ∃ lists', collect (digestEntries t) finalKinds = .ok lists' := by
    cases again : collect (digestEntries t) finalKinds with
    | ok lists' => exact ⟨lists',rfl⟩
    | error stop =>
      obtain ⟨front,kind,back,same,stops,-⟩ := collectError.mp again
      obtain ⟨entries,-,listed⟩ := collectEach collected (show kind ∈ finalKinds by rw [same]; simp)
      obtain ⟨fewerEntries,listed⟩ := fewerDigests fewer listed
      rw [listed] at stops
      contradiction
  obtain ⟨stages',staged'⟩ := fewerStages fewer staged
  have sizes : allocated t = allocated s := by
    funext i
    rw [allocated,allocated,fewer.inodes]
  have among : named t ⊆ named s := by
    intro link present
    obtain ⟨leaf,found⟩ := Option.ne_none_iff_exists'.mp (memNamed.mp present)
    exact memNamed.mpr (by rw [fewerEntry fewer found]; nofun)
  have part : ∑ i ∈ inodesOf lists'.flatten, allocated t i ≤ ∑ i ∈ inodesOf (lists'.flatten ++ stages'), allocated t i := by
    rw [inodesAppend]
    exact Finset.sum_le_sum_of_subset Finset.subset_union_left
  have whole : ∑ i ∈ inodesOf (lists'.flatten ++ stages'), allocated t i = charged (inodeOf s) (allocated s) (named t) := by
    rw [listsInodes collected' staged',fewerInodes fewer,sizes]
    rfl
  have less : charged (inodeOf s) (allocated s) (named t) ≤ charged (inodeOf s) (allocated s) (named s) :=
    Finset.sum_le_sum_of_subset (Finset.image_subset_image among)
  have made : usedBytes t = .ok (∑ i ∈ inodesOf lists'.flatten, allocated t i,
      ∑ i ∈ inodesOf (lists'.flatten ++ stages'), allocated t i - ∑ i ∈ inodesOf lists'.flatten, allocated t i) :=
    usedExact.mpr ⟨lists',stages',collected',staged',rfl,by omega,by simp only; omega,by simp only; omega⟩
  exact ⟨_,made,by simp only; omega,by simp only; omega⟩

end Usage

def DeleteCandidate.link (candidate : DeleteCandidate) : Place × Name := (candidate.kind.place,candidate.name)

def candidateOf (kind : DeleteKind) (entry : LeafEntry) : DeleteCandidate :=
  ⟨kind,entry.name,entry.inode,0,entry.chargedBytes⟩

theorem placeInjective {a b : DeleteKind} (same : a.place = b.place) : a = b := by
  cases a <;> cases b <;> simp_all [DeleteKind.place]

section Plans
variable {sha256 : Bytes → Digest} {s : Seen} {policy : GcPolicy} {limits : Limits}

structure Part (s : Seen) (kind : DeleteKind) (part entries : List LeafEntry) : Prop where
  listed : Listed s kind.place entries
  among : part.Sublist entries

variable {candidates : List DeleteCandidate} {entries : List LeafEntry} {kind : DeleteKind}

theorem leavesSelected {kind : BlobKind} {live : List Digest} {output : List DeleteCandidate}
    (listed : digestEntries s kind = .ok entries)
    (ok : entries.foldlM (planUnreferenced sha256 s kind live) output = .ok candidates) :
    ∃ part, Part s (.digest kind) part entries ∧ candidates = output ++ part.map (candidateOf (.digest kind)) := by
  have adds (out : List DeleteCandidate) (entry : LeafEntry) (next : List DeleteCandidate)
      (planned : planUnreferenced sha256 s kind live out entry = .ok next) :
      next = out ∨ next = out ++ [candidateOf (.digest kind) entry] := by
    obtain ⟨_,-,planned⟩ := bindOk.mp planned
    obtain ⟨_,-,planned⟩ := bindOk.mp planned
    obtain ⟨_,-,planned⟩ := bindOk.mp planned
    split at planned
    · exact .inl (Except.ok.inj planned).symm
    · exact .inr (Except.ok.inj planned).symm
  obtain ⟨part,among,same⟩ := foldSelects adds ok
  exact ⟨part,⟨digestsListed listed,among⟩,same⟩

theorem stagesSelected {output : List DeleteCandidate}
    (listed : stageEntries s = .ok entries) (ok : planStages policy entries output = .ok candidates) :
    ∃ part, Part s .stage part entries ∧ candidates = output ++ part.map (candidateOf .stage) := by
  have adds (out : List DeleteCandidate) (entry : LeafEntry) (next : List DeleteCandidate)
      (planned : planStage out entry = .ok next) : next = out ∨ next = out ++ [candidateOf .stage entry] := by
    obtain ⟨_,-,planned⟩ := bindOk.mp planned
    exact .inr (Except.ok.inj planned).symm
  unfold planStages at ok
  split at ok
  · obtain ⟨part,among,same⟩ := foldSelects adds ok
    exact ⟨part,⟨stagesListed listed,among⟩,same⟩
  · cases ok
    exact ⟨[],⟨stagesListed listed,List.nil_sublist _⟩,(List.append_nil _).symm⟩

theorem partLinks {part : List LeafEntry} (of : Part s kind part entries) :
    ((part.map (candidateOf kind)).map DeleteCandidate.link).Nodup ∧
      ∀ link ∈ (part.map (candidateOf kind)).map DeleteCandidate.link, link.1 = kind.place := by
  have names : (entries.map LeafEntry.name).Nodup := by
    rw [of.listed.names]
    exact KeyedSum.keysNodup _
  have links : (part.map (candidateOf kind)).map DeleteCandidate.link =
      (part.map LeafEntry.name).map (fun name => (kind.place,name)) := by
    rw [List.map_map,List.map_map]
    rfl
  rw [links]
  refine ⟨(names.sublist (of.among.map _)).map (fun a b same => (Prod.mk.inj same).2),fun link member => ?_⟩
  obtain ⟨name,-,rfl⟩ := List.mem_map.mp member
  rfl

structure Raw (s : Seen) (candidate : DeleteCandidate) : Prop where
  found : s.entry candidate.kind.place candidate.name = some (.file candidate.inode)
  sized : candidate.allocatedBytes = allocated s candidate.inode
  unassigned : candidate.reclaimBytes = 0

theorem partRaw {part : List LeafEntry} (of : Part s kind part entries) :
    ∀ candidate ∈ part.map (candidateOf kind), Raw s candidate := by
  intro candidate member
  obtain ⟨entry,inside,rfl⟩ := List.mem_map.mp member
  have among := of.among.subset inside
  exact ⟨of.listed.files entry among,of.listed.sized entry among,rfl⟩

theorem rawInode {candidate : DeleteCandidate} (raw : Raw s candidate) : inodeOf s candidate.link = candidate.inode := by
  simp only [inodeOf,DeleteCandidate.link,raw.found]

theorem rawNamed {candidate : DeleteCandidate} (raw : Raw s candidate) : candidate.link ∈ named s := by
  refine memNamed.mpr ?_
  rw [DeleteCandidate.link,raw.found]
  nofun

theorem reclaimedFrees {retained : List Nat} (raw : ∀ candidate ∈ candidates, Raw s candidate) :
    (reclaimed retained candidates).map DeleteCandidate.reclaimBytes =
      frees (inodeOf s) (allocated s) (fun i => i ∈ retained) (candidates.map DeleteCandidate.link) := by
  induction candidates with
  | nil => rfl
  | cons candidate rest ih =>
    have here := raw candidate List.mem_cons_self
    have later : ∀ other ∈ rest, Raw s other := fun other member => raw other (List.mem_cons_of_mem _ member)
    have shared : (retained.contains candidate.inode = true ∨ rest.any (fun later => later.inode = candidate.inode) = true) ↔
        (inodeOf s candidate.link ∈ retained ∨ ∃ link ∈ rest.map DeleteCandidate.link,
          inodeOf s link = inodeOf s candidate.link) := by
      rw [rawInode here,List.contains_iff_mem,List.any_eq_true]
      refine or_congr Iff.rfl ⟨?_,?_⟩
      · rintro ⟨other,member,same⟩
        refine ⟨other.link,List.mem_map_of_mem member,?_⟩
        rw [rawInode (later other member)]
        simpa using same
      · rintro ⟨link,member,same⟩
        obtain ⟨other,inside,rfl⟩ := List.mem_map.mp member
        rw [rawInode (later other inside)] at same
        exact ⟨other,inside,by simpa using same⟩
    rw [reclaimed,List.map_cons,ih later,List.map_cons,frees]
    congr 1
    by_cases both : inodeOf s candidate.link ∈ retained ∨ ∃ link ∈ rest.map DeleteCandidate.link,
        inodeOf s link = inodeOf s candidate.link
    · rw [if_pos both,if_pos (shared.mpr both)]
      exact here.unassigned
    · rw [if_neg both,if_neg (mt shared.mp both)]
      exact here.sized.trans (congrArg _ (rawInode here).symm)

theorem candidateLink {entry : LeafEntry} :
    isCandidate candidates kind entry = true ↔ (kind.place,entry.name) ∈ candidates.map DeleteCandidate.link := by
  simp only [isCandidate,List.any_eq_true,decide_eq_true_eq,List.mem_map,DeleteCandidate.link,Prod.mk.injEq]
  constructor
  · rintro ⟨other,member,rfl,same⟩
    exact ⟨other,member,rfl,same⟩
  · rintro ⟨other,member,place,same⟩
    exact ⟨other,member,placeInjective place,same⟩

theorem keptInode (listed : Listed s kind.place entries) {i : Nat} :
    i ∈ (entries.filter (fun entry => !isCandidate candidates kind entry)).map LeafEntry.inode ↔
      ∃ link ∈ named s, link ∉ candidates.map DeleteCandidate.link ∧ link.1 = kind.place ∧ inodeOf s link = i := by
  simp only [List.mem_map,List.mem_filter,Bool.not_eq_true']
  constructor
  · rintro ⟨entry,⟨member,free⟩,rfl⟩
    have found := listed.files entry member
    refine ⟨(kind.place,entry.name),memNamed.mpr (by rw [found]; nofun),?_,rfl,by simp only [inodeOf,found]⟩
    rw [← List.mem_map,← candidateLink,free]
    exact Bool.false_ne_true
  · rintro ⟨⟨place,name⟩,present,outside,rfl,rfl⟩
    obtain ⟨leaf,found⟩ := Option.ne_none_iff_exists'.mp (memNamed.mp present)
    obtain ⟨entry,member,rfl,rfl⟩ := listedEntry listed found
    refine ⟨entry,⟨member,?_⟩,by simp only [inodeOf,found]⟩
    rw [← List.mem_map,← candidateLink] at outside
    exact Bool.eq_false_iff.mpr outside

theorem reclaimedLinks (retained : List Nat) (candidates : List DeleteCandidate) :
    (reclaimed retained candidates).map DeleteCandidate.link = candidates.map DeleteCandidate.link := by
  have links (items : List DeleteCandidate) : items.map DeleteCandidate.link =
      (items.map (fun candidate => (candidate.kind,candidate.name))).map (fun pair => (pair.1.place,pair.2)) := by
    rw [List.map_map]
    rfl
  rw [links,reclaimedNames,← links]

theorem planReclaims (ok : gcPlan sha256 s policy limits = .ok candidates) :
    (candidates.map DeleteCandidate.link).Nodup ∧ (∀ link ∈ candidates.map DeleteCandidate.link, link ∈ named s) ∧
    ∃ retained : List Nat,
      (∀ i, i ∈ retained ↔ ∃ link ∈ named s, link ∉ candidates.map DeleteCandidate.link ∧ inodeOf s link = i) ∧
      candidates.map DeleteCandidate.reclaimBytes =
        frees (inodeOf s) (allocated s) (fun i => i ∈ retained) (candidates.map DeleteCandidate.link) := by
  obtain ⟨manifests,manifestsRead,ok⟩ := bindOk.mp ok
  obtain ⟨objects,objectsRead,ok⟩ := bindOk.mp ok
  obtain ⟨tables,tablesRead,ok⟩ := bindOk.mp ok
  obtain ⟨stages,stagesRead,ok⟩ := bindOk.mp ok
  obtain ⟨live,-,ok⟩ := bindOk.mp ok
  obtain ⟨_,planned,ok⟩ := bindOk.mp ok
  obtain ⟨first,ofObjects,rfl⟩ := leavesSelected objectsRead planned
  obtain ⟨_,planned,ok⟩ := bindOk.mp ok
  obtain ⟨second,ofTables,rfl⟩ := leavesSelected tablesRead planned
  obtain ⟨raw,planned,ok⟩ := bindOk.mp ok
  obtain ⟨third,ofStages,same⟩ := stagesSelected stagesRead planned
  obtain ⟨-,ok⟩ := guardOk.mp ok
  cases ok
  rw [List.nil_append] at same
  obtain ⟨firstDistinct,firstPlace⟩ := partLinks ofObjects
  obtain ⟨secondDistinct,secondPlace⟩ := partLinks ofTables
  obtain ⟨thirdDistinct,thirdPlace⟩ := partLinks ofStages
  have links : raw.map DeleteCandidate.link = (first.map (candidateOf (.digest .object))).map DeleteCandidate.link ++
      (second.map (candidateOf (.digest .pageTable))).map DeleteCandidate.link ++
      (third.map (candidateOf .stage)).map DeleteCandidate.link := by
    rw [same,List.map_append,List.map_append]
  have distinct : (raw.map DeleteCandidate.link).Nodup := by
    rw [links]
    refine List.nodup_append.mpr ⟨List.nodup_append.mpr ⟨firstDistinct,secondDistinct,?_⟩,thirdDistinct,?_⟩
    · rintro a here b there rfl
      cases (firstPlace a here).symm.trans (secondPlace a there)
    · rintro a here b there rfl
      rcases List.mem_append.mp here with before | before
      · cases (firstPlace a before).symm.trans (thirdPlace a there)
      · cases (secondPlace a before).symm.trans (thirdPlace a there)
  have raws : ∀ candidate ∈ raw, Raw s candidate := by
    intro candidate member
    rw [same] at member
    rcases List.mem_append.mp member with before | here
    · rcases List.mem_append.mp before with before | here
      · exact partRaw ofObjects candidate before
      · exact partRaw ofTables candidate here
    · exact partRaw ofStages candidate here
  have retainedManifests : manifests.map LeafEntry.inode =
      (manifests.filter (fun entry => !isCandidate raw (.digest .manifest) entry)).map LeafEntry.inode := by
    rw [List.filter_eq_self.mpr]
    intro entry _
    by_contra planned
    have planned := candidateLink.mp (by simpa using planned)
    rw [links,List.mem_append,List.mem_append] at planned
    rcases planned with (here | here) | here
    · cases firstPlace _ here
    · cases secondPlace _ here
    · cases thirdPlace _ here
  rw [reclaimedLinks]
  refine ⟨distinct,?_,_,fun i => ?_,reclaimedFrees raws⟩
  · intro link member
    obtain ⟨candidate,inside,rfl⟩ := List.mem_map.mp member
    exact rawNamed (raws candidate inside)
  · let Kept (kind : DeleteKind) : Prop :=
      ∃ link ∈ named s, link ∉ raw.map DeleteCandidate.link ∧ link.1 = kind.place ∧ inodeOf s link = i
    have ofManifests : i ∈ manifests.map LeafEntry.inode ↔ Kept (.digest .manifest) := by
      rw [retainedManifests]
      exact keptInode (digestsListed manifestsRead)
    have ofObjects : _ ↔ Kept (.digest .object) := keptInode (digestsListed objectsRead)
    have ofTables : _ ↔ Kept (.digest .pageTable) := keptInode (digestsListed tablesRead)
    have ofStages : _ ↔ Kept .stage := keptInode (stagesListed stagesRead)
    rw [List.mem_append,List.mem_append,List.mem_append,ofManifests,ofObjects,ofTables,ofStages]
    constructor
    · rintro (((kept | kept) | kept) | kept)
      all_goals
        obtain ⟨link,present,outside,-,same⟩ := kept
        exact ⟨link,present,outside,same⟩
    · rintro ⟨⟨place,name⟩,present,outside,same⟩
      cases place with
      | staging => exact .inr ⟨_,present,outside,rfl,same⟩
      | digest kind =>
        cases kind with
        | manifest => exact .inl (.inl (.inl ⟨_,present,outside,rfl,same⟩))
        | object => exact .inl (.inl (.inr ⟨_,present,outside,rfl,same⟩))
        | pageTable => exact .inl (.inr ⟨_,present,outside,rfl,same⟩)

end Plans

section Sweeping
variable {fs : FileSystem} {sha256 : Bytes → Digest} {policy : GcPolicy} {s t : Store} {removed : List DeleteCandidate}

theorem sweptFewer (swept : Swept s removed t) : Fewer s.seen t.seen where
  inodes := swept.inodes
  entries := fun place name => by
    by_cases gone : ∃ candidate ∈ removed, candidate.kind.place = place ∧ candidate.name = name
    · obtain ⟨candidate,member,rfl,rfl⟩ := gone
      exact .inr (swept.gone candidate member)
    · exact .inl (swept.kept place name (fun candidate member same => gone ⟨candidate,member,same⟩))

theorem sweptNamed (swept : Swept s removed t) :
    named t.seen = named s.seen \ (removed.map DeleteCandidate.link).toFinset := by
  ext ⟨place,name⟩
  rw [Finset.mem_sdiff,memNamed,memNamed,List.mem_toFinset,List.mem_map]
  constructor
  · intro present
    refine ⟨?_,?_⟩
    · obtain ⟨leaf,found⟩ := Option.ne_none_iff_exists'.mp present
      rw [fewerEntry (sweptFewer swept) found]
      nofun
    · rintro ⟨candidate,member,same⟩
      cases same
      exact present (swept.gone candidate member)
  · rintro ⟨present,kept⟩
    have same : t.entry .visible place name = s.entry .visible place name := swept.kept place name (fun candidate member same =>
      kept ⟨candidate,member,by rw [DeleteCandidate.link,same.1,same.2]⟩)
    rw [show t.seen.entry place name = s.seen.entry place name from same]
    exact present

def Totals (fs : FileSystem) (s : Store) (total : Nat) : Prop :=
  ∀ n, (∃ reported last, Runs (Happens fs) (usage fs.unit) s (some (.ok reported)) last ∧
    reported.checkedTotalBytes = .ok n) ↔ n = total

theorem usedTotals {used : Nat × Nat} (ok : usedBytes s.seen = .ok used) (small : used.1 + used.2 < modulus) :
    Totals fs s (used.1 + used.2) := by
  have fits : checkedAdd used.1 used.2 = some (used.1 + used.2) := checkedAddSome.mpr ⟨small,rfl⟩
  intro n
  constructor
  · rintro ⟨reported,last,runs,total⟩
    have quiet : Does (Happens fs) (fun _ _ => False) _ (usage fs.unit) s := usageDoes
    obtain ⟨-,used',available,found,-,rfl⟩ := (doesRuns quiet runs).2 reported rfl
    cases ok.symm.trans found
    exact (checkedAddSome.mp (orFailOk.mp total)).2
  · rintro rfl
    have total : DiskUsage.checkedTotalBytes ⟨used.1,used.2,0,fs.unit⟩ = .ok (used.1 + used.2) := orFailOk.mpr fits
    refine ⟨⟨used.1,used.2,0,fs.unit⟩,s,?_,total⟩
    refine .act ⟨s,rfl,rfl,.inl ⟨(),rfl,trivial⟩⟩ (.look ?_)
    rw [ok]
    refine .act ⟨s,rfl,rfl,.inl ⟨(0 : Nat),rfl,trivial⟩⟩ ?_
    change Runs _ (lift (DiskUsage.checkedTotalBytes ⟨used.1,used.2,0,fs.unit⟩) >>= fun _ => pure _) s _ s
    rw [total]
    exact .done _ s

variable {plan : List DeleteCandidate × GcReport}

theorem partReclaimed (prepared : Prepared sha256 policy s limits plan) (among : removed <+: plan.1) (swept : Swept s removed t) :
    ∃ before after, Totals fs s before ∧ Totals fs t after ∧
      (removed.map DeleteCandidate.reclaimBytes).sum + after = before := by
  obtain ⟨used,read,small⟩ := prepared.used
  obtain ⟨distinct,inside,retained,others,assigned⟩ := planReclaims prepared.planned
  obtain ⟨left,readLeft,sum,less⟩ := fewerUsed (sweptFewer swept) read small
  refine ⟨_,_,usedTotals read small,usedTotals readLeft (Nat.lt_of_le_of_lt less small),?_⟩
  have exact := freesExact (inodeOf s.seen) (allocated s.seen) distinct inside others removed.length
  have taken : plan.1.take removed.length = removed := (List.prefix_iff_eq_take.mp among).symm
  rw [← assigned,← List.map_take,← List.map_take,taken,← sweptNamed swept,← sum,← usedTotal read] at exact
  exact exact

theorem totalsUnique {a b : Nat} (first : Totals fs s a) (second : Totals fs s b) : a = b :=
  (second a).mp ((first a).mpr rfl)

def linkedStage : Name := ⟨stageStem .object zeroDigest 1 ++ List.replicate 32 97⟩

def linked : Store :=
  let files : Store := {Store.empty with inodes := fun i => ⟨[],true,if i = 0 then 8 else 16⟩}
  ((files.bound (.digest .object) (digestName zeroDigest) (.file 0)).bound .staging linkedStage (.file 0)).bound
    (.digest .pageTable) (digestName zeroDigest) (.file 1)

def linkedPlan : Task (List DeleteCandidate × GcReport) := gcPrepare (fun _ => zeroDigest) 4096 ⟨false,true⟩ Limits.default

end Sweeping

end RunnelMoe.Cas
