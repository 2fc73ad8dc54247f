import RunnelMoe.ManifestUnique
import RunnelMoe.Slices

/-! What an accepted manifest says. The objects have digests and page tables of their
own and sizes that fit the arithmetic on pages, and the tensors of an object tile it. -/
namespace RunnelMoe.Format
open Readers Results StoreErrors Words Vectors PageSpecs Slices

variable {limits : Limits} {row : Json × Nat} {objects : List ObjectRecord}

structure Scanned (scan : ObjectScan) : Prop where
  ascending : scan.records.Pairwise (fun a b => a.digest < b.digest)
  tables : (scan.records.map ObjectRecord.pageTable).Nodup
  known : ∀ record ∈ scan.records, record.pageTable ∈ scan.pageTables
  valid : ∀ record ∈ scan.records, RecordValid record

theorem aboveAll {records : List ObjectRecord} {digest : Digest} (ascending : records.Pairwise (fun a b => a.digest < b.digest))
    (above : ¬records.getLast?.any (fun previous => digest ≤ previous.digest)) : ∀ a ∈ records, a.digest < digest := by
  intro a inside
  obtain rfl | ⟨front,last,rfl⟩ := List.eq_nil_or_concat records
  · contradiction
  · rw [List.concat_eq_append] at ascending above inside
    have below : last.digest < digest := by simpa using above
    rcases List.mem_append.mp inside with old | here
    · exact ((List.pairwise_append.mp ascending).2.2 a old last (List.mem_singleton.mpr rfl)).trans below
    · cases List.mem_singleton.mp here
      exact below

theorem scannedObject {scan next : ObjectScan} (scanned : Scanned scan)
    (ok : parseObject limits scan row = .ok next) : Scanned next := by
  obtain ⟨record,_,_,rfl,valid,above,new,-⟩ := objectParsed ok
  refine ⟨?_,?_,?_,?_⟩
  · refine List.pairwise_append.mpr ⟨scanned.ascending,List.pairwise_singleton _ _,fun a inside b last => ?_⟩
    cases List.mem_singleton.mp last
    exact aboveAll scanned.ascending above a inside
  · rw [List.map_append,List.nodup_append]
    refine ⟨scanned.tables,List.nodup_singleton _,fun a inside b last same => ?_⟩
    obtain ⟨other,member,rfl⟩ := List.mem_map.mp inside
    cases List.mem_singleton.mp last
    have found := scanned.known other member
    rw [same] at found
    exact new found
  · intro other member
    rcases List.mem_append.mp member with old | last
    · exact List.mem_cons_of_mem _ (scanned.known other old)
    · cases List.mem_singleton.mp last
      exact List.mem_cons_self
  · intro other member
    rcases List.mem_append.mp member with old | last
    · exact scanned.valid other old
    · cases List.mem_singleton.mp last
      exact valid

theorem objectsScanned {value : Json} (ok : parseObjects value limits = .ok objects) :
    (objects.map ObjectRecord.digest).Nodup ∧ (objects.map ObjectRecord.pageTable).Nodup ∧
      ∀ record ∈ objects, RecordValid record := by
  obtain ⟨values,-,ok⟩ := bindOk.mp ok
  obtain ⟨scan,folded,ok⟩ := bindOk.mp (guardOk.mp ok).2
  cases ok
  have scanned : Scanned scan := foldInvariant Scanned (fun _ _ _ _ inv step => scannedObject inv step) folded
    ⟨List.Pairwise.nil,List.nodup_nil,nofun,nofun⟩
  exact ⟨List.pairwise_map.mpr (scanned.ascending.imp ne_of_lt),scanned.tables,scanned.valid⟩

theorem tensorsAdded {values : List Json} {start : Nat} {scan done : TensorScan}
    (ok : (values.zipIdx start).foldlM (parseTensor objects) scan = .ok done) :
    ∃ tensors, done.tensors = scan.tensors ++ tensors ∧
      done.ranges = scan.ranges ++ tensors.map (fun tensor => (tensor.object,tensor.range)) ∧
      ∀ i tensor, tensors[i]? = some tensor → TensorValid objects (start + i) tensor := by
  induction values generalizing start scan with
  | nil =>
    cases foldNil.mp ok
    exact ⟨[],(List.append_nil _).symm,(List.append_nil _).symm,nofun⟩
  | cons value rest ih =>
    rw [List.zipIdx_cons] at ok
    obtain ⟨next,one,later⟩ := foldCons.mp ok
    obtain ⟨tensor,added,ranged,valid,-⟩ := tensorParsed one
    obtain ⟨tensors,all,ranges,each⟩ := ih later
    refine ⟨tensor::tensors,?_,?_,?_⟩
    · rw [all,added,List.append_assoc]
      rfl
    · rw [ranges,ranged,List.append_assoc]
      rfl
    · intro i other found
      cases i with
      | zero =>
        cases Option.some.inj found
        exact valid
      | succ i =>
        rw [← Nat.succ_add_eq_add_succ]
        exact each i other found

theorem coverTiled {object : Digest} {ranges : List (Nat × Nat)} (forward : ∀ range ∈ ranges, range.1 ≤ range.2)
    {cursor done : Nat} (ok : ranges.foldlM (coverRange object) cursor = .ok done) : Tiled cursor ranges done := by
  induction ranges generalizing cursor with
  | nil =>
    cases foldNil.mp ok
    exact .nil done
  | cons range rest ih =>
    obtain ⟨next,one,later⟩ := foldCons.mp ok
    obtain ⟨gap,one⟩ := guardOk.mp one
    obtain ⟨overlap,one⟩ := guardOk.mp one
    cases one
    have starts : range.1 = cursor := by omega
    subst starts
    exact .cons (forward range List.mem_cons_self)
      (ih (fun other member => forward other (List.mem_cons_of_mem _ member)) later)

theorem coverageTiled {ranges : List (Digest × Nat × Nat)}
    (forward : ∀ row ∈ ranges, row.2.1 ≤ row.2.2) (ok : validateTensorCoverage objects ranges = .ok ())
    {record : ObjectRecord} (member : record ∈ objects) :
    Tiled 0 (objectRanges ranges record.digest) record.length := by
  obtain ⟨_,_,one⟩ := foldEach ok member
  obtain ⟨cursor,covered,one⟩ := bindOk.mp one
  obtain ⟨whole,-⟩ := guardOk.mp one
  rw [← not_not.mp whole]
  refine coverTiled (fun range inside => ?_) covered
  obtain ⟨row,listed,rfl⟩ := List.mem_map.mp ((sortByKeyPerm _ _).mem_iff.mp inside)
  exact forward row (List.mem_filter.mp listed).1

def Manifest.tensorsOf (manifest : Manifest) (object : Digest) : List TensorRecord :=
  manifest.tensors.filter (fun tensor => tensor.object = object)

structure ManifestValid (manifest : Manifest) : Prop where
  digests : (manifest.objects.map ObjectRecord.digest).Nodup
  tables : (manifest.objects.map ObjectRecord.pageTable).Nodup
  records : ∀ record ∈ manifest.objects, RecordValid record
  tensors : ∀ i tensor, manifest.tensors[i]? = some tensor → TensorValid manifest.objects i tensor
  covered : ∀ record ∈ manifest.objects,
    Tiled 0 ((sortByKey TensorRecord.offset (manifest.tensorsOf record.digest)).map TensorRecord.range) record.length

theorem rangesOf (tensors : List TensorRecord) (object : Digest) :
    objectRanges (tensors.map (fun tensor => (tensor.object,tensor.range))) object =
      (sortByKey (fun tensor => toLex tensor.range) (tensors.filter (fun tensor => tensor.object = object))).map
        TensorRecord.range := by
  rw [objectRanges,List.filter_map,List.map_map]
  exact sortByKeyMapped TensorRecord.range _ (fun _ _ => rfl)

/- Ranges that tile an object differ in their starts, so the order of the starts alone is
the order of the ranges. -/
theorem tiledByOffset {tensors : List TensorRecord} {last : Nat} (some_ : ∀ tensor ∈ tensors, 0 < tensor.length)
    (tiled : Tiled 0 ((sortByKey (fun tensor => toLex tensor.range) tensors).map TensorRecord.range) last) :
    Tiled 0 ((sortByKey TensorRecord.offset tensors).map TensorRecord.range) last := by
  have same := sortByKeyPerm (fun tensor : TensorRecord => toLex tensor.range) tensors
  have ascending := List.pairwise_map.mp (tiledAscending tiled (fun range member => by
    obtain ⟨tensor,listed,rfl⟩ := List.mem_map.mp member
    exact Nat.lt_add_of_pos_right (some_ tensor (same.mem_iff.mp listed)))).1
  have sorted : sortByKey TensorRecord.offset tensors = _ := sortByKeyUnique same ascending
  rw [sorted]
  exact tiled

theorem schemaParts {document : Json} {manifest : Manifest} (ok : validateSchema document limits = .ok manifest) :
    ∃ objectsValue tensorsValue, parseObjects objectsValue limits = .ok manifest.objects ∧
      parseTensors tensorsValue manifest.objects limits = .ok manifest.tensors := by
  obtain ⟨_,-,ok⟩ := bindOk.mp ok
  obtain ⟨_,-,ok⟩ := bindOk.mp ok
  obtain ⟨_,-,ok⟩ := bindOk.mp ok
  obtain ⟨_,-,ok⟩ := bindOk.mp ok
  obtain ⟨_,-,ok⟩ := bindOk.mp ok
  obtain ⟨_,-,ok⟩ := bindOk.mp ok
  obtain ⟨_,-,ok⟩ := bindOk.mp ok
  obtain ⟨_,-,ok⟩ := bindOk.mp ok
  obtain ⟨_,-,ok⟩ := bindOk.mp ok
  obtain ⟨_,-,ok⟩ := bindOk.mp ok
  obtain ⟨_,-,ok⟩ := bindOk.mp ok
  obtain ⟨_,-,ok⟩ := bindOk.mp ok
  obtain ⟨objectsValue,-,ok⟩ := bindOk.mp (guardOk.mp ok).2
  obtain ⟨objects,scanned,ok⟩ := bindOk.mp ok
  obtain ⟨tensorsValue,-,ok⟩ := bindOk.mp ok
  obtain ⟨tensors,listed,ok⟩ := bindOk.mp ok
  cases ok
  exact ⟨objectsValue,tensorsValue,scanned,listed⟩

theorem parsedValid {sha256 : Bytes → Digest} {bytes : Bytes} {manifest : Manifest}
    (ok : parseWithLimits sha256 bytes limits = .ok manifest) : ManifestValid manifest := by
  obtain ⟨_,-,ok⟩ := bindOk.mp ok
  obtain ⟨_,-,ok⟩ := bindOk.mp (guardOk.mp ok).2
  obtain ⟨_,valid,ok⟩ := bindOk.mp ok
  cases (guardOk.mp ok).2
  obtain ⟨_,_,objects,tensors⟩ := schemaParts valid
  obtain ⟨digests,tables,records⟩ := objectsScanned objects
  obtain ⟨values,-,tensors⟩ := bindOk.mp tensors
  obtain ⟨scan,folded,tensors⟩ := bindOk.mp (guardOk.mp tensors).2
  obtain ⟨_,covered,tensors⟩ := bindOk.mp tensors
  have listed : scan.tensors = _ := Except.ok.inj tensors
  obtain ⟨added,all,ranges,each⟩ := tensorsAdded folded
  rw [List.nil_append] at all ranges
  rw [← all,listed] at ranges each
  have some_ (tensor : TensorRecord) (member : tensor ∈ added) : 0 < tensor.length := by
    obtain ⟨i,found⟩ := List.mem_iff_getElem?.mp member
    rw [← listed,all] at each
    exact (each i tensor found).positive
  refine ⟨digests,tables,records,fun i tensor found => ?_,fun record member => ?_⟩
  · rw [← Nat.zero_add i]
    exact each i tensor found
  · refine tiledByOffset (fun tensor inside => ?_) ?_
    · have inside := (List.mem_filter.mp inside).1
      rw [← listed,all] at inside
      exact some_ tensor inside
    · rw [Manifest.tensorsOf,← rangesOf,← ranges]
      refine coverageTiled (fun row inside => ?_) covered member
      rw [ranges] at inside
      obtain ⟨tensor,-,rfl⟩ := List.mem_map.mp inside
      exact Nat.le_add_right ..

end RunnelMoe.Format
