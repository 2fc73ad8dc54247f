import RunnelMoe.ManifestModel

/-! The typed manifest says everything that its document says: an accepted document is
the one that the fields of its manifest spell out. The accepted bytes are the canonical
form of that document, so two accepted manifests with the same fields have the same
bytes and the same identity. -/
namespace RunnelMoe.Format
open Readers Results StoreErrors Words Vectors PageSpecs

def adapterTree (a : Adapter) : Json := .object [(text "id",.string a.id),(text "version",.integer a.version)]

def tokenizerTree (t : Tokenizer) : Json :=
  .object [(text "id",.string t.id),(text "version",.integer t.version),(text "vocab_size",.integer t.vocabSize)]

def modelTree (m : TinyModel) : Json :=
  .object [(text "context_length",.integer m.contextLength),(text "expert_hidden_size",.integer m.expertHiddenSize),
    (text "hidden_size",.integer m.hiddenSize),(text "num_experts",.integer m.numExperts),
    (text "num_heads",.integer m.numHeads),(text "num_layers",.integer m.numLayers),(text "top_k",.integer m.topK),
    (text "vocab_size",.integer m.vocabSize)]

def objectTree (r : ObjectRecord) : Json :=
  .object [(text "digest",.string (displayDigest r.digest)),(text "length",.integer r.length),
    (text "page_size",.integer r.pageSize),(text "page_table",.string (displayDigest r.pageTable)),
    (text "page_table_length",.integer r.pageTableLength)]

def tensorTree (t : TensorRecord) : Json :=
  .object [(text "dtype",.string t.dtype.asStr),(text "id",.integer t.id),(text "length",.integer t.length),
    (text "object",.string (displayDigest t.object)),(text "offset",.integer t.offset),(text "role",.string t.role),
    (text "shape",.array (t.shape.map .integer))]

def manifestTree (m : Manifest) : Json :=
  .object [(text "adapter",adapterTree m.adapter),(text "format",.string (text "rmoa")),(text "model",modelTree m.model),
    (text "objects",.array (m.objects.map objectTree)),(text "tensors",.array (m.tensors.map tensorTree)),
    (text "tokenizer",tokenizerTree m.tokenizer),(text "version",.integer 1)]

section Fields
variable {value : Json} {path : String} {object fields : List (Bytes × Json)} {key : Bytes}

theorem stringExpected {s : Bytes} : expectString value path = .ok s ↔ value = .string s := by
  cases value <;> simp [expectString,schema]

theorem integerExpected {n : Nat} : expectInteger value path = .ok n ↔ value = .integer n := by
  cases value <;> simp [expectInteger,schema]

theorem arrayExpected {values : List Json} : expectArray value path = .ok values ↔ value = .array values := by
  cases value <;> simp [expectArray,schema]

theorem objectExpected : expectObject value path = .ok object ↔ value = .object object := by
  cases value <;> simp [expectObject,schema]

theorem positiveExpected {n : Nat} (ok : positiveInteger value path = .ok n) : value = .integer n := by
  obtain ⟨m,read,last⟩ := bindOk.mp ok
  obtain ⟨-,last⟩ := guardOk.mp last
  cases last
  exact integerExpected.mp read

theorem literalString {s : Bytes} {u : Unit} (ok : expectLiteralString value s path = .ok u) : value = .string s := by
  obtain ⟨found,read,last⟩ := bindOk.mp ok
  rw [stringExpected.mp read,not_not.mp (guardOk.mp last).1]

theorem literalInteger {n : Nat} {u : Unit} (ok : expectLiteralInteger value n path = .ok u) : value = .integer n := by
  obtain ⟨found,read,last⟩ := bindOk.mp ok
  rw [integerExpected.mp read,not_not.mp (guardOk.mp last).1]

theorem requiredFound {v : Json} (ok : required object key path = .ok v) : lookup key object = some v := by
  unfold required okOr at ok
  split at ok
  · rename_i found
    cases ok
    exact found
  · contradiction

theorem fieldTaken {A B : Type} {read : Json → Except FormatError A} {tree : A → Json} {next : A → Except FormatError B} {out : B}
    (ok : (required object key path >>= fun value => read value >>= next) = .ok out)
    (shape : ∀ {value a}, lookup key object = some value → read value = .ok a → value = tree a) :
    ∃ a, lookup key object = some (tree a) ∧ (∃ value, read value = .ok a) ∧ next a = .ok out := by
  obtain ⟨value,found,ok⟩ := bindOk.mp ok
  obtain ⟨a,took,ok⟩ := bindOk.mp ok
  have found := requiredFound found
  exact ⟨a,shape found took ▸ found,⟨value,took⟩,ok⟩

theorem exactKeysSame {expected : List Bytes} (ascending : Ascending object) (sorted : expected.Pairwise (· < ·))
    (ok : exactKeys object expected path = .ok ()) : object.map Prod.fst = expected := by
  unfold exactKeys at ok
  split at ok
  · contradiction
  rename_i known
  split at ok
  · contradiction
  rename_i complete
  simp only [List.find?_eq_none,Bool.not_eq_true',Bool.not_eq_false,List.contains_iff_mem] at known complete
  have different {a b : Bytes} (below : a < b) : a ≠ b := by
    rintro rfl
    exact List.lt_irrefl _ below
  have perm : (object.map Prod.fst).Perm expected := by
    refine (List.perm_ext_iff_of_nodup (ascending.imp different) (sorted.imp different)).mpr (fun k => ?_)
    exact ⟨known k,complete k⟩
  refine perm.eq_of_pairwise (fun a b _ _ below above => ?_) ascending sorted
  exact absurd (List.lt_trans below above) (List.lt_irrefl _)

theorem entriesDetermined (ascending : Ascending object) (keys : object.map Prod.fst = fields.map Prod.fst)
    (found : ∀ f ∈ fields, lookup f.1 object = some f.2) : object = fields := by
  induction object generalizing fields with
  | nil =>
    rw [List.map_nil,eq_comm,List.map_eq_nil_iff] at keys
    exact keys.symm
  | cons e rest ih =>
    cases fields with
    | nil => simp at keys
    | cons f fields =>
      rw [List.map_cons,List.map_cons,List.cons.injEq] at keys
      obtain ⟨below,ascending⟩ := List.pairwise_cons.mp ascending
      have head : e = f := by
        have first := found f List.mem_cons_self
        rw [lookup,List.find?_cons_of_pos (by simpa using keys.1),Option.map_some] at first
        exact Prod.ext keys.1 (Option.some.inj first)
      have tail : rest = fields := by
        refine ih ascending keys.2 (fun g member => ?_)
        have other : e.1 ≠ g.1 := by
          have later : g.1 ∈ rest.map Prod.fst := by
            rw [keys.2]
            exact List.mem_map_of_mem member
          intro same
          have less := below g.1 later
          rw [same] at less
          exact List.lt_irrefl _ less
        have inside := found g (List.mem_cons_of_mem _ member)
        rwa [lookup,List.find?_cons_of_neg (by simpa using other)] at inside
      rw [head,tail]

theorem objectDetermined {keys : List Bytes} {where_ : String} (sorted : value.Sorted)
    (opened : expectObject value path = .ok object) (exact_ : exactKeys object keys where_ = .ok ())
    (ordered : keys.Pairwise (· < ·)) (names : fields.map Prod.fst = keys)
    (found : fields.Forall (fun f => lookup f.1 object = some f.2)) : value = .object fields := by
  have same := objectExpected.mp opened
  subst same
  cases sorted with
  | object ascending each =>
    have keys := exactKeysSame ascending ordered exact_
    rw [entriesDetermined ascending (keys.trans names.symm) (List.forall_iff_forall_mem.mp found)]

theorem lookupSorted {v : Json} (sorted : (Json.object object).Sorted) (found : lookup key object = some v) : v.Sorted := by
  cases sorted with
  | object ascending each =>
    obtain ⟨e,inside,same⟩ := Option.map_eq_some_iff.mp found
    rw [← same]
    exact each e (List.mem_of_find?_eq_some inside)

end Fields

theorem pairsWritten {digits bytes : Bytes} (even : digits.length % 2 = 0) (read : hexPairs digits = some bytes) :
    bytes.flatMap hexPair = digits := by
  induction digits using hexPairs.induct generalizing bytes with
  | case1 h l rest ih =>
    simp only [hexPairs,Option.bind_eq_bind,Option.bind_eq_some_iff] at read
    obtain ⟨high,first,low,second,more,later,last⟩ := read
    cases last
    obtain ⟨highSmall,highWritten⟩ := hexWritten first
    obtain ⟨lowSmall,lowWritten⟩ := hexWritten second
    have value : ((high * 16 + low).toUInt8).toNat = high * 16 + low := by
      rw [UInt8.toNat_ofNat']
      omega
    have even_ : rest.length % 2 = 0 := by
      simp only [List.length_cons] at even
      omega
    rw [List.flatMap_cons,ih even_ later,hexPair,value,
      show (high * 16 + low) / 16 = high by omega,show (high * 16 + low) % 16 = low by omega,highWritten,lowWritten]
    rfl
  | case2 digits short =>
    have single := shortDigits short
    rw [hexPairs] at read
    · cases read
      exact (List.eq_nil_of_length_eq_zero (by omega)).symm
    · exact short

theorem digestRead {value : Bytes} {digest : Digest} (ok : digestFromStr value = .ok digest) :
    value = displayDigest digest := by
  unfold digestFromStr at ok
  split at ok
  · rename_i start
    obtain ⟨rest,rfl⟩ := start
    simp only [List.drop_left] at ok
    split at ok
    · rename_i width
      split at ok
      · contradiction
      · rename_i bytes read
        cases ok
        rw [List.drop_left] at read
        rw [displayDigest,pathComponent]
        congr 1
        exact (pairsWritten (by rw [width]) read).symm
    · contradiction
  · contradiction

theorem digestParsed {value : Json} {path : String} {digest : Digest} (ok : parseDigest value path = .ok digest) :
    value = .string (displayDigest digest) := by
  obtain ⟨s,read,last⟩ := bindOk.mp ok
  have shape := stringExpected.mp read
  cases parsed : digestFromStr s with
  | error e =>
    rw [parsed] at last
    contradiction
  | ok d =>
    rw [parsed] at last
    cases last
    rw [shape,digestRead parsed]

theorem dtypeParsed {value : Json} {path : String} {dtype : DType} (ok : parseDtype value path = .ok dtype) :
    value = .string dtype.asStr := by
  obtain ⟨s,read,last⟩ := bindOk.mp ok
  have shape := stringExpected.mp read
  rw [shape]
  split at last
  · rename_i same
    cases last
    rw [same]
  split at last
  · rename_i same
    cases last
    rw [same]
  split at last
  · rename_i same
    cases last
    rw [same]
  split at last
  · rename_i same
    cases last
    rw [same]
  · contradiction

theorem adapterParsed {value : Json} {a : Adapter} (sorted : value.Sorted) (ok : parseAdapter value = .ok a) :
    value = adapterTree a := by
  obtain ⟨object,opened,ok⟩ := bindOk.mp ok
  obtain ⟨_,keys,ok⟩ := bindOk.mp ok
  obtain ⟨id,idFound,-,ok⟩ := fieldTaken ok (fun _ => stringExpected.mp)
  obtain ⟨_,-,ok⟩ := bindOk.mp ok
  obtain ⟨-,ok⟩ := guardOk.mp ok
  obtain ⟨version,versionFound,-,ok⟩ := fieldTaken ok (fun _ => positiveExpected)
  obtain ⟨-,ok⟩ := guardOk.mp ok
  cases ok
  exact objectDetermined sorted opened keys (by decide) rfl ⟨idFound,versionFound⟩

theorem tokenizerParsed {value : Json} {t : Tokenizer} (sorted : value.Sorted) (ok : parseTokenizer value = .ok t) :
    value = tokenizerTree t := by
  obtain ⟨object,opened,ok⟩ := bindOk.mp ok
  obtain ⟨_,keys,ok⟩ := bindOk.mp ok
  obtain ⟨id,idFound,-,ok⟩ := fieldTaken ok (fun _ => stringExpected.mp)
  obtain ⟨_,-,ok⟩ := bindOk.mp ok
  obtain ⟨version,versionFound,-,ok⟩ := fieldTaken ok (fun _ => positiveExpected)
  obtain ⟨vocabSize,vocabFound,-,ok⟩ := fieldTaken ok (fun _ => positiveExpected)
  cases ok
  exact objectDetermined sorted opened keys (by decide) rfl ⟨idFound,versionFound,vocabFound⟩

theorem dimensionFound {object : List (Bytes × Json)} {key : String} {n : Nat} (ok : dimension object key = .ok n) :
    lookup (text key) object = some (.integer n) := by
  obtain ⟨value,found,read⟩ := bindOk.mp ok
  rw [requiredFound found,positiveExpected read]

theorem modelParsed {value : Json} {m : TinyModel} (sorted : value.Sorted) (ok : parseModel value = .ok m) :
    value = modelTree m := by
  obtain ⟨object,opened,ok⟩ := bindOk.mp ok
  obtain ⟨_,keys,ok⟩ := bindOk.mp ok
  obtain ⟨contextLength,context,ok⟩ := bindOk.mp ok
  obtain ⟨expertHiddenSize,expertHidden,ok⟩ := bindOk.mp ok
  obtain ⟨hiddenSize,hidden,ok⟩ := bindOk.mp ok
  obtain ⟨numExperts,experts,ok⟩ := bindOk.mp ok
  obtain ⟨numHeads,heads,ok⟩ := bindOk.mp ok
  obtain ⟨numLayers,layers,ok⟩ := bindOk.mp ok
  obtain ⟨topK,top,ok⟩ := bindOk.mp ok
  obtain ⟨vocabSize,vocab,ok⟩ := bindOk.mp ok
  obtain ⟨-,ok⟩ := guardOk.mp ok
  obtain ⟨-,ok⟩ := guardOk.mp ok
  cases ok
  exact objectDetermined sorted opened keys (by decide) rfl ⟨dimensionFound context,dimensionFound expertHidden,
    dimensionFound hidden,dimensionFound experts,dimensionFound heads,dimensionFound layers,dimensionFound top,dimensionFound vocab⟩

structure RecordValid (record : ObjectRecord) : Prop where
  positive : 0 < record.length
  pages : minPageSize ≤ record.pageSize ∧ record.pageSize ≤ maxPageSize
  power : isPowerOfTwo record.pageSize = true
  table : expectedPageTableLength record.length record.pageSize = .ok record.pageTableLength

theorem okOrOk {E A : Type} {error : E} {x : Option A} {a : A} : okOr error x = .ok a ↔ x = some a := by
  cases x with
  | none => exact ⟨nofun,nofun⟩
  | some b => simp only [okOr,Except.ok.injEq,Option.some.injEq]

theorem positiveRead {value : Json} {path : String} {n : Nat} (ok : positiveInteger value path = .ok n) : 0 < n := by
  obtain ⟨_,-,ok⟩ := bindOk.mp ok
  obtain ⟨some_,ok⟩ := guardOk.mp ok
  cases ok
  exact Nat.pos_of_ne_zero some_

theorem objectParsed {limits : Limits} {scan next : ObjectScan} {row : Json × Nat} (ok : parseObject limits scan row = .ok next) :
    ∃ record bytes tableBytes, next = ⟨scan.records ++ [record],record.pageTable::scan.pageTables,bytes,tableBytes⟩ ∧
      RecordValid record ∧ ¬scan.records.getLast?.any (fun previous => record.digest ≤ previous.digest) ∧
      record.pageTable ∉ scan.pageTables ∧ (row.1.Sorted → row.1 = objectTree record) := by
  obtain ⟨object,opened,ok⟩ := bindOk.mp ok
  obtain ⟨_,keys,ok⟩ := bindOk.mp ok
  obtain ⟨digest,digestFound,-,ok⟩ := fieldTaken ok (fun _ => digestParsed)
  obtain ⟨above,ok⟩ := guardOk.mp ok
  obtain ⟨length,lengthFound,⟨_,lengthRead⟩,ok⟩ := fieldTaken ok (fun _ => positiveExpected)
  obtain ⟨-,ok⟩ := guardOk.mp ok
  obtain ⟨aggregate,-,ok⟩ := bindOk.mp ok
  obtain ⟨-,ok⟩ := guardOk.mp ok
  obtain ⟨pageSize,sizeFound,-,ok⟩ := fieldTaken ok (fun _ => positiveExpected)
  obtain ⟨-,ok⟩ := guardOk.mp ok
  obtain ⟨sized,ok⟩ := guardOk.mp ok
  obtain ⟨table,tableFound,-,ok⟩ := fieldTaken ok (fun _ => digestParsed)
  obtain ⟨new,ok⟩ := guardOk.mp ok
  obtain ⟨tableLength,tableLengthFound,-,ok⟩ := fieldTaken ok (fun _ => positiveExpected)
  obtain ⟨_,expected,ok⟩ := bindOk.mp ok
  obtain ⟨same,ok⟩ := guardOk.mp ok
  obtain ⟨-,ok⟩ := guardOk.mp ok
  obtain ⟨tables,-,ok⟩ := bindOk.mp ok
  obtain ⟨-,ok⟩ := guardOk.mp ok
  cases ok
  cases not_not.mp same
  obtain ⟨pages,power⟩ := not_or.mp sized
  refine ⟨⟨digest,length,pageSize,table,tableLength⟩,_,_,rfl,
    ⟨positiveRead lengthRead,not_not.mp pages,by simpa using power,expected⟩,above,new,fun sorted => ?_⟩
  exact objectDetermined sorted opened keys (by decide) rfl ⟨digestFound,lengthFound,sizeFound,tableFound,tableLengthFound⟩

theorem dimensionParsed {path : String} {scan next : List Nat × Nat} {row : Json × Nat}
    (ok : parseDimension path scan row = .ok next) : ∃ d, next.1 = scan.1 ++ [d] ∧ row.1 = .integer d := by
  obtain ⟨d,read,ok⟩ := bindOk.mp ok
  obtain ⟨-,ok⟩ := guardOk.mp ok
  obtain ⟨elements,-,ok⟩ := bindOk.mp ok
  obtain ⟨-,ok⟩ := guardOk.mp ok
  cases ok
  exact ⟨d,rfl,positiveExpected read⟩

theorem foldRecords {S R : Type} {step : S → Json × Nat → Except FormatError S} {records : S → List R} {tree : R → Json}
    {values : List Json} {first : Nat} {s out : S}
    (taken : ∀ s next row, row.1 ∈ values → step s row = .ok next →
      ∃ record, records next = records s ++ [record] ∧ row.1 = tree record)
    (ok : (values.zipIdx first).foldlM step s = .ok out) :
    ∃ new, records out = records s ++ new ∧ values = new.map tree := by
  induction values generalizing first s with
  | nil =>
    rw [List.zipIdx_nil] at ok
    rw [foldNil.mp ok]
    exact ⟨[],(List.append_nil _).symm,rfl⟩
  | cons v rest ih =>
    rw [List.zipIdx_cons] at ok
    obtain ⟨next,stepped,later⟩ := foldCons.mp ok
    obtain ⟨record,added,shape⟩ := taken s next _ List.mem_cons_self stepped
    obtain ⟨new,more,shapes⟩ := ih (fun s next row member => taken s next row (List.mem_cons_of_mem _ member)) later
    refine ⟨record::new,?_,?_⟩
    · rw [more,added,List.append_assoc]
      rfl
    · rw [List.map_cons,← shapes,← shape]

def TensorRecord.range (tensor : TensorRecord) : Nat × Nat := (tensor.offset,tensor.offset + tensor.length)

structure TensorValid (objects : List ObjectRecord) (index : Nat) (tensor : TensorRecord) : Prop where
  id : tensor.id = index
  positive : 0 < tensor.length
  fits : tensor.offset + tensor.length < modulus
  inside : ∃ record ∈ objects, record.digest = tensor.object ∧ tensor.offset + tensor.length ≤ record.length

theorem tensorParsed {objects : List ObjectRecord} {scan next : TensorScan} {row : Json × Nat}
    (ok : parseTensor objects scan row = .ok next) :
    ∃ tensor, next.tensors = scan.tensors ++ [tensor] ∧ next.ranges = scan.ranges ++ [(tensor.object,tensor.range)] ∧
      TensorValid objects row.2 tensor ∧ (row.1.Sorted → row.1 = tensorTree tensor) := by
  obtain ⟨object,opened,ok⟩ := bindOk.mp ok
  obtain ⟨_,keys,ok⟩ := bindOk.mp ok
  obtain ⟨id,idFound,-,ok⟩ := fieldTaken ok (fun _ => integerExpected.mp)
  obtain ⟨index,ok⟩ := guardOk.mp ok
  obtain ⟨dtype,dtypeFound,-,ok⟩ := fieldTaken ok (fun _ => dtypeParsed)
  obtain ⟨length,lengthFound,⟨_,lengthRead⟩,ok⟩ := fieldTaken ok (fun _ => positiveExpected)
  obtain ⟨digest,digestFound,-,ok⟩ := fieldTaken ok (fun _ => digestParsed)
  obtain ⟨objectLength,named,ok⟩ := bindOk.mp ok
  obtain ⟨offset,offsetFound,-,ok⟩ := fieldTaken ok (fun _ => integerExpected.mp)
  obtain ⟨-,ok⟩ := guardOk.mp ok
  obtain ⟨role,roleFound,-,ok⟩ := fieldTaken ok (fun _ => stringExpected.mp)
  obtain ⟨_,-,ok⟩ := bindOk.mp ok
  obtain ⟨-,ok⟩ := guardOk.mp ok
  obtain ⟨shapeValues,shapeFound,-,ok⟩ := fieldTaken ok (fun _ => arrayExpected.mp)
  obtain ⟨-,ok⟩ := guardOk.mp ok
  obtain ⟨⟨shape,elements⟩,dimensions,ok⟩ := bindOk.mp ok
  obtain ⟨expected,-,ok⟩ := bindOk.mp ok
  obtain ⟨-,ok⟩ := guardOk.mp ok
  obtain ⟨last,ends,ok⟩ := bindOk.mp ok
  obtain ⟨below,ok⟩ := guardOk.mp ok
  cases ok
  obtain ⟨fits,rfl⟩ := checkedAddSome.mp (okOrOk.mp ends)
  obtain ⟨record,found,rfl⟩ := Option.map_eq_some_iff.mp (okOrOk.mp named)
  have shapes : shapeValues = shape.map Json.integer := by
    obtain ⟨new,all,same⟩ := foldRecords (fun _ _ _ _ stepped => dimensionParsed stepped) dimensions
    rw [same]
    exact congrArg (List.map Json.integer) all.symm
  refine ⟨⟨dtype,id,length,digest,offset,role,shape⟩,rfl,rfl,⟨not_not.mp index,positiveRead lengthRead,fits,
    record,List.mem_of_find?_eq_some found,by simpa using List.find?_some found,Nat.not_lt.mp below⟩,fun sorted => ?_⟩
  rw [shapes] at shapeFound
  exact objectDetermined sorted opened keys (by decide) rfl
    ⟨dtypeFound,idFound,lengthFound,digestFound,offsetFound,roleFound,shapeFound⟩

theorem arraySorted {values : List Json} (sorted : (Json.array values).Sorted) : ∀ v ∈ values, v.Sorted := by
  cases sorted with
  | array each => exact each

theorem objectsParsed {value : Json} {limits : Limits} {objects : List ObjectRecord} (sorted : value.Sorted)
    (ok : parseObjects value limits = .ok objects) : value = .array (objects.map objectTree) := by
  obtain ⟨values,opened,counted⟩ := bindOk.mp ok
  have shape := arrayExpected.mp opened
  subst shape
  obtain ⟨-,counted⟩ := guardOk.mp counted
  obtain ⟨scan,scanned,last⟩ := bindOk.mp counted
  cases last
  obtain ⟨new,all,same⟩ := foldRecords (fun s next row member stepped => by
    obtain ⟨record,_,_,same,-,-,-,shape⟩ := objectParsed stepped
    have added : next.records = s.records ++ [record] := congrArg ObjectScan.records same
    exact ⟨record,added,shape (arraySorted sorted row.1 member)⟩) scanned
  rw [same,all]
  rfl

theorem tensorsParsed {value : Json} {objects : List ObjectRecord} {limits : Limits} {tensors : List TensorRecord}
    (sorted : value.Sorted) (ok : parseTensors value objects limits = .ok tensors) :
    value = .array (tensors.map tensorTree) := by
  obtain ⟨values,opened,counted⟩ := bindOk.mp ok
  have shape := arrayExpected.mp opened
  subst shape
  obtain ⟨-,counted⟩ := guardOk.mp counted
  obtain ⟨scan,scanned,covered⟩ := bindOk.mp counted
  obtain ⟨_,-,last⟩ := bindOk.mp covered
  cases last
  obtain ⟨new,all,same⟩ := foldRecords
    (fun _ _ row member stepped => by
      obtain ⟨tensor,added,-,-,shape⟩ := tensorParsed stepped
      exact ⟨tensor,added,shape (arraySorted sorted row.1 member)⟩) scanned
  rw [same,all]
  rfl

theorem schemaDetermined {document : Json} {limits : Limits} {m : Manifest} (sorted : document.Sorted)
    (ok : validateSchema document limits = .ok m) : document = manifestTree m := by
  obtain ⟨root,opened,ok⟩ := bindOk.mp ok
  obtain ⟨_,keys,ok⟩ := bindOk.mp ok
  have whole := sorted
  rw [objectExpected.mp opened] at whole
  obtain ⟨_,formatFound,-,ok⟩ := fieldTaken ok (fun _ => literalString)
  obtain ⟨_,versionFound,-,ok⟩ := fieldTaken ok (fun _ => literalInteger)
  obtain ⟨adapter,adapterFound,-,ok⟩ := fieldTaken ok (fun found => adapterParsed (lookupSorted whole found))
  obtain ⟨model,modelFound,-,ok⟩ := fieldTaken ok (fun found => modelParsed (lookupSorted whole found))
  obtain ⟨tokenizer,tokenizerFound,-,ok⟩ := fieldTaken ok (fun found => tokenizerParsed (lookupSorted whole found))
  obtain ⟨-,ok⟩ := guardOk.mp ok
  obtain ⟨objects,objectsFound,-,ok⟩ := fieldTaken ok (fun found => objectsParsed (lookupSorted whole found))
  obtain ⟨tensors,tensorsFound,-,ok⟩ := fieldTaken ok (fun found => tensorsParsed (lookupSorted whole found))
  cases ok
  exact objectDetermined sorted opened keys (by decide) rfl
    ⟨adapterFound,formatFound,modelFound,objectsFound,tensorsFound,tokenizerFound,versionFound⟩

theorem parsedBytes {sha256 : Bytes → Digest} {bytes : Bytes} {limits : Limits} {m : Manifest}
    (ok : parseWithLimits sha256 bytes limits = .ok m) :
    bytes = canonicalTree (manifestTree m) ∧ m.artifactId = sha256 bytes := by
  obtain ⟨limits,-,ok⟩ := bindOk.mp ok
  obtain ⟨-,ok⟩ := guardOk.mp ok
  obtain ⟨document,-,ok⟩ := bindOk.mp ok
  obtain ⟨checked,valid,ok⟩ := bindOk.mp ok
  obtain ⟨canonical,ok⟩ := guardOk.mp ok
  cases ok
  refine ⟨?_,rfl⟩
  have same := schemaDetermined document.sorted valid
  rw [← not_not.mp canonical,Format.canonicalBytes,same]
  rfl

theorem canonicalUnique (sha256 : Bytes → Digest) :
    (∀ v : JsonValue, Fits maxNestingDepth v.tree → parse (canonicalBytes v) = .ok v) ∧
      (∀ v w : JsonValue, Fits maxNestingDepth v.tree → Fits maxNestingDepth w.tree →
        canonicalBytes v = canonicalBytes w → v = w) ∧
      ∀ bytes bytes' limits limits' m m', parseWithLimits sha256 bytes limits = .ok m →
        parseWithLimits sha256 bytes' limits' = .ok m' → m.adapter = m'.adapter → m.model = m'.model →
        m.objects = m'.objects → m.tensors = m'.tensors → m.tokenizer = m'.tokenizer →
        bytes = bytes' ∧ m.artifactId = m'.artifactId := by
  refine ⟨fun v fits => parseCanonical fits,fun v w fits fits' same => ?_,?_⟩
  · have read := parseCanonical fits
    rw [same,parseCanonical fits'] at read
    exact (Except.ok.inj read).symm
  · intro bytes bytes' limits limits' m m' ok ok' adapter model objects tensors tokenizer
    obtain ⟨written,identity⟩ := parsedBytes ok
    obtain ⟨written',identity'⟩ := parsedBytes ok'
    have trees : manifestTree m = manifestTree m' := by
      simp only [manifestTree,adapter,model,objects,tensors,tokenizer]
    have same : bytes = bytes' := by rw [written,written',trees]
    refine ⟨same,?_⟩
    rw [identity,identity',same]

/- SHA-256 on the byte strings of the examples, which have lengths of their own. The object of eight bytes is the numbers
from one on, and so are the shorter ones but for the last page: the four bytes after the boundary of the paged object. -/

def pagedDigest : Digest :=
  ⟨[39,193,173,41,133,123,20,124,196,22,7,61,156,41,95,220,107,32,161,55,173,214,90,81,222,95,90,168,208,160,23,91],by decide⟩
def firstDigest : Digest :=
  ⟨[251,205,203,41,158,21,14,168,206,240,112,24,130,137,231,228,166,6,25,132,13,246,185,41,58,199,130,40,183,213,157,28],by decide⟩
def lastDigest : Digest :=
  ⟨[85,229,80,159,128,82,153,130,148,38,110,229,181,12,181,146,147,129,145,251,93,103,247,60,172,46,96,176,39,107,27,221],by decide⟩
def pagedTableDigest : Digest :=
  ⟨[81,76,117,36,106,26,208,6,143,49,197,204,222,106,10,179,222,250,132,118,73,14,178,167,198,31,39,24,230,90,95,23],by decide⟩
def pagedManifestDigest : Digest :=
  ⟨[208,157,123,52,161,40,2,64,32,225,111,106,233,154,67,197,10,115,57,149,139,18,43,35,217,47,227,76,100,69,109,197],by decide⟩
def eightDigest : Digest :=
  ⟨[102,132,13,218,21,78,138,17,60,49,221,10,211,47,127,58,54,106,128,232,19,105,121,216,245,161,1,211,210,157,111,114],by decide⟩
def tinyTableDigest : Digest :=
  ⟨[120,253,78,197,117,184,196,66,229,56,166,201,215,242,77,66,42,236,148,117,46,147,177,52,142,30,216,0,81,89,26,132],by decide⟩
def tinyManifestDigest : Digest :=
  ⟨[220,56,180,103,148,37,146,220,250,176,33,117,101,143,25,3,228,118,138,104,202,229,212,55,144,45,86,131,58,245,42,44],by decide⟩
def fiveDigest : Digest :=
  ⟨[116,248,31,225,103,217,155,76,180,29,109,12,205,168,34,120,202,238,159,62,47,37,213,229,163,147,111,243,220,236,96,208],by decide⟩
def threeDigest : Digest :=
  ⟨[3,144,88,198,242,192,203,73,44,83,59,10,77,20,239,119,204,15,120,171,204,206,213,40,125,132,161,162,1,28,251,129],by decide⟩

def knownDigests : List (Nat × Digest) :=
  [(65540,pagedDigest),(65536,firstDigest),(4,lastDigest),(128,pagedTableDigest),
    (864,pagedManifestDigest),(8,eightDigest),(96,tinyTableDigest),(685,tinyManifestDigest),
    (5,fiveDigest),(3,threeDigest)]

def knownSha (bytes : Bytes) : Digest := (knownDigests.lookup bytes.length).getD zeroDigest

theorem knownLength {bytes : Bytes} {length : Nat} (same : bytes.length = length) :
    knownSha bytes = (knownDigests.lookup length).getD zeroDigest := by rw [knownSha,same]

def tinyManifest : Manifest where
  adapter := ⟨text "runnel.tiny-causal-moe",1⟩
  model := ⟨4,8,8,2,2,1,1,16⟩
  objects := [⟨eightDigest,8,65536,tinyTableDigest,96⟩]
  tensors := [⟨.f32Le,0,8,eightDigest,0,text "lm_head",[2]⟩]
  tokenizer := ⟨text "byte",1,16⟩
  artifactId := tinyManifestDigest
  canonicalBytes := []

def nested : JsonValue :=
  ⟨.object [(text "a\n",.array [.bool true,.integer maxSafeInteger])],by
    refine .object (List.pairwise_singleton _ _) (fun e member => ?_)
    rw [List.mem_singleton.mp member]
    refine .array (fun v inside => ?_)
    simp only [List.mem_cons,List.not_mem_nil,or_false] at inside
    rcases inside with rfl | rfl
    · exact .bool true
    · exact .integer _⟩

theorem nestedFits : Fits maxNestingDepth nested.tree := by
  refine ⟨by decide,fun e member => ?_⟩
  rw [List.mem_singleton.mp member]
  refine ⟨⟨by decide,by decide⟩,by decide,fun v inside => ?_⟩
  simp only [List.mem_cons,List.not_mem_nil,or_false] at inside
  rcases inside with rfl | rfl
  · exact trivial
  · exact Nat.le_refl _

theorem tinyAccepted :
    (parseWithLimits knownSha (canonicalTree (manifestTree tinyManifest)) Limits.default).toOption.isSome := by
  decide +kernel

theorem tinyUnique :
    parse (canonicalBytes nested) = .ok nested ∧
      ∀ bytes limits m, parseWithLimits knownSha bytes limits = .ok m →
        (value _ tinyAccepted).adapter = m.adapter → (value _ tinyAccepted).model = m.model →
        (value _ tinyAccepted).objects = m.objects → (value _ tinyAccepted).tensors = m.tensors →
        (value _ tinyAccepted).tokenizer = m.tokenizer → canonicalTree (manifestTree tinyManifest) = bytes := by
  obtain ⟨read,-,unique⟩ := canonicalUnique knownSha
  refine ⟨read nested nestedFits,?_⟩
  intro bytes limits m ok adapter model objects tensors tokenizer
  exact (unique _ bytes _ limits _ m (valueOk tinyAccepted) ok adapter model objects tensors tokenizer).1

end RunnelMoe.Format
