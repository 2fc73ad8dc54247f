import RunnelMoe.ManifestModel
import RunnelMoe.SimTrace

/-! Trace files. A file is one record a line, header, catalog and events, and every line
must be the text that the serializer writes for the record it holds. The JSON library is
a parameter: only that writing and reading a record are functions is used. -/
namespace RunnelMoe.Sim
open Words KeyedSum Results Readers StoreErrors
open Format (hexPair text)
open Std (ExtTreeMap)

inductive TraceError (J : Type) where
  | json (error : J)
  | sim (error : SimError)
  deriving DecidableEq, Repr

structure RecordJson (J A : Type) where
  toVec : A → Except J Bytes
  fromSlice : Bytes → Except J A

structure TraceJson (J : Type) where
  header : RecordJson J TraceHeader
  page : RecordJson J PageDescriptor
  event : RecordJson J TraceEvent

structure ParsedTrace where
  header : TraceHeader
  pages : List PageDescriptor
  pageIndex : ExtTreeMap PageId Nat
  expertPages : ExtTreeMap ExpertKey (List PageId)
  events : List TraceEvent
  sha256 : Bytes

section Files
variable {J A : Type}

abbrev Parsing (J A : Type) := Except (TraceError J) A

def invalidTrace (problem : String) : TraceError J := .sim (.invalidTrace problem)

def validateFraming (bytes : Bytes) (limits : SimLimits) : Parsing J Unit :=
  let length := bytes.length
  let limit := limits.maxTraceBytes
  if length > limit then .error (invalidTrace s!"trace is {length} bytes, limit is {limit}")
  else if bytes.getLast? ≠ some 10 then .error (invalidTrace "canonical trace must end with LF")
  else if 13 ∈ bytes then .error (invalidTrace "canonical trace must not contain CR bytes")
  else if ¬ascii bytes then .error (invalidTrace "canonical trace must contain ASCII bytes only")
  else .ok ()

def parseCanonicalRecord (json : RecordJson J A) (line : Bytes) (lineNumber : Nat) (limits : SimLimits) : Parsing J A :=
  let length := line.length
  let limit := limits.maxLineBytes
  if line = [] then .error (invalidTrace s!"line {lineNumber} is empty")
  else if length > limit then .error (invalidTrace s!"line {lineNumber} is {length} bytes, limit is {limit}")
  else do
    let value ← (json.fromSlice line).mapError .json
    let canonical ← (json.toVec value).mapError .json
    if canonical ≠ line then .error (invalidTrace s!"line {lineNumber} is not canonical compact JSON")
    else .ok value

structure LineScan (A : Type) where
  lines : List Bytes
  lineNumber : Nat
  values : List A

def nextRecord (json : RecordJson J A) (limits : SimLimits) (ended : Nat → String) (scan : LineScan A) (index : Nat) :
    Parsing J (LineScan A) :=
  match checkedAdd scan.lineNumber 1 with
  | none => .error (invalidTrace "trace line number overflow")
  | some lineNumber =>
    match scan.lines with
    | [] => .error (invalidTrace (ended index))
    | line::lines => do
      let value ← parseCanonicalRecord json line lineNumber limits
      .ok ⟨lines,lineNumber,scan.values ++ [value]⟩

def catalogEnded (index : Nat) : String := s!"catalog ended before declared page {index}"
def streamEnded (index : Nat) : String := s!"event stream ended before declared event {index}"

variable (json : TraceJson J) (sha256 : Bytes → Digest)

def parseTrace (bytes : Bytes) (limits : SimLimits) : Parsing J ParsedTrace := do
  validateFraming bytes limits
  match bytes.dropLast.splitOn 10 with
  | [] => .error (invalidTrace "trace is missing its header record")
  | headerLine::lines => do
    let header ← parseCanonicalRecord json.header headerLine 1 limits
    (validateHeader header limits).mapError .sim
    let catalog ← (List.range header.pageCount).foldlM (nextRecord json.page limits catalogEnded) ⟨lines,1,[]⟩
    let stream ← (List.range header.eventCount).foldlM (nextRecord json.event limits streamEnded)
      ⟨catalog.lines,catalog.lineNumber,[]⟩
    if stream.lines ≠ [] then
      .error (invalidTrace "trace contains records beyond its declared catalog and event counts")
    else do
      let (pageIndex,expertPages) ← (validatePages header catalog.values).mapError .sim
      (validateEvents stream.values pageIndex expertPages limits).mapError .sim
      .ok ⟨header,catalog.values,pageIndex,expertPages,stream.values,(sha256 bytes).bytes.flatMap hexPair⟩

def checkSignal (limits : SimLimits) (_ : Unit) (event : TraceEvent) : Parsing J Unit :=
  match event with
  | .demand _ _ _ _ => .ok ()
  | .routerSignal _ _ _ _ predictions =>
    let count := predictions.length
    let limit := limits.maxPredictionsPerSignal
    if count > limit then .error (invalidTrace s!"router signal contains {count} predictions, limit is {limit}")
    else .ok ()

def appendRecord (json : RecordJson J A) (limits : SimLimits) (output : Bytes) (value : A) : Parsing J Bytes := do
  let line ← (json.toVec value).mapError .json
  let length := line.length
  let lineLimit := limits.maxLineBytes
  let limit := limits.maxTraceBytes
  if length > lineLimit then
    .error (invalidTrace s!"serialized record is {length} bytes, line limit is {lineLimit}")
  else match (checkedAdd output.length length).bind (checkedAdd · 1) with
    | none => .error (invalidTrace "serialized trace length overflow")
    | some newLength =>
      if newLength > limit then .error (invalidTrace s!"serialized trace exceeds {limit} byte limit")
      else .ok (output ++ line ++ [10])

def serializeTrace (header : TraceHeader) (pages : List PageDescriptor) (events : List TraceEvent) (limits : SimLimits) :
    Parsing J Bytes := do
  let declaredPages := header.pageCount
  let declaredEvents := header.eventCount
  let receivedPages := pages.length
  let receivedEvents := events.length
  (validateHeader header limits).mapError .sim
  if declaredPages ≠ receivedPages then
    .error (invalidTrace s!"header declares {declaredPages} pages but serializer received {receivedPages}")
  else if declaredEvents ≠ receivedEvents then
    .error (invalidTrace s!"header declares {declaredEvents} events but serializer received {receivedEvents}")
  else do
    events.foldlM (checkSignal limits) ()
    let output ← appendRecord json.header limits [] header
    let output ← pages.foldlM (appendRecord json.page limits) output
    let output ← events.foldlM (appendRecord json.event limits) output
    let parsed ← parseTrace json sha256 output limits
    if parsed.header ≠ header ∨ parsed.pages ≠ pages ∨ parsed.events ≠ events then
      .error (invalidTrace "canonical serialization failed its typed round trip")
    else .ok output

end Files

section Records
variable {J A : Type} {json : RecordJson J A} {limits : SimLimits}

structure Recorded (json : RecordJson J A) (limits : SimLimits) (line : Bytes) (value : A) : Prop where
  short : line.length ≤ limits.maxLineBytes
  reads : json.fromSlice line = .ok value
  writes : json.toVec value = .ok line

theorem recordParsed {line : Bytes} {lineNumber : Nat} {value : A}
    (ok : parseCanonicalRecord json line lineNumber limits = .ok value) : Recorded json limits line value := by
  obtain ⟨-,ok⟩ := guardOk.mp ok
  obtain ⟨short,ok⟩ := guardOk.mp ok
  obtain ⟨read,reads,ok⟩ := bindOk.mp ok
  obtain ⟨written,writes,ok⟩ := bindOk.mp ok
  obtain ⟨same,last⟩ := guardOk.mp ok
  cases last
  cases not_not.mp same
  exact ⟨Nat.not_lt.mp short,mapErrorOk.mp reads,mapErrorOk.mp writes⟩

theorem recordsParsed {ended : Nat → String} {indexes : List Nat} {scan done : LineScan A}
    (ok : indexes.foldlM (nextRecord json limits ended) scan = .ok done) :
    ∃ lines values, scan.lines = lines ++ done.lines ∧ done.values = scan.values ++ values ∧
      values.length = indexes.length ∧ List.Forall₂ (Recorded json limits) lines values := by
  induction indexes generalizing scan with
  | nil =>
    cases foldNil.mp ok
    exact ⟨[],[],rfl,(List.append_nil _).symm,rfl,.nil⟩
  | cons index rest ih =>
    obtain ⟨next,one,later⟩ := foldCons.mp ok
    unfold nextRecord at one
    split at one
    · contradiction
    rename_i lineNumber counted
    split at one
    · contradiction
    rename_i line left split_
    obtain ⟨value,parsed,last⟩ := bindOk.mp one
    cases last
    obtain ⟨lines,values,taken,added,length,records⟩ := ih later
    have taken : left = lines ++ done.lines := taken
    refine ⟨line::lines,value::values,?_,?_,congrArg (· + 1) length,.cons (recordParsed parsed) records⟩
    · rw [split_,taken]
      rfl
    · rw [added,List.append_assoc]
      rfl

variable {lines : List Bytes} {values : List A}

theorem recordsWritten (records : List.Forall₂ (Recorded json limits) lines values)
    (word : limits.maxTraceBytes < modulus) {output : Bytes}
    (room : (output ++ unlines lines).length ≤ limits.maxTraceBytes) :
    values.foldlM (appendRecord json limits) output = .ok (output ++ unlines lines) := by
  induction records generalizing output with
  | nil => exact foldNil.mpr (List.append_nil _)
  | @cons line value lines values record _ ih =>
    have split_ : output ++ unlines (line::lines) = output ++ line ++ [10] ++ unlines lines := by
      simp only [unlines,List.flatMap_cons,List.append_assoc]
    rw [split_] at room ⊢
    refine foldCons.mpr ⟨output ++ line ++ [10],?_,ih room⟩
    have bound : output.length + line.length + 1 ≤ limits.maxTraceBytes := by
      simp only [List.length_append,List.length_cons,List.length_nil] at room
      omega
    have counted : (checkedAdd output.length line.length).bind (checkedAdd · 1) = some (output.length + line.length + 1) := by
      rw [checkedAddSome.mpr ⟨by omega,rfl⟩]
      exact checkedAddSome.mpr ⟨by omega,rfl⟩
    refine bindOk.mpr ⟨line,mapErrorOk.mpr record.writes,guardOk.mpr ⟨Nat.not_lt.mpr record.short,?_⟩⟩
    rw [counted]
    exact guardOk.mpr ⟨Nat.not_lt.mpr bound,rfl⟩

theorem linesDetermined {limits' : SimLimits} {lines' : List Bytes}
    (records : List.Forall₂ (Recorded json limits) lines values)
    (records' : List.Forall₂ (Recorded json limits') lines' values) : lines = lines' := by
  induction records generalizing lines' with
  | nil =>
    cases records'
    rfl
  | cons record _ ih =>
    cases records' with
    | cons record' more =>
      rw [ih more,Except.ok.inj (record.writes.symm.trans record'.writes)]

theorem valuesDetermined {limits' : SimLimits} {values' : List A}
    (records : List.Forall₂ (Recorded json limits) lines values)
    (records' : List.Forall₂ (Recorded json limits') lines values') : values = values' := by
  induction records generalizing values' with
  | nil =>
    cases records'
    rfl
  | cons record _ ih =>
    cases records' with
    | cons record' more =>
      rw [ih more,Except.ok.inj (record.reads.symm.trans record'.reads)]

end Records

section Canonical
variable {J : Type} {json : TraceJson J} {sha256 : Bytes → Digest} {limits limits' : SimLimits} {bytes bytes' : Bytes}
  {t t' : ParsedTrace}

structure Holds (json : TraceJson J) (sha256 : Bytes → Digest) (limits : SimLimits) (bytes : Bytes) (t : ParsedTrace)
    (line : Bytes) (pageLines eventLines : List Bytes) : Prop where
  lines : bytes.dropLast.splitOn 10 = line::(pageLines ++ eventLines)
  ended : bytes.dropLast ++ [10] = bytes
  small : bytes.length ≤ limits.maxTraceBytes
  header : Recorded json.header limits line t.header
  pages : List.Forall₂ (Recorded json.page limits) pageLines t.pages
  events : List.Forall₂ (Recorded json.event limits) eventLines t.events
  headerValid : validateHeader t.header limits = .ok ()
  pageCount : t.header.pageCount = t.pages.length
  eventCount : t.header.eventCount = t.events.length
  pagesValid : validatePages t.header t.pages = .ok (t.pageIndex,t.expertPages)
  eventsValid : validateEvents t.events t.pageIndex t.expertPages limits = .ok ()
  hash : t.sha256 = (sha256 bytes).bytes.flatMap hexPair

theorem parsedHolds (ok : parseTrace json sha256 bytes limits = .ok t) :
    ∃ line pageLines eventLines, Holds json sha256 limits bytes t line pageLines eventLines := by
  obtain ⟨_,framed,ok⟩ := bindOk.mp ok
  obtain ⟨small,framed⟩ := guardOk.mp framed
  obtain ⟨ended,-⟩ := guardOk.mp framed
  split at ok
  · contradiction
  rename_i line lines split_
  obtain ⟨header,first,ok⟩ := bindOk.mp ok
  obtain ⟨_,headerValid,ok⟩ := bindOk.mp ok
  obtain ⟨catalog,pages,ok⟩ := bindOk.mp ok
  obtain ⟨stream,events,ok⟩ := bindOk.mp ok
  obtain ⟨exhausted,ok⟩ := guardOk.mp ok
  obtain ⟨indexes,pagesValid,ok⟩ := bindOk.mp ok
  obtain ⟨_,eventsValid,last⟩ := bindOk.mp ok
  cases last
  obtain ⟨pageLines,pageValues,took,added,pageCount,pageRecords⟩ := recordsParsed pages
  obtain ⟨eventLines,eventValues,took',added',eventCount,eventRecords⟩ := recordsParsed events
  rw [List.nil_append] at added added'
  rw [← added] at pageCount pageRecords
  rw [← added'] at eventCount eventRecords
  have took : lines = pageLines ++ catalog.lines := took
  have took' : catalog.lines = eventLines ++ stream.lines := took'
  rw [not_not.mp exhausted,List.append_nil] at took'
  rw [took,took'] at split_
  exact ⟨line,pageLines,eventLines,split_,List.dropLast_append_getLast? 10 (not_not.mp ended),Nat.not_lt.mp small,
    recordParsed first,pageRecords,eventRecords,mapErrorOk.mp headerValid,by rw [pageCount,List.length_range],
    by rw [eventCount,List.length_range],mapErrorOk.mp pagesValid,mapErrorOk.mp eventsValid,rfl⟩

theorem parsedValidated (ok : parseTrace json sha256 bytes limits = .ok t) :
    ∃ trace : ValidatedTrace, trace.header = t.header ∧ trace.catalog = ⟨t.pages,t.pageIndex,t.expertPages⟩ ∧
      trace.events = t.events ∧ trace.limits = limits := by
  obtain ⟨_,_,_,holds⟩ := parsedHolds ok
  exact ⟨⟨t.header,t.pages,t.pageIndex,t.expertPages,t.events,limits,holds.headerValid,holds.pageCount,holds.eventCount,
    holds.pagesValid,holds.eventsValid⟩,rfl,rfl,rfl,rfl⟩

theorem holdsUnlines {line : Bytes} {pageLines eventLines : List Bytes}
    (holds : Holds json sha256 limits bytes t line pageLines eventLines) :
    bytes = line ++ [10] ++ unlines pageLines ++ unlines eventLines := by
  rw [← holds.ended,← unlinesSplit,holds.lines]
  simp only [unlines,List.flatMap_cons,List.flatMap_append,List.append_assoc]

theorem signalsBounded {events : List TraceEvent} {pageIndex : ExtTreeMap PageId Nat}
    {expertPages : ExtTreeMap ExpertKey (List PageId)} (ok : validateEvents events pageIndex expertPages limits = .ok ()) :
    events.foldlM (checkSignal limits) () = (.ok () : Parsing J Unit) := by
  refine (checksAll (fun _ _ => Iff.rfl)).mpr (fun event member => ?_)
  obtain ⟨scan,scanned,-⟩ := bindOk.mp ok
  obtain ⟨i,found⟩ := List.mem_iff_getElem?.mp member
  obtain ⟨before,after,one⟩ := foldEach scanned (List.mk_mem_zipIdx_iff_getElem?.mpr found)
  cases event with
  | demand => rfl
  | routerSignal sequence request target layer predictions =>
    obtain ⟨-,one⟩ := guardOk.mp one
    obtain ⟨-,one⟩ := guardOk.mp one
    obtain ⟨-,one⟩ := guardOk.mp one
    split at one
    · contradiction
    rename_i checked
    exact guardOk.mpr ⟨(guardOk.mp checked).1,rfl⟩

theorem parsedSerialized (word : limits.maxTraceBytes < modulus) (ok : parseTrace json sha256 bytes limits = .ok t) :
    serializeTrace json sha256 t.header t.pages t.events limits = .ok bytes := by
  obtain ⟨line,pageLines,eventLines,holds⟩ := parsedHolds ok
  have whole := holdsUnlines holds
  have small := holds.small
  rw [whole] at small
  have first : appendRecord json.header limits [] t.header = .ok (line ++ [10]) := by
    have room : ([] ++ unlines [line]).length ≤ limits.maxTraceBytes := by
      simp only [unlines,List.flatMap_cons,List.flatMap_nil,List.append_nil,List.nil_append,List.length_append] at small ⊢
      omega
    have written := recordsWritten (.cons holds.header .nil) word room
    obtain ⟨_,appended,done⟩ := foldCons.mp written
    cases foldNil.mp done
    simpa only [unlines,List.flatMap_cons,List.flatMap_nil,List.append_nil,List.nil_append] using appended
  have second : t.pages.foldlM (appendRecord json.page limits) (line ++ [10]) = _ :=
    recordsWritten holds.pages word (by
      simp only [List.length_append] at small ⊢
      omega)
  have third := recordsWritten holds.events word small
  rw [← whole] at third
  refine bindOk.mpr ⟨(),mapErrorOk.mpr holds.headerValid,?_⟩
  refine guardOk.mpr ⟨not_not.mpr holds.pageCount,guardOk.mpr ⟨not_not.mpr holds.eventCount,?_⟩⟩
  refine bindOk.mpr ⟨(),signalsBounded holds.eventsValid,bindOk.mpr ⟨_,first,bindOk.mpr ⟨_,second,?_⟩⟩⟩
  exact bindOk.mpr ⟨bytes,third,bindOk.mpr ⟨t,ok,guardOk.mpr ⟨by simp,rfl⟩⟩⟩

theorem serializedParsed {header : TraceHeader} {pages : List PageDescriptor} {events : List TraceEvent}
    (ok : serializeTrace json sha256 header pages events limits = .ok bytes) :
    ∃ t, parseTrace json sha256 bytes limits = .ok t ∧ t.header = header ∧ t.pages = pages ∧ t.events = events := by
  obtain ⟨_,-,ok⟩ := bindOk.mp ok
  obtain ⟨-,ok⟩ := guardOk.mp ok
  obtain ⟨-,ok⟩ := guardOk.mp ok
  obtain ⟨_,-,ok⟩ := bindOk.mp ok
  obtain ⟨_,-,ok⟩ := bindOk.mp ok
  obtain ⟨_,-,ok⟩ := bindOk.mp ok
  obtain ⟨output,-,ok⟩ := bindOk.mp ok
  obtain ⟨t,parsed,ok⟩ := bindOk.mp ok
  obtain ⟨same,last⟩ := guardOk.mp ok
  cases last
  simp only [not_or,not_not] at same
  exact ⟨t,parsed,same⟩

def ParsedTrace.SameContents (t t' : ParsedTrace) : Prop :=
  t.header = t'.header ∧ t.pages = t'.pages ∧ t.events = t'.events

/- The limits decide whether a file is accepted, not what it holds. -/
theorem contentsDetermined (ok : parseTrace json sha256 bytes limits = .ok t)
    (ok' : parseTrace json sha256 bytes' limits' = .ok t') : t.SameContents t' ↔ bytes = bytes' := by
  obtain ⟨line,pageLines,eventLines,holds⟩ := parsedHolds ok
  obtain ⟨line',pageLines',eventLines',holds'⟩ := parsedHolds ok'
  constructor
  · rintro ⟨headers,pages,events⟩
    have first := holds.header.writes
    have second := holds.pages
    have third := holds.events
    rw [headers,holds'.header.writes] at first
    rw [pages] at second
    rw [events] at third
    rw [holdsUnlines holds,holdsUnlines holds',Except.ok.inj first,linesDetermined second holds'.pages,
      linesDetermined third holds'.events]
  · rintro rfl
    obtain ⟨first,others⟩ := List.cons.inj (holds.lines.symm.trans holds'.lines)
    subst first
    have headers : t.header = t'.header := Except.ok.inj (holds.header.reads.symm.trans holds'.header.reads)
    have counted : pageLines.length = pageLines'.length := by
      rw [holds.pages.length_eq,holds'.pages.length_eq,← holds.pageCount,← holds'.pageCount,headers]
    obtain ⟨pages,events⟩ := List.append_inj others counted
    subst pages events
    exact ⟨headers,valuesDetermined holds.pages holds'.pages,valuesDetermined holds.events holds'.events⟩

theorem hashDetermined (ok : parseTrace json sha256 bytes limits = .ok t)
    (ok' : parseTrace json sha256 bytes' limits' = .ok t') : t.sha256 = t'.sha256 ↔ sha256 bytes = sha256 bytes' := by
  obtain ⟨_,_,_,holds⟩ := parsedHolds ok
  obtain ⟨_,_,_,holds'⟩ := parsedHolds ok'
  rw [holds.hash,holds'.hash]
  constructor
  · intro same
    have read := congrArg Format.hexPairs same
    rw [Format.pairsRead,Format.pairsRead] at read
    generalize sha256 bytes = digest at read ⊢
    generalize sha256 bytes' = digest' at read ⊢
    obtain ⟨_,_⟩ := digest
    obtain ⟨_,_⟩ := digest'
    cases Option.some.inj read
    rfl
  · intro same
    rw [same]

end Canonical

theorem parsingCanonical {J : Type} (json : TraceJson J) (sha256 : Bytes → Digest) {limits : SimLimits}
    (word : limits.maxTraceBytes < modulus) :
    (∀ bytes t, parseTrace json sha256 bytes limits = .ok t →
      serializeTrace json sha256 t.header t.pages t.events limits = .ok bytes) ∧
    (∀ header pages events bytes, serializeTrace json sha256 header pages events limits = .ok bytes →
      ∃ t, parseTrace json sha256 bytes limits = .ok t ∧ t.header = header ∧ t.pages = pages ∧ t.events = events) ∧
    ∀ limits' bytes bytes' t t', parseTrace json sha256 bytes limits = .ok t →
      parseTrace json sha256 bytes' limits' = .ok t' →
      (t.SameContents t' → bytes = bytes' ∧ t.sha256 = t'.sha256) ∧
      ((sha256 bytes = sha256 bytes' → bytes = bytes') → t.sha256 = t'.sha256 → t.SameContents t') := by
  refine ⟨fun _ _ => parsedSerialized word,fun _ _ _ _ => serializedParsed,?_⟩
  intro limits' bytes bytes' t t' ok ok'
  constructor
  · intro same
    have equal := (contentsDetermined ok ok').mp same
    exact ⟨equal,(hashDetermined ok ok').mpr (congrArg sha256 equal)⟩
  · intro unique same
    exact (contentsDetermined ok ok').mpr (unique ((hashDetermined ok ok').mp same))

def tabled {A : Type} [DecidableEq A] (value : A) (line : Bytes) : RecordJson Unit A :=
  ⟨fun v => if v = value then .ok line else .error (),fun l => if l = line then .ok value else .error ()⟩

def tinyHeader : TraceHeader := ⟨headerKind,traceSchema,"tiny",1,1,64,prefetchModel⟩

def tinyHeaderLine : Bytes :=
  text "\x7b\"kind\":\"header\",\"schema\":\"runnel.cache-trace/1\",\"trace_id\":\"tiny\",\"page_count\":1,\"event_count\":1,\"charge_quantum\":64,\"prefetch_model\":\"instant-between-events-v1\"\x7d"

def tinyPageLine : Bytes :=
  text "\x7b\"id\":0,\"logical_bytes\":10,\"charge_bytes\":64,\"class\":\x7b\"kind\":\"shared\"\x7d\x7d"

def tinyEventLine : Bytes := text "\x7b\"kind\":\"demand\",\"sequence\":0,\"request\":1,\"step\":0,\"page\":0\x7d"

def tinyJson : TraceJson Unit :=
  ⟨tabled tinyHeader tinyHeaderLine,tabled ⟨0,10,64,.shared⟩ tinyPageLine,tabled (.demand 0 1 0 0) tinyEventLine⟩

def firstBytes (bytes : Bytes) : Digest := ⟨(bytes ++ List.replicate 32 0).take 32,by simp⟩

theorem tinyParses : ∃ t, parseTrace tinyJson firstBytes (unlines [tinyHeaderLine,tinyPageLine,tinyEventLine])
    defaultLimits = .ok t ∧ t.header = tinyHeader ∧ t.pages = [⟨0,10,64,.shared⟩] ∧ t.events = [.demand 0 1 0 0] :=
  okAny (by decide +kernel)

theorem tinyCanonical : serializeTrace tinyJson firstBytes tinyHeader [⟨0,10,64,.shared⟩] [.demand 0 1 0 0] defaultLimits =
    .ok (unlines [tinyHeaderLine,tinyPageLine,tinyEventLine]) := by
  obtain ⟨t,parsed,header,pages,events⟩ := tinyParses
  rw [← header,← pages,← events]
  exact (parsingCanonical tinyJson firstBytes (by decide)).1 _ _ parsed

end RunnelMoe.Sim
