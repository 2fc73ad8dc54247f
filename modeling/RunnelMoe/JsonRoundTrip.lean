import RunnelMoe.JsonModel

/-! The canonical form is read back: every value within the limits of the format is what
its canonical bytes say, so no two of them share their bytes. Values are taken apart
level by level, as the reader takes them. -/
namespace RunnelMoe.Format
open Readers Results Words StoreErrors

theorem insertKeys (key : Bytes) (v : Json) (entries : List (Bytes × Json)) {other : Bytes × Json}
    (member : other ∈ insertEntry key v entries) : other = (key,v) ∨ other ∈ entries := by
  induction entries with
  | nil => exact .inl (List.mem_singleton.mp member)
  | cons e rest ih =>
    unfold insertEntry at member
    split at member
    · exact (List.mem_cons.mp member)
    split at member
    · rcases List.mem_cons.mp member with same | inside
      · exact .inl same
      · exact .inr (List.mem_cons_of_mem _ inside)
    · rcases List.mem_cons.mp member with same | inside
      · exact .inr (same ▸ List.mem_cons_self)
      · rcases ih inside with same | old
        · exact .inl same
        · exact .inr (List.mem_cons_of_mem _ old)

theorem insertAscending {key : Bytes} {v : Json} {entries : List (Bytes × Json)} (ascending : Ascending entries) :
    Ascending (insertEntry key v entries) := by
  induction entries with
  | nil => exact List.pairwise_singleton _ _
  | cons e rest ih =>
    obtain ⟨first,later⟩ := List.pairwise_cons.mp ascending
    unfold insertEntry
    split
    · rename_i below
      refine List.pairwise_cons.mpr ⟨fun other member => ?_,ascending⟩
      rcases List.mem_cons.mp member with rfl | inside
      · exact below
      · exact List.lt_trans below (first other inside)
    split
    · rename_i same
      refine List.pairwise_cons.mpr ⟨fun other member => ?_,later⟩
      rw [same]
      exact first other member
    · rename_i notBelow different
      refine List.pairwise_cons.mpr ⟨fun other member => ?_,ih later⟩
      obtain ⟨row,inside,rfl⟩ := List.mem_map.mp member
      rcases insertKeys key v rest inside with rfl | old
      · rcases bytesTotal e.1 key with less | same | more
        · exact less
        · exact absurd same.symm different
        · exact absurd more notBelow
      · exact first row.1 (List.mem_map_of_mem old)

variable {bytes rest text : Bytes} {tree : Json} {b : UInt8}

theorem seqSorted {inner : Reader JsonFault Json}
    (sorted : ∀ bytes v rest, inner bytes = .ok (v,rest) → v.Sorted) (ok : visitSeq inner bytes = .ok (tree,rest)) :
    tree.Sorted := by
  obtain ⟨found,read,last⟩ := bindOk.mp ok
  cases last
  refine .array (seriesInvariant (fun values => ∀ v ∈ values, v.Sorted) (fun _ none => by cases none) ?_ read)
  intro values v next bytes middle late rest each item taken u member
  cases taken
  rcases List.mem_append.mp member with old | last
  · exact each u old
  · rw [List.mem_singleton.mp last]
    exact sorted bytes v middle item

theorem mapSorted {inner : Reader JsonFault Json}
    (sorted : ∀ bytes v rest, inner bytes = .ok (v,rest) → v.Sorted) (ok : visitMap inner bytes = .ok (tree,rest)) :
    tree.Sorted := by
  obtain ⟨found,read,last⟩ := bindOk.mp ok
  cases last
  have none : Ascending [] ∧ ∀ e ∈ ([] : List (Bytes × Json)), e.2.Sorted :=
    ⟨List.Pairwise.nil,fun _ none => by cases none⟩
  have both := seriesInvariant (fun entries => Ascending entries ∧ ∀ e ∈ entries, e.2.Sorted) none ?_ read
  · exact .object both.1 both.2
  intro entries key next bytes middle late rest held item taken
  obtain ⟨_,-,taken⟩ := bindOk.mp taken
  obtain ⟨v,inside,taken⟩ := bindOk.mp taken
  cases taken
  refine ⟨insertAscending held.1,fun e member => ?_⟩
  rcases insertKeys key v.1 entries member with rfl | old
  · exact sorted _ v.1 v.2 inside
  · exact held.2 e old

theorem numberSorted {n : Number} (ok : visitNumber n = .ok tree) : tree.Sorted := by
  cases n with
  | unsigned n =>
    rw [visitNumber] at ok
    split at ok
    · contradiction
    · cases ok
      exact .integer n
  | negative | float => contradiction

theorem valueWithSorted {inner : Option (Reader JsonFault Json)}
    (sorted : ∀ read ∈ inner, ∀ bytes v rest, read bytes = .ok (v,rest) → v.Sorted)
    (ok : valueWith inner bytes = .ok (tree,rest)) : tree.Sorted := by
  unfold valueWith at ok
  split at ok
  · contradiction
  split at ok
  · obtain ⟨_,-,wrong⟩ := bindOk.mp ok
    contradiction
  split at ok
  · obtain ⟨_,-,last⟩ := bindOk.mp ok
    cases last
    exact .bool true
  split at ok
  · obtain ⟨_,-,last⟩ := bindOk.mp ok
    cases last
    exact .bool false
  split at ok
  · obtain ⟨_,-,last⟩ := bindOk.mp ok
    obtain ⟨_,visited,last⟩ := bindOk.mp last
    cases last
    exact numberSorted visited
  split at ok
  · obtain ⟨_,-,last⟩ := bindOk.mp ok
    obtain ⟨_,visited,last⟩ := bindOk.mp last
    cases last
    exact numberSorted visited
  split at ok
  · obtain ⟨_,-,last⟩ := bindOk.mp ok
    obtain ⟨_,-,last⟩ := bindOk.mp last
    cases last
    exact .string _
  split at ok
  · cases inner with
    | none => contradiction
    | some read => exact seqSorted (sorted read rfl) ok
  split at ok
  · cases inner with
    | none => contradiction
    | some read => exact mapSorted (sorted read rfl) ok
  · contradiction

theorem valueSorted (levels : Nat) (ok : readValue levels bytes = .ok (tree,rest)) :
    tree.Sorted := by
  induction levels generalizing bytes rest tree with
  | zero => exact valueWithSorted (fun _ none => by cases none) ok
  | succ levels ih =>
    refine valueWithSorted (fun read same bytes v rest inside => ?_) ok
    cases same
    exact ih inside

theorem documentSorted (ok : document bytes = .ok tree) : tree.Sorted := by
  obtain ⟨⟨found,rest⟩,read,last⟩ := bindOk.mp ok
  simp only at last
  split at last
  · cases last
    exact valueSorted maxNestingDepth read
  · contradiction

def parse (bytes : Bytes) : Except FormatError JsonValue :=
  match read : document bytes with
  | .error fault => .error fault.error
  | .ok tree => .ok ⟨tree,documentSorted read⟩

theorem parseDocument {v : JsonValue} : parse bytes = .ok v ↔ document bytes = .ok v.tree := by
  unfold parse
  split
  · rename_i fault failed
    simp [failed]
  · rename_i tree read
    constructor
    · intro same
      cases same
      exact read
    · intro other
      cases v
      cases read.symm.trans other
      rfl

def Plain (text : Bytes) : Prop := text.length ≤ maxSchemaStringBytes ∧ ascii text = true

theorem hexValueDigit {n : Nat} (small : n < 16) : hexValue (hexDigit n) = some n := by
  interval_cases n <;> rfl

theorem charactersUnicode {p q r s : UInt8} {code : Nat} (read : unit p q r s = some code) (small : code < 55296)
    (tail : Bytes) : characters (92::117::p::q::r::s::tail) = push (encodeUtf8 code) (characters tail) := by
  conv_lhs => unfold characters
  rw [if_neg (by decide),if_pos rfl]
  simp only [read]
  rw [if_pos trivial,if_neg (by omega),if_neg (by omega)]

theorem charactersEscaped {e c : UInt8} (known : escaped e = some c) (tail : Bytes) :
    characters (92::e::tail) = push [c] (characters tail) := by
  have other : e ≠ 117 := by
    rintro rfl
    cases known
  conv_lhs => unfold characters
  rw [if_neg (by decide),if_pos rfl]
  simp only [known]
  rw [if_neg other]

theorem charactersVisible (quote : b ≠ 34) (slash : b ≠ 92) (visible : ¬ b < 32) (tail : Bytes) :
    characters (b::tail) = push [b] (characters tail) := by
  conv_lhs => unfold characters
  rw [if_neg quote,if_neg slash,if_neg visible]

theorem charactersByte (plain : b ≤ 127) (tail : Bytes) :
    characters (escapeByte b ++ tail) = push [b] (characters tail) := by
  unfold escapeByte
  split
  · rename_i same
    subst same
    exact charactersEscaped rfl tail
  split
  · rename_i same
    subst same
    exact charactersEscaped rfl tail
  split
  · rename_i same
    subst same
    exact charactersEscaped rfl tail
  split
  · rename_i same
    subst same
    exact charactersEscaped rfl tail
  split
  · rename_i same
    subst same
    exact charactersEscaped rfl tail
  split
  · rename_i same
    subst same
    exact charactersEscaped rfl tail
  split
  · rename_i same
    subst same
    exact charactersEscaped rfl tail
  split
  · rename_i control
    have small : b.toNat ≤ 31 := UInt8.le_iff_toNat_le.mp control
    have read : unit 48 48 (hexDigit (b.toNat / 16)) (hexDigit (b.toNat % 16)) = some b.toNat := by
      have zero : hexValue 48 = some 0 := rfl
      simp only [unit,zero,hexValueDigit (show b.toNat / 16 < 16 by omega),hexValueDigit (show b.toNat % 16 < 16 by omega),
        Option.bind_eq_bind,Option.bind_some]
      congr 1
      omega
    have same : encodeUtf8 b.toNat = [b] := by
      rw [encodeUtf8,if_pos (by omega)]
      exact congrArg (fun x => [x]) UInt8.ofNat_toNat
    rw [← same]
    exact charactersUnicode read (by omega) tail
  · rename_i quote slash _ _ _ _ _ control
    have visible : ¬ b < 32 := by
      rw [UInt8.le_iff_toNat_le] at control
      rw [UInt8.lt_iff_toNat_lt]
      have large : ¬ b.toNat ≤ 31 := control
      show ¬ b.toNat < 32
      omega
    exact charactersVisible quote slash visible tail

theorem charactersWritten (plain : ascii text = true) (rest : Bytes) :
    characters (text.flatMap escapeByte ++ 34::rest) = .ok (text,rest) := by
  induction text with
  | nil =>
    rw [List.flatMap_nil,List.nil_append]
    unfold characters
    exact if_pos rfl
  | cons b text ih =>
    rw [ascii,List.all_cons,Bool.and_eq_true,decide_eq_true_eq] at plain
    rw [List.flatMap_cons,List.append_assoc,charactersByte plain.1,ih plain.2]
    rfl

theorem quotedWritten (plain : Plain text) (rest : Bytes) :
    quoted (text.flatMap escapeByte ++ 34::rest) = .ok (text,rest) := by
  unfold quoted
  rw [charactersWritten plain.2]
  exact if_pos (asciiUtf8 plain.2)

theorem validatePlain : validateString text = .ok () ↔ Plain text := by
  unfold validateString Plain
  split
  · rename_i long
    constructor
    · intro wrong
      cases wrong
    · intro plain
      exact absurd plain.1 (Nat.not_le.mpr long)
  split
  · rename_i odd
    rw [Bool.not_eq_true'] at odd
    constructor
    · intro wrong
      cases wrong
    · intro plain
      rw [plain.2] at odd
      cases odd
  · rename_i short even
    exact ⟨fun _ => ⟨Nat.le_of_not_lt short,by simpa using even⟩,fun _ => rfl⟩

/-! Numbers that are read back -/

def numberByte (b : UInt8) : Bool := isDigit b || b = 46 || isExponent b

theorem numberEndStops (stops : Stops numberByte rest) {n : Nat} (word : n < modulus) :
    numberEnd true n rest = .ok (.unsigned n,rest) := by
  have whole : integerEnd true n = .ok (.unsigned n) := if_pos word
  cases rest with
  | nil => rw [numberEnd,whole]; rfl
  | cons b rest =>
    have stop := stops b rfl
    simp only [numberByte,Bool.or_eq_false_iff,decide_eq_false_iff_not] at stop
    rw [numberEnd,if_neg stop.1.2,if_neg (by simp [stop.2]),whole]
    rfl

theorem numberWritten {n : Nat} (small : n ≤ maxSafeInteger) (stops : Stops numberByte rest) :
    number true (decimal n ++ rest) = .ok (.unsigned n,rest) := by
  have word : n < modulus := Nat.lt_of_le_of_lt small (by decide)
  have stopDigits : Stops isDigit rest := by
    intro b head
    have stop := stops b head
    simp only [numberByte,Bool.or_eq_false_iff] at stop
    exact stop.1.1
  have read := digitsDecimal n stopDigits
  obtain ⟨b,more,written,digit,zero,single⟩ := decimalHead n
  rw [written] at read ⊢
  rw [List.cons_append] at read ⊢
  rw [number]
  split
  · rename_i first
    have none := zero first
    subst none
    rw [single rfl,List.nil_append]
    have next : rest.head?.any isDigit = false := by
      cases rest with
      | nil => rfl
      | cons c rest => exact stopDigits c rfl
    rw [if_neg (by simp [next]),numberEndStops stops word]
  · rw [read]
    show numberEnd true n rest = _
    rw [numberEndStops stops word]

def Fits : Nat → Json → Prop
  | _, .bool _ => True
  | _, .integer n => n ≤ maxSafeInteger
  | _, .string text => Plain text
  | 0, .array _ => False
  | 0, .object _ => False
  | levels + 1, .array values => values.length ≤ maxJsonCollectionEntries ∧ ∀ v ∈ values, Fits levels v
  | levels + 1, .object entries =>
    entries.length ≤ maxJsonCollectionEntries ∧ ∀ e ∈ entries, Plain e.1 ∧ Fits levels e.2

theorem itemsListed (first : Bool) (values : List Json) :
    writeItems first values = listed first (values.map writeValue) := by
  induction values generalizing first with
  | nil => rfl
  | cons v rest ih => rw [writeItems,ih,List.map_cons,listed]

theorem entriesListed (first : Bool) (entries : List (Bytes × Json)) :
    writeEntries first entries = listed first (entries.map writeEntry) := by
  induction entries generalizing first with
  | nil => rfl
  | cons e rest ih => rw [writeEntries,ih,List.map_cons,listed]

theorem digitSolid (digit : isDigit b = true) : blank b = false ∧ b ≠ 93 ∧ b ≠ 110 ∧ b ≠ 116 ∧ b ≠ 102 ∧ b ≠ 45 := by
  simp only [isDigit,Bool.and_eq_true,decide_eq_true_eq,UInt8.le_iff_toNat_le] at digit
  have low : 48 ≤ b.toNat := digit.1
  have high : b.toNat ≤ 57 := digit.2
  have other (c : UInt8) (far : c.toNat < 48 ∨ 57 < c.toNat) : b ≠ c := by
    rintro rfl
    omega
  refine ⟨?_,other 93 (by decide),other 110 (by decide),other 116 (by decide),other 102 (by decide),other 45 (by decide)⟩
  simp [blank,other 32 (by decide),other 9 (by decide),other 10 (by decide),other 13 (by decide)]

theorem valueOpens (tree : Json) : ∃ b more, writeValue tree = b::more ∧ blank b = false ∧ b ≠ 93 := by
  cases tree with
  | bool v => cases v <;> exact ⟨_,_,rfl,by decide,by decide⟩
  | integer n =>
    obtain ⟨b,more,written,digit,-,-⟩ := decimalHead n
    exact ⟨b,more,by rw [writeValue,written],(digitSolid digit).1,(digitSolid digit).2.1⟩
  | string text | array text | object text => exact ⟨_,_,rfl,by decide,by decide⟩

theorem foldConcat {A : Type} (items : List A) (start : List A) :
    items.foldl (fun values v => values ++ [v]) start = start ++ items := by
  induction items generalizing start with
  | nil => simp
  | cons v rest ih => simp [ih]

theorem stopsAt (stop : numberByte b = false) (rest : Bytes) : Stops numberByte (b::rest) := by
  intro c head
  cases head
  exact stop

theorem separatorStops {close sep : UInt8} (separator : sep = close ∨ sep = 44) (closing : numberByte close = false)
    (rest : Bytes) : Stops numberByte (sep::rest) := by
  rcases separator with rfl | rfl
  · exact stopsAt closing rest
  · exact stopsAt rfl rest

section Levels
variable {inner : Reader JsonFault Json} {levels : Nat}

theorem seqWritten {values : List Json} (size : values.length ≤ maxJsonCollectionEntries)
    (reads : ∀ v ∈ values, ∀ rest, Stops numberByte rest → inner (writeValue v ++ rest) = .ok (v,rest)) (rest : Bytes) :
    visitSeq inner (writeItems true values ++ 93::rest) = .ok (.array values,rest) := by
  have read : series JsonFault.grammar (.policy .collectionTooLarge) 93 (fun _ : List Json => inner)
      (fun values value rest => .ok (values ++ [value],rest)) maxJsonCollectionEntries true []
      (listed true (values.map writeValue) ++ 93::rest) =
        .ok (values.foldl (fun values v => values ++ [v]) [],rest) := by
    refine seriesListed
      (fun _ items => ∀ v ∈ items, ∀ rest, Stops numberByte rest → inner (writeValue v ++ rest) = .ok (v,rest))
      (by decide) (by decide) size reads (fun v _ => valueOpens v) ?_ rest
    intro s v more sep tail each separator
    refine ⟨v,_,each v List.mem_cons_self _ (separatorStops separator rfl tail),rfl,?_⟩
    exact fun u member => each u (List.mem_cons_of_mem _ member)
  unfold visitSeq
  rw [itemsListed,read,foldConcat]
  rfl

variable {entries : List (Bytes × Json)} {rest : Bytes}

theorem insertLast {key : Bytes} {v : Json} (last : ∀ e ∈ entries, e.1 < key) :
    insertEntry key v entries = entries ++ [(key,v)] := by
  induction entries with
  | nil => rfl
  | cons e rest ih =>
    have below := last e List.mem_cons_self
    have later : ¬ key < e.1 := fun above => List.lt_irrefl _ (List.lt_trans below above)
    have other : key ≠ e.1 := by
      intro same
      rw [same] at below
      exact List.lt_irrefl _ below
    rw [insertEntry,if_neg later,if_neg other,ih (fun e member => last e (List.mem_cons_of_mem _ member)),List.cons_append]

structure Coming (inner : Reader JsonFault Json) (entries coming : List (Bytes × Json)) : Prop where
  ascending : Ascending (entries ++ coming)
  plain : ∀ e ∈ coming, Plain e.1
  reads : ∀ e ∈ coming, ∀ rest, Stops numberByte rest → inner (writeValue e.2 ++ rest) = .ok (e.2,rest)

theorem comingAbove {coming : List (Bytes × Json)} {e : Bytes × Json} (held : Coming inner entries (e::coming)) :
    ∀ old ∈ entries, old.1 < e.1 := by
  intro old member
  have ascending := held.ascending
  rw [Ascending,List.map_append,List.pairwise_append] at ascending
  exact ascending.2.2 old.1 (List.mem_map_of_mem member) e.1 List.mem_cons_self

theorem comingRead {coming : List (Bytes × Json)} {e : Bytes × Json} {sep : UInt8} (tail : Bytes)
    (held : Coming inner entries (e::coming)) (separator : sep = 125 ∨ sep = 44) :
    ∃ key middle, keyOf entries (writeEntry e ++ sep::tail) = .ok (key,middle) ∧
      member inner entries key middle = .ok (entries ++ [e],sep::tail) ∧ Coming inner (entries ++ [e]) coming := by
  obtain ⟨key,v⟩ := e
  have above := comingAbove held
  have fresh : key ∉ entries.map Prod.fst := by
    intro member
    obtain ⟨old,inside,same⟩ := List.mem_map.mp member
    have below := above old inside
    rw [same] at below
    exact List.lt_irrefl _ below
  have plain : Plain key := held.plain _ List.mem_cons_self
  refine ⟨key,58 :: (writeValue v ++ sep::tail),?_,?_,?_,?_,?_⟩
  · have shape : writeEntry (key,v) ++ sep::tail =
        34 :: (key.flatMap escapeByte ++ 34 :: 58 :: (writeValue v ++ sep::tail)) := by
      simp [writeEntry,writeString]
    rw [shape,keyOf,quotedWritten plain]
    simp only [bind,Except.bind,validatePlain.mpr plain]
    exact if_neg fresh
  · have read := held.reads _ List.mem_cons_self _ (separatorStops separator rfl tail)
    have gap : colon (58 :: (writeValue v ++ sep::tail)) = .ok ((),writeValue v ++ sep::tail) := by
      rw [colon,skipSolid (by decide)]
      rfl
    simp only [member,gap,bind,Except.bind,read]
    rw [insertLast above]
  · rw [List.append_assoc]
    exact held.ascending
  · exact fun e member => held.plain e (List.mem_cons_of_mem _ member)
  · exact fun e member => held.reads e (List.mem_cons_of_mem _ member)

theorem mapWritten (size : entries.length ≤ maxJsonCollectionEntries)
    (held : Coming inner [] entries) (rest : Bytes) :
    visitMap inner (writeEntries true entries ++ 125::rest) = .ok (.object entries,rest) := by
  have opens (e : Bytes × Json) : ∃ b more, writeEntry e = b::more ∧ blank b = false ∧ b ≠ 125 :=
    ⟨34,(e.1.flatMap escapeByte ++ [34]) ++ 58 :: writeValue e.2,by cases e; rfl,by decide,by decide⟩
  have read : series JsonFault.grammar (.policy .collectionTooLarge) 125 keyOf (member inner) maxJsonCollectionEntries
      true [] (listed true (entries.map writeEntry) ++ 125::rest) =
        .ok (entries.foldl (fun entries e => entries ++ [e]) [],rest) :=
    seriesListed (Coming inner) (by decide) (by decide) size held (fun e _ => opens e)
      (fun _ _ _ _ tail held separator => comingRead tail held separator) rest
  unfold visitMap
  rw [entriesListed,read,foldConcat]
  rfl

theorem literalWritten (word rest : Bytes) : literal word (word ++ rest) = .ok ((),rest) := by
  rw [literal,if_pos (List.prefix_append word rest),List.drop_left]

theorem stringWritten (deep : Option (Reader JsonFault Json)) {text : Bytes} (plain : Plain text) (rest : Bytes) :
    valueWith deep (writeString text ++ rest) = .ok (.string text,rest) := by
  have shape : writeString text ++ rest = 34 :: (text.flatMap escapeByte ++ 34::rest) := by simp [writeString]
  rw [shape,valueWith,skipSolid (by decide)]
  simp only
  rw [if_neg (by decide),if_neg (by decide),if_neg (by decide),if_neg (by decide),if_neg (by decide),if_pos trivial,
    quotedWritten plain]
  simp only [bind,Except.bind,validatePlain.mpr plain]

theorem integerWritten (deep : Option (Reader JsonFault Json)) {n : Nat} (small : n ≤ maxSafeInteger)
    (stops : Stops numberByte rest) : valueWith deep (decimal n ++ rest) = .ok (.integer n,rest) := by
  have read := numberWritten small stops
  obtain ⟨b,more,written,digit,-,-⟩ := decimalHead n
  rw [written,List.cons_append] at read ⊢
  obtain ⟨solid,-,null,yes,no,minus⟩ := digitSolid digit
  rw [valueWith,skipSolid solid]
  simp only
  rw [if_neg null,if_neg yes,if_neg no,if_neg minus,if_pos digit,read]
  simp only [bind,Except.bind,visitNumber]
  rw [if_neg (Nat.not_lt.mpr small)]

theorem scalarWritten {tree : Json} (deep : Option (Reader JsonFault Json)) (stops : Stops numberByte rest)
    (fits : Fits 0 tree) : valueWith deep (writeValue tree ++ rest) = .ok (tree,rest) := by
  cases tree with
  | bool v =>
    cases v with
    | true =>
      show (literal [114,117,101] ([114,117,101] ++ rest) >>= fun read => .ok (Json.bool true,read.2)) = _
      rw [literalWritten]
      rfl
    | false =>
      show (literal [97,108,115,101] ([97,108,115,101] ++ rest) >>= fun read => .ok (Json.bool false,read.2)) = _
      rw [literalWritten]
      rfl
  | integer n => exact integerWritten deep fits stops
  | string text => exact stringWritten deep fits rest
  | array | object => exact fits.elim

theorem valueWritten (levels : Nat) {tree : Json} (sorted : tree.Sorted) (fits : Fits levels tree)
    (stops : Stops numberByte rest) : readValue levels (writeValue tree ++ rest) = .ok (tree,rest) := by
  induction levels generalizing tree rest with
  | zero => exact scalarWritten none stops fits
  | succ levels ih =>
    cases sorted with
    | bool | integer | string => exact scalarWritten _ stops fits
    | array each =>
      rename_i values
      obtain ⟨size,within⟩ := fits
      have read := seqWritten size (fun v member rest stops => ih (each v member) (within v member) stops) rest
      rw [writeValue,List.cons_append,List.cons_append,List.append_assoc]
      exact read
    | object ascending each =>
      rename_i entries
      obtain ⟨size,within⟩ := fits
      have held : Coming (readValue levels) [] entries := by
        refine ⟨ascending,fun e member => (within e member).1,fun e member rest stops => ?_⟩
        exact ih (each e member) (within e member).2 stops
      have read := mapWritten size held rest
      rw [writeValue,List.cons_append,List.cons_append,List.append_assoc]
      exact read

end Levels

theorem parseCanonical {v : JsonValue} (fits : Fits maxNestingDepth v.tree) : parse (canonicalBytes v) = .ok v := by
  have read := valueWritten maxNestingDepth v.sorted fits (stopsAt (show numberByte 10 = false by decide) [])
  rw [parseDocument,document,canonicalBytes,canonicalTree,read]
  rfl

end RunnelMoe.Format
