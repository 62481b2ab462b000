import Mathlib.Data.List.Basic
import DocumentSession.Read.Load
import DocumentSession.Read.MultiGet

set_option autoImplicit false

/-! # Query strings can be read back

`readQuery` reads a query string back by splitting it at `&`, splitting each piece at its `=`, and
decoding the two parts. That works because `percentEncode` leaves no separators, and because
`percentDecode` is its inverse. So `queryString` is injective (`queryString_inj`), and the URL under
which the answer to a load is cached determines the documents that are loaded. -/

namespace DocumentSession

namespace Text

/-! ## Percent-encoded texts, byte by byte -/

theorem lt_of_isAlphanum {c : Char} (h : c.isAlphanum = true) : c.toNat < 128 := by
  rcases Bool.or_eq_true_iff.mp h with halpha | hdigit
  · rcases Bool.or_eq_true_iff.mp halpha with hupper | hlower
    · have hle : c.val.toNat ≤ 'Z'.val.toNat := (of_decide_eq_true hupper).2
      exact Nat.lt_of_le_of_lt hle (by decide)
    · have hle : c.val.toNat ≤ 'z'.val.toNat :=
        of_decide_eq_true (Bool.and_eq_true_iff.mp hlower).2
      exact Nat.lt_of_le_of_lt hle (by decide)
  · have hle : c.val.toNat ≤ '9'.val.toNat :=
      of_decide_eq_true (Bool.and_eq_true_iff.mp hdigit).2
    exact Nat.lt_of_le_of_lt hle (by decide)

theorem lt_of_isUnreserved {c : Char} (h : isUnreserved c = true) : c.toNat < 128 := by
  simp only [isUnreserved, Bool.or_eq_true, decide_eq_true_eq] at h
  rcases h with (((h | rfl) | rfl) | rfl) | rfl
  · exact lt_of_isAlphanum h
  · decide
  · decide
  · decide
  · decide

theorem utf8EncodeChar_of_lt {c : Char} (h : c.toNat < 128) :
    String.utf8EncodeChar c = [UInt8.ofNat c.toNat] :=
  if_pos (Nat.le_of_lt_succ h)

/-- No byte of a longer character is an ASCII character. -/
theorem le_of_mem_utf8EncodeChar {c : Char} (h : 128 ≤ c.toNat) {b : UInt8}
    (hb : b ∈ String.utf8EncodeChar c) : 128 ≤ b.toNat := by
  have hlong : ¬ c.val.toNat ≤ 127 := Nat.not_le.mpr h
  unfold String.utf8EncodeChar at hb
  simp only [hlong, if_false] at hb
  split at hb
  · simp only [List.mem_cons, List.not_mem_nil, or_false] at hb
    rcases hb with rfl | rfl <;> simp only [UInt8.toNat_ofNat'] <;> omega
  · split at hb
    · simp only [List.mem_cons, List.not_mem_nil, or_false] at hb
      rcases hb with rfl | rfl | rfl <;> simp only [UInt8.toNat_ofNat'] <;> omega
    · simp only [List.mem_cons, List.not_mem_nil, or_false] at hb
      rcases hb with rfl | rfl | rfl | rfl <;> simp only [UInt8.toNat_ofNat'] <;> omega

/-- How a byte of a text is written in a query string. -/
def percentOrPlain (b : UInt8) : List Char :=
  let c := Char.ofNat b.toNat
  if isUnreserved c then [c] else percentByte b

theorem percentChar_eq (c : Char) :
    percentChar c = (String.utf8EncodeChar c).flatMap percentOrPlain := by
  by_cases hshort : c.toNat < 128
  · have hbyte : (UInt8.ofNat c.toNat).toNat = c.toNat := by
      rw [UInt8.toNat_ofNat']
      exact Nat.mod_eq_of_lt (by omega)
    unfold percentChar
    rw [utf8EncodeChar_of_lt hshort, List.flatMap_singleton, List.flatMap_singleton,
      percentOrPlain, hbyte, Char.ofNat_toNat]
  · have hlong : ¬ isUnreserved c = true := fun h => hshort (lt_of_isUnreserved h)
    rw [percentChar, if_neg hlong]
    refine List.flatMap_congr (fun b hb => ?_)
    have hb' := le_of_mem_utf8EncodeChar (Nat.not_lt.mp hshort) hb
    have hvalid : b.toNat.isValidChar := .inl (Nat.lt_trans b.toNat_lt (by decide))
    have hchar : (Char.ofNat b.toNat).toNat = b.toNat := by
      rw [Char.ofNat, dif_pos hvalid]
      rfl
    have hplain : ¬ isUnreserved (Char.ofNat b.toNat) = true := by
      intro h
      have hlt := lt_of_isUnreserved h
      omega
    exact (if_neg hplain).symm

/-- `percentEncode` writes the unreserved bytes as they are, and all others as `%` and two
digits. -/
theorem toList_percentEncode (s : String) :
    (percentEncode s).toList
      = (s.toList.flatMap String.utf8EncodeChar).flatMap percentOrPlain := by
  rw [percentEncode, String.toList_ofList, List.flatMap_assoc]
  exact List.flatMap_congr (fun c _ => percentChar_eq c)

/-! ## Decoding -/

/-- The value of a hexadecimal digit. -/
def hexValue? (c : Char) : Option Nat :=
  if c.isDigit then some (c.toNat - '0'.toNat)
  else if 'A' ≤ c ∧ c ≤ 'F' then some (c.toNat - 'A'.toNat + 10)
  else if 'a' ≤ c ∧ c ≤ 'f' then some (c.toNat - 'a'.toNat + 10)
  else none

/-- The bytes of a percent-encoded text. -/
def percentBytes : List Char → Option (List UInt8)
  | [] => some []
  | '%' :: high :: low :: rest => do
    let high ← hexValue? high
    let low ← hexValue? low
    let bytes ← percentBytes rest
    some (UInt8.ofNat (16 * high + low) :: bytes)
  | '%' :: _ => none
  | c :: rest => do
    let bytes ← percentBytes rest
    some (String.utf8EncodeChar c ++ bytes)

/-- The text that is percent-encoded. -/
def percentDecode (text : List Char) : Option String :=
  (percentBytes text).bind (fun bytes => String.fromUTF8? bytes.toByteArray)

theorem hexValue?_upperHexDigit (n : Nat) : hexValue? (upperHexDigit n) = some (n % 16) := by
  have hdigit : ∀ d : Fin 16, hexValue? (upperHexDigit d) = some d.val := by decide
  have heq : upperHexDigit n = upperHexDigit (n % 16) := by
    unfold upperHexDigit
    rw [Nat.mod_mod]
  rw [heq]
  exact hdigit ⟨n % 16, Nat.mod_lt n (by decide)⟩

theorem percentBytes_percentByte (b : UInt8) (rest : List Char) :
    percentBytes (percentByte b ++ rest) = (percentBytes rest).map (b :: ·) := by
  have hbyte : UInt8.ofNat (16 * (b.toNat / 16 % 16) + b.toNat % 16) = b := by
    have hlt := b.toNat_lt
    have hnat : 16 * (b.toNat / 16 % 16) + b.toNat % 16 = b.toNat := by omega
    rw [hnat, UInt8.ofNat_toNat]
  show percentBytes ('%' :: _ :: _ :: rest) = _
  rw [percentBytes, hexValue?_upperHexDigit, hexValue?_upperHexDigit]
  cases percentBytes rest with
  | none => rfl
  | some bytes => exact congrArg (fun b => some (b :: bytes)) hbyte

theorem percentBytes_flatMap_percentByte (bytes : List UInt8) (rest : List Char) :
    percentBytes (bytes.flatMap percentByte ++ rest)
      = (percentBytes rest).map (bytes ++ ·) := by
  induction bytes with
  | nil => exact Option.map_id'.symm
  | cons b bytes ih =>
    rw [List.flatMap_cons, List.append_assoc, percentBytes_percentByte, ih, Option.map_map]
    rfl

theorem percentBytes_percentChar (c : Char) (rest : List Char) :
    percentBytes (percentChar c ++ rest)
      = (percentBytes rest).map (String.utf8EncodeChar c ++ ·) := by
  unfold percentChar
  split
  · next hplain =>
    have hmark : c ≠ '%' := by
      rintro rfl
      exact absurd hplain (by decide)
    rw [List.singleton_append, percentBytes]
    · cases percentBytes rest <;> rfl
    · exact fun _ _ _ h => absurd h hmark
    · exact fun h => absurd h hmark
  · exact percentBytes_flatMap_percentByte _ rest

theorem percentBytes_encoded (cs : List Char) :
    percentBytes (cs.flatMap percentChar) = some (cs.flatMap String.utf8EncodeChar) := by
  induction cs with
  | nil => rfl
  | cons c cs ih =>
    rw [List.flatMap_cons, percentBytes_percentChar, ih]
    rfl

/-- `percentDecode` is the inverse of `percentEncode`. -/
theorem percentDecode_percentEncode (s : String) :
    percentDecode (percentEncode s).toList = some s := by
  rw [percentDecode, percentEncode, String.toList_ofList, percentBytes_encoded]
  have hbytes : (s.toList.flatMap String.utf8EncodeChar).toByteArray = s.toByteArray :=
    String.utf8Encode_toList
  rw [Option.bind_some, hbytes, String.fromUTF8?, dif_pos s.isValidUTF8]
  rfl

/-! ## Separators -/

theorem isUnreserved_or_eq_of_mem_percentChar {c d : Char} (h : d ∈ percentChar c) :
    isUnreserved d = true ∨ d = '%' := by
  have hdigit : ∀ d : Fin 16, isUnreserved (upperHexDigit d) = true := by decide
  unfold percentChar at h
  split at h
  · next hplain =>
    rw [List.mem_singleton.mp h]
    exact .inl hplain
  · obtain ⟨b, -, hb⟩ := List.mem_flatMap.mp h
    simp only [percentByte, List.mem_cons, List.not_mem_nil, or_false] at hb
    rcases hb with rfl | rfl | rfl
    · exact .inr rfl
    · exact .inl (hdigit ⟨b.toNat / 16, by have := b.toNat_lt; omega⟩)
    · have hlow := hdigit ⟨b.toNat % 16, Nat.mod_lt _ (by decide)⟩
      unfold upperHexDigit at hlow ⊢
      rw [Nat.mod_mod] at hlow
      exact .inl hlow

/-- A character that `percentEncode` would encode is not in what it writes. -/
theorem notMem_percentEncode {mark : Char} (h : isUnreserved mark = false) (hmark : mark ≠ '%')
    (s : String) : mark ∉ (percentEncode s).toList := by
  intro hmem
  rw [percentEncode, String.toList_ofList] at hmem
  obtain ⟨c, -, hc⟩ := List.mem_flatMap.mp hmem
  rcases isUnreserved_or_eq_of_mem_percentChar hc with hplain | heq
  · rw [h] at hplain
    cases hplain
  · exact hmark heq

end Text

/-! ## Queries -/

/-- A name and its value. -/
def readPiece (piece : List Char) : Option (String × String) :=
  match piece.splitOn '=' with
  | [name, value] => do
    let name ← Text.percentDecode name
    let value ← Text.percentDecode value
    some (name, value)
  | _ => none

/-- The names and values of a query string that begins with `?`. -/
def readQuery (s : String) : Option (List (String × String)) :=
  match s.toList with
  | '?' :: text => (text.splitOn '&').mapM readPiece
  | _ => none

theorem toList_queryPiece (piece : String × String) :
    (queryPiece piece).toList
      = ['='].intercalate
          [(Text.percentEncode piece.1).toList, (Text.percentEncode piece.2).toList] := by
  rw [queryPiece, String.toList_append, String.toList_append, List.append_assoc,
    List.intercalate_cons_cons, List.intercalate_singleton, List.append_assoc]
  rfl

theorem readPiece_queryPiece (piece : String × String) :
    readPiece (queryPiece piece).toList = some piece := by
  have hnone : ∀ s, '=' ∉ (Text.percentEncode s).toList :=
    Text.notMem_percentEncode (by decide) (by decide)
  rw [readPiece, toList_queryPiece, List.splitOn_intercalate _ (by simp [hnone]) (by simp)]
  dsimp only
  rw [Text.percentDecode_percentEncode, Text.percentDecode_percentEncode]
  rfl

theorem notMem_queryPiece (piece : String × String) : '&' ∉ (queryPiece piece).toList := by
  have hnone : ∀ s, '&' ∉ (Text.percentEncode s).toList :=
    Text.notMem_percentEncode (by decide) (by decide)
  rw [queryPiece, String.toList_append, String.toList_append]
  simp [hnone]

theorem mapM_readPiece (query : List (String × String)) :
    (query.map (fun piece => (queryPiece piece).toList)).mapM readPiece = some query := by
  induction query with
  | nil => rfl
  | cons piece query ih =>
    rw [List.map_cons, List.mapM_cons, readPiece_queryPiece, ih]
    rfl

theorem readQuery_queryString {query : List (String × String)} (hquery : query ≠ []) :
    readQuery (queryString query) = some query := by
  have hpieces : (queryString query).toList
      = '?' :: ['&'].intercalate (query.map (fun piece => (queryPiece piece).toList)) := by
    rw [queryString, if_neg hquery, String.toList_append, String.toList_intercalate, List.map_map]
    rfl
  simp only [readQuery, hpieces]
  rw [List.splitOn_intercalate _ ?_ (by simpa using hquery)]
  · exact mapM_readPiece query
  · intro text htext
    obtain ⟨piece, -, rfl⟩ := List.mem_map.mp htext
    exact notMem_queryPiece piece

/-- `queryString` is injective. -/
theorem queryString_inj {query query' : List (String × String)} :
    queryString query = queryString query' ↔ query = query' := by
  refine ⟨fun h => ?_, congrArg queryString⟩
  by_cases hquery : query = []
  · by_cases hquery' : query' = []
    · rw [hquery, hquery']
    · have hread := readQuery_queryString hquery'
      rw [← h, hquery] at hread
      cases hread
  · have hread := readQuery_queryString hquery
    rw [h] at hread
    by_cases hquery' : query' = []
    · rw [hquery'] at hread
      cases hread
    · rw [readQuery_queryString hquery'] at hread
      exact (Option.some.inj hread).symm

/-- The values under `name`. -/
def namedValues (name : String) (query : List (String × String)) : List String :=
  (query.filter (fun piece => piece.1 = name)).map (·.2)

theorem loadRequest_query_inj {ids ids' includes includes' : List String} :
    (loadRequest ids includes).query = (loadRequest ids' includes').query
      ↔ ids = ids' ∧ includes = includes' := by
  have hids : ∀ ids includes, namedValues "id" (loadRequest ids includes).query = ids := by
    intro ids includes
    simp [namedValues, loadRequest, List.filter_map, Function.comp_def, List.filter_true]
  have hincludes : ∀ ids includes,
      namedValues "include" (loadRequest ids includes).query = includes := by
    intro ids includes
    simp [namedValues, loadRequest, List.filter_map, Function.comp_def, List.filter_true]
  constructor
  · intro h
    refine ⟨?_, ?_⟩
    · rw [← hids ids includes, h, hids]
    · rw [← hincludes ids includes, h, hincludes]
  · rintro ⟨rfl, rfl⟩
    rfl

/-- Query strings can be read. -/
structure ReadableQueries : Prop where
  /-- Of the bytes of a text the letters and digits of ASCII and the marks `-`, `.`, `_` and `~`
  stand for themselves, and all others are written as `%` and two digits. -/
  encoded : ∀ s : String, (Text.percentEncode s).toList
    = (s.toList.flatMap String.utf8EncodeChar).flatMap Text.percentOrPlain
  /-- What is read is what was written, in the same order. -/
  read : ∀ query, query ≠ [] → readQuery (queryString query) = some query
  /-- The answer to a load is cached under a URL that no other load has. -/
  load : ∀ ids includes ids' includes',
    (SubRequest.ofRequest (loadRequest ids includes)).cacheKey
        = (SubRequest.ofRequest (loadRequest ids' includes')).cacheKey
      ↔ ids = ids' ∧ includes = includes'

/-- All query strings can be read, and the URL of a load tells what is loaded. -/
theorem query_strings_readable : ReadableQueries := by
  refine ⟨Text.toList_percentEncode, fun _ => readQuery_queryString, ?_⟩
  intro ids includes ids' includes'
  rw [← loadRequest_query_inj, ← queryString_inj]
  exact String.append_right_inj "/docs"

/-- Names and values with marks in them, an empty value, and a name that comes twice. -/
theorem query_strings_readable_marks :
    readQuery "?id=a%26b%3D%25&id=&n%C3%A4h=1"
      = some [("id", "a&b=%"), ("id", ""), ("näh", "1")] := by
  have hwritten : queryString [("id", "a&b=%"), ("id", ""), ("näh", "1")]
      = "?id=a%26b%3D%25&id=&n%C3%A4h=1" := by decide +kernel
  rw [← hwritten]
  exact query_strings_readable.read _ (by simp)

end DocumentSession
