import DocumentSession.Query.Frozen
import Mathlib.Algebra.Ring.Int.Defs
import Mathlib.Data.List.Basic

set_option autoImplicit false

/-! # The preimage of the hash determines the query

Every part of the bytes that are hashed says where it ends: by its tag and, for texts, lists and
objects, by a length in front (`PrefixFree`). So the parts of a query can be told from the bytes one
after the other, and the bytes determine what is sent (`preimage_determines_query`). -/

namespace DocumentSession

/-! ## Sizes that fit into 64 bits -/

/-- The integer fits into 64 bits, with sign or without. -/
def Number.isSized : Number → Bool
  | .int n => -Nat.pow 2 63 ≤ n && n < UInt64.size
  | .float _ => true

namespace Json

mutual

/-- Every length and every number in the value fits into 64 bits. -/
def isSized : Json → Bool
  | .num n => n.isSized
  | .str s => s.utf8ByteSize < UInt64.size
  | .arr items => decide (items.length < UInt64.size) && areSized items
  | .obj members => decide (members.length < UInt64.size) && membersAreSized members
  | _ => true

/-- Every item is sized. -/
def areSized : List Json → Bool
  | [] => true
  | item :: rest => isSized item && areSized rest

/-- Every key and every value of a member is sized. -/
def membersAreSized : List (String × Json) → Bool
  | [] => true
  | (key, value) :: rest =>
    decide (key.utf8ByteSize < UInt64.size) && isSized value && membersAreSized rest

end

end Json

namespace Query

/-- All lengths and numbers of the query fit into 64 bits. -/
def Frozen.isSized (q : Frozen) : Bool :=
  decide (q.text.utf8ByteSize < UInt64.size) && (Json.obj q.parameters).isSized
    && q.start.all (· < UInt64.size) && q.pageSize.all (· < UInt64.size)

namespace Preimage

/-! ## Bytes that say where they end -/

/-- `bytes` determines what it encodes, and what follows it. -/
def PrefixFree {α : Type} (sized : α → Bool) (bytes : α → List UInt8) : Prop :=
  ∀ a b, sized a = true → sized b = true → ∀ r s, bytes a ++ r = bytes b ++ s → a = b ∧ r = s

theorem mod_eq_of_eightBytes_eq {m n : Nat} (h : eightBytes m = eightBytes n) :
    ∀ k ≤ 8, m % Nat.pow 256 k = n % Nat.pow 256 k := by
  intro k hk
  induction k with
  | zero => simp [Nat.mod_one]
  | succ k ih =>
    have hbyte : UInt8.ofNat (m / Nat.pow 256 k) = UInt8.ofNat (n / Nat.pow 256 k) :=
      (List.map_inj_left.mp h) k (List.mem_range.mpr hk)
    have hdigit : m / 256 ^ k % 256 = n / 256 ^ k % 256 := by
      simpa using congrArg UInt8.toNat hbyte
    have hlower : m % 256 ^ k = n % 256 ^ k := ih (by omega)
    show m % 256 ^ (k + 1) = n % 256 ^ (k + 1)
    rw [Nat.mod_pow_succ, Nat.mod_pow_succ, hlower, hdigit]

theorem prefixFree_eightBytes : PrefixFree (fun n => decide (n < UInt64.size)) eightBytes := by
  intro m n hm hn r s h
  obtain ⟨heq, hrest⟩ := List.append_inj h (by simp [eightBytes])
  have hmod : m % UInt64.size = n % UInt64.size := mod_eq_of_eightBytes_eq heq 8 (Nat.le_refl 8)
  rw [Nat.mod_eq_of_lt (of_decide_eq_true hm), Nat.mod_eq_of_lt (of_decide_eq_true hn)] at hmod
  exact ⟨hmod, hrest⟩

/-- The bytes of a text without its length. -/
theorem toByteArray_flatMap (s : String) :
    (s.toList.flatMap String.utf8EncodeChar).toByteArray = s.toByteArray :=
  String.utf8Encode_toList

theorem length_flatMap_utf8EncodeChar (s : String) :
    (s.toList.flatMap String.utf8EncodeChar).length = s.utf8ByteSize := by
  rw [← List.size_toByteArray, toByteArray_flatMap, String.size_toByteArray]

theorem prefixFree_text : PrefixFree (fun s => decide (s.utf8ByteSize < UInt64.size)) text := by
  intro s t hs ht r r' h
  simp only [text, List.cons_append, List.append_assoc, List.cons.injEq, true_and] at h
  obtain ⟨hlength, h⟩ := prefixFree_eightBytes _ _
    (by rwa [length_flatMap_utf8EncodeChar]) (by rwa [length_flatMap_utf8EncodeChar]) _ _ h
  obtain ⟨hbytes, hrest⟩ := List.append_inj h hlength
  refine ⟨String.toByteArray_inj.mp ?_, hrest⟩
  rw [← toByteArray_flatMap, ← toByteArray_flatMap, hbytes]

theorem prefixFree_bool : PrefixFree (fun _ => true) bool := by
  intro a b _ _ r s h
  cases a <;> cases b <;> simp_all [bool]

theorem prefixFree_unsigned : PrefixFree (fun n => decide (n < UInt64.size)) unsigned := by
  intro m n hm hn r s h
  exact prefixFree_eightBytes m n hm hn r s (List.cons.inj h).2

theorem prefixFree_optional :
    PrefixFree (fun n : Option Nat => n.all (· < UInt64.size)) optional := by
  intro m n hm hn r s h
  cases m with
  | none =>
    cases n with
    | none => exact ⟨rfl, (List.cons.inj h).2⟩
    | some n => exact absurd (List.cons.inj h).1 (by decide)
  | some m =>
    cases n with
    | none => exact absurd (List.cons.inj h).1 (by decide)
    | some n =>
      obtain ⟨rfl, hrest⟩ := prefixFree_unsigned m n hm hn r s h
      exact ⟨rfl, hrest⟩

theorem prefixFree_float : PrefixFree (fun _ => true) float := by
  intro x y _ _ r s h
  obtain ⟨hbits, hrest⟩ := prefixFree_eightBytes x.bits.toNat y.bits.toNat
    (decide_eq_true x.bits.toNat_lt) (decide_eq_true y.bits.toNat_lt) r s (List.cons.inj h).2
  obtain ⟨x⟩ := x
  obtain ⟨y⟩ := y
  exact ⟨congrArg Binary64.mk (UInt64.toNat_inj.mp hbits), hrest⟩

theorem signed_append_inj {m n : Int} (hm : -2 ^ 63 ≤ m ∧ m < 2 ^ 63)
    (hn : -2 ^ 63 ≤ n ∧ n < 2 ^ 63) {r s : List UInt8}
    (h : signed m ++ r = signed n ++ s) : m = n ∧ r = s := by
  have hsize : UInt64.size = 2 ^ 64 := rfl
  obtain ⟨heq, hrest⟩ := prefixFree_eightBytes (m % UInt64.size).toNat (n % UInt64.size).toNat
    (by rw [hsize, decide_eq_true_eq]; omega) (by rw [hsize, decide_eq_true_eq]; omega) r s
    (List.cons.inj h).2
  rw [hsize] at heq
  exact ⟨by omega, hrest⟩

theorem number_int_of_lt {n : Int} (h : n < 2 ^ 63) : number (.int n) = signed n :=
  if_pos h

theorem number_int_of_le {n : Int} (h : 2 ^ 63 ≤ n) : number (.int n) = unsigned n.toNat :=
  if_neg (by have hpow : Nat.pow 2 63 = 2 ^ 63 := rfl; rw [hpow]; omega)

theorem int_append_inj {m n : Int} (hm : (Number.int m).isSized = true)
    (hn : (Number.int n).isSized = true) {r s : List UInt8}
    (h : number (.int m) ++ r = number (.int n) ++ s) : m = n ∧ r = s := by
  have hbounds {k : Int} (hk : (Number.int k).isSized = true) : -2 ^ 63 ≤ k ∧ k < 2 ^ 64 := by
    simpa [Number.isSized, UInt64.size] using hk
  obtain ⟨hm₁, hm₂⟩ := hbounds hm
  obtain ⟨hn₁, hn₂⟩ := hbounds hn
  have hsize : UInt64.size = 2 ^ 64 := rfl
  rcases Int.lt_or_le m (2 ^ 63) with hm | hm <;> rcases Int.lt_or_le n (2 ^ 63) with hn | hn
  · rw [number_int_of_lt hm, number_int_of_lt hn] at h
    exact signed_append_inj ⟨hm₁, hm⟩ ⟨hn₁, hn⟩ h
  · rw [number_int_of_lt hm, number_int_of_le hn] at h
    exact absurd (List.cons.inj h).1 (by decide)
  · rw [number_int_of_le hm, number_int_of_lt hn] at h
    exact absurd (List.cons.inj h).1 (by decide)
  · rw [number_int_of_le hm, number_int_of_le hn] at h
    obtain ⟨heq, hrest⟩ := prefixFree_unsigned m.toNat n.toNat
      (by rw [hsize, decide_eq_true_eq]; omega) (by rw [hsize, decide_eq_true_eq]; omega) r s h
    exact ⟨by omega, hrest⟩

/-- Integers and floats begin with different tags. -/
theorem int_ne_float (n : Int) (x : Binary64) (r s : List UInt8) :
    number (.int n) ++ r ≠ number (.float x) ++ s := by
  intro h
  rcases Int.lt_or_le n (2 ^ 63) with hn | hn
  · rw [number_int_of_lt hn] at h
    exact absurd (List.cons.inj h).1 (by decide)
  · rw [number_int_of_le hn] at h
    exact absurd (List.cons.inj h).1 (by decide)

theorem prefixFree_number : PrefixFree Number.isSized number := by
  intro a b ha hb r s h
  cases a with
  | int m =>
    cases b with
    | int n =>
      obtain ⟨rfl, hrest⟩ := int_append_inj ha hb h
      exact ⟨rfl, hrest⟩
    | float y => exact absurd h (int_ne_float m y r s)
  | float x =>
    cases b with
    | int n => exact absurd h.symm (int_ne_float n x s r)
    | float y =>
      obtain ⟨rfl, hrest⟩ := prefixFree_float x y rfl rfl r s h
      exact ⟨rfl, hrest⟩

/-! ## Values -/

/-- Two values of the same kind. -/
inductive SameKind : Json → Json → Prop where
  | null : SameKind .null .null
  | bool (a b : Bool) : SameKind (.bool a) (.bool b)
  | num (a b : Number) : SameKind (.num a) (.num b)
  | str (a b : String) : SameKind (.str a) (.str b)
  | arr (as bs : List Json) : SameKind (.arr as) (.arr bs)
  | obj (as bs : List (String × Json)) : SameKind (.obj as) (.obj bs)

/-- The tags of a value: for each kind its own, and three for numbers. -/
def tags : Json → List Char
  | .null => ['n']
  | .bool _ => ['b']
  | .num _ => ['i', 'u', 'f']
  | .str _ => ['s']
  | .arr _ => ['a']
  | .obj _ => ['o']

theorem exists_tag (a : Json) : ∃ c ∈ tags a, ∃ bytes, value a = tag c :: bytes := by
  cases a with
  | num n =>
    cases n with
    | int n =>
      rcases Int.lt_or_le n (2 ^ 63) with hn | hn
      · exact ⟨'i', by simp [tags], _, number_int_of_lt hn⟩
      · exact ⟨'u', by simp [tags], _, number_int_of_le hn⟩
    | float x => exact ⟨'f', by simp [tags], _, rfl⟩
  | _ => exact ⟨_, List.mem_singleton_self _, _, rfl⟩

/-- Values of different kinds begin with different tags. -/
theorem sameKind_of_value_eq {a b : Json} {r s : List UInt8} (h : value a ++ r = value b ++ s) :
    SameKind a b := by
  obtain ⟨c, hc, as, ha⟩ := exists_tag a
  obtain ⟨d, hd, bs, hb⟩ := exists_tag b
  rw [ha, hb] at h
  have htag : tag c = tag d := (List.cons.inj h).1
  have hapart (hne : (tags a).all (fun c => (tags b).all (fun d => tag c ≠ tag d)) = true) :
      SameKind a b := by
    have hcd := List.all_eq_true.mp (List.all_eq_true.mp hne c hc) d hd
    exact absurd htag (of_decide_eq_true hcd)
  cases a <;> cases b <;> first | constructor | exact hapart rfl

mutual

theorem value_append_inj : (a b : Json) → a.isSized = true → b.isSized = true →
    ∀ r s, value a ++ r = value b ++ s → a = b ∧ r = s
  | .null, b, _, _, r, s, h => by
    cases sameKind_of_value_eq h
    exact ⟨rfl, (List.cons.inj h).2⟩
  | .bool x, b, _, _, r, s, h => by
    cases sameKind_of_value_eq h with
    | bool _ y =>
      obtain ⟨rfl, hrest⟩ := prefixFree_bool x y rfl rfl r s h
      exact ⟨rfl, hrest⟩
  | .num m, b, ha, hb, r, s, h => by
    cases sameKind_of_value_eq h with
    | num _ n =>
      obtain ⟨rfl, hrest⟩ := prefixFree_number m n ha hb r s h
      exact ⟨rfl, hrest⟩
  | .str t, b, ha, hb, r, s, h => by
    cases sameKind_of_value_eq h with
    | str _ u =>
      obtain ⟨rfl, hrest⟩ := prefixFree_text t u ha hb r s h
      exact ⟨rfl, hrest⟩
  | .arr as, b, ha, hb, r, s, h => by
    cases sameKind_of_value_eq h with
    | arr _ bs =>
      rw [Json.isSized, Bool.and_eq_true] at ha hb
      simp only [value, List.cons_append, List.append_assoc, List.cons.injEq, true_and] at h
      obtain ⟨hlength, h⟩ := prefixFree_eightBytes _ _ ha.1 hb.1 _ _ h
      obtain ⟨rfl, hrest⟩ := values_append_inj as bs hlength ha.2 hb.2 r s h
      exact ⟨rfl, hrest⟩
  | .obj as, b, ha, hb, r, s, h => by
    cases sameKind_of_value_eq h with
    | obj _ bs =>
      rw [Json.isSized, Bool.and_eq_true] at ha hb
      simp only [value, List.cons_append, List.append_assoc, List.cons.injEq, true_and] at h
      obtain ⟨hlength, h⟩ := prefixFree_eightBytes _ _ ha.1 hb.1 _ _ h
      obtain ⟨rfl, hrest⟩ := members_append_inj as bs hlength ha.2 hb.2 r s h
      exact ⟨rfl, hrest⟩

/-- Lists of values of the same length. -/
theorem values_append_inj : (as bs : List Json) → as.length = bs.length →
    Json.areSized as = true → Json.areSized bs = true →
    ∀ r s, values as ++ r = values bs ++ s → as = bs ∧ r = s
  | [], bs, hlength, _, _, r, s, h => by
    obtain rfl := List.length_eq_zero_iff.mp hlength.symm
    exact ⟨rfl, h⟩
  | a :: as, bs, hlength, ha, hb, r, s, h => by
    cases bs with
    | nil => cases hlength
    | cons b bs =>
      rw [Json.areSized, Bool.and_eq_true] at ha hb
      rw [values, values, List.append_assoc, List.append_assoc] at h
      obtain ⟨rfl, htail⟩ := value_append_inj a b ha.1 hb.1 _ _ h
      obtain ⟨rfl, hrest⟩ := values_append_inj as bs (Nat.succ.inj hlength) ha.2 hb.2 r s htail
      exact ⟨rfl, hrest⟩

/-- Lists of members of the same length. -/
theorem members_append_inj : (as bs : List (String × Json)) → as.length = bs.length →
    Json.membersAreSized as = true → Json.membersAreSized bs = true →
    ∀ r s, members as ++ r = members bs ++ s → as = bs ∧ r = s
  | [], bs, hlength, _, _, r, s, h => by
    obtain rfl := List.length_eq_zero_iff.mp hlength.symm
    exact ⟨rfl, h⟩
  | (k, a) :: as, bs, hlength, ha, hb, r, s, h => by
    cases bs with
    | nil => cases hlength
    | cons member bs =>
      obtain ⟨l, b⟩ := member
      rw [Json.membersAreSized, Bool.and_eq_true, Bool.and_eq_true] at ha hb
      simp only [members, List.append_assoc] at h
      obtain ⟨rfl, hvalue⟩ := prefixFree_text k l ha.1.1 hb.1.1 _ _ h
      obtain ⟨rfl, htail⟩ := value_append_inj a b ha.1.2 hb.1.2 _ _ hvalue
      obtain ⟨rfl, hrest⟩ := members_append_inj as bs (Nat.succ.inj hlength) ha.2 hb.2 r s htail
      exact ⟨rfl, hrest⟩

end

theorem prefixFree_parameters :
    PrefixFree (fun fields => (Json.obj fields).isSized) parameters := by
  intro as bs ha hb r s h
  -- apart from the tag, parameters are written as an object
  have hobject : value (.obj as) ++ r = value (.obj bs) ++ s :=
    congrArg (tag 'o' :: ·) (List.cons.inj h).2
  obtain ⟨heq, hrest⟩ := value_append_inj (.obj as) (.obj bs) ha hb r s hobject
  exact ⟨Json.obj.inj heq, hrest⟩

end Preimage

/-- Queries with the same `preimage` have the same text, flags, paging and parameters, and with them
the same request body. -/
theorem preimage_determines_query {p q : Frozen} (hp : p.isSized = true) (hq : q.isSized = true)
    (h : p.preimage = q.preimage) :
    p.text = q.text ∧ p.waitForNonStaleResults = q.waitForNonStaleResults
      ∧ p.skipDuplicateChecking = q.skipDuplicateChecking ∧ p.start = q.start
      ∧ p.pageSize = q.pageSize ∧ p.parameters = q.parameters ∧ p.toJson = q.toJson := by
  simp only [Frozen.isSized, Bool.and_eq_true] at hp hq
  obtain ⟨⟨⟨hptext, hpparameters⟩, hpstart⟩, hppageSize⟩ := hp
  obtain ⟨⟨⟨hqtext, hqparameters⟩, hqstart⟩, hqpageSize⟩ := hq
  simp only [Frozen.preimage, List.append_assoc] at h
  obtain ⟨htext, h⟩ := Preimage.prefixFree_text _ _ hptext hqtext _ _ h
  obtain ⟨hwait, h⟩ := Preimage.prefixFree_bool _ _ rfl rfl _ _ h
  obtain ⟨hskip, h⟩ := Preimage.prefixFree_bool _ _ rfl rfl _ _ h
  obtain ⟨hstart, h⟩ := Preimage.prefixFree_optional _ _ hpstart hqstart _ _ h
  obtain ⟨hpageSize, h⟩ := Preimage.prefixFree_optional _ _ hppageSize hqpageSize _ _ h
  obtain ⟨hparameters, -⟩ := Preimage.prefixFree_parameters _ _ hpparameters hqparameters [] []
    (by rw [h])
  refine ⟨htext, hwait, hskip, hstart, hpageSize, hparameters, ?_⟩
  rw [Frozen.toJson, Frozen.toJson, htext, hwait, hskip, hstart, hpageSize, hparameters]

/-- Queries with nested values of all kinds that differ in what is not sent. -/
theorem preimage_determines_query_uncached :
    let nested : Json := .arr [.str "s\x00", .arr [], .obj [("o", .null), ("s", .arr [.bool true])],
      .num (.int (-1)), .num (.int (2 ^ 64 - 1)), .num (.float (Binary64.zero true))]
    let p : Frozen :=
      { text := "from Users where Name in ($p0)", parameters := [("p0", nested)], start := some 0,
        waitForNonStaleResults := true, disableCaching := true }
    let q := { p with disableCaching := false }
    p.isSized = true ∧ q.isSized = true ∧ p.preimage = q.preimage ∧ p ≠ q
      ∧ p.text = q.text ∧ p.waitForNonStaleResults = q.waitForNonStaleResults
      ∧ p.skipDuplicateChecking = q.skipDuplicateChecking ∧ p.start = q.start
      ∧ p.pageSize = q.pageSize ∧ p.parameters = q.parameters ∧ p.toJson = q.toJson := by
  intro nested p q
  have hsized : p.isSized = true ∧ q.isSized = true := by decide +kernel
  have hbytes : p.preimage = q.preimage := rfl
  have hne : p ≠ q := fun h => Bool.noConfusion (congrArg Frozen.disableCaching h)
  exact ⟨hsized.1, hsized.2, hbytes, hne, preimage_determines_query hsized.1 hsized.2 hbytes⟩

end Query

end DocumentSession
