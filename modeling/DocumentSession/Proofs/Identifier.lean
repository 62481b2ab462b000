import DocumentSession.Identifier
import Mathlib.Data.List.Basic

set_option autoImplicit false

/-! # The end of an identifier

`normalize` compares identifiers in lower case, which may change how they end. It does not where the
last character is one that lower case neither changes nor makes (`Text.Caseless`), as `/` is: then
of two identifiers that are the same up to case, both are incomplete or none. -/

namespace DocumentSession

namespace Text

/-- Lower case keeps `c`, and makes no text that ends with `c` out of another. -/
structure Caseless (c : Char) : Prop where
  no_sigma : c ≠ 'Σ' ∧ c ≠ 'σ' ∧ c ≠ 'ς'
  last_lowerChar : ∀ d, (lowerChar d).getLast? = some c ↔ d = c

theorem lowerChar_ne_nil (c : Char) : lowerChar c ≠ [] := by
  unfold lowerChar
  dsimp only
  split
  · exact List.cons_ne_nil _ _
  · split
    · exact List.cons_ne_nil _ _
    · split <;> exact List.cons_ne_nil _ _

theorem lowerAfter_ne_nil {before cs : List Char} (h : cs ≠ []) : lowerAfter before cs ≠ [] := by
  cases cs with
  | nil => exact absurd rfl h
  | cons c cs =>
    rw [lowerAfter]
    refine List.append_ne_nil_of_left_ne_nil ?_ _
    split
    · exact List.cons_ne_nil _ _
    · exact lowerChar_ne_nil c

theorem getLast?_lowerAfter {c : Char} (h : Caseless c) (before cs : List Char) :
    (lowerAfter before cs).getLast? = some c ↔ cs.getLast? = some c := by
  induction cs generalizing before with
  | nil => rfl
  | cons d cs ih =>
    rw [lowerAfter]
    cases cs with
    | nil =>
      rw [lowerAfter, List.append_nil, List.getLast?_singleton, Option.some.injEq]
      split
      · next hsigma =>
        subst hsigma
        obtain ⟨hcapital, hsmall, hfinal⟩ := h.no_sigma
        split <;> simp [hcapital.symm, hsmall.symm, hfinal.symm]
      · exact h.last_lowerChar d
    | cons e cs =>
      have hne : lowerAfter (d :: before) (e :: cs) ≠ [] := lowerAfter_ne_nil (by simp)
      rw [List.getLast?_append_of_ne_nil _ hne, List.getLast?_cons_cons]
      exact ih (d :: before)

theorem toLower_eq_slash {c : Char} (h : c.toLower = '/') : c = '/' := by
  unfold Char.toLower at h
  split at h
  · next hcapital =>
    -- a capital becomes a letter
    have hval := congrArg (fun c => c.val.toNat) h
    have hlow := UInt32.le_iff_toNat_le.mp hcapital.1
    have hhigh := UInt32.le_iff_toNat_le.mp hcapital.2
    simp only [↓Char.isValue, Char.reduceVal, UInt32.reduceSub, UInt32.toNat_add, Char.toNat_val,
      UInt32.reduceToNat, Nat.reducePow] at hval hlow hhigh
    omega
  · exact h

theorem ofNat_eq_slash {n : Nat} (h : Char.ofNat n = '/') : n = 47 := by
  by_cases hvalid : n.isValidChar
  · have haux : Char.ofNatAux n hvalid = '/' := (dif_pos hvalid).symm.trans h
    exact congrArg Char.toNat haux
  · have hnull : Char.ofNat n = Char.ofNatAux 0 (by decide) := dif_neg hvalid
    rw [hnull] at h
    cases h

theorem caseless_slash : Caseless '/' := by
  refine ⟨by decide, ?_⟩
  intro d
  constructor
  · unfold lowerChar
    dsimp only
    split
    · intro h
      exact toLower_eq_slash (Option.some.inj h)
    · split
      · intro h
        cases Option.some.inj h
      · split
        · next r hr =>
          intro h
          -- no range leads as far down as a slash
          have hranges : ∀ r ∈ lowerRanges, 47 < (r.first : Int) + r.offset := by decide +kernel
          have hrange := hranges r (List.mem_of_find?_eq_some hr)
          have hfirst := List.find?_some hr
          have hcode := ofNat_eq_slash (Option.some.inj h)
          simp only [decide_eq_true_eq] at hfirst
          omega
        · intro h
          exact Option.some.inj h
  · rintro rfl
    decide

end Text

namespace Identifier

/-- `normalize` does not change whether an identifier ends with a caseless character. -/
theorem endsWith_normalize {c : Char} (h : Text.Caseless c) (id : String) :
    endsWith (normalize id) c = endsWith id c := by
  unfold endsWith normalize Text.lower
  rw [String.toList_ofList, decide_eq_decide]
  exact Text.getLast?_lowerAfter h [] id.toList

/-- Of two identifiers that are the same up to case, both are incomplete or none. -/
theorem isIncomplete_congr {separator : Char} (h : Text.Caseless separator) {id id' : String}
    (hsame : normalize id = normalize id') :
    isIncomplete id separator = isIncomplete id' separator := by
  unfold isIncomplete
  rw [← endsWith_normalize h id, ← endsWith_normalize h id', hsame]

end Identifier

end DocumentSession
