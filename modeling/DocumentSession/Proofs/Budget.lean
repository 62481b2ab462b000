import Mathlib.Algebra.GroupWithZero.Nat
import DocumentSession.Budget
import DocumentSession.Proofs.Keyed

set_option autoImplicit false

/-! # The counts of a budget

The counts of all operations add up to the `count` of the budget (`Budget.Sound`). `Budget.record`
refuses a request if and only if the limit is reached, and then the budget stays as it is; otherwise
it counts the request once, under its operation and in total. The `busiest` operation is one with
the most requests, and of several such operations the first by name. -/

namespace DocumentSession

/-- Inserting `n` under `key` replaces the old entry in the sum. -/
theorem Dict.sum_values_insert {d : Dict Nat} (hd : d.Sorted) (key : String) (n : Nat) :
    (Dict.values (d.insert key n)).sum + (d.find? key).getD 0 = (Dict.values d).sum + n := by
  induction d with
  | nil => simp [Keyed.insert, values]
  | cons entry rest ih =>
    obtain ⟨k, v⟩ := entry
    obtain ⟨hfirst, hrest⟩ := List.pairwise_cons.mp hd
    have hsum : ∀ (k : String) (v : Nat) (rest : Dict Nat),
        (Dict.values ((k, v) :: rest)).sum = v + (Dict.values rest).sum := fun _ _ _ => rfl
    rw [Keyed.insert]
    split
    · next hk =>
      rw [Keyed.find?_cons, if_pos hk, hsum, hsum, Option.getD_some]
      omega
    · next hk =>
      split
      · next hlt =>
        -- the key comes before all others, so it is none of them
        have hnew : Keyed.find? ((k, v) :: rest) key = none := by
          rw [Keyed.find?_eq_none_iff]
          intro hmem
          rcases List.mem_cons.mp hmem with rfl | hmem
          · exact hk rfl
          · exact String.lt_irrefl key (String.lt_trans hlt (hfirst key hmem))
        rw [hnew, hsum, Option.getD_none]
        omega
      · have hlater := ih hrest
        rw [Keyed.find?_cons, if_neg hk, hsum, hsum]
        omega

/-- No operation has a higher count, and those with the same count come later by name. -/
structure Busiest (count : String → Nat) (operation : String) : Prop where
  used : 0 < count operation
  most : ∀ other, count other < count operation
    ∨ (count other = count operation ∧ operation ≤ other)

/-- At most one operation is the busiest. -/
theorem Busiest.unique {count : String → Nat} {operation operation' : String}
    (h : Busiest count operation) (h' : Busiest count operation') : operation = operation' := by
  rcases h.most operation' with hlt | ⟨-, hle⟩
  · rcases h'.most operation with hlt' | ⟨heq, -⟩
    · omega
    · omega
  · rcases h'.most operation with hlt' | ⟨-, hle'⟩
    · rcases h.most operation' with hlt | ⟨heq, -⟩
      · omega
      · omega
    · exact String.le_antisymm hle hle'

namespace Budget

variable {b : Budget}

/-! ## Counting -/

/-- Whether counting one more request gives a warning. -/
def isDue (b : Budget) : Bool :=
  !b.warned && isNearlyUsed (b.count + 1) b.max

/-- The budget once a request for `operation` is counted. -/
def counted (b : Budget) (operation : String) : Budget :=
  { b with
    count := b.count + 1
    byOperation := b.byOperation.alter operation (fun n => n.getD 0 + 1)
    warned := b.warned || isNearlyUsed (b.count + 1) b.max }

theorem record_of_full (h : b.max ≤ b.count) (operation : String) :
    b.record operation = (.error (.budgetExceeded b.max), some .budgetExhausted, b) := by
  unfold record
  rw [if_pos h]

theorem record_of_room (h : b.count < b.max) (operation : String) :
    b.record operation
      = (.ok (), if b.isDue then some .budgetNearlyExhausted else none, b.counted operation) := by
  unfold record counted isDue
  rw [if_neg (Nat.not_le.mpr h)]
  dsimp only
  cases hwarned : b.warned with
  | true => rfl
  | false =>
    cases hnearly : isNearlyUsed (b.count + 1) b.max with
    | true => rfl
    | false => rfl

theorem countFor_counted (b : Budget) (operation operation' : String) :
    (b.counted operation).countFor operation'
      = b.countFor operation' + if operation = operation' then 1 else 0 := by
  unfold countFor counted Dict.alter
  rw [Keyed.find?_insert]
  split
  · next heq =>
    subst heq
    rfl
  · rfl

/-! ## Sums -/

/-- The counts of the operations add up to `count`, and no operation with the count 0 is listed. -/
structure Sound (b : Budget) : Prop where
  sorted : b.byOperation.Sorted
  sum : b.byOperation.values.sum = b.count
  used : ∀ entry ∈ b.byOperation, 0 < entry.2

namespace Sound

theorem of_empty (hcount : b.count = 0) (hempty : b.byOperation = []) : b.Sound := by
  refine ⟨?_, ?_, ?_⟩
  · rw [hempty]
    exact Keyed.sorted_nil
  · rw [hempty, hcount]
    rfl
  · rw [hempty]
    exact fun _ hmem => (List.not_mem_nil hmem).elim

theorem counted (h : b.Sound) (operation : String) : (b.counted operation).Sound := by
  refine ⟨Keyed.sorted_insert h.sorted _ _, ?_, ?_⟩
  · have hsum := Dict.sum_values_insert h.sorted operation
      ((b.byOperation.find? operation).getD 0 + 1)
    have hbefore := h.sum
    show (Dict.values (b.byOperation.insert operation
      ((b.byOperation.find? operation).getD 0 + 1))).sum = b.count + 1
    omega
  · intro entry hmem
    rcases Keyed.mem_of_mem_insert hmem with rfl | hbefore
    · exact Nat.succ_pos _
    · exact h.used entry hbefore

theorem setMax (h : b.Sound) (max : Nat) : (b.setMax max).Sound :=
  ⟨h.sorted, h.sum, h.used⟩

theorem countFor_of_mem (h : b.Sound) {operation : String} {n : Nat}
    (hmem : (operation, n) ∈ b.byOperation) : b.countFor operation = n := by
  unfold countFor
  rw [Keyed.find?_of_mem h.sorted hmem]
  rfl

end Sound

/-! ## The busiest operation -/

/-- `best` is preferred to `entry`: it has more requests, or as many and a name that comes first. -/
def AtMostAsBusy (entry best : String × Nat) : Prop :=
  entry.2 < best.2 ∨ (entry.2 = best.2 ∧ best.1 ≤ entry.1)

theorem AtMostAsBusy.refl (entry : String × Nat) : AtMostAsBusy entry entry :=
  Or.inr ⟨rfl, String.le_refl _⟩

theorem AtMostAsBusy.trans {a b c : String × Nat} (h : AtMostAsBusy a b) (h' : AtMostAsBusy b c) :
    AtMostAsBusy a c := by
  rcases h with hlt | ⟨heq, hle⟩
  · rcases h' with hlt' | ⟨heq', -⟩
    · exact Or.inl (Nat.lt_trans hlt hlt')
    · exact Or.inl (heq' ▸ hlt)
  · rcases h' with hlt' | ⟨heq', hle'⟩
    · exact Or.inl (heq ▸ hlt')
    · exact Or.inr ⟨heq.trans heq', String.le_trans hle' hle⟩

/-- `busier` takes one of two entries, and prefers it to the other. -/
theorem busier_some (best entry : String × Nat) :
    ∃ busiest, busier (some best) entry = some busiest ∧ (busiest = best ∨ busiest = entry)
      ∧ AtMostAsBusy best busiest ∧ AtMostAsBusy entry busiest := by
  unfold busier
  dsimp only
  split
  · next hbusier =>
    refine ⟨entry, rfl, Or.inr rfl, ?_, .refl entry⟩
    rcases hbusier with hlt | ⟨heq, hlt⟩
    · exact Or.inl hlt
    · exact Or.inr ⟨heq, String.not_lt.mp (fun hgt =>
        String.lt_irrefl _ (String.lt_trans hlt hgt))⟩
  · next hidle =>
    rw [not_or, not_and] at hidle
    refine ⟨best, rfl, Or.inl rfl, .refl best, ?_⟩
    rcases Nat.lt_or_ge entry.2 best.2 with hlt | hge
    · exact Or.inl hlt
    · have heq : best.2 = entry.2 := Nat.le_antisymm hge (Nat.not_lt.mp hidle.1)
      exact Or.inr ⟨heq.symm, String.not_lt.mp (hidle.2 heq)⟩

/-- Folding `busier` takes one of the entries, and prefers it to all others. -/
theorem foldl_busier (entries : List (String × Nat)) (best : String × Nat) :
    ∃ busiest, entries.foldl busier (some best) = some busiest ∧ busiest ∈ best :: entries
      ∧ ∀ entry ∈ best :: entries, AtMostAsBusy entry busiest := by
  induction entries generalizing best with
  | nil =>
    exact ⟨best, rfl, List.mem_singleton_self _, List.forall_mem_singleton.mpr (.refl best)⟩
  | cons first rest ih =>
    obtain ⟨better, hbetter, htaken, hbest, hfirst⟩ := busier_some best first
    obtain ⟨busiest, hfold, hmem, hall⟩ := ih better
    obtain ⟨hbehind, hrest⟩ := List.forall_mem_cons.mp hall
    refine ⟨busiest, ?_, ?_, ?_⟩
    · rw [List.foldl_cons, hbetter]
      exact hfold
    · rcases List.mem_cons.mp hmem with rfl | hmem
      · rcases htaken with rfl | rfl
        · exact List.mem_cons_self ..
        · exact List.mem_cons_of_mem _ (List.mem_cons_self ..)
      · exact List.mem_cons_of_mem _ (List.mem_cons_of_mem _ hmem)
    · refine List.forall_mem_cons.mpr ⟨hbest.trans hbehind, ?_⟩
      exact List.forall_mem_cons.mpr ⟨hfirst.trans hbehind, hrest⟩

theorem Sound.busiest (h : b.Sound) :
    (b.byOperation = [] ∧ b.stats.busiest = none)
      ∨ ∃ operation, b.stats.busiest = some operation ∧ Busiest b.countFor operation := by
  unfold stats
  cases hlist : b.byOperation with
  | nil => exact Or.inl ⟨rfl, rfl⟩
  | cons first rest =>
    obtain ⟨⟨operation, n⟩, hfold, hmem, hall⟩ := foldl_busier rest first
    rw [← hlist] at hmem hall
    have hcount := h.countFor_of_mem hmem
    refine Or.inr ⟨operation, ?_, ⟨?_, ?_⟩⟩
    · show (rest.foldl busier (some first)).map (·.1) = some operation
      rw [hfold]
      rfl
    · rw [hcount]
      exact h.used _ hmem
    · intro other
      rw [hcount]
      cases hother : b.byOperation.find? other with
      | none =>
        rw [countFor, hother]
        exact Or.inl (h.used _ hmem)
      | some m =>
        have hlisted := Keyed.mem_of_find? hother
        rw [h.countFor_of_mem hlisted]
        exact hall _ hlisted

/-- The `busiest` operation in `stats` is the one that `Busiest` describes. -/
theorem Sound.busiest_eq_some_iff (h : b.Sound) (operation : String) :
    b.stats.busiest = some operation ↔ Busiest b.countFor operation := by
  rcases h.busiest with ⟨hempty, hnone⟩ | ⟨busiest, hsome, hbusiest⟩
  · rw [hnone]
    refine ⟨fun heq => (nomatch heq), fun hbusy => ?_⟩
    have hused := hbusy.used
    rw [countFor, hempty] at hused
    exact absurd hused (Nat.lt_irrefl 0)
  · rw [hsome, Option.some_inj]
    exact ⟨fun heq => heq ▸ hbusiest, hbusiest.unique⟩

end Budget

end DocumentSession
