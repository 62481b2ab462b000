import DocumentSession.Error
import DocumentSession.Warning

set_option autoImplicit false

/-! # The request budget

A session may send a limited number of requests. Each one is counted under the operation it is for;
one beyond the limit is refused and not counted. Once four fifths of the budget are used, a warning
is given, and not again until the limit is changed. -/

namespace DocumentSession

/-- The requests of a session. -/
structure Budget where
  max : Nat
  count : Nat := 0
  /-- The requests of each operation that has sent one. -/
  byOperation : Dict Nat := []
  warned : Bool := false

/-- A summary of the requests of a session. -/
structure RequestStats where
  total : Nat
  /-- How many operations have sent requests. -/
  operations : Nat
  /-- The operation with the most requests. -/
  busiest : Option String
  deriving DecidableEq, Repr

namespace Budget

/-- Whether four fifths of the budget are used. -/
def isNearlyUsed (count max : Nat) : Bool :=
  5 * count ≥ 4 * max

/-- Count a request before it is sent: the error if it is refused, the warning if one is due, and
the budget after it. -/
def record (b : Budget) (operation : String) : Except Error Unit × Option Warning × Budget :=
  if b.count ≥ b.max then (.error (.budgetExceeded b.max), some .budgetExhausted, b)
  else
    let counted :=
      { b with
        count := b.count + 1
        byOperation := b.byOperation.alter operation (fun n => n.getD 0 + 1) }
    if !b.warned && isNearlyUsed counted.count b.max then
      (.ok (), some .budgetNearlyExhausted, { counted with warned := true })
    else (.ok (), none, counted)

/-- The requests of an operation. -/
def countFor (b : Budget) (operation : String) : Nat :=
  (b.byOperation.find? operation).getD 0

/-- Change the limit. -/
def setMax (b : Budget) (max : Nat) : Budget :=
  { b with max, warned := false }

/-- Count from zero again. -/
def reset (b : Budget) : Budget :=
  { b with count := 0, byOperation := [], warned := false }

/-- Of two operations the one with more requests; of equally many the one whose name comes first. -/
def busier (best : Option (String × Nat)) (entry : String × Nat) : Option (String × Nat) :=
  match best with
  | none => some entry
  | some b =>
    if b.2 < entry.2 ∨ (b.2 = entry.2 ∧ entry.1 < b.1) then some entry else some b

/-- The summary of a budget. -/
def stats (b : Budget) : RequestStats :=
  { total := b.count
    operations := b.byOperation.length
    busiest := (b.byOperation.foldl busier none).map (·.1) }

end Budget

end DocumentSession
