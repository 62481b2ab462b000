import DocumentSession.Query.Call
import Mathlib.Data.List.Basic

set_option autoImplicit false

/-! # What calls do to the where clause

A `Call` keeps the where clause, or adds an operand, an opened group, a closing parenthesis or a
connective at its end, or puts a modifier on the condition that ends it (`clauseStep_call`). What
each of these keeps is kept by all calls (`build_induction`). -/

namespace DocumentSession.Query

/-- The query with other parameters. -/
def withParameters (q : Query) (parameters : Fields) : Query :=
  { q with parameters }

/-! ## Steps that may be refused -/

theorem ok_of_bind_eq_ok {α β : Type} {r : Except Error α} {f : α → Except Error β} {b : β}
    (h : (r >>= f) = .ok b) : ∃ a, r = .ok a ∧ f a = .ok b := by
  cases r with
  | error e => cases h
  | ok a => exact ⟨a, rfl, h⟩

theorem raw_of_refuseRaw_eq_ok {q : Query} {u : Unit} (h : q.refuseRaw = .ok u) : q.raw = none := by
  unfold refuseRaw isRaw at h
  split at h
  · cases h
  · next hraw => simpa using hraw

theorem ok_of_refuseRaw_bind {α : Type} {q : Query} {r : Except Error α} {a : α}
    (h : (q.refuseRaw >>= fun _ => r) = .ok a) : q.raw = none ∧ r = .ok a := by
  obtain ⟨u, hraw, hr⟩ := ok_of_bind_eq_ok h
  exact ⟨raw_of_refuseRaw_eq_ok hraw, hr⟩

/-- What holds of a refused call, which keeps the query, and of its result otherwise, holds of
`attempt`. -/
theorem attempt_cases {P : Option Error × Query → Prop} {q : Query} {r : Except Error Query}
    (refused : ∀ e, P (some e, q)) (ok : ∀ q', r = .ok q' → P (none, q')) : P (q.attempt r) := by
  cases r with
  | error e => exact refused e
  | ok q' => exact ok q' rfl

theorem unlessRaw_cases {P : Option Error × Query → Prop} {q q' : Query}
    (refused : ∀ e, P (some e, q)) (ok : q.raw = none → P (none, q')) : P (q.unlessRaw q') := by
  refine attempt_cases refused fun q'' hq => ?_
  cases hraw : q.refuseRaw with
  | error e => rw [hraw] at hq; cases hq
  | ok u =>
    rw [hraw] at hq
    obtain rfl := Except.ok.inj hq
    exact ok (raw_of_refuseRaw_eq_ok hraw)

/-! ## Names of parameters -/

/-- The parameters of a shape. -/
def Shape.parameters : Shape → List String
  | .circle radius latitude longitude _ => [radius, latitude, longitude]
  | .wellKnownText shape _ => [shape]

/-- The parameters of a demand. -/
def Demand.parameters : Demand → List String
  | .compare _ p | .oneOf p | .allOf p | .textMatch _ p | .search _ p => [p]
  | .between low high => [low, high]
  | .present => []
  | .spatial _ shape => shape.elim [] Shape.parameters

/-- Whether a name has only letters, digits and `_`. -/
def isWord (name : String) : Bool :=
  name.toList.all (isPlain ['_'])

theorem isWord_toString (n : Nat) : isWord (toString n) = true := by
  rw [isWord, Nat.toString_eq_repr, Nat.toList_repr, List.all_eq_true]
  intro c hc
  have hdigit := Nat.isDigit_of_mem_toDigits (by decide) (by decide) hc
  simp [isPlain, Char.isAlphanum, hdigit]

theorem isWord_freshName (parameters : Fields) : isWord (freshName parameters) = true := by
  unfold freshName
  cases hfound : (candidates parameters).find? (fun name => !Keyed.contains parameters name) with
  | none => rfl
  | some name =>
    obtain ⟨i, -, rfl⟩ := List.mem_map.mp (List.mem_of_find?_eq_some hfound)
    have hnumber := isWord_toString (parameters.length + i)
    rw [isWord] at hnumber ⊢
    rw [Option.getD_some, String.toList_append, List.all_append, hnumber]
    decide

/-! ## One call -/

/-- The call gives a condition a boost or fuzziness. -/
def Call.isWeight : Call → Bool
  | .boost _ | .fuzzy _ => true
  | _ => false

/-- An operand as calls give it: without modifiers but `exact`. -/
inductive IsOperand : Token → Prop where
  | always : IsOperand .always
  | condition {field : String} {demand : Demand} {exact : Bool}
      (names : ∀ name ∈ demand.parameters, isWord name = true) :
      IsOperand (.condition { field, demand, exact })

/-- What the call does to the where clause. -/
inductive ClauseStep (c : Call) (q q' : Query) : Prop where
  | kept (tokens : q'.tokens = q.tokens) (depth : q'.depth = q.depth)
      (raw : q'.raw = q.raw ∨ q.tokens = [])
  | operand {field : Option String} {t : Token} (operand : IsOperand t)
      (tokens : q'.tokens = q.prepared field ++ [t]) (depth : q'.depth = q.depth)
      (raw : q'.raw = none)
  | opened (tokens : q'.tokens = q.prepared none ++ [.openGroup]) (depth : q'.depth = q.depth + 1)
      (raw : q'.raw = none) (call : c = .openGroup)
  | closed (opened : q.depth ≠ 0) (tokens : q'.tokens = q.tokens ++ [.closeGroup])
      (depth : q'.depth = q.depth - 1) (raw : q'.raw = none) (call : c = .closeGroup)
  | joined {connective : Connective} (operand : q.tokens.getLast?.any Token.endsOperand = true)
      (tokens : q'.tokens = q.tokens ++ [.connective connective]) (depth : q'.depth = q.depth)
      (raw : q'.raw = none)
  | modified {before : List Token} {last last' : Condition}
      (ends : q.tokens = before ++ [.condition last])
      (tokens : q'.tokens = before ++ [.condition last'])
      (field : last'.field = last.field) (demand : last'.demand = last.demand)
      (weight : c.isWeight = false → last'.boost = last.boost ∧ last'.fuzzy = last.fuzzy)
      (depth : q'.depth = q.depth) (raw : q'.raw = none)

namespace ClauseStep

variable {c : Call} {q q' : Query}

theorem refl (c : Call) (q : Query) : ClauseStep c q q :=
  .kept rfl rfl (Or.inl rfl)

theorem of_attempt {r : Except Error Query} (h : ∀ q', r = .ok q' → ClauseStep c q q') :
    ClauseStep c q (q.attempt r).2 :=
  attempt_cases (P := fun outcome => ClauseStep c q outcome.2) (fun _ => .refl c q) h

theorem of_unlessRaw (h : q.raw = none → ClauseStep c q q') :
    ClauseStep c q (q.unlessRaw q').2 :=
  unlessRaw_cases (P := fun outcome => ClauseStep c q outcome.2) (fun _ => .refl c q) h

/-- Parameters that are bound first make no difference to what `pushCondition` adds. -/
theorem of_pushCondition (hraw : q.raw = none) (parameters : Fields) (field : String)
    {demand : Demand} (exact : Bool) (hnames : ∀ name ∈ demand.parameters, isWord name = true) :
    ClauseStep c q ((q.withParameters parameters).pushCondition field demand exact) :=
  .operand (.condition hnames) rfl rfl hraw

theorem of_pushValue {field : String} {value : Literal} {exact : Bool} {demand : String → Demand}
    (hnames : ∀ name, isWord name = true → ∀ p ∈ (demand name).parameters, isWord p = true)
    (h : q.pushValue field value exact demand = .ok q') : ClauseStep c q q' := by
  obtain ⟨hraw, h⟩ := ok_of_refuseRaw_bind h
  obtain ⟨json, -, h⟩ := ok_of_bind_eq_ok h
  obtain rfl := Except.ok.inj h
  exact of_pushCondition hraw _ field exact (hnames _ (isWord_freshName _))

theorem of_pushValues {field : String} {values : List Literal} {demand : String → Demand}
    (hnames : ∀ name, isWord name = true → ∀ p ∈ (demand name).parameters, isWord p = true)
    (h : (arrayOf values >>= fun array => q.pushValue field array false demand) = .ok q') :
    ClauseStep c q q' := by
  obtain ⟨array, -, h⟩ := ok_of_bind_eq_ok h
  exact of_pushValue hnames h

theorem of_pushBetween (field : String) (low high : Literal) :
    ClauseStep c q (q.pushBetween field low high).2 := by
  unfold pushBetween
  split
  · exact .refl c q
  · next lowValue hlow =>
    obtain ⟨hraw, -⟩ := ok_of_refuseRaw_bind hlow
    dsimp only
    split
    · exact .kept rfl rfl (Or.inl rfl)
    · refine of_pushCondition hraw _ field false ?_
      simp [Demand.parameters, isWord_freshName, bind]

theorem of_lastCondition {modifier : String} {before : List Token} {last : Condition}
    (h : q.lastCondition modifier = .ok (before, last)) :
    q.raw = none ∧ q.tokens = before ++ [.condition last] := by
  obtain ⟨hraw, h⟩ := ok_of_refuseRaw_bind h
  refine ⟨hraw, ?_⟩
  split at h
  · next c hlast =>
    obtain ⟨rfl, rfl⟩ := Prod.mk.inj (Except.ok.inj h)
    exact (List.dropLast_append_getLast? _ hlast).symm
  · cases h
  · cases h

theorem of_boostLast {factor : Binary64} (hc : c.isWeight = true)
    (h : q.boostLast factor = .ok q') : ClauseStep c q q' := by
  unfold boostLast at h
  split at h
  · cases h
  · obtain ⟨⟨before, last⟩, hlast, h⟩ := ok_of_bind_eq_ok h
    obtain ⟨hraw, hends⟩ := of_lastCondition hlast
    dsimp only at h
    split at h
    · obtain rfl := Except.ok.inj h
      exact .modified hends rfl rfl rfl (by simp [hc]) rfl hraw
    · obtain rfl := Except.ok.inj h
      exact .refl c q

theorem of_fuzzyLast {distance : Binary64} (hc : c.isWeight = true)
    (h : q.fuzzyLast distance = .ok q') : ClauseStep c q q' := by
  unfold fuzzyLast at h
  split at h
  · cases h
  · obtain ⟨⟨before, last⟩, hlast, h⟩ := ok_of_bind_eq_ok h
    obtain ⟨hraw, hends⟩ := of_lastCondition hlast
    obtain rfl := Except.ok.inj h
    exact .modified hends rfl rfl rfl (by simp [hc]) rfl hraw

theorem of_proximityLast {distance : Nat} (h : q.proximityLast distance = .ok q') :
    ClauseStep c q q' := by
  unfold proximityLast at h
  split at h
  · cases h
  · obtain ⟨⟨before, last⟩, hlast, h⟩ := ok_of_bind_eq_ok h
    obtain ⟨hraw, hends⟩ := of_lastCondition hlast
    dsimp only at h
    split at h
    · obtain rfl := Except.ok.inj h
      exact .modified hends rfl rfl rfl (fun _ => ⟨rfl, rfl⟩) rfl hraw
    · cases h

theorem of_close (h : q.close = .ok q') : ClauseStep .closeGroup q q' := by
  obtain ⟨hraw, h⟩ := ok_of_refuseRaw_bind h
  split at h
  · cases h
  · next hdepth =>
    obtain rfl := Except.ok.inj h
    exact .closed hdepth rfl rfl hraw rfl

theorem of_join {connective : Connective} (h : q.join connective = .ok q') :
    ClauseStep c q q' := by
  obtain ⟨hraw, h⟩ := ok_of_refuseRaw_bind h
  split at h
  · obtain rfl := Except.ok.inj h
    exact .refl c q
  · cases h
  · cases h
  · cases h
  · next t hlast hconnective hopen hnegation =>
    obtain rfl := Except.ok.inj h
    refine .joined ?_ rfl rfl hraw
    cases t <;> simp_all [Token.endsOperand]

theorem of_setRaw {text : String} (h : q.setRaw text = .ok q') : ClauseStep c q q' := by
  obtain ⟨hraw, h⟩ := ok_of_refuseRaw_bind h
  split at h
  · cases h
  · next hempty =>
    obtain rfl := Except.ok.inj h
    refine .kept rfl rfl (Or.inr ?_)
    exact Decidable.byContradiction fun hne => hempty (Or.inl hne)

/-- A call that adds to another clause. -/
theorem of_kept {q₁ : Query} (h : (q.refuseRaw >>= fun _ => .ok q₁) = .ok q')
    (tokens : q₁.tokens = q.tokens) (depth : q₁.depth = q.depth) (raw : q₁.raw = q.raw) :
    ClauseStep c q q' := by
  obtain ⟨-, h⟩ := ok_of_refuseRaw_bind h
  obtain rfl := Except.ok.inj h
  exact .kept tokens depth (Or.inl raw)

theorem of_bindAs {name : String} {value : Literal} (h : q.bindAs name value = .ok q') :
    ClauseStep c q q' := by
  unfold bindAs at h
  dsimp only at h
  -- with and without the mark in front of the name
  split at h
  all_goals
    split at h
    · cases h
    · split at h
      · cases h
      · obtain ⟨json, -, h⟩ := ok_of_bind_eq_ok h
        obtain rfl := Except.ok.inj h
        exact .kept rfl rfl (Or.inl rfl)

theorem of_setName {name : String} (h : q.setName name = .ok q') : ClauseStep c q q' := by
  obtain ⟨-, h⟩ := ok_of_refuseRaw_bind h
  obtain ⟨-, -, h⟩ := ok_of_bind_eq_ok h
  obtain rfl := Except.ok.inj h
  exact .kept rfl rfl (Or.inl rfl)

theorem of_pushLoad {l : Load} (h : q.pushLoad l = .ok q') : ClauseStep c q q' := by
  obtain ⟨-, h⟩ := ok_of_refuseRaw_bind h
  obtain ⟨-, -, h⟩ := ok_of_bind_eq_ok h
  obtain rfl := Except.ok.inj h
  exact .kept rfl rfl (Or.inl rfl)

theorem of_setConnective {connective : Connective} (h : q.setConnective connective = .ok q') :
    ClauseStep c q q' := by
  obtain ⟨-, h⟩ := ok_of_refuseRaw_bind h
  split at h
  · cases h
  · obtain rfl := Except.ok.inj h
    exact .kept rfl rfl (Or.inl rfl)

theorem of_setDistinct (h : q.setDistinct = .ok q') : ClauseStep c q q' := by
  obtain ⟨-, h⟩ := ok_of_refuseRaw_bind h
  split at h
  · cases h
  · obtain rfl := Except.ok.inj h
    exact .kept rfl rfl (Or.inl rfl)

theorem of_pushInclude {path : String} (h : q.pushInclude path = .ok q') : ClauseStep c q q' := by
  obtain ⟨-, h⟩ := ok_of_refuseRaw_bind h
  split at h
  · obtain rfl := Except.ok.inj h
    exact .refl c q
  · obtain rfl := Except.ok.inj h
    exact .kept rfl rfl (Or.inl rfl)

theorem of_pushGroups {fields : List String} (h : q.pushGroups fields = .ok q') :
    ClauseStep c q q' := by
  obtain ⟨-, h⟩ := ok_of_refuseRaw_bind h
  split at h
  · cases h
  · obtain rfl := Except.ok.inj h
    exact .kept rfl rfl (Or.inl rfl)

end ClauseStep

/-- Every call does one of the steps to the where clause. -/
theorem clauseStep_call (c : Call) (q : Query) : ClauseStep c q (q.call c).2 := by
  cases c with
  | compare | textMatch | search =>
    exact .of_attempt fun _ => .of_pushValue (by simp [Demand.parameters])
  | oneOf | allOf => exact .of_attempt fun _ => .of_pushValues (by simp [Demand.parameters])
  | between field low high => exact .of_pushBetween field low high
  | present field =>
    exact .of_unlessRaw fun hraw =>
      .of_pushCondition hraw q.parameters field false (by simp [Demand.parameters])
  | always => exact .of_unlessRaw fun hraw => .operand .always rfl rfl hraw
  | withinRadius field =>
    exact .of_unlessRaw fun hraw => .of_pushCondition hraw _ field false
      (by simp [Demand.parameters, Shape.parameters, isWord_freshName])
  | relatesTo field =>
    exact .of_unlessRaw fun hraw => .of_pushCondition hraw _ field false
      (by simp [Demand.parameters, Shape.parameters, isWord_freshName])
  | boost => exact .of_attempt fun _ => .of_boostLast rfl
  | fuzzy => exact .of_attempt fun _ => .of_fuzzyLast rfl
  | proximity => exact .of_attempt fun _ => .of_proximityLast
  | openGroup => exact .of_unlessRaw fun hraw => .opened rfl rfl hraw rfl
  | closeGroup => exact .of_attempt fun _ => .of_close
  | connective => exact .of_attempt fun _ => .of_join
  | negateNext => exact .of_unlessRaw fun _ => .kept rfl rfl (Or.inl rfl)
  | usualConnective => exact .of_attempt fun _ => .of_setConnective
  | raw => exact .of_attempt fun _ => .of_setRaw
  | parameter => exact .of_attempt fun _ => .of_bindAs
  | nameSource => exact .of_attempt fun _ => .of_setName
  | load => exact .of_attempt fun _ => .of_pushLoad
  | distinct => exact .of_attempt fun _ => .of_setDistinct
  | includePath => exact .of_attempt fun _ => .of_pushInclude
  | groupBy => exact .of_attempt fun _ => .of_pushGroups
  | orderBy | orderByScore | orderRandomly | select | selectAs | declare | groupKey | groupSum
  | groupCount =>
    exact .of_attempt fun _ h => .of_kept h rfl rfl rfl
  | skip | take | waitForNonStaleResults | noTracking | noCaching | skipDuplicateChecking =>
    exact .kept rfl rfl (Or.inl rfl)

/-! ## All calls -/

/-- What every call keeps is kept by `build`. -/
theorem build_induction {P : Query → Prop} {q : Query} (hq : P q) {calls : List Call}
    (hcall : ∀ c ∈ calls, ∀ q, P q → P (q.call c).2) : P (q.build calls) := by
  induction calls generalizing q with
  | nil => exact hq
  | cons c rest ih =>
    exact ih (hcall c (List.mem_cons_self ..) q hq)
      (fun c' hc' => hcall c' (List.mem_cons_of_mem c hc'))

/-- The calls that are not refused. -/
def accepted (q : Query) : List Call → List Call
  | [] => []
  | c :: rest =>
    match q.call c with
    | (none, q) => c :: accepted q rest
    | (some _, q) => accepted q rest

theorem accepted_cons (q : Query) (c : Call) (rest : List Call) :
    q.accepted (c :: rest) = q.accepted [c] ++ (q.call c).2.accepted rest := by
  rcases hcall : q.call c with ⟨_ | e, q'⟩ <;> simp [accepted, hcall]

end DocumentSession.Query
