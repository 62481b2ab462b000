import DocumentSession.Proofs.Query.Building
import DocumentSession.Proofs.Keyed
import Mathlib.Data.List.Forall2
import Mathlib.Data.List.Perm.Subperm

set_option autoImplicit false

/-! # Parameters of a query

The parameters of a query are bound one by one, each to a name that no parameter had before
(`Binds`), so no binding is lost or changed. Some conditions take their values from parameters: the
call that adds such a condition binds the values it gives, in order, and the condition has the names
(`bindStep_call`).

`freshName` is `p` with a number, counted up from the number of parameters until no parameter has
the name (`freshName_spec`). Names that calls choose for themselves may be of the same form. Still
every name in a where clause stands in one place and is bound to the value given for that place
(`parameters_bound_once`). -/

namespace DocumentSession.Query

/-! ## New names -/

theorem nodup_candidates (ps : Fields) : (candidates ps).Nodup := by
  refine List.Nodup.map ?_ List.nodup_range
  intro i j hij
  have hdigits := congrArg String.toList ((String.append_right_inj "p").mp hij)
  rw [Nat.toString_eq_repr, Nat.toString_eq_repr, Nat.toList_repr, Nat.toList_repr] at hdigits
  -- the digits are read back as the number
  have hnumber := congrArg (Nat.ofDigitChars 10 · 0) hdigits
  simp only [Nat.ofDigitChars_toDigits, Nat.reduceLT, Nat.reduceLeDiff] at hnumber
  exact Nat.add_left_cancel hnumber

/-- There are more `candidates` than parameters, so one of them is no parameter. -/
theorem exists_candidate (ps : Fields) :
    ∃ name ∈ candidates ps, Keyed.contains ps name = false := by
  by_contra hnone
  have htaken : candidates ps ⊆ Keyed.keys ps := by
    intro name hname
    rw [← Keyed.contains_iff_mem_keys]
    exact Decidable.byContradiction fun hfree => hnone ⟨name, hname, Bool.not_eq_true _ ▸ hfree⟩
  have hlength := (List.subperm_of_subset (nodup_candidates ps) htaken).length_le
  simp only [candidates, Keyed.keys, List.length_map, List.length_range] at hlength
  omega

/-- `freshName` has the least number, from the number of parameters on, that makes it new. -/
theorem freshName_spec (ps : Fields) :
    ∃ n, freshName ps = "p" ++ toString n ∧ ps.length ≤ n
      ∧ Keyed.contains ps (freshName ps) = false
      ∧ ∀ k, ps.length ≤ k → k < n → Keyed.contains ps ("p" ++ toString k) = true := by
  have hfound : ((candidates ps).find? (fun name => !Keyed.contains ps name)).isSome = true := by
    obtain ⟨name, hname, hfree⟩ := exists_candidate ps
    exact List.find?_isSome.mpr ⟨name, hname, by simp [hfree]⟩
  unfold freshName
  unfold candidates at hfound ⊢
  rw [List.find?_map, Option.isSome_map, Option.isSome_iff_exists] at hfound
  obtain ⟨i, hi⟩ := hfound
  rw [List.find?_map, hi]
  obtain ⟨hfree, -, htaken⟩ := List.find?_range_eq_some.mp hi
  refine ⟨ps.length + i, rfl, Nat.le_add_right .., by simpa using hfree, ?_⟩
  intro k hlow hhigh
  obtain ⟨j, rfl⟩ := Nat.exists_eq_add_of_le hlow
  simpa using htaken j (by omega)

theorem contains_freshName (ps : Fields) : Keyed.contains ps (freshName ps) = false := by
  obtain ⟨-, -, -, hfree, -⟩ := freshName_spec ps
  exact hfree

/-! ## Binding values -/

/-- Bind values one by one, each to a name that no parameter has yet. -/
inductive Binds : Fields → List String → List Json → Fields → Prop where
  | nil (ps : Fields) : Binds ps [] [] ps
  | cons {ps ps' : Fields} {name : String} {value : Json} {names : List String} {values : List Json}
      (fresh : Keyed.contains ps name = false)
      (rest : Binds (Keyed.insert ps name value) names values ps') :
      Binds ps (name :: names) (value :: values) ps'

namespace Binds

variable {ps ps' : Fields} {names : List String} {values : List Json}

/-- A bound name keeps its value. -/
theorem find?_of_find? (h : Binds ps names values ps') {name : String} {value : Json}
    (hvalue : Keyed.find? ps name = some value) : Keyed.find? ps' name = some value := by
  induction h with
  | nil ps => exact hvalue
  | @cons ps ps' name' value' _ _ fresh _ ih =>
    refine ih ?_
    have hne : name' ≠ name := by
      rintro rfl
      rw [(Keyed.contains_iff ..).mpr ⟨value, hvalue⟩] at fresh
      cases fresh
    rw [Keyed.find?_insert, if_neg hne, hvalue]

theorem find?_names (h : Binds ps names values ps') :
    names.map (Keyed.find? ps') = values.map some := by
  induction h with
  | nil => rfl
  | @cons ps ps' name value _ _ _ rest ih =>
    rw [List.map_cons, List.map_cons, ih]
    rw [rest.find?_of_find? (by rw [Keyed.find?_insert, if_pos rfl])]

theorem not_contains (h : Binds ps names values ps') {name : String} (hname : name ∈ names) :
    Keyed.contains ps name = false := by
  induction h with
  | nil => cases hname
  | @cons ps ps' name' value _ _ fresh _ ih =>
    rcases List.mem_cons.mp hname with rfl | hmem
    · exact fresh
    · have hrest := ih hmem
      rw [Keyed.contains_insert, Bool.or_eq_false_iff] at hrest
      exact hrest.2

theorem nodup (h : Binds ps names values ps') : names.Nodup := by
  induction h with
  | nil => exact .nil
  | @cons ps ps' name value _ _ _ rest ih =>
    refine List.nodup_cons.mpr ⟨?_, ih⟩
    intro hmem
    have hrest := rest.not_contains hmem
    simp [Keyed.contains_insert] at hrest

end Binds

/-- Other bound names keep their values. -/
theorem Binds.find?_map {ps ps' : Fields} {names names' : List String} {values values' : List Json}
    (h : Binds ps names values ps') (h' : names'.map (Keyed.find? ps) = values'.map some) :
    names'.map (Keyed.find? ps') = values'.map some := by
  induction names' generalizing values' with
  | nil => exact h'
  | cons name rest ih =>
    cases values' with
    | nil => cases h'
    | cons value values' =>
      obtain ⟨hname, hrest⟩ := List.cons.inj h'
      rw [List.map_cons, List.map_cons, h.find?_of_find? hname, ih hrest]

theorem binds_bind (q : Query) (value : Json) :
    Binds q.parameters [(q.bind value).1] [value] (q.bind value).2.parameters :=
  .cons (contains_freshName q.parameters) (.nil _)

theorem Binds.append {ps ps' ps'' : Fields} {names names' : List String}
    {values values' : List Json} (h : Binds ps names values ps')
    (h' : Binds ps' names' values' ps'') : Binds ps (names ++ names') (values ++ values') ps'' := by
  induction h with
  | nil ps => exact h'
  | cons fresh _ ih => exact .cons fresh (ih h')

/-! ## Conditions with values -/

/-- The parameters of a token. -/
def Token.parameters : Token → List String
  | .condition c => c.demand.parameters
  | _ => []

/-- The demand of a token, if it has parameters. -/
def Token.valued? : Token → Option Demand
  | .condition c => if c.demand.parameters = [] then none else some c.demand
  | _ => none

/-- The demands with parameters in a where clause, in order. -/
def demandsOf (tokens : List Token) : List Demand :=
  tokens.filterMap Token.valued?

/-- The names in a where clause, in order. -/
def namesIn (tokens : List Token) : List String :=
  tokens.flatMap Token.parameters

/-- The call adds a condition that takes values from parameters. -/
def Call.givesValues : Call → Bool
  | .compare .. | .oneOf .. | .allOf .. | .between .. | .textMatch .. | .search ..
  | .withinRadius .. | .relatesTo .. => true
  | _ => false

/-- The demand that a call adds, but for the names of its parameters, and the values it gives them,
in order. -/
inductive Call.Gives : Call → Demand → List Json → Prop where
  | compare {comparison : Comparison} {field p : String} {value : Json} {exact : Bool} :
      Gives (.compare comparison field (.json value) exact) (.compare comparison p) [value]
  | oneOf {field p : String} (values : List Json) :
      Gives (.oneOf field (values.map .json)) (.oneOf p) [.arr values]
  | allOf {field p : String} (values : List Json) :
      Gives (.allOf field (values.map .json)) (.allOf p) [.arr values]
  | between {field p p' : String} {low high : Json} :
      Gives (.between field (.json low) (.json high)) (.between p p') [low, high]
  | textMatch {kind : TextMatch} {field p : String} {value : Json} :
      Gives (.textMatch kind field (.json value)) (.textMatch kind p) [value]
  | search {field terms p : String} {connective : Connective} :
      Gives (.search field terms connective) (.search connective p) [.str terms]
  | withinRadius {field p p' p'' : String} {radius latitude longitude : Binary64}
      {units : Option Units} :
      Gives (.withinRadius field radius latitude longitude units)
        (.spatial .within (some (.circle p p' p'' units)))
        [ofFloat radius, ofFloat latitude, ofFloat longitude]
  | relatesTo {field shape p : String} {relation : Relation} {units : Option Units} :
      Gives (.relatesTo field shape relation units)
        (.spatial relation (some (.wellKnownText p units))) [.str shape]

theorem Call.Gives.givesValues {c : Call} {d : Demand} {values : List Json}
    (h : c.Gives d values) : c.givesValues = true := by
  cases h <;> rfl

theorem Call.Gives.parameters_ne_nil {c : Call} {d : Demand} {values : List Json}
    (h : c.Gives d values) : d.parameters ≠ [] := by
  cases h <;> nofun

theorem namesIn_eq (tokens : List Token) :
    namesIn tokens = (demandsOf tokens).flatMap Demand.parameters := by
  induction tokens with
  | nil => rfl
  | cons t rest ih =>
    rw [namesIn] at ih
    rw [namesIn, List.flatMap_cons, ih]
    cases t with
    | condition c =>
      by_cases hnone : c.demand.parameters = [] <;>
        simp [demandsOf, Token.parameters, Token.valued?, hnone]
    | _ => rfl

theorem demandsOf_append (tokens tokens' : List Token) :
    demandsOf (tokens ++ tokens') = demandsOf tokens ++ demandsOf tokens' :=
  List.filterMap_append

/-- `prepared` adds no parameters. -/
theorem demandsOf_prepared (q : Query) (field : Option String) :
    demandsOf (q.prepared field) = demandsOf q.tokens := by
  have hjoined : demandsOf q.joined = demandsOf q.tokens := by
    unfold joined
    split
    · exact (demandsOf_append ..).trans (List.append_nil _)
    · rfl
  have hguard : demandsOf [negationGuard field, .connective .and] = [] := by
    cases field <;> rfl
  have hnegation : demandsOf [.negation] = [] := rfl
  unfold prepared
  dsimp only
  split
  · exact hjoined
  · rw [demandsOf_append, hnegation, List.append_nil]
    split
    · rw [demandsOf_append, hguard, List.append_nil, hjoined]
    · exact hjoined

/-- `pushCondition` adds a demand that has parameters at the end. -/
theorem demandsOf_pushCondition (q : Query) (field : String) {d : Demand}
    (hd : d.parameters ≠ []) (exact : Bool) :
    demandsOf (q.pushCondition field d exact).tokens = demandsOf q.tokens ++ [d] := by
  refine (demandsOf_append ..).trans ?_
  rw [demandsOf_prepared]
  simp [demandsOf, Token.valued?, hd]

/-! ## One call -/

/-- The name without a `$` in front. -/
def bareName (name : String) : String :=
  match name.toList with
  | '$' :: rest => String.ofList rest
  | _ => name

/-- `bindAs` binds a value with a JSON form, under a name that no parameter has. -/
theorem eq_of_bindAs_eq_ok {q q' : Query} {name : String} {value : Literal}
    (h : q.bindAs name value = .ok q') :
    ∃ json, value = .json json ∧ Keyed.contains q.parameters (bareName name) = false
      ∧ q' = q.withParameters (Keyed.insert q.parameters (bareName name) json) := by
  have h : (if !isParameterName (bareName name) then _ else
      if q.parameters.contains (bareName name) then _ else _) = Except.ok q' := h
  split at h
  · cases h
  · split at h
    · cases h
    · next hfree =>
      obtain ⟨json, hjson, h⟩ := ok_of_bind_eq_ok h
      obtain rfl := Except.ok.inj h
      cases value with
      | unwritable => cases hjson
      | json value =>
        obtain rfl := Except.ok.inj hjson
        exact ⟨value, rfl, Bool.not_eq_true _ ▸ hfree, rfl⟩

/-- What the call does to the parameters of a query and the conditions that use them. -/
inductive BindStep (c : Call) (q : Query) : Option Error × Query → Prop where
  /-- A refused call may have bound values that no condition uses. -/
  | refused {e : Error} {q' : Query} {names : List String} {values : List Json}
      (binds : Binds q.parameters names values q'.parameters)
      (demands : demandsOf q'.tokens = demandsOf q.tokens) : BindStep c q (some e, q')
  | unbound {q' : Query} (parameters : q'.parameters = q.parameters)
      (demands : demandsOf q'.tokens = demandsOf q.tokens) (values : c.givesValues = false)
      (unnamed : ∀ name value, c ≠ .parameter name value) : BindStep c q (none, q')
  | named {name : String} {value : Json} {q' : Query} (call : c = .parameter name (.json value))
      (binds : Binds q.parameters [bareName name] [value] q'.parameters)
      (demands : demandsOf q'.tokens = demandsOf q.tokens) : BindStep c q (none, q')
  | condition {d : Demand} {values : List Json} {q' : Query} (gives : c.Gives d values)
      (binds : Binds q.parameters d.parameters values q'.parameters)
      (demands : demandsOf q'.tokens = demandsOf q.tokens ++ [d]) : BindStep c q (none, q')

/-- A result, if there is one, with the same parameters and the same conditions that use them. -/
inductive KeepsParameters (q : Query) : Except Error Query → Prop where
  | error (e : Error) : KeepsParameters q (.error e)
  | ok {q' : Query} (parameters : q'.parameters = q.parameters)
      (demands : demandsOf q'.tokens = demandsOf q.tokens) : KeepsParameters q (.ok q')

namespace KeepsParameters

variable {q : Query}

theorem bind {α : Type} {x : Except Error α} {f : α → Except Error Query}
    (h : ∀ a, x = .ok a → KeepsParameters q (f a)) : KeepsParameters q (x >>= f) := by
  cases x with
  | error e => exact .error e
  | ok a => exact h a rfl

theorem ite {p : Prop} [Decidable p] {r r' : Except Error Query} (h : KeepsParameters q r)
    (h' : KeepsParameters q r') : KeepsParameters q (if p then r else r') := by
  split
  · exact h
  · exact h'

/-- A modifier keeps what a condition demands. -/
theorem modified {modifier : String} {before : List Token} {last last' : Condition} {q' : Query}
    (hlast : q.lastCondition modifier = .ok (before, last))
    (parameters : q'.parameters = q.parameters) (tokens : q'.tokens = before ++ [.condition last'])
    (demand : last'.demand = last.demand) : KeepsParameters q (.ok q') := by
  obtain ⟨-, hends⟩ := ClauseStep.of_lastCondition hlast
  refine .ok parameters ?_
  rw [tokens, hends, demandsOf_append, demandsOf_append]
  simp only [demandsOf, Token.valued?, List.filterMap_cons, demand]

/-- Tokens without parameters. -/
theorem added {ts : List Token} {q' : Query} (parameters : q'.parameters = q.parameters)
    (tokens : q'.tokens = q.tokens ++ ts) (demands : demandsOf ts = []) :
    KeepsParameters q (.ok q') := by
  refine .ok parameters ?_
  rw [tokens, demandsOf_append, demands, List.append_nil]

theorem boostLast (factor : Binary64) : KeepsParameters q (q.boostLast factor) :=
  .ite (.error _) (.bind fun ⟨_, _⟩ hlast => .ite (.modified hlast rfl rfl rfl) (.ok rfl rfl))

theorem fuzzyLast (distance : Binary64) : KeepsParameters q (q.fuzzyLast distance) :=
  .ite (.error _) (.bind fun ⟨_, _⟩ hlast => .modified hlast rfl rfl rfl)

theorem proximityLast (distance : Nat) : KeepsParameters q (q.proximityLast distance) := by
  refine .ite (.error _) (.bind fun ⟨before, last⟩ hlast => ?_)
  dsimp only
  split
  · exact .modified hlast rfl rfl rfl
  · exact .error _

theorem close : KeepsParameters q q.close :=
  .bind fun _ _ => .ite (.error _) (.added rfl rfl rfl)

theorem join (c : Connective) : KeepsParameters q (q.join c) := by
  refine .bind fun _ _ => ?_
  split
  · exact .ok rfl rfl
  · exact .error _
  · exact .error _
  · exact .error _
  · exact .added rfl rfl rfl

end KeepsParameters

theorem of_mapM_toJson {values : List Literal} {items : List Json}
    (h : values.mapM Literal.toJson = .ok items) : values = items.map .json := by
  induction values generalizing items with
  | nil =>
    obtain rfl := Except.ok.inj h
    rfl
  | cons value rest ih =>
    rw [List.mapM_cons] at h
    obtain ⟨item, hitem, h⟩ := ok_of_bind_eq_ok h
    obtain ⟨items', hrest, h⟩ := ok_of_bind_eq_ok h
    obtain rfl := Except.ok.inj h
    cases value with
    | unwritable => cases hitem
    | json value =>
      obtain rfl := Except.ok.inj hitem
      rw [List.map_cons, ← ih hrest]

namespace BindStep

variable {c : Call} {q : Query}

theorem of_error (e : Error) : BindStep c q (some e, q) :=
  .refused (.nil _) rfl

theorem of_attempt {r : Except Error Query} (h : ∀ q', r = .ok q' → BindStep c q (none, q')) :
    BindStep c q (q.attempt r) :=
  attempt_cases .of_error h

theorem of_unlessRaw {q' : Query} (h : BindStep c q (none, q')) :
    BindStep c q (q.unlessRaw q') :=
  unlessRaw_cases .of_error fun _ => h

theorem of_keepsParameters {r : Except Error Query} (h : KeepsParameters q r)
    (values : c.givesValues = false)
    (unnamed : ∀ name value, c ≠ .parameter name value) : BindStep c q (q.attempt r) := by
  cases h with
  | error e => exact .of_error e
  | ok parameters demands => exact .unbound parameters demands values unnamed

/-- An operand without values. -/
theorem of_pushOperand {q' : Query} {field : Option String} {t : Token}
    (parameters : q'.parameters = q.parameters) (tokens : q'.tokens = q.prepared field ++ [t])
    (ht : t.valued? = none) (values : c.givesValues = false)
    (unnamed : ∀ name value, c ≠ .parameter name value) : BindStep c q (q.unlessRaw q') := by
  refine .of_unlessRaw (.unbound parameters ?_ values unnamed)
  rw [tokens, demandsOf_append, demandsOf_prepared]
  simp [demandsOf, ht]

theorem of_bindAs {name : String} {value : Literal} :
    BindStep (.parameter name value) q (q.attempt (q.bindAs name value)) := by
  refine .of_attempt fun q' h => ?_
  obtain ⟨json, rfl, hfree, rfl⟩ := eq_of_bindAs_eq_ok h
  exact .named rfl (.cons hfree (.nil _)) rfl

/-- A condition on values that were just bound. -/
theorem of_pushCondition {field : String} {d : Demand} {values : List Json} {exact : Bool}
    {q₁ : Query} (gives : c.Gives d values)
    (binds : Binds q.parameters d.parameters values q₁.parameters) (tokens : q₁.tokens = q.tokens) :
    BindStep c q (none, q₁.pushCondition field d exact) := by
  refine .condition gives binds ?_
  rw [demandsOf_pushCondition q₁ field gives.parameters_ne_nil, tokens]

/-- A condition on one value. -/
theorem of_pushValue {field : String} {value : Literal} {exact : Bool} {demand : String → Demand}
    {q' : Query} (h : q.pushValue field value exact demand = .ok q')
    (hparameters : ∀ name, (demand name).parameters = [name])
    (hgives : ∀ json name, value = .json json → c.Gives (demand name) [json]) :
    BindStep c q (none, q') := by
  obtain ⟨-, h⟩ := ok_of_refuseRaw_bind h
  obtain ⟨json, hjson, h⟩ := ok_of_bind_eq_ok h
  obtain rfl := Except.ok.inj h
  cases value with
  | unwritable => cases hjson
  | json value =>
    obtain rfl := Except.ok.inj hjson
    refine .of_pushCondition (hgives value _ rfl) ?_ rfl
    rw [hparameters]
    exact binds_bind q value

theorem of_pushValues {field : String} {values : List Literal} {demand : String → Demand}
    {q' : Query}
    (h : (arrayOf values >>= fun array => q.pushValue field array false demand) = .ok q')
    (hparameters : ∀ name, (demand name).parameters = [name])
    (hgives : ∀ items name, values = List.map .json items → c.Gives (demand name) [.arr items]) :
    BindStep c q (none, q') := by
  obtain ⟨array, harray, h⟩ := ok_of_bind_eq_ok h
  obtain ⟨items, hitems, harray⟩ := ok_of_bind_eq_ok harray
  obtain rfl := Except.ok.inj harray
  refine of_pushValue h hparameters fun json name hjson => ?_
  obtain rfl := Literal.json.inj hjson
  exact hgives items name (of_mapM_toJson hitems)

theorem of_pushBetween (field : String) (low high : Literal) :
    BindStep (.between field low high) q (q.pushBetween field low high) := by
  unfold pushBetween
  split
  · exact .of_error _
  · next lowValue hlow =>
    obtain ⟨-, hlow⟩ := ok_of_refuseRaw_bind hlow
    have hbinds := binds_bind q lowValue
    dsimp only
    split
    · exact .refused hbinds rfl
    · next highValue hhigh =>
      cases low with
      | unwritable => cases hlow
      | json lowValue' =>
        cases high with
        | unwritable => cases hhigh
        | json highValue' =>
          obtain rfl := Except.ok.inj hlow
          obtain rfl := Except.ok.inj hhigh
          exact .of_pushCondition .between (hbinds.append (binds_bind _ _)) rfl

end BindStep

/-- Every call does one of the steps to the parameters. -/
theorem bindStep_call (c : Call) (q : Query) : BindStep c q (q.call c) := by
  cases c with
  | parameter => exact .of_bindAs
  | compare | textMatch =>
    refine .of_attempt fun q' h => .of_pushValue h (fun _ => rfl) ?_
    rintro json name rfl
    constructor
  | search =>
    refine .of_attempt fun q' h => .of_pushValue h (fun _ => rfl) ?_
    intro json name hjson
    obtain rfl := Literal.json.inj hjson
    exact .search
  | oneOf =>
    refine .of_attempt fun q' h => .of_pushValues h (fun _ => rfl) ?_
    rintro items name rfl
    exact .oneOf items
  | allOf =>
    refine .of_attempt fun q' h => .of_pushValues h (fun _ => rfl) ?_
    rintro items name rfl
    exact .allOf items
  | between field low high => exact .of_pushBetween field low high
  | withinRadius field =>
    exact .of_unlessRaw (.of_pushCondition .withinRadius
      ((binds_bind _ _).append ((binds_bind _ _).append (binds_bind _ _))) rfl)
  | relatesTo field =>
    exact .of_unlessRaw (.of_pushCondition .relatesTo (binds_bind _ _) rfl)
  -- from here on, calls that bind nothing
  | present | always | openGroup => exact .of_pushOperand rfl rfl rfl rfl nofun
  | negateNext => exact .of_unlessRaw (.unbound rfl rfl rfl nofun)
  | boost factor => exact .of_keepsParameters (.boostLast factor) rfl nofun
  | fuzzy distance => exact .of_keepsParameters (.fuzzyLast distance) rfl nofun
  | proximity distance => exact .of_keepsParameters (.proximityLast distance) rfl nofun
  | closeGroup => exact .of_keepsParameters .close rfl nofun
  | connective c => exact .of_keepsParameters (.join c) rfl nofun
  | nameSource | load =>
    exact .of_keepsParameters (.bind fun _ _ => .bind fun _ _ => .ok rfl rfl) rfl nofun
  | raw | usualConnective | distinct | groupBy =>
    exact .of_keepsParameters (.bind fun _ _ => .ite (.error _) (.ok rfl rfl)) rfl nofun
  | includePath =>
    exact .of_keepsParameters (.bind fun _ _ => .ite (.ok rfl rfl) (.ok rfl rfl)) rfl nofun
  | orderBy | orderByScore | orderRandomly | select | selectAs | declare | groupKey | groupSum
  | groupCount =>
    exact .of_keepsParameters (.bind fun _ _ => .ok rfl rfl) rfl nofun
  | skip | take | waitForNonStaleResults | noTracking | noCaching | skipDuplicateChecking =>
    exact .unbound rfl rfl rfl nofun

/-! ## All calls -/

/-- The name that the call chooses for a parameter. -/
def Call.chosen : Call → List String
  | .parameter name _ => [bareName name]
  | _ => []

/-- The names in the query and what they are bound to, after the calls in `made`. -/
structure Bound (made : List Call) (q : Query) : Prop where
  /-- The conditions with parameters are those of the calls that give values, in order, and every
  parameter is bound to the value given for it. -/
  given : List.Forall₂ (fun c d => ∃ values, c.Gives d values
      ∧ d.parameters.map (Keyed.find? q.parameters) = values.map some)
    (made.filter Call.givesValues) (demandsOf q.tokens)
  /-- A chosen name is bound to the value it was chosen for. -/
  chosen : ∀ name value, .parameter name value ∈ made →
    ∃ json, value = .json json ∧ Keyed.find? q.parameters (bareName name) = some json
  /-- No name stands in two places or is chosen again. -/
  once : (made.flatMap Call.chosen ++ namesIn q.tokens).Nodup

namespace Bound

variable {made : List Call} {q q' : Query}

theorem contains_namesIn (h : Bound made q) {name : String} (hname : name ∈ namesIn q.tokens) :
    Keyed.contains q.parameters name = true := by
  rw [namesIn_eq, List.mem_flatMap] at hname
  obtain ⟨d, hd, hname⟩ := hname
  obtain ⟨i, rfl⟩ := List.mem_iff_get.mp hd
  obtain ⟨hlength, hgiven⟩ := List.forall₂_iff_get.mp h.given
  obtain ⟨values, -, hvalues⟩ := hgiven i (i.isLt.trans_eq hlength.symm) i.isLt
  have hfound := List.mem_map_of_mem (f := Keyed.find? q.parameters) hname
  rw [hvalues] at hfound
  obtain ⟨value, -, hvalue⟩ := List.mem_map.mp hfound
  exact (Keyed.contains_iff ..).mpr ⟨value, hvalue.symm⟩

theorem contains_chosen (h : Bound made q) {name : String}
    (hname : name ∈ made.flatMap Call.chosen) : Keyed.contains q.parameters name = true := by
  obtain ⟨c, hc, hname⟩ := List.mem_flatMap.mp hname
  cases c with
  | parameter name' value =>
    obtain rfl := List.mem_singleton.mp hname
    obtain ⟨json, -, hjson⟩ := h.chosen name' value hc
    exact (Keyed.contains_iff ..).mpr ⟨json, hjson⟩
  | _ => cases hname

theorem given_mono (h : Bound made q) {ps : Fields} {names : List String} {values : List Json}
    (hbinds : Binds q.parameters names values ps) :
    List.Forall₂ (fun c d => ∃ values, c.Gives d values
        ∧ d.parameters.map (Keyed.find? ps) = values.map some)
      (made.filter Call.givesValues) (demandsOf q.tokens) := by
  refine h.given.imp ?_
  rintro c d ⟨values, hgives, hvalues⟩
  exact ⟨values, hgives, hbinds.find?_map hvalues⟩

theorem chosen_mono (h : Bound made q) {ps : Fields} {names : List String} {values : List Json}
    (hbinds : Binds q.parameters names values ps) (name : String) (value : Literal)
    (hmade : .parameter name value ∈ made) :
    ∃ json, value = .json json ∧ Keyed.find? ps (bareName name) = some json := by
  obtain ⟨json, hjson, hfound⟩ := h.chosen name value hmade
  exact ⟨json, hjson, hbinds.find?_of_find? hfound⟩

/-- Names that are bound anew stand nowhere yet. -/
theorem not_mem (h : Bound made q) {ps : Fields} {names : List String} {values : List Json}
    (hbinds : Binds q.parameters names values ps) {name : String} (hname : name ∈ names) :
    name ∉ made.flatMap Call.chosen ++ namesIn q.tokens := by
  intro hmem
  have hcontains : Keyed.contains q.parameters name = true :=
    (List.mem_append.mp hmem).elim h.contains_chosen h.contains_namesIn
  rw [hbinds.not_contains hname] at hcontains
  cases hcontains

/-- A call that binds nothing that is used. -/
theorem keep (h : Bound made q) {names : List String} {values : List Json}
    (hbinds : Binds q.parameters names values q'.parameters)
    (hdemands : demandsOf q'.tokens = demandsOf q.tokens) : Bound made q' := by
  refine ⟨?_, h.chosen_mono hbinds, ?_⟩
  · rw [hdemands]
    exact h.given_mono hbinds
  · rw [namesIn_eq, hdemands, ← namesIn_eq]
    exact h.once

theorem step {c : Call} {outcome : Option Error × Query} (h : Bound made q)
    (hstep : BindStep c q outcome) :
    Bound (made ++ if outcome.1 = none then [c] else []) outcome.2 := by
  cases hstep with
  | refused binds demands =>
    rw [if_neg nofun, List.append_nil]
    exact h.keep binds demands
  | @unbound q' parameters demands values unnamed =>
    have hbinds : Binds q.parameters [] [] q'.parameters := by
      rw [parameters]
      exact .nil q.parameters
    obtain ⟨hgiven, hchosen, honce⟩ := h.keep hbinds demands
    have hnone : c.chosen = [] := by
      cases c with
      | parameter name value => exact absurd rfl (unnamed name value)
      | _ => rfl
    rw [if_pos rfl]
    refine ⟨?_, ?_, ?_⟩
    · rw [List.filter_append, List.filter_singleton, values]
      simpa using hgiven
    · intro name value hmem
      rcases List.mem_append.mp hmem with hmade | hlast
      · exact hchosen name value hmade
      · exact absurd (List.mem_singleton.mp hlast).symm (unnamed name value)
    · rw [List.flatMap_append, List.flatMap_singleton, hnone, List.append_nil]
      exact honce
  | @named name value q' call binds demands =>
    obtain ⟨hgiven, hchosen, honce⟩ := h.keep binds demands
    subst call
    rw [if_pos rfl]
    refine ⟨?_, ?_, ?_⟩
    · rw [List.filter_append]
      simpa [Call.givesValues] using hgiven
    · intro name' value' hmem
      rcases List.mem_append.mp hmem with hmade | hlast
      · exact hchosen name' value' hmade
      · obtain ⟨rfl, rfl⟩ := Call.parameter.inj (List.mem_singleton.mp hlast)
        exact ⟨value, rfl, (List.cons.inj binds.find?_names).1⟩
    · have hnew := h.not_mem binds (List.mem_singleton_self _)
      rw [List.flatMap_append, List.append_assoc, namesIn_eq, demands, ← namesIn_eq]
      exact List.nodup_middle.mpr (List.nodup_cons.mpr ⟨hnew, h.once⟩)
  | @condition d values q' gives binds demands =>
    rw [if_pos rfl]
    have hnone : c.chosen = [] := by
      cases gives <;> rfl
    refine ⟨?_, ?_, ?_⟩
    · rw [List.filter_append, List.filter_singleton, gives.givesValues, demands]
      exact List.rel_append (h.given_mono binds)
        (.cons ⟨values, gives, binds.find?_names⟩ .nil)
    · intro name value hmem
      rcases List.mem_append.mp hmem with hmade | hlast
      · exact h.chosen_mono binds name value hmade
      · rw [← List.mem_singleton.mp hlast] at gives
        cases gives
    · rw [List.flatMap_append, List.flatMap_singleton, hnone, List.append_nil, namesIn_eq, demands,
        List.flatMap_append, List.flatMap_singleton, ← namesIn_eq, ← List.append_assoc]
      refine h.once.append binds.nodup ?_
      intro name hold hname
      exact h.not_mem binds hname hold

theorem build (h : Bound made q) (calls : List Call) :
    Bound (made ++ q.accepted calls) (q.build calls) := by
  induction calls generalizing made q with
  | nil =>
    rw [accepted, List.append_nil]
    exact h
  | cons c rest ih =>
    rw [accepted_cons, ← List.append_assoc]
    refine ih ?_
    have hstep := h.step (bindStep_call c q)
    have haccepted : q.accepted [c] = if (q.call c).1 = none then [c] else [] := by
      rcases hcall : q.call c with ⟨_ | e, q'⟩ <;> simp [accepted, hcall]
    rwa [haccepted]

end Bound

theorem bound_new (conventions : Conventions) (source : Source) :
    Bound [] (new conventions source) :=
  ⟨.nil, nofun, .nil⟩

/-- `build` keeps the values of parameters. -/
theorem find?_build {q : Query} {name : String} {value : Json}
    (h : Keyed.find? q.parameters name = some value) (calls : List Call) :
    Keyed.find? (q.build calls).parameters name = some value := by
  refine build_induction (P := fun q => Keyed.find? q.parameters name = some value) h ?_
  intro c _ q hq
  have hstep := bindStep_call c q
  generalize q.call c = outcome at hstep ⊢
  cases hstep with
  | refused binds | named _ binds | condition _ binds => exact binds.find?_of_find? hq
  | unbound parameters => exact parameters ▸ hq

/-- After any calls, refused ones included, every name in the where clause is bound to the value
given for its place, and no name stands in two places or was chosen by a call besides. No later call
changes or removes what is bound, and a new name can always be found. -/
theorem parameters_bound_once (conventions : Conventions) (source : Source) (calls : List Call) :
    let q := (new conventions source).build calls
    Bound ((new conventions source).accepted calls) q
      ∧ (∀ name ∈ namesIn q.tokens, Keyed.contains q.parameters name = true)
      ∧ (∀ later name value, Keyed.find? q.parameters name = some value →
          Keyed.find? (q.build later).parameters name = some value)
      ∧ ∃ n, freshName q.parameters = "p" ++ toString n ∧ q.parameters.length ≤ n
          ∧ Keyed.contains q.parameters (freshName q.parameters) = false
          ∧ ∀ k, q.parameters.length ≤ k → k < n →
              Keyed.contains q.parameters ("p" ++ toString k) = true := by
  intro q
  have hbound : Bound ((new conventions source).accepted calls) q :=
    (bound_new conventions source).build calls
  exact ⟨hbound, fun _ => hbound.contains_namesIn, fun later _ _ h => find?_build h later,
    freshName_spec q.parameters⟩

end DocumentSession.Query
