import DocumentSession.Proofs.Query.Building
import DocumentSession.Proofs.Keyed

set_option autoImplicit false

/-! # Values stay out of the text

Values go into the parameters of a query, and its text has their names only. Two lists of calls that
differ in nothing but values (`Call.blank`) have the same outcome: each call is refused in both or
in none, with the same error, and the queries agree in everything but the values of their parameters
(`values_stay_out_of_text`). -/

namespace DocumentSession.Query

/-! ## Calls with other values -/

/-- The value has a JSON form. -/
def Literal.isWritable : Literal → Bool
  | .json _ => true
  | .unwritable => false

/-- All values of the call have a JSON form. -/
def Call.isWritable : Call → Bool
  | .parameter _ value | .compare _ _ value _ | .textMatch _ _ value => value.isWritable
  | .oneOf _ values | .allOf _ values => values.all Literal.isWritable
  | .between _ low high => low.isWritable && high.isWritable
  | _ => true

/-- The call without its values. -/
def Call.blank : Call → Call
  | .parameter name _ => .parameter name (.json .null)
  | .compare comparison field _ exact => .compare comparison field (.json .null) exact
  | .oneOf field _ => .oneOf field []
  | .allOf field _ => .allOf field []
  | .between field _ _ => .between field (.json .null) (.json .null)
  | .textMatch kind field _ => .textMatch kind field (.json .null)
  | .search field _ c => .search field "" c
  | .withinRadius field _ _ _ units => .withinRadius field one one one units
  | .relatesTo field _ relation units => .relatesTo field "" relation units
  | c => c

/-- The errors of the calls, `none` for a call that is accepted. -/
def refusals (q : Query) : List Call → List (Option Error)
  | [] => []
  | c :: rest => (q.call c).1 :: refusals (q.call c).2 rest

/-! ## Queries that agree but for values -/

/-- The queries differ in nothing but the values of their parameters. -/
structure Alike (q q' : Query) : Prop where
  rest : q' = q.withParameters q'.parameters
  names : q'.parameters.keys = q.parameters.keys

/-- Outcomes of calls with the same error, if any, and queries that are `Alike`. -/
structure SameOutcome (o o' : Option Error × Query) : Prop where
  error : o'.1 = o.1
  query : Alike o.2 o'.2

theorem contains_congr {ps ps' : Fields} (h : ps'.keys = ps.keys) (name : String) :
    Keyed.contains ps' name = Keyed.contains ps name := by
  rw [Bool.eq_iff_iff, Keyed.contains_iff_mem_keys, Keyed.contains_iff_mem_keys, h]

theorem freshName_congr {ps ps' : Fields} (h : ps'.keys = ps.keys) :
    freshName ps' = freshName ps := by
  have hlength : ps'.length = ps.length := by
    have hkeys := congrArg List.length h
    rwa [Keyed.keys, Keyed.keys, List.length_map, List.length_map] at hkeys
  simp only [freshName, candidates, hlength, contains_congr h]

namespace Alike

variable {q q' : Query}

theorem refl (q : Query) : Alike q q :=
  ⟨rfl, rfl⟩

theorem withParameters (q : Query) {ps : Fields} (h : ps.keys = q.parameters.keys) :
    Alike q (q.withParameters ps) :=
  ⟨rfl, h⟩

/-- The text has no values. -/
theorem text (h : Alike q q') : q'.text = q.text := by
  rw [h.rest]
  rfl

theorem refuseRaw (h : Alike q q') : q'.refuseRaw = q.refuseRaw := by
  rw [h.rest]
  rfl

/-- Different values are bound under the same name. -/
theorem bind (h : Alike q q') (value value' : Json) :
    (q'.bind value').1 = (q.bind value).1 ∧ Alike (q.bind value).2 (q'.bind value').2 := by
  have hname : freshName q'.parameters = freshName q.parameters := freshName_congr h.names
  refine ⟨hname, ?_, ?_⟩
  · rw [h.rest]
    rfl
  · dsimp only [Query.bind]
    rw [hname]
    exact Keyed.keys_insert_congr h.names _ _ _

theorem pushCondition (h : Alike q q') (field : String) {demand demand' : Demand}
    (hdemand : demand' = demand) (exact : Bool) :
    Alike (q.pushCondition field demand exact) (q'.pushCondition field demand' exact) := by
  rw [hdemand, h.rest]
  exact .withParameters _ h.names

end Alike

/-- Both steps fail with the same error, or their queries are `Alike`. -/
inductive SameResult : Except Error Query → Except Error Query → Prop where
  | error (e : Error) : SameResult (.error e) (.error e)
  | ok {q q' : Query} (h : Alike q q') : SameResult (.ok q) (.ok q')

namespace SameResult

theorem bind {α : Type} (x : Except Error α) {f f' : α → Except Error Query}
    (h : ∀ a, SameResult (f a) (f' a)) : SameResult (x >>= f) (x >>= f') := by
  cases x with
  | error e => exact .error e
  | ok a => exact h a

theorem ite {p : Prop} [Decidable p] {r₁ r₁' r₂ r₂' : Except Error Query}
    (h₁ : SameResult r₁ r₁') (h₂ : SameResult r₂ r₂') :
    SameResult (if p then r₁ else r₂) (if p then r₁' else r₂') := by
  split
  · exact h₁
  · exact h₂

end SameResult

/-! ## Calls on queries that agree but for values -/

namespace Alike

variable {q q' : Query} (h : Alike q q')
include h

theorem attempt {r r' : Except Error Query} (hr : SameResult r r') :
    SameOutcome (q.attempt r) (q'.attempt r') := by
  cases hr with
  | error e => exact ⟨rfl, h⟩
  | ok hquery => exact ⟨rfl, hquery⟩

theorem bind_refuseRaw {r r' : Except Error Query} (hr : SameResult r r') :
    SameResult (q.refuseRaw >>= fun _ => r) (q'.refuseRaw >>= fun _ => r') := by
  rw [h.refuseRaw]
  exact .bind q.refuseRaw fun _ => hr

theorem unlessRaw {p p' : Query} (hp : Alike p p') :
    SameOutcome (q.unlessRaw p) (q'.unlessRaw p') := by
  refine h.attempt ?_
  rw [h.refuseRaw]
  cases q.refuseRaw with
  | error e => exact .error e
  | ok u => exact .ok hp

theorem pushValue (field : String) (value value' : Json) (exact : Bool)
    (demand : String → Demand) :
    SameResult (q.pushValue field (.json value) exact demand)
      (q'.pushValue field (.json value') exact demand) := by
  obtain ⟨hname, hbound⟩ := h.bind value value'
  exact h.bind_refuseRaw (.ok (hbound.pushCondition field (congrArg demand hname) exact))

theorem pushBetween (field : String) (low low' high high' : Json) :
    SameOutcome (q.pushBetween field (.json low) (.json high))
      (q'.pushBetween field (.json low') (.json high')) := by
  obtain ⟨hlow, hbound⟩ := h.bind low low'
  obtain ⟨hhigh, hbound⟩ := hbound.bind high high'
  have hpushed := hbound.pushCondition field (congr (congrArg Demand.between hlow) hhigh) false
  unfold Query.pushBetween
  rw [h.refuseRaw]
  cases q.refuseRaw with
  | error e => exact ⟨rfl, h⟩
  | ok u => exact ⟨rfl, hpushed⟩

theorem pushWithin (field : String)
    (radius radius' latitude latitude' longitude longitude' : Binary64) (units : Option Units) :
    Alike (q.pushWithin field radius latitude longitude units)
      (q'.pushWithin field radius' latitude' longitude' units) := by
  obtain ⟨hradius, hbound⟩ := h.bind (ofFloat radius) (ofFloat radius')
  obtain ⟨hlatitude, hbound⟩ := hbound.bind (ofFloat latitude) (ofFloat latitude')
  obtain ⟨hlongitude, hbound⟩ := hbound.bind (ofFloat longitude) (ofFloat longitude')
  let within (radius latitude longitude : String) : Demand :=
    .spatial .within (some (.circle radius latitude longitude units))
  have hdemand := congr (congr (congrArg within hradius) hlatitude) hlongitude
  exact hbound.pushCondition field hdemand false

theorem pushRelation (field shape shape' : String) (relation : Relation) (units : Option Units) :
    Alike (q.pushRelation field shape relation units)
      (q'.pushRelation field shape' relation units) := by
  obtain ⟨hname, hbound⟩ := h.bind (.str shape) (.str shape')
  let related (shape : String) : Demand := .spatial relation (some (.wellKnownText shape units))
  exact hbound.pushCondition field (congrArg related hname) false

theorem bindAs (name : String) (value value' : Json) :
    SameResult (q.bindAs name (.json value)) (q'.bindAs name (.json value')) := by
  unfold Query.bindAs
  dsimp only
  rw [contains_congr h.names]
  refine .ite (.error _) (.ite (.error _) (.ok ⟨?_, ?_⟩))
  · rw [h.rest]
    rfl
  · exact Keyed.keys_insert_congr h.names _ value' value

theorem boostLast (factor : Binary64) : SameResult (q.boostLast factor) (q'.boostLast factor) := by
  rw [h.rest]
  exact .ite (.error _) (.bind (q.lastCondition "boost") fun _ =>
    .ite (.ok ⟨rfl, h.names⟩) (.ok ⟨rfl, h.names⟩))

theorem fuzzyLast (distance : Binary64) :
    SameResult (q.fuzzyLast distance) (q'.fuzzyLast distance) := by
  rw [h.rest]
  exact .ite (.error _) (.bind (q.lastCondition "fuzzy") fun _ => .ok ⟨rfl, h.names⟩)

theorem proximityLast (distance : Nat) :
    SameResult (q.proximityLast distance) (q'.proximityLast distance) := by
  rw [h.rest]
  refine .ite (.error _) (.bind (q.lastCondition "proximity") fun ⟨before, c⟩ => ?_)
  dsimp only
  cases c.demand with
  | search => exact .ok ⟨rfl, h.names⟩
  | _ => exact .error _

theorem join (c : Connective) : SameResult (q.join c) (q'.join c) := by
  rw [h.rest]
  refine .bind q.refuseRaw fun _ => ?_
  dsimp only [Query.withParameters]
  cases q.tokens.getLast? with
  | none => exact .ok ⟨rfl, h.names⟩
  | some t =>
    cases t with
    | connective | openGroup | negation => exact .error _
    | condition | closeGroup | always => exact .ok ⟨rfl, h.names⟩

end Alike

theorem Literal.eq_json_of_isWritable {value : Literal} (h : value.isWritable = true) :
    ∃ v, value = .json v := by
  cases value with
  | json v => exact ⟨v, rfl⟩
  | unwritable => cases h

theorem arrayOf_of_isWritable {values : List Literal} (h : values.all Literal.isWritable = true) :
    ∃ items, arrayOf values = .ok (.json (.arr items)) := by
  have hitems : ∃ items, values.mapM Literal.toJson = .ok items := by
    induction values with
    | nil => exact ⟨[], rfl⟩
    | cons value rest ih =>
      rw [List.all_cons, Bool.and_eq_true] at h
      obtain ⟨v, rfl⟩ := Literal.eq_json_of_isWritable h.1
      obtain ⟨items, hrest⟩ := ih h.2
      refine ⟨v :: items, ?_⟩
      rw [List.mapM_cons, hrest]
      rfl
  obtain ⟨items, hitems⟩ := hitems
  refine ⟨items, ?_⟩
  rw [arrayOf, hitems]
  rfl

/-- A call without its values does what the call does, up to the values. -/
theorem Alike.call_blank {q q' : Query} (h : Alike q q') {c : Call} (hc : c.isWritable = true) :
    SameOutcome (q.call c) (q'.call c.blank) := by
  cases c with
  | parameter name value =>
    obtain ⟨v, rfl⟩ := Literal.eq_json_of_isWritable hc
    exact h.attempt (h.bindAs name v .null)
  | compare comparison field value exact =>
    obtain ⟨v, rfl⟩ := Literal.eq_json_of_isWritable hc
    exact h.attempt (h.pushValue field v .null exact (.compare comparison))
  | oneOf field values =>
    obtain ⟨items, hitems⟩ := arrayOf_of_isWritable hc
    refine h.attempt ?_
    rw [hitems]
    exact h.pushValue field (.arr items) (.arr []) false .oneOf
  | allOf field values =>
    obtain ⟨items, hitems⟩ := arrayOf_of_isWritable hc
    refine h.attempt ?_
    rw [hitems]
    exact h.pushValue field (.arr items) (.arr []) false .allOf
  | between field low high =>
    rw [Call.isWritable, Bool.and_eq_true] at hc
    obtain ⟨lowValue, rfl⟩ := Literal.eq_json_of_isWritable hc.1
    obtain ⟨highValue, rfl⟩ := Literal.eq_json_of_isWritable hc.2
    exact h.pushBetween field lowValue .null highValue .null
  | textMatch kind field value =>
    obtain ⟨v, rfl⟩ := Literal.eq_json_of_isWritable hc
    exact h.attempt (h.pushValue field v .null false (.textMatch kind))
  | search field terms connective =>
    exact h.attempt (h.pushValue field (.str terms) (.str "") false (.search connective))
  | withinRadius field radius latitude longitude units =>
    exact h.unlessRaw (h.pushWithin field radius one latitude one longitude one units)
  | relatesTo field shape relation units =>
    exact h.unlessRaw (h.pushRelation field shape "" relation units)
  -- from here on, calls without values
  | boost factor => exact h.attempt (h.boostLast factor)
  | fuzzy distance => exact h.attempt (h.fuzzyLast distance)
  | proximity distance => exact h.attempt (h.proximityLast distance)
  | connective c => exact h.attempt (h.join c)
  | nameSource name | load _ name =>
    refine h.attempt ?_
    rw [h.rest]
    exact .bind q.refuseRaw fun _ => .bind (refuseName name) fun _ => .ok ⟨rfl, h.names⟩
  | raw | closeGroup | usualConnective | distinct | groupBy =>
    refine h.attempt ?_
    rw [h.rest]
    exact .bind q.refuseRaw fun _ => .ite (.error _) (.ok ⟨rfl, h.names⟩)
  | includePath =>
    refine h.attempt ?_
    rw [h.rest]
    exact .bind q.refuseRaw fun _ => .ite (.ok ⟨rfl, h.names⟩) (.ok ⟨rfl, h.names⟩)
  | orderBy | orderByScore | orderRandomly | select | selectAs | declare | groupKey | groupSum
  | groupCount =>
    refine h.attempt ?_
    rw [h.rest]
    exact .bind q.refuseRaw fun _ => .ok ⟨rfl, h.names⟩
  | present | always | openGroup | negateNext =>
    refine h.unlessRaw ?_
    rw [h.rest]
    exact ⟨rfl, h.names⟩
  | skip | take | waitForNonStaleResults | noTracking | noCaching | skipDuplicateChecking =>
    rw [h.rest]
    exact ⟨rfl, rfl, h.names⟩

/-! ## Runs -/

theorem Alike.run_blank {q q' : Query} (h : Alike q q') {calls : List Call}
    (hcalls : ∀ c ∈ calls, c.isWritable = true) :
    refusals q' (calls.map Call.blank) = refusals q calls
      ∧ Alike (q.build calls) (q'.build (calls.map Call.blank)) := by
  induction calls generalizing q q' with
  | nil => exact ⟨rfl, h⟩
  | cons c rest ih =>
    obtain ⟨herror, hquery⟩ := h.call_blank (hcalls c (List.mem_cons_self ..))
    obtain ⟨hrefusals, hbuild⟩ := ih hquery fun c' hc' => hcalls c' (List.mem_cons_of_mem c hc')
    refine ⟨?_, hbuild⟩
    rw [List.map_cons, refusals, refusals, herror, hrefusals]

/-- Calls that differ in nothing but values, all of which have a JSON form, are refused with the
same errors, and give queries of the same text with parameters of the same names. -/
theorem values_stay_out_of_text (conventions : Conventions) (source : Source)
    {calls calls' : List Call} (h : calls.map Call.blank = calls'.map Call.blank)
    (hcalls : ∀ c ∈ calls, c.isWritable = true) (hcalls' : ∀ c ∈ calls', c.isWritable = true) :
    refusals (new conventions source) calls = refusals (new conventions source) calls'
      ∧ ((new conventions source).build calls).text = ((new conventions source).build calls').text
      ∧ ((new conventions source).build calls).parameters.keys
        = ((new conventions source).build calls').parameters.keys := by
  obtain ⟨hrefusals, hbuild⟩ := (Alike.refl (new conventions source)).run_blank hcalls
  obtain ⟨hrefusals', hbuild'⟩ := (Alike.refl (new conventions source)).run_blank hcalls'
  rw [h] at hrefusals hbuild
  exact ⟨hrefusals.symm.trans hrefusals', hbuild.text.symm.trans hbuild'.text,
    hbuild.names.symm.trans hbuild'.names⟩

/-- Values of all kinds, with a name that is taken and calls that are refused. -/
theorem values_stay_out_of_text_taken :
    let calls : List Call :=
      [.parameter "$p1" (.json (.str "' or true")),
        .compare .equal "Name" (.json (.str "x) or (y")) true,
        .oneOf "Age" [.json (.num (.int 1)), .json .null, .json (.str "$p0")],
        .parameter "p1" (.json .null), .negateNext, .openGroup,
        .search "Notes" "al, and) or true" .and, .proximity 2, .closeGroup,
        .between "Age" (.json (.num (.int 1))) (.json (.num (.int 9))), .proximity 2,
        .withinRadius "Place" (Binary64.ofNat 5) (Binary64.ofNat 1) (Binary64.ofNat 2) none,
        .relatesTo "Place" "POINT(1 2)" .intersects (some .miles)]
    let calls' : List Call :=
      [.parameter "$p1" (.json (.arr [])), .compare .equal "Name" (.json .null) true,
        .oneOf "Age" [], .parameter "p1" (.json (.bool true)), .negateNext, .openGroup,
        .search "Notes" "" .and, .proximity 2, .closeGroup,
        .between "Age" (.json (.str "")) (.json (.str "$p9")), .proximity 2,
        .withinRadius "Place" one one one none, .relatesTo "Place" ")" .intersects (some .miles)]
    let q := ofCollection {} "Users"
    (q.build calls).text = .ok ("from Users where exact(Name = $p2) and Age in ($p3)"
        ++ " and not (proximity(search(Notes, $p4, and), 2)) or Age between $p5 and $p6"
        ++ " and spatial.within(Place, spatial.circle($p7, $p8, $p9))"
        ++ " and spatial.intersects(Place, spatial.wkt($p10, 'Miles'))")
      ∧ refusals q calls = refusals q calls'
      ∧ (q.build calls).text = (q.build calls').text
      ∧ (q.build calls).parameters.keys = (q.build calls').parameters.keys := by
  intro calls calls' q
  refine ⟨by decide +kernel, values_stay_out_of_text {} (.collection "Users") ?_ ?_ ?_⟩
  · decide +kernel
  · decide +kernel
  · decide +kernel

end DocumentSession.Query
