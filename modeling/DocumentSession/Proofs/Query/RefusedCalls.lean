import DocumentSession.Proofs.Query.Parameters

set_option autoImplicit false

/-! # Refused calls

A call that is refused keeps the query, with one exception. `between` binds the lower value before
it turns out that the higher one has no JSON form; the call is refused then, and the lower value
stays bound to a parameter that nothing uses (`refused_call_changes_nothing_iff`).

Once the text is given by `raw`, every call that would write a part of a text is refused. The text
stays what it is, and only accepted calls of `parameter` add to the parameters
(`raw_text_is_final`). -/

namespace DocumentSession.Query

/-! ## What a refused call changes -/

theorem eq_of_attempt_refused {q : Query} {r : Except Error Query} {e : Error}
    (h : (q.attempt r).1 = some e) : (q.attempt r).2 = q := by
  cases r with
  | error e' => rfl
  | ok q' => cases h

/-- Every call but `between` is accepted, or keeps the query. -/
theorem eq_of_call_refused {q : Query} {c : Call} {e : Error}
    (hc : ∀ field low high, c ≠ .between field low high) (h : (q.call c).1 = some e) :
    (q.call c).2 = q := by
  cases c with
  | between field low high => exact absurd rfl (hc field low high)
  | skip | take | waitForNonStaleResults | noTracking | noCaching | skipDuplicateChecking => cases h
  | _ => exact eq_of_attempt_refused h

theorem pushBetween_refused {q : Query} {field : String} {low high : Literal} {e : Error}
    (h : (q.pushBetween field low high).1 = some e) :
    (q.pushBetween field low high).2 = q
      ∨ q.raw = none ∧ ∃ value, low = .json value ∧ high = .unwritable := by
  unfold pushBetween at h ⊢
  split
  · exact Or.inl rfl
  · next lowValue hlow =>
    rw [hlow] at h
    obtain ⟨hraw, hlow⟩ := ok_of_refuseRaw_bind hlow
    cases low with
    | unwritable => cases hlow
    | json value =>
      cases high with
      | unwritable => exact Or.inr ⟨hraw, value, rfl, rfl⟩
      | json value' => cases h

/-- `between` binds the lower value before the higher one turns out to have no JSON form. -/
theorem call_between_unwritable {q : Query} (hraw : q.raw = none) (field : String) (low : Json) :
    q.call (.between field (.json low) .unwritable)
      = (some (.serialization "the value has no JSON form"), (q.bind low).2) := by
  have hnone : q.refuseRaw = .ok () := by simp [refuseRaw, isRaw, hraw]
  rw [call, pushBetween, hnone]
  rfl

/-- `bind` changes the query, for the parameter is new. -/
theorem bind_ne_self (q : Query) (value : Json) : (q.bind value).2 ≠ q := by
  intro hsame
  have hfound : Keyed.contains (q.bind value).2.parameters (freshName q.parameters) = true := by
    simp [Query.bind, Keyed.contains_insert]
  rw [hsame, contains_freshName] at hfound
  cases hfound

/-- A refused call leaves the query as it was, so that it is as if the call had not been made, if
and only if it is no condition between two values of which only the higher one has no JSON form, on
a query without raw text. Such a call binds the lower value to a new parameter, and does nothing
else. -/
theorem refused_call_changes_nothing_iff {q : Query} {c : Call} {e : Error}
    (h : (q.call c).1 = some e) :
    ((q.call c).2 = q
        ↔ ¬ (q.raw = none ∧ ∃ field low, c = .between field (.json low) .unwritable))
      ∧ ∀ field low, c = .between field (.json low) .unwritable → q.raw = none →
          (q.call c).2
            = { q with parameters := Keyed.insert q.parameters (freshName q.parameters) low } := by
  refine ⟨⟨?_, ?_⟩, ?_⟩
  · rintro hsame ⟨hraw, field, low, rfl⟩
    rw [call_between_unwritable hraw] at hsame
    exact bind_ne_self q low hsame
  · intro hnone
    by_cases hc : ∃ field low high, c = .between field low high
    · obtain ⟨field, low, high, rfl⟩ := hc
      rcases pushBetween_refused h with hsame | ⟨hraw, value, rfl, rfl⟩
      · exact hsame
      · exact absurd ⟨hraw, field, value, rfl⟩ hnone
    · exact eq_of_call_refused (fun field low high heq => hc ⟨field, low, high, heq⟩) h
  · rintro field low rfl hraw
    rw [call_between_unwritable hraw]
    rfl

/-- The second one of two ages has no JSON form, after a name was asked for. -/
theorem refused_call_changes_nothing_iff_ages :
    let q := (ofCollection {} "Users").build [.compare .equal "Name" (.json (.str "Ann")) false]
    let c : Call := .between "Age" (.json (.int 18)) .unwritable
    (q.call c).1 = some (.serialization "the value has no JSON form")
      ∧ (q.call c).2 ≠ q
      ∧ (q.call c).2 = { q with parameters := [("p0", .str "Ann"), ("p1", .int 18)] } := by
  intro q c
  have hrefused : (q.call c).1 = some (.serialization "the value has no JSON form") := by
    decide +kernel
  have hbound : Keyed.insert q.parameters (freshName q.parameters) (.int 18)
      = [("p0", .str "Ann"), ("p1", .int 18)] := by decide +kernel
  obtain ⟨hsame, hleft⟩ := refused_call_changes_nothing_iff hrefused
  refine ⟨hrefused, ?_, ?_⟩
  · intro heq
    exact hsame.mp heq ⟨rfl, "Age", .int 18, rfl⟩
  · rw [← hbound]
    exact hleft "Age" (.int 18) rfl rfl

/-- A refused condition on a new query changes its parameters and its hash. -/
theorem refused_range_binds :
    let q := ofCollection {} "Users"
    let c : Call := .between "Age" (.json (.int 18)) .unwritable
    (q.call c).1 = some (.serialization "the value has no JSON form")
      ∧ q.parameters = [] ∧ (q.call c).2.parameters = [("p0", .int 18)]
      ∧ q.hash ≠ (q.call c).2.hash := by
  decide +kernel

/-! ## Calls after `raw` -/

/-- The call gives a part of the text of a query, or all of it. -/
def Call.writes : Call → Bool
  | .parameter .. | .skip _ | .take _ | .waitForNonStaleResults | .noTracking | .noCaching
  | .skipDuplicateChecking => false
  | _ => true

/-- The name and the value that the call binds if it is accepted, for a call that does nothing
else. -/
def Call.binding? : Call → Option (String × Json)
  | .parameter name (.json value) => some (bareName name, value)
  | _ => none

/-- The step fails. -/
def Fails {α : Type} (r : Except Error α) : Prop :=
  ∃ e, r = .error e

namespace Fails

variable {α β : Type}

theorem first {x : Except Error α} (h : Fails x) (f : α → Except Error β) : Fails (x >>= f) := by
  obtain ⟨e, rfl⟩ := h
  exact ⟨e, rfl⟩

theorem second (x : Except Error α) {f : α → Except Error β} (h : ∀ a, Fails (f a)) :
    Fails (x >>= f) := by
  cases x with
  | error e => exact ⟨e, rfl⟩
  | ok a => exact h a

theorem ite {p : Prop} [Decidable p] {r r' : Except Error α} (h : Fails r) (h' : Fails r') :
    Fails (if p then r else r') := by
  split
  · exact h
  · exact h'

theorem refuseRaw {q : Query} {text : String} (hraw : q.raw = some text) : Fails q.refuseRaw := by
  simp [Fails, Query.refuseRaw, isRaw, hraw]

theorem lastCondition {q : Query} {text : String} (hraw : q.raw = some text) (modifier : String) :
    Fails (q.lastCondition modifier) :=
  (refuseRaw hraw).first _

theorem attempt {q : Query} {r : Except Error Query} (h : Fails r) :
    ∃ e, q.attempt r = (some e, q) := by
  obtain ⟨e, rfl⟩ := h
  exact ⟨e, rfl⟩

end Fails

/-- After `raw`, a call that writes is refused, whatever its arguments are. -/
theorem call_of_raw {q : Query} {text : String} (hraw : q.raw = some text) {c : Call}
    (hc : c.writes = true) : ∃ e, q.call c = (some e, q) := by
  have hfirst := Fails.refuseRaw hraw
  cases c with
  | oneOf | allOf => exact (Fails.second _ fun _ => hfirst.first _).attempt
  | between field low high =>
    obtain ⟨e, he⟩ := hfirst
    refine ⟨e, ?_⟩
    rw [call, pushBetween, he]
    rfl
  | present | always | withinRadius | relatesTo | openGroup | negateNext =>
    obtain ⟨e, he⟩ := hfirst
    refine ⟨e, ?_⟩
    rw [call, unlessRaw, he]
    rfl
  | boost | fuzzy | proximity =>
    exact (Fails.ite ⟨_, rfl⟩ ((Fails.lastCondition hraw _).first _)).attempt
  | parameter | skip | take | waitForNonStaleResults | noTracking | noCaching
  | skipDuplicateChecking => cases hc
  | _ => exact (hfirst.first _).attempt

/-- One call after `raw` keeps the text, and binds a value only if it is an accepted call of
`parameter`. -/
theorem raw_call {q : Query} {text : String} (hraw : q.raw = some text) (c : Call) :
    (q.call c).2.raw = some text
      ∧ Binds q.parameters (((q.accepted [c]).filterMap Call.binding?).map Prod.fst)
          (((q.accepted [c]).filterMap Call.binding?).map Prod.snd) (q.call c).2.parameters := by
  cases hc : c.writes with
  | true =>
    obtain ⟨e, he⟩ := call_of_raw hraw hc
    simp only [accepted, he]
    exact ⟨hraw, .nil _⟩
  | false =>
    cases c with
    | parameter name value =>
      cases hbind : q.bindAs name value with
      | error e =>
        have hcall : q.call (.parameter name value) = (some e, q) := by
          rw [call, hbind]
          rfl
        simp only [accepted, hcall]
        exact ⟨hraw, .nil _⟩
      | ok q' =>
        obtain ⟨json, rfl, hfree, rfl⟩ := eq_of_bindAs_eq_ok hbind
        have hcall : q.call (.parameter name (.json json))
            = (none, q.withParameters (Keyed.insert q.parameters (bareName name) json)) := by
          rw [call, hbind]
          rfl
        simp only [accepted, hcall]
        exact ⟨hraw, .cons hfree (.nil _)⟩
    | skip | take | waitForNonStaleResults | noTracking | noCaching | skipDuplicateChecking =>
      exact ⟨hraw, .nil _⟩
    | _ => cases hc

theorem raw_build {q : Query} {text : String} (hraw : q.raw = some text) (calls : List Call) :
    (q.build calls).raw = some text
      ∧ Binds q.parameters (((q.accepted calls).filterMap Call.binding?).map Prod.fst)
          (((q.accepted calls).filterMap Call.binding?).map Prod.snd)
          (q.build calls).parameters := by
  induction calls generalizing q with
  | nil => exact ⟨hraw, .nil _⟩
  | cons c rest ih =>
    obtain ⟨hkept, hbinds⟩ := raw_call hraw c
    obtain ⟨hfinal, hrest⟩ := ih hkept
    refine ⟨hfinal, ?_⟩
    rw [accepted_cons, List.filterMap_append, List.map_append, List.map_append]
    exact hbinds.append hrest

/-- Once a text was accepted as raw, it is the text of the query, whatever calls follow. Every call
that writes is refused and changes nothing. The parameters are those from before and, in order,
those of the accepted calls for a parameter, each bound under a name that no parameter had. -/
theorem raw_text_is_final {q₀ : Query} {text : String} (h : (q₀.call (.raw text)).1 = none)
    (calls : List Call) :
    let q₁ := (q₀.call (.raw text)).2
    let q := q₁.build calls
    let bound := (q₁.accepted calls).filterMap Call.binding?
    q.text = .ok text
      ∧ (∀ c, c.writes = true → ∃ e, q.call c = (some e, q))
      ∧ Binds q₁.parameters (bound.map Prod.fst) (bound.map Prod.snd) q.parameters := by
  intro q₁ q bound
  have hraw : q₁.raw = some text := by
    cases hset : q₀.setRaw text with
    | error e => simp [call, attempt, hset] at h
    | ok q' =>
      obtain ⟨-, hq'⟩ := ok_of_refuseRaw_bind hset
      split at hq'
      · cases hq'
      · obtain rfl := Except.ok.inj hq'
        simp [q₁, call, attempt, hset]
  obtain ⟨hfinal, hbinds⟩ := raw_build hraw calls
  refine ⟨?_, fun c hc => call_of_raw hfinal hc, hbinds⟩
  rw [Query.text, hfinal]

/-- A raw text with a parameter from before, and calls of which three are accepted. -/
theorem raw_text_is_final_adults :
    let q₀ := (ofIndex {} "Users/ByAge").build [.parameter "$low" (.json (.int 18))]
    let text := "from index 'Users/ByAge' where Age between $low and $high"
    let calls : List Call :=
      [.compare .equal "Name" (.json (.str "Ann")) false, .parameter "$high" (.json (.int 65)),
        .parameter "low" (.json (.int 21)), .between "Age" (.json .null) .unwritable, .take 5,
        .boost one, .parameter "limit" .unwritable, .noCaching]
    let q := (q₀.call (.raw text)).2.build calls
    (q₀.call (.raw text)).1 = none ∧ q.text = .ok text
      ∧ q.parameters = [("high", .int 65), ("low", .int 18)]
      ∧ Binds [("low", .int 18)] ["high"] [.int 65] q.parameters
      ∧ ∃ e, q.call (.raw "from Users") = (some e, q) := by
  intro q₀ text calls q
  have haccepted : (q₀.call (.raw text)).1 = none := by decide +kernel
  have hbound : ((q₀.call (.raw text)).2.accepted calls).filterMap Call.binding?
      = [("high", .int 65)] := by decide +kernel
  obtain ⟨htext, hrefused, hbinds⟩ := raw_text_is_final haccepted calls
  rw [hbound] at hbinds
  exact ⟨haccepted, htext, by decide +kernel, hbinds, hrefused (.raw "from Users") rfl⟩

end DocumentSession.Query
