import DocumentSession.Proofs.LoadAgain

set_option autoImplicit false

/-! # The value of a lazy read

`LazyRead.receive` turns the `SubResponse` of a read into its value, by the status and the body. A
load with status 404 marks the identifiers that it `requested` as missing; its value is then what
the workspace answers for all the identifiers it is for (`Workspace.AnswersWith`). If
`LoadReply.ofBody` or `QueryReply.ofBody` refuses the body, the read fails and nothing changes. -/

namespace DocumentSession.LazyRead

open Workspace

variable {w w' : Workspace} {type : EntityType} {response : SubResponse}
  {value : Except Error LazyValue}

/-! ## Loads -/

/-- The `value` that a load of `ids` gets for `response`, if it last `requested` some of them. -/
structure ReceivesLoad (w : Workspace) (type : EntityType) (ids requested : List String)
    (response : SubResponse) (value : Except Error LazyValue) (w' : Workspace) : Prop where
  /-- After a 404 each identifier in `requested` is missing. -/
  missing : response.status = 404 → ∀ id ∈ requested, w'.work.missing.contains id = true
  /-- With any other status the error of `LoadReply.ofBody` is the error of the read. -/
  malformed : response.status ≠ 404 → ∀ e,
    LoadReply.ofBody response.result requested.length = .error e → value = .error e ∧ w' = w
  /-- A load that succeeds has an answer for each of `ids` and for no other identifier, and the
  workspace says this answer afterwards. -/
  documents : ∀ loaded, value = .ok loaded → ∃ found, loaded = .documents found
    ∧ (∀ id, (found.find? id).isSome = true ↔ id ∈ ids)
    ∧ ∀ id answer, found.find? id = some answer → w'.AnswersWith type id answer

theorem consistent_takeLoaded (hw : w.Consistent) {requested : List String}
    {answer : Except Error Unit} (h : takeLoaded w requested response = (answer, w')) :
    w'.Consistent := by
  unfold takeLoaded at h
  split at h
  · obtain ⟨-, rfl⟩ := Prod.mk.inj h
    exact hw.reads (D := fun _ => True) (readClosed_reads.markAllMissing w requested)
  · split at h
    · obtain ⟨-, rfl⟩ := Prod.mk.inj h
      exact hw
    · exact hw.reads (D := fun _ => True)
        (readClosed_reads.takeLoad ⟨fun _ _ => trivial, fun _ _ => trivial⟩ h)

/-- `receive` of a lazy load. -/
theorem receivesLoad (hw : w.Consistent) {ids includes requested : List String}
    (h : (LazyRead.load type ids includes requested).receive w response = (value, w')) :
    ReceivesLoad w type ids requested response value w' := by
  unfold receive at h
  dsimp only at h
  rcases htaken : takeLoaded w requested response with ⟨taken, w₁⟩
  rw [htaken] at h
  have hw₁ := consistent_takeLoaded hw htaken
  unfold takeLoaded at htaken
  cases taken with
  | error e =>
    obtain ⟨rfl, rfl⟩ := Prod.mk.inj h
    refine ⟨?_, ?_, fun _ => nofun⟩
    · intro hstatus
      rw [if_pos hstatus] at htaken
      cases (Prod.mk.inj htaken).1
    · intro hstatus e' hbody
      rw [if_neg hstatus, hbody] at htaken
      obtain ⟨he, rfl⟩ := Prod.mk.inj htaken
      exact ⟨congrArg Except.error (Except.error.inj he).symm, rfl⟩
  | ok _ =>
    rcases hcollect : w₁.collect type [] ids with ⟨found, w₂⟩
    dsimp only at h
    rw [hcollect] at h
    obtain ⟨rfl, rfl⟩ := Prod.mk.inj h
    refine ⟨?_, ?_, ?_⟩
    · intro hstatus id hid
      rw [if_pos hstatus] at htaken
      obtain ⟨-, rfl⟩ := Prod.mk.inj htaken
      rw [(looksUp_collect hcollect).missing]
      exact contains_markAllMissing w requested id (Or.inr hid)
    · intro hstatus e hbody
      rw [if_neg hstatus, hbody] at htaken
      cases (Prod.mk.inj htaken).1
    · intro loaded hloaded
      cases found with
      | error e => cases hloaded
      | ok found =>
        obtain ⟨heach, hpresent⟩ := collect_cases hw₁ (by simp [Keyed.find?]) hcollect
        refine ⟨found, (Except.ok.inj hloaded).symm, ?_, heach⟩
        intro id
        simpa [Keyed.find?] using hpresent id

/-- A load with status 404 finds `none` for each identifier that it `requested`. -/
theorem ReceivesLoad.none_of_status {ids requested : List String}
    (h : ReceivesLoad w type ids requested response value w') (hstatus : response.status = 404)
    {found : Dict (Option EntityRef)} (hvalue : value = .ok (.documents found)) {id : String}
    (hrequested : id ∈ requested) (hid : id ∈ ids) : found.find? id = some none := by
  have hmissing := h.missing hstatus id hrequested
  obtain ⟨found', heq, hpresent, heach⟩ := h.documents _ hvalue
  obtain rfl := LazyValue.documents.inj heq
  obtain ⟨answer, hanswer⟩ := Option.isSome_iff_exists.mp ((hpresent id).mpr hid)
  have hknows := (heach id answer hanswer).knows (Or.inl hmissing)
  rw [hanswer, hknows.unique (.missing hmissing)]

/-! ## Queries and counts -/

/-- The `value` that a query gets for `response`. -/
structure ReceivesQuery (w : Workspace) (response : SubResponse) (value : Except Error LazyValue)
    (w' : Workspace) : Prop where
  malformed : ∀ e, QueryReply.ofBody response.result = .error e → value = .error e ∧ w' = w
  /-- A query that succeeds has an entity for each result that is an object, and the statistics of
  the reply. -/
  results : ∀ reply, QueryReply.ofBody response.result = .ok reply →
    ∀ loaded, value = .ok loaded → ∃ found, loaded = .results found
      ∧ found.results.length = (reply.results.filterMap Json.fields?).length
      ∧ found.total = reply.total ∧ found.stale = reply.stale ∧ found.index = reply.index

theorem length_takeResults {tracking : Bool} {results : List Json} {entities : List EntityRef}
    (h : w.takeResults type tracking results = (.ok entities, w')) :
    entities.length = (results.filterMap Json.fields?).length := by
  induction results generalizing w entities with
  | nil =>
    obtain ⟨hentities, -⟩ := Prod.mk.inj h
    obtain rfl := Except.ok.inj hentities
    rfl
  | cons result rest ih =>
    cases result with
    | obj document =>
      rw [takeResults] at h
      split at h
      · cases (Prod.mk.inj h).1
      · split at h
        · next hrest =>
          obtain ⟨hentities, rfl⟩ := Prod.mk.inj h
          obtain rfl := Except.ok.inj hentities
          exact congrArg Nat.succ (ih hrest)
        · next hrest => exact (hrest _ _ h).elim
    | null | bool | num | str | arr => exact ih h

/-- `receive` of a lazy query. -/
theorem receivesQuery {q : Query.Frozen} {tracking : Bool}
    (h : (LazyRead.query type q tracking).receive w response = (value, w')) :
    ReceivesQuery w response value w' := by
  unfold receive at h
  dsimp only at h
  refine ⟨?_, ?_⟩
  · intro e hbody
    rw [hbody] at h
    obtain ⟨rfl, rfl⟩ := Prod.mk.inj h
    exact ⟨rfl, rfl⟩
  · intro reply hbody loaded hloaded
    rw [hbody] at h
    dsimp only at h
    unfold takeQuery at h
    subst hloaded
    split at h
    · cases (Prod.mk.inj h).1
    · split at h
      · cases (Prod.mk.inj h).1
      · next hresults =>
        obtain ⟨hfound, -⟩ := Prod.mk.inj h
        obtain rfl := Except.ok.inj hfound
        exact ⟨_, rfl, length_takeResults hresults, rfl, rfl, rfl⟩

/-- `receive` of a lazy count gives the total of the reply, or its error, and changes nothing. -/
theorem receive_count_eq_iff (w : Workspace) (q : Query.Frozen) (n : Nat) :
    (LazyRead.count q).receive w response = (.ok (.count n), w)
      ↔ ∃ reply, QueryReply.ofBody response.result = .ok reply ∧ reply.total = n := by
  unfold receive
  dsimp only
  cases QueryReply.ofBody response.result <;> simp [Except.map]

end DocumentSession.LazyRead
