import DocumentSession.Proofs.Sends
import DocumentSession.Proofs.AnswerItems

set_option autoImplicit false

/-! # Loads without a request

A load that succeeds sends a request unless everything it asks for is known, and with `noTracking`
it always sends one. So a load answers `none` without a request only if its identifier is in
`missing` or its record is in `deleted` (`OpenSession.known_of_load_none`). -/

namespace DocumentSession.OpenSession

variable {s s' : OpenSession} {type : EntityType} {id : String} {ids includes : List String}
  {found : Dict (Option EntityRef)}

theorem sent_of_send_eq_ok {operation : String} {r : Request} {response : Response}
    (hsend : s.send operation r = (.ok response, s')) :
    s'.connection.sent ≠ s.connection.sent := by
  intro hsent
  rcases (sends_of_send hsend).connection with ⟨-, halt, herror⟩ | hexecuted
  · cases herror
  · have hconnection := congrArg Prod.snd hexecuted
    rw [show s'.connection = _ from hconnection] at hsent
    simp [Connection.execute] at hsent

/-- A `fetch` that succeeds has sent a request. -/
theorem sent_of_fetch_eq_ok (hfetch : s.fetch ids includes = (.ok (), s')) :
    s'.connection.sent ≠ s.connection.sent := by
  unfold fetch at hfetch
  rcases hsend : s.send loadOperation (loadRequest ids includes) with ⟨_ | response, s₁⟩
  · rw [hsend] at hfetch
    cases (Prod.mk.inj hfetch).1
  · have hsent := sent_of_send_eq_ok hsend
    rw [hsend] at hfetch
    dsimp only at hfetch
    split at hfetch
    · obtain ⟨-, rfl⟩ := Prod.mk.inj hfetch
      exact hsent
    · split at hfetch
      · cases (Prod.mk.inj hfetch).1
      · split at hfetch
        · cases (Prod.mk.inj hfetch).1
        · rw [(eq_ok_of_attempt hfetch).2]
          exact hsent

theorem sent_of_loadDetached_eq_ok (hload : s.loadDetached type ids includes = (.ok found, s')) :
    s'.connection.sent ≠ s.connection.sent := by
  unfold loadDetached at hload
  rcases hsend : s.send loadOperation (loadRequest ids includes) with ⟨_ | response, s₁⟩
  · rw [hsend] at hload
    cases (Prod.mk.inj hload).1
  · have hsent := sent_of_send_eq_ok hsend
    rw [hsend] at hload
    dsimp only at hload
    split at hload
    · obtain ⟨-, rfl⟩ := Prod.mk.inj hload
      exact hsent
    · split at hload
      · cases (Prod.mk.inj hload).1
      · split at hload
        · cases (Prod.mk.inj hload).1
        · rw [(eq_ok_of_attempt hload).2]
          exact hsent

/-- A `loadMany` that succeeds without a request has no `unknownIds`, and collects its answer from
the records. -/
theorem loadMany_of_unsent (hload : s.loadMany type ids includes = (.ok found, s'))
    (hsent : s'.connection.sent = s.connection.sent) :
    ∃ w, s.workspace.unknownIds type ids = (.ok [], w)
      ∧ w.collect type [] ids = (.ok found, s'.workspace) := by
  unfold loadMany at hload
  split at hload
  · cases (Prod.mk.inj hload).1
  split at hload
  · exact absurd hsent (sent_of_loadDetached_eq_ok hload)
  unfold loadTracked at hload
  rcases hunknown : s.attempt (·.unknownIds type ids) with ⟨_ | unknown, s₁⟩
  · rw [hunknown] at hload
    cases (Prod.mk.inj hload).1
  obtain ⟨hasked, hconnection⟩ := eq_ok_of_attempt hunknown
  rw [hunknown] at hload
  dsimp only at hload
  by_cases hnone : unknown = []
  · subst hnone
    exact ⟨s₁.workspace, hasked, (eq_ok_of_attempt hload).1⟩
  · rw [if_neg hnone] at hload
    rcases hfetch : s₁.fetch unknown.eraseDups includes with ⟨_ | _, s₂⟩
    · rw [hfetch] at hload
      cases (Prod.mk.inj hload).1
    · rw [hfetch] at hload
      have hgrows := sent_of_fetch_eq_ok hfetch
      rw [← (eq_ok_of_attempt hload).2, hsent, hconnection] at hgrows
      exact absurd rfl hgrows

/-- A `load` answers `none` without a request only if `id` is in `missing` or its record is in
`deleted`. -/
theorem known_of_load_none (hload : (s.load type id includes).1 = .ok none)
    (hsent : (s.load type id includes).2.connection.sent = s.connection.sent) :
    s.idIndexes.missing.contains id = true
      ∨ ∃ key, s.idIndexes.identities.get? id = some key
        ∧ s.idIndexes.deleted.contains key = true := by
  unfold load at hload hsent
  rcases hmany : s.loadMany type [id] includes with ⟨_ | found, s'⟩
  · rw [hmany] at hload
    cases hload
  rw [hmany] at hload hsent
  obtain ⟨w, hunknown, hcollect⟩ := loadMany_of_unsent hmany hsent
  have hknown : ∃ entity, s.workspace.lookup type id = (.ok (.known entity), w) := by
    rw [Workspace.unknownIds] at hunknown
    rcases hlookup : s.workspace.lookup type id with ⟨_ | entity | _, w₁⟩
    · rw [hlookup] at hunknown
      cases (Prod.mk.inj hunknown).1
    · rw [hlookup] at hunknown
      obtain ⟨-, rfl⟩ := Prod.mk.inj hunknown
      exact ⟨entity, rfl⟩
    · rw [hlookup] at hunknown
      cases (Prod.mk.inj hunknown).1
  obtain ⟨entity, hlookup⟩ := hknown
  have hindexes : w.idIndexes = s.idIndexes := by
    have hsame := s.workspace.idIndexes_lookup type id
    rw [hlookup] at hsame
    exact hsame
  have hknows := (Workspace.lookup_cases hlookup).2 entity rfl
  rw [Workspace.collect, hknows.lookup_eq] at hcollect
  obtain ⟨hfound, -⟩ := Prod.mk.inj hcollect
  obtain rfl := Except.ok.inj hfound
  obtain rfl : entity = none := by simpa [Keyed.insert, Keyed.find?, Except.map] using hload
  rw [← hindexes]
  cases hknows with
  | missing hmissing => exact Or.inl hmissing
  | toDelete _ hkey hdelete => exact Or.inr ⟨_, hkey, hdelete⟩

end DocumentSession.OpenSession
