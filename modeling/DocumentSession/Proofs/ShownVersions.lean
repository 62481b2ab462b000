import DocumentSession.Proofs.PerformCases
import DocumentSession.Proofs.Sends
import DocumentSession.Proofs.SettledVersions

set_option autoImplicit false

/-! # The versions that a session shows

Let `V` be the versions that documents have had, and let the server, the cache and the results of
saves tell nothing else (`Connection.Keeps`). If no operation gives a change vector of its own, then
each record shows a body together with the change vector that `V` has for it, unless a save set the
change vector for a deferred command and left the body as it was (`OpenSession.body_is_of_version`).

Such a save tears body and change vector apart (`OpenSession.tears`): a PUT under this change vector
overwrites a document that the session has not seen. -/

namespace DocumentSession

open Identifier (normalize)

/-- The documents that the server and the cache tell are in `V`, and so is what the server
stores. -/
structure Connection.Keeps (V : Versions) (c : Connection) : Prop where
  tells : c.Tells (IsVersion V)
  takes : ∀ (sent : List Request) (r : Request) (response : Response) (commands : List Command)
    (items : List Json) (i : Nat) (command : Command) (result : Fields),
    c.server (sent ++ [r]) = .ok response → response.isSuccess = true →
    r.body = some (Command.batchBody commands) → resultItems response.body = some items →
    commands[i]? = some command → items[i]? = some (.obj result) →
    (Json.obj result).isWellFormed = true ∧ Workspace.Accepts V command result

/-- Operations of other sessions leave a connection that keeps `V`. -/
def Operation.Keeps (V : Versions) : Operation → Prop
  | .outside _ connection _ => connection.Keeps V
  | _ => True

/-- Some record of the document `id` shows `body` at `version`. -/
def UnitOfWork.Shows (u : UnitOfWork) (id : String) (body : Fields) (version : String) : Prop :=
  ∃ key r, u.records.find? key = some r ∧ r.Shows id body version

theorem Workspace.Learns.shows {V : Versions} {w w' : Workspace} (h : w.Learns V w') {id : String}
    {body : Fields} {version : String} (hshows : w'.work.Shows id body version) :
    w.work.Shows id body version ∨ V id body version := by
  obtain ⟨key, r', hr', hshows⟩ := hshows
  rcases h key r' hr' with htrue | ⟨r, hr, hlearns⟩
  · exact Or.inr (htrue id body version hshows)
  · exact (hlearns id body version hshows).imp_left fun hbefore => ⟨key, r, hr, hbefore⟩

namespace OpenSession

open Workspace

variable {V torn : Versions} {s s' : OpenSession}

/-! ## Reading and saving -/

theorem Reads.keeps (hreads : s.Reads s') (hkeeps : s.connection.Keeps V) :
    s'.connection.Keeps V := by
  refine ⟨(hreads.tells _ hkeeps.tells).1, ?_⟩
  rw [hreads.server]
  exact hkeeps.takes

theorem Reads.learns (hreads : s.Reads s') (h : s.Consistent) (hkeeps : s.connection.Keeps V) :
    s.workspace.Learns V s'.workspace :=
  Workspace.Reads.learns h.workspace (hreads.tells _ hkeeps.tells).2

/-- The results in the reply to a plan tell versions in `V`. -/
theorem answered_of_takes (hkeeps : s.connection.Keeps V) {plan : Plan}
    (hcarries : ∀ planned ∈ plan, Carries planned) {response : Response}
    (hresponse : (s.connection.execute (s.session.options.scope (batchRequest plan))).1
      = .ok response)
    (hsuccess : response.isSuccess = true) {results : List Fields}
    (hresults : resultsFor plan response.body = .ok results) :
    ∀ pair ∈ plan.zip results, Answered V pair.1 pair.2 := by
  obtain ⟨hlisted, hnamed⟩ := eq_ok_of_resultsFor hresults
  intro pair hmem
  obtain ⟨i, hpair⟩ := List.mem_iff_getElem?.mp hmem
  obtain ⟨hplanned, hresult⟩ := List.getElem?_zip_eq_some.mp hpair
  have hbody : (s.session.options.scope (batchRequest plan)).body
      = some (Command.batchBody plan.commands) :=
    SessionOptions.body_scope _ _
  have htaken := hkeeps.takes _ _ response plan.commands (results.map .obj) i pair.1.command pair.2
    hresponse hsuccess hbody hlisted
    (by rw [Plan.commands, List.getElem?_map, hplanned]; rfl)
    (by rw [List.getElem?_map, hresult]; rfl)
  refine ⟨hcarries pair.1 (List.mem_of_getElem? hplanned), htaken.2, htaken.1, ?_⟩
  obtain ⟨hi, hplanned⟩ := List.getElem?_eq_some_iff.mp hplanned
  obtain ⟨hi', hresult⟩ := List.getElem?_eq_some_iff.mp hresult
  rw [← hplanned, ← hresult]
  exact hnamed.get hi hi'

/-- Settling a reply brings in versions in `V`, and the pairs of the commands in `NotesVersion`. -/
theorem learns_settled (h : s.Consistent) (hkeeps : s.connection.Keeps V) {plan : Plan}
    (hcarries : ∀ planned ∈ plan, Carries planned) {response : Response}
    (hsend : s.send "save_changes" (batchRequest plan) = (.ok response, s'))
    (hsuccess : response.isSuccess = true) :
    s'.workspace.Learns (fun id body version => V id body version
        ∨ ∃ results, resultsFor plan response.body = .ok results
          ∧ ∃ pair ∈ plan.zip results,
            NotesVersion pair.1 pair.2
              ((s'.workspace.settle s'.session.callbacks plan response.body).1 ≠ .ok ())
              id version)
      (s'.workspace.settle s'.session.callbacks plan response.body).2 := by
  cases hresults : resultsFor plan response.body with
  | error e =>
    have hleft : (s'.workspace.settle s'.session.callbacks plan response.body).2
        = s'.workspace := by
      unfold settle
      rw [hresults]
    exact .of_records (congrArg (·.work.records) hleft)
  | ok results =>
    have hanswered := answered_of_takes hkeeps hcarries (send_eq_ok hsend).2.2 hsuccess hresults
    have hsettled := learns_settle (h.reads (reads_send hsend)).workspace s'.session.callbacks
      hresults hanswered
    refine hsettled.mono ?_
    rintro id body version (htrue | ⟨pair, hmem, hnotes⟩)
    · exact Or.inl htrue
    · exact Or.inr ⟨results, rfl, pair, hmem, hnotes⟩

/-- A save brings in versions in `V`, and the pairs of the commands in `NotesVersion`. -/
theorem learns_save (h : s.Consistent) (hkeeps : s.connection.Keeps V) :
    s.workspace.Learns (fun id body version => V id body version
        ∨ ∃ pair ∈ s.batchResults, NotesVersion pair.1 pair.2 (s.save.1 ≠ .ok ()) id version)
        s.save.2.workspace
      ∧ s.save.2.connection.Keeps V := by
  have hplanned : ∀ {planned w}, s.workspace.planSave s.session.callbacks = (planned, w) →
      (∀ {V'}, s.workspace.Learns V' w) ∧ (s.withWorkspace w).Consistent := by
    intro planned w hplan
    have hconsistent := h.workspace.planSave h.callbacks
    rw [hplan] at hconsistent
    exact ⟨(plans_planSave hplan).learns, h.withWorkspace hconsistent⟩
  -- sending tells nothing but versions of documents
  have hsent : ∀ {plan w answer s₁},
      s.workspace.planSave s.session.callbacks = (.ok plan, w) →
      (s.withWorkspace w).send "save_changes" (batchRequest plan) = (answer, s₁) →
      (∀ {V' : Versions}, s.workspace.Learns (fun id body version =>
          V id body version ∨ V' id body version) s₁.workspace) ∧ s₁.connection.Keeps V := by
    intro plan w answer s₁ hplan hsend
    obtain ⟨hlearns, hconsistent⟩ := hplanned hplan
    have hreads := reads_send hsend
    exact ⟨hlearns.trans ((hreads.learns hconsistent hkeeps).mono fun _ _ _ htrue =>
      Or.inl htrue), hreads.keeps hkeeps⟩
  rcases hsave : s.save with ⟨answer, s'⟩
  cases saveEnds hsave with
  | refused hplan | idle hplan => exact ⟨(hplanned hplan).1, hkeeps⟩
  | unanswered hplan _ hsend | failed hplan _ hsend =>
    exact ⟨(hsent hplan hsend).1, (hsent hplan hsend).2⟩
  | conflict hplan _ hsend =>
    obtain ⟨hlearns, hkept⟩ := hsent hplan hsend
    exact ⟨hlearns.trans (.of_records rfl), (Reads.warn _ .batchRejected).keeps hkept⟩
  | settled hplan _ hsend hsuccess =>
    obtain ⟨hlearns, hkept⟩ := hsent hplan hsend
    have hsettled := learns_settled (hplanned hplan).2 hkeeps (carries_planSave hplan) hsend
      hsuccess
    refine ⟨hlearns.trans (hsettled.mono ?_), hkept⟩
    rintro id body version (htrue | ⟨results, hresults, pair, hmem, hnotes⟩)
    · exact Or.inl htrue
    · rw [← batchResults_eq hplan (send_eq_ok hsend).2.2 hresults] at hmem
      refine Or.inr ⟨pair, hmem, hnotes.mono fun hfailed hok => hfailed ?_⟩
      exact Except.eq_ok_of_mapError hok

/-! ## All operations -/

/-- The pairs that an operation tears apart: a save shows them and no record did before, and the
change vector was set for a deferred command by `NotesVersion`. -/
def tears (s : OpenSession) : Operation → Versions
  | .save => fun id body version =>
    s.save.2.session.work.Shows id body version ∧ ¬ s.session.work.Shows id body version
      ∧ ∃ pair ∈ s.batchResults, NotesVersion pair.1 pair.2 (s.save.1 ≠ .ok ()) id version
  | _ => fun _ _ _ => False

/-- What records show after an operation was shown before, is in `V`, or is torn apart by the
operation. -/
theorem PerformCases.shows {operation : Operation} (hcases : s.PerformCases operation s')
    (h : s.Consistent) (hgiven : operation.given = none) (hkeeps : s.connection.Keeps V)
    (houtside : operation.Keeps V) :
    s'.connection.Keeps V ∧ ∀ id body version, s'.session.work.Shows id body version →
      s.session.work.Shows id body version ∨ V id body version
        ∨ s.tears operation id body version := by
  -- only a save can bring in anything else than versions of documents
  have hlearns : ∀ {s' : OpenSession}, s.workspace.Learns V s'.workspace →
      ∀ id body version, s'.session.work.Shows id body version →
        s.session.work.Shows id body version ∨ V id body version
          ∨ s.tears operation id body version :=
    fun hlearns id body version hshows =>
      (Learns.shows hlearns hshows).imp_right Or.inl
  cases hcases with
  | localSteps hlocal hconnection _ =>
    rw [hgiven] at hlocal
    exact ⟨by rw [hconnection]; exact hkeeps, hlearns hlocal.learns⟩
  | reads _ hreads =>
    rw [← connection_asked s operation] at hkeeps
    have hasked : s.workspace.Learns V (s.asked operation).workspace :=
      .of_records (congrArg (·.work.records) (session_asked s operation))
    exact ⟨hreads.keeps hkeeps,
      hlearns (hasked.trans (hreads.learns (asked_consistent h operation) hkeeps))⟩
  | saves =>
    obtain ⟨hsaved, hkept⟩ := learns_save h hkeeps
    refine ⟨hkept, fun id body version hshows => ?_⟩
    by_cases hbefore : s.session.work.Shows id body version
    · exact Or.inl hbefore
    · rcases Learns.shows hsaved hshows with hbefore' | htrue | hnotes
      · exact absurd hbefore' hbefore
      · exact Or.inr (Or.inl htrue)
      · exact Or.inr (Or.inr ⟨hshows, hbefore, hnotes⟩)
  | listens callbacks => exact ⟨hkeeps, hlearns (.of_records rfl)⟩
  | outside shared connection deliveries => exact ⟨houtside, hlearns (.of_records rfl)⟩

/-! ## Sessions over a server that keeps versions -/

/-- The states of sessions over connections that keep `V`, in which no operation gives a change
vector, each with all that was torn apart on the way. -/
inductive Versioned (V : Versions) : Versions → OpenSession → Prop where
  | opened (id : Nat) (conventions : Conventions) (options : SessionOptions) (shared : Shared)
    (connection : Connection) (deliveries : Deliveries) (hkeeps : connection.Keeps V) :
    Versioned V (fun _ _ _ => False)
      { session := Session.new id conventions options, shared, connection, deliveries }
  | step {torn : Versions} {s : OpenSession} (operation : Operation) (h : Versioned V torn s)
    (hadmits : s.Admits operation) (hgiven : operation.given = none)
    (hkeeps : operation.Keeps V) :
    Versioned V (fun id body version => torn id body version ∨ s.tears operation id body version)
      (s.perform operation)

theorem Versioned.reachable (h : s.Versioned V torn) : s.Reachable := by
  induction h with
  | opened id conventions options shared connection deliveries _ =>
    exact .opened id conventions options shared connection deliveries
  | step operation _ hadmits _ _ ih => exact ih.step operation hadmits

theorem Versioned.shows (h : s.Versioned V torn) :
    s.connection.Keeps V ∧ ∀ id body version, s.session.work.Shows id body version →
      V id body version ∨ torn id body version := by
  induction h with
  | opened id conventions options shared connection deliveries hkeeps =>
    refine ⟨hkeeps, ?_⟩
    rintro id body version ⟨key, r, hr, -⟩
    cases hr
  | @step torn s operation h hadmits hgiven houtside ih =>
    have hconsistent := h.reachable.consistent
    obtain ⟨hkeeps, hshown⟩ := ih
    obtain ⟨hkept, hshows⟩ := (performCases hconsistent operation).shows hconsistent hgiven hkeeps
      houtside
    refine ⟨hkept, fun id body version hafter => ?_⟩
    rcases hshows id body version hafter with hbefore | htrue | htears
    · exact (hshown id body version hbefore).imp_right Or.inl
    · exact Or.inl htrue
    · exact Or.inr (Or.inr htears)

/-- The body and the change vector of a record are in `V` for its document, unless a save tore them
apart. -/
theorem body_is_of_version (h : s.Versioned V torn) :
    ∀ key r body version, s.session.work.records.find? key = some r → r.body = some body →
      r.changeVector = some version →
      V (normalize r.id) body version ∨ torn (normalize r.id) body version := by
  intro key r body version hr hbody hversion
  exact h.shows.2 _ body version ⟨key, r, hr, rfl, hbody, hversion⟩

/-- The body of a document with so many visits. -/
def visited (count : Int) : Fields :=
  [("Name", .str "Al"), ("Visits", .num (.int count))]

/-- That document with its metadata. -/
def visitedDocument (count : Int) (version : String) : Fields :=
  ("@metadata", .obj [("@change-vector", .str version), ("@id", .str "users/1")]) :: visited count

/-- The two versions of that document. -/
def visits : Versions := fun _ body version =>
  (body, version) ∈ [(visited 1, "A:1"), (visited 2, "A:2")]

/-- A session that has loaded the document and deferred a PATCH that counts a visit. The server
lists `result` in its reply to the save. -/
def counting (result : Fields) : OpenSession :=
  let opened : OpenSession :=
    { session := Session.new 1 { optimistic := true } {}
      shared := {}
      connection :=
        { server := fun requests => .ok (.ok (.obj [("Results", .arr [.obj
            (if requests.length = 1 then visitedDocument 1 "A:1" else result)])])) }
      deliveries := {} }
  let loaded := opened.perform (.load Shop.anything "users/1" [])
  loaded.perform (.defer [{ id := "users/1", action := .patch "this.Visits++" [] }])

/-- A server that lists one object in each reply keeps `V`, if each of these objects tells versions
in `V`. -/
theorem keeps_of_single {c : Connection} (hcache : c.cache = none) {listed : List Request → Fields}
    (hserver : ∀ requests,
      c.server requests = .ok (.ok (.obj [("Results", .arr [.obj (listed requests)])])))
    (hversion : ∀ requests, IsVersion V (listed requests))
    (hpart : ∀ requests, Keyed.find? (listed requests) "Result" = none)
    (hresult : ∀ requests command, (Json.obj (listed requests)).isWellFormed = true
      ∧ Accepts V command (listed requests)) : c.Keeps V := by
  have hitems : ∀ {requests response items}, c.server requests = .ok response →
      resultItems response.body = some items → items = [.obj (listed requests)] := by
    intro requests response items hresponse hitems
    rw [hserver] at hresponse
    obtain rfl := Except.ok.inj hresponse
    exact (Option.some.inj hitems).symm
  refine ⟨⟨⟨?_, ?_⟩, ?_⟩, ?_⟩
  · intro sent r response hresponse
    refine ⟨?_, ?_⟩
    · rw [hserver] at hresponse
      obtain rfl := Except.ok.inj hresponse
      intro document hdocument
      cases hdocument
    · intro items document hlisted hmem _
      rw [hitems hresponse hlisted, List.mem_singleton] at hmem
      rw [Json.obj.inj hmem]
      exact hversion _
  · intro sent r response requests items i request item part hresponse _ hlisted _ hitem hread
    obtain rfl : item = .obj (listed (sent ++ [r])) := by
      have hmem := List.mem_of_getElem? hitem
      rw [hitems hresponse hlisted] at hmem
      exact List.mem_singleton.mp hmem
    -- what is listed has no result of its own
    have hnone : part.result = none := by
      unfold SubResponse.ofJson at hread
      split at hread
      · cases hread
      · obtain rfl := Except.ok.inj hread
        show (Keyed.find? (listed _) "Result").filter _ = none
        rw [hpart]
        rfl
    rw [hnone]
    refine ⟨fun document hmem => ?_, fun items document hitems => ?_⟩
    · cases hmem
    · cases hitems
  · intro cache hcached
    rw [hcache] at hcached
    cases hcached
  · intro sent r response commands items i command result hresponse _ _ hlisted _ hitem
    have hmem := List.mem_of_getElem? hitem
    rw [hitems hresponse hlisted, List.mem_singleton] at hmem
    rw [Json.obj.inj hmem]
    exact hresult _ command

/-- A result without `@id` belongs to no PUT, so `Accepts` asks only for its `ModifiedDocument`. -/
theorem accepts_of_unnamed {result : Fields} (hid : resultId result = none)
    (hdocument : ∀ document, resultDocument result = some document →
      ∃ version,
        (Record.changeVectorOf (Metadata.split document).2).or (resultVersion result)
            = some version
          ∧ ∀ id, V id (Metadata.split document).1 version) (command : Command) :
    Accepts V command result := by
  unfold Accepts
  split
  · intro id version hid' _
    rw [hid] at hid'
    cases hid'
  · trivial
  · intro document hmade
    obtain ⟨version, hversion, htrue⟩ := hdocument document hmade
    exact ⟨version, hversion, htrue _⟩

/-- The session `counting result` is over versions in `visits`, if the `ModifiedDocument` in
`result` is `visitedDocument 2 "A:2"`. -/
theorem counting_versioned (result : Fields) (hwell : (Json.obj result).isWellFormed = true)
    (hkeys : ∀ key ∈ [Metadata.key, Metadata.idKey, "Result"], Keyed.find? result key = none)
    (hdocument : ∀ document, resultDocument result = some document →
      document = visitedDocument 2 "A:2") :
    (counting result).Versioned visits (fun _ _ _ => (False ∨ False) ∨ False) := by
  have hdelivered : IsVersion visits (visitedDocument 1 "A:1") :=
    fun _ _ => ⟨"A:1", rfl, List.mem_cons_self ..⟩
  have hbare : IsVersion visits result := by
    intro id hid
    unfold Metadata.split at hid
    rw [hkeys Metadata.key (by decide)] at hid
    cases hid
  have hread : ∀ command, Accepts visits command (visitedDocument 1 "A:1") :=
    accepts_of_unnamed rfl (fun _ hmade => by cases hmade)
  have htaken : ∀ command, Accepts visits command result := by
    refine accepts_of_unnamed ?_ fun document hmade => ?_
    · unfold resultId
      rw [hkeys Metadata.idKey (by decide)]
      rfl
    · obtain rfl := hdocument document hmade
      exact ⟨"A:2", rfl, fun _ => List.mem_cons_of_mem _ (List.mem_cons_self ..)⟩
  have hkeeps : Connection.Keeps visits
      { server := fun requests => .ok (.ok (.obj [("Results", .arr [.obj
          (if requests.length = 1 then visitedDocument 1 "A:1" else result)])])) } := by
    refine keeps_of_single rfl (fun _ => rfl) (fun requests => ?_) (fun requests => ?_)
      (fun requests command => ?_)
    · split
      · exact hdelivered
      · exact hbare
    · split
      · rfl
      · exact hkeys "Result" (by decide)
    · split
      · exact ⟨by decide, hread command⟩
      · exact ⟨hwell, htaken command⟩
  exact .step (.defer _) (.step (.load Shop.anything "users/1" [])
    (.opened 1 { optimistic := true } {} {} _ {} hkeeps) trivial rfl trivial) trivial rfl trivial

/-- The result of the PATCH with its `ModifiedDocument`. -/
def madeDocument : Fields :=
  [("ModifiedDocument", .obj (visitedDocument 2 "A:2")), ("Type", .str "PATCH")]

/-- The result of the PATCH with a change vector only. -/
def madeVersion : Fields :=
  [("ChangeVector", .str "A:2"), ("Type", .str "PATCH")]

/-- With the `ModifiedDocument`, the record shows the new body at the new change vector. -/
theorem body_is_of_version_scripted :
    ∃ r, ((counting madeDocument).perform .save).session.work.records.find? 0 = some r
      ∧ r.body = some (visited 2) ∧ r.changeVector = some "A:2"
      ∧ visits (normalize r.id) (visited 2) "A:2" := by
  have hversioned := (counting_versioned madeDocument (by decide) (by decide)
    (fun _ hmade => (Option.some.inj hmade).symm)).step .save trivial rfl trivial
  obtain ⟨r, hr, hshown⟩ : ∃ r,
      ((counting madeDocument).perform .save).session.work.records.find? 0 = some r
        ∧ (r.body, r.changeVector) = (some (visited 2), some "A:2") :=
    ⟨_, rfl, by decide +kernel⟩
  obtain ⟨hbody, hversion⟩ := Prod.mk.inj hshown
  refine ⟨r, hr, hbody, hversion, ?_⟩
  rcases body_is_of_version hversioned 0 r _ _ hr hbody hversion with
    htrue | hnever | ⟨-, -, pair, hmem, hnotes⟩
  · exact htrue
  · simp at hnever
  · -- the only result is that of a script which was taken over with its document
    have hresults : ∀ pair ∈ (counting madeDocument).batchResults,
        pair.1.command.kind = .patch ∧ (resultDocument pair.2).isSome = true := by
      decide +kernel
    have hsaved : (counting madeDocument).save.1 = .ok () := by
      decide +kernel
    obtain ⟨hkind, hdocument⟩ := hresults pair hmem
    cases hnotes with
    | put _ hput _ _ =>
      rw [hkind] at hput
      cases hput
    | patch _ _ _ _ hleft =>
      rcases hleft with hnone | hfailed
      · rw [hnone] at hdocument
        cases hdocument
      · exact absurd hsaved hfailed

/-- The body and the change vector of a record are not always in `V`: where the result of the PATCH
has a change vector only, the record shows it beside the old body. -/
theorem body_beside_other_version :
    ¬ ∀ (V torn : Versions) (s : OpenSession), s.Versioned V torn →
      ∀ key r body version, s.session.work.records.find? key = some r → r.body = some body →
        r.changeVector = some version → V (normalize r.id) body version := by
  intro halways
  have hversioned := (counting_versioned madeVersion (by decide) (by decide)
    (fun _ hmade => by cases hmade)).step .save trivial rfl trivial
  obtain ⟨r, hr, hshown⟩ : ∃ r,
      ((counting madeVersion).perform .save).session.work.records.find? 0 = some r
        ∧ (r.body, r.changeVector) = (some (visited 1), some "A:2") :=
    ⟨_, rfl, by decide +kernel⟩
  obtain ⟨hbody, hversion⟩ := Prod.mk.inj hshown
  have htrue := halways _ _ _ hversioned 0 r _ _ hr hbody hversion
  have hnot : ((visited 1, "A:2") : Fields × String)
      ∉ [(visited 1, "A:1"), (visited 2, "A:2")] := by
    decide +kernel
  exact hnot htrue

end OpenSession

end DocumentSession
