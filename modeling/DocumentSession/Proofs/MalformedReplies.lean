import DocumentSession.Proofs.ReplyParts

set_option autoImplicit false

/-! # Malformed replies

A malformed reply ends a read with a protocol violation: it has no `Results`, or another number of
them than was asked for, or a document in it has no identifier. A reply of the first kinds is not
registered at all. But the documents before one without identifier are registered by the time it is
looked at, and stay. So the reply changes nothing if and only if these documents change nothing
(`OpenSession.malformed_answer_keeps_beginning`).

No protocol violation comes from anywhere else: decoding an entity fails with errors of its own
(`EntityType.ReadsPlainly`). -/

namespace DocumentSession

/-- Decoding a value as `type` never fails with a protocol violation. -/
def EntityType.ReadsPlainly (type : EntityType) : Prop :=
  ∀ v e, type.read v = .error e → e.isProtocolViolation = false

namespace Workspace

variable {w w' : Workspace} {e : Error} {type : EntityType}

/-! ## Sources of protocol violations -/

theorem plain_materialize {body : Fields} {id identityProperty : String}
    (hplain : type.ReadsPlainly) (h : type.materialize body id identityProperty = .error e) :
    e.isProtocolViolation = false := by
  unfold EntityType.materialize at h
  cases hread : type.read (withIdentity body id identityProperty) with
  | error e' =>
    rw [hread] at h
    obtain rfl := Except.error.inj h
    exact hplain _ _ hread
  | ok state =>
    rw [hread] at h
    cases h

theorem plain_entityFor {key : RecordKey} (hplain : type.ReadsPlainly)
    (h : w.entityFor type key = (.error e, w')) : e.isProtocolViolation = false := by
  unfold entityFor at h
  split at h
  · cases (Prod.mk.inj h).1
  · split at h
    · dsimp only at h
      split at h
      · cases (Prod.mk.inj h).1
      · obtain rfl := Except.error.inj (Prod.mk.inj h).1
        rfl
    · cases (Prod.mk.inj h).1
    · split at h
      · next hmade =>
        obtain rfl := Except.error.inj (Prod.mk.inj h).1
        exact plain_materialize hplain hmade
      · cases (Prod.mk.inj h).1

theorem plain_detached {document : Fields} (hplain : type.ReadsPlainly)
    (h : w.detached type document = (.error e, w')) : e.isProtocolViolation = false := by
  unfold detached at h
  dsimp only at h
  split at h
  · next e' hmade =>
    obtain rfl := Except.error.inj (Prod.mk.inj h).1
    split at hmade
    · exact plain_materialize hplain hmade
    · cases hread : type.read (.obj (Metadata.split document).1) with
      | error e'' =>
        rw [hread] at hmade
        obtain rfl := Except.error.inj hmade
        exact hplain _ _ hread
      | ok state =>
        rw [hread] at hmade
        cases hmade
  · cases (Prod.mk.inj h).1

theorem plain_lookup {id : String} (hplain : type.ReadsPlainly)
    (h : w.lookup type id = (.error e, w')) : e.isProtocolViolation = false := by
  unfold lookup at h
  split at h
  · cases (Prod.mk.inj h).1
  · split at h
    · cases (Prod.mk.inj h).1
    · split at h
      · cases (Prod.mk.inj h).1
      · split at h
        · next hentity =>
          obtain rfl := Except.error.inj (Prod.mk.inj h).1
          exact plain_entityFor hplain hentity
        · cases (Prod.mk.inj h).1
        · cases (Prod.mk.inj h).1

theorem plain_collect {found : Dict (Option EntityRef)} {ids : List String}
    (hplain : type.ReadsPlainly) (h : w.collect type found ids = (.error e, w')) :
    e.isProtocolViolation = false := by
  induction ids generalizing w found with
  | nil => cases (Prod.mk.inj h).1
  | cons id rest ih =>
    rw [collect] at h
    split at h
    · next hlookup =>
      obtain rfl := Except.error.inj (Prod.mk.inj h).1
      exact plain_lookup hplain hlookup
    · exact ih h
    · exact ih h

/-- `entityFor` of a record never gives `none`. -/
theorem entityFor_ne_none (hw : w.Consistent) {key : RecordKey}
    (hr : (w.work.records.find? key).isSome = true) : (w.entityFor type key).1 ≠ .ok none := by
  obtain ⟨r, hr⟩ := Option.isSome_iff_exists.mp hr
  have hfilled := hw.filled key r hr
  unfold entityFor
  rw [hr]
  dsimp only
  split
  · split <;> simp
  · next hentity hbody =>
    rw [hentity, hbody] at hfilled
    simp at hfilled
  · split <;> simp

theorem plain_trackDocument (hw : w.Consistent) {document : Fields} (hplain : type.ReadsPlainly)
    (hnamed : (documentId document).isSome = true)
    (h : w.trackDocument type document = (.error e, w')) : e.isProtocolViolation = false := by
  unfold trackDocument at h
  split at h
  · next hregister =>
    obtain ⟨id, hid⟩ := Option.isSome_iff_exists.mp hnamed
    cases hkey : w.work.identities.get? id with
    | none =>
      rw [register_of_new hid hkey] at hregister
      cases (Prod.mk.inj hregister).1
    | some key =>
      rw [register_of_known hid hkey] at hregister
      cases (Prod.mk.inj hregister).1
  · next key w₁ hregister =>
    have hconsistent : w₁.Consistent := by
      have := hw.register document
      rwa [hregister] at this
    split at h
    · next hentity =>
      obtain rfl := Except.error.inj (Prod.mk.inj h).1
      exact plain_entityFor hplain hentity
    · next hentity =>
      exact absurd (congrArg Prod.fst hentity)
        (entityFor_ne_none hconsistent (record_of_register hw hregister))
    · cases (Prod.mk.inj h).1

/-- A result with metadata has an identifier. -/
theorem isSome_documentId {document : Fields} (h : QueryReply.isDocument document = true) :
    (documentId document).isSome = true := by
  unfold QueryReply.isDocument QueryReply.metadataMember at h
  rw [Bool.and_eq_true] at h
  have hid := h.2
  unfold documentId Metadata.split
  dsimp only
  cases hmetadata : Keyed.find? document Metadata.key with
  | none =>
    rw [hmetadata] at hid
    cases hid
  | some metadata =>
    rw [hmetadata] at hid
    cases metadata with
    | obj fields => exact hid
    | _ => cases hid

theorem plain_takeResults (hw : w.Consistent) {tracking : Bool} {results : List Json}
    (hplain : type.ReadsPlainly) (h : w.takeResults type tracking results = (.error e, w')) :
    e.isProtocolViolation = false := by
  induction results generalizing w with
  | nil => cases (Prod.mk.inj h).1
  | cons result rest ih =>
    cases result with
    | obj document =>
      simp only [takeResults] at h
      split at h
      · next hmade =>
        obtain rfl := Except.error.inj (Prod.mk.inj h).1
        split at hmade
        · next hwhole =>
          rw [Bool.and_eq_true] at hwhole
          exact plain_trackDocument hw hplain (isSome_documentId hwhole.2) hmade
        · exact plain_detached hplain hmade
      · next hmade =>
        have hconsistent := hw.reads (D := fun _ => True) (by
          split at hmade
          · exact readClosed_reads.trackDocument trivial hmade
          · exact readClosed_reads.detached hmade)
        split at h
        · cases (Prod.mk.inj h).1
        · exact ih hconsistent h
    | _ =>
      rw [takeResults] at h
      · exact ih hw h
      · simp

/-! ## Registering a reply -/

/-- A load that fails has registered the parts of its reply before the first without identifier. -/
theorem takeLoaded_of_error {requested : List String} {response : SubResponse}
    (h : LazyRead.takeLoaded w requested response = (.error e, w')) :
    w' = w.takeParts ((ReplyPart.ofLoad requested response.result).takeWhile
      ReplyPart.isNamed) := by
  unfold LazyRead.takeLoaded at h
  unfold ReplyPart.ofLoad
  split at h
  · cases (Prod.mk.inj h).1
  · split at h
    · next herror =>
      rw [herror]
      exact (Prod.mk.inj h).2.symm
    · next reply hreply =>
      rw [hreply]
      rw [takeLoad_eq_takeNamed] at h
      exact (Prod.mk.inj h).2.symm

theorem takeQuery_of_protocol (hw : w.Consistent) {tracking : Bool} {reply : QueryReply}
    (hplain : type.ReadsPlainly) (h : w.takeQuery type tracking reply = (.error e, w'))
    (he : e.isProtocolViolation = true) :
    w' = w.takeParts ((if tracking then reply.includes.map .document else []).takeWhile
      ReplyPart.isNamed) := by
  have hincludes : ∀ includes, w.registerAll (if tracking then includes else [])
      = w.takeNamed (if tracking then includes.map .document else []) := by
    intro includes
    rw [registerAll_eq_takeNamed]
    split <;> rfl
  unfold takeQuery at h
  split at h
  · next hregister =>
    rw [hincludes] at hregister
    obtain ⟨-, rfl⟩ := Prod.mk.inj h
    exact (Prod.mk.inj hregister).2.symm
  · next hregister =>
    have hconsistent := hw.reads (D := fun _ => True)
      (readClosed_reads.registerAll (fun _ _ => trivial) hregister)
    split at h
    · next hresults =>
      obtain rfl := Except.error.inj (Prod.mk.inj h).1
      rw [plain_takeResults hconsistent hplain hresults] at he
      cases he
    · cases (Prod.mk.inj h).1

/-- Decoding the values of the read never fails with a protocol violation. -/
def ReadsPlainly : LazyRead → Prop
  | .load type _ _ _ => type.ReadsPlainly
  | .query type _ _ => type.ReadsPlainly
  | .count _ => True

theorem receive_of_protocol (hw : w.Consistent) {read : LazyRead} {response : SubResponse}
    (hplain : ReadsPlainly read) (h : read.receive w response = (.error e, w'))
    (he : e.isProtocolViolation = true) :
    w' = w.takeParts ((ReplyPart.ofRead read response.result).takeWhile ReplyPart.isNamed) := by
  cases read with
  | load type ids includes requested =>
    unfold LazyRead.receive at h
    dsimp only at h
    split at h
    · next htaken =>
      obtain ⟨-, rfl⟩ := Prod.mk.inj h
      exact takeLoaded_of_error htaken
    · next w₁ _ =>
      rcases hcollect : w₁.collect type [] ids with ⟨_ | found, w₂⟩
      · rw [hcollect] at h
        obtain rfl := Except.error.inj (Prod.mk.inj h).1
        rw [plain_collect hplain hcollect] at he
        cases he
      · rw [hcollect] at h
        cases (Prod.mk.inj h).1
  | query type q tracking =>
    unfold LazyRead.receive at h
    unfold ReplyPart.ofRead ReplyPart.ofQuery
    dsimp only at h ⊢
    split at h
    · next herror =>
      rw [herror]
      exact (Prod.mk.inj h).2.symm
    · next reply hreply =>
      rw [hreply]
      rcases htaken : w.takeQuery type tracking reply with ⟨_ | found, w₁⟩
      · rw [htaken] at h
        obtain ⟨hanswer, rfl⟩ := Prod.mk.inj h
        obtain rfl := Except.error.inj hanswer
        exact takeQuery_of_protocol hw hplain htaken he
      · rw [htaken] at h
        cases (Prod.mk.inj h).1
  | count q =>
    obtain ⟨-, rfl⟩ := Prod.mk.inj h
    rfl

end Workspace

namespace OpenSession

variable {s s' s₁ : OpenSession} {type : EntityType} {e : Error}

/-! ## Reads that fail for their reply -/

/-- A session takes in a reply with certain parts; the read ends with an error, and leaves another
session. -/
inductive FailsReading : OpenSession → List ReplyPart → Error → OpenSession → Prop where
  /-- A load in a session that tracks. -/
  | load {s₀ s₁ s s' : OpenSession} {type : EntityType} {ids asked includes : List String}
    {response : Response} {e : Error} (hplain : type.ReadsPlainly)
    (htracking : s₀.session.work.noTracking = false)
    (hasked : s₀.attempt (·.unknownIds type ids) = (.ok asked, s₁)) (hsome : asked ≠ [])
    (hresponse : s₁.send loadOperation (loadRequest asked.eraseDups includes) = (.ok response, s))
    (hload : s₀.loadMany type ids includes = (.error (.failed e), s')) :
    FailsReading s (ReplyPart.ofLoad asked.eraseDups response.body) e s'
  /-- A load in a session with `noTracking`. -/
  | detached {s₀ s s' : OpenSession} {type : EntityType} {ids includes : List String}
    {response : Response} {e : Error} (hplain : type.ReadsPlainly)
    (hdetached : s₀.session.work.noTracking = true)
    (hresponse : s₀.send loadOperation (loadRequest ids includes) = (.ok response, s))
    (hload : s₀.loadMany type ids includes = (.error (.failed e), s')) :
    FailsReading s [] e s'
  | query {s₀ s₁ s s' : OpenSession} {type : EntityType} {q q' : Query} {frozen : Query.Frozen}
    {body : Option Json} {e : Error} (hplain : type.ReadsPlainly)
    (hfrozen : s₀.freeze q = (.ok (q', frozen), s₁))
    (hbody : s₁.sendForBody queryOperation (queryRequest frozen) = (.ok body, s))
    (hquery : s₀.runQuery type q = (.error (.failed e), s')) :
    FailsReading s (ReplyPart.ofQuery (s.isTracking q') body) e s'
  /-- A lazy read, whose response came through the cache. -/
  | waited {s₀ s s' : OpenSession} {asked : Asked} {r r' : SubResponse} {e : Error}
    (hplain : Workspace.ReadsPlainly asked.pending.read)
    (hcache : s₀.throughCache asked.request.cacheKey r = (r', s))
    (hreceive : s₀.receive asked r = (none, s'))
    (hvalue : s'.deliveries.values.find? asked.pending.handle = some (.error e)) :
    FailsReading s (ReplyPart.ofRead asked.pending.read r'.result) e s'
  /-- A round of lazy reads, whose multi-get fails as a whole. -/
  | round {s₀ s s' : OpenSession} {batch : List Asked} {body : Option Json} {e : Error}
    (hbody : s₀.sendForBody "lazy"
      { method := .post, path := "/multi_get"
        body := some (multiGetBody (batch.map Asked.request)) } = (.ok body, s))
    (hround : s₀.sendRound batch = (.error (.failed e), s')) :
    FailsReading s [] e (s'.failAll e batch)

theorem eq_failed_of_attempt {α : Type} {f : Workspace → Except Error α × Workspace}
    (h : s.attempt f = (.error (.failed e), s₁)) : f s.workspace = (.error e, s₁.workspace) := by
  unfold attempt locally at h
  obtain ⟨hanswer, rfl⟩ := Prod.mk.inj h
  rcases hf : f s.workspace with ⟨error | a, w⟩
  · rw [hf] at hanswer
    obtain rfl := Halt.failed.inj (Except.error.inj hanswer)
    rfl
  · rw [hf] at hanswer
    cases hanswer

/-- The error of a response is no protocol violation. -/
theorem plain_toError (response : Response) : response.toError.isProtocolViolation = false := by
  unfold Response.toError
  split <;> rfl

theorem fetch_of_protocol {ids includes : List String} {response : Response}
    (hresponse : s.send loadOperation (loadRequest ids includes) = (.ok response, s₁))
    (h : s.fetch ids includes = (.error (.failed e), s')) (he : e.isProtocolViolation = true) :
    s'.workspace = s₁.workspace.takeParts
      ((ReplyPart.ofLoad ids response.body).takeWhile ReplyPart.isNamed) := by
  unfold fetch at h
  rw [hresponse] at h
  unfold ReplyPart.ofLoad
  dsimp only at h
  split at h
  · cases (Prod.mk.inj h).1
  · split at h
    · obtain rfl := Halt.failed.inj (Except.error.inj (Prod.mk.inj h).1)
      rw [plain_toError] at he
      cases he
    · split at h
      · next herror =>
        rw [herror]
        obtain ⟨-, rfl⟩ := Prod.mk.inj h
        rfl
      · next reply hreply =>
        rw [hreply]
        have htaken := eq_failed_of_attempt h
        rw [Workspace.takeLoad_eq_takeNamed] at htaken
        exact (Prod.mk.inj htaken).2.symm

theorem plain_makeDetached {w w' : Workspace} {found : Dict (Option EntityRef)} {ids : List String}
    {results : List (Option Fields)} (hplain : type.ReadsPlainly)
    (h : makeDetached w type found ids results = (.error e, w')) :
    e.isProtocolViolation = false := by
  induction ids generalizing w found results with
  | nil => cases (Prod.mk.inj h).1
  | cons id ids ih =>
    cases results with
    | nil => cases (Prod.mk.inj h).1
    | cons result results =>
      cases result with
      | none => exact ih h
      | some document =>
        simp only [makeDetached] at h
        split at h
        · next hmade =>
          obtain rfl := Except.error.inj (Prod.mk.inj h).1
          exact Workspace.plain_detached hplain hmade
        · exact ih h

theorem loadTracked_of_protocol {ids asked includes : List String} {response : Response}
    {s₀ : OpenSession} (hplain : type.ReadsPlainly)
    (hasked : s₀.attempt (·.unknownIds type ids) = (.ok asked, s₁)) (hsome : asked ≠ [])
    (hresponse : s₁.send loadOperation (loadRequest asked.eraseDups includes) = (.ok response, s))
    (h : s₀.loadTracked type ids includes = (.error (.failed e), s'))
    (he : e.isProtocolViolation = true) :
    s'.workspace = s.workspace.takeParts
      ((ReplyPart.ofLoad asked.eraseDups response.body).takeWhile ReplyPart.isNamed) := by
  unfold loadTracked at h
  rw [hasked] at h
  dsimp only at h
  rw [if_neg hsome] at h
  rcases hfetch : s₁.fetch asked.eraseDups includes with ⟨halt | _, s₂⟩
  · rw [hfetch] at h
    obtain ⟨hhalt, rfl⟩ := Prod.mk.inj h
    rw [Except.error.inj hhalt] at hfetch
    exact fetch_of_protocol hresponse hfetch he
  · rw [hfetch] at h
    rw [Workspace.plain_collect hplain (eq_failed_of_attempt h)] at he
    cases he

theorem loadDetached_of_protocol {ids includes : List String} {response : Response}
    (hplain : type.ReadsPlainly)
    (hresponse : s.send loadOperation (loadRequest ids includes) = (.ok response, s₁))
    (h : s.loadDetached type ids includes = (.error (.failed e), s'))
    (he : e.isProtocolViolation = true) : s' = s₁ := by
  unfold loadDetached at h
  rw [hresponse] at h
  dsimp only at h
  split at h
  · cases (Prod.mk.inj h).1
  · split at h
    · exact (Prod.mk.inj h).2.symm
    · split at h
      · exact (Prod.mk.inj h).2.symm
      · rw [plain_makeDetached hplain (eq_failed_of_attempt h)] at he
        cases he

theorem runQuery_of_protocol {s₀ : OpenSession} {q q' : Query} {frozen : Query.Frozen}
    {body : Option Json} (hs : s.Consistent) (hplain : type.ReadsPlainly)
    (hfrozen : s₀.freeze q = (.ok (q', frozen), s₁))
    (hbody : s₁.sendForBody queryOperation (queryRequest frozen) = (.ok body, s))
    (h : s₀.runQuery type q = (.error (.failed e), s')) (he : e.isProtocolViolation = true) :
    s'.workspace = s.workspace.takeParts
      ((ReplyPart.ofQuery (s.isTracking q') body).takeWhile ReplyPart.isNamed) := by
  unfold runQuery ask at h
  rw [hfrozen] at h
  dsimp only at h
  rw [hbody] at h
  unfold ReplyPart.ofQuery
  cases hreply : QueryReply.ofBody body with
  | error error =>
    rw [Except.bind, hreply] at h
    obtain ⟨-, rfl⟩ := Prod.mk.inj h
    rfl
  | ok reply =>
    rw [Except.bind, hreply] at h
    exact Workspace.takeQuery_of_protocol hs.workspace hplain (eq_failed_of_attempt h) he

theorem receive_of_protocol {asked : Asked} {r r' : SubResponse} (hs : s₁.Consistent)
    (hplain : Workspace.ReadsPlainly asked.pending.read)
    (hcache : s.throughCache asked.request.cacheKey r = (r', s₁))
    (h : s.receive asked r = (none, s'))
    (hvalue : s'.deliveries.values.find? asked.pending.handle = some (.error e))
    (he : e.isProtocolViolation = true) :
    s'.workspace = s₁.workspace.takeParts
      ((ReplyPart.ofRead asked.pending.read r'.result).takeWhile ReplyPart.isNamed) := by
  have hdelivered : ∀ {s : OpenSession} {value : Except Error LazyValue},
      (s.deliver asked.pending.handle value).deliveries.values.find? asked.pending.handle
        = some (.error e) → value = .error e := by
    intro s value hfind
    rw [OpenSession.deliver, Deliveries.find?_deliver, if_pos rfl] at hfind
    exact Option.some.inj hfind
  unfold receive at h
  rw [hcache] at h
  dsimp only at h
  split at h
  · cases (Prod.mk.inj h).1
  · split at h
    · obtain ⟨-, rfl⟩ := Prod.mk.inj h
      rw [← Except.error.inj (hdelivered hvalue)] at he
      cases he
    · obtain ⟨-, rfl⟩ := Prod.mk.inj h
      exact Workspace.receive_of_protocol hs.workspace hplain
        (Prod.ext (hdelivered hvalue) rfl) he

/-- A read that ends with a protocol violation leaves the workspace as after registering the parts
before the first without identifier. So it changes nothing of the unit of work if and only if these
parts change nothing. -/
theorem malformed_answer_keeps_beginning (hs : s.Consistent) {parts : List ReplyPart}
    (h : FailsReading s parts e s') (he : e.isProtocolViolation = true) :
    s'.workspace = s.workspace.takeParts (parts.takeWhile ReplyPart.isNamed)
      ∧ (s.workspace.SameKnowledge s'.workspace
        ↔ s.workspace.LearnsNothing (parts.takeWhile ReplyPart.isNamed)) := by
  have htaken : s'.workspace = s.workspace.takeParts (parts.takeWhile ReplyPart.isNamed) := by
    cases h with
    | load hplain htracking hasked hsome hresponse hload =>
      unfold loadMany at hload
      split at hload
      · obtain rfl := Halt.failed.inj (Except.error.inj (Prod.mk.inj hload).1)
        cases he
      · rw [htracking, if_neg Bool.false_ne_true] at hload
        exact loadTracked_of_protocol hplain hasked hsome hresponse hload he
    | detached hplain hdetached hresponse hload =>
      unfold loadMany at hload
      split at hload
      · obtain rfl := Halt.failed.inj (Except.error.inj (Prod.mk.inj hload).1)
        cases he
      · exact congrArg workspace (loadDetached_of_protocol hplain hresponse hload he)
    | query hplain hfrozen hbody hquery =>
      exact runQuery_of_protocol hs hplain hfrozen hbody hquery he
    | waited hplain hcache hreceive hvalue =>
      exact receive_of_protocol hs hplain hcache hreceive hvalue he
    | round hbody hround =>
      unfold sendRound at hround
      dsimp only at hround
      rw [hbody] at hround
      obtain ⟨-, rfl⟩ := Prod.mk.inj hround
      exact workspace_failAll _ e _
  refine ⟨htaken, ?_⟩
  rw [htaken]
  exact Workspace.sameKnowledge_takeParts_iff hs.workspace
    (fun part hmem => List.mem_takeWhile_imp hmem)

/-- The document `users/1`. -/
def sentUser : Fields :=
  [("@metadata", .obj [("@id", .str "users/1")]), ("Name", .str "Al")]

/-- A session beside a server that answers with two documents, the second one without identifier. -/
def secondUnnamed : OpenSession where
  session := Session.new 1 {} {}
  shared := {}
  connection :=
    { server := fun _ => .ok (.ok (.obj
        [("Results", .arr [.obj sentUser, .obj [("Name", .str "Bob")]])])) }
  deliveries := {}

/-- That session once the reply to a load has come. -/
def secondUnnamed.afterAnswer (ids : List String) : OpenSession :=
  (secondUnnamed.send loadOperation (loadRequest ids [])).2

/-- A load of two identifiers fails for the second document, and the first one is known afterwards.
A load of one identifier fails for the number of results, and neither is known. -/
theorem malformed_answer_keeps_beginning_users :
    let users := secondUnnamed.loadMany Shop.anything ["users/1", "users/2"] []
    let one := secondUnnamed.loadMany Shop.anything ["users/1"] []
    users.1 = .error (.failed (Workspace.missingId []))
      ∧ ¬ (secondUnnamed.afterAnswer ["users/1", "users/2"]).workspace.SameKnowledge
        users.2.workspace
      ∧ one.1 = .error (.failed
        (.protocol "Requested 1 documents but the server returned 2 results" none))
      ∧ (secondUnnamed.afterAnswer ["users/1"]).workspace.SameKnowledge one.2.workspace := by
  intro users one
  have husers : users.1 = .error (.failed (Workspace.missingId [])) := by decide +kernel
  have hone : one.1 = .error (.failed
      (.protocol "Requested 1 documents but the server returned 2 results" none)) := by
    decide +kernel
  have hplain : Shop.anything.ReadsPlainly := fun v e hread => by cases hread
  have hasked : ∀ ids, secondUnnamed.attempt (·.unknownIds Shop.anything ids)
      = (.ok ids, secondUnnamed) := by
    intro ids
    refine attempt_of_eq ?_
    induction ids with
    | nil => rfl
    | cons id rest ih =>
      rw [Workspace.unknownIds, show secondUnnamed.workspace.lookup Shop.anything id
        = (.ok .unknown, secondUnnamed.workspace) from rfl]
      dsimp only
      rw [ih]
      rfl
  have hsent : ∀ ids, secondUnnamed.send loadOperation (loadRequest ids [])
      = (.ok (.ok (.obj [("Results", .arr [.obj sentUser, .obj [("Name", .str "Bob")]])])),
        secondUnnamed.afterAnswer ids) :=
    fun ids => Prod.ext rfl rfl
  have hconsistent : ∀ ids, (secondUnnamed.afterAnswer ids).Consistent := fun ids =>
    have hopened : secondUnnamed.Consistent := (Reachable.opened 1 {} {} _ _ _).consistent
    hopened.reads (reads_send (hsent ids))
  obtain ⟨-, husersKnown⟩ := malformed_answer_keeps_beginning (hconsistent _)
    (.load hplain rfl (hasked _) (by decide) (hsent _) (Prod.ext husers rfl)) rfl
  obtain ⟨-, honeKnown⟩ := malformed_answer_keeps_beginning (hconsistent _)
    (.load hplain rfl (hasked _) (by decide) (hsent _) (Prod.ext hone rfl)) rfl
  refine ⟨husers, ?_, hone, ?_⟩
  · intro hsame
    obtain ⟨key, hkey⟩ := (husersKnown.mp hsame).hasRecords sentUser (by decide +kernel)
    cases hkey
  · refine honeKnown.mpr ?_
    rw [show (ReplyPart.ofLoad ["users/1"].eraseDups _).takeWhile ReplyPart.isNamed = [] by
      decide +kernel]
    exact ⟨by simp [Workspace.HasRecords], by simp, fun _ _ _ => rfl⟩

/-- A load that fails leaves the document `users/1` registered. -/
theorem malformed_answer_is_learnt_from :
    let users := secondUnnamed.loadMany Shop.anything ["users/1", "users/2"] []
    users.1 = .error (.failed (Workspace.missingId []))
      ∧ (secondUnnamed.session.work.records.keys, secondUnnamed.session.work.isLoaded "users/1")
        = ([], false)
      ∧ (users.2.session.work.records.keys, users.2.session.work.isLoaded "users/1")
        = ([0], true) := by
  decide +kernel

end OpenSession

end DocumentSession
