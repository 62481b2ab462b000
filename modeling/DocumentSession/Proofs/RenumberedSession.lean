import DocumentSession.Proofs.RenumberedWork
import DocumentSession.Proofs.Reachable

set_option autoImplicit false

/-! # Sessions with other keys

A session has an `id` of its own and the `RecordKey`s of its records. Neither shows in what an
operation answers, in the requests that it sends, or in what it changes of what the session shares:
on the renumbered session (`OpenSession.renumber`) it does the same, and leaves the renumbered
session. -/

namespace DocumentSession.OpenSession

/-- The session with another `id`, and with all record keys raised by `n`. -/
def renumber (s : OpenSession) (id n : Nat) : OpenSession :=
  { s with session := { s.session with id, work := s.session.work.renumber n } }

/-- The answer of an operation, with the session after it renumbered. -/
def renumbered {α : Type} (id n : Nat) (done : α × OpenSession) : α × OpenSession :=
  (done.1, done.2.renumber id n)

variable (s : OpenSession) (id n : Nat)

@[simp] theorem workspace_renumber : (s.renumber id n).workspace = s.workspace.renumber n := rfl

@[simp] theorem withWorkspace_renumber (w : Workspace) :
    (s.renumber id n).withWorkspace (w.renumber n) = (s.withWorkspace w).renumber id n := rfl

variable {α : Type}

/-- `locally` of work that commutes with renumbering commutes with renumbering. -/
theorem locally_renumber {f g : Workspace → α × Workspace}
    (hf : f (s.workspace.renumber n) = Workspace.renumbered n (g s.workspace)) :
    (s.renumber id n).locally f = renumbered id n (s.locally g) := by
  simp only [locally, workspace_renumber, hf]
  rfl

theorem attempt_renumber {f g : Workspace → Except Error α × Workspace}
    (hf : f (s.workspace.renumber n) = Workspace.renumbered n (g s.workspace)) :
    (s.renumber id n).attempt f = renumbered id n (s.attempt g) := by
  simp only [attempt, locally_renumber s id n hf]
  rfl

/-! ## Requests -/

theorem send_renumber (operation : String) (r : Request) :
    (s.renumber id n).send operation r = renumbered id n (s.send operation r) := by
  have hcount : (s.renumber id n).count operation = renumbered id n (s.count operation) := rfl
  simp only [send, hcount]
  split
  · next hreason =>
    rw [show s.connection.cancelled = _ from hreason]
    rfl
  · next hnone =>
    rw [show s.connection.cancelled = _ from hnone]
    rcases s.count operation with ⟨_ | _, s₁⟩ <;> rfl

theorem sendForBody_renumber (operation : String) (r : Request) :
    (s.renumber id n).sendForBody operation r = renumbered id n (s.sendForBody operation r) := by
  simp only [sendForBody, send_renumber]
  rcases s.send operation r with ⟨_ | response, s₁⟩
  · rfl
  · simp only [renumbered]
    split <;> rfl

/-! ## Loads -/

theorem fetch_renumber (ids includes : List String) :
    (s.renumber id n).fetch ids includes = renumbered id n (s.fetch ids includes) := by
  simp only [fetch, send_renumber]
  rcases s.send loadOperation (loadRequest ids includes) with ⟨_ | response, s₁⟩
  · rfl
  · simp only [renumbered, workspace_renumber, Workspace.markAllMissing_renumber,
      withWorkspace_renumber]
    split
    · rfl
    · split
      · rfl
      · split
        · rfl
        · exact s₁.attempt_renumber id n (s₁.workspace.takeLoad_renumber n ids _)

theorem loadTracked_renumber (type : EntityType) (ids includes : List String) :
    (s.renumber id n).loadTracked type ids includes
      = renumbered id n (s.loadTracked type ids includes) := by
  unfold loadTracked
  rw [s.attempt_renumber id n (g := (·.unknownIds type ids))
    (s.workspace.unknownIds_renumber n type ids)]
  rcases s.attempt (·.unknownIds type ids) with ⟨_ | unknown, s₁⟩
  · rfl
  · have hfetched : (if unknown = [] then (Except.ok (), s₁.renumber id n)
          else (s₁.renumber id n).fetch unknown.eraseDups includes)
        = renumbered id n (if unknown = [] then (.ok (), s₁)
          else s₁.fetch unknown.eraseDups includes) := by
      rw [fetch_renumber]
      split <;> rfl
    simp only [renumbered] at hfetched ⊢
    rw [hfetched]
    rcases (if unknown = [] then (Except.ok (), s₁) else s₁.fetch unknown.eraseDups includes) with
      ⟨_ | _, s₂⟩
    · rfl
    · exact s₂.attempt_renumber id n (s₂.workspace.collect_renumber n type [] ids)

theorem loadDetached_renumber (type : EntityType) (ids includes : List String) :
    (s.renumber id n).loadDetached type ids includes
      = renumbered id n (s.loadDetached type ids includes) := by
  simp only [loadDetached, send_renumber]
  rcases s.send loadOperation (loadRequest ids includes) with ⟨_ | response, s₁⟩
  · rfl
  · simp only [renumbered]
    split
    · rfl
    · split
      · rfl
      · split
        · rfl
        · exact s₁.attempt_renumber id n (s₁.workspace.makeDetached_renumber n type [] ids _)

theorem loadMany_renumber (type : EntityType) (ids includes : List String) :
    (s.renumber id n).loadMany type ids includes
      = renumbered id n (s.loadMany type ids includes) := by
  have htracking : (s.renumber id n).session.work.noTracking = s.session.work.noTracking := rfl
  simp only [loadMany, htracking, loadDetached_renumber, loadTracked_renumber]
  split
  · rfl
  · split <;> rfl

theorem load_renumber (type : EntityType) (docId : String) (includes : List String) :
    (s.renumber id n).load type docId includes
      = renumbered id n (s.load type docId includes) := by
  simp only [load, loadMany_renumber]
  rfl

/-! ## Queries -/

theorem freeze_renumber (q : Query) :
    (s.renumber id n).freeze q = renumbered id n (s.freeze q) := by
  have hasked : Callbacks.callEachOnQuery (s.renumber id n).session.callbacks.beforeQuery q
        (s.renumber id n).shared
      = Callbacks.callEachOnQuery s.session.callbacks.beforeQuery q s.shared := rfl
  unfold freeze
  rw [hasked]
  rcases Callbacks.callEachOnQuery s.session.callbacks.beforeQuery q s.shared with
    ⟨_ | e, q', shared⟩ <;> rfl

theorem ask_renumber (q : Query.Frozen) : (s.renumber id n).ask q = renumbered id n (s.ask q) := by
  simp only [ask, sendForBody_renumber]
  rfl

theorem runQuery_renumber (type : EntityType) (q : Query) :
    (s.renumber id n).runQuery type q = renumbered id n (s.runQuery type q) := by
  simp only [runQuery, freeze_renumber]
  rcases s.freeze q with ⟨_ | ⟨q', frozen⟩, s₁⟩
  · rfl
  · simp only [renumbered, ask_renumber]
    rcases s₁.ask frozen with ⟨_ | reply, s₂⟩
    · rfl
    · exact s₂.attempt_renumber id n (s₂.workspace.takeQuery_renumber n type _ reply)

theorem countQuery_renumber (q : Query) :
    (s.renumber id n).countQuery q = renumbered id n (s.countQuery q) := by
  simp only [countQuery, freeze_renumber]
  rcases s.freeze { q with pageSize := some 0 } with ⟨_ | ⟨q', frozen⟩, s₁⟩
  · rfl
  · simp only [renumbered, ask_renumber]

/-! ## Lazy reads -/

theorem lazyQuery_renumber (type : EntityType) (q : Query) :
    (s.renumber id n).lazyQuery type q = renumbered id n (s.lazyQuery type q) := by
  simp only [lazyQuery, freeze_renumber]
  rcases s.freeze q with ⟨_ | ⟨q', frozen⟩, s₁⟩ <;> rfl

theorem lazyCount_renumber (q : Query) :
    (s.renumber id n).lazyCount q = renumbered id n (s.lazyCount q) := by
  simp only [lazyCount, freeze_renumber]
  rcases s.freeze q with ⟨_ | ⟨q', frozen⟩, s₁⟩ <;> rfl

theorem cached_renumber (url : String) :
    (s.renumber id n).cached url = renumbered id n (s.cached url) := by
  unfold cached
  show (if s.session.options.noCaching then _ else _) = _
  split <;> rfl

theorem remember_renumber (url : String) (cached : Cached) :
    (s.renumber id n).remember url cached = (s.remember url cached).renumber id n := by
  unfold remember
  show (if s.session.options.noCaching then _ else _) = _
  split <;> rfl

theorem throughCache_renumber (url : String) (r : SubResponse) :
    (s.renumber id n).throughCache url r = renumbered id n (s.throughCache url r) := by
  simp only [throughCache, cached_renumber, remember_renumber]
  split
  · rcases s.cached url with ⟨_ | found, s₁⟩ <;> rfl
  · split
    · split <;> rfl
    · rfl

theorem prepare_renumber (p : Pending) :
    (s.renumber id n).prepare p = renumbered id n (s.prepare p) := by
  simp only [prepare, s.locally_renumber id n (s.workspace.prepare_renumber n p.read)]
  rcases s.locally p.read.prepare with ⟨value | ⟨request, read⟩, s₁⟩
  · rfl
  · simp only [renumbered, cached_renumber]

theorem prepareAll_renumber (pending : List Pending) :
    (s.renumber id n).prepareAll pending = renumbered id n (s.prepareAll pending) := by
  induction pending generalizing s with
  | nil => rfl
  | cons p rest ih =>
    simp only [prepareAll, prepare_renumber, renumbered, ih]

theorem failAll_renumber (e : Error) (batch : List Asked) :
    (s.renumber id n).failAll e batch = (s.failAll e batch).renumber id n := by
  induction batch generalizing s with
  | nil => rfl
  | cons asked rest ih => exact ih (s.deliver asked.pending.handle (.error e))

theorem giveUp_renumber (batch : List Asked) :
    (s.renumber id n).giveUp batch = (s.giveUp batch).renumber id n := by
  induction batch generalizing s with
  | nil => rfl
  | cons asked rest ih => exact ih ((s.warn .lazyGaveUp).deliver asked.pending.handle _)

theorem sendRound_renumber (batch : List Asked) :
    (s.renumber id n).sendRound batch = renumbered id n (s.sendRound batch) := by
  simp only [sendRound, sendForBody_renumber]
  rfl

theorem receive_renumber (asked : Asked) (r : SubResponse) :
    (s.renumber id n).receive asked r = renumbered id n (s.receive asked r) := by
  unfold receive
  rw [throughCache_renumber]
  rcases s.throughCache asked.request.cacheKey r with ⟨r', s₁⟩
  dsimp only [renumbered]
  split
  · rfl
  · split
    · rfl
    · rw [s₁.locally_renumber id n (g := (asked.pending.read.receive · r'))
        (s₁.workspace.receive_renumber n asked.pending.read r')]
      rfl

theorem receiveAll_renumber (batch : List Asked) (responses : List SubResponse) :
    (s.renumber id n).receiveAll batch responses
      = renumbered id n (s.receiveAll batch responses) := by
  induction batch generalizing s responses with
  | nil => rfl
  | cons asked batch ih =>
    cases responses with
    | nil => rfl
    | cons r responses => simp only [receiveAll, receive_renumber, renumbered, ih]

theorem flushRounds_renumber (rounds : Nat) (pending : List Pending) :
    flushRounds rounds (s.renumber id n) pending
      = renumbered id n (flushRounds rounds s pending) := by
  induction rounds generalizing s pending with
  | zero =>
    unfold flushRounds
    rw [prepareAll_renumber]
    rcases s.prepareAll pending with ⟨_ | ⟨asked, batch⟩, s₁⟩
    · rfl
    · simp only [renumbered, giveUp_renumber]
  | succ rounds ih =>
    unfold flushRounds
    rw [prepareAll_renumber]
    rcases s.prepareAll pending with ⟨_ | ⟨asked, batch⟩, s₁⟩
    · rfl
    · simp only [renumbered, sendRound_renumber]
      rcases s₁.sendRound (asked :: batch) with ⟨halt | responses, s₂⟩
      · simp only [failAll_renumber]
      · simp only [receiveAll_renumber, renumbered, ih]

theorem flush_renumber : (s.renumber id n).flush = renumbered id n s.flush :=
  flushRounds_renumber { s with session := { s.session with pending := [] } } id n maxRounds
    s.session.pending

theorem resolve_renumber (handle : Handle) :
    (s.renumber id n).resolve handle = renumbered id n (s.resolve handle) := by
  unfold resolve
  have hflushed : (if (s.renumber id n).deliveries.isResolved handle
        then (Except.ok (), s.renumber id n) else (s.renumber id n).flush)
      = renumbered id n (if s.deliveries.isResolved handle then (.ok (), s) else s.flush) := by
    rw [flush_renumber]
    show (if s.deliveries.isResolved handle then _ else _) = _
    split <;> rfl
  rw [hflushed]
  rcases (if s.deliveries.isResolved handle then (Except.ok (), s) else s.flush) with ⟨_ | _, s₁⟩
  · rfl
  · have htaken : (s₁.renumber id n).deliveries.take handle = s₁.deliveries.take handle := rfl
    dsimp only [renumbered]
    rw [htaken]
    rcases s₁.deliveries.take handle with ⟨_ | value, deliveries⟩ <;> rfl

/-! ## Saves -/

theorem sendPlan_renumber (plan : Plan) :
    (s.renumber id n).sendPlan (plan.renumber n) = renumbered id n (s.sendPlan plan) := by
  have hrequest : batchRequest (plan.renumber n) = batchRequest plan := by
    simp only [batchRequest, Plan.body_renumber]
  simp only [sendPlan, hrequest, send_renumber]
  rcases s.send "save_changes" (batchRequest plan) with ⟨_ | response, s₁⟩
  · rfl
  · simp only [renumbered]
    split
    · exact s₁.attempt_renumber id n (s₁.workspace.settle_renumber n s₁.session.callbacks plan _)
    · split <;> rfl

theorem save_renumber : (s.renumber id n).save = renumbered id n s.save := by
  have hplan := s.workspace.planSave_renumber n s.session.callbacks
  simp only [save, attempt, locally, workspace_renumber]
  rw [show (s.renumber id n).session.callbacks = s.session.callbacks from rfl, hplan]
  rcases s.workspace.planSave s.session.callbacks with ⟨_ | _ | ⟨planned, plan⟩, w⟩
  · rfl
  · rfl
  · exact sendPlan_renumber (s.withWorkspace w) id n (planned :: plan)

end DocumentSession.OpenSession
