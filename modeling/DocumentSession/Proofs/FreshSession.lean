import DocumentSession.Proofs.RenumberedSession
import DocumentSession.Proofs.Settings

set_option autoImplicit false

/-! # A cleared session is a fresh one

A session after `clear` goes on as one that was just opened with its settings, its callbacks and
what is left of its budget, over the same instances: whatever is done from then on, both give the
same answers, send the same requests, and have the same `account`
(`OpenSession.clear_gives_fresh_session`). Only the `RecordKey`s differ, for `clear` keeps
`nextKey`. -/

namespace DocumentSession

/-- The type of what an operation answers. -/
def Operation.Answer : Operation → Type
  | .store _ | .storeUnder .. | .storeOver .. => Except Error String
  | .delete _ | .deleteId .. | .defer _ | .ignoreChanges _ => Except Error Unit
  | .metadataOf _ => Except Error Metadata.NodeId
  | .load .. => Except Halt (Option EntityRef)
  | .loadMany .. => Except Halt (Dict (Option EntityRef))
  | .runQuery .. => Except Halt QueryResult
  | .countQuery _ => Except Halt Nat
  | .lazyLoad .. => Handle
  | .lazyQuery .. | .lazyCount _ => Except Error Handle
  | .flush | .save => Except Halt Unit
  | .resolve _ => Except Halt LazyValue
  | .evict _ | .clear | .setMaxRequests _ | .listen _ | .outside .. => Unit

/-- What a caller can ask a session about itself and its entities. -/
structure Account where
  idOf : EntityRef → Except Error String
  changeVectorOf : EntityRef → Except Error (Option String)
  hasChanged : EntityRef → Except Error Bool
  isLoaded : String → Bool
  isDeleted : String → Bool
  hasChanges : Except Error Bool
  whatChanged : Except Error (Dict (List Change))
  pendingCounts : PendingCounts
  /-- The number of pending lazy reads. -/
  waiting : Nat
  requests : RequestStats

/-- One line of a `transcript`: an operation with its answer, all requests sent up to its end, and
the `account` of the session then. -/
structure Entry where
  operation : Operation
  answer : operation.Answer
  sent : List Request
  account : Account

namespace OpenSession

/-- The answer of an operation, and the session after it. -/
def carryOut (s : OpenSession) : (operation : Operation) → operation.Answer × OpenSession
  | .store entity => s.store entity
  | .storeUnder entity id => s.storeUnder entity id
  | .storeOver entity id version => s.storeOver entity id version
  | .delete entity => s.delete entity
  | .deleteId id version => s.deleteId id version
  | .defer commands => s.defer commands
  | .ignoreChanges entity => s.ignoreChanges entity
  | .evict entity => ((), s.evict entity)
  | .metadataOf entity => s.metadataOf entity
  | .clear => ((), s.clear)
  | .setMaxRequests max => ((), s.setMaxRequests max)
  | .load type id includes => s.load type id includes
  | .loadMany type ids includes => s.loadMany type ids includes
  | .runQuery type q => s.runQuery type q
  | .countQuery q => s.countQuery q
  | .lazyLoad type ids includes => s.lazyLoad type ids includes
  | .lazyQuery type q => s.lazyQuery type q
  | .lazyCount q => s.lazyCount q
  | .flush => s.flush
  | .resolve handle => s.resolve handle
  | .save => s.save
  | .listen callbacks => ((), { s with session := { s.session with callbacks } })
  | .outside shared connection deliveries => ((), { s with shared, connection, deliveries })

theorem perform_eq_carryOut (s : OpenSession) (operation : Operation) :
    s.perform operation = (s.carryOut operation).2 := by
  cases operation <;> rfl

/-- What a caller can ask the session. -/
def account (s : OpenSession) : Account where
  idOf := s.workspace.idOf
  changeVectorOf := s.workspace.changeVectorOf
  hasChanged := s.workspace.hasChanged
  isLoaded := s.session.work.isLoaded
  isDeleted := s.session.work.isDeleted
  hasChanges := s.workspace.hasChanges
  whatChanged := s.workspace.whatChanged
  pendingCounts := s.session.work.pendingCounts
  waiting := s.session.pending.length
  requests := s.session.budget.stats

/-- The session after `operations`. -/
def performAll (s : OpenSession) (operations : List Operation) : OpenSession :=
  operations.foldl perform s

/-- The answers, requests and accounts while `operations` are performed. -/
def transcript (s : OpenSession) : List Operation → List Entry
  | [] => []
  | operation :: rest =>
    let (answer, s) := s.carryOut operation
    { operation, answer, sent := s.connection.sent, account := s.account } :: transcript s rest

/-! ## Renumbering -/

/-- An operation does the same on a session with other keys. -/
theorem carryOut_renumber (s : OpenSession) (id n : Nat) (operation : Operation) :
    (s.renumber id n).carryOut operation = renumbered id n (s.carryOut operation) := by
  have hlocally : ∀ {α : Type} (f : Workspace → α × Workspace),
      f (s.workspace.renumber n) = Workspace.renumbered n (f s.workspace) →
      (s.renumber id n).locally f = renumbered id n (s.locally f) :=
    fun _ => s.locally_renumber id n
  cases operation with
  | store entity =>
    exact hlocally (·.store entity none none .auto) (s.workspace.store_renumber n entity _ _ _)
  | storeUnder entity docId =>
    exact hlocally (·.store entity (some docId) none .auto)
      (s.workspace.store_renumber n entity _ _ _)
  | storeOver entity docId version =>
    exact hlocally (·.store entity (some docId) version _)
      (s.workspace.store_renumber n entity _ _ _)
  | delete entity => exact hlocally (·.delete entity) (s.workspace.delete_renumber n entity)
  | deleteId docId version =>
    exact hlocally (·.deleteId docId version) (s.workspace.deleteId_renumber n docId version)
  | defer commands => exact hlocally (·.defer commands) (s.workspace.defer_renumber n commands)
  | ignoreChanges entity =>
    exact hlocally (·.ignoreChanges entity) (s.workspace.ignoreChanges_renumber n entity)
  | evict entity =>
    refine congrArg (Prod.mk ()) ?_
    show (s.renumber id n).withWorkspace ((s.workspace.renumber n).evict entity) = _
    rw [Workspace.evict_renumber]
    rfl
  | metadataOf entity =>
    exact hlocally (·.metadataOf entity) (s.workspace.metadataOf_renumber n entity)
  | clear =>
    refine congrArg (Prod.mk ()) ?_
    simp only [clear, workspace_renumber, Workspace.clear_renumber]
    rfl
  | load type docId includes => exact s.load_renumber id n type docId includes
  | loadMany type ids includes => exact s.loadMany_renumber id n type ids includes
  | runQuery type q => exact s.runQuery_renumber id n type q
  | countQuery q => exact s.countQuery_renumber id n q
  | lazyQuery type q => exact s.lazyQuery_renumber id n type q
  | lazyCount q => exact s.lazyCount_renumber id n q
  | flush => exact s.flush_renumber id n
  | resolve handle => exact s.resolve_renumber id n handle
  | save => exact s.save_renumber id n
  | lazyLoad | setMaxRequests | listen | outside => rfl

/-- A session with other keys has the same account. -/
theorem account_renumber (s : OpenSession) (id n : Nat) :
    (s.renumber id n).account = s.account := by
  unfold account
  simp only [workspace_renumber, Workspace.hasChanges_renumber, Workspace.whatChanged_renumber,
    funext (s.workspace.idOf_renumber n), funext (s.workspace.changeVectorOf_renumber n),
    funext (s.workspace.hasChanged_renumber n)]
  simp only [renumber, funext (s.session.work.isLoaded_renumber n),
    UnitOfWork.pendingCounts_renumber]
  rfl

theorem performAll_renumber (s : OpenSession) (id n : Nat) (operations : List Operation) :
    (s.renumber id n).performAll operations = (s.performAll operations).renumber id n := by
  induction operations generalizing s with
  | nil => rfl
  | cons operation rest ih =>
    show ((s.renumber id n).perform operation).performAll rest = _
    rw [perform_eq_carryOut, carryOut_renumber]
    show ((s.carryOut operation).2.renumber id n).performAll rest = _
    rw [ih, ← perform_eq_carryOut]
    rfl

theorem transcript_renumber (s : OpenSession) (id n : Nat) (operations : List Operation) :
    (s.renumber id n).transcript operations = s.transcript operations := by
  induction operations generalizing s with
  | nil => rfl
  | cons operation rest ih =>
    rw [transcript, carryOut_renumber, transcript]
    simp only [renumbered, ih, account_renumber]
    rfl

/-! ## `clear` -/

/-- A session in which nothing was done, with the settings, the callbacks and the budget of `s`,
over what `s` shares after `clear`. -/
def fresh (s : OpenSession) (id : Nat) : OpenSession where
  session :=
    { Session.new id s.session.work.conventions s.session.options with
      budget := s.session.budget
      callbacks := s.session.callbacks }
  shared := s.clear.shared
  connection := s.connection
  deliveries := s.deliveries

theorem entities_clear (s : OpenSession) : s.clear.shared.entities = s.shared.entities := by
  show (s.session.work.records.foldl (fun s entry => s.release entry.2) s.shared).entities = _
  generalize s.shared = shared
  induction s.session.work.records generalizing shared with
  | nil => rfl
  | cons entry rest ih => exact ih (shared.release entry.2)

/-- `clear` leaves the fresh session with its keys moved up by `nextKey`. -/
theorem clear_eq_fresh {s : OpenSession} (h : s.Reachable) (id : Nat) :
    s.clear = (s.fresh id).renumber s.session.id s.session.work.nextKey := by
  have hwork : s.clear.session.work
      = UnitOfWork.renumber (Session.new id s.session.work.conventions s.session.options).work
        s.session.work.nextKey := by
    unfold Session.new UnitOfWork.renumber
    rw [← h.noTracking]
    rfl
  unfold fresh renumber
  rw [← hwork]
  rfl

/-- What is done with a session after it was cleared gives, sends and shows the same as on a fresh
session over the same instances; the records of both differ by their numbers only, and these are in
the same order. -/
theorem clear_gives_fresh_session {s : OpenSession} (h : s.Reachable) (id : Nat)
    (operations : List Operation) :
    (s.fresh id).shared.entities = s.shared.entities
      ∧ s.clear.transcript operations = (s.fresh id).transcript operations
      ∧ s.clear.performAll operations
        = ((s.fresh id).performAll operations).renumber s.session.id s.session.work.nextKey := by
  refine ⟨s.entities_clear, ?_, ?_⟩
  · rw [clear_eq_fresh h id, transcript_renumber]
  · rw [clear_eq_fresh h id, performAll_renumber]

/-- A session that has loaded a document and stored an instance is cleared. The instance, stored
again, gets the third record of the session, and would get the first of a fresh one. -/
theorem clear_gives_fresh_session_stored :
    let s := (besidePrefix.perform (.load Shop.anything "AnyDocs/" [])).perform (.store 0)
    s.Reachable
      ∧ (s.clear.performAll [.store 0]).session.work.records.keys = [2]
      ∧ ((s.fresh 7).performAll [.store 0]).session.work.records.keys = [0]
      ∧ s.clear.transcript [.store 0, .save] = (s.fresh 7).transcript [.store 0, .save] := by
  have hopened : besidePrefix.Reachable := .opened 1 {} {} _ _ _
  have hloaded := hopened.step (.load Shop.anything "AnyDocs/" []) trivial
  have hinstance : 0 < (besidePrefix.perform
      (.load Shop.anything "AnyDocs/" [])).shared.entities.length := by
    decide +kernel
  have hstored := hloaded.step (.store 0) hinstance
  exact ⟨hstored, by decide +kernel, by decide +kernel,
    (clear_gives_fresh_session hstored 7 [.store 0, .save]).2.1⟩

end OpenSession

end DocumentSession
