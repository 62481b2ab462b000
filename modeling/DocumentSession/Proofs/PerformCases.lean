import DocumentSession.Proofs.Reachable
import DocumentSession.Proofs.LocalSteps

set_option autoImplicit false

/-! # Operations by cases

`OpenSession.PerformCases` tells five kinds of operations apart: those that take local steps, those
that read, `save`, `listen`, and changes from outside of the session. What holds of every operation
is proved by these cases.

The callbacks in `beforeQuery` run before a query is sent. Such an operation reads from the session
that they leave (`OpenSession.asked`). -/

namespace DocumentSession

/-- The change vector that the operation is given to store over. -/
def Operation.given : Operation → Option String
  | .storeOver _ _ version => version
  | _ => none

namespace OpenSession

variable {s s' : OpenSession}

/-! ## Reading -/

/-- The operation loads documents, runs a query, or queues or flushes a lazy read. -/
def Reading : Operation → Prop
  | .load .. | .loadMany .. | .runQuery .. | .countQuery _ => True
  | .lazyLoad .. | .lazyQuery .. | .lazyCount _ | .flush | .resolve _ => True
  | _ => False

/-- The session after the `beforeQuery` callbacks for the query of the operation, if it has one. -/
def asked (s : OpenSession) : Operation → OpenSession
  | .runQuery _ q | .lazyQuery _ q | .lazyCount q => (s.freeze q).2
  | .countQuery q => (s.freeze { q with pageSize := some 0 }).2
  | _ => s

/-- `freeze` changes nothing but `shared`, on which the `beforeQuery` callbacks run. -/
theorem freeze_eq (s : OpenSession) (q : Query) :
    (s.freeze q).2
      = { s with
          shared :=
            (Callbacks.callEachOnQuery s.session.callbacks.beforeQuery q s.shared).2.2 } := by
  unfold freeze
  rcases Callbacks.callEachOnQuery s.session.callbacks.beforeQuery q s.shared with
    ⟨_ | e, q', shared⟩ <;> rfl

theorem shared_freeze_quiet (hquiet : s.session.callbacks.beforeQuery = []) (q : Query) :
    (s.freeze q).2.shared = s.shared := by
  rw [freeze_eq, hquiet]
  rfl

theorem session_asked (s : OpenSession) (operation : Operation) :
    (s.asked operation).session = s.session := by
  unfold asked
  split
  all_goals first | rw [freeze_eq] | rfl

theorem connection_asked (s : OpenSession) (operation : Operation) :
    (s.asked operation).connection = s.connection := by
  unfold asked
  split
  all_goals first | rw [freeze_eq] | rfl

theorem asked_consistent (h : s.Consistent) (operation : Operation) :
    (s.asked operation).Consistent := by
  unfold asked
  split
  all_goals first | exact h.freeze _ | exact h

/-- An operation that reads does so from `s.asked operation`. -/
theorem reads_perform {operation : Operation} (hreading : Reading operation) :
    (s.asked operation).Reads (s.perform operation) := by
  cases operation with
  | load type id includes => exact reads_load rfl
  | loadMany type ids includes => exact readClosed_reads.loadMany rfl
  | runQuery type q => exact readClosed_reads.runQuery rfl
  | countQuery q => exact readClosed_reads.countQuery rfl
  | lazyLoad type ids includes => exact reads_queue s _
  | lazyQuery type q => exact reads_lazyQuery rfl
  | lazyCount q => exact reads_lazyCount rfl
  | flush => exact reads_flush rfl
  | resolve handle => exact reads_resolve rfl
  | _ => cases hreading

/-! ## All operations -/

/-- What `perform` comes to, by the kind of the operation. -/
inductive PerformCases (s : OpenSession) : Operation → OpenSession → Prop where
  | localSteps {operation : Operation} {s' : OpenSession}
    (hlocal : s.workspace.LocalSteps operation.given s'.workspace)
    (hconnection : s'.connection = s.connection)
    (hcallbacks : s'.session.callbacks = s.session.callbacks) : PerformCases s operation s'
  | reads {operation : Operation} {s' : OpenSession} (hreading : Reading operation)
    (hreads : (s.asked operation).Reads s') : PerformCases s operation s'
  | saves : PerformCases s .save s.save.2
  | listens (callbacks : Callbacks) :
    PerformCases s (.listen callbacks) { s with session := { s.session with callbacks } }
  | outside (shared : Shared) (connection : Connection) (deliveries : Deliveries) :
    PerformCases s (.outside shared connection deliveries) { s with shared, connection, deliveries }

/-- Every operation is one of the cases of `PerformCases`. -/
theorem performCases (h : s.Consistent) (operation : Operation) :
    s.PerformCases operation (s.perform operation) := by
  by_cases hreading : Reading operation
  · exact .reads hreading (reads_perform hreading)
  cases operation with
  | store entity => exact .localSteps (Workspace.localSteps_store _ entity none .auto) rfl rfl
  | storeUnder entity id =>
    exact .localSteps (Workspace.localSteps_store _ entity (some id) .auto) rfl rfl
  | storeOver entity id version =>
    exact .localSteps (Workspace.localSteps_store _ entity (some id) _) rfl rfl
  | delete entity => exact .localSteps (Workspace.localSteps_delete _ entity) rfl rfl
  | deleteId id version => exact .localSteps (Workspace.localSteps_deleteId _ id version) rfl rfl
  | defer commands => exact .localSteps (Workspace.localSteps_defer _ commands) rfl rfl
  | ignoreChanges entity => exact .localSteps (Workspace.localSteps_ignoreChanges _ entity) rfl rfl
  | evict entity => exact .localSteps (Workspace.localSteps_evict _ entity) rfl rfl
  | metadataOf entity =>
    exact .localSteps (Workspace.localSteps_metadataOf h.workspace entity) rfl rfl
  | clear => exact .localSteps (.single (.clear _)) rfl rfl
  | setMaxRequests max => exact .localSteps .refl rfl rfl
  | save => exact .saves
  | listen callbacks => exact .listens callbacks
  | outside shared connection deliveries => exact .outside shared connection deliveries
  | _ => exact absurd trivial hreading

end OpenSession

end DocumentSession
