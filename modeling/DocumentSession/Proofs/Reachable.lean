import DocumentSession.Proofs.Consistent.Reads
import DocumentSession.Proofs.Consistent.Save
import DocumentSession.Proofs.SessionReads
import DocumentSession.Session.Local
import DocumentSession.Proofs.SaveEnds
import DocumentSession.Entity.Shop

set_option autoImplicit false

/-! # The states of a session

A session is opened, and then operations are performed on it. Between two of them anything may
happen outside of it: callers edit the instances and dictionaries that they hold, and make new
instances, other sessions use the connection, and the server answers as it likes
(`Operation.outside`). `OpenSession.Reachable` says which states come up.

In every one of them the indexes of the unit of work agree (`OpenSession.indexes_agree`). -/

namespace DocumentSession

/-- An operation on a session. -/
inductive Operation where
  | store (entity : EntityRef)
  | storeUnder (entity : EntityRef) (id : String)
  | storeOver (entity : EntityRef) (id : String) (version : Option String)
  | delete (entity : EntityRef)
  | deleteId (id : String) (version : Option String)
  | defer (commands : List Command)
  | ignoreChanges (entity : EntityRef)
  | evict (entity : EntityRef)
  | metadataOf (entity : EntityRef)
  | clear
  | setMaxRequests (max : Nat)
  | load (type : EntityType) (id : String) (includes : List String)
  | loadMany (type : EntityType) (ids includes : List String)
  | runQuery (type : EntityType) (q : Query)
  | countQuery (q : Query)
  | lazyLoad (type : EntityType) (ids includes : List String)
  | lazyQuery (type : EntityType) (q : Query)
  | lazyCount (q : Query)
  | flush
  | resolve (handle : Handle)
  | save
  /-- Other callbacks are registered. -/
  | listen (callbacks : Callbacks)
  /-- What the session shares with its callers and other sessions changes. -/
  | outside (shared : Shared) (connection : Connection) (deliveries : Deliveries)

namespace OpenSession

/-- The session after an operation, whether that succeeds or fails. -/
def perform (s : OpenSession) : Operation → OpenSession
  | .store entity => (s.store entity).2
  | .storeUnder entity id => (s.storeUnder entity id).2
  | .storeOver entity id version => (s.storeOver entity id version).2
  | .delete entity => (s.delete entity).2
  | .deleteId id version => (s.deleteId id version).2
  | .defer commands => (s.defer commands).2
  | .ignoreChanges entity => (s.ignoreChanges entity).2
  | .evict entity => s.evict entity
  | .metadataOf entity => (s.metadataOf entity).2
  | .clear => s.clear
  | .setMaxRequests max => s.setMaxRequests max
  | .load type id includes => (s.load type id includes).2
  | .loadMany type ids includes => (s.loadMany type ids includes).2
  | .runQuery type q => (s.runQuery type q).2
  | .countQuery q => (s.countQuery q).2
  | .lazyLoad type ids includes => (s.lazyLoad type ids includes).2
  | .lazyQuery type q => (s.lazyQuery type q).2
  | .lazyCount q => (s.lazyCount q).2
  | .flush => s.flush.2
  | .resolve handle => (s.resolve handle).2
  | .save => s.save.2
  | .listen callbacks => { s with session := { s.session with callbacks } }
  | .outside shared connection deliveries => { s with shared, connection, deliveries }

/-- The operations of a state: only instances that are there are stored, and none is removed. -/
def Admits (s : OpenSession) : Operation → Prop
  | .store entity => entity < s.shared.entities.length
  | .storeUnder entity _ => entity < s.shared.entities.length
  | .storeOver entity _ _ => entity < s.shared.entities.length
  | .listen callbacks => callbacks.KeepInstances
  | .outside shared _ _ => s.shared.entities.length ≤ shared.entities.length
  | _ => True

/-- The states of sessions. -/
inductive Reachable : OpenSession → Prop where
  | opened (id : Nat) (conventions : Conventions) (options : SessionOptions) (shared : Shared)
    (connection : Connection) (deliveries : Deliveries) :
    Reachable { session := Session.new id conventions options, shared, connection, deliveries }
  | step {s : OpenSession} (operation : Operation) (h : Reachable s)
    (hadmits : s.Admits operation) : Reachable (s.perform operation)

/-! ## Every operation keeps a session consistent -/

/-- The workspace is consistent, and the callbacks remove no instance. -/
structure Consistent (s : OpenSession) : Prop where
  workspace : s.workspace.Consistent
  callbacks : s.session.callbacks.KeepInstances

namespace Consistent

variable {s : OpenSession}

theorem withWorkspace (h : s.Consistent) {w : Workspace} (hw : w.Consistent) :
    (s.withWorkspace w).Consistent :=
  ⟨hw, h.callbacks⟩

theorem locally {α : Type} (h : s.Consistent) {f : Workspace → α × Workspace}
    (hf : (f s.workspace).2.Consistent) : (s.locally f).2.Consistent :=
  h.withWorkspace hf

theorem reads (h : s.Consistent) {s' : OpenSession} (hreads : s.Reads s') : s'.Consistent :=
  ⟨h.workspace.reads hreads.workspace, by rw [hreads.callbacks]; exact h.callbacks⟩

theorem freeze (h : s.Consistent) (q : Query) : (s.freeze q).2.Consistent := by
  have hlength := Callbacks.length_entities_callEachOnQuery h.callbacks.beforeQuery q s.shared
  unfold OpenSession.freeze
  rcases hcalled : Callbacks.callEachOnQuery s.session.callbacks.beforeQuery q s.shared with
    ⟨refused, q', shared⟩
  rw [hcalled] at hlength
  have hworked : OpenSession.Consistent { s with shared } :=
    ⟨h.workspace.setShared hlength, h.callbacks⟩
  cases refused with
  | none => exact hworked
  | some e => exact hworked

theorem save (h : s.Consistent) : s.save.2.Consistent := by
  have hplanned : ∀ {planned w}, s.workspace.planSave s.session.callbacks = (planned, w) →
      (s.withWorkspace w).Consistent := by
    intro planned w hplan
    have hconsistent := h.workspace.planSave h.callbacks
    rw [hplan] at hconsistent
    exact h.withWorkspace hconsistent
  rcases hsave : s.save with ⟨answer, s'⟩
  cases saveEnds hsave with
  | refused hplan | idle hplan => exact hplanned hplan
  | unanswered hplan _ hsend | failed hplan _ hsend =>
    exact (hplanned hplan).reads (reads_send hsend)
  | conflict hplan _ hsend =>
    exact ((hplanned hplan).reads (reads_send hsend)).reads (.warn ..)
  | settled hplan _ hsend =>
    have hsent := (hplanned hplan).reads (reads_send hsend)
    exact hsent.withWorkspace (hsent.workspace.settle hsent.callbacks _ _)

theorem perform (h : s.Consistent) (operation : Operation) (hadmits : s.Admits operation) :
    (s.perform operation).Consistent := by
  cases operation with
  | store entity => exact h.locally (h.workspace.store hadmits none none .auto)
  | storeUnder entity id => exact h.locally (h.workspace.store hadmits (some id) none .auto)
  | storeOver entity id version =>
    exact h.locally (h.workspace.store hadmits (some id) version _)
  | delete entity => exact h.locally (h.workspace.delete entity)
  | deleteId id version => exact h.locally (h.workspace.deleteId id version)
  | defer commands => exact h.locally (h.workspace.defer commands)
  | ignoreChanges entity => exact h.locally (h.workspace.ignoreChanges entity)
  | evict entity => exact h.withWorkspace (h.workspace.evict entity)
  | metadataOf entity => exact h.locally (h.workspace.metadataOf entity)
  | clear => exact ⟨h.workspace.clear, h.callbacks⟩
  | setMaxRequests max => exact ⟨h.workspace, h.callbacks⟩
  | load type id includes => exact h.reads (reads_load rfl)
  | loadMany type ids includes => exact h.reads (readClosed_reads.loadMany rfl)
  | runQuery type q => exact (h.freeze q).reads (readClosed_reads.runQuery rfl)
  | countQuery q => exact (h.freeze _).reads (readClosed_reads.countQuery rfl)
  | lazyLoad type ids includes => exact h.reads (reads_queue s _)
  | lazyQuery type q => exact (h.freeze q).reads (reads_lazyQuery rfl)
  | lazyCount q => exact (h.freeze q).reads (reads_lazyCount rfl)
  | flush => exact h.reads (reads_flush rfl)
  | resolve handle => exact h.reads (reads_resolve rfl)
  | save => exact h.save
  | listen callbacks => exact ⟨h.workspace, hadmits⟩
  | outside shared connection deliveries =>
    exact ⟨h.workspace.setShared hadmits, h.callbacks⟩

end Consistent

theorem Reachable.consistent {s : OpenSession} (h : s.Reachable) : s.Consistent := by
  induction h with
  | opened id conventions options shared connection deliveries =>
    refine ⟨UnitOfWork.Consistent.of_empty rfl rfl rfl rfl rfl, ?_⟩
    exact ⟨by simp [Session.new], by simp [Session.new], by simp [Session.new],
      by simp [Session.new]⟩
  | step operation _ hadmits ih => exact ih.perform operation hadmits

/-- In every state of a session the indexes of its unit of work agree. No instance is held by two
records, and of two records with one identifier one waits for the server to complete it. -/
theorem indexes_agree {s : OpenSession} (h : s.Reachable) :
    s.session.work.Coherent
      ∧ (∀ key key' r r' entity, s.session.work.records.find? key = some r →
          s.session.work.records.find? key' = some r' →
          r.entity = some entity → r'.entity = some entity → key = key')
      ∧ (∀ key key' r r', s.session.work.records.find? key = some r →
          s.session.work.records.find? key' = some r' → key ≠ key' →
          Identifier.normalize r.id = Identifier.normalize r'.id →
          r.AwaitsId s.session.work.conventions.separator
            ∨ r'.AwaitsId s.session.work.conventions.separator) := by
  have hcoherent := h.consistent.workspace.toCoherent
  refine ⟨hcoherent, ?_, ?_⟩
  · intro key key' r r' entity hr hr' he he'
    exact hcoherent.eq_of_entity hr hr' he he'
  · intro key key' r r' hr hr' hne hid
    exact hcoherent.awaitsId_of_same_id hr hr' hne hid

/-- A session over one instance, whose server has a document with an incomplete identifier. -/
def besidePrefix : OpenSession where
  session := Session.new 1 {} {}
  shared := { entities := [{ type := Shop.anything, state := .obj [] }] }
  connection := { server := fun _ => .ok (.ok (.obj
    [("Results", .arr [.obj [("@metadata", .obj [("@id", .str "AnyDocs/")])]])])) }
  deliveries := {}

/-- After that document is loaded and the instance stored, two records have one identifier. -/
theorem indexes_agree_besidePrefix :
    let s := (besidePrefix.perform (.load Shop.anything "AnyDocs/" [])).perform (.store 0)
    s.Reachable
      ∧ s.session.work.records.map (fun entry => Identifier.normalize entry.2.id)
          = ["anydocs/", "anydocs/"]
      ∧ s.session.work.Coherent := by
  have hopened : besidePrefix.Reachable := .opened 1 {} {} _ _ _
  have hloaded := hopened.step (.load Shop.anything "AnyDocs/" []) trivial
  have hinstance : 0 < (besidePrefix.perform
      (.load Shop.anything "AnyDocs/" [])).shared.entities.length := by
    decide +kernel
  have hstored := hloaded.step (.store 0) hinstance
  exact ⟨hstored, by decide +kernel, (indexes_agree hstored).1⟩

end OpenSession

end DocumentSession
