import DocumentSession.Proofs.Consistent.Store
import DocumentSession.Proofs.Reads

set_option autoImplicit false

/-! # Reading keeps a workspace consistent

One lemma for each step of reading; that a whole read keeps a workspace consistent
(`Consistent.reads`) follows by induction on its steps. -/

namespace DocumentSession

namespace Shared

@[simp] theorem length_entities_addEntity (s : Shared) (e : Entity) :
    (s.addEntity e).2.entities.length = s.entities.length + 1 :=
  List.length_append

end Shared

namespace Workspace.Consistent

variable {w : Workspace}

/-- The next entity is in no record. -/
theorem get?_next_entity (h : w.Consistent) :
    w.work.registry.get? w.shared.entities.length = none := by
  cases hget : w.work.registry.get? w.shared.entities.length with
  | none => rfl
  | some key => exact absurd (h.known _ key hget) (Nat.lt_irrefl _)

theorem refreshRecord (h : w.Consistent) (key : RecordKey) (body metadata : Fields) :
    (w.refreshRecord key body metadata).Consistent := by
  unfold Workspace.refreshRecord
  split
  · split
    · exact h
    · exact UnitOfWork.Consistent.modifyRecord h key _
        (fun r _ => ⟨rfl, rfl, fun _ => rfl, Or.inl rfl⟩)
  · exact h

theorem addLoaded (h : w.Consistent) {id : String} (hid : w.work.identities.get? id = none)
    (body metadata : Fields) : (w.addLoaded id body metadata).2.Consistent := by
  have hadded := UnitOfWork.Consistent.addRecord h (.loaded id body metadata) false
    (Or.inl rfl) (fun e he => by cases he) (fun _ => hid) (fun hawaits => by cases hawaits)
  exact hadded.setMissing (w.work.missing.remove id)

theorem register (h : w.Consistent) (document : Fields) : (w.register document).2.Consistent := by
  unfold Workspace.register
  dsimp only
  split
  · exact h
  · split
    · exact h.refreshRecord _ _ _
    · next hid => exact h.addLoaded hid _ _

theorem entityFor (h : w.Consistent) (type : EntityType) (key : RecordKey) :
    (w.entityFor type key).2.Consistent := by
  unfold Workspace.entityFor
  split
  · exact h
  · next r hr =>
    split
    · dsimp only
      split
      · exact h
      · exact h
    · exact h
    · next hnone _ =>
      split
      · exact h
      · next e _ =>
        have hgrown : w.work.Consistent (w.shared.entities.length + 1) :=
          h.mono (Nat.le_succ _)
        have hgiven := hgrown.giveEntity hr hnone h.get?_next_entity (Nat.lt_succ_self _)
          (fun r => { r with entity := some w.shared.entities.length }) rfl rfl rfl
        exact hgiven.mono (Nat.le_of_eq (Shared.length_entities_addEntity w.shared e).symm)

theorem detached (h : w.Consistent) (type : EntityType) (document : Fields) :
    (w.detached type document).2.Consistent := by
  unfold Workspace.detached
  dsimp only
  split
  · exact h
  · refine h.setShared ?_
    rw [Shared.length_entities_addEntity]
    exact Nat.le_succ _

theorem readStep {D : Fields → Prop} {w' : Workspace} (h : w.Consistent)
    (hstep : w.ReadStep D w') : w'.Consistent := by
  cases hstep with
  | warn warning => exact h.setShared (Nat.le_refl _)
  | markMissing id => exact h.markMissing id
  | register document _ => exact h.register document
  | entityFor type key => exact h.entityFor type key
  | detached type document => exact h.detached type document

theorem reads {D : Fields → Prop} {w' : Workspace} (h : w.Consistent) (hreads : w.Reads D w') :
    w'.Consistent := by
  induction hreads with
  | refl => exact h
  | tail _ hstep ih => exact ih.readStep hstep

end Workspace.Consistent

end DocumentSession
