import DocumentSession.Proofs.LazyAnswers
import DocumentSession.Proofs.SaveEnds

set_option autoImplicit false

/-! # Handles

`lazyLoad`, `lazyQuery` and `lazyCount` append a read to `pending` under the next `Handle`, and
reads stay there until `flush`. So no two reads in `pending` have one handle
(`OpenSession.Queueing.handles_distinct`), whatever is done with a session: all other operations
leave `pending` and `deliveries` alone (`OpenSession.KeepsWaiting`). This is what
`OpenSession.Flushes.answersOnce` asks for, so each flush of a session answers every waiting read
exactly once (`OpenSession.Queueing.answersOnce`). -/

namespace DocumentSession.OpenSession

variable {s s' s'' : OpenSession}

/-! ## Frames -/

/-- `pending` and `deliveries` do not change. -/
structure KeepsWaiting (s s' : OpenSession) : Prop where
  pending : s'.session.pending = s.session.pending
  deliveries : s'.deliveries = s.deliveries

namespace KeepsWaiting

theorem refl (s : OpenSession) : s.KeepsWaiting s :=
  ⟨rfl, rfl⟩

theorem trans (h : s.KeepsWaiting s') (h' : s'.KeepsWaiting s'') : s.KeepsWaiting s'' :=
  ⟨h'.pending.trans h.pending, h'.deliveries.trans h.deliveries⟩

theorem send {operation : String} {r : Request} {answer : Except Halt Response}
    (h : s.send operation r = (answer, s')) : s.KeepsWaiting s' := by
  obtain ⟨budget, warnings, sent, rfl, -⟩ := send_eq h
  exact ⟨rfl, rfl⟩

/-- Reading keeps `pending` and `deliveries`. -/
theorem readClosed : ReadClosed KeepsWaiting where
  refl := .refl
  trans := .trans
  send := .send
  work _ := ⟨rfl, rfl⟩

/-! ### Queries -/

theorem freeze {q : Query} {answer : Except Error (Query × Query.Frozen)}
    (h : s.freeze q = (answer, s')) : s.KeepsWaiting s' := by
  unfold OpenSession.freeze at h
  rcases hcalled : Callbacks.callEachOnQuery s.session.callbacks.beforeQuery q s.shared with
    ⟨_ | e, q', shared⟩
  all_goals
    rw [hcalled] at h
    obtain ⟨-, rfl⟩ := Prod.mk.inj h
    exact ⟨rfl, rfl⟩

theorem runQuery (s : OpenSession) (type : EntityType) (q : Query) :
    s.KeepsWaiting (s.runQuery type q).2 :=
  (freeze rfl).trans (readClosed.runQuery rfl)

theorem countQuery (s : OpenSession) (q : Query) : s.KeepsWaiting (s.countQuery q).2 :=
  (freeze rfl).trans (readClosed.countQuery rfl)

/-! ### Saves -/

theorem save (s : OpenSession) : s.KeepsWaiting s.save.2 := by
  rcases hsave : s.save with ⟨answer, s'⟩
  cases saveEnds hsave with
  | refused | idle => exact ⟨rfl, rfl⟩
  | unanswered _ _ hsend | conflict _ _ hsend | failed _ _ hsend | settled _ _ hsend =>
    exact ⟨(send hsend).pending, (send hsend).deliveries⟩

end KeepsWaiting

/-! ## Distinct handles -/

/-- What happens outside of the session gives out no handle again. -/
def Issues (s : OpenSession) : Operation → Prop
  | .outside _ _ deliveries => s.deliveries.next ≤ deliveries.next
  | _ => True

/-- The reads in `pending` have distinct handles, all of them given out before. -/
structure HandlesApart (s : OpenSession) : Prop where
  issued : ∀ p ∈ s.session.pending, p.handle < s.deliveries.next
  distinct : (s.session.pending.map Pending.handle).Nodup

namespace HandlesApart

theorem of_empty (h : s.session.pending = []) : s.HandlesApart := by
  refine ⟨?_, ?_⟩
  · rw [h]
    exact fun _ hmem => (List.not_mem_nil hmem).elim
  · rw [h]
    exact List.nodup_nil

/-- Other sessions may give out handles. -/
theorem of_later (h : s.HandlesApart) (hpending : s'.session.pending = s.session.pending)
    (hnext : s.deliveries.next ≤ s'.deliveries.next) : s'.HandlesApart := by
  refine ⟨?_, ?_⟩
  · rw [hpending]
    exact fun p hmem => Nat.lt_of_lt_of_le (h.issued p hmem) hnext
  · rw [hpending]
    exact h.distinct

theorem keeps (h : s.HandlesApart) (hkeeps : s.KeepsWaiting s') : s'.HandlesApart :=
  h.of_later hkeeps.pending (by rw [hkeeps.deliveries])

/-- `queue` takes a handle that was not given out before. -/
theorem queue (h : s.HandlesApart) (read : LazyRead) : (s.queue read).2.HandlesApart := by
  refine ⟨?_, ?_⟩
  · intro p hmem
    rcases List.mem_append.mp hmem with hbefore | hnew
    · exact Nat.lt_succ_of_lt (h.issued p hbefore)
    · rw [List.mem_singleton.mp hnew]
      exact Nat.lt_succ_self _
  · show ((s.session.pending ++ [_]).map Pending.handle).Nodup
    rw [List.map_append]
    refine List.nodup_append.mpr ⟨h.distinct, List.pairwise_singleton .., ?_⟩
    intro handle hbefore handle' hnew
    obtain ⟨p, hmem, rfl⟩ := List.mem_map.mp hbefore
    rw [List.mem_singleton.mp hnew]
    exact Nat.ne_of_lt (h.issued p hmem)

theorem lazyQuery (h : s.HandlesApart) (type : EntityType) (q : Query) :
    (s.lazyQuery type q).2.HandlesApart := by
  unfold OpenSession.lazyQuery
  split
  · next hfreeze => exact h.keeps (.freeze hfreeze)
  · next hfreeze => exact (h.keeps (.freeze hfreeze)).queue _

theorem lazyCount (h : s.HandlesApart) (q : Query) : (s.lazyCount q).2.HandlesApart := by
  unfold OpenSession.lazyCount
  split
  · next hfreeze => exact h.keeps (.freeze hfreeze)
  · next hfreeze => exact (h.keeps (.freeze hfreeze)).queue _

theorem flush (s : OpenSession) : s.flush.2.HandlesApart := by
  obtain ⟨sent, hdelivers, -⟩ := s.flushes_rounds.delivers
  exact of_empty hdelivers.pending

theorem resolve (h : s.HandlesApart) (handle : Handle) : (s.resolve handle).2.HandlesApart := by
  obtain ⟨s₁, deliveries, hafter, heq, hnext, -⟩ := resolve_eq s handle
  have happart : s₁.HandlesApart := by
    rw [hafter]
    split
    · exact h
    · exact .flush s
  rw [heq]
  exact happart.of_later rfl (Nat.le_of_eq hnext.symm)

theorem perform (h : s.HandlesApart) {operation : Operation} (hissues : s.Issues operation) :
    (s.perform operation).HandlesApart := by
  cases operation with
  | clear => exact .of_empty rfl
  | load type id includes => exact h.keeps (KeepsWaiting.readClosed.loadMany rfl)
  | loadMany type ids includes => exact h.keeps (KeepsWaiting.readClosed.loadMany rfl)
  | runQuery type q => exact h.keeps (.runQuery s type q)
  | countQuery q => exact h.keeps (.countQuery s q)
  | lazyLoad type ids includes => exact h.queue _
  | lazyQuery type q => exact h.lazyQuery type q
  | lazyCount q => exact h.lazyCount q
  | flush => exact .flush s
  | resolve handle => exact h.resolve handle
  | save => exact h.keeps (.save s)
  | outside shared connection deliveries => exact h.of_later rfl hissues
  | _ => exact h.keeps ⟨rfl, rfl⟩

end HandlesApart

/-- The states of sessions in which each handle is given out once. -/
inductive Queueing : OpenSession → Prop where
  | opened (id : Nat) (conventions : Conventions) (options : SessionOptions) (shared : Shared)
    (connection : Connection) (deliveries : Deliveries) :
    Queueing { session := Session.new id conventions options, shared, connection, deliveries }
  | step {s : OpenSession} (operation : Operation) (h : Queueing s)
    (hissues : s.Issues operation) : Queueing (s.perform operation)

/-- No two reads in `pending` have the same handle. -/
theorem Queueing.handles_distinct (h : s.Queueing) :
    (s.session.pending.map Pending.handle).Nodup := by
  have happart : s.HandlesApart := by
    induction h with
    | opened => exact .of_empty rfl
    | step operation _ hissues ih => exact ih.perform hissues
  exact happart.distinct

/-- In every such session `flush` answers each read in `pending` exactly once. -/
theorem Queueing.answersOnce (h : s.Queueing) : s.AnswersOnce s.rounds s.flush.2 :=
  s.flushes_rounds.answersOnce h.handles_distinct

end DocumentSession.OpenSession
