import Mathlib.Data.List.Nodup
import Mathlib.Data.List.ProdSigma
import DocumentSession.Proofs.Collisions

set_option autoImplicit false

/-! # Announcements of saved entities

Once the answer to a save is settled, `Workspace.announce` calls the `afterSave` callbacks: for
every record that was written (`savedRecords`) and is `stillTracked`, in the order of the batch, and
for each record in the order in which the callbacks were registered. `Workspace.notices` lists the
calls, and the answer of `announce` and what is shared after it follow from the list
(`threads_announce`).

A callback that refuses an entity ends the calls for that entity and for no other. So a callback is
called for an entity if and only if none before it has refused it, and all callbacks are called for
all entities if and only if none but the last one refuses anything
(`OpenSession.saved_entities_announced_iff`). -/

namespace DocumentSession

/-- A call of an `afterSave` callback for the entity of `record`. -/
structure Notice where
  record : RecordKey
  event : SaveEvent
  /-- The index of the callback in `afterSave`. -/
  place : Nat
  /-- The workspace when the callback is called. -/
  found : Workspace
  verdict : Verdict

namespace Notice

/-- The record and the callback of a notice. -/
def parties (notice : Notice) : RecordKey × Nat :=
  (notice.record, notice.place)

/-- The callback returned `.ok ()`. -/
def Agrees (notice : Notice) : Prop :=
  notice.verdict.1 = .ok ()

/-- Each notice finds what the one before it left shared. The first finds `s`, and the last leaves
`s'`. -/
def Threads (s : Shared) : List Notice → Shared → Prop
  | [], s' => s' = s
  | notice :: rest, s' => notice.found.shared = s ∧ Threads notice.verdict.2 rest s'

theorem Threads.append {s s' s'' : Shared} {notices notices' : List Notice}
    (h : Threads s notices s') (h' : Threads s' notices' s'') :
    Threads s (notices ++ notices') s'' := by
  induction notices generalizing s with
  | nil =>
    obtain rfl : s' = s := h
    exact h'
  | cons notice rest ih => exact ⟨h.1, ih h.2⟩

end Notice

namespace Workspace

variable {w : Workspace} {key : RecordKey} {event : SaveEvent} {place : Nat}
  {callbacks : List (SaveEvent → Shared → Verdict)} {keys : List RecordKey} {notice : Notice}

/-! ## The notices of one entity -/

/-- The calls for the record at `key`, from the callback at `place` on, up to the first refusal. -/
def noticesOf (w : Workspace) (key : RecordKey) (event : SaveEvent) (place : Nat) :
    List (SaveEvent → Shared → Verdict) → List Notice
  | [] => []
  | callback :: rest =>
    match callback event w.shared with
    | (.ok (), shared) =>
      { record := key, event, place, found := w, verdict := (.ok (), shared) }
        :: noticesOf { w with shared } key event (place + 1) rest
    | (.error e, shared) =>
      [{ record := key, event, place, found := w, verdict := (.error e, shared) }]

theorem noticesOf_of_agrees {callback : SaveEvent → Shared → Verdict} {shared : Shared}
    (hcalled : callback event w.shared = (.ok (), shared)) :
    w.noticesOf key event place (callback :: callbacks)
      = { record := key, event, place, found := w, verdict := (.ok (), shared) }
        :: noticesOf { w with shared } key event (place + 1) callbacks := by
  rw [noticesOf, hcalled]

theorem noticesOf_of_refuses {callback : SaveEvent → Shared → Verdict} {e : Error}
    {shared : Shared} (hcalled : callback event w.shared = (.error e, shared)) :
    w.noticesOf key event place (callback :: callbacks)
      = [{ record := key, event, place, found := w, verdict := (.error e, shared) }] := by
  rw [noticesOf, hcalled]

/-- What `Callbacks.callEach` answers, and what it leaves shared, follows from `noticesOf`. -/
theorem threads_callEach (w : Workspace) (key : RecordKey) (event : SaveEvent) (place : Nat)
    (callbacks : List (SaveEvent → Shared → Verdict)) :
    Notice.Threads w.shared (w.noticesOf key event place callbacks)
        (Callbacks.callEach event callbacks w.shared).2
      ∧ ∀ failure,
        ((w.noticesOf key event place callbacks).map (·.verdict.1)).foldl firstError failure
          = firstError failure (Callbacks.callEach event callbacks w.shared).1 := by
  induction callbacks generalizing w place with
  | nil => exact ⟨rfl, fun _ => rfl⟩
  | cons callback rest ih =>
    rw [Callbacks.callEach]
    rcases hcalled : callback event w.shared with ⟨_ | _, shared⟩
    · rw [noticesOf_of_refuses hcalled]
      exact ⟨⟨rfl, rfl⟩, fun _ => rfl⟩
    · rw [noticesOf_of_agrees hcalled]
      obtain ⟨hthreads, hfirst⟩ := ih { w with shared } (place + 1)
      exact ⟨⟨rfl, hthreads⟩, hfirst⟩

/-- A notice is a call of the callback at its `place`, and the unit of work is the one of `w`. -/
theorem of_mem_noticesOf (hmem : notice ∈ w.noticesOf key event place callbacks) :
    notice.record = key ∧ notice.event = event ∧ notice.found.work = w.work
      ∧ ∃ i callback, notice.place = place + i ∧ callbacks[i]? = some callback
        ∧ callback event notice.found.shared = notice.verdict := by
  induction callbacks generalizing w place with
  | nil => cases hmem
  | cons callback rest ih =>
    rcases hcalled : callback event w.shared with ⟨_ | _, shared⟩
    · rw [noticesOf_of_refuses hcalled, List.mem_singleton] at hmem
      subst hmem
      exact ⟨rfl, rfl, rfl, 0, callback, rfl, rfl, hcalled⟩
    · rw [noticesOf_of_agrees hcalled, List.mem_cons] at hmem
      rcases hmem with rfl | hmem
      · exact ⟨rfl, rfl, rfl, 0, callback, rfl, rfl, hcalled⟩
      · obtain ⟨hrecord, hevent, hwork, i, callback', hplace, hcallback, hverdict⟩ := ih hmem
        exact ⟨hrecord, hevent, hwork, i + 1, callback', by omega, hcallback, hverdict⟩

/-- The notices of an entity have ascending places. -/
theorem places_noticesOf (w : Workspace) (key : RecordKey) (event : SaveEvent) (place : Nat)
    (callbacks : List (SaveEvent → Shared → Verdict)) :
    ((w.noticesOf key event place callbacks).map Notice.parties).Sublist
      ((List.range' place callbacks.length).map (key, ·)) := by
  induction callbacks generalizing w place with
  | nil => exact List.nil_sublist _
  | cons callback rest ih =>
    rw [List.length_cons, List.range'_succ, List.map_cons]
    rcases hcalled : callback event w.shared with ⟨_ | _, shared⟩
    · rw [noticesOf_of_refuses hcalled]
      exact (List.nil_sublist _).cons_cons _
    · rw [noticesOf_of_agrees hcalled]
      exact (ih { w with shared } (place + 1)).cons_cons _

/-- The callback at `i` is called for an entity if and only if none before it has refused the
entity. -/
theorem called_noticesOf_iff {i : Nat} (hi : i < callbacks.length) :
    (∃ notice ∈ w.noticesOf key event place callbacks, notice.place = place + i)
      ↔ ∀ notice ∈ w.noticesOf key event place callbacks, notice.place < place + i →
        notice.Agrees := by
  induction callbacks generalizing w place i with
  | nil => cases hi
  | cons callback rest ih =>
    rcases hcalled : callback event w.shared with ⟨e | _, shared⟩
    · rw [noticesOf_of_refuses hcalled]
      simp only [List.mem_singleton, exists_eq_left, forall_eq, Notice.Agrees]
      constructor
      · intro hplace hbefore
        omega
      · intro hagrees
        by_contra hne
        cases hagrees (by omega)
    · rw [noticesOf_of_agrees hcalled]
      simp only [List.exists_mem_cons_iff, List.forall_mem_cons]
      cases i with
      | zero =>
        refine iff_of_true (Or.inl rfl) ⟨fun _ => rfl, fun notice hmem hbefore => ?_⟩
        obtain ⟨-, -, -, j, -, hplace, -⟩ := of_mem_noticesOf hmem
        omega
      | succ i =>
        have hrest := @ih { w with shared } (place + 1) i (Nat.lt_of_succ_lt_succ hi)
        rw [show place + 1 + i = place + (i + 1) by omega] at hrest
        rw [← hrest]
        constructor
        · rintro (hplace | hcalled)
          · omega
          · exact ⟨fun _ => rfl, hcalled⟩
        · rintro ⟨-, hcalled⟩
          exact Or.inr hcalled

/-! ## The notices of a save -/

/-- The calls for the records at `keys`, without those that are no longer tracked. -/
def notices (w : Workspace) (callbacks : Callbacks) : List RecordKey → List Notice
  | [] => []
  | key :: rest =>
    match w.work.records.find? key with
    | none => notices w callbacks rest
    | some r =>
      let event := { id := r.id, entity := r.entity }
      w.noticesOf key event 0 callbacks.afterSave
        ++ notices { w with shared := (Callbacks.callEach event callbacks.afterSave w.shared).2 }
          callbacks rest

/-- The `keys` whose records are still there. -/
def stillTracked (w : Workspace) (keys : List RecordKey) : List RecordKey :=
  keys.filter (w.work.records.contains ·)

theorem stillTracked_cons_of_none (hnone : w.work.records.find? key = none) :
    w.stillTracked (key :: keys) = w.stillTracked keys := by
  refine List.filter_cons_of_neg ?_
  unfold Keyed.contains
  rw [hnone]
  exact Bool.false_ne_true

theorem stillTracked_cons_of_some {r : Record} (hr : w.work.records.find? key = some r) :
    w.stillTracked (key :: keys) = key :: w.stillTracked keys := by
  refine List.filter_cons_of_pos ?_
  unfold Keyed.contains
  rw [hr]
  rfl

theorem notices_cons_of_none {callbacks : Callbacks} (hnone : w.work.records.find? key = none) :
    w.notices callbacks (key :: keys) = w.notices callbacks keys := by
  rw [notices, hnone]

theorem notices_cons_of_some {callbacks : Callbacks} {r : Record}
    (hr : w.work.records.find? key = some r) :
    w.notices callbacks (key :: keys)
      = w.noticesOf key { id := r.id, entity := r.entity } 0 callbacks.afterSave
        ++ notices { w with shared := (Callbacks.callEach { id := r.id, entity := r.entity }
          callbacks.afterSave w.shared).2 } callbacks keys := by
  rw [notices, hr]

/-- What `announce` answers, and what it leaves shared, follows from `notices`. -/
theorem threads_announce (w : Workspace) (callbacks : Callbacks) (failure : Option Error)
    (keys : List RecordKey) :
    Notice.Threads w.shared (w.notices callbacks keys) (w.announce callbacks failure keys).2.shared
      ∧ (w.announce callbacks failure keys).1
        = ((w.notices callbacks keys).map (·.verdict.1)).foldl firstError failure := by
  induction keys generalizing w failure with
  | nil => exact ⟨rfl, rfl⟩
  | cons key rest ih =>
    cases hr : w.work.records.find? key with
    | none =>
      rw [announce, hr, notices_cons_of_none hr]
      exact ih w failure
    | some r =>
      rw [announce, hr, notices_cons_of_some hr]
      dsimp only
      obtain ⟨hthreads, hfirst⟩ :=
        w.threads_callEach key { id := r.id, entity := r.entity } 0 callbacks.afterSave
      generalize Callbacks.callEach { id := r.id, entity := r.entity } callbacks.afterSave w.shared
        = called at hthreads hfirst ⊢
      obtain ⟨hothers, hfailure⟩ :=
        ih { w with shared := called.2 } (firstError failure called.1)
      refine ⟨hthreads.append hothers, ?_⟩
      rw [List.map_append, List.foldl_append, hfirst]
      exact hfailure

theorem of_mem_notices {callbacks : Callbacks} (hmem : notice ∈ w.notices callbacks keys) :
    notice.record ∈ w.stillTracked keys ∧ notice.found.work = w.work
      ∧ ∃ r callback, w.work.records.find? notice.record = some r
        ∧ notice.event = { id := r.id, entity := r.entity }
        ∧ callbacks.afterSave[notice.place]? = some callback
        ∧ callback notice.event notice.found.shared = notice.verdict := by
  induction keys generalizing w with
  | nil => cases hmem
  | cons key rest ih =>
    cases hr : w.work.records.find? key with
    | none =>
      rw [notices_cons_of_none hr] at hmem
      rw [stillTracked_cons_of_none hr]
      exact ih hmem
    | some r =>
      rw [notices_cons_of_some hr, List.mem_append] at hmem
      rw [stillTracked_cons_of_some hr]
      rcases hmem with hmem | hmem
      · obtain ⟨rfl, hevent, hwork, i, callback, hplace, hcallback, hverdict⟩ :=
          of_mem_noticesOf hmem
        rw [Nat.zero_add] at hplace
        subst hplace
        refine ⟨List.mem_cons_self .., hwork, r, callback, hr, hevent, hcallback, ?_⟩
        rw [hevent]
        exact hverdict
      · obtain ⟨htracked, hwork, hothers⟩ := ih hmem
        exact ⟨List.mem_cons_of_mem _ htracked, hwork, hothers⟩

/-- The notices follow the order of the records, and for each record the order of the callbacks. -/
theorem parties_notices (w : Workspace) (callbacks : Callbacks) (keys : List RecordKey) :
    ((w.notices callbacks keys).map Notice.parties).Sublist
      (w.stillTracked keys ×ˢ List.range callbacks.afterSave.length) := by
  induction keys generalizing w with
  | nil => exact List.nil_sublist _
  | cons key rest ih =>
    cases hr : w.work.records.find? key with
    | none =>
      rw [notices_cons_of_none hr, stillTracked_cons_of_none hr]
      exact ih w
    | some r =>
      rw [notices_cons_of_some hr, stillTracked_cons_of_some hr,
        List.map_append, List.product_cons, List.range_eq_range']
      refine (places_noticesOf w key _ 0 callbacks.afterSave).append ?_
      rw [← List.range_eq_range']
      exact ih { w with shared := _ }

/-- A callback is called for an entity that is `stillTracked` if and only if none before it has
refused that entity, whatever was answered for others. -/
theorem called_notices_iff {callbacks : Callbacks} (hdistinct : keys.Nodup)
    (hkey : key ∈ w.stillTracked keys) {place : Nat} (hplace : place < callbacks.afterSave.length) :
    (∃ notice ∈ w.notices callbacks keys, notice.record = key ∧ notice.place = place)
      ↔ ∀ notice ∈ w.notices callbacks keys, notice.record = key → notice.place < place →
        notice.Agrees := by
  induction keys generalizing w with
  | nil => cases hkey
  | cons first rest ih =>
    obtain ⟨hfirst, hrest⟩ := List.nodup_cons.mp hdistinct
    cases hr : w.work.records.find? first with
    | none =>
      rw [notices_cons_of_none hr]
      rw [stillTracked_cons_of_none hr] at hkey
      exact ih hrest hkey
    | some r =>
      rw [notices_cons_of_some hr]
      rw [stillTracked_cons_of_some hr, List.mem_cons] at hkey
      set shared := (Callbacks.callEach { id := r.id, entity := r.entity } callbacks.afterSave
        w.shared).2
      by_cases hsame : key = first
      · -- the other notices are those of other records
        subst hsame
        have hothers : ∀ notice ∈ notices { w with shared } callbacks rest,
            notice.record ≠ key := by
          rintro notice hmem rfl
          exact hfirst (List.mem_filter.mp (of_mem_notices hmem).1).1
        have hcalled : (∃ notice ∈ w.noticesOf key { id := r.id, entity := r.entity } 0
            callbacks.afterSave, notice.place = 0 + place) ↔ _ := called_noticesOf_iff hplace
        rw [Nat.zero_add] at hcalled
        simp only [List.mem_append, or_imp, forall_and, or_and_right, exists_or]
        rw [or_iff_left, and_iff_left]
        · refine Iff.trans ?_ (hcalled.trans ?_)
          · refine exists_congr fun notice => and_congr_right fun hmem => ?_
            exact and_iff_right (of_mem_noticesOf hmem).1
          · refine forall_congr' fun notice => forall_congr' fun hmem => ?_
            exact (imp_iff_right (of_mem_noticesOf hmem).1).symm
        · exact fun notice hmem hrecord => absurd hrecord (hothers notice hmem)
        · rintro ⟨notice, hmem, hrecord, -⟩
          exact hothers notice hmem hrecord
      · have hothers : ∀ notice ∈ w.noticesOf first { id := r.id, entity := r.entity } 0
            callbacks.afterSave, notice.record ≠ key :=
          fun notice hmem hrecord => hsame (hrecord.symm.trans (of_mem_noticesOf hmem).1)
        simp only [List.mem_append, or_imp, forall_and, or_and_right, exists_or]
        rw [or_iff_right, and_iff_right]
        · exact ih hrest (hkey.resolve_left hsame)
        · exact fun notice hmem hrecord => absurd hrecord (hothers notice hmem)
        · rintro ⟨notice, hmem, hrecord, -⟩
          exact hothers notice hmem hrecord

/-- All callbacks are called for all entities that are `stillTracked` if and only if none but the
last callback refuses anything. -/
theorem all_called_iff {callbacks : Callbacks} (hdistinct : keys.Nodup) :
    (w.notices callbacks keys).map Notice.parties
        = w.stillTracked keys ×ˢ List.range callbacks.afterSave.length
      ↔ ∀ notice ∈ w.notices callbacks keys, ¬ notice.Agrees →
        notice.place + 1 = callbacks.afterSave.length := by
  have hall : (w.stillTracked keys ×ˢ List.range callbacks.afterSave.length).Nodup :=
    (hdistinct.filter _).product List.nodup_range
  constructor
  · intro hsame notice hmem hrefuses
    obtain ⟨htracked, -, r, callback, -, -, hcallback, -⟩ := of_mem_notices hmem
    have hplace : notice.place < callbacks.afterSave.length :=
      (List.getElem?_eq_some_iff.mp hcallback).1
    by_contra hlast
    -- the next callback was told nevertheless
    have hnext : notice.place + 1 < callbacks.afterSave.length :=
      Nat.lt_of_le_of_ne hplace hlast
    have hparty : (notice.record, notice.place + 1)
        ∈ (w.notices callbacks keys).map Notice.parties := by
      rw [hsame]
      exact List.pair_mem_product.mpr ⟨htracked, List.mem_range.mpr hnext⟩
    obtain ⟨next, hmem', hparties⟩ := List.mem_map.mp hparty
    obtain ⟨hrecord, hplace'⟩ := Prod.mk.inj hparties
    exact hrefuses ((called_notices_iff hdistinct htracked hnext).mp ⟨next, hmem', hrecord, hplace'⟩
      notice hmem rfl (Nat.lt_succ_self _))
  · intro hlast
    refine (parties_notices w callbacks keys).eq_of_length_le
      (List.subperm_of_subset hall ?_).length_le
    rintro ⟨key, place⟩ hparty
    obtain ⟨htracked, hplace⟩ := List.pair_mem_product.mp hparty
    rw [List.mem_range] at hplace
    obtain ⟨notice, hmem, rfl, rfl⟩ := (called_notices_iff hdistinct htracked hplace).mpr
      fun notice hmem hrecord hbefore => by
        by_contra hrefuses
        have := hlast notice hmem hrefuses
        omega
    exact List.mem_map_of_mem hmem

/-! ## The records of a plan -/

theorem savedRecords_append (plan plan' : Plan) :
    savedRecords (plan ++ plan') = savedRecords plan ++ savedRecords plan' :=
  List.filterMap_append

theorem savedRecords_eq_nil {plan : Plan}
    (hothers : ∀ planned ∈ plan, ∀ key body metadata, planned.origin ≠ .put key body metadata) :
    savedRecords plan = [] := by
  refine List.filterMap_eq_nil_iff.mpr fun planned hmem => ?_
  split
  · next horigin => exact absurd horigin (hothers planned hmem _ _ _)
  · rfl

theorem savedRecords_planPuts {w' : Workspace} {callbacks : Callbacks} {plan : Plan}
    (hplan : w.planPuts callbacks keys = (.ok plan, w')) : (savedRecords plan).Sublist keys := by
  induction keys generalizing w w' plan with
  | nil =>
    obtain rfl := Except.ok.inj (Prod.mk.inj hplan).1
    exact List.nil_sublist _
  | cons key rest ih =>
    obtain ⟨first, w₁, others, hfirst, hrest, rfl⟩ := planPuts_cons_eq_ok hplan
    rw [savedRecords_append]
    cases first with
    | none => exact (ih hrest).cons key
    | some planned =>
      obtain ⟨body, metadata, horigin⟩ := origin_planEntity hfirst
      have hhead : savedRecords [planned] = [key] := by
        unfold savedRecords
        rw [List.filterMap_cons, horigin]
        rfl
      rw [Option.toList_some, hhead]
      exact (ih hrest).cons_cons key

/-- `savedRecords` names no record twice. -/
theorem nodup_savedRecords {w' : Workspace} {callbacks : Callbacks} {plan : Plan}
    (h : w.Consistent) (hplan : w.planSave callbacks = (.ok plan, w')) :
    (savedRecords plan).Nodup := by
  obtain ⟨deletes, w₁, puts, w₂, deferred, hplans, hputs, rfl, hdeletes, hdeferred⟩ :=
    planSave_parts hplan
  have hdeleted : savedRecords deletes = [] := by
    refine savedRecords_eq_nil fun planned hmem key body metadata horigin => ?_
    obtain ⟨k, hdelete⟩ := hdeletes planned hmem
    rw [horigin] at hdelete
    cases hdelete
  have hwaited : savedRecords deferred = [] := by
    refine savedRecords_eq_nil fun planned hmem key body metadata horigin => ?_
    rw [hdeferred planned hmem] at horigin
    cases horigin
  rw [savedRecords_append, savedRecords_append, hdeleted, hwaited, List.nil_append,
    List.append_nil]
  refine (savedRecords_planPuts hputs).nodup ?_
  rw [hplans.work]
  exact h.nodup_records

end Workspace

namespace OpenSession

open Workspace

variable {s s₁ : OpenSession} {plan : Plan} {w₀ : Workspace} {response : Response}

/-- `save` settles the response that it gets. -/
theorem save_of_response (hplan : s.workspace.planSave s.session.callbacks = (.ok plan, w₀))
    (hsome : plan ≠ [])
    (hsend : (s.withWorkspace w₀).send "save_changes" (batchRequest plan) = (.ok response, s₁))
    (hsuccess : response.isSuccess = true) :
    s.save = (((s₁.workspace.settle s₁.session.callbacks plan response.body).1).mapError .failed,
      s₁.withWorkspace (s₁.workspace.settle s₁.session.callbacks plan response.body).2) := by
  rw [save_eq_sendPlan hplan hsome]
  unfold sendPlan
  rw [hsend]
  dsimp only
  rw [if_pos hsuccess]
  rfl

/-- Once a valid answer to a save is settled, no command waits, and callbacks are called for the
entities that were written and are still tracked. Every call is that of a registered callback with
the identifier and instance that the record has by then, and finds all results settled, no command
waiting, and what the call before it left. The calls follow the order of the batch, and for each
entity the order of the callbacks, and none comes twice. What is reported is the first error of the
results, else the first of the calls.

A callback is called for an entity exactly if none before it has refused that entity. So each of
them is called exactly once for each entity if and only if none but the last one refuses
anything. -/
theorem saved_entities_announced_iff (h : s.Reachable)
    (hplan : s.workspace.planSave s.session.callbacks = (.ok plan, w₀)) (hsome : plan ≠ [])
    (hsend : (s.withWorkspace w₀).send "save_changes" (batchRequest plan) = (.ok response, s₁))
    (hsuccess : response.isSuccess = true) {results : List Fields}
    (hresults : resultsFor plan response.body = .ok results) :
    let pairs := plan.zip results
    let settled : Workspace :=
      { s₁.workspace.afterResults pairs with
        work := { (s₁.workspace.afterResults pairs).work with deferred := [] } }
    let tracked := settled.stillTracked (savedRecords plan)
    let callbacks := s.session.callbacks.afterSave
    let notices := settled.notices s.session.callbacks (savedRecords plan)
    (∃ answers, s₁.workspace.SettlesAll pairs answers (s₁.workspace.afterResults pairs)
        ∧ s.save.1 = ((answers ++ notices.map (·.verdict.1)).foldl firstError none).elim
          (.ok ()) (.error ∘ .failed))
      ∧ (s.save.2.session.work = settled.work
        ∧ Notice.Threads settled.shared notices s.save.2.shared)
      ∧ (∀ notice ∈ notices, notice.found.work = settled.work ∧ notice.found.work.deferred = []
        ∧ ∃ r callback, settled.work.records.find? notice.record = some r
          ∧ notice.event = { id := r.id, entity := r.entity }
          ∧ callbacks[notice.place]? = some callback
          ∧ callback notice.event notice.found.shared = notice.verdict)
      ∧ (tracked.Nodup
        ∧ (notices.map Notice.parties).Sublist (tracked ×ˢ List.range callbacks.length))
      ∧ (∀ key ∈ tracked, ∀ place < callbacks.length,
        (∃ notice ∈ notices, notice.record = key ∧ notice.place = place)
          ↔ ∀ notice ∈ notices, notice.record = key → notice.place < place → notice.Agrees)
      ∧ (notices.map Notice.parties = tracked ×ˢ List.range callbacks.length
        ↔ ∀ notice ∈ notices, ¬ notice.Agrees → notice.place + 1 = callbacks.length) := by
  intro pairs settled tracked callbacks notices
  have hawaits : s.Awaits s₁.workspace := awaits_of_send hplan hsend
  have hcallbacks : s₁.session.callbacks = s.session.callbacks :=
    (sends_of_send hsend).callbacks
  obtain ⟨answers, hrun, hfailure⟩ := settleAll_settlesAll (hawaits.consistent h.consistent) none
    plan results
  rw [settleAll_snd] at hrun
  have hsettle : s₁.workspace.settle s₁.session.callbacks plan response.body
      = ((settled.announce s.session.callbacks (answers.foldl firstError none)
          (savedRecords plan)).1.elim (.ok ()) .error,
        (settled.announce s.session.callbacks (answers.foldl firstError none)
          (savedRecords plan)).2) := by
    unfold settle
    rw [hresults, hcallbacks]
    dsimp only
    rw [hfailure, settleAll_snd]
  have hsave := save_of_response hplan hsome hsend hsuccess
  rw [hsettle] at hsave
  obtain ⟨hthreads, hreported⟩ := settled.threads_announce s.session.callbacks
    (answers.foldl firstError none) (savedRecords plan)
  have hdistinct := nodup_savedRecords h.consistent.workspace hplan
  refine ⟨⟨answers, hrun, ?_⟩, ⟨?_, ?_⟩, ?_, ⟨hdistinct.filter _, settled.parties_notices _ _⟩, ?_,
    all_called_iff hdistinct⟩
  · rw [hsave, hreported, List.foldl_append]
    cases List.foldl firstError _ _ <;> rfl
  · rw [hsave]
    exact (announce_work settled _ _ _).1
  · rw [hsave]
    exact hthreads
  · intro notice hmem
    obtain ⟨-, hwork, hcall⟩ := of_mem_notices hmem
    exact ⟨hwork, by rw [hwork], hcall⟩
  · intro key hkey place hplace
    exact called_notices_iff hdistinct hkey hplace

/-- A callback for each of the `verdicts`, which returns it for every saved entity. -/
def saying (verdicts : List (Except Error Unit)) : Callbacks where
  afterSave := verdicts.map fun verdict _ shared => (verdict, shared)

theorem keepInstances_saying (verdicts : List (Except Error Unit)) :
    (saying verdicts).KeepInstances := by
  refine ⟨by simp [saying], ?_, by simp [saying], by simp [saying]⟩
  intro callback hcallback event shared
  obtain ⟨verdict, -, rfl⟩ := List.mem_map.mp hcallback
  exact Nat.le_refl _

/-- `threeStored` with a callback for each of the `verdicts`. Its server stores the instances under
identifiers of each other, so only the third one is tracked in the end. -/
def threeHeard (verdicts : List (Except Error Unit)) : OpenSession :=
  threeStored.perform (.listen (saying verdicts))

/-- `threeHeard` once it has the response to a save. -/
def heardSent (verdicts : List (Except Error Unit)) : Except Halt Response × OpenSession :=
  ((threeHeard verdicts).withWorkspace ((threeHeard verdicts).workspace.planSave
    (threeHeard verdicts).session.callbacks).2).send "save_changes" (batchRequest threePlan)

/-- The workspace of `heardSent` once the results are settled. -/
def heardSettled (verdicts : List (Except Error Unit)) : Workspace :=
  let w := (heardSent verdicts).2.workspace.afterResults (threePlan.zip swappedResults)
  { w with work := { w.work with deferred := [] } }

/-- Of two callbacks the second one refuses. Both are called for the one entity that is still
tracked, and the save reports that an identifier was taken. -/
theorem saved_entities_announced_iff_collided :
    let verdicts : List (Except Error Unit) := [.ok (), .error (.custom "too late")]
    ((heardSettled verdicts).notices (threeHeard verdicts).session.callbacks
        (savedRecords threePlan)).map Notice.parties = [(2, 0), (2, 1)]
      ∧ (threeHeard verdicts).save.1
          = .error (.failed (.identityConflict .nonUniqueInstance "users/2"
              ("The server stored a new document under an id the session already tracked; "
                ++ "the previously tracked document is no longer tracked"))) := by
  intro verdicts
  refine ⟨?_, by decide +kernel⟩
  have hreachable : (threeHeard verdicts).Reachable :=
    threeStored_reachable.step (.listen (saying verdicts)) (keepInstances_saying verdicts)
  have hplan : ((threeHeard verdicts).workspace.planSave
      (threeHeard verdicts).session.callbacks).1 = .ok threePlan :=
    Except.eq_ok_of_toOption (by decide +kernel)
  have hresponse : (heardSent verdicts).1.toOption.map (fun response =>
      (response.isSuccess, response.body)) = some (true, swappedAnswer) := by
    decide +kernel
  obtain ⟨response, hsent, hanswer⟩ := Option.map_eq_some_iff.mp hresponse
  obtain ⟨hsuccess, hbody⟩ := Prod.mk.inj hanswer
  have hresults : resultsFor threePlan response.body = .ok swappedResults := by
    rw [hbody]
    decide +kernel
  have hsend : heardSent verdicts = (.ok response, (heardSent verdicts).2) :=
    Prod.ext (Except.eq_ok_of_toOption hsent) rfl
  obtain ⟨-, -, hcalls, -, -, hall⟩ := saved_entities_announced_iff hreachable
    (Prod.ext hplan rfl) (by decide +kernel) hsend hsuccess hresults
  have hlisten : (threeHeard verdicts).session.callbacks.afterSave.length = 2 := rfl
  rw [hlisten] at hall
  refine (hall.mpr ?_).trans (by decide +kernel)
  intro notice hmem hrefuses
  obtain ⟨-, -, r, callback, -, -, hcallback, hverdict⟩ := hcalls notice hmem
  -- the callback in the first place agrees
  rcases hplace : notice.place with _ | _ | place
  · rw [hplace] at hcallback
    obtain rfl := Option.some.inj hcallback
    exact absurd (congrArg Prod.fst hverdict.symm) hrefuses
  · rfl
  · rw [hplace] at hcallback
    cases hcallback

/-- The first of two callbacks refuses an entity, and the second is not called. -/
theorem refusal_silences_later_callbacks :
    let verdicts : List (Except Error Unit) := [.error (.custom "no"), .ok ()]
    (heardSettled verdicts).stillTracked (savedRecords threePlan) = [2]
      ∧ ((heardSettled verdicts).notices (threeHeard verdicts).session.callbacks
        (savedRecords threePlan)).map Notice.parties = [(2, 0)] := by
  intro verdicts
  exact ⟨by decide +kernel, by decide +kernel⟩

end OpenSession

end DocumentSession
