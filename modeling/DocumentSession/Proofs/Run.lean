import DocumentSession.Proofs.Frame

set_option autoImplicit false

/-! # Settling results one after the other

`Workspace.SettlesAll` is the run of `Workspace.Settles` over the results of a plan, and
`settle_eq_ok` says that `settle` is such a run. What every step preserves, a run preserves
(`SettlesAll.preserves`); a run over two lists is a run over the first and then one over the second
(`SettlesAll.of_append`).

A result that `Spares` a record and an identifier is for neither of them. A run over such results
keeps the record, gives the identifier to no other record, and does not change whether it is in
`missing`. -/

namespace DocumentSession.Workspace

open Identifier (normalize)

variable {w w' w'' : Workspace} {key : RecordKey}

/-! ## Runs -/

/-- The results of planned commands are settled one after the other, each whatever the answer to the
others. -/
inductive SettlesAll : Workspace → List (Planned × Fields) → List (Except Error Unit) →
    Workspace → Prop where
  | nil (w : Workspace) : SettlesAll w [] [] w
  | cons {w w' w'' : Workspace} {planned : Planned} {result : Fields} {answer : Except Error Unit}
    {pairs : List (Planned × Fields)} {answers : List (Except Error Unit)}
    (first : w.Settles planned result answer w') (others : SettlesAll w' pairs answers w'') :
    SettlesAll w ((planned, result) :: pairs) (answer :: answers) w''

theorem settleAll_settlesAll (h : w.Consistent) (failure : Option Error) (plan : Plan)
    (results : List Fields) :
    ∃ answers, w.SettlesAll (plan.zip results) answers (w.settleAll failure plan results).2
      ∧ (w.settleAll failure plan results).1 = answers.foldl firstError failure := by
  induction plan generalizing w failure results with
  | nil => exact ⟨[], .nil w, rfl⟩
  | cons planned plan ih =>
    cases results with
    | nil => exact ⟨[], .nil w, rfl⟩
    | cons result results =>
      have hfirst := settleResult_settles h planned result
      rw [settleAll, List.zip_cons_cons]
      rcases hsettled : w.settleResult planned result with ⟨answer, w₁⟩
      rw [hsettled] at hfirst
      obtain ⟨answers, hothers, hfailure⟩ :=
        ih (h.settles hfirst) (firstError failure answer) results
      exact ⟨answer :: answers, .cons hfirst hothers, hfailure⟩

/-- `firstError` finds no error if and only if every answer is `.ok ()`. -/
theorem foldl_firstError_eq_none {answers : List (Except Error Unit)} :
    answers.foldl firstError none = none ↔ ∀ answer ∈ answers, answer = .ok () := by
  -- the first failure stays, whatever comes after it
  have hkeeps : ∀ (answers : List (Except Error Unit)) (e : Error),
      answers.foldl firstError (some e) = some e := by
    intro answers e
    induction answers with
    | nil => rfl
    | cons answer rest ih =>
      rw [List.foldl_cons]
      cases answer with
      | error _ => exact ih
      | ok _ => exact ih
  induction answers with
  | nil => simp
  | cons answer rest ih =>
    rw [List.foldl_cons, List.forall_mem_cons]
    cases answer with
    | error e =>
      have hfailed : rest.foldl firstError (firstError none (.error e)) = some e := hkeeps rest e
      rw [hfailed]
      simp
    | ok _ =>
      refine Iff.trans ih ?_
      simp

theorem announce_eq (w : Workspace) (failure : Option Error) (keys : List RecordKey) :
    w.announce {} failure keys = (failure, w) := by
  induction keys with
  | nil => rfl
  | cons key rest ih =>
    rw [announce]
    split
    · exact ih
    · exact ih

/-- Without callbacks, `settle` settles the results of an answer one after the other and then
empties `deferred`. -/
theorem settle_eq_ok (h : w.Consistent) {plan : Plan} {answer : Option Json}
    {results : List Fields} (hresults : resultsFor plan answer = .ok results) :
    ∃ answers w₁, w.SettlesAll (plan.zip results) answers w₁
      ∧ w.settle {} plan answer
        = ((answers.foldl firstError none).elim (.ok ()) .error,
            { w₁ with work := { w₁.work with deferred := [] } }) := by
  obtain ⟨answers, hrun, hfailure⟩ := settleAll_settlesAll h none plan results
  refine ⟨answers, _, hrun, ?_⟩
  unfold settle
  rw [hresults]
  dsimp only
  rcases hall : w.settleAll none plan results with ⟨failure, w₁⟩
  rw [hall] at hfailure
  dsimp only at hfailure ⊢
  rw [announce_eq, hfailure]

/-- If `settle` succeeds, the results of the answer were all settled with success. -/
theorem settles_of_settle_eq_ok (h : w.Consistent) {plan : Plan} {answer : Option Json}
    (hok : (w.settle {} plan answer).1 = .ok ()) :
    ∃ results answers w₁, resultsFor plan answer = .ok results
      ∧ w.SettlesAll (plan.zip results) answers w₁ ∧ (∀ answer ∈ answers, answer = .ok ())
      ∧ (w.settle {} plan answer).2 = { w₁ with work := { w₁.work with deferred := [] } } := by
  cases hresults : resultsFor plan answer with
  | error e =>
    unfold settle at hok
    rw [hresults] at hok
    cases hok
  | ok results =>
    obtain ⟨answers, w₁, hrun, hsettle⟩ := settle_eq_ok h hresults
    rw [hsettle] at hok ⊢
    refine ⟨results, answers, w₁, rfl, hrun, ?_, rfl⟩
    rw [← foldl_firstError_eq_none]
    cases hfailure : answers.foldl firstError none with
    | none => rfl
    | some e =>
      rw [hfailure] at hok
      cases hok

namespace SettlesAll

variable {pairs : List (Planned × Fields)} {answers : List (Except Error Unit)}

theorem consistent (hrun : w.SettlesAll pairs answers w') (h : w.Consistent) : w'.Consistent := by
  induction hrun with
  | nil => exact h
  | cons first _ ih => exact ih (h.settles first)

/-- What every step preserves, the run preserves. -/
theorem preserves {P : Workspace → Prop} (hrun : w.SettlesAll pairs answers w')
    (h : w.Consistent)
    (hstep : ∀ v v' planned result answer, (planned, result) ∈ pairs → answer ∈ answers →
      v.Consistent → v.Settles planned result answer v' → P v → P v')
    (hP : P w) : P w' := by
  induction hrun with
  | nil => exact hP
  | @cons w w₁ _ planned result answer pairs answers first _ ih =>
    refine ih (h.settles first) ?_ ?_
    · intro v v' p r a hmem ha
      exact hstep v v' p r a (List.mem_cons_of_mem _ hmem) (List.mem_cons_of_mem _ ha)
    · exact hstep w w₁ planned result answer (List.mem_cons_self ..) (List.mem_cons_self ..) h
        first hP

theorem of_append {before after : List (Planned × Fields)}
    (hrun : w.SettlesAll (before ++ after) answers w'') :
    ∃ w' answers₁ answers₂, answers = answers₁ ++ answers₂
      ∧ w.SettlesAll before answers₁ w' ∧ w'.SettlesAll after answers₂ w'' := by
  induction before generalizing w answers with
  | nil => exact ⟨w, [], answers, rfl, .nil w, hrun⟩
  | cons pair before ih =>
    cases hrun with
    | cons first others =>
      obtain ⟨w', answers₁, answers₂, rfl, hbefore, hafter⟩ := ih others
      exact ⟨w', _ :: answers₁, answers₂, rfl, .cons first hbefore, hafter⟩

/-- A run over a list is a run over the results before one of them, the step of this result, and a
run over the results after it. -/
theorem of_mem {before after : List (Planned × Fields)} {planned : Planned} {result : Fields}
    (hrun : w.SettlesAll (before ++ (planned, result) :: after) answers w'') :
    ∃ v v' answers₁ answer answers₂, answers = answers₁ ++ answer :: answers₂
      ∧ w.SettlesAll before answers₁ v ∧ v.Settles planned result answer v'
      ∧ v'.SettlesAll after answers₂ w'' := by
  obtain ⟨v, answers₁, rest, rfl, hbefore, hrest⟩ := of_append hrun
  cases hrest with
  | @cons _ v' _ _ _ answer _ answers₂ first others =>
    exact ⟨v, v', answers₁, answer, answers₂, rfl, hbefore, first, others⟩

theorem absent (hrun : w.SettlesAll pairs answers w') (h : w.Consistent)
    (hnone : w.work.records.find? key = none) : w'.work.records.find? key = none :=
  hrun.preserves (P := fun v => v.work.records.find? key = none) h
    (fun _ _ _ _ _ _ _ _ hsettles hnone => hsettles.absent hnone) hnone

end SettlesAll

/-! ## Results that spare a record and an identifier -/

/-- The result is neither for the record at `key` nor for the document `id`. -/
structure Spares (planned : Planned) (result : Fields) (key : RecordKey) (id : String) : Prop where
  record : planned.origin.record? ≠ some key
  given : ∀ other, ¬ Gives planned result other id
  waited : planned.origin = .deferred → normalize planned.command.id ≠ normalize id

/-- A result that `Spares` a record and its identifier does not touch the record. -/
theorem Spares.not_touches {planned : Planned} {result : Fields} (h : w.Consistent) {r : Record}
    (hr : w.work.records.find? key = some r) (hspares : Spares planned result key r.id) :
    ¬ w.Touches planned result key := by
  -- whatever leads to the record is its identifier, which the result spares
  have hindexed : ∀ id, w.work.identities.get? id = some key → normalize r.id = normalize id := by
    intro id hget
    obtain ⟨r', hr', hid⟩ := h.toCoherent.record_of_get? hget
    rw [hr] at hr'
    obtain rfl := Option.some.inj hr'
    exact hid
  have hrecord := hspares.record
  unfold Touches
  cases horigin : planned.origin with
  | put other body metadata =>
    rw [horigin] at hrecord
    rintro (rfl | ⟨id, hid, hget⟩)
    · exact hrecord rfl
    · exact hspares.given other ⟨body, metadata, id, horigin, hid, (hindexed id hget).symm⟩
  | delete other =>
    rw [horigin] at hrecord
    rintro rfl
    exact hrecord rfl
  | deferred =>
    intro hget
    exact hspares.waited horigin (hindexed _ hget).symm

namespace SettlesAll

variable {pairs : List (Planned × Fields)} {answers : List (Except Error Unit)} {id : String}

theorem keepsRecord (hrun : w.SettlesAll pairs answers w') (h : w.Consistent) {r : Record}
    (hr : w.work.records.find? key = some r)
    (hspares : ∀ pair ∈ pairs, Spares pair.1 pair.2 key r.id) : w.KeepsRecord w' key := by
  refine hrun.preserves (P := fun v => w.KeepsRecord v key) h ?_ (.refl w key)
  intro v v' planned result answer hmem _ hv hsettles hkeeps
  have hrv : v.work.records.find? key = some r := hkeeps.record.trans hr
  exact hkeeps.trans (hsettles.keepsRecord hv ((hspares _ hmem).not_touches hv hrv))

/-- An identifier that leads to no record but one stays so. -/
theorem stays_free (hrun : w.SettlesAll pairs answers w') (h : w.Consistent)
    (hspares : ∀ pair ∈ pairs, Spares pair.1 pair.2 key id)
    (hfree : ∀ other, w.work.identities.get? id = some other → other = key) :
    ∀ other, w'.work.identities.get? id = some other → other = key := by
  refine hrun.preserves
    (P := fun v => ∀ other, v.work.identities.get? id = some other → other = key) h ?_ hfree
  intro v v' planned result answer hmem _ hv hsettles hfree other hget
  rcases hsettles.of_get? hv hget with hbefore | hgives
  · exact hfree other hbefore
  · exact absurd hgives ((hspares _ hmem).given other)

/-- An identifier that is not missing stays so, if no result is for its deletion. -/
theorem stays_known (hrun : w.SettlesAll pairs answers w') (h : w.Consistent)
    (hspares : ∀ pair ∈ pairs, Spares pair.1 pair.2 key id)
    (hkept : ∀ pair ∈ pairs, ∀ other, pair.1.origin ≠ .delete other)
    (hknown : w.work.missing.contains id = false) : w'.work.missing.contains id = false := by
  refine hrun.preserves (P := fun v => v.work.missing.contains id = false) h ?_ hknown
  intro v v' planned result answer hmem _ _ hsettles hknown
  rw [← Bool.not_eq_true]
  intro hmissing
  rcases hsettles.of_missing hmissing with hbefore | ⟨other, _, horigin, -⟩ | ⟨horigin, -, hid⟩
  · rw [hknown] at hbefore
    cases hbefore
  · exact hkept _ hmem other horigin
  · exact (hspares _ hmem).waited horigin hid

/-- An identifier that is missing stays so. -/
theorem stays_missing (hrun : w.SettlesAll pairs answers w') (h : w.Consistent)
    (hspares : ∀ pair ∈ pairs, Spares pair.1 pair.2 key id)
    (hmissing : w.work.missing.contains id = true) : w'.work.missing.contains id = true := by
  refine hrun.preserves (P := fun v => v.work.missing.contains id = true) h ?_ hmissing
  intro v v' planned result answer hmem _ _ hsettles hmissing
  rcases hsettles.stays_missing hmissing with hafter | ⟨other, hgives⟩ | ⟨horigin, hid⟩
  · exact hafter
  · exact absurd hgives ((hspares _ hmem).given other)
  · exact absurd hid ((hspares _ hmem).waited horigin)

end SettlesAll

end DocumentSession.Workspace
