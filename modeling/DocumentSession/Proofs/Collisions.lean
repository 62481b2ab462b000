import DocumentSession.Proofs.ScriptResults
import DocumentSession.Proofs.Sends

set_option autoImplicit false

/-! # Identifier collisions

A server may store an entity under an identifier that another record has by then
(`Workspace.collision?`). The other record is evicted: neither `identities` nor `registry` leads to
it any more, and its own result, should it still come, is skipped (`Workspace.Evicts`). All other
results are settled as usual, and a record stays as it is if no result is for it and it is not
evicted.

Unless the result of a PATCH is unreadable, the first collision is the error of the save
(`OpenSession.collisions_evict`). -/

namespace DocumentSession

open Identifier (normalize)

namespace Workspace

variable {w w' : Workspace} {planned : Planned} {result : Fields} {key other : RecordKey}
  {id : String} {r : Record} {pairs : List (Planned × Fields)}

/-! ## What collides -/

/-- The record that is evicted when `result` is settled, and its identifier: the `@id` in the result
of a planned PUT is the identifier of another record. -/
def collision? (w : Workspace) (planned : Planned) (result : Fields) :
    Option (RecordKey × String) :=
  match planned.origin, resultId result with
  | .put key _ _, some id =>
    if w.work.records.contains key then
      ((w.work.identities.get? id).filter (· ≠ key)).map (fun other => (other, id))
    else none
  | _, _ => none

theorem collision?_eq_some_iff :
    w.collision? planned result = some (other, id)
      ↔ ∃ key body metadata r, planned.origin = .put key body metadata
        ∧ w.work.records.find? key = some r ∧ resultId result = some id
        ∧ w.work.identities.get? id = some other ∧ other ≠ key := by
  unfold collision? Keyed.contains
  constructor
  · intro hcollides
    split at hcollides
    · next key body metadata given horigin hgiven =>
      split at hcollides
      · next htracked =>
        obtain ⟨r, hr⟩ := Option.isSome_iff_exists.mp htracked
        obtain ⟨other', hother, hpair⟩ := Option.map_eq_some_iff.mp hcollides
        obtain ⟨rfl, rfl⟩ := Prod.mk.inj hpair
        obtain ⟨hget, hne⟩ := Option.filter_eq_some_iff.mp hother
        exact ⟨key, body, metadata, r, horigin, hr, hgiven, hget, of_decide_eq_true hne⟩
      · cases hcollides
    · cases hcollides
  · rintro ⟨key, body, metadata, r, horigin, hr, hgiven, hget, hne⟩
    simp [horigin, hgiven, hr, hget, Option.filter, hne]

/-- The collisions while results are settled one after the other. -/
def collisions (w : Workspace) : List (Planned × Fields) → List (RecordKey × String)
  | [] => []
  | (planned, result) :: rest =>
    (w.collision? planned result).toList ++ collisions (w.settleResult planned result).2 rest

/-! ## What goes -/

/-- No index leads to the record at `key`. -/
structure Forgets (w : Workspace) (key : RecordKey) : Prop where
  record : w.work.records.find? key = none
  identities : ∀ id, w.work.identities.get? id ≠ some key
  registry : ∀ entity, w.work.registry.get? entity ≠ some key
  kept : w.work.isToDelete key = false

theorem Consistent.forgets (h : w.Consistent) (hnone : w.work.records.find? key = none) :
    w.Forgets key := by
  refine ⟨hnone, fun id hget => ?_, fun entity hget => ?_, ?_⟩
  · obtain ⟨r, hr, -⟩ := h.record_of_get? hget
    rw [hnone] at hr
    cases hr
  · obtain ⟨r, hr, -⟩ := (h.held entity key).mp hget
    rw [hnone] at hr
    cases hr
  · rw [← Bool.not_eq_true]
    intro hdelete
    obtain ⟨r, hr, -⟩ := h.deletable key hdelete
    rw [hnone] at hr
    cases hr

/-- The result of a PUT has an `@id`. -/
def Named (planned : Planned) (result : Fields) : Prop :=
  ∀ key body metadata, planned.origin = .put key body metadata → (resultId result).isSome = true

/-- The result for a record that is gone changes nothing. -/
theorem settleResult_of_gone (hnamed : Named planned result)
    (hrecord : planned.origin.record? = some key) (hnone : w.work.records.find? key = none) :
    w.settleResult planned result = (.ok (), w) := by
  unfold settleResult
  cases horigin : planned.origin with
  | put key' body metadata =>
    rw [horigin] at hrecord
    obtain rfl := Option.some.inj hrecord
    obtain ⟨id, hid⟩ := Option.isSome_iff_exists.mp (hnamed key' body metadata horigin)
    unfold resultId at hid
    dsimp only
    unfold settlePut
    rw [hid]
    dsimp only
    rw [hnone]
  | delete key' =>
    rw [horigin] at hrecord
    obtain rfl := Option.some.inj hrecord
    dsimp only
    unfold settleDelete removeRecord
    rw [hnone]
  | deferred =>
    rw [horigin] at hrecord
    cases hrecord

/-- `settleResult` registers no instance. -/
theorem Settles.registry_eq_none {answer : Except Error Unit}
    (hsettles : w.Settles planned result answer w') {entity : EntityRef}
    (hnone : w.work.registry.get? entity = none) : w'.work.registry.get? entity = none := by
  have hremoved : ∀ r : Record,
      (r.entity.elim w.work.registry w.work.registry.remove).get? entity = none := by
    intro r
    rw [Registry.get?_elim_remove, hnone, ite_self]
  cases hsettles with
  | unnamed | goneBeforePut | goneBeforeDelete | saved | overwritten | written | noted | unknown
  | versioned | unfit | scripted => exact hnone
  | replaced | deleted | dropped => exact hremoved _

theorem registry_afterResults (h : w.Consistent) {entity : EntityRef}
    (hnone : w.work.registry.get? entity = none) (pairs : List (Planned × Fields)) :
    (w.afterResults pairs).work.registry.get? entity = none := by
  obtain ⟨answers, hrun⟩ := settlesAll_afterResults h pairs
  exact hrun.preserves (P := fun v => v.work.registry.get? entity = none) h
    (fun _ _ _ _ _ _ _ _ hsettles => hsettles.registry_eq_none) hnone

/-- The result of a PUT takes the identifier of the record at `other`. That record is gone for good,
and its instance with it; no result that is settled later brings it back, its own included. -/
structure Evicts (w : Workspace) (pairs : List (Planned × Fields)) (planned : Planned)
    (result : Fields) (other : RecordKey) (id : String) : Prop where
  taken : ∃ key body metadata r, planned.origin = .put key body metadata
    ∧ w.work.records.find? key = some r
    ∧ (w.settleResult planned result).2.work.records.find? key
        = some (r.saved id body (overlayResult metadata result))
    ∧ ∀ id', (w.settleResult planned result).2.work.identities.get? id' = some key
        ↔ normalize id' = normalize id
  gone : ∀ later, ((w.settleResult planned result).2.afterResults later).Forgets other
  unassociated : ∀ r entity, w.work.records.find? other = some r → r.entity = some entity →
    ∀ later, ((w.settleResult planned result).2.afterResults later).work.recordForEntity? entity
      = none
  skipped : ∀ later, ∀ pair ∈ pairs, pair.1.origin.record? = some other →
    ((w.settleResult planned result).2.afterResults later).settleResult pair.1 pair.2
      = (.ok (), (w.settleResult planned result).2.afterResults later)

theorem evicts_of_collision (h : w.Consistent) (hnamed : ∀ pair ∈ pairs, Named pair.1 pair.2)
    (hcollides : w.collision? planned result = some (other, id)) :
    w.Evicts pairs planned result other id := by
  obtain ⟨key, body, metadata, r, horigin, hr, hid, hother, hne⟩ :=
    collision?_eq_some_iff.mp hcollides
  obtain ⟨replaced, hreplaced, -⟩ := h.record_of_get? hother
  have hsettled : w.settleResult planned result
      = (.error (replacedDocument id),
          { work :=
              (w.work.withoutRecord other replaced).savedAs key r id body
                (overlayResult metadata result)
            shared :=
              ((w.shared.savedAs r id).release replaced).warn .serverReplacedDocument }) := by
    unfold settleResult
    rw [horigin]
    exact settlePut_of_taken h hr hid hother hne hreplaced body metadata
  have hafter := h.settles (settleResult_settles h planned result)
  have hrecord : (w.settleResult planned result).2.work.records.find? key
      = some (r.saved id body (overlayResult metadata result)) := by
    have herased : (w.work.records.erase other).find? key = some r := by
      rw [Keyed.find?_erase, if_neg hne, hr]
    rw [hsettled]
    exact Keyed.find?_modify_self herased (·.saved id body (overlayResult metadata result))
  have hgone : (w.settleResult planned result).2.work.records.find? other = none := by
    have herased : (w.work.records.erase other).find? other = none := by
      rw [Keyed.find?_erase, if_pos rfl]
    rw [hsettled]
    exact (Keyed.find?_modify_of_ne _ (Ne.symm hne)
      (·.saved id body (overlayResult metadata result))).trans herased
  refine ⟨⟨key, body, metadata, r, horigin, hr, hrecord, fun id' => ?_⟩, fun later => ?_,
    fun r' entity hr' hentity later => ?_, fun later pair hmem hpair => ?_⟩
  · constructor
    · intro hget
      obtain ⟨r', hr', hid'⟩ := hafter.record_of_get? hget
      obtain rfl := Option.some.inj (hrecord.symm.trans hr')
      exact hid'.symm
    · intro hsame
      rw [hsettled]
      refine (IdentityMap.get?_insert ..).trans ?_
      rw [if_pos hsame.symm]
  · exact (hafter.afterResults later).forgets (absent_afterResults hafter hgone later)
  · obtain rfl := Option.some.inj (hreplaced.symm.trans hr')
    rw [(hafter.afterResults later).recordForEntity?_eq_none_iff]
    refine registry_afterResults hafter ?_ later
    rw [hsettled]
    show Registry.get? (replaced.entity.elim _ _) entity = none
    rw [hentity]
    exact (Registry.get?_remove ..).trans (if_pos rfl)
  · exact settleResult_of_gone (hnamed pair hmem) hpair (absent_afterResults hafter hgone later)

/-! ## What stays -/

/-- `planned` is for the record at `key`: its origin is that record, or it was deferred for the
document of that record. -/
def Targets (w : Workspace) (planned : Planned) (key : RecordKey) : Prop :=
  planned.origin.record? = some key
    ∨ planned.origin = .deferred ∧ w.work.identities.get? planned.command.id = some key

/-- A record that a result is not for, and that is not evicted, is kept. -/
theorem Settles.keepsRecord_of_not_targets {answer : Except Error Unit}
    (hsettles : w.Settles planned result answer w') (h : w.Consistent)
    (hnot : ¬ w.Targets planned key)
    (hstays : ∀ id, w.collision? planned result ≠ some (key, id)) : w.KeepsRecord w' key := by
  by_cases htouches : w.Touches planned result key
  · unfold Touches at htouches
    cases horigin : planned.origin with
    | put other body metadata =>
      rw [horigin] at htouches
      have hne : key ≠ other := by
        rintro rfl
        exact hnot (Or.inl (by rw [horigin]; rfl))
      obtain ⟨id, hid, hget⟩ := htouches.resolve_left (Ne.symm hne)
      -- the identifier of the record is told for one that went in the meantime
      have hnone : w.work.records.find? other = none := by
        by_contra htracked
        obtain ⟨r, hr⟩ := Option.ne_none_iff_exists'.mp htracked
        exact hstays id (collision?_eq_some_iff.mpr
          ⟨other, body, metadata, r, horigin, hr, hid, hget, hne⟩)
      cases hsettles with
      | unnamed | goneBeforePut => exact .refl w key
      | saved horigin' hr | replaced horigin' hr =>
        rw [horigin] at horigin'
        obtain ⟨rfl, -, -⟩ := Origin.put.inj horigin'
        rw [hnone] at hr
        cases hr
      | goneBeforeDelete horigin' | deleted horigin' | overwritten horigin' | written horigin'
      | dropped horigin' | noted horigin' | unknown horigin' | versioned horigin'
      | unfit horigin' | scripted horigin' =>
        rw [horigin] at horigin'
        cases horigin'
    | delete other =>
      rw [horigin] at htouches
      obtain rfl : other = key := htouches
      exact absurd (Or.inl (by rw [horigin]; rfl)) hnot
    | deferred =>
      rw [horigin] at htouches
      exact absurd (Or.inr ⟨horigin, htouches⟩) hnot
  · exact hsettles.keepsRecord h htouches

theorem keepsRecord_of_not_targets (h : w.Consistent)
    (hleft : w.AtEach pairs fun v planned result =>
      ¬ v.Targets planned key ∧ ∀ id, v.collision? planned result ≠ some (key, id)) :
    w.KeepsRecord (w.afterResults pairs) key := by
  induction pairs generalizing w with
  | nil => exact .refl w key
  | cons pair pairs ih =>
    obtain ⟨⟨hnot, hstays⟩, hrest⟩ := atEach_cons.mp hleft
    have hsettles := settleResult_settles h pair.1 pair.2
    exact (hsettles.keepsRecord_of_not_targets h hnot hstays).trans (ih (h.settles hsettles) hrest)

/-! ## The error of a save -/

/-- Where no PATCH result is unreadable, settling fails for collisions only. -/
theorem answer_settleResult (h : w.Consistent) (hnamed : Named planned result)
    (hreadable : ∀ key r, w.Scripts planned key r → ¬ w.Unreadable r result) :
    (w.settleResult planned result).1
      = ((w.collision? planned result).map (fun taken => replacedDocument taken.2)).elim
          (.ok ()) .error := by
  have hfree : (∀ other id, w.collision? planned result ≠ some (other, id)) →
      .ok () = ((w.collision? planned result).map (fun taken => replacedDocument taken.2)).elim
        (.ok ()) Except.error := by
    intro hno
    have hnone : w.collision? planned result = none :=
      Option.eq_none_iff_forall_ne_some.mpr fun taken => hno taken.1 taken.2
    rw [hnone]
    rfl
  have hsettles := settleResult_settles h planned result
  rcases hsettled : w.settleResult planned result with ⟨answer, w'⟩
  rw [hsettled] at hsettles
  dsimp only at hsettles ⊢
  cases hsettles with
  | unnamed horigin hid =>
    have hsome := hnamed _ _ _ horigin
    rw [hid] at hsome
    cases hsome
  | goneBeforePut horigin hr =>
    refine hfree fun other id hcollides => ?_
    obtain ⟨_, _, _, _, horigin', hr', -⟩ := collision?_eq_some_iff.mp hcollides
    rw [horigin] at horigin'
    obtain ⟨rfl, -, -⟩ := Origin.put.inj horigin'
    rw [hr] at hr'
    cases hr'
  | saved horigin hr hid hfree' =>
    refine hfree fun other id hcollides => ?_
    obtain ⟨_, _, _, _, horigin', -, hid', hget, hne⟩ := collision?_eq_some_iff.mp hcollides
    rw [horigin] at horigin'
    obtain ⟨rfl, -, -⟩ := Origin.put.inj horigin'
    obtain rfl := Option.some.inj (hid.symm.trans hid')
    exact hne (hfree' other hget)
  | replaced horigin hr hid hother hne =>
    rw [collision?_eq_some_iff.mpr ⟨_, _, _, _, horigin, hr, hid, hother, hne⟩]
    rfl
  | unfit horigin hkind hfound =>
    have hscripts : w.Scripts planned _ _ := ⟨horigin, hkind, hfound⟩
    have hfails := hscripts.error_iff.mp ⟨_, congrArg Prod.fst hsettled⟩
    exact absurd hfails (hreadable _ _ hscripts)
  | goneBeforeDelete horigin | deleted horigin | overwritten horigin | written horigin
  | dropped horigin | noted horigin | unknown horigin | versioned horigin | scripted horigin =>
    refine hfree fun other id hcollides => ?_
    obtain ⟨_, _, _, _, horigin', -⟩ := collision?_eq_some_iff.mp hcollides
    rw [horigin] at horigin'
    cases horigin'

/-- Where no PATCH result is unreadable, `settleAll` answers with the first collision. -/
theorem settleAll_fst (h : w.Consistent) {plan : Plan} {results : List Fields}
    (hnamed : ∀ pair ∈ plan.zip results, Named pair.1 pair.2)
    (hreadable : w.AtEach (plan.zip results) fun v planned result =>
      ∀ key r, v.Scripts planned key r → ¬ v.Unreadable r result)
    (failure : Option Error) :
    (w.settleAll failure plan results).1
      = failure.or ((w.collisions (plan.zip results)).head?.map
          (fun taken => replacedDocument taken.2)) := by
  induction plan generalizing w failure results with
  | nil => exact Option.or_none.symm
  | cons planned plan ih =>
    cases results with
    | nil => exact Option.or_none.symm
    | cons result results =>
      obtain ⟨hfirst, hrest⟩ := atEach_cons.mp hreadable
      obtain ⟨hname, hnames⟩ := List.forall_mem_cons.mp hnamed
      have hanswer := answer_settleResult h hname hfirst
      have hothers := ih (h.settles (settleResult_settles h planned result)) hnames hrest
        (firstError failure (w.settleResult planned result).1)
      rw [settleAll, List.zip_cons_cons, collisions]
      refine hothers.trans ?_
      rw [hanswer]
      cases w.collision? planned result with
      | none => rfl
      | some taken => exact Option.or_assoc

/-- In an answer to a plan every result of a PUT has an `@id`. -/
theorem named_of_resultsFor {w₀ : Workspace} {callbacks : Callbacks} {plan : Plan}
    {answer : Option Json} {results : List Fields}
    (hplan : (w₀.planSave callbacks).1 = .ok plan)
    (hresults : resultsFor plan answer = .ok results) :
    ∀ pair ∈ plan.zip results, Named pair.1 pair.2 := by
  rintro ⟨planned, result⟩ hmem key body metadata horigin
  obtain ⟨document, haction, -⟩ := carries_planSave (Prod.ext hplan rfl) planned
    (List.of_mem_zip hmem).1 key body metadata horigin
  have hkind : planned.command.kind = .put := by
    unfold Command.kind
    rw [haction]
  exact ((List.forall₂_iff_zip.mp (eq_ok_of_resultsFor hresults).2).2 hmem hkind).1

end Workspace

namespace OpenSession

open Workspace

variable {s : OpenSession} {w : Workspace} {plan : Plan} {answer : Option Json}
  {results : List Fields}

/-- All results in the answer to a plan are settled in turn, and then no command waits. A result
that gives a tracked record the identifier of another one evicts the other. A record stays as it is
if no result is for it and it is not evicted. Where no script fails and there are no callbacks, the
first collision is what is reported, and without one the answer is settled with success. -/
theorem collisions_evict (h : s.Reachable) (hawaits : s.Awaits w) {w₀ : Workspace}
    {callbacks : Callbacks} (hplan : (w₀.planSave callbacks).1 = .ok plan)
    (hresults : resultsFor plan answer = .ok results) :
    let pairs := plan.zip results
    (results.length = plan.length
        ∧ ∀ callbacks, (w.settle callbacks plan answer).2.work
          = { (w.afterResults pairs).work with deferred := [] })
      ∧ (w.AtEach pairs fun v planned result => ∀ other id,
          v.collision? planned result = some (other, id) →
            v.Evicts pairs planned result other id)
      ∧ (∀ key, (w.AtEach pairs fun v planned result =>
            ¬ v.Targets planned key ∧ ∀ id, v.collision? planned result ≠ some (key, id)) →
          w.KeepsRecord (w.afterResults pairs) key)
      ∧ ((w.AtEach pairs fun v planned result =>
            ∀ key r, v.Scripts planned key r → ¬ v.Unreadable r result) →
          (w.settle {} plan answer).1
            = ((w.collisions pairs).head?.map (fun taken =>
                Error.identityConflict .nonUniqueInstance taken.2
                  ("The server stored a new document under an id the session already tracked; "
                    ++ "the previously tracked document is no longer tracked"))).elim
                (.ok ()) .error) := by
  intro pairs
  have hw := hawaits.consistent h.consistent
  have hnamed := named_of_resultsFor hplan hresults
  refine ⟨⟨?_, fun c => work_settle w c hresults⟩, ?_, fun key => keepsRecord_of_not_targets hw,
    fun hreadable => ?_⟩
  · exact (eq_ok_of_resultsFor hresults).2.length_eq.symm
  · intro before planned result after hsplit other id
    exact evicts_of_collision (hw.afterResults before) hnamed
  · unfold settle
    rw [hresults]
    dsimp only
    rw [announce_eq, settleAll_fst hw hnamed hreadable, Option.none_or]
    rfl

/-- The results of three PUT commands. The server has swapped the identifiers of the first two, and
gives the third one that is taken by then. -/
def swappedResults : List Fields :=
  ["users/2", "users/1", "users/2"].map fun id =>
    [("@change-vector", .str "A:1"), ("@id", .str id), ("Type", .str "PUT")]

/-- A session over three instances, whose server answers with `swappedResults`. -/
def besideThree : OpenSession where
  session := Session.new 1 {} {}
  shared :=
    { entities := List.replicate 3 { type := Shop.anything, state := .obj [] } }
  connection := { server := fun _ => .ok (.ok (.obj
    [("Results", .arr (swappedResults.map .obj))])) }
  deliveries := {}

/-- `besideThree` once the instances are stored under different identifiers. -/
def threeStored : OpenSession :=
  ((besideThree.perform (.storeUnder 0 "users/1")).perform (.storeUnder 1 "users/2")).perform
    (.storeUnder 2 "users/3")

theorem threeStored_reachable : threeStored.Reachable := by
  have hopened : besideThree.Reachable := .opened 1 {} {} _ _ _
  have hfirst := hopened.step (.storeUnder 0 "users/1")
    (by show 0 < List.length _; decide +kernel)
  have hsecond := hfirst.step (.storeUnder 1 "users/2")
    (by show 1 < List.length _; decide +kernel)
  exact hsecond.step (.storeUnder 2 "users/3") (by show 2 < List.length _; decide +kernel)

/-- The plan of `threeStored`. -/
def threePlan : Plan :=
  (threeStored.workspace.planSave {}).1.toOption.getD []

/-- `threeStored` once it has sent the request of a save. -/
def threeSent : OpenSession :=
  ((threeStored.withWorkspace (threeStored.workspace.planSave {}).2).send "save_changes"
    (batchRequest threePlan)).2

/-- The answer to that request. -/
def swappedAnswer : Option Json :=
  some (.obj [("Results", .arr (swappedResults.map .obj))])

/-- The first PUT evicts the second record, whose result is skipped, and the third PUT evicts the
first record. The error of the save is the first collision. -/
theorem collisions_evict_swapped :
    threeSent.workspace.collisions (threePlan.zip swappedResults)
        = [(1, "users/2"), (0, "users/2")]
      ∧ (threeSent.workspace.settle {} threePlan swappedAnswer).1
          = .error (.identityConflict .nonUniqueInstance "users/2"
              ("The server stored a new document under an id the session already tracked; "
                ++ "the previously tracked document is no longer tracked"))
      ∧ (threeSent.workspace.afterResults (threePlan.zip swappedResults)).Forgets 1 := by
  have hplan : (threeStored.workspace.planSave {}).1 = .ok threePlan :=
    Except.eq_ok_of_toOption (by decide +kernel)
  have hresults : resultsFor threePlan swappedAnswer = .ok swappedResults := by decide +kernel
  have hawaits : threeStored.Awaits threeSent.workspace := awaits_of_send rfl rfl
  obtain ⟨-, hevicts, -, hreports⟩ :=
    collisions_evict threeStored_reachable hawaits hplan hresults
  have hcollisions : threeSent.workspace.collisions (threePlan.zip swappedResults)
      = [(1, "users/2"), (0, "users/2")] := by
    decide +kernel
  have hunscripted : ∀ planned ∈ threePlan, planned.origin ≠ .deferred := by decide +kernel
  have hreported := hreports fun before planned result after hsplit key r hscripts => by
    have hmem : (planned, result) ∈ threePlan.zip swappedResults := by
      rw [hsplit]
      exact List.mem_append_right _ (List.mem_cons_self ..)
    exact absurd hscripts.origin (hunscripted planned (List.of_mem_zip hmem).1)
  rw [hcollisions] at hreported
  have hfirst : ((threePlan.zip swappedResults).head?.bind fun pair =>
      threeSent.workspace.collision? pair.1 pair.2) = some (1, "users/2") := by
    decide +kernel
  obtain ⟨⟨planned, result⟩, hhead, hcollides⟩ := Option.bind_eq_some_iff.mp hfirst
  obtain ⟨rest, hsplit⟩ := List.head?_eq_some_iff.mp hhead
  have hevicted := hevicts [] planned result rest hsplit 1 "users/2" hcollides
  refine ⟨hcollisions, hreported, ?_⟩
  rw [hsplit, afterResults_cons]
  exact hevicted.gone rest

end OpenSession

end DocumentSession
