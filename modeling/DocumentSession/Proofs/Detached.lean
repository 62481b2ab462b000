import Mathlib.Data.List.Perm.Subperm
import DocumentSession.Proofs.Consistent.Save
import DocumentSession.Proofs.Rounds

set_option autoImplicit false

/-! # Entities that are not tracked

A read without tracking leaves the unit of work as it is: each document becomes a new entity, which
is given to the caller. `Workspace.Makes` and `OpenSession.Makes` list the entities that are made on
the way.

A new entity gets the next number. So the entities that reads make one after the other are distinct
(`Workspace.Makes.trans`), and a flush gives each of its entities once
(`OpenSession.Flushes.makes`). -/

namespace DocumentSession

/-! ## The entities in a value -/

/-- The entities in an answer; an error has none. -/
def instancesOf {ε α : Type} (instances : α → List EntityRef) : Except ε α → List EntityRef
  | .ok value => instances value
  | .error _ => []

/-- The entities that a load found. -/
def foundInstances (found : Dict (Option EntityRef)) : List EntityRef :=
  found.flatMap (fun entry => entry.2.toList)

/-- The entities in the value of a lazy read. -/
def LazyValue.instances : LazyValue → List EntityRef
  | .documents found => foundInstances found
  | .results found => found.results
  | .count _ => []

/-- The entities in a delivered value. -/
def Delivery.instances (delivery : Delivery) : List EntityRef :=
  instancesOf LazyValue.instances delivery.2

/-- Inserting one answer adds at most its entity. -/
theorem foundInstances_insert (found : Dict (Option EntityRef)) (id : String)
    (entity : Option EntityRef) :
    (foundInstances (found.insert id entity)).Subperm (entity.toList ++ foundInstances found) := by
  induction found with
  | nil => exact (List.Perm.refl _).subperm
  | cons entry rest ih =>
    obtain ⟨id', entity'⟩ := entry
    have hcons : ∀ id (entity : Option EntityRef) rest,
        foundInstances ((id, entity) :: rest) = entity.toList ++ foundInstances rest :=
      fun _ _ _ => List.flatMap_cons
    unfold Keyed.insert
    split
    · -- the identifier was there before, and its instance goes
      rw [hcons, hcons]
      exact ((List.sublist_append_right _ _).append_left _).subperm
    · split
      · exact (List.Perm.refl _).subperm
      · rw [hcons, hcons]
        refine (List.Subperm.append (List.Perm.refl _).subperm ih).trans (List.Perm.subperm ?_)
        rw [← List.append_assoc, ← List.append_assoc]
        exact List.perm_append_comm.append_right _

/-! ## In a workspace -/

namespace Workspace

variable {w w' w'' : Workspace} {made made' : List EntityRef}

/-- From `w` to `w'` the unit of work stays, and the entities in `made` are among the new ones. -/
structure Makes (w : Workspace) (made : List EntityRef) (w' : Workspace) : Prop where
  work : w'.work = w.work
  grows : w.shared.entities.length ≤ w'.shared.entities.length
  /-- None of them was there before. -/
  fresh : ∀ ref ∈ made, w.shared.entities.length ≤ ref ∧ ref < w'.shared.entities.length
  distinct : made.Nodup

namespace Makes

theorem of_shared (hwork : w'.work = w.work)
    (hgrows : w.shared.entities.length ≤ w'.shared.entities.length) : w.Makes [] w' :=
  ⟨hwork, hgrows, fun _ hmem => (List.not_mem_nil hmem).elim, List.nodup_nil⟩

theorem refl (w : Workspace) : w.Makes [] w :=
  .of_shared rfl (Nat.le_refl _)

/-- What is made first and what is made next is disjoint. -/
theorem trans (h : w.Makes made w') (h' : w'.Makes made' w'') : w.Makes (made ++ made') w'' := by
  refine ⟨h'.work.trans h.work, Nat.le_trans h.grows h'.grows, ?_, ?_⟩
  · intro ref hmem
    rcases List.mem_append.mp hmem with hfirst | hthen
    · have hrange := h.fresh ref hfirst
      exact ⟨hrange.1, Nat.lt_of_lt_of_le hrange.2 h'.grows⟩
    · have hrange := h'.fresh ref hthen
      exact ⟨Nat.le_trans h.grows hrange.1, hrange.2⟩
  · refine List.nodup_append.mpr ⟨h.distinct, h'.distinct, ?_⟩
    intro ref hfirst ref' hthen
    have hbefore := (h.fresh ref hfirst).2
    have hafter := (h'.fresh ref' hthen).1
    exact Nat.ne_of_lt (Nat.lt_of_lt_of_le hbefore hafter)

/-- Fewer entities may be listed. -/
theorem of_subperm (h : w.Makes made w') (hsub : made'.Subperm made) : w.Makes made' w' := by
  refine ⟨h.work, h.grows, fun ref hmem => h.fresh ref (hsub.subset hmem), ?_⟩
  obtain ⟨kept, hperm, hkept⟩ := hsub
  exact hperm.nodup_iff.mp (hkept.nodup h.distinct)

theorem nothing (h : w.Makes made w') : w.Makes [] w' :=
  h.of_subperm List.nil_subperm

end Makes

theorem makes_detached {type : EntityType} {document : Fields} {answer : Except Error EntityRef}
    (h : w.detached type document = (answer, w')) :
    w.Makes (instancesOf (fun entity => [entity]) answer) w' := by
  unfold detached at h
  dsimp only at h
  split at h
  · obtain ⟨rfl, rfl⟩ := Prod.mk.inj h
    exact .refl w
  · next e _ =>
    obtain ⟨rfl, rfl⟩ := Prod.mk.inj h
    have hlength : (w.shared.entities ++ [e]).length = w.shared.entities.length + 1 :=
      List.length_append
    refine ⟨rfl, ?_, ?_, List.pairwise_singleton ..⟩
    · show w.shared.entities.length ≤ (w.shared.entities ++ [e]).length
      omega
    · intro ref hmem
      obtain rfl := List.mem_singleton.mp hmem
      refine ⟨Nat.le_refl _, ?_⟩
      show w.shared.entities.length < (w.shared.entities ++ [e]).length
      omega

theorem makes_takeResults {type : EntityType} {items : List Json}
    {answer : Except Error (List EntityRef)} (h : w.takeResults type false items = (answer, w')) :
    w.Makes (instancesOf id answer) w' := by
  induction items generalizing w answer with
  | nil =>
    obtain ⟨rfl, rfl⟩ := Prod.mk.inj h
    exact .refl w
  | cons item rest ih =>
    cases item with
    | obj document =>
      rw [takeResults, Bool.false_and, if_neg Bool.false_ne_true] at h
      split at h
      · next hdetached =>
        obtain ⟨rfl, rfl⟩ := Prod.mk.inj h
        exact makes_detached hdetached
      · next entity w₁ hdetached =>
        have hfirst := makes_detached hdetached
        rcases hrest : w₁.takeResults type false rest with ⟨e | entities, w₂⟩
        all_goals
          rw [hrest] at h
          obtain ⟨rfl, rfl⟩ := Prod.mk.inj h
        · exact (hfirst.trans (ih hrest)).nothing
        · exact hfirst.trans (ih hrest)
    | _ => exact ih h

theorem makes_takeQuery {type : EntityType} {reply : QueryReply}
    {answer : Except Error QueryResult} (h : w.takeQuery type false reply = (answer, w')) :
    w.Makes (instancesOf QueryResult.results answer) w' := by
  unfold takeQuery at h
  rw [if_neg Bool.false_ne_true, registerAll] at h
  dsimp only at h
  rcases hresults : w.takeResults type false reply.results with ⟨e | results, w₁⟩
  all_goals
    rw [hresults] at h
    obtain ⟨rfl, rfl⟩ := Prod.mk.inj h
    exact makes_takeResults hresults

end Workspace

/-! ## Reads without tracking -/

namespace LazyRead

/-- The read makes entities that are not tracked. -/
def IsDetached : LazyRead → Prop
  | .load .. => False
  | .query _ _ tracking => tracking = false
  | .count _ => True

variable {read : LazyRead} {w w' : Workspace}

/-- `prepare` never answers such a read. -/
theorem IsDetached.prepare (h : read.IsDetached) (w : Workspace) :
    ∃ request, read.prepare w = (.asks request read, w) := by
  cases read with
  | load => cases h
  | query => exact ⟨_, rfl⟩
  | count => exact ⟨_, rfl⟩

theorem IsDetached.receive (h : read.IsDetached) {response : SubResponse}
    {answer : Except Error LazyValue} (hreceive : read.receive w response = (answer, w')) :
    w.Makes (instancesOf LazyValue.instances answer) w' := by
  cases read with
  | load => cases h
  | query type q tracking =>
    obtain rfl : tracking = false := h
    unfold LazyRead.receive at hreceive
    dsimp only at hreceive
    split at hreceive
    · obtain ⟨rfl, rfl⟩ := Prod.mk.inj hreceive
      exact .refl w
    · next reply _ =>
      rcases hquery : w.takeQuery type false reply with ⟨e | found, w₁⟩
      all_goals
        rw [hquery] at hreceive
        obtain ⟨rfl, rfl⟩ := Prod.mk.inj hreceive
        exact Workspace.makes_takeQuery hquery
  | count q =>
    obtain ⟨rfl, rfl⟩ := Prod.mk.inj hreceive
    cases QueryReply.ofBody response.result with
    | error _ => exact .refl w
    | ok _ => exact .refl w

end LazyRead

/-! ## In a session -/

namespace OpenSession

variable {s s' s'' : OpenSession} {made made' : List EntityRef}

/-- From `s` to `s'` the unit of work and `pending` stay, and the entities in `made` are among the
new ones. -/
structure Makes (s : OpenSession) (made : List EntityRef) (s' : OpenSession) : Prop where
  workspace : s.workspace.Makes made s'.workspace
  pending : s'.session.pending = s.session.pending

namespace Makes

theorem of_shared (hwork : s'.session.work = s.session.work)
    (hgrows : s.shared.entities.length ≤ s'.shared.entities.length)
    (hpending : s'.session.pending = s.session.pending) : s.Makes [] s' :=
  ⟨.of_shared hwork hgrows, hpending⟩

theorem refl (s : OpenSession) : s.Makes [] s :=
  ⟨.refl _, rfl⟩

theorem trans (h : s.Makes made s') (h' : s'.Makes made' s'') : s.Makes (made ++ made') s'' :=
  ⟨h.workspace.trans h'.workspace, h'.pending.trans h.pending⟩

/-- The unit of work of a session that has made instances. -/
theorem work (h : s.Makes made s') : s'.session.work = s.session.work :=
  h.workspace.work

/-- Work on the workspace that makes entities. -/
theorem locally {α : Type} {f : Workspace → α × Workspace} {answer : α}
    (h : s.locally f = (answer, s')) (hf : ∀ w, f s.workspace = (answer, w) →
      s.workspace.Makes made w) : s.Makes made s' := by
  unfold OpenSession.locally at h
  obtain ⟨rfl, rfl⟩ := Prod.mk.inj h
  exact ⟨hf _ rfl, rfl⟩

/-- Work on the workspace that makes entities, and may fail. -/
theorem attempt {α : Type} {f : Workspace → Except Error α × Workspace}
    {instances : α → List EntityRef} {answer : Except Halt α} (h : s.attempt f = (answer, s'))
    (hf : ∀ {answer w}, f s.workspace = (answer, w) →
      s.workspace.Makes (instancesOf instances answer) w) :
    s.Makes (instancesOf instances answer) s' := by
  unfold OpenSession.attempt at h
  rcases hlocal : s.locally f with ⟨answer', s₁⟩
  rw [hlocal] at h
  obtain ⟨rfl, rfl⟩ := Prod.mk.inj h
  have hmakes := Makes.locally hlocal (fun w => hf)
  cases answer' with
  | error _ => exact hmakes
  | ok _ => exact hmakes

theorem send {operation : String} {r : Request} {answer : Except Halt Response}
    (h : s.send operation r = (answer, s')) : s.Makes [] s' := by
  obtain ⟨budget, warnings, sent, rfl, -⟩ := send_eq h
  exact .of_shared rfl (Nat.le_refl _) rfl

theorem sendForBody {operation : String} {r : Request} {answer : Except Halt (Option Json)}
    (h : s.sendForBody operation r = (answer, s')) : s.Makes [] s' := by
  obtain ⟨_, hsend⟩ := send_of_sendForBody_eq h
  exact .send hsend

end Makes

/-! ## Loads and queries -/

/-- Documents that are missing have no entities. -/
theorem foundInstances_missing (ids : List String) :
    foundInstances (Dict.ofList (ids.map (·, none))) = [] := by
  have hnothing : ∀ found : Dict (Option EntityRef), foundInstances found = [] →
      foundInstances (Dict.overlay found (ids.map (·, none))) = [] := by
    induction ids with
    | nil => exact fun _ hfound => hfound
    | cons id rest ih =>
      intro found hfound
      refine ih _ (List.subperm_nil.mp ?_)
      have hinsert := foundInstances_insert found id none
      rw [hfound] at hinsert
      exact hinsert
  exact hnothing [] rfl

/-- `makeDetached` gives the entities found before and those that it makes. -/
theorem makes_makeDetached {w w' : Workspace} {type : EntityType}
    {found : Dict (Option EntityRef)} {ids : List String} {results : List (Option Fields)}
    {answer : Except Error (Dict (Option EntityRef))}
    (h : makeDetached w type found ids results = (answer, w')) :
    ∃ made, w.Makes made w'
      ∧ (instancesOf foundInstances answer).Subperm (foundInstances found ++ made) := by
  have hfound : ∀ found, (foundInstances found).Subperm (foundInstances found ++ []) :=
    fun found => (List.sublist_append_left _ _).subperm
  induction ids generalizing w found results with
  | nil =>
    obtain ⟨rfl, rfl⟩ := Prod.mk.inj h
    exact ⟨[], .refl w, hfound found⟩
  | cons id ids ih =>
    cases results with
    | nil =>
      obtain ⟨rfl, rfl⟩ := Prod.mk.inj h
      exact ⟨[], .refl w, hfound found⟩
    | cons result results =>
      cases result with
      | none =>
        obtain ⟨made, hmakes, hanswer⟩ := ih h
        refine ⟨made, hmakes, hanswer.trans ?_⟩
        exact (List.subperm_append_right made).mpr (foundInstances_insert found id none)
      | some document =>
        rw [makeDetached] at h
        rcases hdetached : w.detached type document with ⟨e | entity, w₁⟩
        all_goals
          have hfirst := Workspace.makes_detached hdetached
          rw [hdetached] at h
        · obtain ⟨rfl, rfl⟩ := Prod.mk.inj h
          exact ⟨[], hfirst, List.nil_subperm⟩
        · obtain ⟨made, hmakes, hanswer⟩ := ih h
          refine ⟨[entity] ++ made, hfirst.trans hmakes, hanswer.trans ?_⟩
          have hinsert := foundInstances_insert found id (some entity)
          refine ((List.subperm_append_right made).mpr hinsert).trans (List.Perm.subperm ?_)
          rw [← List.append_assoc]
          exact List.perm_append_comm.append_right made

theorem makes_loadDetached {type : EntityType} {ids includes : List String}
    {answer : Except Halt (Dict (Option EntityRef))}
    (h : s.loadDetached type ids includes = (answer, s')) :
    s.Makes (instancesOf foundInstances answer) s' := by
  unfold loadDetached at h
  split at h
  · next hsend =>
    obtain ⟨rfl, rfl⟩ := Prod.mk.inj h
    exact .send hsend
  · next response s₁ hsend =>
    have hsent := Makes.send hsend
    split at h
    · obtain ⟨rfl, rfl⟩ := Prod.mk.inj h
      rw [instancesOf, foundInstances_missing]
      exact hsent
    · split at h
      · obtain ⟨rfl, rfl⟩ := Prod.mk.inj h
        exact hsent
      · split at h
        · obtain ⟨rfl, rfl⟩ := Prod.mk.inj h
          exact hsent
        · refine hsent.trans (Makes.attempt h ?_)
          intro answer w hmade
          obtain ⟨made, hmakes, hanswer⟩ := makes_makeDetached hmade
          exact hmakes.of_subperm hanswer

theorem makes_freeze (hkeep : s.session.callbacks.KeepInstances) {q : Query}
    {answer : Except Error (Query × Query.Frozen)} (h : s.freeze q = (answer, s')) :
    s.Makes [] s' := by
  have hlength := Callbacks.length_entities_callEachOnQuery hkeep.beforeQuery q s.shared
  unfold freeze at h
  rcases hcalled : Callbacks.callEachOnQuery s.session.callbacks.beforeQuery q s.shared with
    ⟨_ | e, q', shared⟩
  all_goals
    rw [hcalled] at h hlength
    obtain ⟨rfl, rfl⟩ := Prod.mk.inj h
    exact .of_shared rfl hlength rfl

theorem makes_ask {q : Query.Frozen} {answer : Except Halt QueryReply}
    (h : s.ask q = (answer, s')) : s.Makes [] s' := by
  unfold ask at h
  rcases hbody : s.sendForBody queryOperation (queryRequest q) with ⟨body, s₁⟩
  rw [hbody] at h
  obtain ⟨rfl, rfl⟩ := Prod.mk.inj h
  exact .sendForBody hbody

theorem isTracking_eq_false (h : s.session.work.noTracking = true) (q : Query) :
    s.isTracking q = false := by
  unfold isTracking
  rw [h]
  exact Bool.and_false _

theorem makes_runQuery (hoff : s.session.work.noTracking = true)
    (hkeep : s.session.callbacks.KeepInstances) {type : EntityType} {q : Query}
    {answer : Except Halt QueryResult} (h : s.runQuery type q = (answer, s')) :
    s.Makes (instancesOf QueryResult.results answer) s' := by
  unfold runQuery at h
  split at h
  · next hfreeze =>
    obtain ⟨rfl, rfl⟩ := Prod.mk.inj h
    exact makes_freeze hkeep hfreeze
  · next q' frozen s₁ hfreeze =>
    have hfrozen := makes_freeze hkeep hfreeze
    split at h
    · next hask =>
      obtain ⟨rfl, rfl⟩ := Prod.mk.inj h
      exact hfrozen.trans (makes_ask hask)
    · next reply s₂ hask =>
      have hasked := hfrozen.trans (makes_ask hask)
      have huntracked : s₂.isTracking q' = false := by
        refine isTracking_eq_false ?_ q'
        rw [hasked.work]
        exact hoff
      rw [huntracked] at h
      exact hasked.trans (Makes.attempt h Workspace.makes_takeQuery)

theorem makes_countQuery (hkeep : s.session.callbacks.KeepInstances) {q : Query}
    {answer : Except Halt Nat} (h : s.countQuery q = (answer, s')) : s.Makes [] s' := by
  unfold countQuery at h
  split at h
  · next hfreeze =>
    obtain ⟨rfl, rfl⟩ := Prod.mk.inj h
    exact makes_freeze hkeep hfreeze
  · next q' frozen s₁ hfreeze =>
    rcases hask : s₁.ask frozen with ⟨reply, s₂⟩
    rw [hask] at h
    obtain ⟨rfl, rfl⟩ := Prod.mk.inj h
    exact (makes_freeze hkeep hfreeze).trans (makes_ask hask)

/-! ## Flushes -/

/-- The entities in the delivered values. -/
def deliveredInstances (delivered : List Delivery) : List EntityRef :=
  delivered.flatMap Delivery.instances

theorem deliveredInstances_append (before after : List Delivery) :
    deliveredInstances (before ++ after) = deliveredInstances before ++ deliveredInstances after :=
  List.flatMap_append

/-- Reads that fail are given no entities. -/
theorem deliveredInstances_failed (batch : List Asked) (e : Asked → Error) :
    deliveredInstances (Round.given (batch.map (fun asked => (asked, some (.error (e asked))))))
      = [] := by
  induction batch with
  | nil => rfl
  | cons asked rest ih => exact ih

theorem makes_deliver (h : s.Makes made s') (handle : Handle) (value : Except Error LazyValue) :
    s.Makes made (s'.deliver handle value) :=
  ⟨h.workspace, h.pending⟩

theorem makes_warn (s : OpenSession) (warning : Warning) : s.Makes [] (s.warn warning) :=
  .of_shared rfl (Nat.le_refl _) rfl

theorem makes_cached {url : String} {answer : Option Cached} (h : s.cached url = (answer, s')) :
    s.Makes [] s' := by
  unfold OpenSession.cached at h
  split at h
  · obtain ⟨-, rfl⟩ := Prod.mk.inj h
    exact .refl s
  · obtain ⟨-, rfl⟩ := Prod.mk.inj h
    exact .of_shared rfl (Nat.le_refl _) rfl

theorem makes_remember (s : OpenSession) (url : String) (cached : Cached) :
    s.Makes [] (s.remember url cached) := by
  unfold OpenSession.remember
  split
  · exact .refl s
  · exact .of_shared rfl (Nat.le_refl _) rfl

theorem makes_throughCache {url : String} {r r' : SubResponse}
    (h : s.throughCache url r = (r', s')) : s.Makes [] s' := by
  rcases throughCache_cases h with ⟨_, hcached, -⟩ | ⟨-, rfl | ⟨_, -, rfl⟩⟩
  · exact makes_cached hcached
  · exact .refl _
  · exact makes_remember ..

/-- `prepareAll` sends all such reads, and makes nothing. -/
theorem makes_prepareAll {pending : List Pending} (hpending : ∀ p ∈ pending, p.read.IsDetached) :
    s.Makes [] (s.prepareAll pending).2 ∧ s.known pending = []
      ∧ ∀ asked ∈ (s.prepareAll pending).1, asked.pending.read.IsDetached := by
  induction pending generalizing s with
  | nil => exact ⟨.refl s, rfl, fun _ hmem => (List.not_mem_nil hmem).elim⟩
  | cons p rest ih =>
    obtain ⟨hp, hrest⟩ := List.forall_mem_cons.mp hpending
    obtain ⟨request, hprepare⟩ := hp.prepare s.workspace
    have hlocal : s.locally p.read.prepare = (.asks request p.read, s) := by
      unfold OpenSession.locally
      rw [hprepare]
      rfl
    have hanswer : s.answer? p = none := by
      unfold answer?
      rw [hprepare]
    rcases hcached : s.cached request.cacheKey with ⟨found, s₁⟩
    have hfirst : s.prepare p
        = (some { pending := p, request := found.elim request (conditional request) }, s₁) := by
      unfold prepare
      rw [hlocal]
      dsimp only
      rw [hcached]
    obtain ⟨hmakes, hknown, hbatch⟩ := ih (s := s₁) hrest
    rw [prepareAll, known, hfirst, hanswer]
    exact ⟨(makes_cached hcached).trans hmakes, hknown, List.forall_mem_cons.mpr ⟨hp, hbatch⟩⟩

theorem makes_sendRound {batch : List Asked} {answer : Except Halt (List SubResponse)}
    (h : s.sendRound batch = (answer, s')) : s.Makes [] s' := by
  unfold sendRound at h
  dsimp only at h
  obtain ⟨-, rfl⟩ := Prod.mk.inj h
  exact .sendForBody rfl

/-- `receive` makes the entities that it delivers. -/
theorem makes_receive {asked : Asked} (h : asked.pending.read.IsDetached) (r : SubResponse) :
    s.Makes (deliveredInstances (Round.given [(asked, s.valueFor? asked r)]))
      (s.receive asked r).2 := by
  unfold receive valueFor?
  rcases hthrough : s.throughCache asked.request.cacheKey r with ⟨r', s₁⟩
  have hmakes := makes_throughCache hthrough
  dsimp only
  split
  · exact hmakes.trans (makes_warn s₁ .lazyRetry)
  · split
    · exact makes_deliver hmakes _ _
    · rcases hlocal : s₁.locally (asked.pending.read.receive · r') with ⟨value, s₂⟩
      have hvalue : (asked.pending.read.receive s₁.workspace r').1 = value :=
        congrArg Prod.fst hlocal
      have hreceived := hmakes.trans (Makes.locally hlocal (fun w => h.receive))
      rw [hvalue]
      refine makes_deliver ?_ _ _
      rw [List.nil_append] at hreceived
      rw [← List.append_nil (instancesOf _ _)] at hreceived
      exact hreceived

theorem makes_receiveAll {batch : List Asked} (h : ∀ asked ∈ batch, asked.pending.read.IsDetached)
    (responses : List SubResponse) :
    s.Makes (deliveredInstances (Round.given (s.receipts batch responses)))
        (s.receiveAll batch responses).2
      ∧ ∀ p ∈ (s.receiveAll batch responses).1, p.read.IsDetached := by
  induction batch generalizing s responses with
  | nil => exact ⟨.refl s, fun _ hmem => (List.not_mem_nil hmem).elim⟩
  | cons asked batch ih =>
    cases responses with
    | nil => exact ⟨.refl s, fun _ hmem => (List.not_mem_nil hmem).elim⟩
    | cons r responses =>
      obtain ⟨hasked, hbatch⟩ := List.forall_mem_cons.mp h
      obtain ⟨hmakes, hothers⟩ := ih (s := (s.receive asked r).2) hbatch responses
      have hagain : ∀ p ∈ (s.receive asked r).1.toList, p.read.IsDetached := by
        rw [(s.receive_delivers asked r).2]
        intro p hmem
        obtain ⟨receipt, hreceipt, rfl⟩ := List.mem_map.mp hmem
        obtain rfl := List.mem_singleton.mp (List.mem_filter.mp hreceipt).1
        exact hasked
      rw [receiveAll, receipts, Round.given_cons, deliveredInstances_append]
      exact ⟨(makes_receive hasked r).trans hmakes, List.forall_mem_append.mpr ⟨hagain, hothers⟩⟩

/-- `failAll` makes nothing. -/
theorem makes_failAll (s : OpenSession) (e : Error) (batch : List Asked) :
    s.Makes [] (s.failAll e batch) := by
  induction batch generalizing s with
  | nil => exact .refl s
  | cons asked rest ih =>
    exact (makes_deliver (.refl s) asked.pending.handle (.error e)).trans (ih _)

theorem makes_giveUp (s : OpenSession) (batch : List Asked) : s.Makes [] (s.giveUp batch) := by
  induction batch generalizing s with
  | nil => exact .refl s
  | cons asked rest ih =>
    exact (makes_deliver (makes_warn s .lazyGaveUp) asked.pending.handle
      (.error (gaveUp asked.pending.read))).trans (ih _)

/-- A flush of such reads makes the entities that it delivers. -/
theorem Flushes.makes {n : Nat} {pending : List Pending} {rounds : List Round}
    {answer : Except Halt Unit} (h : Flushes n s pending rounds answer s')
    (hpending : ∀ p ∈ pending, p.read.IsDetached) :
    s.Makes (deliveredInstances (rounds.flatMap Round.delivered)) s' := by
  induction h with
  | @ends n s s₁ pending batch hprepare =>
    obtain ⟨hprepared, hknown, -⟩ := makes_prepareAll (s := s) hpending
    rw [hprepare] at hprepared
    rw [List.flatMap_singleton, Round.delivered, deliveredInstances_append]
    dsimp only [failedRound]
    rw [hknown, deliveredInstances_failed]
    exact hprepared.trans (makes_giveUp s₁ batch)
  | @halts n s s₁ s₂ pending batch h hprepare hround =>
    obtain ⟨hprepared, hknown, -⟩ := makes_prepareAll (s := s) hpending
    rw [hprepare] at hprepared
    rw [List.flatMap_singleton, Round.delivered, deliveredInstances_append]
    dsimp only [failedRound]
    rw [hknown, deliveredInstances_failed]
    exact (hprepared.trans (makes_sendRound hround)).trans (makes_failAll s₂ (errorOf h) batch)
  | @goesOn n s s₁ s₂ s₃ s' pending batch responses again rounds answer hprepare hround hreceive
      others ih =>
    obtain ⟨hprepared, hknown, hbatch⟩ := makes_prepareAll (s := s) hpending
    rw [hprepare] at hprepared hbatch
    obtain ⟨hreceived, hagain⟩ := makes_receiveAll (s := s₂) hbatch responses
    rw [hreceive] at hreceived hagain
    rw [List.flatMap_cons, Round.delivered, deliveredInstances_append, deliveredInstances_append]
    dsimp only [answeredRound]
    rw [hknown]
    exact ((hprepared.trans (makes_sendRound hround)).trans hreceived).trans (ih hagain)

end OpenSession

end DocumentSession
