import Mathlib.Data.List.Induction
import DocumentSession.Proofs.Attempts
import DocumentSession.Proofs.FreshSession

set_option autoImplicit false

/-! # The budget of a run

A run of operations on a session is seen as a list of events (`OpenSession.Passes`): the attempts to
send a request, one after the other, and in between changes of the limit, registrations of
callbacks, and changes from outside of the session.

The `count` of the budget is the number of requests that the server received from the session, in
total and for each operation. A request is executed if and only if it is not cancelled and the count
is below the limit at that event. While a limit is not changed there is at most one warning that the
budget is nearly exhausted, and there is one at each refusal that it is exhausted. All of this is
`OpenSession.requests_metered`. -/

namespace DocumentSession

/-! ## Events of a run -/

/-- An event that concerns the budget of a session, or what is shared around it. -/
inductive RunEvent where
  | attempt (a : Attempt)
  /-- `setMaxRequests`. -/
  | limit (max : Nat)
  /-- `listen`. -/
  | listens (callbacks : Callbacks)
  /-- A change from outside of the session. -/
  | outside (before after : OpenSession)

namespace RunEvent

/-- The requests of the session that the server receives. -/
def requests : RunEvent → List Request
  | .attempt a => a.received
  | _ => []

/-- Those of them that are for `operation`. -/
def requestsFor (operation : String) : RunEvent → List Request
  | .attempt a => if a.operation = operation then a.received else []
  | _ => []

/-- All requests that the server receives, those of others included. -/
def arrivals : RunEvent → List Request
  | .attempt a => a.received
  | .outside before after => before.sentUntil after
  | _ => []

/-- The budget warnings that the session gives. -/
def budgetWarnings : RunEvent → List Warning
  | .attempt a => a.budgetWarnings
  | _ => []

/-- All budget warnings that are given. -/
def allBudgetWarnings : RunEvent → List Warning
  | .attempt a => a.budgetWarnings
  | .outside before after => before.budgetWarningsUntil after
  | _ => []

/-- Others send nothing. -/
def SendsNothing : RunEvent → Prop
  | .outside before after => after.connection.sent = before.connection.sent
  | _ => True

/-- Others remove nothing from `sent`. -/
def AddsRequests : RunEvent → Prop
  | .outside before after => before.connection.sent <+: after.connection.sent
  | _ => True

/-- Others remove no budget warning, and callbacks give none. -/
def AddsBudgetWarnings : RunEvent → Prop
  | .outside before after => before.shared.budgetWarnings <+: after.shared.budgetWarnings
  | .listens callbacks => callbacks.Quiet
  | _ => True

/-- The limit after an event. -/
def limitFrom (max : Nat) : RunEvent → Nat
  | .limit max' => max'
  | _ => max

variable {m : RunEvent}

theorem SendsNothing.addsRequests (h : m.SendsNothing) : m.AddsRequests := by
  cases m with
  | outside before after =>
    have unsent : after.connection.sent = before.connection.sent := h
    exact ⟨[], (List.append_nil _).trans unsent.symm⟩
  | _ => trivial

theorem SendsNothing.arrivals (h : m.SendsNothing) : m.arrivals = m.requests := by
  cases m with
  | outside before after =>
    show List.drop before.connection.sent.length after.connection.sent = []
    rw [show after.connection.sent = before.connection.sent from h]
    exact List.drop_length
  | _ => rfl

end RunEvent

/-- The number of requests that the server received from the session. -/
def requestCount (events : List RunEvent) : Nat :=
  (events.flatMap RunEvent.requests).length

/-- The number of those for `operation`. -/
def requestCountFor (events : List RunEvent) (operation : String) : Nat :=
  (events.flatMap (RunEvent.requestsFor operation)).length

/-- The number of warnings that the budget is nearly exhausted. -/
def warningCount (events : List RunEvent) : Nat :=
  (events.flatMap RunEvent.budgetWarnings).count .budgetNearlyExhausted

/-- The limit after some events. -/
def limitAfter (max : Nat) (events : List RunEvent) : Nat :=
  events.foldl RunEvent.limitFrom max

/-- The limit is not changed. -/
def KeepsLimit (events : List RunEvent) : Prop :=
  ∀ max, RunEvent.limit max ∉ events

/-- The operation is neither `setMaxRequests` nor `listen` nor a change from outside of the
session. -/
def Operation.IsWork : Operation → Prop
  | .setMaxRequests _ | .listen _ | .outside .. => False
  | _ => True

namespace OpenSession

/-- The operations are performed one after the other, with the events that they cause. -/
inductive Passes (start : OpenSession) : List Operation → List RunEvent → OpenSession → Prop where
  | opened : Passes start [] [] start
  | works {s : OpenSession} {operations : List Operation} {events : List RunEvent}
    {operation : Operation} {attempts : List Attempt} (h : Passes start operations events s)
    (hwork : operation.IsWork) (htries : Tries s attempts (s.perform operation)) :
    Passes start (operations ++ [operation]) (events ++ attempts.map .attempt)
      (s.perform operation)
  | limits {s : OpenSession} {operations : List Operation} {events : List RunEvent}
    (h : Passes start operations events s) (max : Nat) :
    Passes start (operations ++ [.setMaxRequests max]) (events ++ [.limit max])
      (s.perform (.setMaxRequests max))
  | listens {s : OpenSession} {operations : List Operation} {events : List RunEvent}
    (h : Passes start operations events s) (callbacks : Callbacks) :
    Passes start (operations ++ [.listen callbacks]) (events ++ [.listens callbacks])
      (s.perform (.listen callbacks))
  | outside {s : OpenSession} {operations : List Operation} {events : List RunEvent}
    (h : Passes start operations events s) (shared : Shared) (connection : Connection)
    (deliveries : Deliveries) :
    Passes start (operations ++ [.outside shared connection deliveries])
      (events ++ [.outside s (s.perform (.outside shared connection deliveries))])
      (s.perform (.outside shared connection deliveries))

variable {start s s' : OpenSession} {events : List RunEvent}

/-- An operation that `IsWork` changes the budget and `sent` by attempts only. -/
theorem byAttempts_perform (s : OpenSession) {operation : Operation} (h : operation.IsWork) :
    s.ByAttempts (s.perform operation) := by
  -- what sends no request does nothing but work on the workspace
  have hlocal : ∀ (given : Option String) {w : Workspace}, s.workspace.LocalSteps given w →
      s.ByAttempts (s.withWorkspace w) :=
    fun _ _ hw => .idles (.withWorkspace (fun _ => hw.quiet))
  cases operation with
  | store entity => exact hlocal none (Workspace.localSteps_store s.workspace entity none .auto)
  | storeUnder entity id =>
    exact hlocal none (Workspace.localSteps_store s.workspace entity (some id) .auto)
  | storeOver entity id version =>
    exact hlocal version (Workspace.localSteps_store s.workspace entity (some id) _)
  | delete entity => exact hlocal none (Workspace.localSteps_delete s.workspace entity)
  | deleteId id version => exact hlocal none (Workspace.localSteps_deleteId s.workspace id version)
  | defer commands => exact hlocal none (Workspace.localSteps_defer s.workspace commands)
  | ignoreChanges entity =>
    exact hlocal none (Workspace.localSteps_ignoreChanges s.workspace entity)
  | evict entity => exact hlocal none (Workspace.localSteps_evict s.workspace entity)
  | metadataOf entity =>
    exact .idles (.withWorkspace (fun _ => s.workspace.quiet_metadataOf entity))
  | clear => exact .idles ⟨⟨_, _, rfl⟩, ⟨_, rfl⟩, fun _ => s.workspace.quiet_clear⟩
  | load type id includes => exact ByAttempts.readClosed.loadMany rfl
  | loadMany type ids includes => exact ByAttempts.readClosed.loadMany rfl
  | runQuery type q => exact .runQuery s type q
  | countQuery q => exact .countQuery s q
  | lazyLoad type ids includes => exact .idles (.queue s _)
  | lazyQuery type q => exact .lazyQuery s type q
  | lazyCount q => exact .lazyCount s q
  | flush => exact .flush s
  | resolve handle => exact .resolve s handle
  | save => exact .save s
  | setMaxRequests | listen | outside => exact h.elim

/-- Every run has its events. -/
theorem passes_performAll (start : OpenSession) (operations : List Operation) :
    ∃ events, Passes start operations events (start.performAll operations) := by
  induction operations using List.reverseRecOn with
  | nil => exact ⟨[], .opened⟩
  | append_singleton operations operation ih =>
    obtain ⟨events, hpasses⟩ := ih
    have hlast : start.performAll (operations ++ [operation])
        = (start.performAll operations).perform operation := List.foldl_concat ..
    rw [hlast]
    by_cases hwork : operation.IsWork
    · obtain ⟨attempts, htries⟩ := (start.performAll operations).byAttempts_perform hwork
      exact ⟨_, hpasses.works hwork htries⟩
    · cases operation with
      | setMaxRequests max => exact ⟨_, hpasses.limits max⟩
      | listen callbacks => exact ⟨_, hpasses.listens callbacks⟩
      | outside shared connection deliveries =>
        exact ⟨_, hpasses.outside shared connection deliveries⟩
      | _ => exact absurd trivial hwork

/-- What holds of `start`, and is kept between attempts and by each event, holds of every run. -/
@[elab_as_elim]
theorem Passes.induction {motive : List RunEvent → OpenSession → Prop}
    (hopened : motive [] start)
    (hidles : ∀ {events s s'}, motive events s → s.Idles s' → motive events s')
    (hattempt : ∀ {events a}, motive events a.before →
      motive (events ++ [.attempt a]) a.after)
    (hlimit : ∀ {events s} max, motive events s →
      motive (events ++ [.limit max]) (s.perform (.setMaxRequests max)))
    (hlistens : ∀ {events s} callbacks, motive events s →
      motive (events ++ [.listens callbacks]) (s.perform (.listen callbacks)))
    (houtside : ∀ {events s} shared connection deliveries, motive events s →
      motive (events ++ [.outside s (s.perform (.outside shared connection deliveries))])
        (s.perform (.outside shared connection deliveries)))
    {operations : List Operation} (h : Passes start operations events s) : motive events s := by
  have hafter : ∀ {events attempts s s'}, motive events s → Tries s attempts s' →
      motive (events ++ attempts.map .attempt) s' := by
    intro events attempts s s' hbefore htries
    induction htries generalizing events with
    | idles h =>
      rw [List.map_nil, List.append_nil]
      exact hidles hbefore h
    | attempt h _ ih =>
      have hrest := ih (hattempt (hidles hbefore h))
      rw [List.append_assoc] at hrest
      exact hrest
  induction h with
  | opened => exact hopened
  | works _ _ htries ih => exact hafter ih htries
  | limits _ max ih => exact hlimit max ih
  | listens _ callbacks ih => exact hlistens callbacks ih
  | outside _ shared connection deliveries ih => exact houtside shared connection deliveries ih

end OpenSession

/-! ## Counts -/

section

variable {events : List RunEvent} {m : RunEvent}

theorem requestCount_concat (events : List RunEvent) (m : RunEvent) :
    requestCount (events ++ [m]) = requestCount events + m.requests.length := by
  unfold requestCount
  rw [List.flatMap_append, List.flatMap_singleton, List.length_append]

theorem requestCountFor_concat (events : List RunEvent) (m : RunEvent) (operation : String) :
    requestCountFor (events ++ [m]) operation
      = requestCountFor events operation + (m.requestsFor operation).length := by
  unfold requestCountFor
  rw [List.flatMap_append, List.flatMap_singleton, List.length_append]

theorem warningCount_concat (events : List RunEvent) (m : RunEvent) :
    warningCount (events ++ [m])
      = warningCount events + m.budgetWarnings.count .budgetNearlyExhausted := by
  unfold warningCount
  rw [List.flatMap_append, List.flatMap_singleton, List.count_append]

theorem limitAfter_concat (max : Nat) (events : List RunEvent) (m : RunEvent) :
    limitAfter max (events ++ [m]) = m.limitFrom (limitAfter max events) :=
  List.foldl_concat ..

/-- The counts and the limit of `b` are those after `events`, if the limit was `max` before. -/
structure Budget.Counts (b : Budget) (max : Nat) (events : List RunEvent) : Prop where
  sound : b.Sound
  total : b.count = requestCount events
  perOperation : ∀ operation, b.countFor operation = requestCountFor events operation
  limit : b.max = limitAfter max events

namespace Budget.Counts

variable {b : Budget} {max : Nat}

/-- An event without requests and without a new limit changes no count. -/
theorem passing (h : b.Counts max events) (hrequests : m.requests = [])
    (hrequestsFor : ∀ operation, m.requestsFor operation = [])
    (hlimit : ∀ max, m.limitFrom max = max) : b.Counts max (events ++ [m]) := by
  refine ⟨h.sound, ?_, ?_, ?_⟩
  · rw [requestCount_concat, hrequests]
    exact h.total
  · intro operation
    rw [requestCountFor_concat, hrequestsFor]
    exact h.perOperation operation
  · rw [limitAfter_concat, hlimit]
    exact h.limit

theorem setMax (h : b.Counts max events) (max' : Nat) :
    (b.setMax max').Counts max (events ++ [.limit max']) := by
  refine ⟨h.sound.setMax max', ?_, ?_, ?_⟩
  · rw [requestCount_concat]
    exact h.total
  · intro operation
    rw [requestCountFor_concat]
    exact h.perOperation operation
  · rw [limitAfter_concat]
    rfl

theorem attempt {a : Attempt} (h : a.before.session.budget.Counts max events) :
    a.after.session.budget.Counts max (events ++ [.attempt a]) := by
  rcases a.budget_after with ⟨hnothing, hsame⟩ | ⟨hone, hcounted⟩
  · rw [hsame]
    refine h.passing hnothing ?_ (fun _ => rfl)
    intro operation
    show (if a.operation = operation then a.received else []) = []
    rw [hnothing, ite_self]
  · rw [hcounted]
    refine ⟨h.sound.counted a.operation, ?_, ?_, ?_⟩
    · rw [requestCount_concat]
      show _ = _ + a.received.length
      rw [hone, ← h.total]
      rfl
    · intro operation
      rw [requestCountFor_concat, Budget.countFor_counted, h.perOperation]
      show _ = _ + (if a.operation = operation then a.received else []).length
      split
      · rw [hone]
      · rfl
    · rw [limitAfter_concat]
      exact h.limit

end Budget.Counts

/-- At every attempt the budget counts the events before it. -/
def FindCounts (max : Nat) (events : List RunEvent) : Prop :=
  ∀ before a, before ++ [RunEvent.attempt a] <+: events →
    a.before.session.budget.Counts max before

namespace FindCounts

variable {max : Nat}

theorem nil (max : Nat) : FindCounts max [] := by
  intro before a hprefix
  exact absurd (List.prefix_nil.mp hprefix)
    (List.append_ne_nil_of_right_ne_nil _ (List.cons_ne_nil _ _))

theorem concat (h : FindCounts max events)
    (hlast : ∀ a, m = .attempt a → a.before.session.budget.Counts max events) :
    FindCounts max (events ++ [m]) := by
  intro before a hprefix
  rcases List.prefix_concat_iff.mp hprefix with heq | hbefore
  · obtain ⟨rfl, hm⟩ := List.append_inj' heq rfl
    exact hlast a (List.singleton_inj.mp hm).symm
  · exact h before a hbefore

end FindCounts

/-! ## Warnings -/

/-- `b` has warned at most once since the limit was last changed, and `b.warned` says so. -/
structure Budget.WarnsOnce (b : Budget) (events : List RunEvent) : Prop where
  /-- Since the limit was last changed. -/
  recent : ∀ recent, recent <:+ events → KeepsLimit recent →
    warningCount recent ≤ b.warned.toNat
  ever : ∀ between, between <:+: events → KeepsLimit between → warningCount between ≤ 1

namespace Budget.WarnsOnce

variable {b b' : Budget}

theorem nil (b : Budget) : b.WarnsOnce [] := by
  refine ⟨?_, ?_⟩
  · intro recent hrecent _
    rw [List.suffix_nil.mp hrecent]
    exact Nat.zero_le _
  · intro between hbetween _
    rw [List.infix_nil.mp hbetween]
    exact Nat.zero_le _

/-- An event keeps this if it warns only where `warned` was not set. -/
theorem concat (h : b.WarnsOnce events)
    (hwarns : (∀ max, m ≠ .limit max) →
      m.budgetWarnings.count .budgetNearlyExhausted + b.warned.toNat ≤ b'.warned.toNat) :
    b'.WarnsOnce (events ++ [m]) := by
  have hrecent : ∀ recent, recent <:+ events ++ [m] → KeepsLimit recent →
      warningCount recent ≤ b'.warned.toNat := by
    intro recent hsuffix hkeeps
    rcases List.suffix_concat_iff.mp hsuffix with rfl | ⟨earlier, rfl, hearlier⟩
    · exact Nat.zero_le _
    · have hbefore := h.recent earlier hearlier
        (fun max hmem => hkeeps max (List.mem_append_left _ hmem))
      have hnow := hwarns (fun max hlimit =>
        hkeeps max (List.mem_append_right _ (List.mem_singleton.mpr hlimit.symm)))
      rw [warningCount_concat]
      omega
  refine ⟨hrecent, ?_⟩
  intro between hbetween hkeeps
  rcases List.infix_concat_iff.mp hbetween with hsuffix | hearlier
  · exact Nat.le_trans (hrecent between hsuffix hkeeps) (Bool.toNat_le _)
  · exact h.ever between hearlier hkeeps

end Budget.WarnsOnce

/-! ## Logs -/

/-- `log` is `first`, followed by the `entries` of the events, unless one of the events is not one
that `adds`. -/
def Logs {α : Type} (adds : RunEvent → Prop) (entries : RunEvent → List α) (first : List α)
    (events : List RunEvent) (log : List α) : Prop :=
  (∀ event ∈ events, adds event) → log = first ++ events.flatMap entries

theorem Logs.concat {α : Type} {adds : RunEvent → Prop} {entries : RunEvent → List α}
    {first log log' : List α} (h : Logs adds entries first events log)
    (hnow : adds m → log' = log ++ entries m) :
    Logs adds entries first (events ++ [m]) log' := by
  intro hadds
  obtain ⟨hbefore, hlast⟩ := List.forall_mem_append.mp hadds
  rw [hnow (hlast m (List.mem_singleton_self m)), h hbefore, List.flatMap_append,
    List.flatMap_singleton, List.append_assoc]

end

namespace OpenSession

variable {start s s' : OpenSession} {operations : List Operation} {events : List RunEvent}

namespace Passes

/-- The budget counts the events of a run, and did so at every attempt. -/
theorem counts (h : Passes start operations events s)
    (hcount : start.session.budget.count = 0)
    (hempty : start.session.budget.byOperation = []) :
    s.session.budget.Counts start.session.budget.max events
      ∧ FindCounts start.session.budget.max events := by
  refine h.induction ?_ ?_ ?_ ?_ ?_ ?_
  · refine ⟨⟨.of_empty hcount hempty, hcount, ?_, rfl⟩, .nil _⟩
    intro operation
    unfold Budget.countFor
    rw [hempty]
    rfl
  · rintro events s s' ⟨hcounts, hfound⟩ hidles
    rw [hidles.budget]
    exact ⟨hcounts, hfound⟩
  · rintro events a ⟨hcounts, hfound⟩
    refine ⟨hcounts.attempt, hfound.concat ?_⟩
    rintro a' heq
    obtain rfl := RunEvent.attempt.inj heq
    exact hcounts
  · rintro events s max ⟨hcounts, hfound⟩
    exact ⟨hcounts.setMax max, hfound.concat (fun _ heq => nomatch heq)⟩
  · rintro events s callbacks ⟨hcounts, hfound⟩
    exact ⟨hcounts.passing rfl (fun _ => rfl) (fun _ => rfl),
      hfound.concat (fun _ heq => nomatch heq)⟩
  · rintro events s shared connection deliveries ⟨hcounts, hfound⟩
    exact ⟨hcounts.passing rfl (fun _ => rfl) (fun _ => rfl),
      hfound.concat (fun _ heq => nomatch heq)⟩

theorem warnsOnce (h : Passes start operations events s) :
    s.session.budget.WarnsOnce events := by
  refine h.induction (.nil _) ?_ ?_ ?_ ?_ ?_
  · intro events s s' hwarns hidles
    rw [hidles.budget]
    exact hwarns
  · exact fun hwarns => hwarns.concat (fun _ => Nat.le_of_eq (Attempt.count_budgetWarnings _))
  · exact fun max hwarns => hwarns.concat (fun hother => absurd rfl (hother max))
  · exact fun _ hwarns => hwarns.concat (fun _ => Nat.le_of_eq (Nat.zero_add _))
  · exact fun _ _ _ hwarns => hwarns.concat (fun _ => Nat.le_of_eq (Nat.zero_add _))

/-- `sent` is a log of the requests that the server receives. -/
theorem sent (h : Passes start operations events s) :
    Logs RunEvent.AddsRequests RunEvent.arrivals start.connection.sent events
      s.connection.sent := by
  refine h.induction ?_ ?_ ?_ ?_ ?_ ?_
  · exact fun _ => (List.append_nil _).symm
  · intro events s s' hsent hidles
    rw [hidles.sent]
    exact hsent
  · exact fun {_ a} hsent => hsent.concat (fun _ => a.sent_after)
  · exact fun _ hsent => hsent.concat (fun _ => (List.append_nil _).symm)
  · exact fun _ hsent => hsent.concat (fun _ => (List.append_nil _).symm)
  · exact fun _ _ _ hsent => hsent.concat (fun hprefix =>
      (List.prefix_iff_eq_append.mp hprefix).symm)

/-- `budgetWarnings` is a log of the warnings that are given, if the callbacks give none. -/
theorem budgetWarnings (h : Passes start operations events s)
    (hquiet : start.session.callbacks.Quiet) :
    Logs RunEvent.AddsBudgetWarnings RunEvent.allBudgetWarnings start.shared.budgetWarnings events
      s.shared.budgetWarnings := by
  -- what is called between two attempts was registered before
  suffices hboth : ((∀ event ∈ events, event.AddsBudgetWarnings) → s.session.callbacks.Quiet)
      ∧ Logs RunEvent.AddsBudgetWarnings RunEvent.allBudgetWarnings start.shared.budgetWarnings
        events s.shared.budgetWarnings from
    hboth.2
  refine h.induction ?_ ?_ ?_ ?_ ?_ ?_
  · exact ⟨fun _ => hquiet, fun _ => (List.append_nil _).symm⟩
  · rintro events s s' ⟨hcallbacks, hwarnings⟩ hidles
    refine ⟨?_, ?_⟩
    · rw [hidles.callbacks]
      exact hcallbacks
    · intro hadds
      rw [hidles.quiet (hcallbacks hadds)]
      exact hwarnings hadds
  · rintro events a ⟨hcallbacks, hwarnings⟩
    refine ⟨?_, hwarnings.concat (fun _ => a.budgetWarnings_after)⟩
    rw [a.callbacks_after]
    exact fun hadds => hcallbacks (List.forall_mem_append.mp hadds).1
  · rintro events s max ⟨hcallbacks, hwarnings⟩
    exact ⟨fun hadds => hcallbacks (List.forall_mem_append.mp hadds).1,
      hwarnings.concat (fun _ => (List.append_nil _).symm)⟩
  · rintro events s callbacks ⟨-, hwarnings⟩
    exact ⟨fun hadds => hadds _ (List.mem_append_right _ (List.mem_singleton_self _)),
      hwarnings.concat (fun _ => (List.append_nil _).symm)⟩
  · rintro events s shared connection deliveries ⟨hcallbacks, hwarnings⟩
    exact ⟨fun hadds => hcallbacks (List.forall_mem_append.mp hadds).1,
      hwarnings.concat (fun hprefix => (List.prefix_iff_eq_append.mp hprefix).symm)⟩

end Passes

/-- The budget counts a run, and the run keeps to the budget. -/
structure Metered (start : OpenSession) (events : List RunEvent) (s : OpenSession) : Prop where
  /-- The count is the number of requests that the server received from the session. -/
  total : s.session.budget.count = requestCount events
  /-- The count of each operation is that of its requests. -/
  perOperation : ∀ operation, s.session.budget.countFor operation
    = requestCountFor events operation
  sum : s.session.budget.byOperation.values.sum = requestCount events
  busiest : ∀ operation, s.session.budget.stats.busiest = some operation
    ↔ Busiest (requestCountFor events) operation
  /-- Every attempt meets the count and the limit of the events before it. -/
  gate : ∀ before a, before ++ [.attempt a] <+: events →
    a.Gated (requestCount before) (limitAfter start.session.budget.max before)
  /-- While the limit is not changed, there is at most one warning that the budget is nearly
  exhausted. -/
  warnsOnce : ∀ between, between <:+: events → KeepsLimit between → warningCount between ≤ 1
  /-- If nobody else sends, the server received as many requests as are counted. -/
  alone : (∀ event ∈ events, event.SendsNothing) →
    s.connection.sent.length = start.connection.sent.length + s.session.budget.count
  /-- The server received the requests of the session and of others, in the order of the events. -/
  sent : Logs RunEvent.AddsRequests RunEvent.arrivals start.connection.sent events
    s.connection.sent
  /-- The budget warnings were given by attempts and by others, in the order of the events. -/
  budgetWarnings : Logs RunEvent.AddsBudgetWarnings RunEvent.allBudgetWarnings
    start.shared.budgetWarnings events s.shared.budgetWarnings

theorem Passes.metered (h : Passes start operations events s)
    (hcount : start.session.budget.count = 0)
    (hempty : start.session.budget.byOperation = [])
    (hquiet : start.session.callbacks.Quiet) : Metered start events s := by
  obtain ⟨hcounts, hfound⟩ := h.counts hcount hempty
  refine ⟨hcounts.total, hcounts.perOperation, hcounts.sound.sum.trans hcounts.total, ?_, ?_,
    h.warnsOnce.ever, ?_, h.sent, h.budgetWarnings hquiet⟩
  · intro operation
    rw [hcounts.sound.busiest_eq_some_iff, funext hcounts.perOperation]
  · intro before a hprefix
    have hbefore := hfound before a hprefix
    have hgated := a.gated
    rw [hbefore.total, hbefore.limit] at hgated
    exact hgated
  · intro halone
    have harrivals : events.flatMap RunEvent.arrivals = events.flatMap RunEvent.requests :=
      List.flatMap_congr (fun event hmem => (halone event hmem).arrivals)
    rw [h.sent (fun event hmem => (halone event hmem).addsRequests), List.length_append,
      hcounts.total, harrivals]
    rfl

/-- Every run of a session from its opening on is metered. -/
theorem requests_metered (id : Nat) (conventions : Conventions) (options : SessionOptions)
    (shared : Shared) (connection : Connection) (deliveries : Deliveries)
    (operations : List Operation) :
    let opened : OpenSession :=
      { session := Session.new id conventions options, shared, connection, deliveries }
    ∃ events, Passes opened operations events (opened.performAll operations)
      ∧ Metered opened events (opened.performAll operations) := by
  intro opened
  obtain ⟨events, hpasses⟩ := passes_performAll opened operations
  exact ⟨events, hpasses, hpasses.metered rfl rfl .none⟩

/-- A session with a limit of two requests, beside a server without documents. -/
def chatty : OpenSession where
  session := Session.new 1 { maxRequests := 2 } {}
  shared := {}
  connection := { server := fun _ => .ok { status := 404 } }
  deliveries := {}

/-- It loads one document after the other, and raises the limit before it loads the third again. -/
def chattyRun : List Operation :=
  [.load Shop.anything "AnyDocs/1" [], .lazyLoad Shop.anything ["AnyDocs/2"] [], .flush,
    .load Shop.anything "AnyDocs/3" [], .setMaxRequests 3, .load Shop.anything "AnyDocs/3" []]

/-- The third load is refused at first and sent later, and there is a warning for each of the two
limits. -/
theorem requests_metered_chatty :
    (chatty.performAll chattyRun).session.budget.stats
        = { total := 3, operations := 2, busiest := some "load" }
      ∧ (chatty.performAll chattyRun).shared.budgetWarnings
        = [.budgetNearlyExhausted, .budgetExhausted, .budgetNearlyExhausted]
      ∧ ∃ events, Passes chatty chattyRun events (chatty.performAll chattyRun)
        ∧ requestCount events = 3
        ∧ Busiest (requestCountFor events) "load" := by
  have hstats : (chatty.performAll chattyRun).session.budget.stats
      = { total := 3, operations := 2, busiest := some "load" } := by
    decide +kernel
  obtain ⟨events, hpasses, hmetered⟩ :=
    requests_metered 1 { maxRequests := 2 } {} {} chatty.connection {} chattyRun
  refine ⟨hstats, by decide +kernel, events, hpasses, ?_, ?_⟩
  · rw [← hmetered.total]
    exact congrArg RequestStats.total hstats
  · rw [← hmetered.busiest]
    exact congrArg RequestStats.busiest hstats

end OpenSession

end DocumentSession
