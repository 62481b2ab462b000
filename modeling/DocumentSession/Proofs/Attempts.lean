import DocumentSession.Proofs.BudgetWarnings
import DocumentSession.Proofs.Budget
import DocumentSession.Proofs.LazyAnswers
import DocumentSession.Proofs.SaveEnds

set_option autoImplicit false

/-! # Attempts to send a request

A session sends requests by `send` alone. An `Attempt` to do so is cancelled by the caller, refused
by the budget, or counted and executed by the server. Between two attempts neither the budget nor
`sent` changes, and no budget warning is given (`OpenSession.Idles`). So loads, queries, saves and
flushes change the budget, `sent` and the budget warnings as their attempts do, one after the other
(`OpenSession.ByAttempts`). -/

namespace DocumentSession

namespace OpenSession

variable {s : OpenSession}

/-- The requests that the server received between two states. -/
def sentUntil (s s' : OpenSession) : List Request :=
  s'.connection.sent.drop s.connection.sent.length

/-- The budget warnings that were given between two states. -/
def budgetWarningsUntil (s s' : OpenSession) : List Warning :=
  s'.shared.budgetWarnings.drop s.shared.budgetWarnings.length

/-- The session once a request for `operation` is counted. -/
def counted (s : OpenSession) (operation : String) : OpenSession :=
  { s with
    session := { s.session with budget := s.session.budget.counted operation }
    shared := if s.session.budget.isDue then s.shared.warn .budgetNearlyExhausted else s.shared }

theorem count_of_full (h : s.session.budget.max ≤ s.session.budget.count) (operation : String) :
    s.count operation
      = (.error (.budgetExceeded s.session.budget.max), s.warn .budgetExhausted) := by
  unfold count
  rw [Budget.record_of_full h]
  rfl

theorem count_of_room (h : s.session.budget.count < s.session.budget.max) (operation : String) :
    s.count operation = (.ok (), s.counted operation) := by
  unfold count counted
  rw [Budget.record_of_room h]
  cases s.session.budget.isDue with
  | true => rfl
  | false => rfl

end OpenSession

/-- An attempt to send a request for an operation. -/
structure Attempt where
  before : OpenSession
  operation : String
  request : Request

namespace Attempt

/-- The session after the attempt. -/
def after (a : Attempt) : OpenSession :=
  (a.before.send a.operation a.request).2

/-- The answer of the attempt. -/
def answer (a : Attempt) : Except Halt Response :=
  (a.before.send a.operation a.request).1

/-- The requests that the server receives by the attempt. -/
def received (a : Attempt) : List Request :=
  a.before.sentUntil a.after

/-- The budget warnings that the attempt gives. -/
def budgetWarnings (a : Attempt) : List Warning :=
  a.before.budgetWarningsUntil a.after

/-- The caller has cancelled the operation. -/
structure Cancelled (a : Attempt) (reason : String) : Prop where
  unwanted : a.before.connection.cancelled = some reason
  answer : a.answer = .error (.cancelled reason)
  after : a.after = a.before

/-- The budget is exhausted. -/
structure Refused (a : Attempt) : Prop where
  wanted : a.before.connection.cancelled = none
  full : a.before.session.budget.max ≤ a.before.session.budget.count
  answer : a.answer = .error (.failed (.budgetExceeded a.before.session.budget.max))
  after : a.after = a.before.warn .budgetExhausted

/-- The request is counted and executed. -/
structure Executed (a : Attempt) : Prop where
  wanted : a.before.connection.cancelled = none
  room : a.before.session.budget.count < a.before.session.budget.max
  answer : a.answer = a.before.connection.server
    (a.before.connection.sent ++ [a.before.session.options.scope a.request])
  after : a.after = { a.before.counted a.operation with
    connection :=
      { a.before.connection with
        sent := a.before.connection.sent ++ [a.before.session.options.scope a.request] } }

/-- An attempt ends in one of these ways. -/
theorem ends (a : Attempt) : (∃ reason, a.Cancelled reason) ∨ a.Refused ∨ a.Executed := by
  cases hwanted : a.before.connection.cancelled with
  | some reason =>
    have hsend : a.before.send a.operation a.request = (.error (.cancelled reason), a.before) := by
      unfold OpenSession.send
      rw [hwanted]
    exact Or.inl ⟨reason, hwanted, congrArg Prod.fst hsend, congrArg Prod.snd hsend⟩
  | none =>
    refine Or.inr ?_
    rcases Nat.lt_or_ge a.before.session.budget.count a.before.session.budget.max with
      hroom | hfull
    · have hsend : a.before.send a.operation a.request
          = (((a.before.counted a.operation).connection.execute
              ((a.before.counted a.operation).session.options.scope a.request)).1,
            { a.before.counted a.operation with
              connection := ((a.before.counted a.operation).connection.execute
                ((a.before.counted a.operation).session.options.scope a.request)).2 }) := by
        unfold OpenSession.send
        rw [hwanted, OpenSession.count_of_room hroom]
      exact Or.inr ⟨hwanted, hroom, congrArg Prod.fst hsend, congrArg Prod.snd hsend⟩
    · have hsend : a.before.send a.operation a.request
          = (.error (.failed (.budgetExceeded a.before.session.budget.max)),
            a.before.warn .budgetExhausted) := by
        unfold OpenSession.send
        rw [hwanted, OpenSession.count_of_full hfull]
      exact Or.inl ⟨hwanted, hfull, congrArg Prod.fst hsend, congrArg Prod.snd hsend⟩

variable {a : Attempt}

/-! ## The effect of an attempt -/

theorem Cancelled.received {reason : String} (h : a.Cancelled reason) : a.received = [] := by
  unfold Attempt.received OpenSession.sentUntil
  rw [h.after]
  exact List.drop_length

theorem Cancelled.budgetWarnings {reason : String} (h : a.Cancelled reason) :
    a.budgetWarnings = [] := by
  unfold Attempt.budgetWarnings OpenSession.budgetWarningsUntil
  rw [h.after]
  exact List.drop_length

theorem Refused.received (h : a.Refused) : a.received = [] := by
  unfold Attempt.received OpenSession.sentUntil
  rw [h.after]
  exact List.drop_length

theorem Refused.budgetWarnings (h : a.Refused) : a.budgetWarnings = [.budgetExhausted] := by
  unfold Attempt.budgetWarnings OpenSession.budgetWarningsUntil
  rw [h.after]
  show List.drop _ (a.before.shared.warn .budgetExhausted).budgetWarnings = _
  rw [Shared.budgetWarnings_warn]
  exact List.drop_left

theorem Executed.received (h : a.Executed) :
    a.received = [a.before.session.options.scope a.request] := by
  unfold Attempt.received OpenSession.sentUntil
  rw [h.after]
  exact List.drop_left

theorem Executed.budgetWarnings (h : a.Executed) :
    a.budgetWarnings = if a.before.session.budget.isDue then [.budgetNearlyExhausted] else [] := by
  unfold Attempt.budgetWarnings OpenSession.budgetWarningsUntil
  rw [h.after]
  show List.drop _ (Shared.budgetWarnings (if a.before.session.budget.isDue then
    a.before.shared.warn .budgetNearlyExhausted else a.before.shared)) = _
  split
  · rw [Shared.budgetWarnings_warn]
    exact List.drop_left
  · exact List.drop_length

/-- After the attempt `sent` ends with the request, if the server received it. -/
theorem sent_after (a : Attempt) :
    a.after.connection.sent = a.before.connection.sent ++ a.received := by
  rcases a.ends with ⟨reason, h⟩ | h | h
  · rw [h.received, h.after, List.append_nil]
  · rw [h.received, h.after, List.append_nil]
    rfl
  · rw [h.received, h.after]

theorem budgetWarnings_after (a : Attempt) :
    a.after.shared.budgetWarnings = a.before.shared.budgetWarnings ++ a.budgetWarnings := by
  rcases a.ends with ⟨reason, h⟩ | h | h
  · rw [h.budgetWarnings, h.after, List.append_nil]
  · rw [h.budgetWarnings, h.after]
    exact Shared.budgetWarnings_warn ..
  · rw [h.budgetWarnings, h.after]
    show Shared.budgetWarnings (if a.before.session.budget.isDue then
      a.before.shared.warn .budgetNearlyExhausted else a.before.shared) = _
    split
    · exact Shared.budgetWarnings_warn ..
    · exact (List.append_nil _).symm

theorem callbacks_after (a : Attempt) :
    a.after.session.callbacks = a.before.session.callbacks := by
  rcases a.ends with ⟨reason, h⟩ | h | h
  · rw [h.after]
  · rw [h.after]
    rfl
  · rw [h.after]
    rfl

/-- A request is counted if and only if the server receives it. -/
theorem budget_after (a : Attempt) :
    (a.received = [] ∧ a.after.session.budget = a.before.session.budget)
      ∨ (a.received.length = 1
        ∧ a.after.session.budget = a.before.session.budget.counted a.operation) := by
  rcases a.ends with ⟨reason, h⟩ | h | h
  · exact Or.inl ⟨h.received, by rw [h.after]⟩
  · exact Or.inl ⟨h.received, by rw [h.after]; rfl⟩
  · exact Or.inr ⟨by rw [h.received]; rfl, by rw [h.after]; rfl⟩

/-- The budget warns that it is nearly exhausted at most once, and `warned` says whether it has. -/
theorem count_budgetWarnings (a : Attempt) :
    a.budgetWarnings.count .budgetNearlyExhausted + a.before.session.budget.warned.toNat
      = a.after.session.budget.warned.toNat := by
  rcases a.ends with ⟨reason, h⟩ | h | h
  · rw [h.budgetWarnings, h.after]
    exact Nat.zero_add _
  · rw [h.budgetWarnings, h.after]
    exact Nat.zero_add _
  · rw [h.budgetWarnings, h.after]
    show _ = (a.before.session.budget.warned || Budget.isNearlyUsed _ _).toNat
    unfold Budget.isDue
    cases a.before.session.budget.warned with
    | true => rfl
    | false =>
      cases Budget.isNearlyUsed (a.before.session.budget.count + 1)
          a.before.session.budget.max with
      | true => rfl
      | false => rfl

/-! ## Admission -/

/-- An attempt with `count` requests before it and the limit `max`. -/
structure Gated (a : Attempt) (count max : Nat) : Prop where
  counted : a.before.session.budget.count = count
  limited : a.before.session.budget.max = max
  /-- The server receives the request if the operation is not cancelled and the count is below the
  limit, and otherwise nothing. -/
  received : a.received
    = if a.before.connection.cancelled = none ∧ count < max
      then [a.before.session.options.scope a.request] else []
  cancelled : ∀ reason, a.before.connection.cancelled = some reason →
    a.answer = .error (.cancelled reason)
  refused : a.before.connection.cancelled = none → max ≤ count →
    a.answer = .error (.failed (.budgetExceeded max))
  /-- A request that the server does not receive changes neither the session nor the connection. -/
  unchanged : a.received = [] →
    a.after.session = a.before.session ∧ a.after.connection = a.before.connection

theorem gated (a : Attempt) :
    a.Gated a.before.session.budget.count a.before.session.budget.max := by
  rcases a.ends with ⟨reason, h⟩ | h | h
  · have hcancelled : a.before.connection.cancelled ≠ none := by
      rw [h.unwanted]
      exact Option.some_ne_none reason
    refine ⟨rfl, rfl, ?_, ?_, ?_, ?_⟩
    · rw [h.received, if_neg (fun hgate => hcancelled hgate.1)]
    · intro reason' hreason
      obtain rfl := Option.some.inj (h.unwanted.symm.trans hreason)
      exact h.answer
    · exact fun hnone _ => absurd hnone hcancelled
    · intro _
      rw [h.after]
      exact ⟨rfl, rfl⟩
  · refine ⟨rfl, rfl, ?_, ?_, fun _ _ => h.answer, ?_⟩
    · rw [h.received, if_neg (fun hgate => Nat.not_lt.mpr h.full hgate.2)]
    · intro reason hreason
      rw [h.wanted] at hreason
      cases hreason
    · intro _
      rw [h.after]
      exact ⟨rfl, rfl⟩
  · refine ⟨rfl, rfl, ?_, ?_, ?_, ?_⟩
    · rw [h.received, if_pos ⟨h.wanted, h.room⟩]
    · intro reason hreason
      rw [h.wanted] at hreason
      cases hreason
    · exact fun _ hfull => absurd h.room (Nat.not_lt.mpr hfull)
    · intro hnothing
      rw [h.received] at hnothing
      cases hnothing

end Attempt

namespace OpenSession

variable {s s' s'' : OpenSession}

/-! ## Between two attempts -/

/-- The budget and `sent` are the same, and only callbacks gave budget warnings. -/
structure Idles (s s' : OpenSession) : Prop where
  session : ∃ work pending, s'.session = { s.session with work, pending }
  connection : ∃ cache, s'.connection = { s.connection with cache }
  quiet : s.session.callbacks.Quiet → s.shared.Quiet s'.shared

namespace Idles

theorem refl (s : OpenSession) : s.Idles s :=
  ⟨⟨_, _, rfl⟩, ⟨_, rfl⟩, fun _ => .refl _⟩

theorem callbacks (h : s.Idles s') : s'.session.callbacks = s.session.callbacks := by
  obtain ⟨work, pending, heq⟩ := h.session
  rw [heq]

theorem budget (h : s.Idles s') : s'.session.budget = s.session.budget := by
  obtain ⟨work, pending, heq⟩ := h.session
  rw [heq]

theorem sent (h : s.Idles s') : s'.connection.sent = s.connection.sent := by
  obtain ⟨cache, heq⟩ := h.connection
  rw [heq]

theorem trans (h : s.Idles s') (h' : s'.Idles s'') : s.Idles s'' := by
  refine ⟨?_, ?_, ?_⟩
  · obtain ⟨work, pending, heq⟩ := h.session
    obtain ⟨work', pending', heq'⟩ := h'.session
    exact ⟨work', pending', by rw [heq', heq]⟩
  · obtain ⟨cache, heq⟩ := h.connection
    obtain ⟨cache', heq'⟩ := h'.connection
    exact ⟨cache', by rw [heq', heq]⟩
  · intro hquiet
    exact (h.quiet hquiet).trans (h'.quiet (h.callbacks ▸ hquiet))

theorem withWorkspace {w : Workspace}
    (hw : s.session.callbacks.Quiet → s.shared.Quiet w.shared) : s.Idles (s.withWorkspace w) :=
  ⟨⟨_, _, rfl⟩, ⟨_, rfl⟩, hw⟩

theorem locally {α : Type} {f : Workspace → α × Workspace} {answer : α}
    (hf : s.session.callbacks.Quiet → ∀ {a w}, f s.workspace = (a, w) → s.shared.Quiet w.shared)
    (h : s.locally f = (answer, s')) : s.Idles s' := by
  unfold OpenSession.locally at h
  obtain ⟨-, rfl⟩ := Prod.mk.inj h
  exact .withWorkspace (fun hquiet => hf hquiet rfl)

theorem warn (s : OpenSession) {warning : Warning} (h : warning.isBudgetWarning = false) :
    s.Idles (s.warn warning) :=
  ⟨⟨_, _, rfl⟩, ⟨_, rfl⟩, fun _ => s.shared.quiet_warn h⟩

theorem deliver (s : OpenSession) (handle : Handle) (value : Except Error LazyValue) :
    s.Idles (s.deliver handle value) :=
  ⟨⟨_, _, rfl⟩, ⟨_, rfl⟩, fun _ => .refl _⟩

theorem queue (s : OpenSession) (read : LazyRead) : s.Idles (s.queue read).2 :=
  ⟨⟨_, _, rfl⟩, ⟨_, rfl⟩, fun _ => .refl _⟩

theorem freeze {q : Query} {answer : Except Error (Query × Query.Frozen)}
    (h : s.freeze q = (answer, s')) : s.Idles s' := by
  have hcallbacks : s.session.callbacks.Quiet → s.shared.Quiet
      (Callbacks.callEachOnQuery s.session.callbacks.beforeQuery q s.shared).2.2 :=
    fun hquiet => Callbacks.relates_callEachOnQuery Shared.Quiet.refl Shared.Quiet.trans
      hquiet.beforeQuery q s.shared
  unfold OpenSession.freeze at h
  rcases hcalled : Callbacks.callEachOnQuery s.session.callbacks.beforeQuery q s.shared with
    ⟨_ | e, q', shared⟩
  all_goals
    rw [hcalled] at h hcallbacks
    obtain ⟨-, rfl⟩ := Prod.mk.inj h
    exact ⟨⟨_, _, rfl⟩, ⟨_, rfl⟩, hcallbacks⟩

/-! ### The cache and lazy reads -/

theorem cached {url : String} {found : Option Cached} (h : s.cached url = (found, s')) :
    s.Idles s' := by
  unfold OpenSession.cached at h
  split at h
  · obtain ⟨-, rfl⟩ := Prod.mk.inj h
    exact .refl s
  · obtain ⟨-, rfl⟩ := Prod.mk.inj h
    refine ⟨⟨_, _, rfl⟩, ?_, fun _ => .refl _⟩
    split
    · exact ⟨_, rfl⟩
    · exact ⟨_, rfl⟩

theorem remember (s : OpenSession) (url : String) (cached : Cached) :
    s.Idles (s.remember url cached) := by
  unfold OpenSession.remember
  split
  · exact .refl s
  · exact ⟨⟨_, _, rfl⟩, ⟨_, rfl⟩, fun _ => .refl _⟩

theorem throughCache {url : String} {r r' : SubResponse} (h : s.throughCache url r = (r', s')) :
    s.Idles s' := by
  rcases throughCache_cases h with ⟨_, hcached, -⟩ | ⟨-, rfl | ⟨_, -, rfl⟩⟩
  · exact .cached hcached
  · exact .refl _
  · exact .remember ..

theorem prepare (s : OpenSession) (p : Pending) : s.Idles (s.prepare p).2 := by
  have hlocal : ∀ {answer s₁}, s.locally p.read.prepare = (answer, s₁) → s.Idles s₁ :=
    locally (fun _ => Workspace.readClosed_quiet.prepare)
  unfold OpenSession.prepare
  split
  · next hprepare => exact (hlocal hprepare).trans (.deliver ..)
  · next hprepare => exact (hlocal hprepare).trans (.cached rfl)

theorem prepareAll {pending : List Pending} {batch : List Asked}
    (h : s.prepareAll pending = (batch, s')) : s.Idles s' := by
  induction pending generalizing s batch with
  | nil =>
    obtain ⟨-, rfl⟩ := Prod.mk.inj h
    exact .refl s
  | cons p rest ih =>
    rw [OpenSession.prepareAll] at h
    obtain ⟨-, rfl⟩ := Prod.mk.inj h
    exact (prepare s p).trans (ih rfl)

theorem receive (s : OpenSession) (asked : Asked) (r : SubResponse) :
    s.Idles (s.receive asked r).2 := by
  unfold OpenSession.receive
  rcases hthrough : s.throughCache asked.request.cacheKey r with ⟨r', s₁⟩
  refine (throughCache hthrough).trans ?_
  dsimp only
  split
  · exact .warn s₁ rfl
  · split
    · exact .deliver ..
    · rcases hlocal : s₁.locally (asked.pending.read.receive · r') with ⟨value, s₂⟩
      have hreceived : s₁.Idles s₂ :=
        locally (fun _ => Workspace.readClosed_quiet.receive (.of_always (fun _ => trivial)))
          hlocal
      exact hreceived.trans (.deliver ..)

theorem receiveAll {batch : List Asked} {responses : List SubResponse} {again : List Pending}
    (h : s.receiveAll batch responses = (again, s')) : s.Idles s' := by
  induction batch generalizing s responses again with
  | nil =>
    obtain ⟨-, rfl⟩ := Prod.mk.inj h
    exact .refl s
  | cons asked batch ih =>
    cases responses with
    | nil =>
      obtain ⟨-, rfl⟩ := Prod.mk.inj h
      exact .refl s
    | cons r responses =>
      rw [OpenSession.receiveAll] at h
      obtain ⟨-, rfl⟩ := Prod.mk.inj h
      exact (receive s asked r).trans (ih rfl)

theorem failAll (s : OpenSession) (e : Error) (batch : List Asked) :
    s.Idles (s.failAll e batch) := by
  induction batch generalizing s with
  | nil => exact .refl s
  | cons asked rest ih => exact (deliver s asked.pending.handle (.error e)).trans (ih _)

theorem giveUp (s : OpenSession) (batch : List Asked) : s.Idles (s.giveUp batch) := by
  induction batch generalizing s with
  | nil => exact .refl s
  | cons asked rest ih => exact ((warn s rfl).trans (.deliver ..)).trans (ih _)

end Idles

/-! ## Operations that send requests -/

/-- Attempts one after the other, with nothing in between that concerns the budget or the server. -/
inductive Tries : OpenSession → List Attempt → OpenSession → Prop where
  | idles {s s' : OpenSession} (h : s.Idles s') : Tries s [] s'
  | attempt {s s' : OpenSession} {a : Attempt} {attempts : List Attempt} (h : s.Idles a.before)
    (rest : Tries a.after attempts s') : Tries s (a :: attempts) s'

theorem Idles.tries (h : s.Idles s') {attempts : List Attempt} (rest : Tries s' attempts s'') :
    Tries s attempts s'' := by
  cases rest with
  | idles h' => exact .idles (h.trans h')
  | attempt h' rest => exact .attempt (h.trans h') rest

theorem Tries.append {attempts attempts' : List Attempt} (h : Tries s attempts s')
    (h' : Tries s' attempts' s'') : Tries s (attempts ++ attempts') s'' := by
  induction h with
  | idles h => exact h.tries h'
  | attempt h _ ih => exact .attempt h (ih h')

/-- `s'` comes from `s` by attempts. -/
def ByAttempts (s s' : OpenSession) : Prop :=
  ∃ attempts, Tries s attempts s'

namespace ByAttempts

theorem idles (h : s.Idles s') : s.ByAttempts s' :=
  ⟨[], .idles h⟩

theorem refl (s : OpenSession) : s.ByAttempts s :=
  .idles (.refl s)

theorem trans (h : s.ByAttempts s') (h' : s'.ByAttempts s'') : s.ByAttempts s'' := by
  obtain ⟨attempts, htries⟩ := h
  obtain ⟨attempts', htries'⟩ := h'
  exact ⟨attempts ++ attempts', htries.append htries'⟩

theorem send {operation : String} {r : Request} {answer : Except Halt Response}
    (h : s.send operation r = (answer, s')) : s.ByAttempts s' := by
  have hafter : (Attempt.mk s operation r).after = s' := congrArg Prod.snd h
  exact ⟨[⟨s, operation, r⟩], .attempt (.refl s) (.idles (hafter ▸ .refl _))⟩

theorem sendForBody {operation : String} {r : Request} {answer : Except Halt (Option Json)}
    (h : s.sendForBody operation r = (answer, s')) : s.ByAttempts s' := by
  obtain ⟨_, hsend⟩ := send_of_sendForBody_eq h
  exact .send hsend

/-- Reading comes about by attempts. -/
theorem readClosed : ReadClosed ByAttempts where
  refl := .refl
  trans := .trans
  send := .send
  work h := .idles (.withWorkspace fun _ =>
    h _ _ (.of_always (fun _ => trivial) _) Workspace.readClosed_quiet)

theorem runQuery (s : OpenSession) (type : EntityType) (q : Query) :
    s.ByAttempts (s.runQuery type q).2 :=
  (idles (.freeze rfl)).trans (readClosed.runQuery rfl)

theorem countQuery (s : OpenSession) (q : Query) : s.ByAttempts (s.countQuery q).2 :=
  (idles (.freeze rfl)).trans (readClosed.countQuery rfl)

/-! ### Saves -/

theorem save (s : OpenSession) : s.ByAttempts s.save.2 := by
  have hplanned : ∀ {planned w}, s.workspace.planSave s.session.callbacks = (planned, w) →
      s.ByAttempts (s.withWorkspace w) := fun hplan =>
    .idles (.withWorkspace fun hquiet => (Workspace.plans_planSave hplan).quiet hquiet)
  rcases hsave : s.save with ⟨answer, s'⟩
  cases saveEnds hsave with
  | refused hplan | idle hplan => exact hplanned hplan
  | unanswered hplan _ hsend | failed hplan _ hsend => exact (hplanned hplan).trans (.send hsend)
  | conflict hplan _ hsend =>
    exact ((hplanned hplan).trans (.send hsend)).trans (.idles (.warn _ rfl))
  | settled hplan _ hsend =>
    exact ((hplanned hplan).trans (.send hsend)).trans (.idles (.withWorkspace fun hquiet =>
      Workspace.quiet_settle hquiet _ _ _))

/-! ### Lazy reads -/

theorem lazyQuery (s : OpenSession) (type : EntityType) (q : Query) :
    s.ByAttempts (s.lazyQuery type q).2 := by
  unfold OpenSession.lazyQuery
  split
  · next hfreeze => exact .idles (.freeze hfreeze)
  · next hfreeze => exact .idles ((Idles.freeze hfreeze).trans (.queue ..))

theorem lazyCount (s : OpenSession) (q : Query) : s.ByAttempts (s.lazyCount q).2 := by
  unfold OpenSession.lazyCount
  split
  · next hfreeze => exact .idles (.freeze hfreeze)
  · next hfreeze => exact .idles ((Idles.freeze hfreeze).trans (.queue ..))

theorem sendRound {batch : List Asked} {answer : Except Halt (List SubResponse)}
    (h : s.sendRound batch = (answer, s')) : s.ByAttempts s' := by
  unfold OpenSession.sendRound at h
  dsimp only at h
  obtain ⟨-, rfl⟩ := Prod.mk.inj h
  exact .sendForBody rfl

/-- Each round of a flush makes at most one attempt. -/
theorem rounds {n : Nat} {pending : List Pending} {rounds : List Round} {answer : Except Halt Unit}
    (h : Flushes n s pending rounds answer s') : s.ByAttempts s' := by
  induction h with
  | ends hprepare => exact .idles ((Idles.prepareAll hprepare).trans (.giveUp ..))
  | halts hprepare hround =>
    exact ((idles (.prepareAll hprepare)).trans (.sendRound hround)).trans
      (.idles (.failAll ..))
  | goesOn hprepare hround hreceive _ ih =>
    have hsent := (idles (.prepareAll hprepare)).trans (sendRound hround)
    exact (hsent.trans (.idles (.receiveAll hreceive))).trans ih

theorem flush (s : OpenSession) : s.ByAttempts s.flush.2 := by
  have hemptied : s.Idles { s with session := { s.session with pending := [] } } :=
    ⟨⟨_, _, rfl⟩, ⟨_, rfl⟩, fun _ => .refl _⟩
  exact (idles hemptied).trans (.rounds s.flushes_rounds)

theorem resolve (s : OpenSession) (handle : Handle) : s.ByAttempts (s.resolve handle).2 := by
  obtain ⟨s₁, deliveries, hafter, heq, -, -⟩ := resolve_eq s handle
  have hflushed : s.ByAttempts s₁ := by
    rw [hafter]
    split
    · exact .refl s
    · exact .flush s
  rw [heq]
  exact hflushed.trans (.idles ⟨⟨_, _, rfl⟩, ⟨_, rfl⟩, fun _ => .refl _⟩)

end ByAttempts

end OpenSession

end DocumentSession
