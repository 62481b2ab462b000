import DocumentSession.Proofs.Rounds
import DocumentSession.Proofs.Reachable

set_option autoImplicit false

/-! # The answers of a flush

`flush` delivers exactly one value to each read in `pending`, whatever the server and the caller do:
the value that the session knows, the value for the response at the read's own position in the last
round that it takes part in, or an error (`flush_answers_each_once`).

`resolve` flushes if its handle has no value yet. It gives the value that the flush delivers if and
only if no multi-get of the flush fails (`resolve_gives_own_value_iff`). -/

namespace DocumentSession.OpenSession

variable {s : OpenSession}

/-! ## One value for each read -/

/-- From `s` to `s'` the `rounds` answer each read in `pending` exactly once. -/
structure AnswersOnce (s : OpenSession) (rounds : List Round) (s' : OpenSession) : Prop where
  /-- No read is left in `pending`. -/
  emptied : s'.session.pending = []
  /-- The rounds deliver all that is delivered. -/
  deliveries : s'.deliveries = s.deliveries.deliverAll (rounds.flatMap Round.delivered)
  /-- The handle of each read is delivered one value, and no other handle is. -/
  once : ((rounds.flatMap Round.delivered).map Prod.fst).Perm (s.session.pending.map Pending.handle)
  /-- The values are held afterwards, and all other handles keep theirs. -/
  held : ∀ delivery ∈ rounds.flatMap Round.delivered,
    s'.deliveries.values.find? delivery.1 = some delivery.2
  others : ∀ handle ∉ s.session.pending.map Pending.handle,
    s'.deliveries.values.find? handle = s.deliveries.values.find? handle
  /-- The first round has all reads, and each next round those that are sent again. -/
  retried : rounds.head?.map Round.pending = some s.session.pending
    ∧ rounds.IsChain (fun round next => next.pending = Round.again round.receipts)
  /-- A read that a round delivers to is in no later round. -/
  resolved : rounds.Pairwise (fun earlier later => ∀ delivery ∈ earlier.delivered,
    delivery.1 ∉ later.pending.map Pending.handle)
  /-- Every value is that of its own read, for the response at its own position. -/
  accounted : ∀ round ∈ rounds, round.Accounted
  /-- At most three requests are sent, and they are the multi-gets of the rounds. -/
  sent : ∃ sent, s'.connection.sent = s.connection.sent ++ sent ∧ sent.length ≤ 3
    ∧ sent.Sublist ((rounds.filter (·.reply.isSome)).map
        (fun round => s.session.options.scope (Round.request round.batch)))

theorem flushes_rounds (s : OpenSession) :
    Flushes maxRounds { s with session := { s.session with pending := [] } } s.session.pending
      s.rounds s.flush.1 s.flush.2 :=
  flushes_roundsOf ..

/-- A flush in at most `maxRounds` rounds answers each waiting read once, if each has a handle of
its own. -/
theorem Flushes.answersOnce {rounds : List Round} {answer : Except Halt Unit} {s' : OpenSession}
    (h : Flushes maxRounds { s with session := { s.session with pending := [] } } s.session.pending
      rounds answer s')
    (hdistinct : (s.session.pending.map Pending.handle).Nodup) : s.AnswersOnce rounds s' := by
  obtain ⟨sent, hdelivers, hsent⟩ := h.delivers
  have honce := h.handles_perm
  refine ⟨hdelivers.pending, hdelivers.deliveries, honce, ?_, ?_, h.retried,
    h.resolved hdistinct, h.accounted, sent, hdelivers.sent, ?_, hsent⟩
  · intro delivery hmem
    rw [hdelivers.deliveries]
    exact Deliveries.find?_deliverAll_of_mem (honce.nodup_iff.mpr hdistinct) hmem
  · intro handle hother
    rw [hdelivers.deliveries]
    exact Deliveries.find?_deliverAll_of_not_mem (mt honce.mem_iff.mp hother)
  · have hlength := hsent.length_le
    rw [List.length_map] at hlength
    exact Nat.le_trans hlength h.length_asked_le

/-- `flush` answers each read in `pending` exactly once, and leaves `pending` empty. That the
handles are distinct holds in every session (`Queueing.answersOnce`). -/
theorem flush_answers_each_once (hdistinct : (s.session.pending.map Pending.handle).Nodup) :
    s.AnswersOnce s.rounds s.flush.2 :=
  s.flushes_rounds.answersOnce hdistinct

/-- A session with three reads in `pending`. One of their documents is known to be missing; of the
others the server first says that one is not modified, and fails for the second. -/
def threeWaiting : OpenSession where
  session :=
    { Session.new 1 {} {} with
      work := { conventions := {}, missing := KnownMissing.insert {} "users/9" }
      pending := [⟨0, .ofIds Shop.anything ["users/9"] []⟩,
        ⟨1, .ofIds Shop.anything ["users/1"] []⟩, ⟨2, .ofIds Shop.anything ["users/2"] []⟩] }
  shared := {}
  connection :=
    { server := fun sent =>
        let part := fun status => Json.obj [("StatusCode", .nat status)]
        .ok (.ok (.obj [("Results",
          .arr (if sent.length = 1 then [part 304, part 500] else [part 404]))])) }
  deliveries := { next := 3 }

/-- The missing document and the failed one are answered in the first round, and the third one in
the second. -/
theorem flush_answers_each_once_three :
    (threeWaiting.session.pending.map Pending.handle).Nodup
      ∧ threeWaiting.AnswersOnce threeWaiting.rounds threeWaiting.flush.2
      ∧ threeWaiting.rounds.map (fun round =>
            (round.pending.map Pending.handle, round.delivered.map Prod.fst))
          = [([0, 1, 2], [0, 2]), ([1], [1]), ([], [])] := by
  have hdistinct : (threeWaiting.session.pending.map Pending.handle).Nodup := by decide
  exact ⟨hdistinct, flush_answers_each_once hdistinct, by decide +kernel⟩

/-! ## The value of one handle -/

theorem isResolved_of_held {handle : Handle} {value : Except Error LazyValue}
    (hheld : s.deliveries.values.find? handle = some value) :
    s.deliveries.isResolved handle = true := by
  unfold Deliveries.isResolved Keyed.contains
  rw [hheld]
  rfl

/-- A handle that holds a value is resolved to it without a request. -/
theorem resolve_of_held {handle : Handle} {value : LazyValue}
    (hheld : s.deliveries.values.find? handle = some (.ok value)) :
    s.resolve handle = (.ok value, { s with deliveries := (s.deliveries.take handle).2 }) := by
  unfold resolve
  rw [if_pos (isResolved_of_held hheld)]
  unfold Deliveries.take
  dsimp only
  rw [hheld]
  rfl

/-- `resolve` flushes unless the handle is resolved, and then changes nothing but `deliveries`. -/
theorem resolve_eq (s : OpenSession) (handle : Handle) :
    ∃ s₁ deliveries, s₁ = (if s.deliveries.isResolved handle then s else s.flush.2)
      ∧ (s.resolve handle).2 = { s₁ with deliveries } ∧ deliveries.next = s₁.deliveries.next
      ∧ ∀ value, (s.resolve handle).1 = .ok value →
        s₁.deliveries.values.find? handle = some (.ok value) := by
  unfold OpenSession.resolve
  rcases hflushed : (if s.deliveries.isResolved handle then (.ok (), s) else s.flush :
    Except Halt Unit × OpenSession) with ⟨flushed, s₁⟩
  have hafter : s₁ = (if s.deliveries.isResolved handle then s else s.flush.2) := by
    refine (congrArg Prod.snd hflushed).symm.trans ?_
    split <;> rfl
  refine ⟨s₁, ?_⟩
  cases flushed with
  | error _ => exact ⟨s₁.deliveries, hafter, rfl, rfl, fun value hvalue => by cases hvalue⟩
  | ok _ =>
    refine ⟨(s₁.deliveries.take handle).2, hafter, ?_⟩
    dsimp only
    cases hheld : (s₁.deliveries.take handle).1 with
    | none => exact ⟨rfl, rfl, fun value hvalue => by cases hvalue⟩
    | some value =>
      refine ⟨rfl, rfl, fun value' hvalue => hheld.trans (congrArg some ?_)⟩
      exact Except.eq_ok_of_mapError hvalue

/-- If the flush in `resolve` delivers a value to the handle, `resolve` gives this value if and only
if every multi-get of the flush is answered. If one fails, `resolve` gives its error, and the value
when it is called again, without a request. -/
theorem resolve_gives_own_value_iff {handle : Handle} {value : LazyValue}
    (hopen : s.deliveries.isResolved handle = false)
    (hheld : s.flush.2.deliveries.values.find? handle = some (.ok value)) :
    ((s.resolve handle).1 = .ok value
        ↔ ∀ round ∈ s.rounds, ∀ halt, round.reply ≠ some (.error halt))
      ∧ ∀ round ∈ s.rounds, ∀ halt, round.reply = some (.error halt) →
        (s.resolve handle).1 = .error halt
          ∧ ((s.resolve handle).2.resolve handle).1 = .ok value
          ∧ ((s.resolve handle).2.resolve handle).2.connection = s.flush.2.connection := by
  have hhalted := s.flushes_rounds.halted_iff
  rcases hflush : s.flush with ⟨answer, s₁⟩
  rw [hflush] at hheld hhalted
  dsimp only at hheld hhalted
  cases answer with
  | error halt =>
    have hresolve : s.resolve handle = (.error halt, s₁) := by
      unfold resolve
      rw [hopen, hflush]
      rfl
    obtain ⟨round, hmem, hreply⟩ := (hhalted halt).mp rfl
    rw [hresolve]
    constructor
    · constructor
      · intro hok
        cases hok
      · intro hanswered
        exact absurd hreply (hanswered round hmem halt)
    · intro round' hmem' halt' hreply'
      obtain rfl := Except.error.inj ((hhalted halt').mpr ⟨round', hmem', hreply'⟩)
      dsimp only
      rw [resolve_of_held hheld]
      exact ⟨rfl, rfl, rfl⟩
  | ok _ =>
    have hresolve : s.resolve handle = s₁.resolve handle := by
      unfold resolve
      rw [hopen, hflush, if_pos (isResolved_of_held hheld)]
      rfl
    have hvalue : (s.resolve handle).1 = .ok value := by rw [hresolve, resolve_of_held hheld]
    have hanswered : ∀ round ∈ s.rounds, ∀ halt, round.reply ≠ some (.error halt) := by
      intro round hmem halt hreply
      cases (hhalted halt).mpr ⟨round, hmem, hreply⟩
    exact ⟨⟨fun _ => hanswered, fun _ => hvalue⟩, fun round hmem halt hreply =>
      absurd hreply (hanswered round hmem halt)⟩

/-- A session that has loaded `users/1`, and then loses its connection. -/
def losing : OpenSession :=
  let opened : OpenSession :=
    { session := Session.new 1 {} {}
      shared := {}
      connection :=
        { server := fun sent =>
            if sent.length = 1 then
              .ok (.ok (.obj [("Results", .arr [.obj
                [("@metadata", .obj [("@id", .str "users/1")]), ("Name", .str "Al")]])]))
            else .error (.failed (.custom "connection lost")) }
      deliveries := {} }
  opened.perform (.load Shop.anything "users/1" [])

/-- That session with two reads in `pending`, one of them for `users/1`. -/
def losingWaiting : OpenSession :=
  (losing.perform (.lazyLoad Shop.anything ["users/1"] [])).perform
    (.lazyLoad Shop.anything ["users/2"] [])

/-- The read of `users/1` is answered, but resolving its handle fails for the other read. -/
theorem resolve_fails_for_other_read :
    losingWaiting.deliveries.isResolved 0 = false
      ∧ losingWaiting.flush.2.deliveries.values.find? 0
          = some (.ok (.documents [("users/1", some 0)]))
      ∧ (losingWaiting.resolve 0).1 = .error (.failed (.custom "connection lost")) := by
  decide +kernel

/-- Resolving it again gives the value. -/
theorem resolve_gives_own_value_iff_losing :
    losingWaiting.deliveries.isResolved 0 = false
      ∧ losingWaiting.flush.2.deliveries.values.find? 0
          = some (.ok (.documents [("users/1", some 0)]))
      ∧ (losingWaiting.resolve 0).1 = .error (.failed (.custom "connection lost"))
      ∧ ((losingWaiting.resolve 0).2.resolve 0).1 = .ok (.documents [("users/1", some 0)]) := by
  have hopen : losingWaiting.deliveries.isResolved 0 = false := by decide +kernel
  have hheld : losingWaiting.flush.2.deliveries.values.find? 0
      = some (.ok (.documents [("users/1", some 0)])) := by
    decide +kernel
  have hreply : losingWaiting.rounds.map Round.reply
      = [some (.error (.failed (.custom "connection lost")))] := by
    decide +kernel
  obtain ⟨round, hmem, hround⟩ :=
    List.mem_map.mp (by rw [hreply]; exact List.mem_singleton_self _)
  obtain ⟨hfails, hsecond, -⟩ :=
    (resolve_gives_own_value_iff hopen hheld).2 round hmem _ hround
  exact ⟨hopen, hheld, hfails, hsecond⟩

end DocumentSession.OpenSession
