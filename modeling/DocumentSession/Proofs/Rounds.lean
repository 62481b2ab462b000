import DocumentSession.Proofs.SessionReads

set_option autoImplicit false

/-! # The rounds of a flush

In each round of `flush` the session first answers the reads that it can answer by itself
(`prepareAll`). The others are sent as one multi-get, which has a response for each of them or fails
for all (`sendRound`). `OpenSession.rounds` lists for every round the reads that take part and the
values that they are given, and `Flushes` is the run of the flush through these rounds.

The reads of a round are those that it delivers to and those of the next round
(`handles_answeredRound`), and the last round delivers to all of its reads. So a run delivers one
value to each read (`Flushes.handles_perm`). -/

namespace DocumentSession

/-! ## Deliveries -/

/-- A value and the handle that it is delivered under. -/
abbrev Delivery := Handle × Except Error LazyValue

namespace Deliveries

/-- Deliver some values one after the other. -/
def deliverAll (d : Deliveries) (delivered : List Delivery) : Deliveries :=
  delivered.foldl (fun d delivery => d.deliver delivery.1 delivery.2) d

theorem deliverAll_append (d : Deliveries) (before after : List Delivery) :
    d.deliverAll (before ++ after) = (d.deliverAll before).deliverAll after :=
  List.foldl_append ..

theorem find?_deliver (d : Deliveries) (handle : Handle) (value : Except Error LazyValue)
    (handle' : Handle) :
    (d.deliver handle value).values.find? handle'
      = if handle = handle' then some value else d.values.find? handle' :=
  Keyed.find?_insert ..

/-- A handle that is not delivered to keeps its value. -/
theorem find?_deliverAll_of_not_mem {d : Deliveries} {delivered : List Delivery} {handle : Handle}
    (h : handle ∉ delivered.map Prod.fst) :
    (d.deliverAll delivered).values.find? handle = d.values.find? handle := by
  induction delivered generalizing d with
  | nil => rfl
  | cons delivery rest ih =>
    obtain ⟨hfirst, hrest⟩ := not_or.mp (mt List.mem_cons.mpr h)
    refine (ih (d := d.deliver delivery.1 delivery.2) hrest).trans ?_
    rw [find?_deliver, if_neg (fun h => hfirst h.symm)]

/-- If the handles are distinct, each value is held under its handle afterwards. -/
theorem find?_deliverAll_of_mem {d : Deliveries} {delivered : List Delivery} {delivery : Delivery}
    (hdistinct : (delivered.map Prod.fst).Nodup) (hmem : delivery ∈ delivered) :
    (d.deliverAll delivered).values.find? delivery.1 = some delivery.2 := by
  induction delivered generalizing d with
  | nil => cases hmem
  | cons first rest ih =>
    obtain ⟨hfirst, hrest⟩ := List.nodup_cons.mp hdistinct
    rcases List.mem_cons.mp hmem with rfl | hmem
    · refine (find?_deliverAll_of_not_mem (d := d.deliver delivery.1 delivery.2) hfirst).trans ?_
      rw [find?_deliver, if_pos rfl]
    · exact ih hrest hmem

/-- A value that is held afterwards was delivered, or was held before. -/
theorem mem_of_find?_deliverAll {d : Deliveries} {delivered : List Delivery} {handle : Handle}
    {value : Except Error LazyValue}
    (h : (d.deliverAll delivered).values.find? handle = some value) :
    (handle, value) ∈ delivered ∨ d.values.find? handle = some value := by
  induction delivered generalizing d with
  | nil => exact Or.inr h
  | cons delivery rest ih =>
    rcases ih h with hmem | hbefore
    · exact Or.inl (List.mem_cons_of_mem _ hmem)
    · rw [find?_deliver] at hbefore
      split at hbefore
      · next hhandle =>
        obtain rfl := Option.some.inj hbefore
        exact Or.inl (by rw [← hhandle]; exact List.mem_cons_self)
      · exact Or.inr hbefore

end Deliveries

/-! ## Rounds -/

/-- A read that was sent, and the value that it is given for its response; `none` if it is sent
again. -/
abbrev Receipt := Asked × Option (Except Error LazyValue)

/-- A round of a flush. -/
structure Round where
  /-- The session at the beginning of the round. -/
  start : OpenSession
  /-- The reads that take part. -/
  pending : List Pending
  /-- The values of the reads that the session answers by itself. -/
  known : List Delivery
  /-- The reads that are sent, each with its value. -/
  receipts : List Receipt := []
  /-- The answer of the multi-get, if there is one. -/
  reply : Option (Except Halt (List SubResponse)) := none
  /-- The session that the responses arrive at. -/
  arrived : OpenSession := start

namespace Round

/-- The reads that are sent. -/
def batch (r : Round) : List Asked :=
  r.receipts.map Prod.fst

/-- The values of the reads that were sent. -/
def given (receipts : List Receipt) : List Delivery :=
  receipts.filterMap (fun receipt => receipt.2.map (receipt.1.pending.handle, ·))

/-- The reads that are sent again. -/
def again (receipts : List Receipt) : List Pending :=
  (receipts.filter (·.2.isNone)).map (·.1.pending)

/-- All values that a round delivers. -/
def delivered (r : Round) : List Delivery :=
  r.known ++ given r.receipts

/-- The multi-get of a batch of reads. -/
def request (batch : List Asked) : Request :=
  { method := .post, path := "/multi_get", body := some (multiGetBody (batch.map Asked.request)) }

theorem given_cons (receipt : Receipt) (rest : List Receipt) :
    given (receipt :: rest) = given [receipt] ++ given rest :=
  List.filterMap_append (l := [receipt])

theorem again_cons (receipt : Receipt) (rest : List Receipt) :
    again (receipt :: rest) = again [receipt] ++ again rest := by
  unfold again
  rw [← List.map_append, ← List.filter_append, List.singleton_append]

/-- Every receipt has a value or is sent again. -/
theorem handles_perm (receipts : List Receipt) :
    (receipts.map (·.1.pending.handle)).Perm
      ((given receipts).map Prod.fst ++ (again receipts).map Pending.handle) := by
  induction receipts with
  | nil => exact .refl _
  | cons receipt rest ih =>
    obtain ⟨asked, _ | value⟩ := receipt
    · exact (ih.cons _).trans List.perm_middle.symm
    · exact ih.cons _

end Round

namespace OpenSession

/-! ## The value of one read -/

/-- The value of a read that `prepare` answers. -/
def answer? (s : OpenSession) (p : Pending) : Option (Except Error LazyValue) :=
  match (p.read.prepare s.workspace).1 with
  | .answered value => some value
  | .asks .. => none

/-- The values of the reads that `prepare` answers, one read after the other. -/
def known (s : OpenSession) : List Pending → List Delivery
  | [] => []
  | p :: rest => ((s.answer? p).map (p.handle, ·)).toList ++ known (s.prepare p).2 rest

/-- The value that `receive` gives a read for its response `r`, after the cache was consulted;
`none` if the read is sent again. -/
def valueFor? (s : OpenSession) (asked : Asked) (r : SubResponse) :
    Option (Except Error LazyValue) :=
  let (r, s) := s.throughCache asked.request.cacheKey r
  if r.forceRetry then none
  else if !r.isSuccess && r.status ≠ 404 then some (.error r.toError)
  else some (asked.pending.read.receive s.workspace r).1

/-- The reads of a batch, each with its `valueFor?`. -/
def receipts (s : OpenSession) : List Asked → List SubResponse → List Receipt
  | asked :: batch, r :: responses =>
    (asked, s.valueFor? asked r) :: receipts (s.receive asked r).2 batch responses
  | _, _ => []

/-- A round in which every read that is sent fails with `e`. -/
def failedRound (s : OpenSession) (pending : List Pending) (batch : List Asked)
    (e : Asked → Error) (halt : Option Halt) (arrived : OpenSession) : Round where
  start := s
  pending
  known := s.known pending
  receipts := batch.map (fun asked => (asked, some (.error (e asked))))
  reply := halt.map .error
  arrived

/-- A round in which the multi-get has `responses`. -/
def answeredRound (s : OpenSession) (pending : List Pending) (batch : List Asked)
    (responses : List SubResponse) (arrived : OpenSession) : Round where
  start := s
  pending
  known := s.known pending
  receipts := arrived.receipts batch responses
  reply := some (.ok responses)
  arrived

/-- The rounds of a flush that sends at most `n` multi-gets. -/
def roundsOf (n : Nat) (s : OpenSession) (pending : List Pending) : List Round :=
  match s.prepareAll pending with
  | ([], s₁) => [s.failedRound pending [] (fun asked => gaveUp asked.pending.read) none s₁]
  | (batch, s₁) =>
    match n with
    | 0 => [s.failedRound pending batch (fun asked => gaveUp asked.pending.read) none s₁]
    | n + 1 =>
      match s₁.sendRound batch with
      | (.error h, s₂) => [s.failedRound pending batch (fun _ => errorOf h) (some h) s₂]
      | (.ok responses, s₂) =>
        let (again, s₃) := s₂.receiveAll batch responses
        s.answeredRound pending batch responses s₂ :: roundsOf n s₃ again

/-- The rounds of `flush`. -/
def rounds (s : OpenSession) : List Round :=
  roundsOf maxRounds { s with session := { s.session with pending := [] } } s.session.pending

end OpenSession

/-- The source of every value of a round. -/
structure Round.Accounted (r : Round) : Prop where
  /-- Each known value is one that `prepare` answers, for a read that takes part, when it is its
  turn. -/
  known : ∀ delivery ∈ r.known, ∃ i p, r.pending[i]? = some p ∧ p.handle = delivery.1
    ∧ (r.start.prepareAll (r.pending.take i)).2.answer? p = some delivery.2
  /-- All other reads are sent. -/
  batch : r.batch = (r.start.prepareAll r.pending).1
  /-- Each read with a response is given its `valueFor?` that response, when it is its turn. -/
  answered : ∀ responses, r.reply = some (.ok responses) →
    responses.length = r.batch.length
      ∧ ∀ (i : Nat) (asked : Asked) (response : SubResponse), r.batch[i]? = some asked →
        responses[i]? = some response →
        r.receipts[i]? = some (asked,
          (r.arrived.receiveAll (r.batch.take i) (responses.take i)).2.valueFor? asked response)
  /-- If the multi-get fails, every read that was sent is given its error. -/
  halted : ∀ h, r.reply = some (.error h) →
    ∀ receipt ∈ r.receipts, receipt.2 = some (.error (OpenSession.errorOf h))
  /-- If no multi-get is sent, every read that is left is given `gaveUp`. -/
  unsent : r.reply = none →
    ∀ receipt ∈ r.receipts, receipt.2 = some (.error (OpenSession.gaveUp receipt.1.pending.read))

namespace OpenSession

variable {s s' s'' : OpenSession}

/-! ## Frames -/

/-- From `s` to `s'` the values `delivered` are delivered and the requests `sent` are sent;
`pending` does not change. -/
structure Delivers (s : OpenSession) (delivered : List Delivery) (sent : List Request)
    (s' : OpenSession) : Prop where
  pending : s'.session.pending = s.session.pending
  options : s'.session.options = s.session.options
  deliveries : s'.deliveries = s.deliveries.deliverAll delivered
  sent : s'.connection.sent = s.connection.sent ++ sent

/-- Nothing is delivered or sent. -/
abbrev Rests (s s' : OpenSession) : Prop :=
  s.Delivers [] [] s'

theorem Delivers.trans {before after : List Delivery} {sent sent' : List Request}
    (h : s.Delivers before sent s') (h' : s'.Delivers after sent' s'') :
    s.Delivers (before ++ after) (sent ++ sent') s'' := by
  refine ⟨h'.pending.trans h.pending, h'.options.trans h.options, ?_, ?_⟩
  · rw [h'.deliveries, h.deliveries, Deliveries.deliverAll_append]
  · rw [h'.sent, h.sent, List.append_assoc]

namespace Rests

/-- Only the workspace, the cache or the budget changes. -/
theorem of_eq (hpending : s'.session.pending = s.session.pending)
    (hoptions : s'.session.options = s.session.options) (hdeliveries : s'.deliveries = s.deliveries)
    (hsent : s'.connection.sent = s.connection.sent) : s.Rests s' :=
  ⟨hpending, hoptions, hdeliveries, by rw [hsent, List.append_nil]⟩

theorem refl (s : OpenSession) : s.Rests s :=
  .of_eq rfl rfl rfl rfl

theorem deliver (h : s.Rests s') (handle : Handle) (value : Except Error LazyValue) :
    s.Delivers [(handle, value)] [] (s'.deliver handle value) :=
  ⟨h.pending, h.options, congrArg (·.deliver handle value) h.deliveries, h.sent⟩

theorem warn (h : s.Rests s') (warning : Warning) : s.Rests (s'.warn warning) :=
  ⟨h.pending, h.options, h.deliveries, h.sent⟩

theorem locally {α : Type} {f : Workspace → α × Workspace} {answer : α}
    (h : s.locally f = (answer, s')) : s.Rests s' := by
  unfold OpenSession.locally at h
  obtain ⟨-, rfl⟩ := Prod.mk.inj h
  exact .of_eq rfl rfl rfl rfl

theorem cached {url : String} {answer : Option Cached} (h : s.cached url = (answer, s')) :
    s.Rests s' := by
  unfold OpenSession.cached at h
  split at h
  · obtain ⟨-, rfl⟩ := Prod.mk.inj h
    exact .refl s
  · obtain ⟨-, rfl⟩ := Prod.mk.inj h
    refine .of_eq rfl rfl rfl ?_
    show (s.connection.cached url).2.sent = s.connection.sent
    unfold Connection.cached
    split <;> rfl

theorem remember (s : OpenSession) (url : String) (cached : Cached) :
    s.Rests (s.remember url cached) := by
  unfold OpenSession.remember
  split
  · exact .refl s
  · exact .of_eq rfl rfl rfl rfl

theorem throughCache {url : String} {r r' : SubResponse} (h : s.throughCache url r = (r', s')) :
    s.Rests s' := by
  rcases throughCache_cases h with ⟨_, hcached, -⟩ | ⟨-, rfl | ⟨_, -, rfl⟩⟩
  · exact .cached hcached
  · exact .refl _
  · exact .remember ..

end Rests

/-! ## Reads one after the other -/

/-- `prepare` delivers the value that it answers, or leaves the read to be sent. -/
theorem prepare_delivers (s : OpenSession) (p : Pending) :
    s.Delivers ((s.answer? p).map (p.handle, ·)).toList [] (s.prepare p).2
      ∧ [p.handle].Perm (((s.answer? p).map (p.handle, ·)).toList.map Prod.fst
          ++ (s.prepare p).1.toList.map (·.pending.handle)) := by
  unfold prepare answer?
  rcases hprepare : s.locally p.read.prepare with ⟨prepared, s₁⟩
  have hprepared : (p.read.prepare s.workspace).1 = prepared := congrArg Prod.fst hprepare
  rw [hprepared]
  cases prepared with
  | answered value => exact ⟨(Rests.locally hprepare).deliver p.handle value, .refl _⟩
  | asks request read =>
    rcases hcached : s₁.cached request.cacheKey with ⟨found, s₂⟩
    dsimp only
    rw [hcached]
    exact ⟨(Rests.locally hprepare).trans (Rests.cached hcached), .refl _⟩

theorem prepareAll_delivers (s : OpenSession) (pending : List Pending) :
    s.Delivers (s.known pending) [] (s.prepareAll pending).2
      ∧ (pending.map Pending.handle).Perm ((s.known pending).map Prod.fst
          ++ (s.prepareAll pending).1.map (·.pending.handle)) := by
  induction pending generalizing s with
  | nil => exact ⟨Rests.refl s, .refl _⟩
  | cons p rest ih =>
    obtain ⟨hfirst, hhandle⟩ := s.prepare_delivers p
    obtain ⟨hrest, hhandles⟩ := ih (s.prepare p).2
    refine ⟨hfirst.trans hrest, ?_⟩
    have hboth := hhandle.append hhandles
    rw [prepareAll, known]
    dsimp only
    rw [List.map_append, List.map_append]
    refine hboth.trans ?_
    simp only [List.perm_iff_count, List.count_append]
    intro handle
    omega

/-- `receive` delivers the `valueFor?` the response, or leaves the read to be sent again. -/
theorem receive_delivers (s : OpenSession) (asked : Asked) (r : SubResponse) :
    s.Delivers (Round.given [(asked, s.valueFor? asked r)]) [] (s.receive asked r).2
      ∧ (s.receive asked r).1.toList = Round.again [(asked, s.valueFor? asked r)] := by
  unfold receive valueFor?
  rcases hthrough : s.throughCache asked.request.cacheKey r with ⟨r', s₁⟩
  have hrests := Rests.throughCache hthrough
  dsimp only
  split
  · exact ⟨hrests.warn _, rfl⟩
  · split
    · exact ⟨hrests.deliver _ _, rfl⟩
    · rcases hlocal : s₁.locally (asked.pending.read.receive · r') with ⟨value, s₂⟩
      have hvalue : (asked.pending.read.receive s₁.workspace r').1 = value :=
        congrArg Prod.fst hlocal
      rw [hvalue]
      exact ⟨Rests.deliver (hrests.trans (Rests.locally hlocal)) _ _, rfl⟩

theorem receiveAll_delivers (s : OpenSession) (batch : List Asked) (responses : List SubResponse) :
    s.Delivers (Round.given (s.receipts batch responses)) [] (s.receiveAll batch responses).2
      ∧ (s.receiveAll batch responses).1 = Round.again (s.receipts batch responses) := by
  induction batch generalizing s responses with
  | nil => exact ⟨Rests.refl s, rfl⟩
  | cons asked batch ih =>
    cases responses with
    | nil => exact ⟨Rests.refl s, rfl⟩
    | cons r responses =>
      obtain ⟨hfirst, hagain⟩ := s.receive_delivers asked r
      obtain ⟨hrest, hothers⟩ := ih (s.receive asked r).2 responses
      rw [receiveAll, receipts, Round.given_cons, Round.again_cons, ← hagain, ← hothers]
      exact ⟨hfirst.trans hrest, rfl⟩

/-- The receipt of each read has its `valueFor?` the response at the same position, when it is its
turn. -/
theorem receipts_getElem? (s : OpenSession) {batch : List Asked} {responses : List SubResponse}
    {i : Nat} {asked : Asked} {r : SubResponse} (hasked : batch[i]? = some asked)
    (hr : responses[i]? = some r) :
    (s.receipts batch responses)[i]?
      = some (asked, (s.receiveAll (batch.take i) (responses.take i)).2.valueFor? asked r) := by
  induction batch generalizing s responses i with
  | nil => cases hasked
  | cons first batch ih =>
    cases responses with
    | nil => cases hr
    | cons first' responses =>
      cases i with
      | zero =>
        obtain rfl := Option.some.inj hasked
        obtain rfl := Option.some.inj hr
        rfl
      | succ i => exact ih (s.receive first first').2 hasked hr

theorem map_fst_receipts (s : OpenSession) {batch : List Asked} {responses : List SubResponse}
    (hlength : responses.length = batch.length) :
    (s.receipts batch responses).map Prod.fst = batch := by
  induction batch generalizing s responses with
  | nil =>
    obtain rfl := List.length_eq_zero_iff.mp hlength
    rfl
  | cons asked batch ih =>
    cases responses with
    | nil => cases hlength
    | cons r responses =>
      exact congrArg (asked :: ·) (ih (s.receive asked r).2 (Nat.succ.inj hlength))

/-- Each value in `known` is one that `prepare` answers, for a read that takes part, when it is its
turn. -/
theorem mem_known (s : OpenSession) {pending : List Pending} {delivery : Delivery}
    (h : delivery ∈ s.known pending) :
    ∃ i p, pending[i]? = some p ∧ p.handle = delivery.1
      ∧ (s.prepareAll (pending.take i)).2.answer? p = some delivery.2 := by
  induction pending generalizing s with
  | nil => cases h
  | cons p rest ih =>
    rcases List.mem_append.mp h with hfirst | hrest
    · obtain ⟨value, hvalue, rfl⟩ := Option.map_eq_some_iff.mp (Option.mem_toList.mp hfirst)
      exact ⟨0, p, rfl, rfl, hvalue⟩
    · obtain ⟨i, p', hp', hhandle, hvalue⟩ := ih (s.prepare p).2 hrest
      exact ⟨i + 1, p', hp', hhandle, hvalue⟩

theorem workspace_failAll (s : OpenSession) (e : Error) (batch : List Asked) :
    (s.failAll e batch).workspace = s.workspace := by
  unfold failAll
  induction batch generalizing s with
  | nil => rfl
  | cons asked rest ih => exact ih _

theorem failAll_delivers (s : OpenSession) (e : Error) (batch : List Asked) :
    s.Delivers (Round.given (batch.map (fun asked => (asked, some (.error e))))) []
      (s.failAll e batch) := by
  induction batch generalizing s with
  | nil => exact Rests.refl s
  | cons asked rest ih =>
    exact ((Rests.refl s).deliver asked.pending.handle (.error e)).trans (ih _)

theorem giveUp_delivers (s : OpenSession) (batch : List Asked) :
    s.Delivers
      (Round.given (batch.map (fun asked => (asked, some (.error (gaveUp asked.pending.read)))))) []
      (s.giveUp batch) := by
  induction batch generalizing s with
  | nil => exact Rests.refl s
  | cons asked rest ih =>
    exact (((Rests.refl s).warn .lazyGaveUp).deliver asked.pending.handle
      (.error (gaveUp asked.pending.read))).trans (ih _)

/-! ## Sending -/

theorem count_eq {operation : String} {answer : Except Error Unit}
    (h : s.count operation = (answer, s')) :
    ∃ budget warnings, s' = { s with
      session := { s.session with budget }, shared := { s.shared with warnings } } := by
  unfold count at h
  rcases hrecord : s.session.budget.record operation with ⟨counted, _ | warning, budget⟩
  all_goals
    rw [hrecord] at h
    obtain ⟨-, rfl⟩ := Prod.mk.inj h
    exact ⟨budget, _, rfl⟩

/-- `send` changes nothing but the budget, the warnings and `sent`. -/
theorem send_eq {operation : String} {r : Request} {answer : Except Halt Response}
    (h : s.send operation r = (answer, s')) :
    ∃ budget warnings sent,
      s' = { s with
        session := { s.session with budget }
        shared := { s.shared with warnings }
        connection := { s.connection with sent } }
      ∧ ((sent = s.connection.sent ∧ ∃ halt, answer = .error halt)
        ∨ sent = s.connection.sent ++ [s.session.options.scope r]) := by
  unfold send at h
  split at h
  · obtain ⟨rfl, rfl⟩ := Prod.mk.inj h
    exact ⟨s.session.budget, s.shared.warnings, s.connection.sent, rfl, Or.inl ⟨rfl, _, rfl⟩⟩
  · split at h
    all_goals
      rename_i hcount
      obtain ⟨budget, warnings, rfl⟩ := count_eq hcount
      obtain ⟨rfl, rfl⟩ := Prod.mk.inj h
    · exact ⟨budget, warnings, s.connection.sent, rfl, Or.inl ⟨rfl, _, rfl⟩⟩
    · exact ⟨budget, warnings, _, rfl, Or.inr rfl⟩

/-- `sendRound` sends at most one request, and gives one response for each read or fails. -/
theorem sendRound_sends {batch : List Asked} {answer : Except Halt (List SubResponse)}
    (h : s.sendRound batch = (answer, s')) :
    (∃ sent, s.Delivers [] sent s'
        ∧ sent.Sublist [s.session.options.scope (Round.request batch)])
      ∧ ∀ responses, answer = .ok responses → responses.length = batch.length := by
  rcases hbody : s.sendForBody "lazy" (Round.request batch) with ⟨body, s₁⟩
  obtain rfl : s₁ = s' := (congrArg Prod.snd hbody).symm.trans (congrArg Prod.snd h)
  obtain ⟨_, hsend⟩ := send_of_sendForBody_eq hbody
  obtain ⟨budget, warnings, sent, rfl, hsent⟩ := send_eq hsend
  constructor
  · rcases hsent with ⟨rfl, -⟩ | rfl
    · exact ⟨[], Rests.of_eq rfl rfl rfl rfl, List.nil_sublist _⟩
    · exact ⟨_, ⟨rfl, rfl, rfl, rfl⟩, List.Sublist.refl _⟩
  · rintro responses rfl
    exact (answers_sendRound h).length_eq.symm

theorem sendRound_of_halt {batch : List Asked} {halt : Halt}
    (hsend : s.send "lazy" (Round.request batch) = (.error halt, s')) :
    s.sendRound batch = (.error halt, s') := by
  unfold Round.request at hsend
  unfold sendRound sendForBody
  dsimp only
  rw [hsend]
  rfl

/-- A reply with one response for each read answers `sendRound`. -/
theorem sendRound_of_answer {batch : List Asked} {response : Response}
    {responses : List SubResponse}
    (hsend : s.send "lazy" (Round.request batch) = (.ok response, s'))
    (hsuccess : response.isSuccess = true)
    (hresponses : multiGetResponses response.body batch.length = .ok responses) :
    s.sendRound batch = (.ok responses, s') := by
  unfold Round.request at hsend
  unfold sendRound sendForBody
  dsimp only
  rw [hsend]
  dsimp only
  rw [if_pos hsuccess, Except.bind, hresponses]
  rfl

/-- Responses of a multi-get do not force a retry; only a cache entry that is gone does. -/
theorem forceRetry_of_multiGetResponses {body : Option Json} {expected : Nat}
    {responses : List SubResponse} (h : multiGetResponses body expected = .ok responses) :
    ∀ r ∈ responses, r.forceRetry = false := by
  obtain ⟨items, -, -, hread⟩ := eq_ok_of_multiGetResponses h
  clear h
  induction hread with
  | nil => simp
  | cons hitem _ ih =>
    refine List.forall_mem_cons.mpr ⟨?_, ih⟩
    unfold SubResponse.ofJson at hitem
    split at hitem
    · cases hitem
    · obtain rfl := Except.ok.inj hitem
      rfl

/-! ## Without a cache -/

/-- The session has no response cache, or does not use it. -/
def Uncached (s : OpenSession) : Prop :=
  s.session.options.noCaching = true ∨ s.connection.cache = none

theorem cached_of_uncached (h : s.Uncached) (url : String) : s.cached url = (none, s) := by
  unfold cached
  split
  · rfl
  · next hcaching =>
    unfold Connection.cached
    rw [h.resolve_left hcaching]

theorem remember_of_uncached (h : s.Uncached) (url : String) (cached : Cached) :
    s.remember url cached = s := by
  unfold remember
  split
  · rfl
  · next hcaching =>
    have hnone := h.resolve_left hcaching
    unfold Connection.remember
    rw [hnone, Option.map_none, ← hnone]

/-- Without a cache a response that is not 304 goes through `throughCache` unchanged. -/
theorem throughCache_of_uncached (h : s.Uncached) (url : String) {r : SubResponse}
    (hmodified : r.isNotModified = false) : s.throughCache url r = (r, s) := by
  unfold throughCache
  rw [hmodified, if_neg Bool.false_ne_true]
  split
  · split
    · rw [remember_of_uncached h]
    · rfl
  · rfl

theorem prepare_of_answered {p : Pending} {value : Except Error LazyValue} {w : Workspace}
    (h : p.read.prepare s.workspace = (.answered value, w)) :
    s.prepare p = (none, (s.withWorkspace w).deliver p.handle value) := by
  unfold prepare locally
  rw [h]

theorem prepare_of_asks (hcache : s.Uncached) {p : Pending} {request : SubRequest}
    {read : LazyRead} {w : Workspace} (h : p.read.prepare s.workspace = (.asks request read, w)) :
    s.prepare p = (some { pending := { p with read }, request }, s.withWorkspace w) := by
  have huncached : (s.withWorkspace w).Uncached := hcache
  unfold prepare locally
  rw [h]
  dsimp only
  rw [cached_of_uncached huncached]
  rfl

/-! ## Responses that are not retried -/

/-- Deliver the value of a read for a response that is not retried. -/
def handOver (s : OpenSession) (asked : Asked) (r : SubResponse) : OpenSession :=
  if !r.isSuccess && r.status ≠ 404 then s.deliver asked.pending.handle (.error r.toError)
  else
    let received := asked.pending.read.receive s.workspace r
    (s.withWorkspace received.2).deliver asked.pending.handle received.1

theorem receive_of_throughCache {asked : Asked} {r r' : SubResponse}
    (h : s.throughCache asked.request.cacheKey r = (r', s')) (hretry : r'.forceRetry = false) :
    s.receive asked r = (none, s'.handOver asked r') := by
  unfold receive handOver
  rw [h]
  dsimp only
  rw [hretry, if_neg Bool.false_ne_true]
  split <;> rfl

/-! ## Flushes of one round -/

section OneRound

variable {n : Nat} {pending : List Pending} {batch : List Asked} {s₁ s₂ s₃ : OpenSession}

/-- `prepare` answers all reads. -/
theorem flushRounds_of_known (hprepare : s.prepareAll pending = ([], s₁)) :
    flushRounds n s pending = (.ok (), s₁) := by
  unfold flushRounds
  rw [hprepare]

/-- The multi-get fails. -/
theorem flushRounds_of_halt {halt : Halt} (hprepare : s.prepareAll pending = (batch, s₁))
    (hasked : batch ≠ []) (hround : s₁.sendRound batch = (.error halt, s₂)) :
    flushRounds (n + 1) s pending = (.error halt, s₂.failAll (errorOf halt) batch) := by
  obtain ⟨asked, rest, rfl⟩ := List.exists_cons_of_ne_nil hasked
  unfold flushRounds
  rw [hprepare]
  dsimp only
  rw [hround]

/-- No response is retried. -/
theorem flushRounds_of_answer {responses : List SubResponse}
    (hprepare : s.prepareAll pending = (batch, s₁)) (hasked : batch ≠ [])
    (hround : s₁.sendRound batch = (.ok responses, s₂))
    (hreceive : s₂.receiveAll batch responses = ([], s₃)) :
    flushRounds (n + 1) s pending = (.ok (), s₃) := by
  obtain ⟨asked, rest, rfl⟩ := List.exists_cons_of_ne_nil hasked
  rw [flushRounds, hprepare]
  dsimp only
  rw [hround]
  dsimp only
  rw [hreceive]
  exact flushRounds_of_known rfl

end OneRound

/-! ## The run of a flush -/

theorem batch_failedRound (s : OpenSession) (pending : List Pending) (batch : List Asked)
    (e : Asked → Error) (halt : Option Halt) (arrived : OpenSession) :
    (s.failedRound pending batch e halt arrived).batch = batch :=
  (List.map_map ..).trans (List.map_id batch)

theorem batch_answeredRound (s : OpenSession) (pending : List Pending) {batch : List Asked}
    {responses : List SubResponse} (arrived : OpenSession)
    (hlength : responses.length = batch.length) :
    (s.answeredRound pending batch responses arrived).batch = batch :=
  arrived.map_fst_receipts hlength

/-- A round in which every read fails delivers to all of its reads. -/
theorem handles_failedRound {batch : List Asked} {s₁ : OpenSession} {pending : List Pending}
    (hprepare : s.prepareAll pending = (batch, s₁)) (e : Asked → Error) (halt : Option Halt)
    (arrived : OpenSession) :
    ((s.failedRound pending batch e halt arrived).delivered.map Prod.fst).Perm
      (pending.map Pending.handle) := by
  have hprepared := (s.prepareAll_delivers pending).2
  rw [hprepare] at hprepared
  have hfailed : (Round.given (batch.map (fun asked => (asked, some (.error (e asked)))))).map
      Prod.fst = batch.map (·.pending.handle) := by
    unfold Round.given
    rw [List.filterMap_map, List.map_filterMap, ← List.filterMap_eq_map]
    rfl
  refine List.Perm.symm (hprepared.trans ?_)
  unfold Round.delivered failedRound
  rw [List.map_append, hfailed]

/-- A round with responses delivers to those of its reads that are not in the next round. -/
theorem handles_answeredRound {batch : List Asked} {s₁ s₂ s₃ : OpenSession}
    {pending again : List Pending} {responses : List SubResponse}
    (hprepare : s.prepareAll pending = (batch, s₁))
    (hround : s₁.sendRound batch = (.ok responses, s₂))
    (hreceive : s₂.receiveAll batch responses = (again, s₃)) :
    (pending.map Pending.handle).Perm
      ((s.answeredRound pending batch responses s₂).delivered.map Prod.fst
        ++ again.map Pending.handle) := by
  have hprepared := (s.prepareAll_delivers pending).2
  rw [hprepare] at hprepared
  have hreceived := Round.handles_perm (s₂.receipts batch responses)
  rw [← (s₂.receiveAll_delivers batch responses).2, hreceive] at hreceived
  have hbatch : batch.map (·.pending.handle)
      = (s₂.receipts batch responses).map (·.1.pending.handle) := by
    conv_lhs => rw [← s₂.map_fst_receipts ((sendRound_sends hround).2 _ rfl), List.map_map]
    rfl
  refine hprepared.trans ?_
  unfold Round.delivered answeredRound
  rw [List.map_append, List.append_assoc, hbatch]
  exact hreceived.append_left _

/-- A run through rounds that sends at most so many multi-gets. -/
inductive Flushes : Nat → OpenSession → List Pending → List Round → Except Halt Unit →
    OpenSession → Prop where
  /-- `prepare` answers all reads, or no multi-get is left. -/
  | ends {n : Nat} {s s₁ : OpenSession} {pending : List Pending} {batch : List Asked}
    (hprepare : s.prepareAll pending = (batch, s₁)) :
    Flushes n s pending
      [s.failedRound pending batch (fun asked => gaveUp asked.pending.read) none s₁] (.ok ())
      (s₁.giveUp batch)
  /-- The multi-get fails. -/
  | halts {n : Nat} {s s₁ s₂ : OpenSession} {pending : List Pending} {batch : List Asked}
    {h : Halt} (hprepare : s.prepareAll pending = (batch, s₁))
    (hround : s₁.sendRound batch = (.error h, s₂)) :
    Flushes (n + 1) s pending [s.failedRound pending batch (fun _ => errorOf h) (some h) s₂]
      (.error h) (s₂.failAll (errorOf h) batch)
  /-- The multi-get is answered, and the reads to be sent again are those of the next round. -/
  | goesOn {n : Nat} {s s₁ s₂ s₃ s' : OpenSession} {pending : List Pending} {batch : List Asked}
    {responses : List SubResponse} {again : List Pending} {rounds : List Round}
    {answer : Except Halt Unit} (hprepare : s.prepareAll pending = (batch, s₁))
    (hround : s₁.sendRound batch = (.ok responses, s₂))
    (hreceive : s₂.receiveAll batch responses = (again, s₃))
    (others : Flushes n s₃ again rounds answer s') :
    Flushes (n + 1) s pending (s.answeredRound pending batch responses s₂ :: rounds) answer s'

theorem flushes_roundsOf (n : Nat) (s : OpenSession) (pending : List Pending) :
    Flushes n s pending (roundsOf n s pending) (flushRounds n s pending).1
      (flushRounds n s pending).2 := by
  induction n generalizing s pending with
  | zero =>
    rw [roundsOf, flushRounds]
    rcases hprepare : s.prepareAll pending with ⟨_ | ⟨asked, batch⟩, s₁⟩
    · exact .ends hprepare
    · exact .ends hprepare
  | succ n ih =>
    rw [roundsOf, flushRounds]
    rcases hprepare : s.prepareAll pending with ⟨_ | ⟨asked, batch⟩, s₁⟩
    · exact .ends hprepare
    · dsimp only
      rcases hround : s₁.sendRound (asked :: batch) with ⟨h | responses, s₂⟩
      · exact .halts hprepare hround
      · exact .goesOn hprepare hround rfl (ih _ _)

namespace Flushes

variable {n : Nat} {pending : List Pending} {rounds : List Round} {answer : Except Halt Unit}

/-- A flush delivers the values of its rounds, and sends at most one multi-get for each round with a
`reply`. -/
theorem delivers (h : Flushes n s pending rounds answer s') :
    ∃ sent, s.Delivers (rounds.flatMap Round.delivered) sent s'
      ∧ sent.Sublist ((rounds.filter (·.reply.isSome)).map
          (fun round => s.session.options.scope (Round.request round.batch))) := by
  induction h with
  | @ends n s s₁ pending batch hprepare =>
    have hprepared := (s.prepareAll_delivers pending).1
    rw [hprepare] at hprepared
    have hall := hprepared.trans (s₁.giveUp_delivers batch)
    rw [List.flatMap_singleton]
    exact ⟨[], hall, List.nil_sublist _⟩
  | @halts n s s₁ s₂ pending batch h hprepare hround =>
    have hprepared := (s.prepareAll_delivers pending).1
    rw [hprepare] at hprepared
    obtain ⟨⟨sent, hsends, hsent⟩, -⟩ := sendRound_sends hround
    have hall := (hprepared.trans hsends).trans (s₂.failAll_delivers (errorOf h) batch)
    rw [List.append_nil, List.append_nil, List.nil_append] at hall
    rw [hprepared.options] at hsent
    rw [List.flatMap_singleton]
    refine ⟨sent, hall, ?_⟩
    rw [List.filter_cons_of_pos rfl, List.filter_nil, List.map_singleton, batch_failedRound]
    exact hsent
  | @goesOn n s s₁ s₂ s₃ s' pending batch responses again rounds answer hprepare hround hreceive
      others ih =>
    have hprepared := (s.prepareAll_delivers pending).1
    rw [hprepare] at hprepared
    obtain ⟨⟨sent, hsends, hsent⟩, hlength⟩ := sendRound_sends hround
    have hreceived := (s₂.receiveAll_delivers batch responses).1
    rw [hreceive] at hreceived
    obtain ⟨sent', hothers, hsent'⟩ := ih
    have hround := (hprepared.trans hsends).trans hreceived
    rw [List.append_nil, List.append_nil, List.nil_append] at hround
    rw [hprepared.options] at hsent
    rw [hround.options] at hsent'
    refine ⟨sent ++ sent', hround.trans hothers, ?_⟩
    rw [List.filter_cons_of_pos rfl, List.map_cons, batch_answeredRound s pending s₂
      (hlength responses rfl)]
    exact hsent.append hsent'

/-- Every read is delivered exactly one value. -/
theorem handles_perm (h : Flushes n s pending rounds answer s') :
    ((rounds.flatMap Round.delivered).map Prod.fst).Perm (pending.map Pending.handle) := by
  induction h with
  | ends hprepare =>
    rw [List.flatMap_singleton]
    exact handles_failedRound hprepare _ _ _
  | halts hprepare _ =>
    rw [List.flatMap_singleton]
    exact handles_failedRound hprepare _ _ _
  | goesOn hprepare hround hreceive _ ih =>
    have hhandles := handles_answeredRound hprepare hround hreceive
    rw [List.flatMap_cons, List.map_append]
    exact (ih.append_left _).trans hhandles.symm

/-- The reads of each round are among those of the first. -/
theorem pending_subset (h : Flushes n s pending rounds answer s') :
    ∀ round ∈ rounds, round.pending.map Pending.handle ⊆ pending.map Pending.handle := by
  induction h with
  | ends hprepare => exact List.forall_mem_singleton.mpr (List.Subset.refl _)
  | halts hprepare _ => exact List.forall_mem_singleton.mpr (List.Subset.refl _)
  | goesOn hprepare hround hreceive _ ih =>
    have hhandles := handles_answeredRound hprepare hround hreceive
    refine List.forall_mem_cons.mpr ⟨List.Subset.refl _, ?_⟩
    intro round hmem
    have hagain := List.Subset.trans (List.subset_append_right _ _) hhandles.symm.subset
    exact List.Subset.trans (ih round hmem) hagain

/-- A read that a round delivers to is in no later round. -/
theorem resolved (h : Flushes n s pending rounds answer s')
    (hdistinct : (pending.map Pending.handle).Nodup) :
    rounds.Pairwise (fun earlier later => ∀ delivery ∈ earlier.delivered,
      delivery.1 ∉ later.pending.map Pending.handle) := by
  induction h with
  | ends => exact List.pairwise_singleton ..
  | halts => exact List.pairwise_singleton ..
  | goesOn hprepare hround hreceive others ih =>
    have hhandles := handles_answeredRound hprepare hround hreceive
    obtain ⟨-, hagain, hapart⟩ := List.nodup_append.mp (hhandles.nodup_iff.mp hdistinct)
    refine List.pairwise_cons.mpr ⟨?_, ih hagain⟩
    intro later hlater delivery hdelivery hmem
    exact hapart _ (List.mem_map_of_mem hdelivery) _ (others.pending_subset later hlater hmem) rfl

/-- A flush fails if and only if the multi-get of one of its rounds fails. -/
theorem halted_iff (h : Flushes n s pending rounds answer s') (halt : Halt) :
    answer = .error halt ↔ ∃ round ∈ rounds, round.reply = some (.error halt) := by
  induction h with
  | ends hprepare => simp [failedRound]
  | halts hprepare hround => simp [failedRound]
  | goesOn hprepare hround hreceive others ih => simp [answeredRound, ih]

/-- At most `n` rounds send a multi-get. -/
theorem length_asked_le (h : Flushes n s pending rounds answer s') :
    (rounds.filter (·.reply.isSome)).length ≤ n := by
  induction h with
  | ends hprepare => simp [failedRound]
  | halts hprepare hround => simp [failedRound]
  | goesOn hprepare hround hreceive others ih =>
    rw [List.filter_cons_of_pos rfl, List.length_cons]
    exact Nat.succ_le_succ ih

/-- Every value of every round has its source. -/
theorem accounted (h : Flushes n s pending rounds answer s') :
    ∀ round ∈ rounds, round.Accounted := by
  induction h with
  | ends hprepare =>
    refine List.forall_mem_singleton.mpr ⟨fun _ => mem_known _, ?_, ?_, ?_, ?_⟩
    · rw [batch_failedRound, failedRound, hprepare]
    · intro responses hreply
      cases hreply
    · intro halt hreply
      cases hreply
    · intro _ receipt hmem
      obtain ⟨asked, -, rfl⟩ := List.mem_map.mp hmem
      rfl
  | halts hprepare hround =>
    refine List.forall_mem_singleton.mpr ⟨fun _ => mem_known _, ?_, ?_, ?_, ?_⟩
    · rw [batch_failedRound, failedRound, hprepare]
    · intro responses hreply
      cases hreply
    · intro halt hreply receipt hmem
      obtain ⟨asked, -, rfl⟩ := List.mem_map.mp hmem
      cases hreply
      rfl
    · intro hreply
      cases hreply
  | @goesOn n s s₁ s₂ s₃ s' pending batch responses again rounds answer hprepare hround hreceive
      others ih =>
    have hlength := (sendRound_sends hround).2 responses rfl
    have hbatch := s.batch_answeredRound pending s₂ hlength
    refine List.forall_mem_cons.mpr ⟨⟨fun _ => mem_known _, ?_, ?_, ?_, ?_⟩, ih⟩
    · rw [hbatch, answeredRound, hprepare]
    · intro responses' hreply
      obtain rfl := Except.ok.inj (Option.some.inj hreply)
      rw [hbatch]
      exact ⟨hlength, fun i asked r hasked hr => s₂.receipts_getElem? hasked hr⟩
    · intro halt hreply
      cases hreply
    · intro hreply
      cases hreply

/-- The first round has all reads, and each next round those that are sent again. -/
theorem retried (h : Flushes n s pending rounds answer s') :
    rounds.head?.map Round.pending = some pending
      ∧ rounds.IsChain (fun round next => next.pending = Round.again round.receipts) := by
  induction h with
  | ends => exact ⟨rfl, .singleton _⟩
  | halts => exact ⟨rfl, .singleton _⟩
  | @goesOn n s s₁ s₂ s₃ s' pending batch responses again rounds answer hprepare hround hreceive
      others ih =>
    obtain ⟨hfirst, hchain⟩ := ih
    refine ⟨rfl, ?_⟩
    cases rounds with
    | nil => cases hfirst
    | cons next rounds =>
      refine hchain.cons_cons ?_
      have hagain := (s₂.receiveAll_delivers batch responses).2
      rw [hreceive] at hagain
      exact (Option.some.inj hfirst).trans hagain

end Flushes

end OpenSession

end DocumentSession
