import DocumentSession.Proofs.Query.Building

set_option autoImplicit false

/-! # Calls for different parts of a query

Every call but `raw` is for one `Part` of the query: it reads and changes this part alone, whatever
the others are (`call_fuse`). So what becomes of a part, and which of its calls are refused, depends
on the calls for it and on their order, but not on how the calls for other parts stand between them
(`parts_commute`). -/

namespace DocumentSession.Query

/-! ## Parts -/

/-- The part of a query that a call is for. -/
inductive Part where
  | source
  /-- The where clause, with the parameters that its conditions use. -/
  | conditions
  | grouping
  | order
  | loads
  | projections
  | declarations
  | includes
  /-- The paging, and the flags for sending. -/
  | sending
  /-- The text as a whole. -/
  | whole
  deriving DecidableEq

/-- The part that a call is for. -/
def Call.part : Call → Part
  | .nameSource _ => .source
  | .raw _ => .whole
  | .parameter .. | .compare .. | .oneOf .. | .allOf .. | .between .. | .textMatch .. | .search ..
  | .present _ | .always | .withinRadius .. | .relatesTo .. | .boost _ | .fuzzy _ | .proximity _
  | .openGroup | .closeGroup | .connective _ | .negateNext | .usualConnective _ => .conditions
  | .orderBy .. | .orderByScore _ | .orderRandomly _ => .order
  | .select _ | .selectAs .. | .distinct | .groupKey .. | .groupSum .. | .groupCount _ =>
    .projections
  | .declare .. => .declarations
  | .load .. => .loads
  | .includePath _ => .includes
  | .groupBy _ => .grouping
  | .skip _ | .take _ | .waitForNonStaleResults | .noTracking | .noCaching
  | .skipDuplicateChecking => .sending

/-- The query `q` with the given part of `p`. -/
def Part.fuse (q p : Query) : Part → Query
  | .source => { q with source := p.source }
  | .conditions =>
    { q with
      tokens := p.tokens, parameters := p.parameters, connective := p.connective
      negated := p.negated, depth := p.depth }
  | .grouping => { q with groups := p.groups }
  | .order => { q with orderings := p.orderings }
  | .loads => { q with loads := p.loads }
  | .projections => { q with projections := p.projections }
  | .declarations => { q with declarations := p.declarations }
  | .includes => { q with includes := p.includes }
  | .sending =>
    { q with
      start := p.start, pageSize := p.pageSize, waitForNonStaleResults := p.waitForNonStaleResults
      noTracking := p.noTracking, noCaching := p.noCaching
      skipDuplicateChecking := p.skipDuplicateChecking }
  | .whole => p

/-! ## One call -/

/-- A step, and the same step on a query whose other parts are those of `q`. -/
inductive SameStep (s : Part) (q : Query) : Except Error Query → Except Error Query → Prop where
  | error (e : Error) : SameStep s q (.error e) (.error e)
  | ok (p : Query) : SameStep s q (.ok p) (.ok (s.fuse q p))

namespace SameStep

variable {s : Part} {q : Query}

theorem bind {α : Type} (x : Except Error α) {f f' : α → Except Error Query}
    (h : ∀ a, SameStep s q (f a) (f' a)) : SameStep s q (x >>= f) (x >>= f') := by
  cases x with
  | error e => exact .error e
  | ok a => exact h a

theorem map {α : Type} (x : Except Error α) (p : Query) :
    SameStep s q (x.map fun _ => p) (x.map fun _ => s.fuse q p) := by
  cases x with
  | error e => exact .error e
  | ok a => exact .ok p

theorem ite {b : Prop} [Decidable b] {r₁ r₁' r₂ r₂' : Except Error Query}
    (h₁ : SameStep s q r₁ r₁') (h₂ : SameStep s q r₂ r₂') :
    SameStep s q (if b then r₁ else r₂) (if b then r₁' else r₂') := by
  split
  · exact h₁
  · exact h₂

end SameStep

/-- Outcomes of calls with the same error, if any, and queries of which the second is the first up
to the other parts, which are those of `q`. -/
structure SameCall (s : Part) (q : Query) (o o' : Option Error × Query) : Prop where
  error : o'.1 = o.1
  query : o'.2 = s.fuse q o.2

namespace SameCall

variable {s : Part} {q p : Query}

theorem attempt {r r' : Except Error Query} (h : SameStep s q r r') :
    SameCall s q (p.attempt r) ((s.fuse q p).attempt r') := by
  cases h with
  | error e => exact ⟨rfl, rfl⟩
  | ok p' => exact ⟨rfl, rfl⟩

/-- Whether `pushBetween` is refused with one value bound depends on the values only. -/
theorem pushBetween (hraw : p.raw = q.raw) (hidentity : p.identityProperty = q.identityProperty)
    (field : String) (low high : Literal) :
    SameCall .conditions q (p.pushBetween field low high)
      ((Part.conditions.fuse q p).pushBetween field low high) := by
  have hguard : (Part.conditions.fuse q p).refuseRaw = p.refuseRaw := by
    unfold refuseRaw isRaw
    rw [hraw]
    rfl
  unfold Query.pushBetween
  rw [hguard]
  cases p.refuseRaw with
  | error e => exact ⟨rfl, rfl⟩
  | ok u =>
    cases low with
    | unwritable => exact ⟨rfl, rfl⟩
    | json lowValue =>
      cases high with
      | unwritable => exact ⟨rfl, rfl⟩
      | json highValue =>
        cases p
        dsimp only at hidentity
        subst hidentity
        exact ⟨rfl, rfl⟩

end SameCall

/-- A call does to a part what it does to it in another query under the same conventions, and keeps
the other parts. -/
theorem call_fuse {q p : Query} (hraw : p.raw = q.raw)
    (hidentity : p.identityProperty = q.identityProperty) (c : Call) :
    SameCall c.part q (p.call c) ((c.part.fuse q p).call c) := by
  cases p
  dsimp only at hraw hidentity
  subst hraw hidentity
  cases c with
  | raw => exact ⟨rfl, rfl⟩
  | skip | take | waitForNonStaleResults | noTracking | noCaching | skipDuplicateChecking =>
    exact ⟨rfl, rfl⟩
  | orderBy | orderByScore | orderRandomly | select | selectAs | declare | groupKey | groupSum
  | groupCount =>
    exact .attempt (.bind q.refuseRaw fun _ => .ok _)
  | nameSource name | load _ name =>
    exact .attempt (.bind q.refuseRaw fun _ => .bind (refuseName name) fun _ => .ok _)
  | distinct | groupBy | closeGroup | usualConnective =>
    exact .attempt (.bind q.refuseRaw fun _ => .ite (.error _) (.ok _))
  | includePath =>
    exact .attempt (.bind q.refuseRaw fun _ => .ite (.ok _) (.ok _))
  | present | always | withinRadius | relatesTo | openGroup | negateNext =>
    exact .attempt (.map q.refuseRaw _)
  | compare | textMatch | search =>
    exact .attempt (.bind q.refuseRaw fun _ => .bind (Literal.toJson _) fun _ => .ok _)
  | oneOf _ values | allOf _ values =>
    exact .attempt (.bind (arrayOf values) fun _ =>
      .bind q.refuseRaw fun _ => .bind (Literal.toJson _) fun _ => .ok _)
  | boost =>
    exact .attempt (.ite (.error _) (.bind (lastCondition _ "boost") fun _ => .ite (.ok _) (.ok _)))
  | fuzzy =>
    exact .attempt (.ite (.error _) (.bind (lastCondition _ "fuzzy") fun _ => .ok _))
  | proximity =>
    refine .attempt (.ite (.error _) (.bind (lastCondition _ "proximity") fun ⟨before, last⟩ => ?_))
    dsimp only
    cases last.demand with
    | search => exact .ok _
    | _ => exact .error _
  | connective =>
    refine .attempt (.bind q.refuseRaw fun _ => ?_)
    dsimp only [Call.part, Part.fuse]
    split
    · exact .ok _
    · exact .error _
    · exact .error _
    · exact .error _
    · exact .ok _
  | parameter name value =>
    exact .attempt (.ite (.error _) (.ite (.error _) (.bind value.toJson fun _ => .ok _)))
  | between field low high => exact .pushBetween (by rfl) (by rfl) field low high

/-! ## Queries with a part in common -/

theorem raw_fuse {s : Part} (hs : s ≠ .whole) (q p : Query) : (s.fuse q p).raw = q.raw := by
  cases s with
  | whole => exact absurd rfl hs
  | _ => rfl

theorem identityProperty_fuse {s : Part} (hs : s ≠ .whole) (q p : Query) :
    (s.fuse q p).identityProperty = q.identityProperty := by
  cases s with
  | whole => exact absurd rfl hs
  | _ => rfl

theorem fuse_self (s : Part) (q : Query) : s.fuse q q = q := by
  cases s <;> rfl

theorem fuse_fuse (s : Part) (q p : Query) : s.fuse (s.fuse q p) p = s.fuse q p := by
  cases s <;> rfl

theorem fuse_fuse_right (s : Part) (q q' p : Query) : s.fuse q (s.fuse q' p) = s.fuse q p := by
  cases s <;> rfl

/-- Different parts do not overlap. -/
theorem fuse_comm {s t : Part} (hne : s ≠ t) (hs : s ≠ .whole) (ht : t ≠ .whole)
    (q p p' : Query) : s.fuse (t.fuse q p') p = t.fuse (s.fuse q p) p' := by
  cases s <;> cases t <;> first | rfl | exact absurd rfl ‹_›

/-- A call changes nothing but its part. -/
theorem call_eq_fuse (q : Query) (c : Call) : (q.call c).2 = c.part.fuse q (q.call c).2 := by
  have hcall := (call_fuse (q := q) (p := q) rfl rfl c).query
  rwa [fuse_self] at hcall

/-- Two queries under the same conventions that have a part in common. -/
structure SameIn (s : Part) (q p : Query) : Prop where
  raw : p.raw = q.raw
  identityProperty : p.identityProperty = q.identityProperty
  part : s.fuse q p = q

namespace SameIn

variable {s : Part} {q p : Query}

theorem refl (s : Part) (q : Query) : SameIn s q q :=
  ⟨rfl, rfl, fuse_self s q⟩

/-- A call for the part is refused in both queries or in none, and leaves the part in common. -/
theorem call (h : SameIn s q p) {c : Call} (hc : c.part = s) (hs : s ≠ .whole) :
    (p.call c).1 = (q.call c).1 ∧ SameIn s (q.call c).2 (p.call c).2 := by
  subst hc
  have hcall := call_fuse h.raw h.identityProperty c
  rw [h.part] at hcall
  have hp := call_eq_fuse p c
  refine ⟨hcall.error.symm, ?_, ?_, ?_⟩
  · rw [hcall.query, hp, raw_fuse hs, raw_fuse hs, h.raw]
  · rw [hcall.query, hp, identityProperty_fuse hs, identityProperty_fuse hs, h.identityProperty]
  · rw [hcall.query, fuse_fuse]

/-- A call for another part makes no difference. -/
theorem call_other (h : SameIn s q p) {c : Call} (hc : c.part ≠ s) (hs : s ≠ .whole)
    (hwhole : c.part ≠ .whole) : SameIn s (q.call c).2 p := by
  have hq := call_eq_fuse q c
  refine ⟨?_, ?_, ?_⟩
  · rw [hq, raw_fuse hwhole, h.raw]
  · rw [hq, identityProperty_fuse hwhole, h.identityProperty]
  · rw [hq, fuse_comm (Ne.symm hc) hs hwhole, h.part]

end SameIn

/-- Two queries are the same if they have every part in common with some query, which may depend on
the part. -/
theorem eq_of_sameIn {q q' : Query}
    (h : ∀ s, s ≠ .whole → ∃ p, SameIn s q p ∧ SameIn s q' p) : q = q' := by
  obtain ⟨p, hq, hq'⟩ := h .source nofun
  have hraw : q'.raw = q.raw := hq'.raw.symm.trans hq.raw
  have hidentity : q'.identityProperty = q.identityProperty :=
    hq'.identityProperty.symm.trans hq.identityProperty
  have hpart (s : Part) (hs : s ≠ .whole) : s.fuse q q' = q := by
    obtain ⟨p, hq, hq'⟩ := h s hs
    rw [← hq'.part, fuse_fuse_right, hq.part]
  -- all parts of the second query go into the first one, which stays the same
  have hall : Part.fuse (Part.fuse (Part.fuse (Part.fuse (Part.fuse (Part.fuse (Part.fuse (Part.fuse
      (Part.fuse q q' .source) q' .conditions) q' .grouping) q' .order) q' .loads) q' .projections)
      q' .declarations) q' .includes) q' .sending = q := by
    simp only [hpart, ne_eq, reduceCtorEq, not_false_eq_true]
  simp only [Part.fuse] at hall
  rw [← hall, ← hraw, ← hidentity]

/-! ## Many calls -/

theorem callAll_cons_iff {q q' : Query} {c : Call} {rest : List Call} :
    q.callAll (c :: rest) = (none, q')
      ↔ (q.call c).1 = none ∧ (q.call c).2.callAll rest = (none, q') := by
  rw [callAll]
  rcases hcall : q.call c with ⟨_ | e, q₁⟩ <;> simp

/-- The calls for a part alone do to the part what all calls do to it. -/
theorem callAll_filter {s : Part} (hs : s ≠ .whole) {q p q' : Query} (h : SameIn s q p)
    {calls : List Call} (hwhole : ∀ c ∈ calls, c.part ≠ .whole)
    (hcalls : q.callAll calls = (none, q')) :
    ∃ p', p.callAll (calls.filter (·.part = s)) = (none, p') ∧ SameIn s q' p' := by
  induction calls generalizing q p with
  | nil =>
    obtain rfl : q = q' := congrArg Prod.snd hcalls
    exact ⟨p, rfl, h⟩
  | cons c rest ih =>
    obtain ⟨hmade, hrest⟩ := callAll_cons_iff.mp hcalls
    have hwhole' := fun c' hc' => hwhole c' (List.mem_cons_of_mem c hc')
    by_cases hc : c.part = s
    · obtain ⟨hsame, hpart⟩ := h.call hc hs
      obtain ⟨p', hp', hpart'⟩ := ih hpart hwhole' hrest
      rw [List.filter_cons_of_pos (by simp [hc])]
      exact ⟨p', callAll_cons_iff.mpr ⟨hsame.trans hmade, hp'⟩, hpart'⟩
    · rw [List.filter_cons_of_neg (by simp [hc])]
      exact ih (h.call_other hc hs (hwhole c (List.mem_cons_self ..))) hwhole' hrest

/-- Calls are accepted if for every part the calls for it alone are. -/
theorem exists_callAll_of_parts {q : Query} {calls : List Call}
    (hwhole : ∀ c ∈ calls, c.part ≠ .whole)
    (h : ∀ s, s ≠ .whole →
      ∃ p p', SameIn s q p ∧ p.callAll (calls.filter (·.part = s)) = (none, p')) :
    ∃ q', q.callAll calls = (none, q') := by
  induction calls generalizing q with
  | nil => exact ⟨q, rfl⟩
  | cons c rest ih =>
    have hc := hwhole c (List.mem_cons_self ..)
    obtain ⟨p, p', hpart, hcalls⟩ := h c.part hc
    rw [List.filter_cons_of_pos (by simp)] at hcalls
    obtain ⟨hmade, hrest⟩ := callAll_cons_iff.mp hcalls
    obtain ⟨hsame, hpart'⟩ := hpart.call rfl hc
    obtain ⟨q', hq'⟩ := ih (q := (q.call c).2)
      (fun c' hc' => hwhole c' (List.mem_cons_of_mem c hc')) (by
        intro s hs
        by_cases hcs : c.part = s
        · subst hcs
          exact ⟨_, p', hpart', hrest⟩
        · obtain ⟨p₁, p₁', hpart₁, hcalls₁⟩ := h s hs
          rw [List.filter_cons_of_neg (by simp [hcs])] at hcalls₁
          exact ⟨p₁, p₁', hpart₁.call_other hcs hs hc, hcalls₁⟩)
    exact ⟨q', callAll_cons_iff.mpr ⟨hsame.symm.trans hmade, hq'⟩⟩

/-- Calls that go through on a new query, none of which gives a raw text, may be put into any order
that keeps the calls for each part in their order: they go through and give the same query, and so
the same text or the same reason for none, the same parameters, the same frozen query and the same
hash. -/
theorem parts_commute (conventions : Conventions) (source : Source) {calls calls' : List Call}
    (hraw : ∀ c ∈ calls, c.part ≠ .whole)
    (hsame : ∀ s : Part, calls'.filter (·.part = s) = calls.filter (·.part = s)) {q : Query}
    (hmade : (new conventions source).callAll calls = (none, q)) :
    (new conventions source).callAll calls' = (none, q) := by
  have hraw' : ∀ c ∈ calls', c.part ≠ .whole := by
    intro c hc hwhole
    have hmem : c ∈ calls'.filter (·.part = .whole) := List.mem_filter.mpr ⟨hc, by simp [hwhole]⟩
    rw [hsame .whole] at hmem
    exact hraw c (List.mem_of_mem_filter hmem) hwhole
  have hparts (s : Part) (hs : s ≠ .whole) :
      ∃ p', (new conventions source).callAll (calls'.filter (·.part = s)) = (none, p')
        ∧ SameIn s q p' := by
    rw [hsame s]
    exact callAll_filter hs (.refl s _) hraw hmade
  obtain ⟨q', hmade'⟩ := exists_callAll_of_parts hraw' fun s hs =>
    have ⟨p', hp', _⟩ := hparts s hs
    ⟨new conventions source, p', .refl s _, hp'⟩
  have heq : q' = q := by
    refine eq_of_sameIn fun s hs => ?_
    obtain ⟨p', hp', hpart⟩ := hparts s hs
    obtain ⟨p₁, hp₁, hpart₁⟩ := callAll_filter hs (.refl s _) hraw' hmade'
    obtain rfl : p₁ = p' := congrArg Prod.snd (hp₁.symm.trans hp')
    exact ⟨p₁, hpart₁, hpart⟩
  rw [hmade', heq]

/-- The calls for eight parts, first one part after the other and then by turns. -/
theorem parts_commute_by_turns :
    let calls : List Call :=
      [.nameSource "u", .usualConnective .or, .compare .equal "Name" (.json (.str "Ann")) false,
        .parameter "$p2" (.json (.int 7)), .openGroup, .search "Notes" "al" .and, .proximity 3,
        .closeGroup, .groupBy ["City"], .orderBy "id" true .string, .orderByScore false,
        .load "u.Company" "c", .groupKey none none, .distinct, .includePath "Company",
        .includePath "Boss", .skip 3, .take 5, .skip 4]
    let calls' : List Call :=
      [.skip 3, .groupKey none none, .orderBy "id" true .string, .usualConnective .or,
        .includePath "Company", .distinct, .take 5,
        .compare .equal "Name" (.json (.str "Ann")) false, .load "u.Company" "c",
        .parameter "$p2" (.json (.int 7)), .groupBy ["City"], .openGroup, .skip 4,
        .search "Notes" "al" .and, .includePath "Boss", .proximity 3, .nameSource "u", .closeGroup,
        .orderByScore false]
    let q := (new {} (.collection "Users")).build calls
    (new {} (.collection "Users")).callAll calls = (none, q)
      ∧ (new {} (.collection "Users")).callAll calls' = (none, q)
      ∧ q.text = .ok ("from Users as u group by City where Name = $p0"
          ++ " or (proximity(search(Notes, $p3, and), 3)) order by id() desc, score()"
          ++ " load u.Company as c select distinct key() include Company,Boss") := by
  intro calls calls' q
  have hmade : (new {} (.collection "Users")).callAll calls = (none, q) := rfl
  have hraw : ∀ c ∈ calls, c.part ≠ .whole := by decide +kernel
  have hsame : ∀ s : Part, calls'.filter (·.part = s) = calls.filter (·.part = s) := by
    intro s
    cases s <;> decide +kernel
  have hmade' := parts_commute {} (.collection "Users") hraw hsame hmade
  have htext : q.text = .ok ("from Users as u group by City where Name = $p0"
      ++ " or (proximity(search(Notes, $p3, and), 3)) order by id() desc, score()"
      ++ " load u.Company as c select distinct key() include Company,Boss") := by decide +kernel
  exact ⟨hmade, hmade', htext⟩

end DocumentSession.Query
