import DocumentSession.Proofs.Query.Reading

set_option autoImplicit false

/-! # Where clauses are unambiguous

`readNext` reads a clause one token after the other, and each token that it finds is the one that
was written (`readNext_writeAfter`). Two where clauses with the same text are therefore the same
(`written_clause_unambiguous`). -/

namespace DocumentSession.Query

/-! ## Clauses -/

/-- Read a token. -/
def readToken (cs : List Char) : Option (Token × List Char) :=
  match cs with
  | '(' :: rest => some (.openGroup, rest)
  | ')' :: rest => some (.closeGroup, rest)
  | cs =>
    let (name, rest) := splitName false cs
    let word := String.ofList name
    if word = "and" then some (.connective .and, rest)
    else if word = "or" then some (.connective .or, rest)
    else if word = "not" then some (.negation, rest)
    else if word = "true" then some (.always, rest)
    else do
      let (condition, rest) ← readCondition cs
      return (.condition condition, rest)

/-- Read the token behind another one. -/
def readNext (left : Token) (cs : List Char) : Option (Token × List Char) :=
  match left, cs with
  | .openGroup, cs => readToken cs
  | _, ' ' :: cs => readToken cs
  | _, cs => readToken cs

/-- The condition names parameters by words and has neither boost nor fuzziness. -/
def Unweighted : Token → Prop
  | .condition c =>
    c.boost = none ∧ c.fuzzy = none ∧ ∀ name ∈ c.demand.parameters, isWord name = true
  | _ => True

/-- The field of the condition, if the token is one, is readable. -/
def Token.hasReadableField : Token → Bool
  | .condition c => isReadable c.field
  | _ => true

/-- Tokens that can be read. -/
structure Legible (t : Token) : Prop where
  unweighted : Unweighted t
  field : t.hasReadableField = true

theorem readToken_condition {c : Condition} (h : Legible (.condition c)) (rest : List Char)
    (hrest : endsName rest = true) :
    readToken (c.write.toList ++ rest) = some (.condition c, rest) := by
  obtain ⟨hboost, hfuzzy, hnames⟩ := h.unweighted
  have hfield : isReadable c.field = true := h.field
  have hbegins := beginsCondition_write hfield hboost hfuzzy rest
  have hparenthesis := hbegins.ne_parenthesis
  obtain ⟨name, tail, hsplit, -, hkeyword, -⟩ := hbegins
  have hread := readCondition_write hfield hnames hboost hfuzzy rest hrest
  simp only [keywords, List.mem_cons, List.not_mem_nil, or_false, not_or] at hkeyword
  obtain ⟨hand, hor, hnot, htrue⟩ := hkeyword
  unfold readToken
  split
  · next heq => exact absurd heq (hparenthesis _).1
  · next heq => exact absurd heq (hparenthesis _).2
  · simp [hsplit, hread, hand, hor, hnot, htrue]

theorem readToken_write {t : Token} (h : Legible t) (rest : List Char)
    (hrest : t ≠ .openGroup → endsName rest = true) :
    readToken (t.write.toList ++ rest) = some (t, rest) := by
  have hkeyword (word : String) (hword : word ∈ keywords) (hrest : endsName rest = true) :
      splitName false (word.toList ++ rest) = (word.toList, rest) := by
    simp only [keywords, List.mem_cons, List.not_mem_nil, or_false] at hword
    rcases hword with rfl | rfl | rfl | rfl <;>
      exact @splitName_append true false _ (by decide) rest hrest
  cases t with
  | condition c => exact readToken_condition h rest (hrest nofun)
  | connective c =>
    cases c with
    | and =>
      have hsplit := hkeyword "and" (by decide) (hrest nofun)
      simp_all [Token.write, Connective.keyword, readToken]
    | or =>
      have hsplit := hkeyword "or" (by decide) (hrest nofun)
      simp_all [Token.write, Connective.keyword, readToken]
  | negation =>
    have hsplit := hkeyword "not" (by decide) (hrest nofun)
    simp_all [Token.write, readToken]
  | openGroup => simp [Token.write, readToken]
  | closeGroup => simp [Token.write, readToken]
  | always =>
    have hsplit := hkeyword "true" (by decide) (hrest nofun)
    simp_all [Token.write, readToken]

theorem readNext_gap (left : Token) {t : Token} (rest : List Char) :
    readNext left ((Token.gap left t ++ t.write).toList ++ rest)
      = readToken (t.write.toList ++ rest) := by
  unfold Token.gap
  split
  · next h =>
    rcases h with rfl | rfl
    · simp [readNext]
    · cases left <;> simp [readNext, Token.write]
  · next h =>
    rw [not_or] at h
    cases left <;> simp_all [readNext]

theorem endsName_writeAfter {left : Token} (hleft : left ≠ .openGroup) (ts : List Token) :
    endsName (Token.writeAfter left ts).toList = true := by
  cases ts with
  | nil => rfl
  | cons t ts =>
    unfold Token.writeAfter Token.gap
    split
    · next h =>
      obtain rfl := h.resolve_left hleft
      simp only [Token.write, String.toList_append, List.append_assoc]
      rfl
    · simp only [String.toList_append, List.append_assoc]
      rfl

theorem readNext_writeAfter (left : Token) {t : Token} (h : Legible t) (ts : List Token) :
    readNext left (Token.writeAfter left (t :: ts)).toList
      = some (t, (Token.writeAfter t ts).toList) := by
  rw [Token.writeAfter, String.toList_append, readNext_gap,
    readToken_write h _ fun hne => endsName_writeAfter hne ts]

theorem eq_of_writeAfter_eq {ts us : List Token} (hts : ∀ t ∈ ts, Legible t)
    (hus : ∀ u ∈ us, Legible u) {left : Token}
    (h : Token.writeAfter left ts = Token.writeAfter left us) : ts = us := by
  induction ts generalizing left us with
  | nil =>
    cases us with
    | nil => rfl
    | cons u us =>
      have hread := readNext_writeAfter left (hus u (List.mem_cons_self ..)) us
      rw [← h] at hread
      cases left <;> cases hread
  | cons t ts ih =>
    have hread := readNext_writeAfter left (hts t (List.mem_cons_self ..)) ts
    cases us with
    | nil =>
      rw [h] at hread
      cases left <;> cases hread
    | cons u us =>
      rw [h, readNext_writeAfter left (hus u (List.mem_cons_self ..)) us] at hread
      obtain ⟨rfl, hrest⟩ := Prod.mk.inj (Option.some.inj hread)
      rw [ih (fun t ht => hts t (List.mem_cons_of_mem _ ht))
        (fun u hu => hus u (List.mem_cons_of_mem _ hu)) (String.toList_inj.mp hrest.symm)]

/-! ## The clauses of built queries -/

theorem IsOperand.unweighted {t : Token} (h : IsOperand t) : Unweighted t := by
  cases h with
  | always => trivial
  | condition names => exact ⟨rfl, rfl, names⟩

/-- The tokens in front of an operand are those so far, connectives, a negation and its guard. -/
theorem mem_prepared {q : Query} {field : Option String} {t : Token}
    (ht : t ∈ q.prepared field) :
    t ∈ q.tokens ∨ (∃ c, t = .connective c) ∨ t = .negation ∨ t = negationGuard field := by
  have hjoined : t ∈ q.joined → t ∈ q.tokens ∨ ∃ c, t = .connective c := by
    intro h
    unfold joined at h
    split at h
    · exact (List.mem_append.mp h).imp_right fun h => ⟨_, List.mem_singleton.mp h⟩
    · exact Or.inl h
  unfold prepared at ht
  dsimp only at ht
  grind

theorem unweighted_prepared {q : Query} (h : ∀ t ∈ q.tokens, Unweighted t)
    (field : Option String) : ∀ t ∈ q.prepared field, Unweighted t := by
  intro t ht
  rcases mem_prepared ht with ht | ⟨c, rfl⟩ | rfl | rfl
  · exact h t ht
  · trivial
  · trivial
  · cases field with
    | none => trivial
    | some field => exact ⟨rfl, rfl, nofun⟩

theorem unweighted_concat {ts : List Token} {t : Token} (hts : ∀ t ∈ ts, Unweighted t)
    (ht : Unweighted t) : ∀ u ∈ ts ++ [t], Unweighted u :=
  List.forall_mem_append.mpr ⟨hts, List.forall_mem_singleton.mpr ht⟩

theorem unweighted_step {c : Call} {q q' : Query} (hc : c.isWeight = false)
    (h : ∀ t ∈ q.tokens, Unweighted t) (hstep : ClauseStep c q q') :
    ∀ t ∈ q'.tokens, Unweighted t := by
  cases hstep with
  | kept tokens => rwa [tokens]
  | operand operand tokens =>
    rw [tokens]
    exact unweighted_concat (unweighted_prepared h _) operand.unweighted
  | opened tokens =>
    rw [tokens]
    exact unweighted_concat (unweighted_prepared h none) trivial
  | closed opened tokens =>
    rw [tokens]
    exact unweighted_concat h trivial
  | joined operand tokens =>
    rw [tokens]
    exact unweighted_concat h trivial
  | modified ends tokens field demand weight =>
    rw [ends, List.forall_mem_append, List.forall_mem_singleton] at h
    obtain ⟨hbefore, hlast⟩ := h
    obtain ⟨hboost, hfuzzy, hnames⟩ := hlast
    obtain ⟨boost, fuzzy⟩ := weight hc
    rw [tokens]
    exact unweighted_concat hbefore
      ⟨boost.trans hboost, fuzzy.trans hfuzzy, demand ▸ hnames⟩

theorem unweighted_build (conventions : Conventions) (source : Source) {calls : List Call}
    (h : ∀ c ∈ calls, c.isWeight = false) :
    ∀ t ∈ ((new conventions source).build calls).tokens, Unweighted t :=
  build_induction (P := fun q => ∀ t ∈ q.tokens, Unweighted t) (by simp [new])
    fun c hc q hq => unweighted_step (h c hc) hq (clauseStep_call c q)

theorem eq_of_writeAll_eq {ts us : List Token} (hts : ∀ t ∈ ts, Legible t)
    (hus : ∀ u ∈ us, Legible u) (h : Token.writeAll ts = Token.writeAll us) : ts = us := by
  -- the first token stands as it would behind an opening parenthesis
  have hopen (vs : List Token) : Token.writeAfter .openGroup vs = Token.writeAll vs := by
    cases vs <;> simp [Token.writeAfter, Token.writeAll, Token.gap]
  exact eq_of_writeAfter_eq hts hus (by rw [hopen, hopen, h])

/-- Clauses of built queries whose conditions are on readable fields, without boost and fuzziness,
are the same if their texts are. -/
theorem written_clause_unambiguous (conventions conventions' : Conventions)
    (source source' : Source) (calls calls' : List Call)
    (hcalls : ∀ c ∈ calls, c.isWeight = false) (hcalls' : ∀ c ∈ calls', c.isWeight = false)
    (hfields : ∀ t ∈ ((new conventions source).build calls).tokens, t.hasReadableField = true)
    (hfields' : ∀ t ∈ ((new conventions' source').build calls').tokens, t.hasReadableField = true)
    (h : Token.writeAll ((new conventions source).build calls).tokens
      = Token.writeAll ((new conventions' source').build calls').tokens) :
    ((new conventions source).build calls).tokens
      = ((new conventions' source').build calls').tokens := by
  have hlegible : ∀ t ∈ ((new conventions source).build calls).tokens, Legible t := fun t ht =>
    ⟨unweighted_build conventions source hcalls t ht, hfields t ht⟩
  have hlegible' : ∀ t ∈ ((new conventions' source').build calls').tokens, Legible t := fun t ht =>
    ⟨unweighted_build conventions' source' hcalls' t ht, hfields' t ht⟩
  exact eq_of_writeAll_eq hlegible hlegible' h

/-- Connectives and a guard that calls add by themselves, in places where others are given. -/
theorem written_clause_unambiguous_put_in :
    let q := (ofCollection {} "Users").build
      [.negateNext, .openGroup, .compare .greaterOrEqual "id" (.json (.str "a")) true,
        .search "tags[].'free text'" "al be" .and, .proximity 3, .closeGroup,
        .between "score()" (.json (.num (.int 1))) (.json (.num (.int 2))),
        .withinRadius "Place" (Binary64.ofNat 5) one one (some .miles)]
    let q' := (new { connective := .or } (.index "Users/ByName")).build
      [.always, .connective .and, .negateNext, .openGroup,
        .compare .greaterOrEqual "id()" (.json (.num (.int 7))) true,
        .connective .and, .search "tags[].'free text'" "" .and, .proximity 3, .closeGroup,
        .connective .or,
        .between "score()" (.json .null) (.json .null), .connective .and,
        .withinRadius "Place" one one one (some .miles)]
    Token.writeAll q.tokens = "true and not (exact(id() >= $p0)"
        ++ " and proximity(search(tags[].'free text', $p1, and), 3)) or score() between $p2 and $p3"
        ++ " and spatial.within(Place, spatial.circle($p4, $p5, $p6, 'Miles'))"
      ∧ q.tokens = q'.tokens := by
  intro q q'
  have htext : Token.writeAll q.tokens = "true and not (exact(id() >= $p0)"
        ++ " and proximity(search(tags[].'free text', $p1, and), 3)) or score() between $p2 and $p3"
        ++ " and spatial.within(Place, spatial.circle($p4, $p5, $p6, 'Miles'))" := by decide +kernel
  have htext' : Token.writeAll q.tokens = Token.writeAll q'.tokens := by decide +kernel
  refine ⟨htext, written_clause_unambiguous {} { connective := .or } (.collection "Users")
    (.index "Users/ByName") _ _ ?_ ?_ ?_ ?_ htext'⟩
  · decide +kernel
  · decide +kernel
  · decide +kernel
  · decide +kernel

end DocumentSession.Query
