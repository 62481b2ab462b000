import DocumentSession.Proofs.Query.Grammar
import Mathlib.Data.List.Chain

set_option autoImplicit false

/-! # Operators and groups under construction

After every call, whether or not the where clause is complete and whatever calls were refused
before, its tokens are `Placed`: each may stand where it does (`Token.mayStand`), no parenthesis
closes a group that is not open, and `depth` is the number of open groups. One token after the other
is put in its place (`placed_concat_iff`), also those that a call adds by itself
(`placed_prepared`).

What follows for operands, connectives and negations is `Disciplined`. The number of open groups
also follows from the calls, so a query is refused for open groups if and only if more groups were
opened than closed (`tokens_disciplined`). -/

namespace DocumentSession.Query

/-! ## Placed tokens -/

/-- Whether an operand begins with a token. -/
def Token.beginsOperand : Token → Bool
  | .condition _ | .openGroup | .always => true
  | _ => false

/-- `t` may stand behind `left`, or first. -/
def Token.mayStand (left : Option Token) : Token → Bool
  | .connective _ => left.any Token.endsOperand
  | .negation => left.any Token.isConnective
  | .condition _ | .openGroup | .always => left.all (!·.endsOperand)
  | .closeGroup => left.any (· ≠ .negation)

/-- Each of the tokens may stand where it does, and `n` groups are open. -/
structure Placed (n : Nat) (ts : List Token) : Prop where
  first : ∀ t, ts.head? = some t → t.mayStand none = true
  neighbours : ts.IsChain (fun left t => t.mayStand (some left) = true)
  opened : n + ts.count .closeGroup = ts.count .openGroup
  nested : ∀ us, us <+: ts → us.count .closeGroup ≤ us.count .openGroup

theorem placed_nil : Placed 0 [] := by
  refine ⟨by simp, .nil, rfl, ?_⟩
  intro us hus
  rw [List.prefix_nil.mp hus]
  exact Nat.le_refl _

/-- One more token in its place. -/
theorem placed_concat_iff {n : Nat} {ts : List Token} {t : Token} :
    Placed n (ts ++ [t])
      ↔ t.mayStand ts.getLast? = true
        ∧ ∃ k, Placed k ts ∧ n + [t].count .closeGroup = k + [t].count .openGroup := by
  constructor
  · intro h
    obtain ⟨hchain, -, hlast⟩ := List.isChain_append.mp h.neighbours
    have hnested := h.nested ts (List.prefix_append ..)
    have hopened := h.opened
    rw [List.count_append, List.count_append] at hopened
    refine ⟨?_, ts.count .openGroup - ts.count .closeGroup, ⟨?_, hchain, ?_, ?_⟩, ?_⟩
    · cases hts : ts.getLast? with
      | none =>
        rw [List.getLast?_eq_none_iff] at hts
        exact h.first t (by rw [hts]; rfl)
      | some left => exact hlast left hts t rfl
    · intro t' ht'
      exact h.first t' (by rw [List.head?_append, ht']; rfl)
    · omega
    · exact fun us hus => h.nested us (hus.trans (List.prefix_append ..))
    · omega
  · rintro ⟨hstands, k, h, hn⟩
    have hopened := h.opened
    have hwhole : n + (ts ++ [t]).count .closeGroup = (ts ++ [t]).count .openGroup := by
      rw [List.count_append, List.count_append]
      omega
    refine ⟨?_, ?_, hwhole, ?_⟩
    · intro t' ht'
      cases ts with
      | nil =>
        obtain rfl := Option.some.inj ht'
        exact hstands
      | cons first rest => exact h.first t' ht'
    · refine List.isChain_append.mpr ⟨h.neighbours, .singleton t, ?_⟩
      intro left hleft t' ht'
      obtain rfl := Option.some.inj ht'
      rwa [hleft] at hstands
    · intro us hus
      rcases List.prefix_concat_iff.mp hus with rfl | hus
      · omega
      · exact h.nested us hus

/-- A token that is no parenthesis. -/
theorem Placed.concat {n : Nat} {ts : List Token} (h : Placed n ts) {t : Token}
    (hstands : t.mayStand ts.getLast? = true)
    (hgroups : [t].count .closeGroup = [t].count .openGroup) : Placed n (ts ++ [t]) :=
  placed_concat_iff.mpr ⟨hstands, n, h, by rw [hgroups]⟩

/-! ## Tokens that a call adds by itself -/

/-- `joined` puts a connective behind the last operand. -/
theorem placed_joined {q : Query} (h : Placed q.depth q.tokens) :
    Placed q.depth q.joined
      ∧ (q.joined = q.tokens ∨ ∃ c, q.joined.getLast? = some (.connective c))
      ∧ ∀ t, q.joined.getLast? = some t → t.endsOperand = false := by
  unfold joined
  split
  · next hends =>
    refine ⟨h.concat hends rfl, Or.inr ⟨q.joining, List.getLast?_concat⟩, ?_⟩
    intro t ht
    rw [List.getLast?_concat] at ht
    obtain rfl := Option.some.inj ht
    rfl
  · next hends =>
    refine ⟨h, Or.inl rfl, ?_⟩
    intro t ht
    rw [ht, Option.any_some] at hends
    exact Bool.not_eq_true _ ▸ hends

/-- The tokens in front of a new operand are `Placed`, and the last one ends no operand. -/
theorem placed_prepared {q : Query} (h : Placed q.depth q.tokens)
    (hlast : q.tokens.getLast? ≠ some .negation) (field : Option String) :
    Placed q.depth (q.prepared field)
      ∧ ∀ t, (q.prepared field).getLast? = some t → t.endsOperand = false := by
  obtain ⟨hjoined, hsame, hends⟩ := placed_joined h
  unfold prepared
  dsimp only
  split
  · exact ⟨hjoined, hends⟩
  · refine ⟨?_, ?_⟩
    · split
      · next hstart =>
        -- at the beginning of a clause or group, the guard and its connective go first
        have hguard : Placed q.depth (q.joined ++ [negationGuard field]) := by
          refine hjoined.concat ?_ ?_
          · cases hj : q.joined.getLast? with
            | none => cases field <;> rfl
            | some t =>
              have ht := hends t hj
              cases field <;> simp [negationGuard, Token.mayStand, ht]
          · cases field <;> rfl
        have hconnective :
            Placed q.depth (q.joined ++ [negationGuard field] ++ [.connective .and]) :=
          hguard.concat (by cases field <;> simp [negationGuard, Token.mayStand, Token.endsOperand])
            rfl
        rw [List.append_assoc] at hconnective
        exact hconnective.concat (by simp [Token.mayStand, Token.isConnective]) rfl
      · next hstart =>
        refine hjoined.concat ?_ rfl
        -- neither an operand nor a negation is last, and a group is not just opened
        cases hj : q.joined.getLast? with
        | none =>
          rw [hj] at hstart
          exact absurd rfl hstart
        | some t =>
          have ht := hends t hj
          rw [hj] at hstart
          rcases hsame with hsame | ⟨c, hc⟩
          · rw [hsame] at hj
            cases t with
            | connective c => rfl
            | negation => exact absurd hj hlast
            | openGroup => exact absurd rfl hstart
            | condition | closeGroup | always => cases ht
          · rw [hj] at hc
            obtain rfl := Option.some.inj hc
            rfl
    · intro t ht
      rw [List.getLast?_concat] at ht
      obtain rfl := Option.some.inj ht
      rfl

/-! ## All calls -/

/-- What calls keep: the tokens are `Placed`, and the last one is no negation. -/
structure InPlace (q : Query) : Prop where
  placed : Placed q.depth q.tokens
  last : q.tokens.getLast? ≠ some .negation

theorem inPlace_new (conventions : Conventions) (source : Source) :
    InPlace (new conventions source) :=
  ⟨placed_nil, nofun⟩

theorem InPlace.step {c : Call} {q q' : Query} (h : InPlace q) (hstep : ClauseStep c q q') :
    InPlace q' := by
  have hoperand (field : Option String) {t : Token} (ht : t.beginsOperand = true) :
      t.mayStand (q.prepared field).getLast? = true := by
    obtain ⟨-, hends⟩ := placed_prepared h.placed h.last field
    have hnone : (q.prepared field).getLast?.all (!·.endsOperand) = true := by
      cases hlast : (q.prepared field).getLast? with
      | none => rfl
      | some left => simp [hends left hlast]
    cases t with
    | condition | openGroup | always => exact hnone
    | connective | negation | closeGroup => cases ht
  cases hstep with
  | kept tokens depth raw =>
    refine ⟨?_, ?_⟩
    · rw [tokens, depth]
      exact h.placed
    · rw [tokens]
      exact h.last
  | @operand field t operand tokens depth raw =>
    have hprepared := (placed_prepared h.placed h.last field).1
    rw [← depth] at hprepared
    refine ⟨?_, ?_⟩
    · rw [tokens]
      cases operand <;> exact hprepared.concat (hoperand field rfl) rfl
    · rw [tokens, List.getLast?_concat]
      cases operand <;> nofun
  | opened tokens depth raw =>
    have hprepared := (placed_prepared h.placed h.last none).1
    refine ⟨?_, ?_⟩
    · rw [tokens, depth]
      exact placed_concat_iff.mpr ⟨hoperand none rfl, q.depth, hprepared, rfl⟩
    · rw [tokens, List.getLast?_concat]
      nofun
  | closed opened tokens depth raw =>
    refine ⟨?_, ?_⟩
    · rw [tokens, depth]
      refine placed_concat_iff.mpr ⟨?_, q.depth, h.placed, Nat.sub_add_cancel ?_⟩
      · -- a group is open, so there is a last token
        cases hlast : q.tokens.getLast? with
        | none =>
          have hcount := h.placed.opened
          rw [List.getLast?_eq_none_iff.mp hlast] at hcount
          exact absurd hcount opened
        | some left =>
          have hleft : left ≠ .negation := fun heq => h.last (hlast.trans (congrArg some heq))
          simp [Token.mayStand, hleft]
      · exact Nat.one_le_iff_ne_zero.mpr opened
    · rw [tokens, List.getLast?_concat]
      nofun
  | joined operand tokens depth raw =>
    refine ⟨?_, ?_⟩
    · rw [tokens, depth]
      exact h.placed.concat operand rfl
    · rw [tokens, List.getLast?_concat]
      nofun
  | @modified before last last' ends tokens field demand weight depth raw =>
    have hplaced := h.placed
    rw [ends] at hplaced
    refine ⟨?_, ?_⟩
    · -- the place of a condition does not hang on what it says
      obtain ⟨hstands, hrest⟩ := placed_concat_iff.mp hplaced
      rw [tokens, depth]
      exact placed_concat_iff.mpr ⟨hstands, hrest⟩
    · rw [tokens, List.getLast?_concat]
      nofun

theorem inPlace_build (conventions : Conventions) (source : Source) (calls : List Call) :
    InPlace ((new conventions source).build calls) :=
  build_induction (inPlace_new conventions source) fun c _ q h => h.step (clauseStep_call c q)

/-! ## Groups that were opened and closed -/

/-- `openGroup` adds one to `depth`, and `closeGroup` takes one away. -/
theorem depth_call (q : Query) (c : Call) :
    (q.call c).2.depth + (q.accepted [c]).count .closeGroup
      = q.depth + (q.accepted [c]).count .openGroup := by
  by_cases hopen : c = .openGroup
  · subst hopen
    cases hraw : q.refuseRaw with
    | error e => simp [accepted, call, unlessRaw, attempt, hraw, Except.map]
    | ok u => simp [accepted, call, unlessRaw, attempt, hraw, Except.map, pushOperand]
  · by_cases hclose : c = .closeGroup
    · subst hclose
      cases hclosed : q.close with
      | error e => simp [accepted, call, attempt, hclosed]
      | ok q' =>
        obtain ⟨-, hq'⟩ := ok_of_refuseRaw_bind hclosed
        split at hq'
        · cases hq'
        · next hdepth =>
          obtain rfl := Except.ok.inj hq'
          simp [accepted, call, attempt, hclosed]
          omega
    · have hnone (g : Call) (hg : c ≠ g) : (q.accepted [c]).count g = 0 := by
        rcases hcall : q.call c with ⟨_ | e, q'⟩ <;> simp [accepted, hcall, hg]
      rw [hnone _ hopen, hnone _ hclose]
      cases clauseStep_call c q with
      | kept _ depth | operand _ _ depth | joined _ _ depth | modified _ _ _ _ _ depth =>
        exact depth
      | opened _ _ _ call => exact absurd call hopen
      | closed _ _ _ _ call => exact absurd call hclose

theorem depth_build (q : Query) (calls : List Call) :
    (q.build calls).depth + (q.accepted calls).count .closeGroup
      = q.depth + (q.accepted calls).count .openGroup := by
  induction calls generalizing q with
  | nil => rfl
  | cons c rest ih =>
    have hcall := depth_call q c
    have hrest := ih (q.call c).2
    rw [accepted_cons, List.count_append, List.count_append]
    show ((q.call c).2.build rest).depth + _ = _
    omega

/-- A query without raw text is refused for open groups if and only if `depth` is not 0. -/
theorem text_unbalanced_iff (q : Query) :
    (∃ message, q.text = .error (.query .unbalancedClause message))
      ↔ q.raw = none ∧ q.depth ≠ 0 := by
  unfold Query.text
  cases q.raw with
  | some raw => simp
  | none =>
    by_cases hdepth : q.depth = 0
    · cases q.negated <;> simp [hdepth, danglingNegation]
    · simp [hdepth, openGroups]

/-! ## Disciplined clauses -/

/-- Where operands, connectives, negations and parentheses stand. -/
structure Disciplined (ts : List Token) : Prop where
  /-- A clause begins with an operand. -/
  first : ∀ t, ts.head? = some t → t.beginsOperand = true
  /-- In front of a negation stands a connective, -/
  before_negation : ∀ t, [t, .negation] <:+: ts → t.isConnective = true
  /-- and behind it the operand that is negated, -/
  after_negation : ∀ t, [.negation, t] <:+: ts → t.beginsOperand = true
  /-- which is never missing. -/
  last : ts.getLast? ≠ some .negation
  before_connective : ∀ t c, [t, .connective c] <:+: ts →
    t.isConnective = false ∧ t ≠ .openGroup ∧ t ≠ .negation
  /-- Two operands do not meet. -/
  between_operands : ∀ t t', [t, t'] <:+: ts → t.endsOperand = true → t'.beginsOperand = false
  /-- No parenthesis closes a group that is not open. -/
  nested : ∀ us, us <+: ts → us.count .closeGroup ≤ us.count .openGroup

theorem InPlace.disciplined {q : Query} (h : InPlace q) : Disciplined q.tokens := by
  have hpair {t t' : Token} (hsub : [t, t'] <:+: q.tokens) : t'.mayStand (some t) = true := by
    have hchain := h.placed.neighbours.infix hsub
    rwa [List.isChain_pair] at hchain
  refine ⟨?_, ?_, ?_, h.last, ?_, ?_, h.placed.nested⟩
  · intro t ht
    have hstands := h.placed.first t ht
    cases t with
    | condition | openGroup | always => rfl
    | connective | negation | closeGroup => cases hstands
  · intro t hsub
    exact hpair hsub
  · intro t hsub
    have hstands := hpair hsub
    cases t with
    | condition | openGroup | always => rfl
    | connective | negation | closeGroup => cases hstands
  · intro t c hsub
    have hstands : t.endsOperand = true := hpair hsub
    cases t with
    | condition | closeGroup | always => exact ⟨rfl, nofun, nofun⟩
    | connective | negation | openGroup => cases hstands
  · intro t t' hsub hends
    have hstands := hpair hsub
    cases t' with
    | connective | negation | closeGroup => rfl
    | condition | openGroup | always => simp [Token.mayStand, hends] at hstands

/-- After any calls, refused ones included, the tokens of a where clause are `Disciplined`, and as
many groups are open as opening parentheses exceed closing ones. A query is refused for open groups
if and only if the calls that opened a group and those that closed one differ in number. -/
theorem tokens_disciplined (conventions : Conventions) (source : Source) (calls : List Call) :
    let q := (new conventions source).build calls
    let made := (new conventions source).accepted calls
    Disciplined q.tokens
      ∧ (q.depth : Int) = q.tokens.count .openGroup - q.tokens.count .closeGroup
      ∧ ((∃ message, q.text = .error (.query .unbalancedClause message))
          ↔ made.count .openGroup ≠ made.count .closeGroup) := by
  intro q made
  have hplaced := inPlace_build conventions source calls
  have hopened : q.depth + q.tokens.count .closeGroup = q.tokens.count .openGroup :=
    hplaced.placed.opened
  refine ⟨hplaced.disciplined, by omega, ?_⟩
  have hdepth : q.depth + made.count .closeGroup = 0 + made.count .openGroup :=
    depth_build (new conventions source) calls
  rw [text_unbalanced_iff]
  constructor
  · rintro ⟨-, hne⟩
    omega
  · intro hne
    have hgroups : q.depth ≠ 0 := by omega
    -- a raw query has no tokens, so no group is open
    rcases (sound_build conventions source calls).raw with hraw | hempty
    · exact ⟨hraw, hgroups⟩
    · have hnone : q.tokens = [] := hempty
      rw [hnone] at hopened
      exact absurd hopened hgroups

end DocumentSession.Query
