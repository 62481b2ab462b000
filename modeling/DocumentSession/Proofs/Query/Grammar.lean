import DocumentSession.Proofs.Query.Building
import Mathlib.Data.List.Induction
import Mathlib.Data.List.Infix

set_option autoImplicit false

/-! # The grammar of where clauses

A where clause is made of terms that connectives join, a term of an operand that may be negated, and
a group in parentheses is an operand again (`Derives`). To `walk` over a clause from left to right
takes no more memory than the number of open groups and what is due next (`derives_iff_walk`).

Calls enforce all of the grammar but what may stand in front of a closing parenthesis and at the
end: a complete query has a where clause of the grammar if and only if no group is empty, no
connective stands in front of a closing parenthesis, and none stands at the end
(`written_clause_derivable_iff`). -/

namespace DocumentSession.Query

/-! ## Derivations -/

/-- The nonterminals of the grammar. -/
inductive Nonterminal where
  | expr
  | term
  | atom

/-- The grammar: `expr := term ((and | or) term)*`, `term := [not] atom`,
`atom := condition | true | '(' expr ')'`. -/
inductive Derives : Nonterminal → List Token → Prop where
  | term {ts : List Token} (h : Derives .term ts) : Derives .expr ts
  | joined {ls rs : List Token} (c : Connective) (left : Derives .expr ls)
      (right : Derives .term rs) : Derives .expr (ls ++ .connective c :: rs)
  | atom {ts : List Token} (h : Derives .atom ts) : Derives .term ts
  | negated {ts : List Token} (h : Derives .atom ts) : Derives .term (.negation :: ts)
  | condition (c : Condition) : Derives .atom [.condition c]
  | always : Derives .atom [.always]
  | group {ts : List Token} (h : Derives .expr ts) :
      Derives .atom (.openGroup :: (ts ++ [.closeGroup]))

/-! ## Reading from left to right -/

/-- What may come next: an operand or its negation, an operand only, or what follows an operand. -/
inductive Place where
  | operand
  | negated
  | joint
  deriving DecidableEq

/-- Walk over one token, with a number of open groups. -/
def advance : Nat × Place → Token → Option (Nat × Place)
  | (n, .joint), .connective _ => some (n, .operand)
  | (n + 1, .joint), .closeGroup => some (n, .joint)
  | (n, .operand), .negation => some (n, .negated)
  | (n, .operand), .openGroup | (n, .negated), .openGroup => some (n + 1, .operand)
  | (n, .operand), .condition _ | (n, .negated), .condition _ => some (n, .joint)
  | (n, .operand), .always | (n, .negated), .always => some (n, .joint)
  | _, _ => none

/-- Walk over the tokens. -/
def walk (start : Nat × Place) (ts : List Token) : Option (Nat × Place) :=
  ts.foldlM advance start

theorem walk_cons (start : Nat × Place) (t : Token) (ts : List Token) :
    walk start (t :: ts) = (advance start t).bind (walk · ts) := rfl

theorem walk_append (start : Nat × Place) (ts us : List Token) :
    walk start (ts ++ us) = (walk start ts).bind (walk · us) :=
  List.foldlM_append ..

theorem walk_concat (start : Nat × Place) (ts : List Token) (t : Token) :
    walk start (ts ++ [t]) = (walk start ts).bind (advance · t) := by
  rw [walk_append]
  congr 1
  funext site
  rw [walk_cons]
  exact Option.bind_fun_some ..

theorem walk_of_derives {s : Nonterminal} {ts : List Token} (h : Derives s ts) (n : Nat) :
    walk (n, .operand) ts = some (n, .joint)
      ∧ (s = .atom → walk (n, .negated) ts = some (n, .joint)) := by
  induction h generalizing n with
  | term _ ih => exact ⟨(ih n).1, nofun⟩
  | joined c _ _ ihl ihr =>
    refine ⟨?_, nofun⟩
    rw [walk_append, (ihl n).1, Option.bind_some, walk_cons]
    exact (ihr n).1
  | atom _ ih => exact ⟨(ih n).1, nofun⟩
  | negated _ ih => exact ⟨(ih n).2 rfl, nofun⟩
  | condition c => exact ⟨rfl, fun _ => rfl⟩
  | always => exact ⟨rfl, fun _ => rfl⟩
  | @group ts _ ih =>
    have hgroup := walk_concat (n + 1, .operand) ts .closeGroup
    rw [(ih (n + 1)).1] at hgroup
    exact ⟨hgroup, fun _ => hgroup⟩

/-! ## What was walked over -/

/-- What stands in front of a term: nothing, or an expression and a connective. -/
inductive Leads : List Token → Prop where
  | nothing : Leads []
  | joining {ts : List Token} (c : Connective) (h : Derives .expr ts) :
      Leads (ts ++ [.connective c])

theorem Leads.derives {ts us : List Token} (h : Leads ts) (hus : Derives .term us) :
    Derives .expr (ts ++ us) := by
  cases h with
  | nothing => exact .term hus
  | joining c hts =>
    rw [List.append_assoc]
    exact .joined c hts hus

/-- What stands in front of an operand: what `Leads` to a term, and a negation if one is there. -/
inductive Awaits : Place → List Token → Prop where
  | operand {ts : List Token} (h : Leads ts) : Awaits .operand ts
  | negated {ts : List Token} (h : Leads ts) : Awaits .negated (ts ++ [.negation])

theorem Awaits.derives {place : Place} {ts us : List Token} (h : Awaits place ts)
    (hus : Derives .atom us) : Derives .expr (ts ++ us) := by
  cases h with
  | operand hts => exact hts.derives (.atom hus)
  | negated hts =>
    rw [List.append_assoc]
    exact hts.derives (.negated hus)

/-- Everything up to the group that was opened last and is still open. -/
inductive Within : Nat → List Token → Prop where
  | outermost : Within 0 []
  | group {n : Nat} {place : Place} {before ts : List Token} (outer : Within n before)
      (h : Awaits place ts) : Within (n + 1) (before ++ ts ++ [.openGroup])

/-- The tokens of the innermost group. -/
def Inner : Place → List Token → Prop
  | .joint, ts => Derives .expr ts
  | place, ts => Awaits place ts

/-- The tokens up to a place. -/
def Stands (site : Nat × Place) (ts : List Token) : Prop :=
  ∃ before inner, Within site.1 before ∧ Inner site.2 inner ∧ ts = before ++ inner

theorem Within.stands {n : Nat} {before inner : List Token} (outer : Within n before)
    (place : Place) (h : Inner place inner) : Stands (n, place) (before ++ inner) :=
  ⟨before, inner, outer, h, rfl⟩

/-- One more token after those up to a place. -/
theorem Stands.advance {n n' : Nat} {place place' : Place} {ts : List Token} {t : Token}
    (h : Stands (n, place) ts) (ht : advance (n, place) t = some (n', place')) :
    Stands (n', place') (ts ++ [t]) := by
  obtain ⟨before, inner, hbefore, hinner, rfl⟩ := h
  rw [List.append_assoc]
  -- an operand completes an expression, and an opening parenthesis adds a group
  have hatom {us : List Token} (h : Awaits place inner) (hus : Derives .atom us) :
      Stands (n, .joint) (before ++ (inner ++ us)) := hbefore.stands .joint (h.derives hus)
  have hopened (h : Awaits place inner) :
      Stands (n + 1, .operand) (before ++ (inner ++ [.openGroup])) := by
    have := (Within.group hbefore h).stands .operand (.operand .nothing)
    rwa [List.append_nil, List.append_assoc] at this
  unfold Query.advance at ht
  split at ht
  · next heq =>
    cases heq; cases ht
    exact hbefore.stands .operand (.operand (.joining _ hinner))
  · next heq =>
    -- a closing parenthesis makes a group an operand of what stands in front of it
    cases heq; cases ht
    cases hbefore with
    | group outer hbefore =>
      have := outer.stands .joint (hbefore.derives (.group hinner))
      simpa using this
  · next heq =>
    cases heq; cases ht
    cases hinner with
    | operand hinner => exact hbefore.stands .negated (.negated hinner)
  · next heq => cases heq; cases ht; exact hopened hinner
  · next heq => cases heq; cases ht; exact hopened hinner
  · next heq => cases heq; cases ht; exact hatom hinner (.condition _)
  · next heq => cases heq; cases ht; exact hatom hinner (.condition _)
  · next heq => cases heq; cases ht; exact hatom hinner .always
  · next heq => cases heq; cases ht; exact hatom hinner .always
  · cases ht

theorem stands_of_walk {ts : List Token} {site : Nat × Place}
    (h : walk (0, .operand) ts = some site) : Stands site ts := by
  induction ts using List.reverseRecOn generalizing site with
  | nil =>
    obtain rfl := Option.some.inj h
    exact Within.outermost.stands .operand (.operand .nothing)
  | append_singleton ts t ih =>
    rw [walk_concat] at h
    obtain ⟨before, hbefore, ht⟩ := Option.bind_eq_some_iff.mp h
    exact (ih hbefore).advance ht

/-- A list of tokens is an expression if and only if `walk` ends behind an operand with no group
open. -/
theorem derives_iff_walk (ts : List Token) :
    Derives .expr ts ↔ walk (0, .operand) ts = some (0, .joint) := by
  constructor
  · intro h
    exact (walk_of_derives h 0).1
  · intro h
    obtain ⟨before, inner, hbefore, hinner, rfl⟩ := stands_of_walk h
    cases hbefore with
    | outermost => exact hinner

/-- `walk` decides whether tokens are an expression. -/
instance (ts : List Token) : Decidable (Derives .expr ts) :=
  decidable_of_iff _ (derives_iff_walk ts).symm

/-! ## Neighbours -/

/-- `walk` does not look into conditions. -/
theorem walk_condition (start : Nat × Place) (ts : List Token) (c c' : Condition) :
    walk start (ts ++ [.condition c]) = walk start (ts ++ [.condition c']) := by
  rw [walk_concat, walk_concat]
  congr 1
  funext ⟨n, place⟩
  cases place <;> cases n <;> rfl

theorem advance_operand {site : Nat × Place} {n : Nat} {t : Token}
    (h : advance site t = some (n, .operand)) :
    (t = .openGroup ∧ n ≠ 0) ∨ ∃ c, t = .connective c := by
  unfold advance at h
  split at h <;> simp_all <;> omega

theorem advance_joint_iff {site : Nat × Place} {n : Nat} {place : Place} {t : Token}
    (h : advance site t = some (n, place)) : place = .joint ↔ t.endsOperand = true := by
  unfold advance at h
  split at h <;> simp_all [Token.endsOperand] <;> simp [← h.2]

theorem joint_of_advance_closeGroup {n : Nat} {place : Place} {site : Nat × Place}
    (h : advance (n, place) .closeGroup = some site) : place = .joint := by
  cases place with
  | joint => rfl
  | operand => cases h
  | negated => cases h

theorem walk_joint_iff {ts : List Token} {n : Nat} {place : Place}
    (h : walk (0, .operand) ts = some (n, place)) :
    place = .joint ↔ ts.getLast?.any Token.endsOperand = true := by
  induction ts using List.reverseRecOn with
  | nil =>
    cases h
    simp
  | append_singleton ts t _ =>
    rw [walk_concat] at h
    obtain ⟨site, -, ht⟩ := Option.bind_eq_some_iff.mp h
    simpa using advance_joint_iff ht

theorem walk_operand {ts : List Token} {n : Nat} (h : walk (0, .operand) ts = some (n, .operand)) :
    (ts = [] ∧ n = 0)
      ∨ ∃ before t, ts = before ++ [t] ∧ ((t = .openGroup ∧ n ≠ 0) ∨ ∃ c, t = .connective c) := by
  induction ts using List.reverseRecOn with
  | nil =>
    cases h
    exact Or.inl ⟨rfl, rfl⟩
  | append_singleton ts t _ =>
    rw [walk_concat] at h
    obtain ⟨site, -, ht⟩ := Option.bind_eq_some_iff.mp h
    exact Or.inr ⟨ts, t, rfl, advance_operand ht⟩

/-! ## What calls enforce -/

/-- A closing parenthesis stands right behind an opening one or a connective. -/
def ClosesTooEarly (ts : List Token) : Prop :=
  ∃ t : Token, (t = .openGroup ∨ ∃ c, t = .connective c) ∧ [t, .closeGroup] <:+: ts

theorem ClosesTooEarly.mono {ts us : List Token} (h : ClosesTooEarly ts) (hsub : ts <:+: us) :
    ClosesTooEarly us := by
  obtain ⟨t, ht, hpair⟩ := h
  exact ⟨t, ht, hpair.trans hsub⟩

theorem ClosesTooEarly.of_concat {ts : List Token} {t : Token} (h : ClosesTooEarly (ts ++ [t]))
    (ht : t ≠ .closeGroup) : ClosesTooEarly ts := by
  obtain ⟨left, hleft, hpair⟩ := h
  refine ⟨left, hleft, (List.infix_concat_iff.mp hpair).resolve_left fun hsuffix => ?_⟩
  obtain ⟨before, heq⟩ := hsuffix
  have hlast := congrArg List.getLast? heq
  exact ht (by simpa using hlast.symm)

theorem not_closesTooEarly_of_walk {ts : List Token} {start site : Nat × Place}
    (h : walk start ts = some site) : ¬ ClosesTooEarly ts := by
  rintro ⟨t, ht, before, after, rfl⟩
  rw [walk_append, walk_append] at h
  obtain ⟨_, hpair, -⟩ := Option.bind_eq_some_iff.mp h
  obtain ⟨_, -, hpair⟩ := Option.bind_eq_some_iff.mp hpair
  obtain ⟨⟨n, place⟩, ht', hclose⟩ := Option.bind_eq_some_iff.mp hpair
  obtain ⟨_, hclose, -⟩ := Option.bind_eq_some_iff.mp hclose
  -- an operand is due behind the first token, and the second one needs an operand in front of it
  have hjoint := (advance_joint_iff ht').mp (joint_of_advance_closeGroup hclose)
  rcases ht with rfl | ⟨c, rfl⟩ <;> simp [Token.endsOperand] at hjoint

/-- What calls make of a query: no clause beside a raw text, and a clause that `ClosesTooEarly` or
that `walk` accepts up to a place in `depth` groups, and that does not end with a negation. -/
structure Sound (q : Query) : Prop where
  raw : q.raw = none ∨ q.tokens = []
  clause : ClosesTooEarly q.tokens
    ∨ ∃ place, place ≠ .negated ∧ walk (0, .operand) q.tokens = some (q.depth, place)

theorem sound_new (conventions : Conventions) (source : Source) : Sound (new conventions source) :=
  ⟨Or.inl rfl, Or.inr ⟨.operand, nofun, rfl⟩⟩

theorem prefix_prepared (q : Query) (field : Option String) : q.tokens <+: q.prepared field := by
  have hjoined : q.tokens <+: q.joined := by
    unfold joined
    split
    · exact List.prefix_append ..
    · exact List.prefix_rfl
  unfold prepared
  dsimp only
  split
  · exact hjoined
  · refine List.IsPrefix.trans ?_ (List.prefix_append ..)
    split
    · exact hjoined.trans (List.prefix_append ..)
    · exact hjoined

/-- `walk` accepts the tokens in front of an operand, up to where one is due. -/
theorem walk_prepared {q : Query} {n : Nat} {place : Place} (hplace : place ≠ .negated)
    (h : walk (0, .operand) q.tokens = some (n, place)) (field : Option String) :
    ∃ place', place' ≠ .joint ∧ walk (0, .operand) (q.prepared field) = some (n, place') := by
  have hjoined : walk (0, .operand) q.joined = some (n, .operand) := by
    have hjoint := walk_joint_iff h
    unfold joined
    split
    · next hends =>
      obtain rfl := hjoint.mpr hends
      rw [walk_concat, h]
      rfl
    · next hends =>
      cases place with
      | operand => exact h
      | negated => exact absurd rfl hplace
      | joint => exact absurd (hjoint.mp rfl) hends
  unfold prepared
  dsimp only
  split
  · exact ⟨.operand, nofun, hjoined⟩
  · refine ⟨.negated, nofun, ?_⟩
    rw [walk_concat]
    split
    · -- the guard is an operand, and a connective follows it
      rw [walk_append, hjoined]
      cases field <;> rfl
    · rw [hjoined]
      rfl

/-- A token for which an operand is due. -/
theorem Sound.grow {q q' : Query} (h : Sound q) {field : Option String} {t : Token} {n : Nat}
    (ht : ∀ place, place ≠ .joint → advance (q.depth, place) t = some (n, .joint)
      ∨ advance (q.depth, place) t = some (n, .operand))
    (tokens : q'.tokens = q.prepared field ++ [t]) (depth : q'.depth = n) (raw : q'.raw = none) :
    Sound q' := by
  refine ⟨Or.inl raw, ?_⟩
  rw [tokens, depth]
  rcases h.clause with hcloses | ⟨place, hplace, hwalk⟩
  · have hsub := (prefix_prepared q field).trans (List.prefix_append _ [t])
    exact Or.inl (hcloses.mono hsub.isInfix)
  · obtain ⟨place', hplace', hwalk'⟩ := walk_prepared hplace hwalk field
    right
    rw [walk_concat, hwalk', Option.bind_some]
    rcases ht place' hplace' with ht | ht
    · exact ⟨.joint, nofun, ht⟩
    · exact ⟨.operand, nofun, ht⟩

/-- Every step of a call keeps a query sound. -/
theorem Sound.step {c : Call} {q q' : Query} (h : Sound q) (hstep : ClauseStep c q q') :
    Sound q' := by
  cases hstep with
  | kept tokens depth raw =>
    refine ⟨?_, ?_⟩
    · rw [tokens]
      rcases raw with hraw | hempty
      · exact hraw ▸ h.raw
      · exact Or.inr hempty
    · rw [tokens, depth]
      exact h.clause
  | operand operand tokens depth raw =>
    refine h.grow (fun place hplace => Or.inl ?_) tokens depth raw
    cases operand <;> cases place <;> first | rfl | exact absurd rfl hplace
  | opened tokens depth raw =>
    refine h.grow (fun place hplace => Or.inr ?_) tokens depth raw
    cases place <;> first | rfl | exact absurd rfl hplace
  | closed opened tokens depth raw =>
    refine ⟨Or.inl raw, ?_⟩
    rw [tokens, depth]
    rcases h.clause with hcloses | ⟨place, hplace, hwalk⟩
    · exact Or.inl (hcloses.mono (List.prefix_append ..).isInfix)
    · cases place with
      | negated => exact absurd rfl hplace
      | joint =>
        obtain ⟨n, hn⟩ := Nat.exists_eq_succ_of_ne_zero opened
        refine Or.inr ⟨.joint, nofun, ?_⟩
        rw [walk_concat, hwalk, hn]
        rfl
      | operand =>
        -- a group without operand, or one that ends with a connective, closes too early
        rcases walk_operand hwalk with ⟨-, hdepth⟩ | ⟨before, t, heq, ht⟩
        · exact absurd hdepth opened
        · refine Or.inl ⟨t, ht.imp_left And.left, ?_⟩
          rw [heq, List.append_assoc]
          exact (List.suffix_append before [t, .closeGroup]).isInfix
  | joined operand tokens depth raw =>
    refine ⟨Or.inl raw, ?_⟩
    rw [tokens, depth]
    rcases h.clause with hcloses | ⟨place, hplace, hwalk⟩
    · exact Or.inl (hcloses.mono (List.prefix_append ..).isInfix)
    · obtain rfl := (walk_joint_iff hwalk).mpr operand
      refine Or.inr ⟨.operand, nofun, ?_⟩
      rw [walk_concat, hwalk]
      rfl
  | modified ends tokens field demand weight depth raw =>
    refine ⟨Or.inl raw, ?_⟩
    have hclause := h.clause
    rw [ends] at hclause
    rw [tokens, depth]
    rcases hclause with hcloses | ⟨place, hplace, hwalk⟩
    · exact Or.inl ((hcloses.of_concat nofun).mono (List.prefix_append ..).isInfix)
    · exact Or.inr ⟨place, hplace, (walk_condition ..).trans hwalk⟩

theorem sound_build (conventions : Conventions) (source : Source) (calls : List Call) :
    Sound ((new conventions source).build calls) :=
  build_induction (sound_new conventions source) fun c _ q h => h.step (clauseStep_call c q)

/-! ## What a complete query may lack -/

/-- What calls do not enforce: what stands in front of closing parentheses and at the end. -/
structure Finished (ts : List Token) : Prop where
  no_empty_group : ¬ [.openGroup, .closeGroup] <:+: ts
  no_loose_connective : ∀ c, ¬ [.connective c, .closeGroup] <:+: ts
  no_last_connective : ∀ c, ts.getLast? ≠ some (.connective c)

theorem not_closesTooEarly_iff {ts : List Token} :
    ¬ ClosesTooEarly ts
      ↔ ¬ [.openGroup, .closeGroup] <:+: ts ∧ ∀ c, ¬ [.connective c, .closeGroup] <:+: ts := by
  constructor
  · intro h
    exact ⟨fun hpair => h ⟨_, Or.inl rfl, hpair⟩, fun c hpair => h ⟨_, Or.inr ⟨c, rfl⟩, hpair⟩⟩
  · rintro ⟨hgroup, hconnective⟩ ⟨t, rfl | ⟨c, rfl⟩, hpair⟩
    · exact hgroup hpair
    · exact hconnective c hpair

theorem finished_of_derives {ts : List Token} (h : Derives .expr ts) : Finished ts := by
  have hwalk := (derives_iff_walk ts).mp h
  obtain ⟨hgroup, hconnective⟩ := not_closesTooEarly_iff.mp (not_closesTooEarly_of_walk hwalk)
  refine ⟨hgroup, hconnective, fun c hlast => ?_⟩
  have hends := (walk_joint_iff hwalk).mp rfl
  rw [hlast] at hends
  cases hends

theorem depth_of_text_eq_ok {q : Query} {text : String} (hraw : q.raw = none)
    (h : q.text = .ok text) : q.depth = 0 := by
  unfold Query.text at h
  rw [hraw] at h
  dsimp only at h
  split at h
  · cases h
  · next hdepth => exact Decidable.not_not.mp hdepth

/-- A complete query has no where clause or one of the grammar, if and only if the clause has no
empty group, no connective in front of a closing parenthesis, and no connective at the end. -/
theorem written_clause_derivable_iff (conventions : Conventions) (source : Source)
    (calls : List Call) {text : String}
    (h : ((new conventions source).build calls).text = .ok text) :
    (((new conventions source).build calls).tokens = []
        ∨ Derives .expr ((new conventions source).build calls).tokens)
      ↔ Finished ((new conventions source).build calls).tokens := by
  have hsound := sound_build conventions source calls
  generalize (new conventions source).build calls = q at h hsound
  constructor
  · rintro (hempty | hderives)
    · rw [hempty]
      exact ⟨by simp, by simp, by simp⟩
    · exact finished_of_derives hderives
  · intro hfinished
    rcases hsound.raw with hraw | hempty
    · have hdepth := depth_of_text_eq_ok hraw h
      rcases hsound.clause with hcloses | ⟨place, hplace, hwalk⟩
      · have hwhole :=
          not_closesTooEarly_iff.mpr ⟨hfinished.no_empty_group, hfinished.no_loose_connective⟩
        exact absurd hcloses hwhole
      · rw [hdepth] at hwalk
        cases place with
        | negated => exact absurd rfl hplace
        | joint => exact Or.inr ((derives_iff_walk _).mpr hwalk)
        | operand =>
          rcases walk_operand hwalk with ⟨hempty, -⟩ | ⟨before, t, heq, ⟨-, hne⟩ | ⟨c, rfl⟩⟩
          · exact Or.inl hempty
          · exact absurd rfl hne
          · exact absurd (by simp [heq]) (hfinished.no_last_connective c)
    · exact Or.inl hempty

/-- A negated group behind its guard, with a search whose connective is `or` in front of a negated
condition. -/
theorem written_clause_derivable_iff_nested :
    let q := (ofCollection {} "Users").build
      [.negateNext, .openGroup, .compare .equal "Name" (.json (.str "Ann")) true, .connective .or,
        .search "Notes" "al" .and, .proximity 3, .closeGroup, .negateNext, .present "id"]
    q.text = .ok ("from Users where true and not (exact(Name = $p0)"
        ++ " or proximity(search(Notes, $p1, and), 3)) or not exists(id())")
      ∧ Finished q.tokens ∧ (q.tokens = [] ∨ Derives .expr q.tokens) := by
  intro q
  have htext : q.text = .ok ("from Users where true and not (exact(Name = $p0)"
      ++ " or proximity(search(Notes, $p1, and), 3)) or not exists(id())") := by decide +kernel
  have hfinished : Finished q.tokens :=
    ⟨by decide +kernel, fun c => by cases c <;> decide +kernel,
      fun c => by cases c <;> decide +kernel⟩
  exact ⟨htext, hfinished,
    (written_clause_derivable_iff {} (.collection "Users") _ htext).mpr hfinished⟩

/-- A connective that nothing follows is written. -/
theorem dangling_connective_written :
    let q := (ofCollection {} "Users").build
      [.compare .equal "Name" (.json (.str "Ann")) false, .connective .and]
    q.text = .ok "from Users where Name = $p0 and"
      ∧ ¬ (q.tokens = [] ∨ Derives .expr q.tokens) := by
  decide +kernel

end DocumentSession.Query
