import DocumentSession.Proofs.Metadata.Edits

set_option autoImplicit false

/-! # Dictionaries above others

A dictionary reaches itself and those below it (`Forest.Reaches`). It is alive if and only if one
that reaches it is held (`isAlive_iff`), and what was taken out of a dictionary is never reached
from there again, whatever is done (`Forest.Recedes`).

So an edit sets the `dirty` marks that it should (`marks_reach_ancestors`): what is alive and
reaches a dirty dictionary is dirty, `markClean` cleans everything below and nothing else
(`isDirty_markClean_iff`), and the uses of a dictionary that was taken out of another one do not
change the content of the other. -/

namespace DocumentSession.Metadata

namespace Forest

variable {f f' f'' : Forest} {n m p c root : NodeId} {node : Node} {key : String} {u : Use}
  {uses : List Use}

/-! ## What is below a dictionary -/

/-- Some keys lead from `n` to `m`. -/
def Reaches (f : Forest) (n m : NodeId) : Prop :=
  ∃ path, f.Leads n path m

theorem attaches_iff :
    f.attaches p c = true ↔ ∃ node, f.node? p = some node ∧ ∃ key, (key, c) ∈ node.children := by
  simp [attaches, Option.any_eq_true]

theorem attaches_of_find? (hnode : f.node? n = some node)
    (hchild : node.children.find? key = some c) : f.attaches n c = true :=
  attaches_iff.mpr ⟨node, hnode, key, Keyed.mem_of_find? hchild⟩

theorem exists_find?_of_attaches (hf : f.Sound) (h : f.attaches p c = true) :
    ∃ node, f.node? p = some node ∧ ∃ key, node.children.find? key = some c := by
  obtain ⟨node, hnode, key, hmem⟩ := attaches_iff.mp h
  exact ⟨node, hnode, key, Keyed.find?_of_mem (hf.node p node hnode).children hmem⟩

/-- A child has one parent, which comes before it. -/
theorem Sound.of_attaches (hf : f.Sound) (h : f.attaches p c = true) :
    p < c ∧ ∃ child, f.node? c = some child ∧ child.parent = some p := by
  obtain ⟨node, hnode, key, hmem⟩ := attaches_iff.mp h
  obtain ⟨child, hchild, hparent⟩ := hf.linked p node hnode _ hmem
  exact ⟨hf.above c child p hchild hparent, child, hchild, hparent⟩

theorem Sound.eq_of_attaches (hf : f.Sound) {q : NodeId} (h : f.attaches p c = true)
    (h' : f.attaches q c = true) : p = q := by
  obtain ⟨-, child, hchild, hparent⟩ := hf.of_attaches h
  obtain ⟨-, child', hchild', hparent'⟩ := hf.of_attaches h'
  obtain rfl := Option.some.inj (hchild.symm.trans hchild')
  exact Option.some.inj (hparent.symm.trans hparent')

namespace Reaches

theorem refl (f : Forest) (n : NodeId) : f.Reaches n n :=
  ⟨[], .here⟩

theorem tail (h : f.Reaches n p) (hf : f.Sound) (hchild : f.attaches p c = true) :
    f.Reaches n c := by
  obtain ⟨path, hpath⟩ := h
  obtain ⟨node, hnode, key, hkey⟩ := exists_find?_of_attaches hf hchild
  exact ⟨path ++ [key], hpath.down hnode hkey⟩

/-- What is reached is reached step by step, the last step from a parent. -/
theorem induction {P : NodeId → Prop} (here : P n)
    (down : ∀ p c, f.Reaches n p → f.attaches p c = true → P p → P c) (h : f.Reaches n m) :
    P m := by
  obtain ⟨path, hpath⟩ := h
  induction hpath with
  | here => exact here
  | down hp hnode hchild ih => exact down _ _ ⟨_, hp⟩ (attaches_of_find? hnode hchild) ih

theorem trans (h : f.Reaches n p) (hf : f.Sound) (h' : f.Reaches p m) : f.Reaches n m :=
  h'.induction h (fun _ _ _ hchild hn => hn.tail hf hchild)

theorem le (h : f.Reaches n m) (hf : f.Sound) : n ≤ m :=
  let ⟨_, hpath⟩ := h
  hpath.le hf.ordered

/-- What is reached, but is not the dictionary itself, has a parent that is reached. -/
theorem exists_parent (h : f.Reaches n m) :
    n = m ∨ ∃ p, f.Reaches n p ∧ f.attaches p m = true :=
  h.induction (P := fun m => n = m ∨ ∃ p, f.Reaches n p ∧ f.attaches p m = true) (Or.inl rfl)
    (fun p _ hp hchild _ => Or.inr ⟨p, hp, hchild⟩)

/-- What is reached, but is not the dictionary itself, is reached through a child. -/
theorem iff_of_node (hf : f.Sound) (hnode : f.node? n = some node) :
    f.Reaches n m ↔ n = m ∨ ∃ entry ∈ node.children, f.Reaches entry.2 m := by
  constructor
  · refine induction (P := fun m => n = m ∨ ∃ entry ∈ node.children, f.Reaches entry.2 m)
      (Or.inl rfl) ?_
    rintro p c - hchild (rfl | ⟨entry, hentry, hreach⟩)
    · obtain ⟨before, hbefore, key, hmem⟩ := attaches_iff.mp hchild
      obtain rfl := Option.some.inj (hnode.symm.trans hbefore)
      exact Or.inr ⟨(key, c), hmem, .refl f c⟩
    · exact Or.inr ⟨entry, hentry, hreach.tail hf hchild⟩
  · rintro (rfl | ⟨entry, hentry, hreach⟩)
    · exact .refl f n
    · exact ((Reaches.refl f n).tail hf
        (attaches_iff.mpr ⟨node, hnode, entry.1, hentry⟩)).trans hf hreach

/-- Of two dictionaries above a third one, one is above the other. -/
theorem total (h : f.Reaches n m) (hf : f.Sound) (h' : f.Reaches p m) :
    f.Reaches n p ∨ f.Reaches p n := by
  refine h'.induction (P := fun m => f.Reaches n m → f.Reaches n p ∨ f.Reaches p n) Or.inl ?_ h
  intro q c hq hchild ih hn
  rcases hn.exists_parent with rfl | ⟨q', hq', hchild'⟩
  · exact Or.inr (hq.tail hf hchild)
  · exact ih (hf.eq_of_attaches hchild' hchild ▸ hq')

theorem alike (h : f.Reaches n m) (halike : f.Alike f') : f'.Reaches n m := by
  obtain ⟨path, hpath⟩ := h
  exact ⟨path, halike.leads hpath⟩

end Reaches

/-! ## What is alive -/

/-- A dictionary is alive if and only if it or one above it is held. -/
theorem isAlive_iff (hf : f.Sound) :
    f.isAlive n = true ↔ ∃ holder, f.IsHeld holder ∧ f.Reaches holder n := by
  constructor
  · unfold isAlive
    generalize n + 1 = steps
    induction steps generalizing n with
    | zero => nofun
    | succ steps ih =>
      intro h
      rw [isAlive.go] at h
      split at h
      · cases h
      · next node hnode =>
        rw [Bool.or_eq_true] at h
        rcases h with hheld | habove
        · exact ⟨n, ⟨node, hnode, of_decide_eq_true hheld⟩, .refl f n⟩
        · obtain ⟨p, -, hp⟩ := (Option.any_eq_true ..).mp habove
          rw [Bool.and_eq_true] at hp
          obtain ⟨holder, hheld, hreach⟩ := ih hp.2
          exact ⟨holder, hheld, hreach.tail hf hp.1⟩
  · rintro ⟨holder, hheld, path, hpath⟩
    exact isAlive_of_leads hf (isAlive_of_isHeld hheld) hpath

theorem Reaches.isAlive (h : f.Reaches n m) (hf : f.Sound) (halive : f.isAlive n = true) :
    f.isAlive m = true := by
  obtain ⟨path, hpath⟩ := h
  exact isAlive_of_leads hf halive hpath

theorem Alike.attaches (h : f.Alike f') (hchild : f.attaches p c = true) :
    f'.attaches p c = true := by
  obtain ⟨node, hnode, key, hmem⟩ := attaches_iff.mp hchild
  obtain ⟨node', hnode', -, hchildren, -⟩ := h.found hnode
  exact attaches_iff.mpr ⟨node', hnode', key, hchildren ▸ hmem⟩

theorem Alike.isAlive (h : f.Alike f') (hf : f.Sound) (halive : f.isAlive n = true) :
    f'.isAlive n = true := by
  obtain ⟨holder, hheld, hreach⟩ := (isAlive_iff hf).mp halive
  exact (isAlive_iff (hf.alike h)).mpr ⟨holder, h.isHeld hheld, hreach.alike h⟩

theorem IsHeld.modify (h : f.IsHeld n) {change : Node → Node}
    (hholders : ∀ node, (change node).holders = node.holders) (m : NodeId) :
    (f.modify m change).IsHeld n := by
  obtain ⟨node, hnode, hpos⟩ := h
  unfold IsHeld
  rw [node?_modify, hnode]
  split
  · exact ⟨_, rfl, hholders node ▸ hpos⟩
  · exact ⟨node, rfl, hpos⟩

/-- From `f` to `f'` no dictionary of `f` is attached where it was not before, and only what was
alive is held. -/
structure Recedes (f f' : Forest) : Prop where
  attaches : ∀ p c, c < f.nodes.length → f'.attaches p c = true → f.attaches p c = true
  isHeld : ∀ n < f.nodes.length, f'.IsHeld n → f.isAlive n = true

namespace Recedes

theorem reaches (h : f.Recedes f') (hf : f.Sound) (hf' : f'.Sound) (hm : m < f.nodes.length)
    (hreach : f'.Reaches n m) : f.Reaches n m := by
  refine hreach.induction (P := fun m => m < f.nodes.length → f.Reaches n m)
    (fun _ => .refl f n) ?_ hm
  intro p c _ hchild ih hc
  have hp := Nat.lt_trans (hf'.of_attaches hchild).1 hc
  exact (ih hp).tail hf (h.attaches p c hc hchild)

theorem isAlive (h : f.Recedes f') (hf : f.Sound) (hf' : f'.Sound) (hn : n < f.nodes.length)
    (halive : f'.isAlive n = true) : f.isAlive n = true := by
  obtain ⟨holder, hheld, hreach⟩ := (isAlive_iff hf').mp halive
  have hbefore := h.reaches hf hf' hn hreach
  exact hbefore.isAlive hf (h.isHeld holder (Nat.lt_of_le_of_lt (hreach.le hf') hn) hheld)

theorem refl (f : Forest) : f.Recedes f :=
  ⟨fun _ _ _ h => h, fun _ _ h => isAlive_of_isHeld h⟩

theorem alike (h : f.Recedes f') (halike : f'.Alike f'') : f.Recedes f'' :=
  ⟨fun p c hc hchild => h.attaches p c hc (halike.symm.attaches hchild),
    fun n hn hheld => h.isHeld n hn (halike.symm.isHeld hheld)⟩

theorem trans (h : f.Recedes f') (hf : f.Sound) (hf' : f'.Sound)
    (hlength : f.nodes.length ≤ f'.nodes.length) (h' : f'.Recedes f'') : f.Recedes f'' where
  attaches p c hc hchild :=
    h.attaches p c hc (h'.attaches p c (Nat.lt_of_lt_of_le hc hlength) hchild)
  isHeld n hn hheld := h.isAlive hf hf' hn (h'.isHeld n (Nat.lt_of_lt_of_le hn hlength) hheld)

end Recedes

/-- A change of a node holds what was alive only, and attaches nothing. -/
theorem isHeld_of_modify {change : Node → Node}
    (hholders : ∀ node, m = n → f.node? n = some node → 0 < (change node).holders →
      f.isAlive n = true)
    (h : (f.modify m change).IsHeld n) : f.isAlive n = true := by
  obtain ⟨node', hnode', hheld⟩ := h
  rw [node?_modify] at hnode'
  split at hnode'
  · next hm =>
    obtain ⟨node, hnode, rfl⟩ := Option.map_eq_some_iff.mp hnode'
    exact hholders node hm hnode hheld
  · exact isAlive_of_isHeld ⟨node', hnode', hheld⟩

theorem isHeld_child (hf : f.Sound) (hheld : f.IsHeld m) (hn : n < f.nodes.length)
    (h : (f.child m key).2.IsHeld n) : f.isAlive n = true := by
  have hkept : ∀ {change : Node → Node}, (∀ node, (change node).holders = node.holders) →
      (f.modify m change).IsHeld n → f.isAlive n = true := by
    intro change hholders
    exact isHeld_of_modify (fun node _ hnode hpos =>
      isAlive_of_isHeld ⟨node, hnode, hholders node ▸ hpos⟩)
  obtain ⟨-, heq⟩ | ⟨node, hnode, ⟨c, hc, heq⟩ | ⟨-, ⟨-, heq⟩ | ⟨values, -, heq⟩⟩⟩ :=
    f.child_cases m key
  · rw [heq] at h
    exact isAlive_of_isHeld h
  · -- the child hangs below a dictionary that is held
    rw [heq] at h
    refine isHeld_of_modify (fun _ hm _ _ => ?_) h
    subst hm
    exact ((Reaches.refl f m).tail hf (attaches_of_find? hnode hc)).isAlive hf
      (isAlive_of_isHeld hheld)
  · rw [heq] at h
    exact hkept (keepsPlace_eraseValue key).holders h
  · rw [heq] at h
    obtain ⟨node', hnode', hpos⟩ := h
    dsimp only at hnode'
    rw [node?_give (node?_eq_some_lt hnode), if_neg (Nat.ne_of_lt hn)] at hnode'
    split at hnode'
    · obtain ⟨before, hbefore, rfl⟩ := Option.map_eq_some_iff.mp hnode'
      exact isAlive_of_isHeld ⟨before, hbefore, hpos⟩
    · exact isAlive_of_isHeld ⟨node', hnode', hpos⟩

/-- Only what was alive before a use is held after it. -/
theorem isHeld_use (hf : f.Sound) (hu : f.Admits u) (hn : n < f.nodes.length)
    (h : (f.use u).IsHeld n) : f.isAlive n = true := by
  have hedit : ∀ {m : NodeId} {change : Node → Node},
      (∀ node, (change node).holders = node.holders) →
      ((f.modify m change).markDirty m).IsHeld n → f.isAlive n = true := by
    intro m change hholders hheld
    exact isHeld_of_modify (fun node _ hnode hpos =>
        isAlive_of_isHeld ⟨node, hnode, hholders node ▸ hpos⟩)
      ((alike_markDirty _ m).symm.isHeld hheld)
  cases u with
  | make values =>
    obtain ⟨node', hnode', hpos⟩ := h
    change (f.create values).2.node? n = some node' at hnode'
    rw [node?_create, if_neg (Nat.ne_of_lt hn)] at hnode'
    exact isAlive_of_isHeld ⟨node', hnode', hpos⟩
  | hold m => exact isHeld_of_modify (fun _ hm _ _ => hm ▸ isAlive_of_isHeld hu) h
  | drop m =>
    exact isHeld_of_modify (fun node _ hnode hpos =>
      isAlive_of_isHeld ⟨node, hnode, Nat.lt_of_lt_of_le hpos (Nat.sub_le ..)⟩) h
  | child m key => exact isHeld_child hf hu hn h
  | set m key value => exact hedit (keepsPlace_set key hu.2).holders h
  | remove m key =>
    change (f.remove m key).2.IsHeld n at h
    obtain heq | ⟨value, change, hchange, heq⟩ := f.remove_eq_edit m key
    · rw [heq] at h
      exact isAlive_of_isHeld h
    · rw [heq] at h
      exact hedit hchange.holders h
  | markClean m => exact isAlive_of_isHeld ((f.alike_markClean m).symm.isHeld h)

theorem recedes_use (hf : f.Sound) (hu : f.Admits u) : f.Recedes (f.use u) where
  attaches p c hc hchild := by
    obtain ⟨node', hnode', key, hfound⟩ := exists_find?_of_attaches (hf.use hu) hchild
    obtain ⟨-, hnone⟩ | ⟨node, hnode, hedits⟩ := f.edits_use u hnode'
    · rw [hnone] at hfound
      cases hfound
    · rcases hedits.find?_children hfound with hold | ⟨rfl, -⟩
      · exact attaches_of_find? hnode hold
      · exact absurd hc (Nat.lt_irrefl _)
  isHeld _ hn := isHeld_use hf hu hn

theorem recedes_run (hf : f.Sound) (huses : f.AdmitsAll uses) : f.Recedes (f.run uses) := by
  induction uses generalizing f with
  | nil => exact .refl f
  | cons u uses ih =>
    exact (recedes_use hf huses.1).trans hf (hf.use huses.1) (f.grows_use u).length
      (ih (hf.use huses.1) huses.2)

/-! ## Marks above a dirty dictionary -/

/-- What is alive is dirty if one of its children is. -/
def MarkedAbove (f : Forest) : Prop :=
  ∀ p c, f.isAlive p = true → f.attaches p c = true → f.isDirty c = true → f.isDirty p = true

theorem lt_of_isDirty (h : f.isDirty n = true) : n < f.nodes.length := by
  obtain ⟨node, hnode, -⟩ := (Option.any_eq_true ..).mp h
  exact node?_eq_some_lt hnode

theorem isDirty_modify (f : Forest) (m n : NodeId) (change : Node → Node)
    (hchange : ∀ node, (change node).dirty = node.dirty) :
    (f.modify m change).isDirty n = f.isDirty n := by
  unfold isDirty
  rw [node?_modify]
  split
  · cases f.node? n with
    | none => rfl
    | some node => exact hchange node
  · rfl

theorem isDirty_holders (f : Forest) (m n : NodeId) (count : Nat → Nat) :
    (f.modify m (fun node => { node with holders := count node.holders })).isDirty n
      = f.isDirty n :=
  f.isDirty_modify m n _ (fun _ => rfl)

theorem isDirty_give (hm : m < f.nodes.length) (key : String) (values : Fields) (n : NodeId) :
    (f.give m key values).isDirty n = f.isDirty n := by
  unfold isDirty
  rw [node?_give hm]
  split
  · next hn =>
    have hnone : f.node? n = none := List.getElem?_eq_none (Nat.le_of_eq hn.symm)
    rw [hnone]
    rfl
  · split
    · cases f.node? n <;> rfl
    · rfl

theorem isDirty_child (m : NodeId) (key : String) (n : NodeId) :
    (f.child m key).2.isDirty n = f.isDirty n := by
  obtain ⟨-, heq⟩ | ⟨node, hnode, ⟨c, -, heq⟩ | ⟨-, ⟨-, heq⟩ | ⟨values, -, heq⟩⟩⟩ :=
    f.child_cases m key
  · rw [heq]
  · rw [heq]
    exact f.isDirty_holders c n (· + 1)
  · rw [heq]
    exact f.isDirty_modify m n _ (keepsPlace_eraseValue key).dirty
  · rw [heq]
    exact isDirty_give (node?_eq_some_lt hnode) key values n

namespace MarkedAbove

theorem reaches (h : f.MarkedAbove) (hf : f.Sound) (halive : f.isAlive n = true)
    (hreach : f.Reaches n m) (hdirty : f.isDirty m = true) : f.isDirty n = true := by
  refine hreach.induction (P := fun m => f.isDirty m = true → f.isDirty n = true) id ?_ hdirty
  intro p c hp hchild ih hc
  exact ih (h p c (hp.isAlive hf halive) hchild hc)

/-- If no mark changes and nothing is attached that was there, `MarkedAbove` is kept. -/
theorem of_recedes (h : f.MarkedAbove) (hf : f.Sound) (hf' : f'.Sound) (hrecedes : f.Recedes f')
    (hsame : ∀ n, f'.isDirty n = f.isDirty n) : f'.MarkedAbove := by
  intro p c halive hchild hdirty
  rw [hsame] at hdirty ⊢
  have hc := lt_of_isDirty hdirty
  have hp := Nat.lt_trans (hf'.of_attaches hchild).1 hc
  exact h p c (hrecedes.isAlive hf hf' hp halive) (hrecedes.attaches p c hc hchild) hdirty

/-- `markDirty` restores `MarkedAbove` if only the children of the dictionary it comes to were an
exception. -/
theorem markDirty_go (hf : f.Sound) {steps : Nat} (hsteps : n < steps)
    (h : ∀ p c, f.isAlive p = true → f.attaches p c = true → f.isDirty c = true → p ≠ n →
      f.isDirty p = true) :
    (markDirty.go steps n f).MarkedAbove := by
  induction steps generalizing n f with
  | zero => exact absurd hsteps (Nat.not_lt_zero n)
  | succ steps ih =>
    have halike := f.alike_mark n true
    rw [markDirty.go]
    generalize hmarked : f.modify n (fun node => { node with dirty := true }) = marked at halike ⊢
    -- now only the parent of `n` may be out of order, if it lives
    have hrest : ∀ q c, marked.isAlive q = true → marked.attaches q c = true →
        marked.isDirty c = true → marked.isDirty q = true
          ∨ f.isAlive q = true ∧ (f.node? n).bind Node.parent = some q := by
      intro q c halive hchild hdirty
      have hbefore := halike.symm.isAlive (hf.alike halike) halive
      have hlinked := halike.symm.attaches hchild
      subst hmarked
      rw [isDirty_mark] at hdirty ⊢
      obtain ⟨node, hnode, -⟩ := attaches_iff.mp hlinked
      obtain ⟨-, child, hfound, hparent⟩ := hf.of_attaches hlinked
      by_cases hq : n = q
      · exact Or.inl (by rw [if_pos hq, hnode]; rfl)
      · by_cases hc : n = c
        · exact Or.inr ⟨hbefore, by rw [hc, hfound]; exact hparent⟩
        · rw [if_neg hc] at hdirty
          exact Or.inl (by rw [if_neg hq]; exact h q c hbefore hlinked hdirty (Ne.symm hq))
    split
    · next p hp =>
      split
      · refine ih (hf.alike halike) ?_ ?_
        · obtain ⟨node, hnode, hparent⟩ := Option.bind_eq_some_iff.mp hp
          exact Nat.lt_of_lt_of_le (hf.above n node p hnode hparent) (Nat.le_of_lt_succ hsteps)
        · intro q c halive hchild hdirty hq
          refine (hrest q c halive hchild hdirty).resolve_right ?_
          rintro ⟨-, hparent⟩
          exact hq (Option.some.inj (hparent.symm.trans hp))
      · next hdead =>
        intro q c halive hchild hdirty
        refine (hrest q c halive hchild hdirty).resolve_right ?_
        rintro ⟨hbefore, hparent⟩
        exact hdead (Option.some.inj (hparent.symm.trans hp) ▸ hbefore)
    · next hnone =>
      intro q c halive hchild hdirty
      refine (hrest q c halive hchild hdirty).resolve_right ?_
      rintro ⟨-, hparent⟩
      rw [hparent] at hnone
      cases hnone

theorem markDirty (h : f.MarkedAbove) (hf : f.Sound) (n : NodeId) : (f.markDirty n).MarkedAbove :=
  markDirty_go hf (Nat.lt_succ_self n)
    (fun p c halive hchild hdirty _ => h p c halive hchild hdirty)

end MarkedAbove

/-! ## `markClean` -/

theorem isDirty_markClean_go (hf : f.Sound) {steps : Nat} (hn : n < f.nodes.length)
    (hsteps : f.nodes.length ≤ n + steps) {g : Forest} (hg : f.Alike g) :
    (markClean.go steps n g).isDirty m = true ↔ g.isDirty m = true ∧ ¬ f.Reaches n m := by
  induction steps generalizing n g with
  | zero => exact absurd hn (Nat.not_lt_of_le hsteps)
  | succ steps ih =>
    obtain ⟨node, hnode⟩ := exists_node hn
    obtain ⟨node', hnode', -, hsame, -⟩ := hg.found hnode
    -- one child after the other
    have hchildren : ∀ (children : Dict NodeId) (g : Forest), f.Alike g →
        (∀ entry ∈ children, entry ∈ node.children) →
        ((children.foldl (fun f c => markClean.go steps c.2 f) g).isDirty m = true
          ↔ g.isDirty m = true ∧ ∀ entry ∈ children, ¬ f.Reaches entry.2 m) := by
      intro children
      induction children with
      | nil => exact fun g _ _ => ⟨fun h => ⟨h, List.forall_mem_nil _⟩, fun h => h.1⟩
      | cons entry rest ihc =>
        intro g hg hsub
        obtain ⟨hentry, hrest⟩ := List.forall_mem_cons.mp hsub
        obtain ⟨hbehind, hlt⟩ := hf.ordered n node hnode entry hentry
        have hreach : f.nodes.length ≤ entry.2 + steps := by
          have hnext := Nat.add_le_add_right hbehind steps
          omega
        have hclean := ih hlt hreach hg
        have hothers := ihc _ (hg.trans (alike_markClean_go steps entry.2 g)) hrest
        rw [List.foldl_cons, hothers, hclean, and_assoc, List.forall_mem_cons]
    have hbelow := Reaches.iff_of_node (m := m) hf hnode
    rw [markClean.go, hnode']
    dsimp only
    rw [isDirty_mark, Bool.and_false, hsame, hbelow, not_or]
    split
    · next hm => exact ⟨fun h => absurd h Bool.false_ne_true, fun h => absurd hm h.2.1⟩
    · next hm =>
      rw [hchildren node.children g hg (fun _ => id)]
      simp only [hm, not_false_eq_true, true_and, not_exists, not_and]

/-- `markClean` cleans everything below a dictionary, and nothing else. -/
theorem isDirty_markClean_iff (hf : f.Sound) (hn : n < f.nodes.length) :
    (f.markClean n).isDirty m = true ↔ f.isDirty m = true ∧ ¬ f.Reaches n m :=
  isDirty_markClean_go hf hn (Nat.le_add_left ..) (.refl f)

namespace MarkedAbove

theorem markClean (h : f.MarkedAbove) (hf : f.Sound) (hn : n < f.nodes.length) :
    (f.markClean n).MarkedAbove := by
  have halike := f.alike_markClean n
  intro p c halive hchild hdirty
  have hbefore := halike.symm.isAlive (hf.alike halike) halive
  have hlinked := halike.symm.attaches hchild
  rw [isDirty_markClean_iff hf hn] at hdirty ⊢
  exact ⟨h p c hbefore hlinked hdirty.1, fun hp => hdirty.2 (hp.tail hf hlinked)⟩

theorem edit (h : f.MarkedAbove) (hf : f.Sound) {change : Node → Node}
    (hchange : KeepsPlace change) (hrecedes : f.Recedes ((f.modify n change).markDirty n)) :
    ((f.modify n change).markDirty n).MarkedAbove := by
  have hsound := hf.keepsPlace n hchange
  have hmodified := hrecedes.alike (alike_markDirty _ n).symm
  exact (h.of_recedes hf hsound hmodified (fun m => f.isDirty_modify n m _ hchange.dirty)).markDirty
    hsound n

theorem use (h : f.MarkedAbove) (hf : f.Sound) (hu : f.Admits u) : (f.use u).MarkedAbove := by
  have hrecedes := recedes_use hf hu
  have hsound := hf.use hu
  cases u with
  | make values => exact h.of_recedes hf hsound hrecedes (fun n => f.isDirty_create values n)
  | hold m => exact h.of_recedes hf hsound hrecedes (fun n => f.isDirty_holders m n (· + 1))
  | drop m => exact h.of_recedes hf hsound hrecedes (fun n => f.isDirty_holders m n (· - 1))
  | child m key => exact h.of_recedes hf hsound hrecedes (fun n => isDirty_child m key n)
  | set m key value => exact h.edit hf (keepsPlace_set key hu.2) hrecedes
  | remove m key =>
    change f.Recedes (f.remove m key).2 at hrecedes
    show (f.remove m key).2.MarkedAbove
    obtain heq | ⟨value, change, hchange, heq⟩ := f.remove_eq_edit m key
    · rw [heq]
      exact h
    · rw [heq] at hrecedes ⊢
      exact h.edit hf hchange hrecedes
  | markClean m =>
    obtain ⟨node, hnode, -⟩ := hu
    exact h.markClean hf (node?_eq_some_lt hnode)

theorem run (h : f.MarkedAbove) (hf : f.Sound) (huses : f.AdmitsAll uses) :
    (f.run uses).MarkedAbove := by
  induction uses generalizing f with
  | nil => exact h
  | cons u uses ih => exact ih (h.use hf huses.1) (hf.use huses.1) huses.2

/-- An edit of a dictionary marks whatever is alive above it. -/
theorem isDirty_edit (h : f.MarkedAbove) (hf : f.Sound) {change : Node → Node}
    (hchange : KeepsPlace change) (hrecedes : f.Recedes ((f.modify m change).markDirty m))
    (hm : m < f.nodes.length) (halive : f.isAlive n = true) (hreach : f.Reaches n m) :
    ((f.modify m change).markDirty m).isDirty n = true := by
  have hsound := hf.keepsPlace m hchange
  have halike := alike_markDirty (f.modify m change) m
  obtain ⟨path, hpath⟩ := hreach
  obtain ⟨holder, hheld, above, habove⟩ := (isAlive_iff hf).mp halive
  -- what is above a dictionary stays there when that one changes
  have hnm : n ≤ m := Reaches.le ⟨path, hpath⟩ hf
  have halive' : (f.modify m change).isAlive n = true :=
    (isAlive_iff hsound).mpr
      ⟨holder, hheld.modify hchange.holders m, above, habove.modify hf hnm change⟩
  have hdirty : ((f.modify m change).markDirty m).isDirty m = true :=
    isDirty_markDirty_self (by rw [length_modify]; exact hm)
  exact (h.edit hf hchange hrecedes).reaches (hsound.alike halike) (halike.isAlive hsound halive')
    ⟨path, halike.leads (hpath.modify hf (Nat.le_refl m) change)⟩ hdirty

end MarkedAbove

theorem markedAbove_empty : ({} : Forest).MarkedAbove := by
  intro p c _ _ hdirty
  exact absurd (lt_of_isDirty hdirty) (Nat.not_lt_zero c)

/-! ## What was taken out of a dictionary -/

/-- A child that was removed, or replaced by a value, is reached no more. -/
theorem not_reaches_use (hf : f.Sound) (htidy : f.Tidy) (hnode : f.node? p = some node)
    (hchild : node.children.find? key = some c) (hu : f.Admits u)
    (hedit : u = .remove p key ∨ ∃ value, u = .set p key value) : ¬ (f.use u).Reaches p c := by
  have hlinked := attaches_of_find? hnode hchild
  have hbehind := (hf.of_attaches hlinked).1
  have hc : c < f.nodes.length := (hf.ordered p node hnode _ (Keyed.mem_of_find? hchild)).2
  intro hreach
  rcases hreach.exists_parent with rfl | ⟨q, -, hq⟩
  · exact Nat.lt_irrefl _ hbehind
  · obtain rfl := hf.eq_of_attaches ((recedes_use hf hu).attaches q c hc hq) hlinked
    obtain ⟨node', hnode', key', hfound⟩ := exists_find?_of_attaches (hf.use hu) hq
    obtain ⟨after, hafter, hedits⟩ := exists_edits_use hnode u
    obtain rfl := Option.some.inj (hnode'.symm.trans hafter)
    rcases hedits.find?_children hfound with hold | ⟨rfl, -⟩
    · obtain rfl := (htidy q node hnode).single key key' c hchild hold
      rw [hedits.find?_eq_none hchild hedit] at hfound
      cases hfound
    · exact Nat.lt_irrefl _ hc

end Forest

/-- The dictionary that is used. -/
def Use.handle? : Use → Option NodeId
  | .make _ => none
  | .hold n | .drop n | .child n _ | .set n _ _ | .remove n _ | .markClean n => some n

namespace Forest

variable {f : Forest} {n m p : NodeId} {u : Use} {uses : List Use}

/-- The use of a dictionary does not change the content of one that does not reach it. -/
theorem content_use_of_not_reaches (hf : f.Sound) (hu : f.Admits u) (hm : u.handle? = some m)
    (hn : n < f.nodes.length) (h : ¬ f.Reaches n m) : (f.use u).content n = f.content n := by
  have hedit : ∀ {change : Node → Node}, KeepsPlace change →
      ((f.modify m change).markDirty m).content n = f.content n := by
    intro change hchange
    have hsound := hf.keepsPlace m hchange
    rw [(alike_markDirty _ m).content hsound,
      content_modify_of_not_leads hf hsound.ordered hn (fun path hpath => h ⟨path, hpath⟩)]
  cases u with
  | make values => cases hm
  | hold _ =>
    cases hm
    exact content_holders f m (· + 1) n
  | drop _ =>
    cases hm
    exact content_holders f m (· - 1) n
  | child _ key =>
    cases hm
    refine content_child hf hn ?_
    rintro ⟨_, _, path, _, ⟨⟩, hpath, -⟩
    exact h ⟨path, hpath⟩
  | set _ key value =>
    cases hm
    exact hedit (keepsPlace_set key hu.2)
  | remove _ key =>
    cases hm
    show (f.remove m key).2.content n = f.content n
    obtain heq | ⟨value, change, hchange, heq⟩ := f.remove_eq_edit m key
    · rw [heq]
    · rw [heq]
      exact hedit hchange
  | markClean _ =>
    cases hm
    exact (f.alike_markClean m).content hf n

/-- An edit marks all dictionaries above, and those above only. -/
structure WellMarked (f : Forest) : Prop where
  /-- Below a dictionary that is alive, whatever is above a dirty one is dirty. -/
  above : ∀ root above p below m, f.isAlive root = true → f.Leads root above p →
    f.Leads p below m → f.isDirty m = true → f.isDirty p = true
  /-- `set` marks whatever is alive above. -/
  set : ∀ root path m key value, f.isAlive root = true → f.Leads root path m →
    f.Admits (.set m key value) → (f.set m key value).isDirty root = true
  /-- `remove` of a value that is there marks whatever is alive above. -/
  remove : ∀ root path m key, f.isAlive root = true → f.Leads root path m →
    f.Admits (.remove m key) → (f.remove m key).1.isSome = true →
    (f.remove m key).2.isDirty root = true
  /-- `markClean` cleans everything below. -/
  markClean : ∀ n path m, f.Leads n path m → (f.markClean n).isDirty m = false
  /-- Once a child was removed, or replaced by a value, and whatever was done then, no use of it or
  of one below it changes the content of its former parent. -/
  detached : ∀ p node key c u later path m v, f.node? p = some node →
    node.children.find? key = some c → (u = .remove p key ∨ ∃ value, u = .set p key value) →
    f.AdmitsAll (u :: later) → (f.run (u :: later)).Leads c path m → v.handle? = some m →
    (f.run (u :: later)).Admits v →
    ((f.run (u :: later)).use v).content p = (f.run (u :: later)).content p

/-- Whatever is done with dictionaries, taken out of each other to any depth, let go and removed,
an edit reaches all dictionaries above, and those above only. -/
theorem marks_reach_ancestors (huses : ({} : Forest).AdmitsAll uses) :
    (({} : Forest).run uses).WellMarked := by
  have hf := sound_empty.run huses
  have htidy := tidy_empty.run sound_empty huses
  have hmarked := markedAbove_empty.run sound_empty huses
  generalize ({} : Forest).run uses = f at hf htidy hmarked
  refine ⟨?_, ?_, ?_, ?_, ?_⟩
  · intro root above p below m halive habove hbelow hdirty
    exact hmarked.reaches hf (isAlive_of_leads hf halive habove) ⟨below, hbelow⟩ hdirty
  · intro root path m key value halive hpath hu
    obtain ⟨node, hnode, -⟩ := hu.1
    exact hmarked.isDirty_edit hf (keepsPlace_set key hu.2) (recedes_use hf hu)
      (node?_eq_some_lt hnode) halive ⟨path, hpath⟩
  · intro root path m key halive hpath hu hsome
    obtain ⟨node, hnode, -⟩ := id hu
    have hrecedes : f.Recedes (f.remove m key).2 := recedes_use hf hu
    obtain heq | ⟨value, change, hchange, heq⟩ := f.remove_eq_edit m key
    · rw [heq] at hsome
      cases hsome
    · rw [heq] at hrecedes ⊢
      exact hmarked.isDirty_edit hf hchange hrecedes (node?_eq_some_lt hnode) halive ⟨path, hpath⟩
  · intro n path m hpath
    rw [Bool.eq_false_iff]
    intro hdirty
    have hm : m < f.nodes.length := (f.alike_markClean n).length ▸ lt_of_isDirty hdirty
    have hn := Nat.lt_of_le_of_lt (Reaches.le ⟨path, hpath⟩ hf) hm
    exact ((isDirty_markClean_iff hf hn).mp hdirty).2 ⟨path, hpath⟩
  · rintro p node key c u later path m v hnode hchild hedit ⟨hu, hlater⟩ hpath hhandle hv
    have hlinked := attaches_of_find? hnode hchild
    have hbehind := (hf.of_attaches hlinked).1
    have hc : c < (f.use u).nodes.length :=
      Nat.lt_of_lt_of_le (hf.ordered p node hnode _ (Keyed.mem_of_find? hchild)).2
        (f.grows_use u).length
    have hsound := hf.use hu
    have hsound' := hsound.run hlater
    have hapart : ¬ ((f.use u).run later).Reaches p c := fun hreach =>
      not_reaches_use hf htidy hnode hchild hu hedit
        ((recedes_run hsound hlater).reaches hsound hsound' hc hreach)
    have hp := Nat.lt_of_lt_of_le (Nat.lt_trans hbehind hc) ((f.use u).grows_run later).length
    refine content_use_of_not_reaches hsound' hv hhandle hp (fun hreach => ?_)
    -- of the former parent and the child, the one above the other would be the parent
    rcases hreach.total hsound' ⟨path, hpath⟩ with hdown | hup
    · exact hapart hdown
    · exact absurd (hup.le hsound') (Nat.not_le_of_lt hbehind)

/-- A dictionary with two objects, one of which has an object inside. -/
def shelf : Fields :=
  [("a", .obj [("b", .obj [("x", .int 1)])]), ("t", .obj [("y", .int 1)])]

/-- The inner object is edited when the one between it and the whole is no longer held: that one is
dirty all the same, and `markClean` of it reaches the inner one. A removed object keeps its edits to
itself. -/
theorem marks_reach_ancestors_shelf :
    let f := ({} : Forest).run [.make shelf, .child 0 "a", .child 1 "b", .child 0 "t", .drop 1,
      .set 2 "x" .null]
    let removed := f.run [.remove 0 "t", .hold 2]
    ¬ f.IsHeld 1 ∧ f.isDirty 1 = true ∧ (f.remove 2 "x").2.isDirty 0 = true
      ∧ (f.markClean 1).isDirty 2 = false
      ∧ (removed.use (.set 3 "y" .null)).content 0 = removed.content 0
      ∧ (removed.use (.set 3 "y" .null)).content 3 ≠ removed.content 3 := by
  intro f removed
  have h : f.WellMarked := marks_reach_ancestors (by decide +kernel)
  have halive : f.isAlive 0 = true := by decide +kernel
  have hnode (n : NodeId) (hsome : (f.node? n).isSome = true) :
      f.node? n = some ((f.node? n).get hsome) :=
    Option.eq_some_of_isSome hsome
  have hmiddle : f.Leads 0 ["a"] 1 :=
    .down .here (hnode 0 (by decide +kernel)) (by decide +kernel)
  have hinner : f.Leads 1 ["b"] 2 :=
    .down .here (hnode 1 (by decide +kernel)) (by decide +kernel)
  have hremoved := h.detached 0 _ "t" 3 (.remove 0 "t") [.hold 2] [] 3 (.set 3 "y" .null)
    (hnode 0 (by decide +kernel)) (by decide +kernel) (Or.inl rfl) (by decide +kernel) .here rfl
    (by decide +kernel)
  refine ⟨by decide +kernel, h.above 0 ["a"] 1 ["b"] 2 halive hmiddle hinner (by decide +kernel),
    h.remove 0 ["a", "b"] 2 "x" halive ?_ (by decide +kernel) (by decide +kernel),
    h.markClean 1 ["b"] 2 hinner, hremoved, by decide +kernel⟩
  exact hmiddle.down (hnode 1 (by decide +kernel)) (by decide +kernel)

end Forest

end DocumentSession.Metadata
