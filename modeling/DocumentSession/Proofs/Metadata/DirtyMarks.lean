import DocumentSession.Proofs.Metadata.Content

set_option autoImplicit false

/-! # The marks of edits

`markDirty` and `markClean` change nothing but the `dirty` marks (`Forest.Alike`). `markDirty` goes
upwards from parent to parent as long as they are alive. Everything below a dictionary that is alive
is alive, so it reaches every held dictionary above the edited one (`isDirty_markDirty`).
`markClean` goes downwards, and reaches nothing that has no parent (`isDirty_markClean_of_free`). -/

namespace DocumentSession.Metadata

/-- A node without its `dirty` mark. -/
def Node.unmarked (node : Node) : Node :=
  { node with dirty := false }

namespace Forest

variable {f f' f'' : Forest} {n m p : NodeId} {node : Node}

/-! ## Forests that differ in marks -/

/-- Every dictionary of `f'` is as in `f`, up to the `dirty` mark. -/
def Alike (f f' : Forest) : Prop :=
  ∀ n, (f'.node? n).map Node.unmarked = (f.node? n).map Node.unmarked

theorem Alike.refl (f : Forest) : f.Alike f :=
  fun _ => rfl

theorem Alike.symm (h : f.Alike f') : f'.Alike f :=
  fun n => (h n).symm

theorem Alike.trans (h : f.Alike f') (h' : f'.Alike f'') : f.Alike f'' :=
  fun n => (h' n).trans (h n)

theorem Alike.found (h : f.Alike f') (hnode : f.node? n = some node) :
    ∃ node', f'.node? n = some node' ∧ node'.values = node.values
      ∧ node'.children = node.children ∧ node'.parent = node.parent
      ∧ node'.holders = node.holders := by
  have hn := h n
  rw [hnode] at hn
  obtain ⟨node', hnode', hsame⟩ := Option.map_eq_some_iff.mp hn
  simp only [Node.unmarked, Node.mk.injEq, true_and] at hsame
  exact ⟨node', hnode', hsame⟩

theorem Alike.node?_eq_none (h : f.Alike f') (hnone : f.node? n = none) : f'.node? n = none := by
  have hn := h n
  rw [hnone] at hn
  exact Option.map_eq_none_iff.mp hn

theorem Alike.length (h : f.Alike f') : f'.nodes.length = f.nodes.length := by
  have hle : ∀ {g g' : Forest}, g.Alike g' → g'.nodes.length ≤ g.nodes.length := by
    intro g g' hg
    by_contra hlt
    have hnone := hg.node?_eq_none (n := g.nodes.length) (List.getElem?_eq_none (Nat.le_refl _))
    obtain ⟨node, hnode⟩ := exists_node (Nat.lt_of_not_le hlt)
    rw [hnone] at hnode
    cases hnode
  exact Nat.le_antisymm (hle h) (hle h.symm)

theorem alike_mark (f : Forest) (n : NodeId) (dirty : Bool) :
    f.Alike (f.modify n (fun node => { node with dirty })) := by
  intro m
  rw [node?_modify]
  split
  · cases f.node? m <;> rfl
  · rfl

theorem alike_markDirty_go (steps : Nat) (n : NodeId) (f : Forest) :
    f.Alike (markDirty.go steps n f) := by
  induction steps generalizing n f with
  | zero => exact .refl f
  | succ steps ih =>
    rw [markDirty.go]
    split
    · split
      · exact (f.alike_mark n true).trans (ih _ _)
      · exact f.alike_mark n true
    · exact f.alike_mark n true

theorem alike_markDirty (f : Forest) (n : NodeId) : f.Alike (f.markDirty n) :=
  alike_markDirty_go (n + 1) n f

theorem alike_markClean_go (steps : Nat) (n : NodeId) (f : Forest) :
    f.Alike (markClean.go steps n f) := by
  induction steps generalizing n f with
  | zero => exact .refl f
  | succ steps ih =>
    rw [markClean.go]
    split
    · exact .refl f
    · next node _ =>
      have hchildren : ∀ (children : Dict NodeId) (f : Forest),
          f.Alike (children.foldl (fun f c => markClean.go steps c.2 f) f) := by
        intro children
        induction children with
        | nil => exact .refl
        | cons c rest ihc => exact fun f => (ih c.2 f).trans (ihc _)
      exact (hchildren node.children f).trans (alike_mark _ n false)

theorem alike_markClean (f : Forest) (n : NodeId) : f.Alike (f.markClean n) :=
  alike_markClean_go f.nodes.length n f

theorem Sound.alike (hf : f.Sound) (h : f.Alike f') : f'.Sound := by
  refine hf.of_nodes (Nat.le_of_eq h.length.symm) ?_
  intro n node' hnode'
  obtain ⟨node, hnode, hvalues, hchildren, hparent, -⟩ := h.symm.found hnode'
  have hsound := hf.node n node hnode
  refine ⟨node, hnode, ⟨hvalues ▸ hsound.values, hchildren ▸ hsound.children⟩, ?_, hparent.symm⟩
  rw [hchildren]
  exact List.Subset.refl _

theorem Alike.content (h : f.Alike f') (hf : f.Sound) (n : NodeId) :
    f'.content n = f.content n := by
  cases hnode : f.node? n with
  | none => rw [content_eq_nil hnode, content_eq_nil (h.node?_eq_none hnode)]
  | some node =>
    refine content_eq_of_within hf.ordered ?_ (Nat.le_of_eq h.length.symm) (node?_eq_some_lt hnode)
    intro m before hbefore
    obtain ⟨after, hafter, hvalues, hchildren, -⟩ := h.found hbefore
    exact ⟨after, hafter, hvalues, hchildren⟩

theorem Alike.leads (h : f.Alike f') {path : List String} (hleads : f.Leads n path m) :
    f'.Leads n path m := by
  induction hleads with
  | here => exact .here
  | down _ hnode hchild ih =>
    obtain ⟨node', hnode', -, hchildren, -⟩ := h.found hnode
    exact ih.down hnode' (by rw [hchildren]; exact hchild)

/-! ## Dictionaries that are alive -/

/-- The dictionary has a holder. -/
def IsHeld (f : Forest) (n : NodeId) : Prop :=
  ∃ node, f.node? n = some node ∧ 0 < node.holders

theorem Alike.isHeld (h : f.Alike f') (hheld : f.IsHeld n) : f'.IsHeld n := by
  obtain ⟨node, hnode, hholders⟩ := hheld
  obtain ⟨node', hnode', -, -, -, hkept⟩ := h.found hnode
  exact ⟨node', hnode', by rw [hkept]; exact hholders⟩

theorem isAlive_go_mono {steps steps' : Nat} (hsteps : steps ≤ steps')
    (h : isAlive.go f steps n = true) : isAlive.go f steps' n = true := by
  induction steps generalizing n steps' with
  | zero => cases h
  | succ steps ih =>
    obtain ⟨steps', rfl⟩ : ∃ k, steps' = k + 1 := ⟨steps' - 1, by omega⟩
    rw [isAlive.go] at h ⊢
    split at h
    · cases h
    · next node hnode =>
      rw [Bool.or_eq_true] at h ⊢
      refine h.imp_right ?_
      cases node.parent with
      | none => exact id
      | some p =>
        simp only [Option.any_some, Bool.and_eq_true]
        exact fun ⟨hattached, halive⟩ => ⟨hattached, ih (by omega) halive⟩

theorem isAlive_of_isHeld (h : f.IsHeld n) : f.isAlive n = true := by
  obtain ⟨node, hnode, hholders⟩ := h
  rw [isAlive, isAlive.go, hnode]
  simp [hholders]

/-- What is below a dictionary that is alive is alive. -/
theorem isAlive_of_leads (hf : f.Sound) (halive : f.isAlive n = true) {path : List String}
    (h : f.Leads n path m) : f.isAlive m = true := by
  induction h with
  | here => exact halive
  | @down _ p node key child _ hnode hchild ih =>
    have hmem := Keyed.mem_of_find? hchild
    obtain ⟨child', hchild', hparent⟩ := hf.linked p node hnode _ hmem
    have hbehind := hf.above _ child' p hchild' hparent
    rw [isAlive, isAlive.go, hchild']
    dsimp only
    rw [hparent, Bool.or_eq_true]
    refine Or.inr ?_
    simp only [Option.any_some, Bool.and_eq_true]
    refine ⟨?_, isAlive_go_mono hbehind ih⟩
    rw [attaches, hnode, Option.any_some, List.any_eq_true]
    exact ⟨(key, child), hmem, by simp⟩

/-! ## `markDirty` goes upwards -/

theorem isDirty_mark (f : Forest) (n : NodeId) (dirty : Bool) (m : NodeId) :
    (f.modify n (fun node => { node with dirty })).isDirty m
      = if n = m then (f.node? m).isSome && dirty else f.isDirty m := by
  unfold isDirty
  rw [node?_modify]
  split
  · cases f.node? m <;> rfl
  · rfl

/-- `markDirty` cleans nothing. -/
theorem isDirty_markDirty_go_of_isDirty {steps : Nat} (h : f.isDirty m = true) :
    (markDirty.go steps n f).isDirty m = true := by
  have hmark : ∀ {f : Forest} {n : NodeId}, f.isDirty m = true →
      (f.modify n (fun node => { node with dirty := true })).isDirty m = true := by
    intro f n h
    rw [isDirty_mark]
    split
    · cases hnode : f.node? m with
      | none => simp [isDirty, hnode] at h
      | some node => rfl
    · exact h
  induction steps generalizing n f with
  | zero => exact h
  | succ steps ih =>
    rw [markDirty.go]
    split
    · split
      · exact ih (hmark h)
      · exact hmark h
    · exact hmark h

theorem isDirty_markDirty_go_self {steps : Nat} (hnode : f.node? n = some node) :
    (markDirty.go (steps + 1) n f).isDirty n = true := by
  have hmarked : (f.modify n (fun node => { node with dirty := true })).isDirty n = true := by
    rw [isDirty_mark, if_pos rfl, hnode]
    rfl
  rw [markDirty.go]
  split
  · split
    · exact isDirty_markDirty_go_of_isDirty hmarked
    · exact hmarked
  · exact hmarked

/-- `markDirty` marks the dictionary itself, whoever holds it. -/
theorem isDirty_markDirty_self (hn : n < f.nodes.length) : (f.markDirty n).isDirty n = true := by
  obtain ⟨node, hnode⟩ := exists_node hn
  exact isDirty_markDirty_go_self hnode

/-- `markDirty` reaches whatever is held above. -/
theorem isDirty_markDirty (hf : f.Sound) (hheld : f.IsHeld n) {path : List String}
    (h : f.Leads n path m) : (f.markDirty m).isDirty n = true := by
  -- upwards, where the forest on the way has more marks than the one at the start
  have hgo : ∀ g, f.Alike g → ∀ steps, m < steps → (markDirty.go steps m g).isDirty n = true := by
    induction h with
    | here =>
      intro g hg steps hsteps
      obtain ⟨steps, rfl⟩ := Nat.exists_eq_add_one_of_ne_zero (Nat.ne_zero_of_lt hsteps)
      obtain ⟨node, hnode, -⟩ := hg.isHeld hheld
      exact isDirty_markDirty_go_self hnode
    | @down path p node key child hpath hnode hchild ih =>
      intro g hg steps hsteps
      obtain ⟨steps, rfl⟩ := Nat.exists_eq_add_one_of_ne_zero (Nat.ne_zero_of_lt hsteps)
      obtain ⟨child', hchild', hparent⟩ :=
        hf.linked p node hnode _ (Keyed.mem_of_find? hchild)
      have hbehind := hf.above _ child' p hchild' hparent
      obtain ⟨after, hafter, -, -, hsame, -⟩ := hg.found hchild'
      have hparent' : after.parent = some p := hsame.trans hparent
      have halive : g.isAlive p = true := isAlive_of_leads (hf.alike hg)
        (isAlive_of_isHeld (hg.isHeld hheld)) (hg.leads hpath)
      rw [markDirty.go, hafter]
      simp only [Option.bind_some, hparent', halive, if_true]
      exact ih _ (hg.trans (g.alike_mark child true)) steps
        (Nat.lt_of_lt_of_le hbehind (Nat.le_of_lt_succ hsteps))
  exact hgo f (.refl f) (m + 1) (Nat.lt_succ_self m)

/-! ## `markClean` goes downwards -/

/-- The dictionary was made on its own, and has no parent. -/
def IsFree (f : Forest) (n : NodeId) : Prop :=
  ∃ node, f.node? n = some node ∧ node.parent = none

theorem Alike.isFree (h : f.Alike f') (hfree : f.IsFree n) : f'.IsFree n := by
  obtain ⟨node, hnode, hparent⟩ := hfree
  obtain ⟨node', hnode', -, -, hsame, -⟩ := h.found hnode
  exact ⟨node', hnode', hsame.trans hparent⟩

theorem IsFree.ne_child (h : f.IsFree n) (hf : f.Sound) (hnode : f.node? m = some node)
    {entry : String × NodeId} (hentry : entry ∈ node.children) : entry.2 ≠ n := by
  rintro rfl
  obtain ⟨free, hfree, hnone⟩ := h
  obtain ⟨child, hchild, hparent⟩ := hf.linked m node hnode entry hentry
  obtain rfl := Option.some.inj (hfree.symm.trans hchild)
  rw [hnone] at hparent
  cases hparent

theorem isDirty_markClean_of_free (hf : f.Sound) (hfree : f.IsFree n) (hne : m ≠ n) :
    (f.markClean m).isDirty n = f.isDirty n := by
  have hgo : ∀ (steps : Nat) (f : Forest) (m : NodeId), f.Sound → f.IsFree n → m ≠ n →
      (markClean.go steps m f).isDirty n = f.isDirty n := by
    intro steps
    induction steps with
    | zero => exact fun _ _ _ _ _ => rfl
    | succ steps ih =>
      intro f m hf hfree hne
      rw [markClean.go]
      split
      · rfl
      · next node hnode =>
        have hchildren : ∀ (children : Dict NodeId) (g : Forest), f.Alike g →
            (∀ entry ∈ children, entry.2 ≠ n) →
            (children.foldl (fun f c => markClean.go steps c.2 f) g).isDirty n = g.isDirty n := by
          intro children
          induction children with
          | nil => exact fun _ _ _ => rfl
          | cons c rest ihc =>
            intro g hg hother
            obtain ⟨hc, hrest⟩ := List.forall_mem_cons.mp hother
            exact (ihc _ (hg.trans (alike_markClean_go steps c.2 g)) hrest).trans
              (ih g c.2 (hf.alike hg) (hg.isFree hfree) hc)
        rw [isDirty_mark, if_neg hne]
        exact hchildren node.children f (.refl f)
          (fun entry hentry => hfree.ne_child hf hnode hentry)
  exact hgo f.nodes.length f m hf hfree hne

theorem isDirty_markClean_self (hn : n < f.nodes.length) : (f.markClean n).isDirty n = false := by
  unfold markClean
  obtain ⟨steps, hsteps⟩ := Nat.exists_eq_add_one_of_ne_zero (Nat.ne_zero_of_lt hn)
  obtain ⟨node, hnode⟩ := exists_node hn
  rw [hsteps, markClean.go, hnode]
  dsimp only
  rw [isDirty_mark, if_pos rfl, Bool.and_false]

end Forest

end DocumentSession.Metadata
