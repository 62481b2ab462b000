import DocumentSession.Proofs.Keyed
import DocumentSession.Metadata.Forest

set_option autoImplicit false

/-! # Forests in order

A forest is in order if every child comes after its parent (`Forest.Ordered`). Then a walk downwards
ends, the content of a dictionary does not depend on how many dictionaries come after it, and a new
one keeps the content of those that are there (`content_create`).

All edits keep a forest in order, and none removes a dictionary (`Forest.Grows`). What only reads
may give out dictionaries and make new ones, but keeps the content of every dictionary
(`Forest.Undisturbed`). -/

namespace DocumentSession.Metadata.Forest

variable {f f' f'' : Forest} {n m : NodeId}

/-- Every child comes after its parent. -/
def Ordered (f : Forest) : Prop :=
  ∀ n node, f.node? n = some node → ∀ entry ∈ node.children,
    n < entry.2 ∧ entry.2 < f.nodes.length

/-! ## Look-up -/

theorem node?_modify (f : Forest) (n : NodeId) (change : Node → Node) (m : NodeId) :
    (f.modify n change).node? m = if n = m then (f.node? m).map change else f.node? m := by
  unfold node? modify
  rw [List.getElem?_modify]
  split
  · rfl
  · exact Option.map_id'

theorem length_modify (f : Forest) (n : NodeId) (change : Node → Node) :
    (f.modify n change).nodes.length = f.nodes.length :=
  List.length_modify ..

theorem node?_eq_some_lt {node : Node} (h : f.node? n = some node) : n < f.nodes.length :=
  (List.getElem?_eq_some_iff.mp h).1

theorem node?_create (f : Forest) (values : Fields) (parent : Option NodeId) (n : NodeId) :
    (f.create values parent).2.node? n
      = if n = f.nodes.length then some { values, parent } else f.node? n := by
  unfold node? create
  dsimp only
  rcases Nat.lt_trichotomy n f.nodes.length with hlt | rfl | hgt
  · rw [List.getElem?_append_left hlt, if_neg (Nat.ne_of_lt hlt)]
  · rw [List.getElem?_append_right (Nat.le_refl _), Nat.sub_self, if_pos rfl]
    rfl
  · rw [if_neg (Nat.ne_of_gt hgt), List.getElem?_eq_none (Nat.le_of_lt hgt), List.getElem?_eq_none]
    rw [List.length_append]
    exact hgt

theorem length_create (f : Forest) (values : Fields) (parent : Option NodeId) :
    (f.create values parent).2.nodes.length = f.nodes.length + 1 :=
  List.length_append

/-! ## Edits -/

theorem isDirty_create (f : Forest) (values : Fields) (n : NodeId) :
    (f.create values).2.isDirty n = f.isDirty n := by
  unfold isDirty
  rw [node?_create]
  split
  · next hn =>
    have hnone : f.node? n = none := List.getElem?_eq_none (Nat.le_of_eq hn.symm)
    rw [hnone]
    rfl
  · rfl

theorem isDirty_created (f : Forest) (values : Fields) :
    (f.create values).2.isDirty (f.create values).1 = false := by
  rw [isDirty_create]
  have hnone : f.node? (f.create values).1 = none := List.getElem?_eq_none (Nat.le_refl _)
  unfold isDirty
  rw [hnone]
  rfl

theorem isDirty_release (f : Forest) (n m : NodeId) : (f.release n).isDirty m = f.isDirty m := by
  unfold isDirty release
  rw [node?_modify]
  split
  · cases f.node? m <;> rfl
  · rfl

/-! ## Content -/

/-- Every dictionary of `f` has the same values and children in `f'`. -/
def Within (f f' : Forest) : Prop :=
  ∀ n node, f.node? n = some node → ∃ node', f'.node? n = some node'
    ∧ node'.values = node.values ∧ node'.children = node.children

/-- In a forest in order, as many steps as there are dictionaries from `n` on reach every leaf below
`n`. More steps, and more dictionaries, change nothing. -/
theorem content_go_eq (hf : f.Ordered) (hwithin : f.Within f') {steps steps' : Nat} {n : NodeId}
    (hn : n < f.nodes.length) (hsteps : f.nodes.length ≤ n + steps)
    (hsteps' : f.nodes.length ≤ n + steps') : content.go f' steps' n = content.go f steps n := by
  induction steps generalizing n steps' with
  | zero => exact absurd hn (Nat.not_lt_of_le hsteps)
  | succ steps ih =>
    cases steps' with
    | zero => exact absurd hn (Nat.not_lt_of_le hsteps')
    | succ steps' =>
      have hnode : f.node? n = some f.nodes[n] := List.getElem?_eq_getElem hn
      obtain ⟨node', hnode', hvalues, hchildren⟩ := hwithin n _ hnode
      rw [content.go, content.go, hnode, hnode']
      dsimp only
      rw [hvalues, hchildren]
      congr 1
      apply List.map_congr_left
      intro entry hentry
      obtain ⟨hbehind, hlt⟩ := hf n _ hnode entry hentry
      dsimp only
      have hreach : ∀ k, f.nodes.length ≤ n + (k + 1) → f.nodes.length ≤ entry.2 + k := by
        intro k hk
        rw [Nat.add_succ, ← Nat.succ_add] at hk
        exact Nat.le_trans hk (Nat.add_le_add_right hbehind k)
      rw [ih hlt (hreach steps hsteps) (hreach steps' hsteps')]

theorem content_eq_of_within (hf : f.Ordered) (hwithin : f.Within f')
    (hlength : f.nodes.length ≤ f'.nodes.length) (hn : n < f.nodes.length) :
    f'.content n = f.content n :=
  content_go_eq hf hwithin hn (by omega) (by omega)

theorem within_create (f : Forest) (values : Fields) : f.Within (f.create values).2 := by
  intro n node hnode
  refine ⟨node, ?_, rfl, rfl⟩
  rw [node?_create, if_neg (Nat.ne_of_lt (node?_eq_some_lt hnode))]
  exact hnode

/-- `create` keeps the content of the dictionaries that are there. -/
theorem content_create (hf : f.Ordered) (values : Fields) (hn : n < f.nodes.length) :
    (f.create values).2.content n = f.content n :=
  content_eq_of_within hf (f.within_create values) (by rw [length_create]; exact Nat.le_succ _) hn

/-- The content of a new dictionary is the values that it was made from. -/
theorem content_created (f : Forest) (values : Fields) :
    (f.create values).2.content (f.create values).1 = values := by
  have hnode : (f.create values).2.node? (f.create values).1
      = some { values, parent := none } := by
    rw [node?_create]
    exact if_pos rfl
  unfold content
  rw [length_create, content.go, hnode]
  rfl

/-! ## Holders -/

/-- `f` without its `holders`. -/
def unheld (f : Forest) : Forest :=
  ⟨f.nodes.map (fun node => { node with holders := 0 })⟩

theorem node?_unheld (f : Forest) (n : NodeId) :
    f.unheld.node? n = (f.node? n).map (fun node => { node with holders := 0 }) :=
  List.getElem?_map ..

theorem content_unheld (f : Forest) (n : NodeId) : f.unheld.content n = f.content n := by
  have hgo : ∀ steps n, content.go f.unheld steps n = content.go f steps n := by
    intro steps
    induction steps with
    | zero =>
      intro n
      rfl
    | succ steps ih =>
      intro n
      rw [content.go, content.go, node?_unheld]
      cases f.node? n with
      | none => rfl
      | some node => simp only [Option.map_some, ih]
  unfold content
  rw [hgo]
  congr 1
  exact List.length_map ..

theorem isDirty_unheld (f : Forest) (n : NodeId) : f.unheld.isDirty n = f.isDirty n := by
  unfold isDirty
  rw [node?_unheld]
  cases f.node? n <;> rfl

theorem unheld_modify (f : Forest) (n : NodeId) (change : Node → Node)
    (hchange : ∀ node, { change node with holders := 0 } = { node with holders := 0 }) :
    (f.modify n change).unheld = f.unheld := by
  unfold unheld modify
  congr 1
  apply List.ext_getElem?
  intro i
  rw [List.getElem?_map, List.getElem?_map, List.getElem?_modify]
  cases f.nodes[i]? with
  | none => rfl
  | some node =>
    simp only [Option.map_eq_map, Option.map_some]
    split
    · rw [hchange]
    · rfl

theorem unheld_release (f : Forest) (n : NodeId) : (f.release n).unheld = f.unheld :=
  f.unheld_modify n _ (fun _ => rfl)

/-! ## Edits of a forest -/

/-- From `f` to `f'` no dictionary is removed, and the order is kept. -/
structure Grows (f f' : Forest) : Prop where
  length : f.nodes.length ≤ f'.nodes.length
  ordered : f.Ordered → f'.Ordered

theorem Grows.refl (f : Forest) : f.Grows f :=
  ⟨Nat.le_refl _, id⟩

theorem Grows.trans (h : f.Grows f') (h' : f'.Grows f'') : f.Grows f'' :=
  ⟨Nat.le_trans h.length h'.length, h'.ordered ∘ h.ordered⟩

/-- A change of one dictionary keeps the order, if it adds no children. -/
theorem grows_modify (f : Forest) (n : NodeId) (change : Node → Node)
    (hchange : ∀ node, (change node).children ⊆ node.children) : f.Grows (f.modify n change) := by
  refine ⟨Nat.le_of_eq (length_modify ..).symm, ?_⟩
  intro hf m node hnode entry hentry
  rw [length_modify]
  rw [node?_modify] at hnode
  split at hnode
  · obtain ⟨before, hbefore, rfl⟩ := Option.map_eq_some_iff.mp hnode
    exact hf m before hbefore entry (hchange before hentry)
  · exact hf m node hnode entry hentry

theorem grows_create (f : Forest) (values : Fields) (parent : Option NodeId) :
    f.Grows (f.create values parent).2 := by
  refine ⟨by rw [length_create]; exact Nat.le_succ _, ?_⟩
  intro hf m node hnode entry hentry
  rw [length_create]
  rw [node?_create] at hnode
  split at hnode
  · obtain rfl := Option.some.inj hnode
    cases hentry
  · obtain ⟨hbehind, hlt⟩ := hf m node hnode entry hentry
    exact ⟨hbehind, Nat.lt_succ_of_lt hlt⟩

theorem grows_retain (f : Forest) (n : NodeId) : f.Grows (f.retain n) :=
  f.grows_modify n _ (fun node => List.Subset.refl node.children)

theorem grows_release (f : Forest) (n : NodeId) : f.Grows (f.release n) :=
  f.grows_modify n _ (fun node => List.Subset.refl node.children)

theorem grows_markDirty (f : Forest) (n : NodeId) : f.Grows (f.markDirty n) := by
  unfold markDirty
  generalize n + 1 = steps
  induction steps generalizing n f with
  | zero => exact .refl f
  | succ steps ih =>
    have hmarked := f.grows_modify n (fun node => { node with dirty := true })
      (fun node => List.Subset.refl node.children)
    rw [markDirty.go]
    split
    · split
      · exact hmarked.trans (ih _ _)
      · exact hmarked
    · exact hmarked

theorem grows_markClean (f : Forest) (n : NodeId) : f.Grows (f.markClean n) := by
  unfold markClean
  generalize f.nodes.length = steps
  induction steps generalizing n f with
  | zero => exact .refl f
  | succ steps ih =>
    rw [markClean.go]
    split
    · exact .refl f
    · next node _ =>
      have hchildren : ∀ (children : Dict NodeId) (f : Forest),
          f.Grows (children.foldl (fun f c => markClean.go steps c.2 f) f) := by
        intro children
        induction children with
        | nil => exact fun f => .refl f
        | cons c rest ihc => exact fun f => (ih f c.2).trans (ihc _)
      exact (hchildren node.children f).trans
        (grows_modify _ n _ (fun node => List.Subset.refl node.children))

theorem grows_set (f : Forest) (n : NodeId) (key : String) (value : Json) :
    f.Grows (f.set n key value) :=
  (f.grows_modify n _ (fun _ => List.filter_sublist.subset)).trans (grows_markDirty _ n)

theorem grows_remove (f : Forest) (n : NodeId) (key : String) : f.Grows (f.remove n key).2 := by
  unfold remove
  split
  · exact .refl f
  · split
    · exact (f.grows_modify n _ (fun _ => List.filter_sublist.subset)).trans (grows_markDirty _ n)
    · split
      · have hrest := f.grows_modify n
          (fun node => { node with values := node.values.erase key })
          (fun node => List.Subset.refl node.children)
        exact hrest.trans (grows_markDirty _ n)
      · exact .refl f

/-- A dictionary may get a child that comes after it. -/
theorem grows_adopt (f : Forest) {parent child : NodeId} (hbehind : parent < child)
    (hlt : child < f.nodes.length) (key : String) :
    f.Grows (f.modify parent
      (fun node => { node with children := node.children.insert key child })) := by
  refine ⟨Nat.le_of_eq (length_modify ..).symm, ?_⟩
  intro hf m node hnode entry hentry
  rw [length_modify]
  rw [node?_modify] at hnode
  split at hnode
  · next hm =>
    subst hm
    obtain ⟨before, hbefore, rfl⟩ := Option.map_eq_some_iff.mp hnode
    rcases Keyed.mem_of_mem_insert hentry with rfl | hold
    · exact ⟨hbehind, hlt⟩
    · exact hf parent before hbefore entry hold
  · exact hf m node hnode entry hentry

theorem grows_child (f : Forest) (n : NodeId) (key : String) : f.Grows (f.child n key).2 := by
  unfold child
  split
  · exact .refl f
  · next node hnode =>
    split
    · exact f.grows_retain _
    · have hrest := f.grows_modify n
        (fun node => { node with values := node.values.erase key })
        (fun node => List.Subset.refl node.children)
      dsimp only
      split
      · exact hrest
      · next values _ =>
        have hn := Nat.lt_of_lt_of_le (node?_eq_some_lt hnode) hrest.length
        refine (hrest.trans (grows_create _ values (some n))).trans (grows_adopt _ hn ?_ key)
        rw [length_create]
        exact Nat.lt_succ_self _

/-! ## Reading -/

/-- Every dictionary keeps its content, and there may be more. -/
structure Undisturbed (f f' : Forest) : Prop extends f.Grows f' where
  content : ∀ n < f.nodes.length, f'.content n = f.content n
  isDirty : ∀ n < f.nodes.length, f'.isDirty n = f.isDirty n

theorem Undisturbed.refl (f : Forest) : f.Undisturbed f :=
  ⟨.refl f, fun _ _ => rfl, fun _ _ => rfl⟩

theorem Undisturbed.trans (h : f.Undisturbed f') (h' : f'.Undisturbed f'') : f.Undisturbed f'' := by
  refine ⟨h.toGrows.trans h'.toGrows, ?_, ?_⟩
  · intro n hn
    rw [h'.content n (Nat.lt_of_lt_of_le hn h.length), h.content n hn]
  · intro n hn
    rw [h'.isDirty n (Nat.lt_of_lt_of_le hn h.length), h.isDirty n hn]

/-- `create` disturbs no dictionary. -/
theorem undisturbed_create (hf : f.Ordered) (values : Fields) :
    f.Undisturbed (f.create values).2 :=
  ⟨f.grows_create values none, fun _ hn => content_create hf values hn,
    fun n _ => f.isDirty_create values n⟩

end DocumentSession.Metadata.Forest
