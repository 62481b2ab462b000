import DocumentSession.Proofs.Metadata.DirtyMarks

set_option autoImplicit false

/-! # Uses of dictionaries

Whoever holds a dictionary may pass it on, drop it, take an object out of it as a dictionary of its
own, and set and remove values; `Forest.Use` lists all that can be done to a forest. To read a
dictionary is no use of it: `Forest.get?`, `Forest.contains`, `Forest.size` and `Forest.content`
give an answer and no forest.

Every use keeps a forest sound (`Sound.run`). What a single use does to a dictionary that is held,
has no parent and is clean afterwards, is the step lemma `content_use_of_clean`: nothing, unless
`child` was called for a key with a value other than an object (`Forest.Loses`). -/

namespace DocumentSession.Metadata

/-- A use of a forest. -/
inductive Use where
  | make (values : Fields)
  | hold (n : NodeId)
  | drop (n : NodeId)
  | child (n : NodeId) (key : String)
  | set (n : NodeId) (key : String) (value : Json)
  | remove (n : NodeId) (key : String)
  | markClean (n : NodeId)
  deriving DecidableEq

/-- A change of the values and children of a node that adds no child. -/
structure KeepsPlace (change : Node → Node) : Prop where
  sound : ∀ node, node.IsSound → (change node).IsSound
  children : ∀ node, (change node).children ⊆ node.children
  parent : ∀ node, (change node).parent = node.parent
  holders : ∀ node, (change node).holders = node.holders
  dirty : ∀ node, (change node).dirty = node.dirty

namespace Forest

variable {f f' : Forest} {n m root : NodeId} {node : Node} {key : String} {u : Use}

/-- The forest after a use. -/
def use (f : Forest) : Use → Forest
  | .make values => (f.create values).2
  | .hold n => f.retain n
  | .drop n => f.release n
  | .child n key => (f.child n key).2
  | .set n key value => f.set n key value
  | .remove n key => (f.remove n key).2
  | .markClean n => f.markClean n

/-- The forest after some uses. -/
def run (f : Forest) (uses : List Use) : Forest :=
  uses.foldl use f

/-- Only a dictionary that is held can be used, and only well-formed values are put into it. -/
def Admits (f : Forest) : Use → Prop
  | .make values => (Json.obj values).isWellFormed = true
  | .set n _ value => f.IsHeld n ∧ value.isWellFormed = true
  | .hold n | .drop n | .child n _ | .remove n _ | .markClean n => f.IsHeld n

/-- Each use is admitted in the forest after those before it. -/
def AdmitsAll (f : Forest) : List Use → Prop
  | [] => True
  | u :: uses => f.Admits u ∧ (f.use u).AdmitsAll uses

instance (f : Forest) (n : NodeId) : Decidable (f.IsHeld n) :=
  decidable_of_iff ((f.node? n).any (fun node => 0 < node.holders) = true) (by
    simp [IsHeld, Option.any_eq_true])

instance (f : Forest) : (u : Use) → Decidable (f.Admits u)
  | .make values => inferInstanceAs (Decidable ((Json.obj values).isWellFormed = true))
  | .set n _ value => inferInstanceAs (Decidable (f.IsHeld n ∧ value.isWellFormed = true))
  | .hold n | .drop n | .child n _ | .remove n _ | .markClean n =>
    inferInstanceAs (Decidable (f.IsHeld n))

instance decidableAdmitsAll (f : Forest) : (uses : List Use) → Decidable (f.AdmitsAll uses)
  | [] => inferInstanceAs (Decidable True)
  | u :: uses =>
    have := decidableAdmitsAll (f.use u) uses
    inferInstanceAs (Decidable (f.Admits u ∧ (f.use u).AdmitsAll uses))

/-! ## Soundness -/

theorem keepsPlace_set (key : String) {value : Json} (hvalue : value.isWellFormed = true) :
    KeepsPlace (fun node => { node with
      values := node.values.insert key value
      children := node.children.erase key }) where
  sound _ hnode :=
    ⟨Json.isWellFormed_insert hnode.values key hvalue, Keyed.sorted_erase hnode.children key⟩
  children _ := List.filter_sublist.subset
  parent _ := rfl
  holders _ := rfl
  dirty _ := rfl

theorem keepsPlace_eraseValue (key : String) :
    KeepsPlace (fun node => { node with values := node.values.erase key }) where
  sound _ hnode := ⟨Json.isWellFormed_erase hnode.values key, hnode.children⟩
  children _ := List.Subset.refl _
  parent _ := rfl
  holders _ := rfl
  dirty _ := rfl

theorem keepsPlace_eraseChild (key : String) :
    KeepsPlace (fun node => { node with children := node.children.erase key }) where
  sound _ hnode := ⟨hnode.values, Keyed.sorted_erase hnode.children key⟩
  children _ := List.filter_sublist.subset
  parent _ := rfl
  holders _ := rfl
  dirty _ := rfl

theorem Sound.keepsPlace (hf : f.Sound) (n : NodeId) {change : Node → Node}
    (hchange : KeepsPlace change) : (f.modify n change).Sound :=
  hf.modify n change
    (fun node hnode => ⟨hchange.sound node hnode, hchange.children node, hchange.parent node⟩)

theorem Sound.holders (hf : f.Sound) (n : NodeId) (count : Nat → Nat) :
    (f.modify n (fun node => { node with holders := count node.holders })).Sound :=
  hf.modify n _ (fun _ hnode => ⟨⟨hnode.values, hnode.children⟩, List.Subset.refl _, rfl⟩)

/-- A dictionary without the value under `key`. -/
def forget (f : Forest) (n : NodeId) (key : String) : Forest :=
  f.modify n (fun node => { node with values := node.values.erase key })

/-- A dictionary without the child under `key`. -/
def detach (f : Forest) (n : NodeId) (key : String) : Forest :=
  f.modify n (fun node => { node with children := node.children.erase key })

/-- An object under a key of a dictionary becomes a dictionary of its own. -/
def give (f : Forest) (n : NodeId) (key : String) (values : Fields) : Forest :=
  ((f.forget n key).create values (some n)).2.modify n
    (fun node => { node with children := node.children.insert key f.nodes.length })

theorem Sound.forget (hf : f.Sound) (n : NodeId) (key : String) : (f.forget n key).Sound :=
  hf.keepsPlace n (keepsPlace_eraseValue key)

theorem node?_give (hm : m < f.nodes.length) (key : String) (values : Fields) (n : NodeId) :
    (f.give m key values).node? n
      = if n = f.nodes.length then some { values, parent := some m }
        else if m = n then (f.node? n).map (fun node => { node with
          values := node.values.erase key
          children := node.children.insert key f.nodes.length })
        else f.node? n := by
  unfold give forget
  rw [node?_modify, node?_create, length_modify, node?_modify]
  by_cases hn : n = f.nodes.length
  · rw [if_pos hn, if_pos hn, if_neg (Nat.ne_of_lt (hn ▸ hm))]
  · rw [if_neg hn, if_neg hn]
    split
    · cases f.node? n <;> rfl
    · rfl

/-- What `child` does: it finds a child, or no object, or makes a child of one. -/
theorem child_cases (f : Forest) (n : NodeId) (key : String) :
    (f.node? n = none ∧ f.child n key = (none, f))
      ∨ ∃ node, f.node? n = some node
        ∧ ((∃ c, node.children.find? key = some c ∧ f.child n key = (some c, f.retain c))
          ∨ node.children.find? key = none
            ∧ (((node.values.find? key).bind Json.fields? = none
                ∧ f.child n key = (none, f.forget n key))
              ∨ ∃ values, node.values.find? key = some (.obj values)
                ∧ f.child n key = (some f.nodes.length, f.give n key values))) := by
  unfold child
  cases hnode : f.node? n with
  | none => exact Or.inl ⟨rfl, rfl⟩
  | some node =>
    refine Or.inr ⟨node, rfl, ?_⟩
    dsimp only
    cases hchild : node.children.find? key with
    | some c => exact Or.inl ⟨c, rfl, rfl⟩
    | none =>
      refine Or.inr ⟨rfl, ?_⟩
      cases hvalues : (node.values.find? key).bind Json.fields? with
      | none => exact Or.inl ⟨rfl, rfl⟩
      | some values =>
        obtain ⟨value, hvalue, hfields⟩ := Option.bind_eq_some_iff.mp hvalues
        cases value with
        | obj fields =>
          obtain rfl := Option.some.inj hfields
          refine Or.inr ⟨fields, hvalue, ?_⟩
          dsimp only
          unfold give forget create
          rw [length_modify]
        | _ => cases hfields

/-- What `remove` does: it finds nothing, or takes away a child, or else a value. -/
theorem remove_cases (f : Forest) (n : NodeId) (key : String) :
    ((∀ node, f.node? n = some node →
        node.children.find? key = none ∧ node.values.find? key = none)
      ∧ f.remove n key = (none, f))
      ∨ ∃ node, f.node? n = some node
        ∧ ((∃ c, node.children.find? key = some c
            ∧ f.remove n key
              = (some (.obj ((f.detach n key).content c)), (f.detach n key).markDirty n))
          ∨ node.children.find? key = none
            ∧ ∃ value, node.values.find? key = some value
              ∧ f.remove n key = (some value, (f.forget n key).markDirty n)) := by
  unfold remove
  cases hnode : f.node? n with
  | none => exact Or.inl ⟨fun _ => nofun, rfl⟩
  | some node =>
    dsimp only
    cases hchild : node.children.find? key with
    | some c => exact Or.inr ⟨node, rfl, Or.inl ⟨c, hchild, rfl⟩⟩
    | none =>
      cases hvalue : node.values.find? key with
      | some value => exact Or.inr ⟨node, rfl, Or.inr ⟨hchild, value, hvalue, rfl⟩⟩
      | none =>
        refine Or.inl ⟨?_, rfl⟩
        rintro _ ⟨⟩
        exact ⟨hchild, hvalue⟩

/-- `remove` edits the dictionary in place, unless nothing is under the key. -/
theorem remove_eq_edit (f : Forest) (n : NodeId) (key : String) :
    f.remove n key = (none, f)
      ∨ ∃ value change, KeepsPlace change
        ∧ f.remove n key = (some value, (f.modify n change).markDirty n) := by
  obtain ⟨-, heq⟩ | ⟨node, -, ⟨c, -, heq⟩ | ⟨-, value, -, heq⟩⟩ := f.remove_cases n key
  · exact Or.inl heq
  · exact Or.inr ⟨_, _, keepsPlace_eraseChild key, heq⟩
  · exact Or.inr ⟨value, _, keepsPlace_eraseValue key, heq⟩

theorem Sound.give (hf : f.Sound) (hnode : f.node? n = some node) {values : Fields}
    (hvalues : node.values.find? key = some (.obj values)) : (f.give n key values).Sound := by
  have hwell := Json.isWellFormed_of_mem (hf.node n node hnode).values (Keyed.mem_of_find? hvalues)
  have hlength : (f.forget n key).nodes.length = f.nodes.length := length_modify ..
  have hparent : ∀ p, some n = some p → p < (f.forget n key).nodes.length := by
    rintro p ⟨⟩
    rw [hlength]
    exact node?_eq_some_lt hnode
  have hmade : ((f.forget n key).create values (some n)).2.node? f.nodes.length
      = some { values, parent := some n } := by
    rw [node?_create, if_pos hlength.symm]
  exact ((hf.forget n key).create hwell hparent).adopt hmade rfl key

theorem Sound.child (hf : f.Sound) (n : NodeId) (key : String) : (f.child n key).2.Sound := by
  obtain ⟨-, heq⟩ | ⟨node, hnode, ⟨c, -, heq⟩ | ⟨-, ⟨-, heq⟩ | ⟨values, hvalues, heq⟩⟩⟩ :=
    f.child_cases n key
  · rw [heq]
    exact hf
  · rw [heq]
    exact hf.holders c (· + 1)
  · rw [heq]
    exact hf.forget n key
  · rw [heq]
    exact hf.give hnode hvalues

theorem Sound.set (hf : f.Sound) (n : NodeId) (key : String) {value : Json}
    (hvalue : value.isWellFormed = true) : (f.set n key value).Sound :=
  (hf.keepsPlace n (keepsPlace_set key hvalue)).alike (alike_markDirty _ n)

/-- What is `set` is in the content, and marked. -/
theorem find?_content_set (hf : f.Sound) (hn : n < f.nodes.length) (key : String) {value : Json}
    (hvalue : value.isWellFormed = true) :
    ((f.set n key value).content n).find? key = some value
      ∧ (f.set n key value).isDirty n = true := by
  obtain ⟨node, hnode⟩ := exists_node hn
  have hset := hf.keepsPlace n (keepsPlace_set key hvalue)
  refine ⟨?_, isDirty_markDirty_self (by rw [length_modify]; exact hn)⟩
  unfold Forest.set
  rw [(alike_markDirty _ n).content hset n,
    find?_content hset (by rw [node?_modify, if_pos rfl, hnode]; rfl)]
  dsimp only
  rw [Keyed.find?_erase, if_pos rfl, Keyed.find?_insert, if_pos rfl]
  rfl

theorem Sound.remove (hf : f.Sound) (n : NodeId) (key : String) : (f.remove n key).2.Sound := by
  obtain heq | ⟨value, change, hchange, heq⟩ := f.remove_eq_edit n key
  · rw [heq]
    exact hf
  · rw [heq]
    exact (hf.keepsPlace n hchange).alike (alike_markDirty _ n)

theorem Sound.use (hf : f.Sound) (hu : f.Admits u) : (f.use u).Sound := by
  cases u with
  | make values => exact hf.create hu (by simp)
  | hold n => exact hf.holders n (· + 1)
  | drop n => exact hf.holders n (· - 1)
  | child n key => exact hf.child n key
  | set n key value => exact hf.set n key hu.2
  | remove n key => exact hf.remove n key
  | markClean n => exact hf.alike (f.alike_markClean n)

theorem Sound.run (hf : f.Sound) {uses : List Use} (huses : f.AdmitsAll uses) :
    (f.run uses).Sound := by
  induction uses generalizing f with
  | nil => exact hf
  | cons u uses ih => exact ih (hf.use huses.1) huses.2

/-- Every use keeps a forest in order. -/
theorem grows_use (f : Forest) (u : Use) : f.Grows (f.use u) := by
  cases u with
  | make values => exact f.grows_create values none
  | hold n => exact f.grows_retain n
  | drop n => exact f.grows_release n
  | child n key => exact f.grows_child n key
  | set n key value => exact f.grows_set n key value
  | remove n key => exact f.grows_remove n key
  | markClean n => exact f.grows_markClean n

theorem grows_run (f : Forest) (uses : List Use) : f.Grows (f.run uses) := by
  induction uses generalizing f with
  | nil => exact .refl f
  | cons u uses ih => exact (f.grows_use u).trans (ih (f.use u))

/-! ## Dictionaries without parent -/

/-- From `f` to `f'` the dictionary keeps its parent, and if it is held or clean in `f'`, it was so
in `f`. -/
def Keeps (f f' : Forest) (n : NodeId) : Prop :=
  ∀ node, f.node? n = some node → ∃ node', f'.node? n = some node' ∧ node'.parent = node.parent
    ∧ (0 < node'.holders → 0 < node.holders) ∧ (node'.dirty = false → node.dirty = false)

namespace Keeps

theorem refl (f : Forest) (n : NodeId) : f.Keeps f n :=
  fun node hnode => ⟨node, hnode, rfl, id, id⟩

theorem trans {f'' : Forest} (h : f.Keeps f' n) (h' : f'.Keeps f'' n) : f.Keeps f'' n := by
  intro node hnode
  obtain ⟨node', hnode', hparent, hholders, hdirty⟩ := h node hnode
  obtain ⟨node'', hnode'', hparent', hholders', hdirty'⟩ := h' node' hnode'
  exact ⟨node'', hnode'', hparent'.trans hparent, hholders ∘ hholders', hdirty ∘ hdirty'⟩

theorem isFree (h : f.Keeps f' n) (hfree : f.IsFree n) : f'.IsFree n := by
  obtain ⟨node, hnode, hparent⟩ := hfree
  obtain ⟨node', hnode', hsame, -⟩ := h node hnode
  exact ⟨node', hnode', hsame.trans hparent⟩

theorem isHeld (h : f.Keeps f' n) (hfree : f.IsFree n) (hheld : f'.IsHeld n) : f.IsHeld n := by
  obtain ⟨node, hnode, -⟩ := hfree
  obtain ⟨node', hnode', -, hholders, -⟩ := h node hnode
  obtain ⟨after, hafter, hpositive⟩ := hheld
  obtain rfl := Option.some.inj (hnode'.symm.trans hafter)
  exact ⟨node, hnode, hholders hpositive⟩

theorem isClean (h : f.Keeps f' n) (hfree : f.IsFree n) (hclean : f'.isDirty n = false) :
    f.isDirty n = false := by
  obtain ⟨node, hnode, -⟩ := hfree
  obtain ⟨node', hnode', -, -, hdirty⟩ := h node hnode
  unfold isDirty at hclean ⊢
  rw [hnode'] at hclean
  rw [hnode]
  exact hdirty hclean

theorem modify (f : Forest) (m n : NodeId) {change : Node → Node}
    (hparent : ∀ node, (change node).parent = node.parent)
    (hholders : ∀ node, m = n → f.node? n = some node →
      0 < (change node).holders → 0 < node.holders)
    (hdirty : ∀ node, (change node).dirty = node.dirty) : f.Keeps (f.modify m change) n := by
  intro node hnode
  rw [node?_modify, hnode]
  split
  · next hm =>
    exact ⟨_, rfl, hparent node, hholders node hm hnode, fun hclean => by rw [← hdirty, hclean]⟩
  · exact ⟨node, rfl, rfl, id, id⟩

theorem keepsPlace (f : Forest) (m n : NodeId) {change : Node → Node}
    (hchange : KeepsPlace change) : f.Keeps (f.modify m change) n :=
  modify f m n hchange.parent (fun node _ _ => by rw [hchange.holders]; exact id) hchange.dirty

theorem create (f : Forest) (values : Fields) (parent : Option NodeId) (n : NodeId) :
    f.Keeps (f.create values parent).2 n := by
  intro node hnode
  rw [node?_create, if_neg (Nat.ne_of_lt (node?_eq_some_lt hnode))]
  exact ⟨node, hnode, rfl, id, id⟩

/-- Only who holds a dictionary can pass it on. -/
theorem retain (hheld : m = n → f.IsHeld n) : f.Keeps (f.retain m) n := by
  refine modify f m n (fun _ => rfl) (fun node hm hnode _ => ?_) (fun _ => rfl)
  obtain ⟨held, hfound, hholders⟩ := hheld hm
  obtain rfl := Option.some.inj (hfound.symm.trans hnode)
  exact hholders

theorem release (f : Forest) (m n : NodeId) : f.Keeps (f.release m) n :=
  modify f m n (fun _ => rfl) (fun _ _ _ h => Nat.lt_of_lt_of_le h (Nat.sub_le ..)) (fun _ => rfl)

theorem alike (h : f.Alike f') (hclean : f'.isDirty n = false → f.isDirty n = false) :
    f.Keeps f' n := by
  intro node hnode
  obtain ⟨node', hnode', -, -, hparent, hholders⟩ := h.found hnode
  refine ⟨node', hnode', hparent, fun hpositive => hholders ▸ hpositive, ?_⟩
  unfold isDirty at hclean
  rw [hnode, hnode'] at hclean
  exact hclean

theorem markDirty (f : Forest) (m n : NodeId) : f.Keeps (f.markDirty m) n := by
  refine alike (f.alike_markDirty m) ?_
  intro hclean
  rw [← Bool.not_eq_true] at hclean ⊢
  exact fun hdirty => hclean (isDirty_markDirty_go_of_isDirty hdirty)

theorem child (hf : f.Sound) (hfree : f.IsFree n) (m : NodeId) (key : String) :
    f.Keeps (f.child m key).2 n := by
  obtain ⟨-, heq⟩ | ⟨node, hnode, ⟨c, hc, heq⟩ | ⟨-, ⟨-, heq⟩ | ⟨values, -, heq⟩⟩⟩ :=
    f.child_cases m key
  · rw [heq]
    exact refl f n
  · rw [heq]
    exact retain (fun hn => absurd hn (hfree.ne_child hf hnode (Keyed.mem_of_find? hc)))
  · rw [heq]
    exact keepsPlace f m n (keepsPlace_eraseValue key)
  · rw [heq]
    exact ((keepsPlace f m n (keepsPlace_eraseValue key)).trans (create _ values (some m) n)).trans
      (modify _ m n (fun _ => rfl) (fun _ _ _ => id) (fun _ => rfl))

end Keeps

/-- Every use but `markClean` keeps a dictionary without parent, which was held and clean if it is
so afterwards. -/
theorem keeps_use (hf : f.Sound) (hfree : f.IsFree root) (hu : f.Admits u)
    (hother : u ≠ .markClean root) : f.Keeps (f.use u) root := by
  cases u with
  | make values => exact .create f values none root
  | hold n => exact .retain (fun hn => hn ▸ hu)
  | drop n => exact .release f n root
  | child n key => exact .child hf hfree n key
  | set n key value =>
    exact (Keeps.keepsPlace f n root (keepsPlace_set key hu.2)).trans (.markDirty _ n root)
  | remove n key =>
    show f.Keeps (f.remove n key).2 root
    obtain heq | ⟨value, change, hchange, heq⟩ := f.remove_eq_edit n key
    · rw [heq]
      exact .refl f root
    · rw [heq]
      exact (Keeps.keepsPlace f n root hchange).trans (.markDirty _ n root)
  | markClean n =>
    have hne : n ≠ root := fun hn => hother (hn ▸ rfl)
    refine .alike (f.alike_markClean n) ?_
    intro hclean
    exact (isDirty_markClean_of_free hf hfree hne).symm.trans hclean

/-! ## The content of a clean dictionary -/

theorem Leads.modify (hf : f.Sound) {path : List String} {p : NodeId} (h : f.Leads n path p)
    (hp : p ≤ m) (change : Node → Node) : (f.modify m change).Leads n path p := by
  induction h with
  | here => exact .here
  | @down path p node key child _ hnode hchild ih =>
    obtain ⟨child', hchild', hparent⟩ := hf.linked p node hnode _ (Keyed.mem_of_find? hchild)
    have hbehind := hf.above _ child' p hchild' hparent
    refine (ih (Nat.le_of_lt (Nat.lt_of_lt_of_le hbehind hp))).down ?_ hchild
    rw [node?_modify, if_neg (Nat.ne_of_gt (Nat.lt_of_lt_of_le hbehind hp))]
    exact hnode

/-- A change of a dictionary keeps the content of one that does not lead to it. -/
theorem content_modify_of_not_leads (hf : f.Sound) {change : Node → Node}
    (hf' : (f.modify m change).Ordered) (hn : n < f.nodes.length)
    (h : ∀ path, ¬ f.Leads n path m) : (f.modify m change).content n = f.content n := by
  refine content_eq_of_leads hf hf' hn ?_
  intro path p node hpath hnode
  have hne : m ≠ p := fun hm => h path (hm ▸ hpath)
  rw [node?_modify, if_neg hne]
  exact ⟨node, hnode, rfl, rfl⟩

/-- An edit after which a dictionary is clean was made nowhere below it. -/
theorem content_edit_of_clean (hf : f.Sound) (hheld : f.IsHeld root) {change : Node → Node}
    (hchange : KeepsPlace change)
    (hclean : ((f.modify m change).markDirty m).isDirty root = false) :
    ((f.modify m change).markDirty m).content root = f.content root := by
  have hf' := hf.keepsPlace m hchange
  obtain ⟨node, hnode, hholders⟩ := hheld
  have hheld' : (f.modify m change).IsHeld root := by
    unfold IsHeld
    rw [node?_modify, hnode]
    split
    · exact ⟨_, rfl, by rw [hchange.holders]; exact hholders⟩
    · exact ⟨node, rfl, hholders⟩
  have hapart : ∀ path, ¬ f.Leads root path m := by
    intro path hpath
    have hdirty := isDirty_markDirty hf' hheld' (hpath.modify hf (Nat.le_refl m) change)
    rw [hclean] at hdirty
    cases hdirty
  rw [(alike_markDirty _ m).content hf',
    content_modify_of_not_leads hf hf'.ordered (node?_eq_some_lt hnode) hapart]

/-- The use is `child` of a dictionary below `root`, for a key with a value other than an object. -/
def Loses (f : Forest) (root : NodeId) (u : Use) : Prop :=
  ∃ m key path value, u = .child m key ∧ f.Leads root path m ∧ f.get? m key = some value
    ∧ value.fields? = none

theorem content_holders (f : Forest) (m : NodeId) (count : Nat → Nat) (n : NodeId) :
    (f.modify m (fun node => { node with holders := count node.holders })).content n
      = f.content n := by
  rw [← content_unheld, unheld_modify f m (fun node => { node with holders := count node.holders })
    (fun _ => rfl), content_unheld]

/-- An object that is given out as a dictionary of its own keeps its content. -/
theorem content_give (hf : f.Sound) {values : Fields} (hnode : f.node? m = some node)
    (hnone : node.children.find? key = none)
    (hvalues : node.values.find? key = some (.obj values)) :
    ∀ n < f.nodes.length, (f.give m key values).content n = f.content n := by
  have hf' := hf.give hnode hvalues
  have hfound := node?_give (node?_eq_some_lt hnode) key values
  have hnew : (f.give m key values).content f.nodes.length = values := by
    rw [content_eq hf'.ordered (by rw [hfound, if_pos rfl])]
    rfl
  refine hf.ordered.induction ?_
  intro n before hbefore ih
  have hn := Nat.ne_of_lt (node?_eq_some_lt hbefore)
  have hchildren : ∀ k, (before.children.find? k).map
        (fun child => Json.obj ((f.give m key values).content child))
      = (before.children.find? k).map (fun child => Json.obj (f.content child)) := by
    intro k
    cases hk : before.children.find? k with
    | none => rfl
    | some child => rw [Option.map_some, Option.map_some, ih _ (Keyed.mem_of_find? hk)]
  refine Keyed.eq_of_find?_eq (sorted_content hf' n) (sorted_content hf n) ?_
  intro k
  rw [find?_content hf hbefore]
  by_cases hmn : m = n
  · subst hmn
    obtain rfl := Option.some.inj (hnode.symm.trans hbefore)
    rw [find?_content hf' (by rw [hfound, if_neg hn, if_pos rfl, hnode]; rfl)]
    dsimp only
    rw [Keyed.find?_insert, Keyed.find?_erase]
    split
    · next hk =>
      subst hk
      rw [hnone, hvalues, Option.map_some, hnew]
      rfl
    · rw [hchildren]
  · rw [find?_content hf' (by rw [hfound, if_neg hn, if_neg hmn, hbefore]), hchildren]

theorem content_child (hf : f.Sound) (hn : root < f.nodes.length)
    (hnot : ¬ f.Loses root (.child m key)) : (f.child m key).2.content root = f.content root := by
  obtain ⟨-, heq⟩ | ⟨node, hnode, ⟨c, hc, heq⟩ | ⟨hnone, ⟨hother, heq⟩ | ⟨values, hvalues, heq⟩⟩⟩ :=
    f.child_cases m key
  · rw [heq]
  · rw [heq]
    exact content_holders f c (· + 1) root
  · rw [heq]
    cases hvalue : node.values.find? key with
    | none =>
      refine content_eq_of_within hf.ordered ?_ (Nat.le_of_eq (length_modify ..).symm) hn
      intro p before hbefore
      unfold forget
      rw [node?_modify, hbefore]
      split
      · next hp =>
        subst hp
        obtain rfl := Option.some.inj (hnode.symm.trans hbefore)
        exact ⟨_, rfl, Keyed.erase_eq_self hvalue, rfl⟩
      · exact ⟨before, rfl, rfl, rfl⟩
    | some value =>
      refine content_modify_of_not_leads hf (hf.forget m key).ordered hn ?_
      intro path hpath
      refine hnot ⟨m, key, path, value, rfl, hpath, ?_, ?_⟩
      · rw [get?_eq hf, find?_content hf hnode, hnone, hvalue]
        rfl
      · rw [hvalue] at hother
        exact hother
  · rw [heq]
    exact content_give hf hnode hnone hvalues root hn

/-- A use after which a dictionary is clean keeps its content, unless it `Loses` a value. -/
theorem content_use_of_clean (hf : f.Sound) (hheld : f.IsHeld root) (hu : f.Admits u)
    (hnot : ¬ f.Loses root u) (hclean : (f.use u).isDirty root = false) :
    (f.use u).content root = f.content root := by
  obtain ⟨rootNode, hroot, -⟩ := id hheld
  have hn := node?_eq_some_lt hroot
  cases u with
  | make values => exact content_create hf.ordered values hn
  | hold n => exact content_holders f n (· + 1) root
  | drop n => exact content_holders f n (· - 1) root
  | child n key => exact content_child hf hn hnot
  | set n key value => exact content_edit_of_clean hf hheld (keepsPlace_set key hu.2) hclean
  | remove n key =>
    change (f.remove n key).2.isDirty root = false at hclean
    show (f.remove n key).2.content root = f.content root
    obtain heq | ⟨value, change, hchange, heq⟩ := f.remove_eq_edit n key
    · rw [heq]
    · rw [heq] at hclean ⊢
      exact content_edit_of_clean hf hheld hchange hclean
  | markClean n => exact (f.alike_markClean n).content hf root

end Forest

end DocumentSession.Metadata
