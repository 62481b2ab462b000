import DocumentSession.Proofs.Forest
import DocumentSession.Proofs.WellFormed

set_option autoImplicit false

/-! # The content of a dictionary

The forests of a session are sound: every child comes after its parent and knows it, and values and
children of a dictionary are sorted (`Forest.Sound`). Then the content of a dictionary has under a
key the content of its child, and its own value where there is no child (`find?_content`); and it
depends on no other dictionaries than those that its keys lead to, one below the other
(`Forest.Leads`, `content_eq_of_leads`). -/

namespace DocumentSession

namespace Metadata

/-! ## Sound forests -/

/-- The values of the node are those of a JSON object, and its children are sorted. -/
structure Node.IsSound (node : Node) : Prop where
  values : (Json.obj node.values).isWellFormed = true
  children : node.children.Sorted

namespace Forest

variable {f f' : Forest} {n m : NodeId} {node : Node}

/-- Every child comes after its parent and knows it. -/
structure Sound (f : Forest) : Prop where
  node : ∀ n node, f.node? n = some node → node.IsSound
  linked : ∀ n node, f.node? n = some node → ∀ entry ∈ node.children,
    ∃ child, f.node? entry.2 = some child ∧ child.parent = some n
  above : ∀ n node p, f.node? n = some node → node.parent = some p → p < n

theorem Sound.ordered (hf : f.Sound) : f.Ordered := by
  intro n node hnode entry hentry
  obtain ⟨child, hchild, hparent⟩ := hf.linked n node hnode entry hentry
  exact ⟨hf.above _ child n hchild hparent, node?_eq_some_lt hchild⟩

theorem exists_node {f : Forest} {n : NodeId} (hn : n < f.nodes.length) :
    ∃ node, f.node? n = some node :=
  ⟨_, List.getElem?_eq_getElem hn⟩

theorem sound_empty : ({} : Forest).Sound := by
  constructor
  all_goals
    intro n node
    intros
    contradiction

/-- A forest whose dictionaries come from those of a sound one, and lose children at most. -/
theorem Sound.of_nodes (hf : f.Sound) (hlength : f.nodes.length ≤ f'.nodes.length)
    (hback : ∀ n node', f'.node? n = some node' → ∃ node, f.node? n = some node ∧ node'.IsSound
      ∧ node'.children ⊆ node.children ∧ node'.parent = node.parent) : f'.Sound where
  node n node' hnode' := by
    obtain ⟨node, -, hsound, -, -⟩ := hback n node' hnode'
    exact hsound
  linked n node' hnode' entry hentry := by
    obtain ⟨node, hnode, -, hchildren, -⟩ := hback n node' hnode'
    obtain ⟨child, hchild, hparent⟩ := hf.linked n node hnode entry (hchildren hentry)
    obtain ⟨child', hchild'⟩ :=
      exists_node (Nat.lt_of_lt_of_le (node?_eq_some_lt hchild) hlength)
    obtain ⟨before, hbefore, -, -, hsame⟩ := hback entry.2 child' hchild'
    obtain rfl := Option.some.inj (hchild.symm.trans hbefore)
    exact ⟨child', hchild', hsame.trans hparent⟩
  above n node' p hnode' hparent := by
    obtain ⟨node, hnode, -, -, hsame⟩ := hback n node' hnode'
    exact hf.above n node p hnode (hsame.symm.trans hparent)

theorem Sound.modify (hf : f.Sound) (n : NodeId) (change : Node → Node)
    (hchange : ∀ node, node.IsSound → (change node).IsSound
      ∧ (change node).children ⊆ node.children ∧ (change node).parent = node.parent) :
    (f.modify n change).Sound := by
  refine hf.of_nodes (Nat.le_of_eq (length_modify ..).symm) ?_
  intro m node' hnode'
  rw [node?_modify] at hnode'
  split at hnode'
  · obtain ⟨node, hnode, rfl⟩ := Option.map_eq_some_iff.mp hnode'
    exact ⟨node, hnode, hchange node (hf.node m node hnode)⟩
  · exact ⟨node', hnode', hf.node m node' hnode', List.Subset.refl _, rfl⟩

theorem Sound.create (hf : f.Sound) {values : Fields}
    (hvalues : (Json.obj values).isWellFormed = true) {parent : Option NodeId}
    (hparent : ∀ p, parent = some p → p < f.nodes.length) : (f.create values parent).2.Sound where
  node n node hnode := by
    rw [node?_create] at hnode
    split at hnode
    · obtain rfl := Option.some.inj hnode
      exact ⟨hvalues, Keyed.sorted_nil⟩
    · exact hf.node n node hnode
  linked n node hnode entry hentry := by
    rw [node?_create] at hnode
    split at hnode
    · obtain rfl := Option.some.inj hnode
      cases hentry
    · obtain ⟨child, hchild, hlink⟩ := hf.linked n node hnode entry hentry
      refine ⟨child, ?_, hlink⟩
      rw [node?_create, if_neg (Nat.ne_of_lt (node?_eq_some_lt hchild))]
      exact hchild
  above n node p hnode hp := by
    rw [node?_create] at hnode
    split at hnode
    · next hn =>
      obtain rfl := Option.some.inj hnode
      exact hn ▸ hparent p hp
    · exact hf.above n node p hnode hp

/-- A dictionary may get a child that has it as parent. -/
theorem Sound.adopt (hf : f.Sound) {parent child : NodeId}
    (hchild : f.node? child = some node) (hparent : node.parent = some parent) (key : String) :
    (f.modify parent (fun node =>
      { node with children := node.children.insert key child })).Sound where
  node n after hafter := by
    rw [node?_modify] at hafter
    split at hafter
    · obtain ⟨before, hbefore, rfl⟩ := Option.map_eq_some_iff.mp hafter
      have hsound := hf.node n before hbefore
      exact ⟨hsound.values, Keyed.sorted_insert hsound.children key child⟩
    · exact hf.node n after hafter
  linked n after hafter entry hentry := by
    -- the child itself may be one that changed, but nobody changed whom it knows
    have hkept : ∀ m node, f.node? m = some node → ∃ node', (f.modify parent (fun node =>
        { node with children := node.children.insert key child })).node? m = some node'
          ∧ node'.parent = node.parent := by
      intro m node hnode
      rw [node?_modify, hnode]
      split <;> exact ⟨_, rfl, rfl⟩
    rw [node?_modify] at hafter
    split at hafter
    · next hn =>
      subst hn
      obtain ⟨before, hbefore, rfl⟩ := Option.map_eq_some_iff.mp hafter
      rcases Keyed.mem_of_mem_insert hentry with rfl | hold
      · obtain ⟨node', hnode', hsame⟩ := hkept child node hchild
        exact ⟨node', hnode', hsame.trans hparent⟩
      · obtain ⟨node, hnode, hlink⟩ := hf.linked parent before hbefore entry hold
        obtain ⟨node', hnode', hsame⟩ := hkept entry.2 node hnode
        exact ⟨node', hnode', hsame.trans hlink⟩
    · obtain ⟨node, hnode, hlink⟩ := hf.linked n after hafter entry hentry
      obtain ⟨node', hnode', hsame⟩ := hkept entry.2 node hnode
      exact ⟨node', hnode', hsame.trans hlink⟩
  above n after p hafter hp := by
    rw [node?_modify] at hafter
    split at hafter
    · obtain ⟨before, hbefore, rfl⟩ := Option.map_eq_some_iff.mp hafter
      exact hf.above n before p hbefore hp
    · exact hf.above n after p hafter hp

/-! ## Content -/

/-- What holds of a dictionary if it holds of all its children holds of all dictionaries. -/
theorem Ordered.induction (hf : f.Ordered) {P : NodeId → Prop}
    (h : ∀ n node, f.node? n = some node → (∀ entry ∈ node.children, P entry.2) → P n) :
    ∀ n < f.nodes.length, P n := by
  -- downwards: a child stands nearer to the end of the forest
  have hdown : ∀ k n, n < f.nodes.length → f.nodes.length - n ≤ k → P n := by
    intro k
    induction k with
    | zero => omega
    | succ k ih =>
      intro n hn hk
      obtain ⟨node, hnode⟩ := exists_node hn
      refine h n node hnode (fun entry hentry => ?_)
      obtain ⟨hbehind, hlt⟩ := hf n node hnode entry hentry
      exact ih entry.2 hlt
        (Nat.le_of_lt_succ (Nat.lt_of_lt_of_le (Nat.sub_lt_sub_left hn hbehind) hk))
  exact fun n hn => hdown _ n hn (Nat.le_refl _)

theorem within_refl (f : Forest) : f.Within f :=
  fun _ node hnode => ⟨node, hnode, rfl, rfl⟩

theorem content_eq (hf : f.Ordered) (hnode : f.node? n = some node) :
    f.content n = Dict.overlay node.values
      (node.children.mapValues (fun child => Json.obj (f.content child))) := by
  have hn := node?_eq_some_lt hnode
  have hsteps : f.content n = content.go f (f.nodes.length + 1) n :=
    (content_go_eq hf f.within_refl hn (by omega) (by omega)).symm
  rw [hsteps, content.go, hnode]
  rfl

theorem content_eq_nil (hnode : f.node? n = none) : f.content n = [] := by
  unfold content
  cases f.nodes.length with
  | zero => rfl
  | succ k => rw [content.go, hnode]

theorem find?_content (hf : f.Sound) (hnode : f.node? n = some node) (key : String) :
    (f.content n).find? key
      = ((node.children.find? key).map (fun child => Json.obj (f.content child))).or
          (node.values.find? key) := by
  rw [content_eq hf.ordered hnode,
    Keyed.find?_overlay _ (Keyed.sorted_mapValues _ (hf.node n node hnode).children),
    Keyed.find?_mapValues]

theorem sorted_content (hf : f.Sound) (n : NodeId) : (f.content n).Sorted := by
  cases hnode : f.node? n with
  | none =>
    rw [content_eq_nil hnode]
    exact Keyed.sorted_nil
  | some node =>
    rw [content_eq hf.ordered hnode]
    exact Keyed.sorted_overlay (Json.sorted_of_isWellFormed (hf.node n node hnode).values) _

/-- The content of a dictionary is well-formed in sound forests. -/
theorem isWellFormed_content (hf : f.Sound) (n : NodeId) :
    (Json.obj (f.content n)).isWellFormed = true := by
  by_cases hn : n < f.nodes.length
  · refine hf.ordered.induction
      (P := fun m => (Json.obj (f.content m)).isWellFormed = true) ?_ n hn
    intro m node hnode ih
    rw [content_eq hf.ordered hnode]
    refine Json.isWellFormed_overlay (hf.node m node hnode).values ?_
    intro key value hmem
    obtain ⟨entry, hentry, heq⟩ := List.mem_map.mp hmem
    obtain ⟨-, rfl⟩ := Prod.mk.inj heq
    exact ih entry hentry
  · rw [content_eq_nil (List.getElem?_eq_none (Nat.le_of_not_lt hn))]
    rfl

/-- `get?` looks the key up in `content`. -/
theorem get?_eq (hf : f.Sound) (n : NodeId) (key : String) :
    f.get? n key = (f.content n).find? key := by
  unfold get?
  cases hnode : f.node? n with
  | none =>
    rw [content_eq_nil hnode]
    rfl
  | some node =>
    rw [find?_content hf hnode]
    dsimp only
    cases node.children.find? key <;> rfl

/-! ## Dictionaries below others -/

/-- The keys that lead from `n` to a dictionary below it. -/
inductive Leads (f : Forest) (n : NodeId) : List String → NodeId → Prop where
  | here : Leads f n [] n
  | down {path : List String} {p : NodeId} {node : Node} {key : String} {child : NodeId}
    (h : Leads f n path p) (hnode : f.node? p = some node)
    (hchild : node.children.find? key = some child) : Leads f n (path ++ [key]) child

/-- What is below a dictionary comes after it. -/
theorem Leads.le (hf : f.Ordered) {path : List String} (h : f.Leads n path m) : n ≤ m := by
  induction h with
  | here => exact Nat.le_refl n
  | @down _ p node _ _ _ hnode hchild ih =>
    exact Nat.le_trans ih (Nat.le_of_lt (hf p node hnode _ (Keyed.mem_of_find? hchild)).1)

/-- A dictionary has the same content if it and all below it have the same values and children. -/
theorem content_eq_of_leads (hf : f.Sound) (hf' : f'.Ordered) (hn : n < f.nodes.length)
    (h : ∀ path m node, f.Leads n path m → f.node? m = some node →
      ∃ node', f'.node? m = some node' ∧ node'.values = node.values
        ∧ node'.children = node.children) : f'.content n = f.content n := by
  have hled : ∀ m < f.nodes.length, ∀ path, f.Leads n path m → f'.content m = f.content m := by
    refine hf.ordered.induction
      (P := fun m => ∀ path, f.Leads n path m → f'.content m = f.content m) ?_
    intro m node hnode ih path hpath
    obtain ⟨node', hnode', hvalues, hchildren⟩ := h path m node hpath hnode
    rw [content_eq hf.ordered hnode, content_eq hf' hnode', hvalues, hchildren]
    congr 1
    apply List.map_congr_left
    intro entry hentry
    have hfound := Keyed.find?_of_mem (hf.node m node hnode).children hentry
    dsimp only
    rw [ih entry hentry _ (hpath.down hnode hfound)]
  exact hled n hn [] .here

end Forest

end Metadata

end DocumentSession
