import DocumentSession.Proofs.Metadata.Uses

set_option autoImplicit false

/-! # What a use does to a dictionary

A use changes the values and children of one dictionary at most, and in one of five ways
(`Use.Edits`, `edits_use`). All statements about single dictionaries after any uses come from there:
no key of a dictionary has a value and a child, and no child is under two keys (`Forest.Tidy`). -/

namespace DocumentSession.Metadata

/-- What a use does to the values and children of the dictionary `n`, where `fresh` is the next
`NodeId`. -/
inductive Use.Edits (u : Use) (n fresh : NodeId) (node node' : Node) : Prop where
  /-- Nothing: no value is set, and no key removed that is there. -/
  | keeps (hset : ∀ key value, u ≠ .set n key value)
    (hremove : ∀ key, u = .remove n key →
      node.children.find? key = none ∧ node.values.find? key = none)
    (hvalues : node'.values = node.values) (hchildren : node'.children = node.children)
  /-- A value is set, in place of a child. -/
  | sets (key : String) (value : Json) (hu : u = .set n key value)
    (hvalues : node'.values = node.values.insert key value)
    (hchildren : node'.children = node.children.erase key)
  /-- A child is removed. -/
  | detaches (key : String) (child : NodeId) (hu : u = .remove n key)
    (hchild : node.children.find? key = some child) (hvalues : node'.values = node.values)
    (hchildren : node'.children = node.children.erase key)
  /-- A value is removed, or dropped because it is no object. -/
  | forgets (key : String) (hu : u = .remove n key ∨ u = .child n key)
    (hnone : node.children.find? key = none) (hvalues : node'.values = node.values.erase key)
    (hchildren : node'.children = node.children)
  /-- An object becomes a child. -/
  | gives (key : String) (values : Fields) (hu : u = .child n key)
    (hnone : node.children.find? key = none) (hvalue : node.values.find? key = some (.obj values))
    (hvalues : node'.values = node.values.erase key)
    (hchildren : node'.children = node.children.insert key fresh)

namespace Forest

variable {f f' : Forest} {n m c : NodeId} {node node' : Node} {key : String} {u : Use}

/-! ## One use, dictionary by dictionary -/

/-- A change of the dictionary `m`, and of marks, as it is seen in the dictionary `n`. -/
theorem exists_node_of_modify {change : Node → Node} (h : (f.modify m change).Alike f')
    (hnode' : f'.node? n = some node') :
    ∃ node, f.node? n = some node
      ∧ (m = n ∧ node'.values = (change node).values ∧ node'.children = (change node).children
        ∨ m ≠ n ∧ node'.values = node.values ∧ node'.children = node.children) := by
  obtain ⟨changed, hchanged, hvalues, hchildren, -⟩ := h.symm.found hnode'
  rw [node?_modify] at hchanged
  split at hchanged
  · next hm =>
    obtain ⟨node, hnode, rfl⟩ := Option.map_eq_some_iff.mp hchanged
    exact ⟨node, hnode, Or.inl ⟨hm, hvalues.symm, hchildren.symm⟩⟩
  · next hm => exact ⟨changed, hchanged, Or.inr ⟨hm, hvalues.symm, hchildren.symm⟩⟩

/-- A change of `holders` keeps values and children. -/
theorem edits_holders (count : Nat → Nat) (hset : ∀ key value, u ≠ .set n key value)
    (hremove : ∀ key, u ≠ .remove n key)
    (hnode' : (f.modify m (fun node => { node with holders := count node.holders })).node? n
      = some node') :
    ∃ node, f.node? n = some node ∧ u.Edits n f.nodes.length node node' := by
  have hkeeps : ∀ node, node'.values = node.values → node'.children = node.children →
      u.Edits n f.nodes.length node node' :=
    fun node => .keeps hset (fun key hu => absurd hu (hremove key))
  obtain ⟨node, hnode, ⟨-, hv, hc⟩ | ⟨-, hv, hc⟩⟩ := exists_node_of_modify (.refl _) hnode'
  · exact ⟨node, hnode, hkeeps node hv hc⟩
  · exact ⟨node, hnode, hkeeps node hv hc⟩

theorem edits_child (m : NodeId) (key : String)
    (hnode' : (f.child m key).2.node? n = some node') :
    (n = f.nodes.length ∧ node'.children = [])
      ∨ ∃ node, f.node? n = some node
        ∧ (Use.child m key).Edits n f.nodes.length node node' := by
  have hkept : ∀ node, node'.values = node.values → node'.children = node.children →
      (Use.child m key).Edits n f.nodes.length node node' :=
    fun node => .keeps (fun _ _ => nofun) (fun _ => nofun)
  obtain ⟨-, heq⟩ | ⟨node, hnode, ⟨c, -, heq⟩ | ⟨hnone, ⟨-, heq⟩ | ⟨values, hvalues, heq⟩⟩⟩ :=
    f.child_cases m key
  · rw [heq] at hnode'
    exact Or.inr ⟨node', hnode', hkept node' rfl rfl⟩
  · rw [heq] at hnode'
    exact Or.inr (edits_holders (· + 1) (fun _ _ => nofun) (fun _ => nofun) hnode')
  · rw [heq] at hnode'
    obtain ⟨before, hbefore, ⟨rfl, hv, hc⟩ | ⟨-, hv, hc⟩⟩ :=
      exists_node_of_modify (.refl _) hnode'
    · obtain rfl := Option.some.inj (hnode.symm.trans hbefore)
      exact Or.inr ⟨node, hnode, .forgets key (Or.inr rfl) hnone hv hc⟩
    · exact Or.inr ⟨before, hbefore, hkept before hv hc⟩
  · rw [heq] at hnode'
    dsimp only at hnode'
    rw [node?_give (node?_eq_some_lt hnode)] at hnode'
    split at hnode'
    · next hn =>
      obtain rfl := Option.some.inj hnode'
      exact Or.inl ⟨hn, rfl⟩
    · split at hnode'
      · next hm =>
        subst hm
        rw [hnode] at hnode'
        obtain rfl := Option.some.inj hnode'
        exact Or.inr ⟨node, hnode, .gives key values rfl hnone hvalues rfl rfl⟩
      · exact Or.inr ⟨node', hnode', hkept node' rfl rfl⟩

theorem edits_set (m : NodeId) (key : String) (value : Json)
    (hnode' : (f.set m key value).node? n = some node') :
    ∃ node, f.node? n = some node
      ∧ (Use.set m key value).Edits n f.nodes.length node node' := by
  obtain ⟨node, hnode, ⟨rfl, hv, hc⟩ | ⟨hm, hv, hc⟩⟩ :=
    exists_node_of_modify (alike_markDirty _ m) hnode'
  · exact ⟨node, hnode, .sets key value rfl hv hc⟩
  · refine ⟨node, hnode, .keeps ?_ (fun _ => nofun) hv hc⟩
    rintro key' value' ⟨⟩
    exact hm rfl

theorem edits_remove (m : NodeId) (key : String)
    (hnode' : (f.remove m key).2.node? n = some node') :
    ∃ node, f.node? n = some node
      ∧ (Use.remove m key).Edits n f.nodes.length node node' := by
  have hother : ∀ node, m ≠ n → node'.values = node.values → node'.children = node.children →
      (Use.remove m key).Edits n f.nodes.length node node' := by
    refine fun node hm => .keeps (fun _ _ => nofun) ?_
    rintro key' ⟨⟩
    exact absurd rfl hm
  obtain ⟨hnone, heq⟩ | ⟨node, hnode, ⟨c, hchild, heq⟩ | ⟨hchild, value, -, heq⟩⟩ :=
    f.remove_cases m key
  · rw [heq] at hnode'
    refine ⟨node', hnode', .keeps (fun _ _ => nofun) ?_ rfl rfl⟩
    rintro key' ⟨⟩
    exact hnone node' hnode'
  · rw [heq] at hnode'
    obtain ⟨before, hbefore, ⟨rfl, hv, hc⟩ | ⟨hm, hv, hc⟩⟩ :=
      exists_node_of_modify (alike_markDirty _ m) hnode'
    · obtain rfl := Option.some.inj (hnode.symm.trans hbefore)
      exact ⟨node, hnode, .detaches key c rfl hchild hv hc⟩
    · exact ⟨before, hbefore, hother before hm hv hc⟩
  · rw [heq] at hnode'
    obtain ⟨before, hbefore, ⟨rfl, hv, hc⟩ | ⟨hm, hv, hc⟩⟩ :=
      exists_node_of_modify (alike_markDirty _ m) hnode'
    · obtain rfl := Option.some.inj (hnode.symm.trans hbefore)
      exact ⟨node, hnode, .forgets key (Or.inl rfl) hchild hv hc⟩
    · exact ⟨before, hbefore, hother before hm hv hc⟩

/-- A dictionary after a use is a new one without children, or it comes from one that was there. -/
theorem edits_use (f : Forest) (u : Use) (hnode' : (f.use u).node? n = some node') :
    (n = f.nodes.length ∧ node'.children = [])
      ∨ ∃ node, f.node? n = some node ∧ u.Edits n f.nodes.length node node' := by
  cases u with
  | make values =>
    change (f.create values).2.node? n = some node' at hnode'
    rw [node?_create] at hnode'
    split at hnode'
    · next hn =>
      obtain rfl := Option.some.inj hnode'
      exact Or.inl ⟨hn, rfl⟩
    · exact Or.inr ⟨node', hnode', .keeps (fun _ _ => nofun) (fun _ => nofun) rfl rfl⟩
  | hold m => exact Or.inr (edits_holders (· + 1) (fun _ _ => nofun) (fun _ => nofun) hnode')
  | drop m => exact Or.inr (edits_holders (· - 1) (fun _ _ => nofun) (fun _ => nofun) hnode')
  | child m key => exact edits_child m key hnode'
  | set m key value => exact Or.inr (edits_set m key value hnode')
  | remove m key => exact Or.inr (edits_remove m key hnode')
  | markClean m =>
    obtain ⟨node, hnode, hv, hc, -⟩ := (f.alike_markClean m).symm.found hnode'
    exact Or.inr ⟨node, hnode, .keeps (fun _ _ => nofun) (fun _ => nofun) hv.symm hc.symm⟩

/-- A dictionary that is there is there after a use. -/
theorem exists_edits_use (hnode : f.node? n = some node) (u : Use) :
    ∃ node', (f.use u).node? n = some node' ∧ u.Edits n f.nodes.length node node' := by
  have hn := node?_eq_some_lt hnode
  obtain ⟨node', hnode'⟩ := exists_node (Nat.lt_of_lt_of_le hn (f.grows_use u).length)
  obtain ⟨hfresh, -⟩ | ⟨before, hbefore, hedits⟩ := f.edits_use u hnode'
  · exact absurd hfresh (Nat.ne_of_lt hn)
  · obtain rfl := Option.some.inj (hnode.symm.trans hbefore)
    exact ⟨node', hnode', hedits⟩

end Forest

namespace Use.Edits

variable {u : Use} {n fresh c : NodeId} {node node' : Node} {key : String}

/-- A child comes from a child under the same key, or is new. -/
theorem find?_children (h : u.Edits n fresh node node')
    (hchild : node'.children.find? key = some c) :
    node.children.find? key = some c ∨ c = fresh ∧ u = .child n key := by
  have herase : ∀ key', (node.children.erase key').find? key = some c →
      node.children.find? key = some c := by
    intro key' hfound
    rw [Keyed.find?_erase] at hfound
    split at hfound
    · cases hfound
    · exact hfound
  cases h with
  | keeps _ _ _ hchildren => exact Or.inl (hchildren ▸ hchild)
  | sets key' _ _ _ hchildren => exact Or.inl (herase key' (hchildren ▸ hchild))
  | detaches key' _ _ _ _ hchildren => exact Or.inl (herase key' (hchildren ▸ hchild))
  | forgets _ _ _ _ hchildren => exact Or.inl (hchildren ▸ hchild)
  | gives key' _ hu _ _ _ hchildren =>
    rw [hchildren, Keyed.find?_insert] at hchild
    split at hchild
    · next hkey => exact Or.inr ⟨(Option.some.inj hchild).symm, hkey ▸ hu⟩
    · exact Or.inl hchild

/-- A child stays unless its key is removed or set to a value. -/
theorem find?_children_of_kept (h : u.Edits n fresh node node')
    (hchild : node.children.find? key = some c) (hremove : u ≠ .remove n key)
    (hset : ∀ value, u ≠ .set n key value) : node'.children.find? key = some c := by
  cases h with
  | keeps _ _ _ hchildren => exact hchildren ▸ hchild
  | sets key' value hu _ hchildren =>
    have hne : key' ≠ key := fun heq => hset value (heq ▸ hu)
    rw [hchildren, Keyed.find?_erase, if_neg hne]
    exact hchild
  | detaches key' _ hu _ _ hchildren =>
    have hne : key' ≠ key := fun heq => hremove (heq ▸ hu)
    rw [hchildren, Keyed.find?_erase, if_neg hne]
    exact hchild
  | forgets _ _ _ _ hchildren => exact hchildren ▸ hchild
  | gives key' _ _ hnone _ _ hchildren =>
    have hne : key' ≠ key := by
      rintro rfl
      rw [hnone] at hchild
      cases hchild
    rw [hchildren, Keyed.find?_insert, if_neg hne]
    exact hchild

/-- A child is gone once its key is removed or set to a value. -/
theorem find?_eq_none (h : u.Edits n fresh node node') (hchild : node.children.find? key = some c)
    (hu : u = .remove n key ∨ ∃ value, u = .set n key value) :
    node'.children.find? key = none := by
  have herase : (node.children.erase key).find? key = none :=
    (Keyed.find?_erase ..).trans (if_pos rfl)
  rcases hu with rfl | ⟨value, rfl⟩
  · cases h with
    | keeps _ hremove =>
      rw [(hremove key rfl).1] at hchild
      cases hchild
    | sets _ _ hu => cases hu
    | detaches _ _ hu _ _ hchildren =>
      cases hu
      exact hchildren ▸ herase
    | forgets _ hu hnone =>
      rcases hu with hu | hu
      · cases hu
        rw [hnone] at hchild
        cases hchild
      · cases hu
    | gives _ _ hu => cases hu
  · cases h with
    | keeps hset => exact absurd rfl (hset key value)
    | sets _ _ hu _ hchildren =>
      cases hu
      exact hchildren ▸ herase
    | detaches _ _ hu => cases hu
    | forgets _ hu => rcases hu with hu | hu <;> cases hu
    | gives _ _ hu => cases hu

end Use.Edits

/-! ## Tidy dictionaries -/

/-- No key has a value and a child, and no child is under two keys. -/
structure Node.IsTidy (node : Node) : Prop where
  apart : ∀ key child, node.children.find? key = some child → node.values.find? key = none
  single : ∀ key key' child, node.children.find? key = some child →
    node.children.find? key' = some child → key = key'

theorem Use.Edits.isTidy {u : Use} {n fresh : NodeId} {node node' : Node}
    (h : u.Edits n fresh node node') (htidy : node.IsTidy)
    (hfresh : ∀ key child, node.children.find? key = some child → child ≠ fresh) :
    node'.IsTidy where
  apart key child hchild := by
    cases h with
    | keeps _ _ hvalues hchildren =>
      rw [hvalues]
      exact htidy.apart key child (hchildren ▸ hchild)
    | sets key' _ _ hvalues hchildren =>
      rw [hchildren, Keyed.find?_erase] at hchild
      split at hchild
      · cases hchild
      · next hne =>
        rw [hvalues, Keyed.find?_insert, if_neg hne]
        exact htidy.apart key child hchild
    | detaches key' _ _ _ hvalues hchildren =>
      rw [hchildren, Keyed.find?_erase] at hchild
      split at hchild
      · cases hchild
      · rw [hvalues]
        exact htidy.apart key child hchild
    | forgets key' _ _ hvalues hchildren =>
      rw [hvalues, Keyed.find?_erase]
      split
      · rfl
      · exact htidy.apart key child (hchildren ▸ hchild)
    | gives key' _ _ _ _ hvalues hchildren =>
      rw [hvalues, Keyed.find?_erase]
      rw [hchildren, Keyed.find?_insert] at hchild
      split
      · rfl
      · next hne =>
        rw [if_neg hne] at hchild
        exact htidy.apart key child hchild
  single key key' child hchild hchild' := by
    rcases h.find?_children hchild with hold | ⟨rfl, hu⟩
    · rcases h.find?_children hchild' with hold' | ⟨rfl, -⟩
      · exact htidy.single key key' child hold hold'
      · exact absurd rfl (hfresh key child hold)
    · rcases h.find?_children hchild' with hold' | ⟨-, hu'⟩
      · exact absurd rfl (hfresh key' child hold')
      · exact (Use.child.inj (hu.symm.trans hu')).2

/-- A key that was removed has no value and no child. -/
theorem Use.Edits.of_remove {n fresh : NodeId} {node node' : Node} {key : String}
    (h : (Use.remove n key).Edits n fresh node node') (htidy : node.IsTidy) :
    node'.children.find? key = none ∧ node'.values.find? key = none := by
  cases h with
  | keeps _ hremove hvalues hchildren => exact hvalues ▸ hchildren ▸ hremove key rfl
  | sets _ _ hu => cases hu
  | detaches _ child hu hchild hvalues hchildren =>
    cases hu
    rw [hchildren, Keyed.find?_erase, if_pos rfl, hvalues]
    exact ⟨rfl, htidy.apart key child hchild⟩
  | forgets _ hu hnone hvalues hchildren =>
    rcases hu with hu | hu
    · cases hu
      rw [hchildren, hvalues, Keyed.find?_erase, if_pos rfl]
      exact ⟨hnone, rfl⟩
    · cases hu
  | gives _ _ hu => cases hu

namespace Forest

variable {f : Forest} {u : Use} {uses : List Use}

/-- Every dictionary is tidy. -/
def Tidy (f : Forest) : Prop :=
  ∀ n node, f.node? n = some node → node.IsTidy

theorem tidy_empty : ({} : Forest).Tidy :=
  fun _ _ hnode => nomatch hnode

theorem Tidy.use (h : f.Tidy) (hf : f.Sound) (u : Use) : (f.use u).Tidy := by
  intro n node' hnode'
  obtain ⟨-, hchildren⟩ | ⟨node, hnode, hedits⟩ := f.edits_use u hnode'
  · have hnone : ∀ key child, node'.children.find? key ≠ some child := by
      rw [hchildren]
      exact fun _ _ => nofun
    exact ⟨fun key child hchild => absurd hchild (hnone key child),
      fun key _ child hchild => absurd hchild (hnone key child)⟩
  · refine hedits.isTidy (h n node hnode) ?_
    intro key child hchild
    exact Nat.ne_of_lt (hf.ordered n node hnode _ (Keyed.mem_of_find? hchild)).2

theorem Tidy.run (h : f.Tidy) (hf : f.Sound) (huses : f.AdmitsAll uses) : (f.run uses).Tidy := by
  induction uses generalizing f with
  | nil => exact h
  | cons u uses ih => exact ih (h.use hf u) (hf.use huses.1) huses.2

end Forest

end DocumentSession.Metadata
