import DocumentSession.Proofs.Metadata.Edits
import DocumentSession.Proofs.Metadata.Unchanged

set_option autoImplicit false

/-! # Views of a dictionary

`get?`, `contains`, `size` and the answer of `remove` all agree with `content` (`Forest.Views`). A
child has the content that its parent has under its key, whatever is done, until the key is set or
removed (`find?_children_run`); so an edit of a child, or anywhere below it, is an edit of the
parent. -/

namespace DocumentSession

/-! ## Size -/

namespace Dict

variable {α : Type}

theorem length_insert_of_find?_eq_none {d : Dict α} {key : String} (h : d.find? key = none)
    (value : α) : (d.insert key value).length = d.length + 1 := by
  induction d with
  | nil => rfl
  | cons entry rest ih =>
    obtain ⟨k, v⟩ := entry
    rw [Keyed.find?_cons] at h
    unfold Keyed.insert
    split at h
    · cases h
    · next hk =>
      rw [if_neg hk]
      split
      · rfl
      · rw [List.length_cons, ih h, List.length_cons]

/-- Dictionaries without a common key have all their entries side by side. -/
theorem length_overlay {base upper : Dict α} (hupper : Keyed.Sorted upper)
    (hapart : ∀ key value, upper.find? key = some value → base.find? key = none) :
    (overlay base upper).length = base.length + upper.length := by
  induction upper generalizing base with
  | nil => rfl
  | cons entry rest ih =>
    obtain ⟨k, v⟩ := entry
    obtain ⟨hk, hrest⟩ := List.pairwise_cons.mp hupper
    have hnew := length_insert_of_find?_eq_none (hapart k v (if_pos rfl)) v
    have hapart' : ∀ key value, Keyed.find? rest key = some value →
        (base.insert k v).find? key = none := by
      intro key value hvalue
      have hlt : k < key := hk key (List.mem_map_of_mem (Keyed.mem_of_find? hvalue))
      have hne : k ≠ key := fun heq => absurd (heq ▸ hlt) (String.lt_irrefl _)
      rw [Keyed.find?_insert, if_neg hne]
      exact hapart key value (by rw [Keyed.find?_cons, if_neg hne]; exact hvalue)
    change (overlay (base.insert k v) rest).length = _
    rw [ih hrest hapart', hnew, List.length_cons, Nat.add_assoc, Nat.add_comm 1]

end Dict

namespace Metadata

namespace Forest

variable {f f' : Forest} {n m c : NodeId} {node : Node} {key : String} {u : Use} {uses : List Use}

/-! ## Single keys -/

/-- `get?` is the content under the key. -/
theorem get?_eq_some_iff (hf : f.Sound) {value : Json} :
    f.get? n key = some value ↔ (key, value) ∈ f.content n := by
  rw [get?_eq hf]
  exact ⟨Keyed.mem_of_find?, Keyed.find?_of_mem (sorted_content hf n)⟩

theorem contains_eq (f : Forest) (n : NodeId) (key : String) :
    f.contains n key = (f.get? n key).isSome := by
  unfold contains get?
  cases f.node? n with
  | none => rfl
  | some node =>
    unfold Keyed.contains
    dsimp only [Option.any_some]
    cases node.children.find? key <;> rfl

/-- `remove` gives what `get?` reads under the key. A child that is taken out of its parent has the
content that it had there. -/
theorem remove_fst (hf : f.Sound) (n : NodeId) (key : String) :
    (f.remove n key).1 = f.get? n key := by
  unfold get?
  obtain ⟨hnone, heq⟩ | ⟨node, hnode, ⟨c, hchild, heq⟩ | ⟨hchild, value, hvalue, heq⟩⟩ :=
    f.remove_cases n key
  · rw [heq]
    cases hnode : f.node? n with
    | none => rfl
    | some node =>
      dsimp only
      rw [(hnone node hnode).1, (hnone node hnode).2]
  · have hentry := hf.ordered n node hnode _ (Keyed.mem_of_find? hchild)
    have hcontent : (f.detach n key).content c = f.content c := by
      refine content_modify_of_not_leads hf (hf.keepsPlace n (keepsPlace_eraseChild key)).ordered
        hentry.2 ?_
      exact fun path hpath => Nat.not_le_of_lt hentry.1 (hpath.le hf.ordered)
    rw [heq, hnode]
    dsimp only
    rw [hchild, hcontent]
  · rw [heq, hnode]
    dsimp only
    rw [hchild, hvalue]

theorem size_eq (hf : f.Sound) (htidy : f.Tidy) (n : NodeId) :
    f.size n = (f.content n).length := by
  unfold size
  cases hnode : f.node? n with
  | none => rw [content_eq_nil hnode]; rfl
  | some node =>
    have hsorted := (hf.node n node hnode).children
    rw [content_eq hf.ordered hnode, Dict.length_overlay (Keyed.sorted_mapValues _ hsorted)]
    · unfold Dict.mapValues
      rw [List.length_map]
      rfl
    · intro key value hvalue
      rw [Keyed.find?_mapValues] at hvalue
      obtain ⟨child, hchild, -⟩ := Option.map_eq_some_iff.mp hvalue
      exact (htidy n node hnode).apart key child hchild

/-! ## Children -/

/-- An object that is given out as a dictionary of its own is a child under its key from then on. -/
theorem find?_children_child (h : (f.child n key).1 = some c) :
    ∃ node, (f.child n key).2.node? n = some node ∧ node.children.find? key = some c := by
  obtain ⟨-, heq⟩ | ⟨node, hnode, ⟨c', hc, heq⟩ | ⟨-, ⟨-, heq⟩ | ⟨values, -, heq⟩⟩⟩ :=
    f.child_cases n key
  · rw [heq] at h
    cases h
  · rw [heq] at h ⊢
    obtain rfl := Option.some.inj h
    unfold retain
    rw [node?_modify, hnode]
    split
    · exact ⟨_, rfl, hc⟩
    · exact ⟨node, rfl, hc⟩
  · rw [heq] at h
    cases h
  · rw [heq] at h ⊢
    obtain rfl := Option.some.inj h
    have hn := node?_eq_some_lt hnode
    rw [node?_give hn, if_neg (Nat.ne_of_lt hn), if_pos rfl, hnode]
    exact ⟨_, rfl, (Keyed.find?_insert ..).trans (if_pos rfl)⟩

/-- A child stays under its key as long as the key is not set or removed. -/
theorem find?_children_run (hnode : f.node? n = some node)
    (hchild : node.children.find? key = some c)
    (hother : ∀ u ∈ uses, u ≠ .remove n key ∧ ∀ value, u ≠ .set n key value) :
    ∃ node', (f.run uses).node? n = some node' ∧ node'.children.find? key = some c := by
  induction uses generalizing f node with
  | nil => exact ⟨node, hnode, hchild⟩
  | cons u uses ih =>
    obtain ⟨⟨hremove, hset⟩, hrest⟩ := List.forall_mem_cons.mp hother
    obtain ⟨node', hnode', hedits⟩ := exists_edits_use hnode u
    exact ih hnode' (hedits.find?_children_of_kept hchild hremove hset) hrest

/-- A path from a child is a path from its parent. -/
theorem Leads.cons (hnode : f.node? n = some node) (hchild : node.children.find? key = some c)
    {path : List String} (h : f.Leads c path m) : f.Leads n (key :: path) m := by
  induction h with
  | here => exact .down .here hnode hchild
  | down _ hp hkey ih => exact ih.down hp hkey

/-! ## Edits below a dictionary -/

theorem leads_edit (hf : f.Sound) {change : Node → Node} {path : List String}
    (h : f.Leads n path m) : ((f.modify m change).markDirty m).Leads n path m :=
  (alike_markDirty _ m).leads (h.modify hf (Nat.le_refl m) change)

/-- A value that is set below a dictionary is in its content. -/
theorem at?_set (hf : f.Sound) {path : List String} (h : f.Leads n path m)
    (hm : m < f.nodes.length) {value : Json} (hvalue : value.isWellFormed = true) (key : String) :
    (f.set m key value).at? n (path ++ [key]) = some value := by
  have hshown := (find?_content_set hf hm key hvalue).1
  rw [at?_of_leads (hf.set m key hvalue) (leads_edit hf h)]
  show (((f.set m key value).content m).find? key).bind some = some value
  rw [hshown]
  rfl

/-- A key that is removed below a dictionary is not in its content. -/
theorem at?_remove (hf : f.Sound) (htidy : f.Tidy) {path : List String} (h : f.Leads n path m)
    (hm : m < f.nodes.length) (key : String) :
    (f.remove m key).2.at? n (path ++ [key]) = none := by
  obtain ⟨node, hnode⟩ := exists_node hm
  obtain ⟨node', hnode', hedits⟩ := exists_edits_use hnode (.remove m key)
  obtain ⟨hchild, hvalue⟩ := hedits.of_remove (htidy m node hnode)
  have hleads : (f.remove m key).2.Leads n path m := by
    obtain heq | ⟨value, change, -, heq⟩ := f.remove_eq_edit m key
    · rw [heq]
      exact h
    · rw [heq]
      exact leads_edit hf h
  have hf' := hf.remove m key
  rw [at?_of_leads hf' hleads, at?_cons hf' hnode', hchild, hvalue]
  rfl

/-- All views of the dictionaries of a forest agree. -/
structure Views (f : Forest) : Prop where
  /-- No key has a value and a child. -/
  apart : ∀ n node key, f.node? n = some node →
    ¬ (node.values.contains key = true ∧ node.children.contains key = true)
  /-- The content of a dictionary has each key once. -/
  nodup : ∀ n, (f.content n).keys.Nodup
  /-- `contains` says whether a key is in the content. -/
  get : ∀ n key value, f.get? n key = some value ↔ (key, value) ∈ f.content n
  contains : ∀ n key, f.contains n key = true ↔ ∃ value, (key, value) ∈ f.content n
  size : ∀ n, f.size n = (f.content n).length
  isEmpty : ∀ n, f.isEmpty n = true ↔ f.content n = []
  /-- `remove` gives what `get?` would have read. -/
  remove : ∀ n key, (f.remove n key).1 = f.get? n key
  /-- Once an object was taken out of a dictionary, and whatever is done then but setting or
  removing its key there, the dictionary has under this key the content of the object. -/
  child : ∀ n key c later, f.Admits (.child n key) → (f.child n key).1 = some c →
    (f.use (.child n key)).AdmitsAll later →
    (∀ u ∈ later, u ≠ .remove n key ∧ ∀ value, u ≠ .set n key value) →
    let g := (f.use (.child n key)).run later
    (key, .obj (g.content c)) ∈ g.content n
  /-- So an edit through the object, or through one at any depth below it, is an edit of the
  dictionary. -/
  edit : ∀ n node key c path m, f.node? n = some node → node.children.find? key = some c →
    f.Leads c path m → ∀ k,
    (∀ value, f.Admits (.set m k value) →
      (f.set m k value).at? n (key :: (path ++ [k])) = some value)
    ∧ (f.Admits (.remove m k) → (f.remove m k).2.at? n (key :: (path ++ [k])) = none)

/-- Whatever is done with dictionaries, all views of each of them agree. -/
theorem views_agree (huses : ({} : Forest).AdmitsAll uses) : (({} : Forest).run uses).Views := by
  have hf := sound_empty.run huses
  have htidy := tidy_empty.run sound_empty huses
  generalize ({} : Forest).run uses = f at hf htidy
  refine ⟨?_, fun n => Keyed.nodup_keys (sorted_content hf n), fun _ _ _ => get?_eq_some_iff hf,
    ?_, size_eq hf htidy, ?_, remove_fst hf, ?_, ?_⟩
  · rintro n node key hnode ⟨hvalue, hchild⟩
    obtain ⟨child, hchild⟩ := (Keyed.contains_iff ..).mp hchild
    rw [Keyed.contains, (htidy n node hnode).apart key child hchild] at hvalue
    cases hvalue
  · intro n key
    rw [contains_eq, Option.isSome_iff_exists]
    exact exists_congr (fun _ => get?_eq_some_iff hf)
  · intro n
    unfold isEmpty
    rw [size_eq hf htidy, decide_eq_true_eq, List.length_eq_zero_iff]
  · intro n key c later hu hc hlater hother g
    have hsound := hf.use hu
    obtain ⟨node, hnode, hchild⟩ := find?_children_child hc
    obtain ⟨node', hnode', hchild'⟩ := find?_children_run hnode hchild hother
    refine Keyed.mem_of_find? ?_
    rw [find?_content (hsound.run hlater) hnode', hchild']
    rfl
  · intro n node key c path m hnode hchild hpath k
    have hleads := hpath.cons hnode hchild
    refine ⟨?_, ?_⟩
    · rintro value ⟨⟨held, hheld, -⟩, hvalue⟩
      exact at?_set hf hleads (node?_eq_some_lt hheld) hvalue k
    · rintro ⟨held, hheld, -⟩
      exact at?_remove hf htidy hleads (node?_eq_some_lt hheld) k

/-- An object is taken out and dropped again, and something is set two levels below: it is in the
content of the whole, and stays so. -/
theorem views_agree_tiered :
    let f := ({} : Forest).run [.make tiered]
    let later := [.set 1 "more" (.obj []), .child 1 "more", .set 2 "x" .null, .drop 1]
    let g := (f.use (.child 0 "tags")).run later
    ("tier", .str "gold") ∈ f.content 0 ∧ (f.remove 0 "tier").1 = some (.str "gold")
      ∧ ("tags", .obj (g.content 1)) ∈ g.content 0
      ∧ (g.set 2 "y" (.int 1)).at? 0 ["tags", "more", "y"] = some (.int 1)
      ∧ (g.remove 2 "x").2.at? 0 ["tags", "more", "x"] = none := by
  intro f later g
  have hf : f.Views := views_agree (by decide +kernel)
  have hrun : ({} : Forest).run (.make tiered :: .child 0 "tags" :: later) = g := by
    simp only [run, List.foldl_cons, List.foldl_nil, f, g]
  have hg : g.Views := hrun ▸ views_agree (by decide +kernel)
  have hnode (n : NodeId) (hsome : (g.node? n).isSome = true) :
      g.node? n = some ((g.node? n).get hsome) :=
    Option.eq_some_of_isSome hsome
  have hgold := (hf.get 0 "tier" (.str "gold")).mp (by decide +kernel)
  have hread : f.get? 0 "tier" = some (.str "gold") := by decide +kernel
  have hedit := hg.edit 0 _ "tags" 1 ["more"] 2 (hnode 0 (by decide +kernel)) (by decide +kernel)
    (.down .here (hnode 1 (by decide +kernel)) (by decide +kernel))
  exact ⟨hgold, (hf.remove 0 "tier").trans hread,
    hf.child 0 "tags" 1 later (by decide +kernel) (by decide +kernel) (by decide +kernel)
      (by simp [later]),
    (hedit "y").1 (.int 1) (by decide +kernel), (hedit "x").2 (by decide +kernel)⟩

end Forest

end Metadata

end DocumentSession
