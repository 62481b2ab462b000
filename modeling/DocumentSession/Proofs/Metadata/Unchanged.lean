import DocumentSession.Proofs.Metadata.Uses

set_option autoImplicit false

/-! # Clean dictionaries

The `dirty` mark decides whether a dictionary is ever written back, so a clean dictionary should
have the content it was made from, or that it had at the last `markClean`. `set` and `remove`, at
any depth, mark it. But `child` under a key that has a value other than an object makes the
dictionary drop this value, and leaves no mark (`clean_without_value`). This is the only way: a
clean dictionary has its content if and only if nobody below it asked for an object under such a key
(`shows_base_of_clean_iff`).

That such a value is lost for good is seen from the keys that lead to it (`Json.at?`): uses that
leave a dictionary clean add no value at any path that had none. -/

namespace DocumentSession

/-- The value that some keys lead to, one below the other. -/
def Json.at? (v : Json) : List String → Option Json
  | [] => some v
  | key :: path => (v.get? key).bind (·.at? path)

namespace Metadata.Forest

variable {f f' : Forest} {n m root : NodeId} {node : Node} {key : String} {u : Use}

/-! ## Places -/

/-- The value at a path in the content of a dictionary. -/
def at? (f : Forest) (n : NodeId) (path : List String) : Option Json :=
  (Json.obj (f.content n)).at? path

theorem at?_cons (hf : f.Sound) (hnode : f.node? n = some node) (key : String)
    (path : List String) :
    f.at? n (key :: path) = match node.children.find? key with
      | some child => f.at? child path
      | none => (node.values.find? key).bind (·.at? path) := by
  show ((f.content n).find? key).bind (·.at? path) = _
  rw [find?_content hf hnode]
  cases node.children.find? key <;> rfl

theorem at?_of_leads (hf : f.Sound) {path : List String} (h : f.Leads n path m)
    (rest : List String) : f.at? n (path ++ rest) = f.at? m rest := by
  induction h generalizing rest with
  | here => rfl
  | @down path p node key child _ hnode hchild ih =>
    rw [List.append_assoc, List.singleton_append, ih, at?_cons hf hnode, hchild]

/-- `forget` keeps the children of every dictionary, and its values are among those that it had. -/
theorem exists_node_forget (m : NodeId) (key : String) (hnode : f.node? n = some node) :
    ∃ node', (f.forget m key).node? n = some node' ∧ node'.children = node.children
      ∧ ∀ k v, node'.values.find? k = some v → node.values.find? k = some v := by
  unfold forget
  rw [node?_modify, hnode]
  split
  · refine ⟨_, rfl, rfl, ?_⟩
    intro k v hv
    dsimp only at hv
    rw [Keyed.find?_erase] at hv
    split at hv
    · cases hv
    · exact hv
  · exact ⟨node, rfl, rfl, fun _ _ hv => hv⟩

/-- `forget` adds no value at any path. -/
theorem isSome_at?_forget (hf : f.Sound) (key : String) {path : List String}
    (h : ((f.forget m key).at? n path).isSome = true) : (f.at? n path).isSome = true := by
  have hf' := hf.forget m key
  induction path generalizing n with
  | nil => rfl
  | cons k path ih =>
    cases hnode : f.node? n with
    | none =>
      have hnone : (f.forget m key).node? n = none := by
        unfold forget
        rw [node?_modify, hnode]
        split <;> rfl
      unfold at? at h
      rw [content_eq_nil hnone] at h
      cases h
    | some node =>
      obtain ⟨node', hnode', hchildren, hvalues⟩ := exists_node_forget m key hnode
      rw [at?_cons hf' hnode', hchildren] at h
      rw [at?_cons hf hnode]
      cases hk : node.children.find? k with
      | some child =>
        rw [hk] at h
        exact ih h
      | none =>
        rw [hk] at h
        obtain ⟨v, hv⟩ := Option.isSome_iff_exists.mp h
        obtain ⟨w, hw, hplace⟩ := Option.bind_eq_some_iff.mp hv
        dsimp only
        rw [hvalues k w hw, Option.bind_some, hplace]
        rfl

/-- A value that is lost is gone from its path, and no other path is filled. -/
theorem at?_of_loses (hf : f.Sound) (h : f.Loses root u) :
    (∀ path, ((f.use u).at? root path).isSome = true → (f.at? root path).isSome = true)
      ∧ ∃ path, (f.at? root path).isSome = true ∧ (f.use u).at? root path = none := by
  obtain ⟨m, key, path, value, rfl, hpath, hget, hother⟩ := h
  rw [get?_eq hf] at hget
  obtain ⟨hnone, -⟩ | ⟨node, hnode, ⟨c, hc, -⟩ | ⟨hfree, ⟨-, heq⟩ | ⟨values, hvalues, -⟩⟩⟩ :=
    f.child_cases m key
  · rw [content_eq_nil hnone] at hget
    cases hget
  · rw [find?_content hf hnode, hc] at hget
    obtain rfl := Option.some.inj hget
    cases hother
  · have huse : f.use (.child m key) = f.forget m key := by
      show (f.child m key).2 = _
      rw [heq]
    have hf' := hf.forget m key
    rw [huse]
    refine ⟨fun path => isSome_at?_forget hf key, path ++ [key], ?_, ?_⟩
    · rw [at?_of_leads hf hpath]
      show (((f.content m).find? key).bind some).isSome = true
      rw [hget]
      rfl
    · rw [at?_of_leads hf' (hpath.modify hf (Nat.le_refl m) _),
        at?_cons hf' (by unfold forget; rw [node?_modify, if_pos rfl, hnode]; rfl)]
      dsimp only
      rw [hfree, Keyed.find?_erase, if_pos rfl]
      rfl
  · rw [find?_content hf hnode, hfree, hvalues] at hget
    obtain rfl := Option.some.inj hget
    cases hother

/-! ## Runs -/

/-- No use in the list `Loses` a value below `root`. -/
def Spares (f : Forest) (root : NodeId) : List Use → Prop
  | [] => True
  | u :: uses => ¬ f.Loses root u ∧ (f.use u).Spares root uses

variable {uses : List Use}

/-- What is held and clean at the end was so from the start. -/
theorem standing_of_run (hf : f.Sound) (hfree : f.IsFree root) (huses : f.AdmitsAll uses)
    (hother : Use.markClean root ∉ uses) (hheld : (f.run uses).IsHeld root)
    (hclean : (f.run uses).isDirty root = false) : f.IsHeld root ∧ f.isDirty root = false := by
  induction uses generalizing f with
  | nil => exact ⟨hheld, hclean⟩
  | cons u uses ih =>
    obtain ⟨hu, hrest⟩ := huses
    obtain ⟨hne, hother⟩ := not_or.mp (mt List.mem_cons.mpr hother)
    have hkeeps := keeps_use hf hfree hu (Ne.symm hne)
    obtain ⟨hheld', hclean'⟩ := ih (hf.use hu) (hkeeps.isFree hfree) hrest hother hheld hclean
    exact ⟨hkeeps.isHeld hfree hheld', hkeeps.isClean hfree hclean'⟩

/-- A dictionary that stays clean gets no value at a path where it had none. -/
theorem isSome_at?_of_run (hf : f.Sound) (hfree : f.IsFree root) (huses : f.AdmitsAll uses)
    (hother : Use.markClean root ∉ uses) (hheld : (f.run uses).IsHeld root)
    (hclean : (f.run uses).isDirty root = false) {path : List String}
    (h : ((f.run uses).at? root path).isSome = true) : (f.at? root path).isSome = true := by
  induction uses generalizing f with
  | nil => exact h
  | cons u uses ih =>
    obtain ⟨hu, hrest⟩ := huses
    obtain ⟨hne, hother⟩ := not_or.mp (mt List.mem_cons.mpr hother)
    have hkeeps := keeps_use hf hfree hu (Ne.symm hne)
    have hfree' := hkeeps.isFree hfree
    obtain ⟨hheld', hclean'⟩ := standing_of_run (hf.use hu) hfree' hrest hother hheld hclean
    have hafter := ih (hf.use hu) hfree' hrest hother hheld hclean h
    by_cases hloses : f.Loses root u
    · exact (at?_of_loses hf hloses).1 path hafter
    · unfold at? at hafter ⊢
      rw [← content_use_of_clean hf (hkeeps.isHeld hfree hheld') hu hloses hclean']
      exact hafter

/-- A dictionary that stays clean keeps its content if and only if no value was lost below it. -/
theorem content_run_eq_iff (hf : f.Sound) (hfree : f.IsFree root) (huses : f.AdmitsAll uses)
    (hother : Use.markClean root ∉ uses) (hheld : (f.run uses).IsHeld root)
    (hclean : (f.run uses).isDirty root = false) :
    (f.run uses).content root = f.content root ↔ f.Spares root uses := by
  induction uses generalizing f with
  | nil => exact ⟨fun _ => trivial, fun _ => rfl⟩
  | cons u uses ih =>
    obtain ⟨hu, hrest⟩ := huses
    obtain ⟨hne, hother⟩ := not_or.mp (mt List.mem_cons.mpr hother)
    have hkeeps := keeps_use hf hfree hu (Ne.symm hne)
    have hfree' := hkeeps.isFree hfree
    obtain ⟨hheld', hclean'⟩ := standing_of_run (hf.use hu) hfree' hrest hother hheld hclean
    have hafter := ih (hf.use hu) hfree' hrest hother hheld hclean
    by_cases hloses : f.Loses root u
    · -- the place that was emptied stays empty
      obtain ⟨-, path, hbefore, hgone⟩ := at?_of_loses hf hloses
      refine ⟨fun hsame => ?_, fun hspares => absurd hloses hspares.1⟩
      have hshown : (((f.use u).run uses).at? root path).isSome = true := by
        unfold at? at hbefore ⊢
        exact hsame ▸ hbefore
      have hstill := isSome_at?_of_run (hf.use hu) hfree' hrest hother hheld hclean hshown
      rw [hgone] at hstill
      cases hstill
    · have hsame := content_use_of_clean hf (hkeeps.isHeld hfree hheld') hu hloses hclean'
      rw [hsame] at hafter
      exact hafter.trans ⟨fun hspares => ⟨hloses, hspares⟩, fun hspares => hspares.2⟩

/-- A dictionary is made from some values, or a free one is marked clean. -/
inductive Starts (f : Forest) : NodeId → Fields → Forest → Prop where
  | made (base : Fields) (hbase : (Json.obj base).isWellFormed = true) :
    Starts f f.nodes.length base (f.create base).2
  | cleaned (root : NodeId) (hfree : f.IsFree root) :
    Starts f root (f.content root) (f.markClean root)

theorem Starts.spec {base : Fields} (h : f.Starts root base f') (hf : f.Sound) :
    f'.Sound ∧ f'.IsFree root ∧ f'.isDirty root = false ∧ f'.content root = base := by
  cases h with
  | made _ hbase =>
    refine ⟨hf.create hbase (by simp), ⟨{ values := base }, ?_, rfl⟩, f.isDirty_created base,
      f.content_created base⟩
    rw [node?_create, if_pos rfl]
  | cleaned _ hfree =>
    obtain ⟨node, hnode, -⟩ := id hfree
    exact ⟨hf.alike (f.alike_markClean root), (f.alike_markClean root).isFree hfree,
      isDirty_markClean_self (node?_eq_some_lt hnode), (f.alike_markClean root).content hf root⟩

/-- Whatever was done to dictionaries before, and whatever is done through any of them after one
was made from some values or marked as clean: if it is still held and clean, it shows what it
showed then, unless somebody has asked, in it or anywhere below it, for an object under a key with
another value. And then it does not. -/
theorem shows_base_of_clean_iff {before : List Use} (hbefore : ({} : Forest).AdmitsAll before)
    {base : Fields} (hstart : (({} : Forest).run before).Starts root base f)
    (huses : f.AdmitsAll uses) (hother : Use.markClean root ∉ uses)
    (hheld : (f.run uses).IsHeld root) (hclean : (f.run uses).isDirty root = false) :
    (f.run uses).content root = base ↔ f.Spares root uses := by
  obtain ⟨hf, hfree, -, hbase⟩ := hstart.spec (sound_empty.run hbefore)
  rw [← hbase]
  exact content_run_eq_iff hf hfree huses hother hheld hclean

/-- A dictionary of one plain value and an object with another one. -/
def tiered : Fields :=
  [("tags", .obj [("source", .str "import")]), ("tier", .str "gold")]

/-- The object is taken out twice, dropped once, and another dictionary is edited: the first one is
clean and has the content it was made from. Once `child` was called for the key of the text inside,
it is still clean, and has another content. -/
theorem shows_base_of_clean_iff_tiered :
    let made := (({} : Forest).create tiered).2
    let uses := [Use.child 0 "tags", .child 0 "tags", .make [], .set 2 "tier" .null, .drop 1]
    (made.run uses).isDirty 0 = false ∧ made.Spares 0 uses
      ∧ (made.run (uses ++ [.child 1 "source"])).isDirty 0 = false
      ∧ ¬ made.Spares 0 (uses ++ [.child 1 "source"]) := by
  intro made uses
  have hbefore : ({} : Forest).AdmitsAll [] := trivial
  have hstart : (({} : Forest).run []).Starts 0 tiered made := .made tiered (by decide +kernel)
  have huses : made.AdmitsAll uses := by decide +kernel
  have hclean : (made.run uses).isDirty 0 = false := by decide +kernel
  have hspares :=
    shows_base_of_clean_iff hbefore hstart huses (by decide) (by decide +kernel) hclean
  have huses' : made.AdmitsAll (uses ++ [.child 1 "source"]) := by decide +kernel
  have hclean' : (made.run (uses ++ [.child 1 "source"])).isDirty 0 = false := by decide +kernel
  have hloses :=
    shows_base_of_clean_iff hbefore hstart huses' (by decide) (by decide +kernel) hclean'
  have hsame : (made.run uses).content 0 = tiered := by decide +kernel
  have hother : (made.run (uses ++ [.child 1 "source"])).content 0 ≠ tiered := by decide +kernel
  exact ⟨hclean, hspares.mp hsame, hclean', fun h => hother (hloses.mpr h)⟩

/-- A clean dictionary that does not have the content it was made from: `child` was called for a key
that has a number. -/
theorem clean_without_value :
    ∃ (base : Fields) (uses : List Use), (({} : Forest).create base).2.AdmitsAll uses
      ∧ Use.markClean 0 ∉ uses
      ∧ ((({} : Forest).create base).2.run uses).IsHeld 0
      ∧ ((({} : Forest).create base).2.run uses).isDirty 0 = false
      ∧ ((({} : Forest).create base).2.run uses).content 0 ≠ base :=
  ⟨[("a", .int 1)], [.child 0 "a"], by decide +kernel, by decide, by decide +kernel,
    by decide +kernel, by decide +kernel⟩

end Metadata.Forest

end DocumentSession
