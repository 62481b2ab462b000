import Mathlib.Data.List.Enum
import Mathlib.Data.List.Forall2
import DocumentSession.Proofs.Locations

set_option autoImplicit false

/-! # Every difference is listed once

Two values are `Differing` at a location if there are two objects or two arrays at each location
that leads to it, and the location itself has a value on one side only, or two unequal values that
are neither two objects nor two arrays. `Change.list` has one change for each of these locations:
its path spells the location, it has the values of both bodies there, and its `Kind` is that of the
last step and the missing side (`changes_locate_differences`).

`between` follows the new body. Its changes at a site are the differing locations below the site
(`lists_between`), and those below different steps are disjoint. -/

namespace DocumentSession.Change

/-! ## Differing locations -/

/-- Whether a step leads to what takes part in a comparison: the key of a member is not ignored. -/
def Step.isCompared : Step → Bool
  | .member key => !isIgnored key
  | .item _ => true

theorem isCompared_eq_false_iff (key : String) :
    (Step.member key).isCompared = false
      ↔ key ∈ ["@last-modified", "@collection", "@change-vector", "@id", "@metadata"] := by
  rw [← isIgnored_iff, Step.isCompared, Bool.not_eq_false']

/-- Whether there are two objects or two arrays. -/
def areContainers : Option Json → Option Json → Bool
  | some (.obj _), some (.obj _) => true
  | some (.arr _), some (.arr _) => true
  | _, _ => false

/-- Whether there is a value on one side only, or two unequal values that are neither two objects
nor two arrays. -/
def areApart : Option Json → Option Json → Bool
  | none, none => false
  | some before, some after => !areContainers before after && !before.equal after
  | _, _ => true

/-- `loc` is the location of two values that are compared, if `old` and `new` are. -/
structure Reached (old new : Json) (loc : Location) : Prop where
  compared : ∀ s ∈ loc, s.isCompared = true
  inside : ∀ base, base <+: loc → base ≠ loc → areContainers (at? old base) (at? new base) = true

/-- `old` and `new` differ at `loc`. -/
structure Differing (old new : Json) (loc : Location) : Prop extends Reached old new loc where
  apart : areApart (at? old loc) (at? new loc) = true

/-- `old` and `new` differ at `loc`, which is `base` or below it. -/
def DifferingBelow (old new : Json) (base loc : Location) : Prop :=
  base <+: loc ∧ Differing old new loc

variable {old new : Json} {base loc : Location}

theorem Reached.nil : Reached old new [] where
  compared := by simp
  inside := by
    intro base hleads hne
    exact absurd (List.prefix_nil.mp hleads) hne

theorem Reached.append_step (h : Reached old new base)
    (hcontainers : areContainers (at? old base) (at? new base) = true) {s : Step}
    (hs : s.isCompared = true) : Reached old new (base ++ [s]) where
  compared := by
    intro s' hs'
    rcases List.mem_append.mp hs' with hs' | hs'
    · exact h.compared s' hs'
    · obtain rfl := List.mem_singleton.mp hs'
      exact hs
  inside := by
    intro base' hleads hne
    have hbase := (List.prefix_concat_iff.mp hleads).resolve_left hne
    by_cases heq : base' = base
    · rw [heq]
      exact hcontainers
    · exact h.inside base' hbase heq

/-- Where there are no containers on both sides, no other location is below. -/
theorem differingBelow_iff_of_leaf (h : Reached old new base)
    (hleaf : areContainers (at? old base) (at? new base) = false) :
    DifferingBelow old new base loc
      ↔ loc = base ∧ areApart (at? old base) (at? new base) = true := by
  constructor
  · rintro ⟨hleads, hdiffering⟩
    have heq : base = loc := by
      by_contra hne
      have hinside := hdiffering.inside base hleads hne
      simp [hleaf] at hinside
    exact ⟨heq.symm, heq ▸ hdiffering.apart⟩
  · rintro ⟨rfl, hapart⟩
    exact ⟨List.prefix_rfl, h, hapart⟩

/-- Where neither side has a value there is no differing location below. -/
theorem DifferingBelow.present (h : DifferingBelow old new base loc) :
    at? old base ≠ none ∨ at? new base ≠ none := by
  obtain ⟨hleads, hdiffering⟩ := h
  by_contra habsent
  rw [not_or, not_not, not_not] at habsent
  by_cases heq : base = loc
  · subst heq
    have hapart := hdiffering.apart
    simp [habsent, areApart] at hapart
  · have hinside := hdiffering.inside base hleads heq
    simp [habsent, areContainers] at hinside

/-- A value on one side only is `areApart`, and there are no containers on both sides. -/
theorem leaf_of_oneSided {before after : Option Json} (h : before.isSome = !after.isSome) :
    areContainers before after = false ∧ areApart before after = true := by
  cases before <;> cases after <;> simp_all [areContainers, areApart]

theorem not_areApart_of_areContainers {before after : Option Json}
    (h : areContainers before after = true) : areApart before after = false := by
  cases before <;> cases after <;> simp_all [areContainers, areApart]

/-- Two containers differ below `base` if and only if they do below a step from `base`. -/
theorem differingBelow_iff_exists_step
    (hcontainers : areContainers (at? old base) (at? new base) = true) :
    DifferingBelow old new base loc ↔ ∃ s, DifferingBelow old new (base ++ [s]) loc := by
  constructor
  · rintro ⟨⟨rest, rfl⟩, hdiffering⟩
    cases rest with
    | nil =>
      have hapart := hdiffering.apart
      rw [List.append_nil, not_areApart_of_areContainers hcontainers] at hapart
      cases hapart
    | cons s rest => exact ⟨s, ⟨rest, by simp⟩, hdiffering⟩
  · rintro ⟨s, hleads, hdiffering⟩
    exact ⟨(List.prefix_append base [s]).trans hleads, hdiffering⟩

theorem DifferingBelow.isCompared {s : Step} (h : DifferingBelow old new (base ++ [s]) loc) :
    s.isCompared = true :=
  h.2.compared s (h.1.subset (by simp))

theorem DifferingBelow.step_eq {s s' : Step} (h : DifferingBelow old new (base ++ [s]) loc)
    (h' : DifferingBelow old new (base ++ [s']) loc) : s = s' := by
  have hleads := List.prefix_of_prefix_length_le h.1 h'.1 (by simp)
  have heq := hleads.eq_of_length (by simp)
  simpa using heq

/-! ## Described locations -/

/-- The kind of a change at the end of a step, by the values that the two sides have there. -/
def Step.kind : Step → Option Json → Option Json → Kind
  | .member _, none, _ => .newField
  | .member _, some _, none => .removedField
  | .member _, some _, some _ => .fieldChanged
  | .item _, none, _ => .arrayValueAdded
  | .item _, some _, none => .arrayValueRemoved
  | .item _, some _, some _ => .arrayValueChanged

/-- `c` has the path, the kind and the values of `loc`. -/
structure Describes (old new : Json) (c : Change) (loc : Location) : Prop where
  path_eq : c.fullPath = spell loc
  old_eq : c.old = at? old loc
  new_eq : c.new = at? new loc
  kind_eq : ∃ base s, loc = base ++ [s] ∧ c.kind = s.kind c.old c.new

/-- `cs` describe the locations with the property `P`, each one once. -/
def Lists (old new : Json) (P : Location → Prop) (cs : List Change) : Prop :=
  ∃ locs, List.Forall₂ (Describes old new) cs locs ∧ locs.Nodup ∧ ∀ loc, loc ∈ locs ↔ P loc

section Lists

variable {P Q : Location → Prop} {cs ds : List Change}

theorem Lists.congr (h : Lists old new P cs) (hiff : ∀ loc, P loc ↔ Q loc) :
    Lists old new Q cs := by
  obtain ⟨locs, hdescribes, hnodup, hmem⟩ := h
  exact ⟨locs, hdescribes, hnodup, fun loc => (hmem loc).trans (hiff loc)⟩

theorem Lists.nil (h : ∀ loc, ¬ P loc) : Lists old new P [] :=
  ⟨[], List.Forall₂.nil, List.nodup_nil, fun loc => by simp [h loc]⟩

theorem Lists.append (h : Lists old new P cs) (h' : Lists old new Q ds)
    (hdisjoint : ∀ loc, P loc → ¬ Q loc) : Lists old new (fun loc => P loc ∨ Q loc) (cs ++ ds) := by
  obtain ⟨locs, hdescribes, hnodup, hmem⟩ := h
  obtain ⟨locs', hdescribes', hnodup', hmem'⟩ := h'
  refine ⟨locs ++ locs', List.rel_append hdescribes hdescribes', ?_, ?_⟩
  · refine List.nodup_append'.mpr ⟨hnodup, hnodup', ?_⟩
    intro loc hloc hloc'
    exact hdisjoint loc ((hmem loc).mp hloc) ((hmem' loc).mp hloc')
  · intro loc
    rw [List.mem_append, hmem, hmem']

/-- Entries at different places are listed if each is described. -/
theorem Lists.map {α : Type} {entries : List α} {entry : α → Change} {place : α → Location}
    (hnodup : (entries.map place).Nodup)
    (hdescribes : ∀ e ∈ entries, Describes old new (entry e) (place e)) :
    Lists old new (fun loc => ∃ e ∈ entries, place e = loc) (entries.map entry) := by
  refine ⟨entries.map place, ?_, hnodup, fun loc => List.mem_map⟩
  rw [List.forall₂_map_left_iff, List.forall₂_map_right_iff]
  exact List.forall₂_same.mpr hdescribes

end Lists

/-! ## Sites -/

/-- Whether a step goes to the item of an array. -/
def Step.isItem : Step → Bool
  | .member _ => false
  | .item _ => true

/-- Whether a site is an item of arrays. -/
def Site.isItem : Site → Bool
  | .field .. => false
  | .item .. => true

/-- The path and the name of `site` spell `loc`. -/
structure Site.IsAt (site : Site) (loc : Location) : Prop where
  path_eq : site.path = spell loc
  step_eq : ∃ base s, loc = base ++ [s] ∧ s.isItem = site.isItem

theorem Site.isAt_field (hplain : ∀ s ∈ base, s.isPlain = true) (key : String) :
    (Site.field (spell base) key).IsAt (base ++ [.member key]) :=
  ⟨join_spell hplain key, base, .member key, rfl, rfl⟩

theorem join_append (path name rest : String) :
    join path (name ++ rest) = join path name ++ rest := by
  unfold join
  split <;> simp only [String.append_assoc]

theorem Site.path_itemAt (site : Site) (position : Nat) :
    (site.itemAt position).path = site.path ++ positionText position := by
  cases site with
  | field path name => rfl
  | item path name outer => rw [itemAt, Site.path, join_append, Site.path]

theorem Site.IsAt.itemAt {site : Site} (h : site.IsAt base) (position : Nat) :
    (site.itemAt position).IsAt (base ++ [.item position]) where
  path_eq := by rw [path_itemAt, h.path_eq, spell_append_item]
  step_eq := ⟨base, .item position, rfl, by cases site <;> rfl⟩

theorem positionText_ne_empty (position : Nat) : positionText position ≠ "" := by
  simp [positionText]

theorem Site.fullPath_changed (site : Site) (before after : Json) :
    (site.changed before after).fullPath = site.path := by
  cases site with
  | field path name => simp [changed, fullPath, Kind.isOfArray, Site.path, join]
  | item path name position =>
    simp [changed, fullPath, Kind.isOfArray, Site.path, positionText_ne_empty]

/-- The change of two values at a site describes its location. -/
theorem Site.IsAt.describes_changed {site : Site} (h : site.IsAt loc) {before after : Json}
    (hbefore : at? old loc = some before) (hafter : at? new loc = some after) :
    Describes old new (site.changed before after) loc where
  path_eq := by rw [fullPath_changed, h.path_eq]
  old_eq := by cases site <;> exact hbefore.symm
  new_eq := by cases site <;> exact hafter.symm
  kind_eq := by
    obtain ⟨base, s, rfl, hs⟩ := h.step_eq
    refine ⟨base, s, rfl, ?_⟩
    cases site <;> cases s <;> simp_all [isItem, Step.isItem, changed, Step.kind]

/-- Values that are not two containers make at most one change. -/
theorem between_of_leaf (site : Site) {before after : Json}
    (hleaf : areContainers before after = false) :
    between site before after
      = if before.equal after then [] else [site.changed before after] := by
  cases after <;> cases before <;> simp_all [between, areContainers, Json.equal]

theorem lists_leaf {site : Site} (hsite : site.IsAt base) (h : Reached old new base)
    {before after : Json} (hbefore : at? old base = some before)
    (hafter : at? new base = some after) (hleaf : areContainers before after = false) :
    Lists old new (DifferingBelow old new base) (between site before after) := by
  rw [between_of_leaf site hleaf]
  have hbelow : ∀ loc, DifferingBelow old new base loc
      ↔ loc = base ∧ before.equal after = false := by
    intro loc
    rw [differingBelow_iff_of_leaf h (by rw [hbefore, hafter, hleaf]), hbefore, hafter, areApart,
      hleaf]
    simp
  split
  · next hequal =>
    refine Lists.nil fun loc hloc => ?_
    simp [hbelow, hequal] at hloc
  · next hequal =>
    refine ⟨[base], ?_, List.nodup_singleton base, ?_⟩
    · exact List.forall₂_cons.mpr
        ⟨hsite.describes_changed hbefore hafter, List.Forall₂.nil⟩
    · intro loc
      simp [hbelow, hequal]

/-! ## Steps below containers -/

/-- `old` and `new` differ at `loc`, which is below a step from `base` with the property `p`. -/
def DifferingBehind (old new : Json) (base : Location) (p : Step → Prop) (loc : Location) : Prop :=
  ∃ s, p s ∧ DifferingBelow old new (base ++ [s]) loc

theorem Lists.append_behind {p q : Step → Prop} {cs ds : List Change}
    (h : Lists old new (DifferingBehind old new base p) cs)
    (h' : Lists old new (DifferingBehind old new base q) ds)
    (hdisjoint : ∀ s loc, DifferingBelow old new (base ++ [s]) loc → p s → ¬ q s) :
    Lists old new (DifferingBehind old new base fun s => p s ∨ q s) (cs ++ ds) := by
  have happend := h.append h' (by
    rintro loc ⟨s, hp, hs⟩ ⟨s', hq, hs'⟩
    obtain rfl := hs.step_eq hs'
    exact hdisjoint s loc hs hp hq)
  refine happend.congr fun loc => ?_
  constructor
  · rintro (⟨s, hs, hloc⟩ | ⟨s, hs, hloc⟩)
    · exact ⟨s, Or.inl hs, hloc⟩
    · exact ⟨s, Or.inr hs, hloc⟩
  · rintro ⟨s, hs | hs, hloc⟩
    · exact Or.inl ⟨s, hs, hloc⟩
    · exact Or.inr ⟨s, hs, hloc⟩

theorem Lists.congr_behind {p q : Step → Prop} {cs : List Change}
    (h : Lists old new (DifferingBehind old new base p) cs)
    (hiff : ∀ s loc, DifferingBelow old new (base ++ [s]) loc → (p s ↔ q s)) :
    Lists old new (DifferingBehind old new base q) cs := by
  refine h.congr fun loc => exists_congr fun s => ?_
  exact and_congr_left (hiff s loc)

/-- The changes of two containers are those behind all their steps. -/
theorem Lists.of_behind {p : Step → Prop} {cs : List Change}
    (h : Lists old new (DifferingBehind old new base p) cs)
    (hcontainers : areContainers (at? old base) (at? new base) = true)
    (hall : ∀ s loc, DifferingBelow old new (base ++ [s]) loc → p s) :
    Lists old new (DifferingBelow old new base) cs := by
  refine h.congr fun loc => ?_
  rw [differingBelow_iff_exists_step hcontainers]
  constructor
  · rintro ⟨s, -, hs⟩
    exact ⟨s, hs⟩
  · rintro ⟨s, hs⟩
    exact ⟨s, hall s loc hs, hs⟩

/-- The changes behind one step are those below its location. -/
theorem Lists.behind {s : Step} {cs : List Change}
    (h : Lists old new (DifferingBelow old new (base ++ [s])) cs) :
    Lists old new (DifferingBehind old new base fun s' => s' = s) cs := by
  refine h.congr fun loc => ?_
  simp [DifferingBehind]

/-- Steps behind which only one side has a value are listed by one change each. -/
theorem lists_oneSided {α : Type} {entries : List α} {entry : α → Change} (step : α → Step)
    (h : Reached old new base) (hcontainers : areContainers (at? old base) (at? new base) = true)
    (hnodup : (entries.map step).Nodup)
    (hcompared : ∀ e ∈ entries, (step e).isCompared = true)
    (hsole : ∀ e ∈ entries,
      (at? old (base ++ [step e])).isSome = !(at? new (base ++ [step e])).isSome)
    (hdescribes : ∀ e ∈ entries, Describes old new (entry e) (base ++ [step e])) :
    Lists old new (DifferingBehind old new base fun s => ∃ e ∈ entries, step e = s)
      (entries.map entry) := by
  have hplaces : (entries.map fun e => base ++ [step e]).Nodup := by
    have hinj : Function.Injective fun s : Step => base ++ [s] := by
      intro s s' heq
      simpa using heq
    simpa [List.map_map, Function.comp_def] using hnodup.map hinj
  refine (Lists.map hplaces hdescribes).congr fun loc => ?_
  have hbelow : ∀ e ∈ entries, (DifferingBelow old new (base ++ [step e]) loc
      ↔ base ++ [step e] = loc) := by
    intro e he
    have hreached := h.append_step hcontainers (hcompared e he)
    obtain ⟨hleaf, hapart⟩ := leaf_of_oneSided (hsole e he)
    rw [differingBelow_iff_of_leaf hreached hleaf]
    simp [hapart, eq_comm]
  constructor
  · rintro ⟨e, he, hloc⟩
    exact ⟨step e, ⟨e, he, rfl⟩, (hbelow e he).mpr hloc⟩
  · rintro ⟨-, ⟨e, he, rfl⟩, hloc⟩
    exact ⟨e, he, (hbelow e he).mp hloc⟩

/-! ## Fields of one side -/

theorem mem_foreign {fields others : Fields} {m : String × Json} :
    m ∈ foreign fields others ↔ m ∈ others ∧ isIgnored m.1 = false ∧ fields.find? m.1 = none := by
  rw [foreign, List.mem_filter, Bool.and_eq_true, Bool.not_eq_true', Bool.not_eq_true',
    Keyed.contains_eq_false_iff]

theorem nodup_steps {members : Fields} (hs : (Keyed.keys members).Nodup) :
    (members.map fun m => Step.member m.1).Nodup := by
  have hinj : Function.Injective Step.member := by
    intro key key' heq
    simpa using heq
  simpa [Keyed.keys, List.map_map, Function.comp_def] using hs.map hinj

theorem nodup_foreign_steps (fields : Fields) {others : Fields} (hs : others.Sorted) :
    ((foreign fields others).map fun m => Step.member m.1).Nodup :=
  (nodup_steps (Keyed.nodup_keys hs)).sublist (List.filter_sublist.map _)

/-- `old` and `new` have the objects `before` and `after` at `base`, where they are compared. -/
structure ObjectsAt (old new : Json) (base : Location) (before after : Fields) : Prop
    extends Reached old new base where
  old_eq : at? old base = some (.obj before)
  new_eq : at? new base = some (.obj after)
  plain : ∀ s ∈ base, s.isPlain = true
  old_sorted : before.Sorted
  new_sorted : after.Sorted

variable {before after : Fields}

theorem ObjectsAt.containers (h : ObjectsAt old new base before after) :
    areContainers (at? old base) (at? new base) = true := by
  rw [h.old_eq, h.new_eq]
  rfl

theorem ObjectsAt.old_member (h : ObjectsAt old new base before after) (key : String) :
    at? old (base ++ [.member key]) = before.find? key := by
  rw [at?_append_step, h.old_eq]
  rfl

theorem ObjectsAt.new_member (h : ObjectsAt old new base before after) (key : String) :
    at? new (base ++ [.member key]) = after.find? key := by
  rw [at?_append_step, h.new_eq]
  rfl

/-- Two objects differ below fields that are not ignored and that one of them has. -/
theorem ObjectsAt.exists_field (h : ObjectsAt old new base before after) {s : Step}
    (hs : DifferingBelow old new (base ++ [s]) loc) :
    ∃ key, s = .member key ∧ isIgnored key = false
      ∧ (before.find? key ≠ none ∨ after.find? key ≠ none) := by
  have hcompared := hs.isCompared
  have hpresent := hs.present
  cases s with
  | item position =>
    rw [at?_append_step, at?_append_step, h.old_eq, h.new_eq] at hpresent
    simp [part?] at hpresent
  | member key =>
    rw [h.old_member, h.new_member] at hpresent
    exact ⟨key, rfl, by simpa [Step.isCompared] using hcompared, hpresent⟩

/-- The changes for the fields that one of two objects lacks. -/
theorem lists_foreign (h : ObjectsAt old new base before after) {lacking : Json}
    {fields others : Fields} (entry : String × Json → Change)
    (hsides : lacking = old ∧ fields = before ∧ others = after
      ∨ lacking = new ∧ fields = after ∧ others = before)
    (hdescribes : ∀ m ∈ foreign fields others,
      Describes old new (entry m) (base ++ [.member m.1])) :
    Lists old new (DifferingBehind old new base fun s => at? lacking (base ++ [s]) = none)
      ((foreign fields others).map entry) := by
  have hothers : others.Sorted := by
    rcases hsides with ⟨-, -, rfl⟩ | ⟨-, -, rfl⟩
    · exact h.new_sorted
    · exact h.old_sorted
  have hlacking : ∀ key, at? lacking (base ++ [.member key]) = fields.find? key := by
    rcases hsides with ⟨rfl, rfl, -⟩ | ⟨rfl, rfl, -⟩
    · exact h.old_member
    · exact h.new_member
  refine (lists_oneSided (fun m => .member m.1) h.toReached h.containers
    (nodup_foreign_steps fields hothers) ?_ ?_ hdescribes).congr_behind ?_
  · intro m hm
    simp [Step.isCompared, (mem_foreign.mp hm).2.1]
  · intro m hm
    obtain ⟨hmem, -, hnone⟩ := mem_foreign.mp hm
    have hfound := Keyed.find?_of_mem hothers hmem
    rw [h.old_member, h.new_member]
    rcases hsides with ⟨-, rfl, rfl⟩ | ⟨-, rfl, rfl⟩ <;> simp [hfound, hnone]
  · intro s loc hs
    obtain ⟨key, rfl, hcompared, hpresent⟩ := h.exists_field hs
    rw [hlacking]
    constructor
    · rintro ⟨m, hm, heq⟩
      obtain rfl := Step.member.inj heq
      exact (mem_foreign.mp hm).2.2
    · intro hnone
      have hfound : others.find? key ≠ none := by
        rcases hsides with ⟨-, rfl, rfl⟩ | ⟨-, rfl, rfl⟩ <;> simpa [hnone] using hpresent
      obtain ⟨v, hv⟩ := Option.ne_none_iff_exists'.mp hfound
      exact ⟨(key, v), mem_foreign.mpr ⟨Keyed.mem_of_find? hv, hcompared, hnone⟩, rfl⟩

/-- All changes of two objects, if those inside common fields are listed. -/
theorem lists_objects (h : ObjectsAt old new base before after)
    (hcommon : Lists old new
      (DifferingBehind old new base fun s =>
        ∃ m ∈ after, s = .member m.1 ∧ at? old (base ++ [s]) ≠ none)
      (inMembers (spell base) before after)) :
    Lists old new (DifferingBelow old new base)
      (oneSided (spell base) before after ++ inMembers (spell base) before after) := by
  have hadded := lists_foreign h
    (fun m => { kind := .newField, name := m.1, path := spell base, new := some m.2 })
    (Or.inl ⟨rfl, rfl, rfl⟩) fun m hm =>
      { path_eq := join_spell h.plain m.1
        old_eq := by rw [h.old_member, (mem_foreign.mp hm).2.2]
        new_eq := by rw [h.new_member, Keyed.find?_of_mem h.new_sorted (mem_foreign.mp hm).1]
        kind_eq := ⟨base, .member m.1, rfl, rfl⟩ }
  have hremoved := lists_foreign h
    (fun m => { kind := .removedField, name := m.1, path := spell base, old := some m.2 })
    (Or.inr ⟨rfl, rfl, rfl⟩) fun m hm =>
      { path_eq := join_spell h.plain m.1
        old_eq := by rw [h.old_member, Keyed.find?_of_mem h.old_sorted (mem_foreign.mp hm).1]
        new_eq := by rw [h.new_member, (mem_foreign.mp hm).2.2]
        kind_eq := ⟨base, .member m.1, rfl, rfl⟩ }
  have hsided := hadded.append_behind hremoved fun s loc hs hold hnew =>
    hs.present.elim (· hold) (· hnew)
  have hboth : Lists old new
      (DifferingBehind old new base fun s =>
        at? old (base ++ [s]) ≠ none ∧ at? new (base ++ [s]) ≠ none)
      (inMembers (spell base) before after) := by
    refine hcommon.congr_behind fun s loc hs => ?_
    obtain ⟨key, rfl, -, -⟩ := h.exists_field hs
    rw [h.new_member, ne_eq, ne_eq, Keyed.find?_eq_none_iff, not_not, and_comm, Keyed.keys,
      List.mem_map]
    simp [eq_comm]
  have hlists := hsided.append_behind hboth fun s loc _ hlacking hfound =>
    hlacking.elim hfound.1 hfound.2
  refine hlists.of_behind h.containers fun s loc _ => ?_
  by_cases hold : at? old (base ++ [s]) = none
  · exact Or.inl (Or.inl hold)
  · by_cases hnew : at? new (base ++ [s]) = none
    · exact Or.inl (Or.inr hnew)
    · exact Or.inr ⟨hold, hnew⟩

/-! ## Items of one side -/

/-- The change for an item, with its position, that only one of two arrays has. -/
def Site.sole (kind : Kind) (site : Site) (x : Json × Nat) : Change where
  kind := kind
  name := (site.itemAt x.2).name
  path := (site.itemAt x.2).path
  old := if kind = .arrayValueRemoved then some x.1 else none
  new := if kind = .arrayValueRemoved then none else some x.1

theorem surplus_eq_map (kind : Kind) (site : Site) (position : Nat) (items : List Json) :
    surplus kind site position items = (items.zipIdx position).map (site.sole kind) := by
  induction items generalizing position with
  | nil => rfl
  | cons v rest ih => rw [surplus, ih, List.zipIdx_cons, List.map_cons, Site.sole]

theorem Site.fullPath_sole {kind : Kind} (hkind : kind.isOfArray = true) (site : Site)
    (x : Json × Nat) : (site.sole kind x).fullPath = (site.itemAt x.2).path := by
  rw [path_itemAt]
  simp [sole, fullPath, path_itemAt, hkind, positionText_ne_empty]

/-- `old` and `new` have the arrays `before` and `after` at `base`, where they are compared. -/
structure ArraysAt (old new : Json) (base : Location) (before after : List Json) : Prop
    extends Reached old new base where
  old_eq : at? old base = some (.arr before)
  new_eq : at? new base = some (.arr after)

variable {items items' : List Json}

theorem ArraysAt.containers (h : ArraysAt old new base items items') :
    areContainers (at? old base) (at? new base) = true := by
  rw [h.old_eq, h.new_eq]
  rfl

theorem ArraysAt.old_item (h : ArraysAt old new base items items') (position : Nat) :
    at? old (base ++ [.item position]) = items[position]? := by
  rw [at?_append_step, h.old_eq]
  rfl

theorem ArraysAt.new_item (h : ArraysAt old new base items items') (position : Nat) :
    at? new (base ++ [.item position]) = items'[position]? := by
  rw [at?_append_step, h.new_eq]
  rfl

/-- Two arrays differ below positions. -/
theorem ArraysAt.exists_item (h : ArraysAt old new base items items') {s : Step}
    (hs : DifferingBelow old new (base ++ [s]) loc) : ∃ position, s = .item position := by
  have hpresent := hs.present
  cases s with
  | item position => exact ⟨position, rfl⟩
  | member key =>
    rw [at?_append_step, at?_append_step, h.old_eq, h.new_eq] at hpresent
    simp [part?] at hpresent

/-- The changes for the items that only one of two arrays has, from a position on. -/
theorem lists_surplus {site : Site} (hsite : site.IsAt base)
    (h : ArraysAt old new base items items') {kind : Kind} {position : Nat} {rest : List Json}
    (hsides : kind = .arrayValueRemoved ∧ items.drop position = rest ∧ items'.length ≤ position
      ∨ kind = .arrayValueAdded ∧ items'.drop position = rest ∧ items.length ≤ position) :
    Lists old new (DifferingBehind old new base fun s => ∃ p, position ≤ p ∧ s = .item p)
      (surplus kind site position rest) := by
  have hold : ∀ p, position ≤ p → at? old (base ++ [.item p])
      = if kind = .arrayValueRemoved then rest[p - position]? else none := by
    intro p hp
    rw [h.old_item]
    rcases hsides with ⟨rfl, rfl, -⟩ | ⟨rfl, -, hlength⟩
    · simp [hp]
    · simp [Nat.le_trans hlength hp]
  have hnew : ∀ p, position ≤ p → at? new (base ++ [.item p])
      = if kind = .arrayValueRemoved then none else rest[p - position]? := by
    intro p hp
    rw [h.new_item]
    rcases hsides with ⟨rfl, -, hlength⟩ | ⟨rfl, rfl, -⟩
    · simp [Nat.le_trans hlength hp]
    · simp [hp]
  have hrest : ∀ x ∈ rest.zipIdx position, position ≤ x.2 ∧ rest[x.2 - position]? = some x.1 :=
    fun x hx => List.mem_zipIdx_iff_le_and_getElem?_sub.mp hx
  have hkind : kind.isOfArray = true := by
    rcases hsides with ⟨rfl, -⟩ | ⟨rfl, -⟩ <;> rfl
  rw [surplus_eq_map]
  refine (lists_oneSided (fun x => .item x.2) h.toReached h.containers ?_ (fun _ _ => rfl) ?_
    ?_).congr_behind ?_
  · have hinj : Function.Injective Step.item := by
      intro p q heq
      simpa using heq
    have hsteps : (rest.zipIdx position).map (fun x => Step.item x.2)
        = (List.range' position rest.length).map Step.item := by
      rw [← List.zipIdx_map_snd position rest, List.map_map]
      rfl
    rw [hsteps]
    exact List.Nodup.map hinj List.nodup_range'
  · intro x hx
    obtain ⟨hle, hfound⟩ := hrest x hx
    rw [hold x.2 hle, hnew x.2 hle, hfound]
    by_cases hremoved : kind = .arrayValueRemoved <;> simp [hremoved]
  · intro x hx
    obtain ⟨hle, hfound⟩ := hrest x hx
    refine ⟨?_, ?_, ?_, base, .item x.2, rfl, ?_⟩
    · rw [Site.fullPath_sole hkind, (hsite.itemAt x.2).path_eq]
    · rw [hold x.2 hle, hfound, Site.sole]
    · rw [hnew x.2 hle, hfound, Site.sole]
    · rcases hsides with ⟨rfl, -⟩ | ⟨rfl, -⟩ <;> simp [Site.sole, Step.kind]
  · intro s loc hs
    constructor
    · rintro ⟨x, hx, rfl⟩
      exact ⟨x.2, (hrest x hx).1, rfl⟩
    · rintro ⟨p, hp, rfl⟩
      have hpresent := hs.present
      rw [hold p hp, hnew p hp] at hpresent
      have hfound : rest[p - position]? ≠ none := by
        by_cases hremoved : kind = .arrayValueRemoved <;> simpa [hremoved] using hpresent
      obtain ⟨v, hv⟩ := Option.ne_none_iff_exists'.mp hfound
      exact ⟨(v, p), List.mem_zipIdx_iff_le_and_getElem?_sub.mpr ⟨hp, hv⟩, rfl⟩

/-! ## All changes -/

/-- The keys of `v` are plain, and those of every object in it are sorted. -/
structure Legible (v : Json) : Prop where
  wellFormed : v.isWellFormed = true
  plain : keysArePlain v = true

theorem ObjectsAt.of_legible (hold : Legible old) (hnew : Legible new) (h : Reached old new base)
    (hbefore : at? old base = some (.obj before)) (hafter : at? new base = some (.obj after)) :
    ObjectsAt old new base before after where
  toReached := h
  old_eq := hbefore
  new_eq := hafter
  plain := plain_of_at? hold.plain hbefore
  old_sorted := Json.sorted_of_isWellFormed (isWellFormed_of_at? hold.wellFormed hbefore)
  new_sorted := Json.sorted_of_isWellFormed (isWellFormed_of_at? hnew.wellFormed hafter)

/-- The changes inside a common field. -/
theorem lists_field (h : ObjectsAt old new base before after) {key : String} {w : Json}
    (hw : after.find? key = some w)
    (hbetween : ∀ {site : Site} {loc : Location} {v : Json}, site.IsAt loc →
      Reached old new loc → at? old loc = some v → at? new loc = some w →
      Lists old new (DifferingBelow old new loc) (between site v w)) :
    Lists old new
      (DifferingBehind old new base fun s => s = .member key ∧ at? old (base ++ [s]) ≠ none)
      (if isIgnored key then []
        else match Keyed.find? before key with
          | some v => between (.field (spell base) key) v w
          | none => []) := by
  by_cases hignored : isIgnored key = true
  · rw [if_pos hignored]
    refine Lists.nil fun loc hloc => ?_
    obtain ⟨s, ⟨rfl, -⟩, hs⟩ := hloc
    have hcompared := hs.isCompared
    simp [Step.isCompared, hignored] at hcompared
  · rw [if_neg hignored]
    cases hv : Keyed.find? before key with
    | none =>
      refine Lists.nil fun loc hloc => ?_
      obtain ⟨s, ⟨rfl, hpresent⟩, -⟩ := hloc
      exact hpresent ((h.old_member key).trans hv)
    | some v =>
      have hold := (h.old_member key).trans hv
      have hlists := hbetween (Site.isAt_field h.plain key)
        (h.append_step h.containers (by simpa [Step.isCompared] using hignored)) hold
        ((h.new_member key).trans hw)
      refine hlists.behind.congr_behind fun s loc _ => ?_
      constructor
      · rintro rfl
        simp [hold]
      · exact And.left

/-- The changes behind one field, before those behind other ones. -/
theorem Lists.append_fields {key : String} {w : Json} {rest : Fields} {cs ds : List Change}
    (h : Lists old new
      (DifferingBehind old new base fun s => s = .member key ∧ at? old (base ++ [s]) ≠ none) cs)
    (hkey : key ∉ Keyed.keys rest)
    (h' : Lists old new (DifferingBehind old new base fun s =>
      ∃ m ∈ rest, s = .member m.1 ∧ at? old (base ++ [s]) ≠ none) ds) :
    Lists old new (DifferingBehind old new base fun s =>
      ∃ m ∈ (key, w) :: rest, s = .member m.1 ∧ at? old (base ++ [s]) ≠ none) (cs ++ ds) := by
  refine (h.append_behind h' ?_).congr_behind ?_
  · rintro s loc - ⟨rfl, -⟩ ⟨m, hm, heq, -⟩
    rw [Step.member.inj heq] at hkey
    exact hkey (List.mem_map_of_mem hm)
  · intro s loc _
    simp only [List.mem_cons, exists_eq_or_imp]

/-- The changes behind one item, before those from the next position on. -/
theorem Lists.append_items {position : Nat} {cs ds : List Change}
    (h : Lists old new (DifferingBelow old new (base ++ [.item position])) cs)
    (h' : Lists old new
      (DifferingBehind old new base fun s => ∃ p, position + 1 ≤ p ∧ s = .item p) ds) :
    Lists old new (DifferingBehind old new base fun s => ∃ p, position ≤ p ∧ s = .item p)
      (cs ++ ds) := by
  refine (h.behind.append_behind h' ?_).congr_behind ?_
  · rintro s loc - rfl ⟨p, hp, heq⟩
    have hsame := Step.item.inj heq
    omega
  · intro s loc _
    constructor
    · rintro (rfl | ⟨p, hp, rfl⟩)
      · exact ⟨position, Nat.le_refl _, rfl⟩
      · exact ⟨p, by omega, rfl⟩
    · rintro ⟨p, hp, rfl⟩
      rcases Nat.eq_or_lt_of_le hp with rfl | hlt
      · exact Or.inl rfl
      · exact Or.inr ⟨p, hlt, rfl⟩

mutual

/-- `between` lists the differing locations below its site. -/
theorem lists_between (hold : Legible old) (hnew : Legible new) : (w : Json) →
    ∀ {site : Site} {base : Location} {v : Json}, site.IsAt base → Reached old new base →
      at? old base = some v → at? new base = some w →
      Lists old new (DifferingBelow old new base) (between site v w)
  | .obj after, site, base, v, hsite, h, hv, hw => by
    cases v with
    | obj before =>
      have hobjects := ObjectsAt.of_legible hold hnew h hv hw
      have hmembers := lists_inMembers hold hnew after hobjects
        (fun m hm => Keyed.find?_of_mem hobjects.new_sorted hm)
        (Keyed.nodup_keys hobjects.new_sorted)
      rw [between, hsite.path_eq]
      exact lists_objects hobjects hmembers
    | _ => exact lists_leaf hsite h hv hw rfl
  | .arr after, site, base, v, hsite, h, hv, hw => by
    cases v with
    | arr before =>
      have harrays : ArraysAt old new base before after := ⟨h, hv, hw⟩
      rw [between]
      refine (lists_inItems hold hnew after hsite harrays rfl rfl).of_behind harrays.containers
        fun s loc hs => ?_
      obtain ⟨position, rfl⟩ := harrays.exists_item hs
      exact ⟨position, Nat.zero_le _, rfl⟩
    | _ => exact lists_leaf hsite h hv hw rfl
  | .null, _, _, _, hsite, h, hv, hw => lists_leaf hsite h hv hw (by simp [areContainers])
  | .bool _, _, _, _, hsite, h, hv, hw => lists_leaf hsite h hv hw (by simp [areContainers])
  | .num _, _, _, _, hsite, h, hv, hw => lists_leaf hsite h hv hw (by simp [areContainers])
  | .str _, _, _, _, hsite, h, hv, hw => lists_leaf hsite h hv hw (by simp [areContainers])

theorem lists_inMembers (hold : Legible old) (hnew : Legible new) : (members : Fields) →
    ∀ {base : Location} {before after : Fields}, ObjectsAt old new base before after →
      (∀ m ∈ members, after.find? m.1 = some m.2) → (Keyed.keys members).Nodup →
      Lists old new (DifferingBehind old new base fun s =>
          ∃ m ∈ members, s = .member m.1 ∧ at? old (base ++ [s]) ≠ none)
        (inMembers (spell base) before members)
  | [], base, before, after, h, hafter, hnodup => by
    rw [inMembers]
    refine Lists.nil fun loc hloc => ?_
    obtain ⟨s, ⟨m, hm, -⟩, -⟩ := hloc
    cases hm
  | (key, w) :: rest, base, before, after, h, hafter, hnodup => by
    have hw : after.find? key = some w := hafter (key, w) (List.mem_cons_self ..)
    obtain ⟨hkey, hnodup⟩ : key ∉ Keyed.keys rest ∧ (Keyed.keys rest).Nodup :=
      List.nodup_cons.mp hnodup
    have hrest := lists_inMembers hold hnew rest h
      (fun m hm => hafter m (List.mem_cons_of_mem _ hm)) hnodup
    rw [inMembers]
    exact (lists_field h hw (lists_between hold hnew w)).append_fields hkey hrest

theorem lists_inItems (hold : Legible old) (hnew : Legible new) : (ws : List Json) →
    ∀ {site : Site} {base : Location} {items items' vs : List Json} {position : Nat},
      site.IsAt base → ArraysAt old new base items items' → items.drop position = vs →
      items'.drop position = ws →
      Lists old new (DifferingBehind old new base fun s => ∃ p, position ≤ p ∧ s = .item p)
        (inItems site position vs ws)
  | [], site, base, items, items', vs, position, hsite, h, hvs, hws => by
    rw [inItems]
    exact lists_surplus hsite h (Or.inl ⟨rfl, hvs, List.drop_eq_nil_iff.mp hws⟩)
  | w :: ws, site, base, items, items', vs, position, hsite, h, hvs, hws => by
    cases vs with
    | nil =>
      rw [inItems]
      exact lists_surplus hsite h (Or.inr ⟨rfl, hws, List.drop_eq_nil_iff.mp hvs⟩)
    | cons v vs =>
      have hposition : items[position]? = some v := by
        rw [← List.head?_drop, hvs, List.head?_cons]
      have hposition' : items'[position]? = some w := by
        rw [← List.head?_drop, hws, List.head?_cons]
      have hlists := lists_between hold hnew w (hsite.itemAt position)
        (h.append_step h.containers rfl) ((h.old_item position).trans hposition)
        ((h.new_item position).trans hposition')
      have hdrop : items.drop (position + 1) = vs := by
        rw [← List.tail_drop, hvs, List.tail_cons]
      have hdrop' : items'.drop (position + 1) = ws := by
        rw [← List.tail_drop, hws, List.tail_cons]
      rw [inItems]
      exact hlists.append_items (lists_inItems hold hnew ws hsite h hdrop hdrop')

end

theorem Differing.plain (hold : Legible old) (hnew : Legible new) (h : Differing old new loc) :
    ∀ s ∈ loc, s.isPlain = true := by
  have hbelow : DifferingBelow old new loc loc := ⟨List.prefix_rfl, h⟩
  rcases hbelow.present with hpresent | hpresent
  · obtain ⟨v, hv⟩ := Option.ne_none_iff_exists'.mp hpresent
    exact plain_of_at? hold.plain hv
  · obtain ⟨v, hv⟩ := Option.ne_none_iff_exists'.mp hpresent
    exact plain_of_at? hnew.plain hv

/-- `Change.list` locates every difference exactly once: the changes of two bodies whose keys are
all plain are, one by one and in some order, the locations that are `Differing`, each described with
what the bodies have there, and their `fullPath`s are pairwise different. A location goes through
none of the five ignored keys. -/
theorem changes_locate_differences (old new : Fields)
    (hold : (Json.obj old).isWellFormed = true) (hnew : (Json.obj new).isWellFormed = true)
    (hplain : keysArePlain (.obj old) = true) (hplain' : keysArePlain (.obj new) = true) :
    (∀ key, (Step.member key).isCompared = false
        ↔ key ∈ ["@last-modified", "@collection", "@change-vector", "@id", "@metadata"])
      ∧ ∃ locs : List Location,
        List.Forall₂ (Describes (.obj old) (.obj new)) (list old new) locs
          ∧ locs.Nodup
          ∧ (∀ loc, loc ∈ locs ↔ Differing (.obj old) (.obj new) loc)
          ∧ ((list old new).map fullPath).Nodup := by
  have hlegible : Legible (.obj old) := ⟨hold, hplain⟩
  have hlegible' : Legible (.obj new) := ⟨hnew, hplain'⟩
  have hobjects := ObjectsAt.of_legible hlegible hlegible' Reached.nil rfl rfl
  have hmembers := lists_inMembers hlegible hlegible' new hobjects
    (fun m hm => Keyed.find?_of_mem hobjects.new_sorted hm) (Keyed.nodup_keys hobjects.new_sorted)
  obtain ⟨locs, hdescribes, hnodup, hmem⟩ := lists_objects hobjects hmembers
  have hdiffering : ∀ loc, loc ∈ locs ↔ Differing (.obj old) (.obj new) loc := by
    intro loc
    simp [hmem, DifferingBelow]
  have hspelled : (list old new).map fullPath = locs.map spell := by
    rw [← List.forall₂_eq_eq_eq, List.forall₂_map_left_iff, List.forall₂_map_right_iff]
    exact hdescribes.imp fun c loc h => h.path_eq
  refine ⟨isCompared_eq_false_iff, locs, hdescribes, hnodup, hdiffering, ?_⟩
  rw [hspelled]
  refine List.Nodup.map_on ?_ hnodup
  intro loc hloc loc' hloc' heq
  exact spell_inj (((hdiffering loc).mp hloc).plain hlegible hlegible')
    (((hdiffering loc').mp hloc').plain hlegible hlegible') heq

/-- Bodies with changes in fields, in items, in an array inside an array and in an object inside an
array, and with a change under an ignored key. -/
theorem changes_locate_differences_nested :
    let old : Fields :=
      [("@id", .str "a"), ("count", .int 1), ("gone", .null),
        ("rows", .arr [.int 1, .arr [.int 2, .int 3], .obj [("k", .int 1)]])]
    let new : Fields :=
      [("@id", .str "b"), ("count", .str "1"), ("more", .obj [("k", .null)]),
        ("rows", .arr [.int 1, .arr [.int 2], .obj [("@id", .null), ("k", .bool true)], .null])]
    ((Json.obj old).isWellFormed = true ∧ (Json.obj new).isWellFormed = true
        ∧ keysArePlain (.obj old) = true ∧ keysArePlain (.obj new) = true)
      ∧ (list old new).map fullPath
          = ["more", "gone", "count", "rows[1][1]", "rows[2].k", "rows[3]"]
      ∧ ∃ locs : List Location,
        List.Forall₂ (Describes (.obj old) (.obj new)) (list old new) locs
          ∧ locs.Nodup
          ∧ (∀ loc, loc ∈ locs ↔ Differing (.obj old) (.obj new) loc)
          ∧ ((list old new).map fullPath).Nodup := by
  intro old new
  have hold : (Json.obj old).isWellFormed = true := by decide +kernel
  have hnew : (Json.obj new).isWellFormed = true := by decide +kernel
  have hplain : keysArePlain (.obj old) = true := by decide +kernel
  have hplain' : keysArePlain (.obj new) = true := by decide +kernel
  exact ⟨⟨hold, hnew, hplain, hplain'⟩, by decide +kernel,
    (changes_locate_differences old new hold hnew hplain hplain').2⟩

end DocumentSession.Change
