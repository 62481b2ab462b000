import Mathlib.Data.Finset.Card
import Mathlib.Data.List.Forall2
import DocumentSession.Proofs.Keyed
import DocumentSession.Session.Connection

set_option autoImplicit false

/-! # Caches that answer alike

Two caches may answer alike to all uses under the URLs in `U` (`AnswersAlike`), for one of two
reasons. Either they have the same URLs with the same last uses, and differ in the bodies under
other URLs (`SharedCache.SameUses`): then both evict the same entries. Or they have the same bodies
under the URLs in `U` and room for all of these (`SharedCache.Agrees`): then neither evicts any of
them, whatever else it has. -/

namespace DocumentSession

/-- Caches related by `R` answer alike under the URLs in `U`, and stay related when these are read
or set. -/
structure AnswersAlike (U : Finset String) (R : SharedCache → SharedCache → Prop) : Prop where
  get : ∀ {c c' : SharedCache} {url : String}, R c c' → url ∈ U →
    (c'.get url).1 = (c.get url).1 ∧ R (c.get url).2 (c'.get url).2
  set : ∀ {c c' : SharedCache} {url : String} (cached : Cached), R c c' → url ∈ U →
    R (c.set url cached) (c'.set url cached)

variable {U T : Finset String} {url : String}

theorem AnswersAlike.mono {R : SharedCache → SharedCache → Prop} (h : AnswersAlike T R)
    (hsub : U ⊆ T) : AnswersAlike U R :=
  ⟨fun hrelated hurl => h.get hrelated (hsub hurl),
    fun cached hrelated hurl => h.set cached hrelated (hsub hurl)⟩

/-! ## Caches with the same last uses -/

namespace Cache

open List (Forall₂)

/-- Two entries have the same URL and the same last use, and the same body if the URL is in `U`. -/
def SameEntry (U : Finset String) (entry entry' : String × Entry) : Prop :=
  entry'.1 = entry.1 ∧ entry'.2.lastUse = entry.2.lastUse
    ∧ (entry.1 ∈ U → entry'.2.cached = entry.2.cached)

/-- Two caches have the same URLs with the same last uses, and under those in `U` the same
bodies. -/
structure SameUses (U : Finset String) (c c' : Cache) : Prop where
  capacity : c'.capacity = c.capacity
  clock : c'.clock = c.clock
  entries : Forall₂ (SameEntry U) c.entries c'.entries

variable {entries entries' : Dict Entry}

theorem find?_sameEntry (h : Forall₂ (SameEntry U) entries entries') (url : String) :
    Option.Rel (fun e e' => SameEntry U (url, e) (url, e')) (entries.find? url)
      (entries'.find? url) := by
  induction h with
  | nil => exact .none
  | @cons entry entry' rest rest' hentry _ ih =>
    obtain ⟨key, e⟩ := entry
    obtain ⟨key', e'⟩ := entry'
    obtain rfl : key' = key := hentry.1
    rw [Keyed.find?_cons, Keyed.find?_cons]
    split
    · next hurl =>
      subst hurl
      exact .some hentry
    · exact ih

theorem insert_sameEntry (h : Forall₂ (SameEntry U) entries entries') {e e' : Entry}
    (he : SameEntry U (url, e) (url, e')) :
    Forall₂ (SameEntry U) (entries.insert url e) (entries'.insert url e') := by
  induction h with
  | nil => exact .cons he .nil
  | @cons entry entry' rest rest' hentry hrest ih =>
    obtain ⟨key, f⟩ := entry
    obtain ⟨key', f'⟩ := entry'
    obtain rfl : key' = key := hentry.1
    unfold Keyed.insert
    split
    · exact .cons he hrest
    · split
      · exact .cons he (.cons hentry hrest)
      · exact .cons hentry ih

theorem erase_sameEntry (h : Forall₂ (SameEntry U) entries entries') (url : String) :
    Forall₂ (SameEntry U) (entries.erase url) (entries'.erase url) := by
  unfold Keyed.erase
  induction h with
  | nil => exact .nil
  | @cons entry entry' rest rest' hentry _ ih =>
    rw [List.filter_cons, List.filter_cons, hentry.1]
    split
    · exact .cons hentry ih
    · exact ih

/-- Both evict the same entry. -/
theorem oldest?_sameEntry (h : Forall₂ (SameEntry U) entries entries') :
    oldest? entries' = oldest? entries := by
  -- the oldest entry so far is that of the same URL and time
  have holder : ∀ best best', Option.Rel (SameEntry ∅) best best' →
      Option.Rel (SameEntry ∅) (entries.foldl oldest?.older best)
        (entries'.foldl oldest?.older best') := by
    induction h with
    | nil => exact fun _ _ hbest => hbest
    | @cons entry entry' rest rest' hentry _ ih =>
      intro best best' hbest
      have hsame : SameEntry ∅ entry entry' := ⟨hentry.1, hentry.2.1, by simp⟩
      refine ih _ _ ?_
      cases hbest with
      | none => exact .some hsame
      | some hbest =>
        unfold oldest?.older
        dsimp only
        rw [hentry.2.1, hbest.2.1]
        split
        · exact .some hsame
        · exact .some hbest
  have holdest := holder none none .none
  unfold oldest?
  revert holdest
  generalize entries.foldl oldest?.older none = best
  generalize entries'.foldl oldest?.older none = best'
  intro holdest
  cases holdest with
  | none => rfl
  | some hsame => exact congrArg some hsame.1

theorem evictOldest_sameEntry (h : Forall₂ (SameEntry U) entries entries') :
    Forall₂ (SameEntry U) (evictOldest entries) (evictOldest entries') := by
  unfold evictOldest
  rw [oldest?_sameEntry h]
  split
  · exact erase_sameEntry h _
  · exact h

namespace SameUses

variable {c c' : Cache}

theorem get (h : c.SameUses U c') (hurl : url ∈ U) :
    (c'.get url).1 = (c.get url).1 ∧ (c.get url).2.SameUses U (c'.get url).2 := by
  unfold Cache.get
  have hfound := find?_sameEntry h.entries url
  revert hfound
  generalize Keyed.find? c.entries url = found
  generalize Keyed.find? c'.entries url = found'
  intro hfound
  cases hfound with
  | none => exact ⟨rfl, h⟩
  | some he =>
    have hcached := he.2.2 hurl
    refine ⟨congrArg some hcached, h.capacity, congrArg (· + 1) h.clock, ?_⟩
    exact insert_sameEntry h.entries ⟨rfl, h.clock, fun _ => hcached⟩

theorem remove (h : c.SameUses U c') (url : String) :
    (c.remove url).SameUses U (c'.remove url) :=
  ⟨h.capacity, h.clock, erase_sameEntry h.entries url⟩

theorem contains (h : c.SameUses U c') (url : String) : c'.contains url = c.contains url := by
  have hfound := find?_sameEntry h.entries url
  unfold Cache.contains Keyed.contains
  revert hfound
  generalize Keyed.find? c.entries url = found
  generalize Keyed.find? c'.entries url = found'
  intro hfound
  cases hfound with
  | none => rfl
  | some _ => rfl

theorem set (h : c.SameUses U c') (url : String) (cached : Cached) :
    (c.set url cached).SameUses U (c'.set url cached) := by
  have hsize : c'.size = c.size := h.entries.length_eq.symm
  unfold Cache.set
  rw [h.capacity, h.contains url, hsize]
  split
  · exact h
  · refine ⟨rfl, congrArg (· + 1) h.clock, insert_sameEntry ?_ ⟨rfl, h.clock, fun _ => rfl⟩⟩
    split
    · exact evictOldest_sameEntry h.entries
    · exact h.entries

end SameUses

end Cache

/-- Two shared caches with the same uses, both or neither of them forgetful. -/
structure SharedCache.SameUses (U : Finset String) (c c' : SharedCache) : Prop where
  forgetful : c'.forgetful = c.forgetful
  cache : c.cache.SameUses U c'.cache

/-- Bodies under other URLs make no difference. -/
theorem answersAlike_sameUses (U : Finset String) : AnswersAlike U (SharedCache.SameUses U) := by
  constructor
  · intro c c' url h hurl
    obtain ⟨hfound, hcache⟩ := h.cache.get hurl
    refine ⟨hfound, h.forgetful, ?_⟩
    unfold SharedCache.get
    dsimp only
    rw [h.forgetful, hfound]
    split
    · exact hcache.remove url
    · exact hcache
  · intro c c' url cached h _
    exact ⟨h.forgetful, h.cache.set url cached⟩

/-! ## Caches with room -/

namespace Cache

variable {c : Cache}

/-- The body under `url`, if there is one. -/
def found (c : Cache) (url : String) : Option Cached :=
  (c.entries.find? url).map Entry.cached

/-- Setting the URLs in `U` evicts nothing; or the capacity is 0. -/
structure HasRoom (U : Finset String) (c : Cache) : Prop where
  sorted : c.entries.Sorted
  room : c.capacity = 0 ∨ (c.entries.keys.toFinset ∪ U).card ≤ c.capacity

theorem get_fst (c : Cache) (url : String) : (c.get url).1 = c.found url := by
  unfold get found
  cases c.entries.find? url <;> rfl

theorem found_get (c : Cache) (url url' : String) : (c.get url).2.found url' = c.found url' := by
  unfold get
  cases hentry : Keyed.find? c.entries url with
  | none => rfl
  | some e =>
    unfold found
    dsimp only
    rw [Keyed.find?_insert]
    split
    · next hurl =>
      subst hurl
      rw [hentry]
      rfl
    · rfl

theorem found_remove (c : Cache) (url url' : String) :
    (c.remove url).found url' = if url = url' then none else c.found url' := by
  unfold remove found
  rw [Keyed.find?_erase]
  split <;> rfl

namespace HasRoom

/-- Setting a URL in `U` evicts nothing. -/
theorem set_eq (h : c.HasRoom U) (hurl : url ∈ U) (hcapacity : c.capacity ≠ 0) (cached : Cached) :
    c.set url cached = { c with
      clock := c.clock + 1
      entries := c.entries.insert url { cached, lastUse := c.clock, hits := 0 } } := by
  have hroom := h.room.resolve_left hcapacity
  have hkept : (!c.contains url && decide (c.size ≥ c.capacity)) = false := by
    cases hcontains : c.contains url with
    | true => rfl
    | false =>
      have hnew : url ∉ c.entries.keys.toFinset := by
        rw [List.mem_toFinset]
        exact Keyed.find?_eq_none_iff.mp (Keyed.contains_eq_false_iff.mp hcontains)
      have hsize : c.entries.keys.toFinset.card = c.size := by
        rw [List.toFinset_card_of_nodup (Keyed.nodup_keys h.sorted)]
        exact List.length_map _
      have hmore : insert url c.entries.keys.toFinset ⊆ c.entries.keys.toFinset ∪ U :=
        Finset.insert_subset (Finset.mem_union_right _ hurl) Finset.subset_union_left
      have hcard := Finset.card_le_card hmore
      rw [Finset.card_insert_of_notMem hnew, hsize] at hcard
      simp only [Bool.not_false, Bool.true_and, decide_eq_false_iff_not]
      omega
  unfold set
  rw [if_neg hcapacity, hkept]
  rfl

theorem found_set (h : c.HasRoom U) (hurl : url ∈ U) (cached : Cached) (url' : String) :
    (c.set url cached).found url'
      = if c.capacity ≠ 0 ∧ url = url' then some cached else c.found url' := by
  by_cases hcapacity : c.capacity = 0
  · unfold set
    rw [if_pos hcapacity, if_neg (fun h => h.1 hcapacity)]
  · rw [h.set_eq hurl hcapacity]
    unfold found
    dsimp only
    rw [Keyed.find?_insert]
    by_cases hurls : url = url'
    · rw [if_pos hurls, if_pos ⟨hcapacity, hurls⟩]
      rfl
    · rw [if_neg hurls, if_neg (fun h => hurls h.2)]

/-- A cache whose URLs are those of `c` or in `U` has room for `U`. -/
theorem of_keys {entries : Dict Entry} (h : c.HasRoom U) (clock : Nat) (hsorted : entries.Sorted)
    (hkeys : ∀ url ∈ entries.keys, url ∈ c.entries.keys ∨ url ∈ U) :
    HasRoom U { c with clock, entries } := by
  refine ⟨hsorted, h.room.imp_right (Nat.le_trans (Finset.card_le_card ?_))⟩
  refine Finset.union_subset ?_ Finset.subset_union_right
  intro url hmem
  rw [Finset.mem_union, List.mem_toFinset]
  exact hkeys url (List.mem_toFinset.mp hmem)

theorem get (h : c.HasRoom U) (url : String) : (c.get url).2.HasRoom U := by
  unfold Cache.get
  cases hentry : Keyed.find? c.entries url with
  | none => exact h
  | some e =>
    refine h.of_keys _ (Keyed.sorted_insert h.sorted url _) ?_
    intro url' hmem
    rcases Keyed.mem_keys_insert.mp hmem with rfl | hbefore
    · exact Or.inl (Keyed.contains_iff_mem_keys.mp (by rw [Keyed.contains, hentry]; rfl))
    · exact Or.inl hbefore

theorem remove (h : c.HasRoom U) (url : String) : (c.remove url).HasRoom U := by
  refine h.of_keys _ (Keyed.sorted_erase h.sorted url) ?_
  intro url' hmem
  exact Or.inl (List.map_subset _ (List.filter_subset_self _) hmem)

theorem set (h : c.HasRoom U) (hurl : url ∈ U) (cached : Cached) :
    (c.set url cached).HasRoom U := by
  by_cases hcapacity : c.capacity = 0
  · unfold Cache.set
    rw [if_pos hcapacity]
    exact h
  · rw [h.set_eq hurl hcapacity]
    refine h.of_keys _ (Keyed.sorted_insert h.sorted url _) ?_
    intro url' hmem
    rcases Keyed.mem_keys_insert.mp hmem with rfl | hbefore
    · exact Or.inr hurl
    · exact Or.inl hbefore

theorem mono (h : c.HasRoom T) (hsub : U ⊆ T) : c.HasRoom U :=
  ⟨h.sorted, h.room.imp_right
    (Nat.le_trans (Finset.card_le_card (Finset.union_subset_union_right hsub)))⟩

end HasRoom

theorem capacity_get (c : Cache) (url : String) : (c.get url).2.capacity = c.capacity := by
  unfold get
  split <;> rfl

theorem capacity_set (c : Cache) (url : String) (cached : Cached) :
    (c.set url cached).capacity = c.capacity := by
  unfold set
  split <;> rfl

end Cache

namespace SharedCache

variable {c c' : SharedCache}

theorem get_fst (c : SharedCache) (url : String) : (c.get url).1 = c.cache.found url :=
  c.cache.get_fst url

/-- A forgetful cache loses the URL that is read, and no other. -/
theorem found_get (c : SharedCache) (url url' : String) :
    (c.get url).2.cache.found url'
      = if c.forgetful = true ∧ url = url' then none else c.cache.found url' := by
  unfold get
  dsimp only
  rw [Cache.get_fst]
  split
  · next hlost =>
    rw [Bool.and_eq_true] at hlost
    rw [Cache.found_remove, Cache.found_get]
    by_cases hurl : url = url'
    · rw [if_pos hurl, if_pos ⟨hlost.1, hurl⟩]
    · rw [if_neg hurl, if_neg (fun h => hurl h.2)]
  · next hkept =>
    rw [Cache.found_get]
    split
    · next hread =>
      obtain ⟨hforgetful, rfl⟩ := hread
      rw [hforgetful, Bool.true_and, Bool.not_eq_true, Option.isSome_eq_false_iff,
        Option.isNone_iff_eq_none] at hkept
      exact hkept
    · rfl

theorem capacity_get (c : SharedCache) (url : String) :
    (c.get url).2.cache.capacity = c.cache.capacity := by
  unfold get
  dsimp only
  split <;> exact c.cache.capacity_get url

theorem hasRoom_get (h : c.cache.HasRoom U) (url : String) : (c.get url).2.cache.HasRoom U := by
  unfold get
  dsimp only
  split
  · exact (h.get url).remove url
  · exact h.get url

/-- Two caches have the same bodies under the URLs in `U`, and room for `U`. -/
structure Agrees (U : Finset String) (c c' : SharedCache) : Prop where
  forgetful : c'.forgetful = c.forgetful
  capacity : c'.cache.capacity = c.cache.capacity
  found : ∀ url ∈ U, c'.cache.found url = c.cache.found url
  room : c.cache.HasRoom U
  room' : c'.cache.HasRoom U

namespace Agrees

theorem refl (h : c.cache.HasRoom U) : c.Agrees U c :=
  ⟨rfl, rfl, fun _ _ => rfl, h, h⟩

/-- The caches still agree when another URL is read in the second one. -/
theorem get_other (h : c.Agrees U c') (hurl : url ∉ U) : c.Agrees U (c'.get url).2 := by
  refine ⟨h.forgetful, (c'.capacity_get url).trans h.capacity, ?_, h.room,
    hasRoom_get h.room' url⟩
  intro url' hurl'
  rw [found_get, if_neg (fun hread => hurl (by rw [hread.2]; exact hurl'))]
  exact h.found url' hurl'

/-- The caches still agree when another URL is set in the second one, if it has room for it. -/
theorem set_other (h : c.Agrees U c') (hurl : url ∉ U) (hroom : c'.cache.HasRoom T)
    (hmem : url ∈ T) (hsub : U ⊆ T) (cached : Cached) : c.Agrees U (c'.set url cached) := by
  refine ⟨h.forgetful, (c'.cache.capacity_set url cached).trans h.capacity, ?_, h.room,
    (hroom.set hmem cached).mono hsub⟩
  intro url' hurl'
  refine Eq.trans ?_ (h.found url' hurl')
  show (c'.cache.set url cached).found url' = c'.cache.found url'
  rw [hroom.found_set hmem, if_neg (fun hwritten => hurl (by rw [hwritten.2]; exact hurl'))]

end Agrees

end SharedCache

/-- Entries under other URLs make no difference, as long as there is room. -/
theorem answersAlike_agrees (U : Finset String) : AnswersAlike U (SharedCache.Agrees U) := by
  constructor
  · intro c c' url h hurl
    refine ⟨?_, h.forgetful, ?_, ?_, SharedCache.hasRoom_get h.room url,
      SharedCache.hasRoom_get h.room' url⟩
    · rw [SharedCache.get_fst, SharedCache.get_fst, h.found url hurl]
    · rw [SharedCache.capacity_get, SharedCache.capacity_get, h.capacity]
    · intro url' hurl'
      rw [SharedCache.found_get, SharedCache.found_get, h.forgetful, h.found url' hurl']
  · intro c c' url cached h hurl
    refine ⟨h.forgetful, ?_, ?_, h.room.set hurl cached, h.room'.set hurl cached⟩
    · exact (c'.cache.capacity_set url cached).trans
        (h.capacity.trans (c.cache.capacity_set url cached).symm)
    · intro url' hurl'
      show (c'.cache.set url cached).found url' = (c.cache.set url cached).found url'
      rw [h.room'.found_set hurl, h.room.found_set hurl, h.capacity, h.found url' hurl']

/-- Reading and setting the URLs in `T` changes nothing under those in `U`, as long as there is
room. -/
theorem answersAlike_apart (hapart : Disjoint U T) (c₀ : SharedCache) :
    AnswersAlike T (fun c c' => c' = c ∧ c₀.Agrees U c ∧ c.cache.HasRoom (U ∪ T)) := by
  constructor
  · rintro c _ url ⟨rfl, hagrees, hroom⟩ hurl
    have hother := Finset.disjoint_right.mp hapart hurl
    exact ⟨rfl, rfl, hagrees.get_other hother, SharedCache.hasRoom_get hroom url⟩
  · rintro c _ url cached ⟨rfl, hagrees, hroom⟩ hurl
    have hother := Finset.disjoint_right.mp hapart hurl
    have hmem : url ∈ U ∪ T := Finset.mem_union_right _ hurl
    exact ⟨rfl, hagrees.set_other hother hroom hmem Finset.subset_union_left cached,
      hroom.set hmem cached⟩

end DocumentSession
