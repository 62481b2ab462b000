import DocumentSession.Proofs.CacheAlike

set_option autoImplicit false

/-! # Caches and recency lists

A cache stores with each entry the time of its last use, and evicts the entry with the earliest one.
The same is done with a list: an entry that is used moves to the front, and what exceeds the
capacity is dropped at the end (`Cache.Recency.use`). The cache does the same as this list, whatever
time passes between the uses (`Cache.follows_after`). -/

namespace DocumentSession

/-! ## Entries in any order -/

namespace Keyed

variable {κ α : Type} [DecidableEq κ] {t t' : Keyed κ α} {key : κ} {value : α}

theorem perm_cons_erase (ht : t.keys.Nodup) (h : t.find? key = some value) :
    t.Perm ((key, value) :: t.erase key) := by
  induction t with
  | nil => cases h
  | cons entry rest ih =>
    obtain ⟨k, v⟩ := entry
    obtain ⟨hk, hrest⟩ := List.nodup_cons.mp ht
    rw [find?_cons] at h
    rw [erase, List.filter_cons]
    split at h
    · next heq =>
      subst heq
      obtain rfl := Option.some.inj h
      have hkept : erase rest k = rest := erase_eq_self (find?_eq_none_iff.mpr hk)
      rw [if_neg (by simp)]
      exact (List.Perm.of_eq hkept.symm).cons _
    · next hne =>
      rw [if_pos (by simpa using hne)]
      exact ((ih hrest h).cons _).trans (.swap ..)

theorem erase_append_singleton {entry : κ × α} (ht : (t ++ [entry]).keys.Nodup) :
    (t ++ [entry]).erase entry.1 = t := by
  have hother : entry.1 ∉ t.keys := by
    rw [keys, List.map_append] at ht
    exact fun hmem => List.disjoint_of_nodup_append ht hmem (by simp)
  have hkept : t.erase entry.1 = t := erase_eq_self (find?_eq_none_iff.mpr hother)
  unfold erase at hkept ⊢
  rw [List.filter_append, hkept]
  simp

theorem mapValues_erase {β : Type} (f : α → β) (d : Dict α) (key : String) :
    Dict.mapValues f (d.erase key) = Keyed.erase (d.mapValues f) key := by
  unfold Keyed.erase Dict.mapValues
  rw [List.filter_map]
  rfl

theorem length_erase_lt (h : t.contains key = true) : (t.erase key).length < t.length := by
  obtain ⟨value, hvalue⟩ := (contains_iff t key).mp h
  exact List.length_filter_lt_length_iff_exists.mpr
    ⟨_, mem_of_find? hvalue, by simp⟩

variable [LT κ] [Std.Irrefl (α := κ) (· < ·)]

/-- The order of the entries does not matter for `find?`. -/
theorem find?_perm (ht : t.Sorted) (h : t.Perm t') (key : κ) : t'.find? key = t.find? key := by
  cases hfound : t'.find? key with
  | none =>
    rw [find?_eq_none_iff] at hfound
    exact (find?_eq_none_iff.mpr (fun hmem => hfound ((h.map _).subset hmem))).symm
  | some value => exact (find?_of_mem ht (h.symm.subset (mem_of_find? hfound))).symm

theorem insert_perm [DecidableLT κ] [IsTrans κ (· < ·)] [Std.Trichotomous (α := κ) (· < ·)]
    (ht : t.Sorted) (key : κ) (value : α) :
    (t.insert key value).Perm ((key, value) :: t.erase key) := by
  have hfound : (t.insert key value).find? key = some value :=
    (find?_insert ..).trans (if_pos rfl)
  have hperm := perm_cons_erase (nodup_keys (sorted_insert ht key value)) hfound
  rw [erase_insert_self] at hperm
  exact hperm

end Keyed

namespace Cache

variable {c : Cache} {t : Dict Entry} {url : String} {n : Nat}

/-! ## The oldest entry -/

theorem exists_foldl_older (entries : Dict Entry) (best : String × Entry) :
    ∃ oldest ∈ best :: entries, entries.foldl oldest?.older (some best) = some oldest
      ∧ ∀ entry ∈ best :: entries, oldest.2.lastUse ≤ entry.2.lastUse := by
  induction entries generalizing best with
  | nil => exact ⟨best, by simp, rfl, by simp⟩
  | cons entry rest ih =>
    rw [List.foldl_cons, oldest?.older]
    split
    · next hlt =>
      obtain ⟨oldest, hmem, heq, hle⟩ := ih entry
      refine ⟨oldest, List.mem_cons_of_mem _ hmem, heq, ?_⟩
      intro other hother
      rcases List.mem_cons.mp hother with rfl | hother
      · exact Nat.le_trans (hle entry (List.mem_cons_self ..)) (Nat.le_of_lt hlt)
      · exact hle other hother
    · next hnot =>
      obtain ⟨oldest, hmem, heq, hle⟩ := ih best
      refine ⟨oldest, ?_, heq, ?_⟩
      · exact List.cons_subset_cons _ (List.subset_cons_self ..) hmem
      · intro other hother
        rcases List.mem_cons.mp hother with rfl | hother
        · exact hle other (List.mem_cons_self ..)
        · rcases List.mem_cons.mp hother with rfl | hother
          · exact Nat.le_trans (hle best (List.mem_cons_self ..)) (Nat.not_lt.mp hnot)
          · exact hle other (List.mem_cons_of_mem _ hother)

/-! ## Entries by their last use -/

/-- `t` has the entries of `c`, the last used first, and all were used before `c.clock`. -/
structure Lists (t : Dict Entry) (c : Cache) : Prop where
  sorted : c.entries.Sorted
  perm : c.entries.Perm t
  order : t.Pairwise (fun entry entry' => entry'.2.lastUse < entry.2.lastUse)
  past : ∀ entry ∈ t, entry.2.lastUse < c.clock

namespace Lists

theorem nil (h : c.entries = []) : Lists [] c :=
  ⟨h ▸ Keyed.sorted_nil, .of_eq h, .nil, List.forall_mem_nil _⟩

theorem find? (h : Lists t c) (url : String) : c.entries.find? url = t.find? url :=
  (Keyed.find?_perm h.sorted h.perm url).symm

/-- The clock may advance. -/
theorem later (h : Lists t c) (ticks : Nat) : Lists t { c with clock := c.clock + ticks } :=
  ⟨h.sorted, h.perm, h.order,
    fun entry hmem => Nat.lt_of_lt_of_le (h.past entry hmem) (Nat.le_add_right ..)⟩

theorem erase (h : Lists t c) (url : String) : Lists (t.erase url) (c.remove url) :=
  ⟨Keyed.sorted_erase h.sorted url, h.perm.filter _, h.order.filter _,
    fun entry hmem => h.past entry (List.mem_of_mem_filter hmem)⟩

/-- An entry that is used now comes first. -/
theorem front (h : Lists t c) (url : String) {e : Entry} (he : e.lastUse = c.clock) :
    Lists ((url, e) :: t.erase url)
      { c with clock := c.clock + 1, entries := c.entries.insert url e } := by
  obtain ⟨-, herase, horder, hpast⟩ := h.erase url
  refine ⟨Keyed.sorted_insert h.sorted url e, ?_, ?_, ?_⟩
  · exact (Keyed.insert_perm h.sorted url e).trans (herase.cons _)
  · exact List.pairwise_cons.mpr ⟨fun entry hmem => he ▸ hpast entry hmem, horder⟩
  · intro entry hmem
    rcases List.mem_cons.mp hmem with rfl | hmem
    · exact he ▸ Nat.lt_succ_self _
    · exact Nat.lt_succ_of_lt (hpast entry hmem)

/-- The oldest entry is the last of the list. -/
theorem oldest?_eq {init : Dict Entry} {last : String × Entry} (h : Lists (init ++ [last]) c) :
    oldest? c.entries = some last.1 := by
  have hlast : last ∈ c.entries := h.perm.symm.subset (by simp)
  cases hentries : c.entries with
  | nil =>
    rw [hentries] at hlast
    cases hlast
  | cons first rest =>
    obtain ⟨oldest, hmem, heq, hle⟩ := exists_foldl_older rest first
    rw [← hentries] at hmem hle
    have hold : oldest = last := by
      rcases List.mem_append.mp (h.perm.subset hmem) with hinit | hend
      · have hlater := (List.pairwise_append.mp h.order).2.2 oldest hinit last
          (List.mem_singleton_self _)
        exact absurd hlater (Nat.not_lt.mpr (hle last hlast))
      · exact List.mem_singleton.mp hend
    show (rest.foldl oldest?.older (some first)).map (·.1) = _
    rw [heq, hold]
    rfl

/-- `evictOldest` removes the last entry of the list. -/
theorem evict (h : Lists t c) : Lists t.dropLast { c with entries := evictOldest c.entries } := by
  obtain rfl | ⟨init, last, rfl⟩ := List.eq_nil_or_concat t
  · have hempty := List.perm_nil.mp h.perm
    exact .nil (by rw [hempty]; rfl)
  · rw [List.concat_eq_append] at h ⊢
    have hnodup : (Keyed.keys (init ++ [last])).Nodup :=
      (h.perm.map _).nodup_iff.mp (Keyed.nodup_keys h.sorted)
    have hrest : Keyed.erase (init ++ [last]) last.1 = (init ++ [last]).dropLast := by
      rw [Keyed.erase_append_singleton hnodup, List.dropLast_concat]
    rw [← hrest]
    unfold evictOldest
    rw [h.oldest?_eq]
    exact h.erase last.1

theorem size (h : Lists t c) : c.size = t.length :=
  h.perm.length_eq

theorem contains (h : Lists t c) (url : String) : c.contains url = t.contains url := by
  unfold Cache.contains Keyed.contains
  rw [h.find?]

/-- `set` puts its entry first, and keeps as many as fit. -/
theorem set (h : Lists t c) (hroom : t.length ≤ c.capacity) (url : String) (cached : Cached) :
    Lists (((url, { cached, lastUse := c.clock, hits := 0 }) :: t.erase url).take c.capacity)
      (c.set url cached) := by
  generalize he : ({ cached, lastUse := c.clock, hits := 0 } : Entry) = e
  have hnow : e.lastUse = c.clock := he ▸ rfl
  unfold Cache.set
  rw [he]
  split
  · next hzero =>
    rw [hzero] at hroom ⊢
    obtain rfl := List.length_eq_zero_iff.mp (Nat.le_zero.mp hroom)
    exact h
  · next hcapacity =>
    dsimp only
    rw [h.contains, h.size]
    split
    · next hfull =>
      rw [Bool.and_eq_true, Bool.not_eq_true', decide_eq_true_eq] at hfull
      have hnew := Keyed.contains_eq_false_iff.mp hfull.1
      obtain ⟨room, hroom'⟩ := Nat.exists_eq_succ_of_ne_zero hcapacity
      have hshort : Keyed.find? t.dropLast url = none :=
        Keyed.find?_eq_none_iff.mpr (fun hmem => Keyed.find?_eq_none_iff.mp hnew
          (List.map_subset _ (List.dropLast_subset t) hmem))
      have hlist : ((url, e) :: t.erase url).take c.capacity
          = (url, e) :: Keyed.erase t.dropLast url := by
        rw [Keyed.erase_eq_self hnew, Keyed.erase_eq_self hshort, hroom', List.take_succ_cons,
          List.dropLast_eq_take]
        have hlength : t.length - 1 = room := by omega
        rw [hlength]
      rw [hlist]
      exact h.evict.front url hnow
    · next hfits =>
      have hlength : ((url, e) :: t.erase url).length ≤ c.capacity := by
        have hle : (t.erase url).length ≤ t.length := List.length_filter_le ..
        rw [List.length_cons]
        cases hcontains : t.contains url with
        | true => exact Nat.lt_of_lt_of_le (Keyed.length_erase_lt hcontains) hroom
        | false =>
          simp only [hcontains, Bool.not_false, Bool.true_and, decide_eq_true_eq] at hfits
          omega
      rw [List.take_of_length_le hlength]
      exact h.front url hnow

end Lists

/-! ## Uses -/

/-- The uses of a cache. -/
inductive Use where
  | get (url : String)
  | set (url : String) (cached : Cached)
  | remove (url : String)
  | contains (url : String)
  | hits (url : String)
  | clear
  /-- The clock advances. -/
  | wait (ticks : Nat)
  deriving DecidableEq

/-- The cache after a use. -/
def use (c : Cache) : Use → Cache
  | .get url => (c.get url).2
  | .set url cached => c.set url cached
  | .remove url => c.remove url
  | .contains _ => c
  | .hits _ => c
  | .clear => c.clear
  | .wait ticks => { c with clock := c.clock + ticks }

/-- A new cache with capacity `n` after some uses, the latest of which comes first. -/
def after (n : Nat) : List Use → Cache
  | [] => { capacity := n }
  | u :: past => (after n past).use u

/-- A cached body, and how often it was read since it was set. -/
structure Kept where
  cached : Cached
  hits : Nat
  deriving DecidableEq

/-- The body and the number of hits of an entry. -/
def Entry.kept (e : Entry) : Kept :=
  ⟨e.cached, e.hits⟩

/-- A list of cached bodies by URL, the last used first. -/
abbrev Recency := Keyed String Kept

/-- The list after a use, with capacity `n`. -/
def Recency.use (n : Nat) (s : Recency) : Use → Recency
  | .get url =>
    match s.find? url with
    | none => s
    | some kept => (url, { kept with hits := kept.hits + 1 }) :: s.erase url
  | .set url cached => ((url, ⟨cached, 0⟩) :: s.erase url).take n
  | .remove url => s.erase url
  | .clear => []
  | .contains _ => s
  | .hits _ => s
  | .wait _ => s

theorem Recency.use_get_eq_self {s : Recency} (h : s.find? url = none) :
    s.use n (.get url) = s := by
  simp only [Recency.use, h]

theorem Recency.use_get {s : Recency} {kept : Kept} (h : s.find? url = some kept) :
    s.use n (.get url) = (url, { kept with hits := kept.hits + 1 }) :: s.erase url := by
  simp only [Recency.use, h]

/-- The list of a new cache with capacity `n` after some uses, the latest of which comes first. -/
def recent (n : Nat) : List Use → Recency
  | [] => []
  | u :: past => (recent n past).use n u

theorem capacity_after (n : Nat) (past : List Use) : (after n past).capacity = n := by
  induction past with
  | nil => rfl
  | cons u past ih =>
    refine Eq.trans ?_ ih
    cases u with
    | get url => exact capacity_get _ url
    | set url cached => exact capacity_set _ url cached
    | remove | contains | hits | clear | wait => rfl

theorem length_recent_le (n : Nat) (past : List Use) : (recent n past).length ≤ n := by
  induction past with
  | nil => exact Nat.zero_le n
  | cons u past ih =>
    rw [recent]
    generalize recent n past = s at ih ⊢
    cases u with
    | get url =>
      cases hkept : s.find? url with
      | none => exact (Recency.use_get_eq_self hkept).symm ▸ ih
      | some kept =>
        have hcontains : s.contains url = true := (Keyed.contains_iff ..).mpr ⟨kept, hkept⟩
        rw [Recency.use_get hkept]
        exact Nat.le_trans (Keyed.length_erase_lt hcontains) ih
    | set url cached => exact List.length_take_le ..
    | remove url => exact Nat.le_trans (List.length_filter_le ..) ih
    | clear => exact Nat.zero_le n
    | contains | hits | wait => exact ih

/-- The cache has the bodies and hits of the list, and its entries were used in this order. -/
def Follows (c : Cache) (s : Recency) : Prop :=
  ∃ t, Lists t c ∧ Dict.mapValues Entry.kept t = s

namespace Follows

variable {s : Recency}

theorem kept (h : c.Follows s) (url : String) :
    (c.entries.find? url).map Entry.kept = s.find? url := by
  obtain ⟨t, ht, rfl⟩ := h
  rw [ht.find?, Keyed.find?_mapValues]

theorem found (h : c.Follows s) (url : String) : c.found url = (s.find? url).map Kept.cached := by
  rw [← h.kept, Option.map_map]
  rfl

theorem contains (h : c.Follows s) (url : String) : c.contains url = s.contains url := by
  unfold Cache.contains Keyed.contains
  rw [← h.kept, Option.isSome_map]

theorem hits (h : c.Follows s) (url : String) :
    c.hits url = (s.find? url).elim 0 Kept.hits := by
  rw [← h.kept]
  unfold Cache.hits
  cases c.entries.find? url <;> rfl

theorem size (h : c.Follows s) : c.size = s.length := by
  obtain ⟨t, ht, rfl⟩ := h
  rw [ht.size]
  exact (List.length_map _).symm

theorem use (h : c.Follows s) (hroom : s.length ≤ c.capacity) (u : Use) :
    (c.use u).Follows (s.use c.capacity u) := by
  cases u with
  | get url =>
    have hkept := h.kept url
    obtain ⟨t, ht, rfl⟩ := h
    cases hentry : Keyed.find? c.entries url with
    | none =>
      rw [hentry] at hkept
      simp only [Recency.use_get_eq_self hkept.symm, Cache.use, Cache.get, hentry]
      exact ⟨t, ht, rfl⟩
    | some e =>
      rw [hentry] at hkept
      simp only [Recency.use_get hkept.symm, Cache.use, Cache.get, hentry]
      refine ⟨_, ht.front url (e := { e with lastUse := c.clock, hits := e.hits + 1 }) rfl, ?_⟩
      exact congrArg (_ :: ·) (Keyed.mapValues_erase ..)
  | set url cached =>
    obtain ⟨t, ht, rfl⟩ := h
    refine ⟨_, ht.set (by simpa [Dict.mapValues] using hroom) url cached, ?_⟩
    simp only [Recency.use, ← Keyed.mapValues_erase]
    exact List.map_take
  | remove url =>
    obtain ⟨t, ht, rfl⟩ := h
    exact ⟨_, ht.erase url, Keyed.mapValues_erase ..⟩
  | clear => exact ⟨[], .nil rfl, rfl⟩
  | wait ticks =>
    obtain ⟨t, ht, rfl⟩ := h
    exact ⟨t, ht.later ticks, rfl⟩
  | contains | hits => exact h

end Follows

theorem follows_after (n : Nat) (past : List Use) : (after n past).Follows (recent n past) := by
  induction past with
  | nil => exact ⟨[], .nil rfl, rfl⟩
  | cons u past ih =>
    have hcapacity := capacity_after n past
    have hstep := ih.use (by rw [hcapacity]; exact length_recent_le n past) u
    rw [hcapacity] at hstep
    exact hstep

end Cache

end DocumentSession
