import DocumentSession.Proofs.CacheUses

set_option autoImplicit false

/-! # What a cache keeps

A cache has the body that was last set under a URL, unless it was lost since (`Cache.IsCurrent`). A
URL is lost by `remove` and `clear`, or when a new URL is set while the cache is full: then the URL
is evicted that was neither read nor set for the longest time (`Cache.IsEvicted`), which depends on
the uses alone (`Cache.age`). The recency list of the cache is in this order
(`Cache.sortedByAge_recent`), so what it drops at its end is what is evicted
(`Cache.isEvicted_iff`). -/

namespace DocumentSession

namespace Keyed

variable {κ α : Type} [DecidableEq κ]

theorem find?_append (t t' : Keyed κ α) (key : κ) :
    find? (t ++ t') key = (t.find? key).or (t'.find? key) := by
  induction t with
  | nil => rfl
  | cons entry rest ih =>
    obtain ⟨k, v⟩ := entry
    rw [List.cons_append, find?_cons, find?_cons, ih]
    split <;> rfl

/-- A key is not found in `t.take n` if its entry is dropped. -/
theorem find?_take {t : Keyed κ α} (ht : t.keys.Nodup) (n : Nat) (key : κ) :
    find? (t.take n) key = if key ∈ keys (t.drop n) then none else t.find? key := by
  have hparts := find?_append (t.take n) (t.drop n) key
  rw [List.take_append_drop] at hparts
  split
  · next hdropped =>
    rw [← List.take_append_drop n t, keys, List.map_append] at ht
    exact find?_eq_none_iff.mpr (fun htaken => List.disjoint_of_nodup_append ht htaken hdropped)
  · next hkept => rw [hparts, find?_eq_none_iff.mpr hkept, Option.or_none]

end Keyed

namespace Cache

variable {n : Nat} {past : List Use} {u : Use} {url new : String} {cached : Cached} {s s' : Recency}

/-! ## Past uses -/

/-- Whether the use reads or sets `url`. -/
def Use.touches : Use → String → Bool
  | .get url', url => url' = url
  | .set url' _, url => url' = url
  | _, _ => false

/-- How many uses ago `url` was last read or set. -/
def age (past : List Use) (url : String) : Nat :=
  past.findIdx (·.touches url)

/-- The URL that is evicted when a new one is set in a full cache: of all that are cached, and the
new one, the one with the greatest `age`. (This is the new one itself if the capacity is 0.) -/
inductive IsEvicted (n : Nat) (past : List Use) : Use → String → Prop where
  | set {new : String} {cached : Cached} {url : String}
    (isNew : (after n past).contains new = false) (full : (after n past).size = n)
    (among : url = new ∨ (after n past).contains url = true)
    (oldest : ∀ other, other = new ∨ (after n past).contains other = true →
      age (.set new cached :: past) other ≤ age (.set new cached :: past) url) :
    IsEvicted n past (.set new cached) url

/-- `url` is removed, or the cache is cleared, or `url` is evicted. -/
def Loses (n : Nat) (past : List Use) (u : Use) (url : String) : Prop :=
  u = .remove url ∨ u = .clear ∨ IsEvicted n past u url

/-- `cached` was set under `url`, nothing else since, and it is not lost. -/
inductive IsCurrent (n : Nat) (url : String) (cached : Cached) : List Use → Prop where
  | set {past : List Use} (hkept : ¬ Loses n past (.set url cached) url) :
    IsCurrent n url cached (.set url cached :: past)
  | later {past : List Use} {u : Use} (h : IsCurrent n url cached past)
    (hunset : ∀ cached', u ≠ .set url cached') (hkept : ¬ Loses n past u url) :
    IsCurrent n url cached (u :: past)

/-- How often `url` was found since it was last set. -/
def reads (n : Nat) (url : String) : List Use → Nat
  | [] => 0
  | .set url' _ :: past => if url' = url then 0 else reads n url past
  | .get url' :: past =>
    if url' = url ∧ ((after n past).get url).1.isSome then reads n url past + 1
    else reads n url past
  | _ :: past => reads n url past

/-! ## The order of the list -/

theorem age_cons (u : Use) (past : List Use) (url : String) :
    age (u :: past) url = if u.touches url = true then 0 else age past url + 1 := by
  unfold age
  rw [List.findIdx_cons]
  cases u.touches url <;> rfl

/-- The list is sorted by `age`. -/
def SortedByAge (past : List Use) (s : Recency) : Prop :=
  s.keys.Pairwise (fun url url' => age past url < age past url')

namespace SortedByAge

theorem nodup (h : SortedByAge past s) : s.keys.Nodup :=
  h.imp (fun hlt heq => absurd (heq ▸ hlt) (Nat.lt_irrefl _))

/-- URLs that are not used get older. -/
theorem sublist (h : SortedByAge past s) (hsub : s'.Sublist s)
    (hidle : ∀ url ∈ s'.keys, u.touches url = false) : SortedByAge (u :: past) s' := by
  have hpairs := List.Pairwise.sublist (hsub.map Prod.fst) h
  refine hpairs.imp_of_mem ?_
  intro url url' hurl hurl' hlt
  rw [age_cons, age_cons, hidle url hurl, hidle url' hurl']
  exact Nat.succ_lt_succ hlt

/-- A URL that is used now comes first. -/
theorem front (h : SortedByAge past s) (hu : ∀ url', u.touches url' = decide (url = url'))
    (kept : Kept) : SortedByAge (u :: past) ((url, kept) :: s.erase url) := by
  have hothers : ∀ url' ∈ Keyed.keys (s.erase url), url ≠ url' := by
    intro url' hmem heq
    obtain ⟨entry, hentry, rfl⟩ := List.mem_map.mp hmem
    exact absurd heq.symm (by simpa using List.of_mem_filter hentry)
  refine List.pairwise_cons.mpr ⟨?_, h.sublist List.filter_sublist ?_⟩
  · intro url' hmem
    rw [age_cons, age_cons, hu, hu, if_pos (by simp), if_neg (by simpa using hothers url' hmem)]
    exact Nat.succ_pos _
  · intro url' hmem
    rw [hu]
    exact decide_eq_false (hothers url' hmem)

end SortedByAge

theorem sortedByAge_recent (n : Nat) (past : List Use) : SortedByAge past (recent n past) := by
  induction past with
  | nil => exact .nil
  | cons u past ih =>
    rw [recent]
    generalize recent n past = s at ih ⊢
    cases u with
    | get url =>
      cases hkept : Keyed.find? s url with
      | none =>
        rw [Recency.use_get_eq_self hkept]
        refine ih.sublist (List.Sublist.refl s) ?_
        intro url' hmem
        refine decide_eq_false ?_
        rintro rfl
        exact Keyed.find?_eq_none_iff.mp hkept hmem
      | some kept =>
        rw [Recency.use_get hkept]
        exact ih.front (fun _ => rfl) _
    | set url cached =>
      have hfront : SortedByAge (.set url cached :: past) ((url, ⟨cached, 0⟩) :: s.erase url) :=
        ih.front (fun _ => rfl) _
      exact List.Pairwise.sublist ((List.take_sublist n _).map _) hfront
    | remove url => exact ih.sublist List.filter_sublist (fun _ _ => rfl)
    | clear => exact .nil
    | contains | hits | wait => exact ih.sublist (List.Sublist.refl s) (fun _ _ => rfl)

/-! ## Lost entries -/

/-- The list when `new` is set, before its end is dropped. -/
def written (n : Nat) (past : List Use) (new : String) (cached : Cached) : Recency :=
  (new, ⟨cached, 0⟩) :: (recent n past).erase new

theorem sortedByAge_written (n : Nat) (past : List Use) (new : String) (cached : Cached) :
    SortedByAge (.set new cached :: past) (written n past new cached) :=
  (sortedByAge_recent n past).front (fun _ => rfl) _

theorem mem_keys_written :
    url ∈ (written n past new cached).keys ↔ url = new ∨ (after n past).contains url = true := by
  rw [(follows_after n past).contains, ← Keyed.contains_iff_mem_keys, Keyed.contains, written,
    Keyed.find?_cons, Keyed.find?_erase, Keyed.contains]
  by_cases hurl : new = url
  · simp [hurl]
  · simp [hurl, Ne.symm hurl]

/-- If a new URL is set in a full cache, the list has one entry too many. -/
theorem length_written (hnew : (after n past).contains new = false)
    (hfull : (after n past).size = n) (cached : Cached) :
    (written n past new cached).length = n + 1 := by
  rw [(follows_after n past).contains] at hnew
  rw [(follows_after n past).size] at hfull
  rw [written, Keyed.erase_eq_self (Keyed.contains_eq_false_iff.mp hnew), List.length_cons, hfull]

/-- So exactly one entry is dropped. -/
theorem exists_drop_written_eq (hnew : (after n past).contains new = false)
    (hfull : (after n past).size = n) (cached : Cached) :
    ∃ entry, (written n past new cached).drop n = [entry] :=
  List.length_eq_one_iff.mp (by simp [length_written hnew hfull cached])

/-- Otherwise the list fits. -/
theorem full_of_lt_length_written (h : n < (written n past new cached).length) :
    (after n past).contains new = false ∧ (after n past).size = n := by
  have hle := length_recent_le n past
  rw [written, List.length_cons] at h
  rw [(follows_after n past).contains, (follows_after n past).size]
  cases hcontains : (recent n past).contains new with
  | true =>
    have hlt := Keyed.length_erase_lt hcontains
    omega
  | false =>
    rw [Keyed.erase_eq_self (Keyed.contains_eq_false_iff.mp hcontains)] at h
    exact ⟨rfl, by omega⟩

theorem mem_keys_take_or_drop (h : url = new ∨ (after n past).contains url = true)
    (cached : Cached) :
    url ∈ Keyed.keys ((written n past new cached).take n)
      ∨ url ∈ Keyed.keys ((written n past new cached).drop n) := by
  have hmem : url ∈ (written n past new cached).keys := mem_keys_written.mpr h
  rwa [← List.take_append_drop n (written n past new cached), Keyed.keys, List.map_append,
    List.mem_append] at hmem

/-- A URL that is dropped is older than those that stay. -/
theorem age_lt_of_mem_drop {url' : String}
    (hstays : url ∈ Keyed.keys ((written n past new cached).take n))
    (hdropped : url' ∈ Keyed.keys ((written n past new cached).drop n)) :
    age (.set new cached :: past) url < age (.set new cached :: past) url' := by
  have hsorted := sortedByAge_written n past new cached
  rw [SortedByAge, Keyed.keys, ← List.take_append_drop n (written n past new cached),
    List.map_append,
    List.pairwise_append] at hsorted
  exact hsorted.2.2 url hstays url' hdropped

/-- A URL is evicted if and only if it is dropped from the list. -/
theorem isEvicted_iff :
    IsEvicted n past (.set new cached) url
      ↔ url ∈ Keyed.keys ((written n past new cached).drop n) := by
  have hmem : ∀ {other}, other ∈ Keyed.keys ((written n past new cached).drop n) →
      other = new ∨ (after n past).contains other = true :=
    fun hother => mem_keys_written.mp (List.map_subset _ (List.drop_subset n _) hother)
  constructor
  · rintro ⟨hnew, hfull, hamong, holdest⟩
    refine (mem_keys_take_or_drop hamong cached).resolve_left (fun hstays => ?_)
    obtain ⟨last, hone⟩ := exists_drop_written_eq hnew hfull cached
    have hlast : last.1 ∈ Keyed.keys ((written n past new cached).drop n) := by
      rw [hone]
      exact List.mem_singleton_self _
    exact absurd (age_lt_of_mem_drop hstays hlast) (Nat.not_lt.mpr (holdest last.1 (hmem hlast)))
  · intro hdropped
    have hpos : 0 < ((written n past new cached).drop n).length := by
      obtain ⟨entry, hentry, -⟩ := List.mem_map.mp hdropped
      exact List.length_pos_of_mem hentry
    rw [List.length_drop] at hpos
    obtain ⟨hnew, hfull⟩ := full_of_lt_length_written (Nat.lt_of_sub_pos hpos)
    refine .set hnew hfull (hmem hdropped) ?_
    intro other hother
    rcases mem_keys_take_or_drop hother cached with hstays | hlost
    · exact Nat.le_of_lt (age_lt_of_mem_drop hstays hdropped)
    · obtain ⟨entry, hone⟩ := exists_drop_written_eq hnew hfull cached
      rw [hone] at hdropped hlost
      rw [List.mem_singleton.mp hdropped, List.mem_singleton.mp hlost]

/-- Setting a new URL in a full cache evicts exactly one URL. -/
theorem existsUnique_isEvicted (hnew : (after n past).contains new = false)
    (hfull : (after n past).size = n) (cached : Cached) :
    ∃! url, IsEvicted n past (.set new cached) url := by
  obtain ⟨entry, hone⟩ := exists_drop_written_eq hnew hfull cached
  simp only [isEvicted_iff, hone]
  exact ⟨entry.1, List.mem_singleton_self _, fun url hmem => List.mem_singleton.mp hmem⟩

/-- If the capacity is not 0, the evicted URL was cached before. -/
theorem contains_of_isEvicted (hn : 0 < n) (h : IsEvicted n past u url) :
    (after n past).contains url = true := by
  obtain ⟨hnew, hfull, hurl | hurl, holdest⟩ := h
  · next new cached =>
    subst hurl
    rw [← hfull, (follows_after n past).size] at hn
    obtain ⟨entry, hentry⟩ := List.exists_mem_of_length_pos hn
    have hother : (after n past).contains entry.1 = true := by
      rw [(follows_after n past).contains, Keyed.contains_iff_mem_keys]
      exact List.mem_map_of_mem hentry
    have hne : url ≠ entry.1 := by
      intro heq
      rw [heq, hother] at hnew
      cases hnew
    have hle := holdest entry.1 (.inr hother)
    rw [age_cons, age_cons, if_neg (by simpa [Use.touches] using hne),
      if_pos (by simp [Use.touches])] at hle
    omega
  · exact hurl

/-- The effect of a use on the entry of a URL that is not lost. -/
def Use.renew (url : String) : Use → Option Kept → Option Kept
  | .get url', kept =>
    if url' = url then kept.map (fun k => { k with hits := k.hits + 1 }) else kept
  | .set url' cached, kept => if url' = url then some ⟨cached, 0⟩ else kept
  | _, kept => kept

theorem find?_recent_of_loses (h : Loses n past u url) :
    Keyed.find? (recent n (u :: past)) url = none := by
  obtain rfl | rfl | hgives := h
  · exact (Keyed.find?_erase ..).trans (if_pos rfl)
  · rfl
  · cases hgives with
    | @set new cached url isNew full among oldest =>
      have hdropped := isEvicted_iff.mp (IsEvicted.set isNew full among oldest)
      have hnodup := (sortedByAge_written n past new cached).nodup
      exact (Keyed.find?_take hnodup n url).trans (if_pos hdropped)

theorem find?_recent_of_not_loses (h : ¬ Loses n past u url) :
    Keyed.find? (recent n (u :: past)) url
      = u.renew url (Keyed.find? (recent n past) url) := by
  unfold Loses at h
  rw [not_or, not_or] at h
  obtain ⟨hremove, hclear, hgives⟩ := h
  cases u with
  | get url' =>
    rw [recent, Use.renew]
    cases hkept : Keyed.find? (recent n past) url' with
    | none =>
      rw [Recency.use_get_eq_self hkept]
      split
      · next heq =>
        rw [← heq, hkept]
        rfl
      · rfl
    | some kept =>
      rw [Recency.use_get hkept, Keyed.find?_cons, Keyed.find?_erase]
      split
      · next heq =>
        rw [← heq, hkept]
        rfl
      · rfl
  | set new cached =>
    rw [isEvicted_iff] at hgives
    refine (Keyed.find?_take (sortedByAge_written n past new cached).nodup n url).trans ?_
    rw [if_neg hgives, written, Keyed.find?_cons, Keyed.find?_erase, Use.renew]
    split <;> rfl
  | remove url' =>
    have hne : url' ≠ url := fun heq => hremove (heq ▸ rfl)
    exact (Keyed.find?_erase ..).trans (if_neg hne)
  | clear => exact absurd rfl hclear
  | contains | hits | wait => rfl

/-! ## Kept entries -/

/-- A use that does not set `url` does not change its body. -/
theorem map_cached_renew (hunset : ∀ cached, u ≠ .set url cached) (kept : Option Kept) :
    (u.renew url kept).map Kept.cached = kept.map Kept.cached := by
  cases u with
  | get url' =>
    rw [Use.renew]
    split
    · rw [Option.map_map]
      rfl
    · rfl
  | set url' cached =>
    have hne : url' ≠ url := fun heq => hunset cached (heq ▸ rfl)
    exact congrArg (Option.map Kept.cached) (if_neg hne)
  | remove | contains | hits | clear | wait => rfl

theorem stands_iff :
    IsCurrent n url cached past
      ↔ (Keyed.find? (recent n past) url).map Kept.cached = some cached := by
  induction past with
  | nil =>
    constructor
    · intro h
      cases h
    · intro h
      cases h
  | cons u past ih =>
    by_cases hloses : Loses n past u url
    · rw [find?_recent_of_loses hloses]
      constructor
      · intro h
        cases h with
        | set hkept => exact absurd hloses hkept
        | later _ _ hkept => exact absurd hloses hkept
      · intro h
        cases h
    · rw [find?_recent_of_not_loses hloses]
      by_cases hset : ∃ cached', u = .set url cached'
      · obtain ⟨cached', rfl⟩ := hset
        rw [Use.renew, if_pos rfl, Option.map_some, Option.some_inj]
        constructor
        · intro h
          cases h with
          | set _ => rfl
          | later _ hunset _ => exact absurd rfl (hunset cached')
        · rintro rfl
          exact .set hloses
      · rw [not_exists] at hset
        rw [map_cached_renew hset, ← ih]
        constructor
        · intro h
          cases h with
          | set _ => exact absurd rfl (hset cached)
          | later hbefore _ _ => exact hbefore
        · exact fun h => .later h hset hloses

theorem hits_eq_reads {kept : Kept} (h : Keyed.find? (recent n past) url = some kept) :
    kept.hits = reads n url past := by
  induction past generalizing kept with
  | nil => cases h
  | cons u past ih =>
    have hloses : ¬ Loses n past u url := by
      intro hloses
      rw [find?_recent_of_loses hloses] at h
      cases h
    rw [find?_recent_of_not_loses hloses] at h
    cases u with
    | get url' =>
      unfold reads
      rw [get_fst, (follows_after n past).found]
      rw [Use.renew] at h
      split at h
      · next heq =>
        obtain ⟨before, hbefore, rfl⟩ := Option.map_eq_some_iff.mp h
        rw [if_pos ⟨heq, by rw [hbefore]; rfl⟩, ← ih hbefore]
      · next hne =>
        rw [if_neg (fun hread => hne hread.1)]
        exact ih h
    | set url' cached =>
      unfold reads
      rw [Use.renew] at h
      split at h
      · next heq =>
        obtain rfl := Option.some.inj h
        exact (if_pos heq).symm
      · next hne =>
        rw [if_neg hne]
        exact ih h
    | remove | contains | hits | clear | wait => exact ih h

/-- A cached URL stays cached until it is lost. -/
theorem contains_use_iff (h : (after n past).contains url = true) :
    ((after n past).use u).contains url = false ↔ Loses n past u url := by
  have hafter := (follows_after n (u :: past)).contains url
  rw [(follows_after n past).contains] at h
  obtain ⟨kept, hkept⟩ := (Keyed.contains_iff ..).mp h
  rw [after] at hafter
  rw [hafter, Keyed.contains]
  constructor
  · intro hgone
    by_contra hloses
    rw [find?_recent_of_not_loses hloses, hkept] at hgone
    cases u with
    | get url' | set url' cached =>
      rw [Use.renew] at hgone
      split at hgone <;> cases hgone
    | remove | contains | hits | clear | wait => cases hgone
  · intro hloses
    rw [find?_recent_of_loses hloses]
    rfl

/-- Whether the use is `contains` or `hits`, which change nothing. -/
def Use.looks : Use → Bool
  | .contains _ => true
  | .hits _ => true
  | _ => false

theorem after_filter_looks (n : Nat) (past : List Use) :
    after n (past.filter (fun u => !u.looks)) = after n past := by
  induction past with
  | nil => rfl
  | cons u past ih =>
    cases u with
    | contains | hits => exact ih
    | get | set | remove | clear | wait => exact congrArg (Cache.use · _) ih

/-- A cache with capacity `n` after the uses in `past`. -/
structure KeepsRecent (n : Nat) (past : List Use) : Prop where
  bounded : (after n past).size ≤ n
  /-- `get` finds what was last set under `url`, unless it was lost since. -/
  get : ∀ url cached, ((after n past).get url).1 = some cached ↔ IsCurrent n url cached past
  /-- A URL is lost only if it is removed, cleared or evicted. -/
  loses : ∀ u url, (after n past).contains url = true →
    (((after n past).use u).contains url = false ↔ Loses n past u url)
  /-- Setting a new URL in a full cache evicts exactly one URL. -/
  gives : ∀ new cached, (after n past).contains new = false → (after n past).size = n →
    ∃! url, IsEvicted n past (.set new cached) url
  /-- The evicted URL was cached before. -/
  gives_cached : 0 < n → ∀ u url, IsEvicted n past u url → (after n past).contains url = true
  /-- `contains` and `hits` make no difference for later uses. -/
  looks : after n (past.filter (fun u => !u.looks)) = after n past
  /-- `hits` counts how often the URL was found since it was last set. -/
  hits : ∀ url, (after n past).hits url
    = if (after n past).contains url = true then reads n url past else 0
  /-- The cache answers as its recency list does. -/
  list : ∀ url, ((after n past).get url).1 = ((recent n past).find? url).map Kept.cached
    ∧ (after n past).contains url = (recent n past).contains url
    ∧ (after n past).hits url = ((recent n past).find? url).elim 0 Kept.hits
    ∧ (after n past).size = (recent n past).length
  /-- The recency list is sorted by `age`. -/
  order : (recent n past).keys.Pairwise (fun url url' => age past url < age past url')

/-- A cache of any capacity keeps what was used last, whatever its uses. -/
theorem keeps_recent (n : Nat) (past : List Use) : KeepsRecent n past := by
  have hfollows := follows_after n past
  refine ⟨?_, ?_, fun _ _ => contains_use_iff, fun _ cached hnew hfull =>
    existsUnique_isEvicted hnew hfull cached, fun hn _ _ => contains_of_isEvicted hn,
    after_filter_looks n past, ?_, ?_, sortedByAge_recent n past⟩
  · rw [hfollows.size]
    exact length_recent_le n past
  · intro url cached
    rw [get_fst, hfollows.found, stands_iff]
  · intro url
    rw [hfollows.hits, hfollows.contains, Keyed.contains]
    cases hkept : Keyed.find? (recent n past) url with
    | none => rfl
    | some kept => exact hits_eq_reads hkept
  · intro url
    rw [get_fst]
    exact ⟨hfollows.found url, hfollows.contains url, hfollows.hits url, hfollows.size⟩

/-- Of two URLs one is read again, while only `contains` is asked of the other, which is evicted for
a third. -/
theorem keeps_recent_two :
    let value (body : Int) : Cached := ⟨"A:1", .int body⟩
    let past : List Use :=
      [.contains "/b", .wait 3, .get "/a", .set "/b" (value 2), .set "/a" (value 1)]
    IsEvicted 2 past (.set "/c" (value 3)) "/b"
      ∧ IsCurrent 2 "/a" (value 1) (.set "/c" (value 3) :: past)
      ∧ (after 2 past).hits "/a" = 1
      ∧ ¬ IsEvicted 2 past (.set "/c" (value 3)) "/a" := by
  intro value past
  have hbefore : KeepsRecent 2 past := keeps_recent 2 past
  have hlost := (hbefore.loses (.set "/c" (value 3)) "/b" (by decide +kernel)).mp
    (by decide +kernel)
  have hkept := (hbefore.loses (.set "/c" (value 3)) "/a" (by decide +kernel)).not.mp
    (by decide +kernel)
  have hgives : IsEvicted 2 past (.set "/c" (value 3)) "/b" := by simpa [Loses] using hlost
  have hstands := ((keeps_recent 2 (.set "/c" (value 3) :: past)).get "/a" (value 1)).mp
    (by decide +kernel)
  exact ⟨hgives, hstands, (hbefore.hits "/a").trans (by decide +kernel),
    fun h => hkept (.inr (.inr h))⟩

end Cache

end DocumentSession
