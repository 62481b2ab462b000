import Mathlib.Data.List.Forall2
import DocumentSession.Proofs.Keyed
import DocumentSession.Session.Flush

set_option autoImplicit false

/-! # Conditional reads

A read whose cache key has a cached body is sent with the cached change vector in the header
`If-None-Match`. The change vector goes out in quotes, as an entity tag, and is read off the tag of
a response again (`OpenSession.unquoted_quoted`).

A `Site` is what the server has during a flush. It answers 304 if it has the change vector in the
header, and with its own result otherwise. It may have other results in the next flush, but one body
for each URL and change vector.

Loads with the same cache key are the same, and so are queries, unless they differ and have the same
hash (`LazyRead.Requests.eq_of_url`). -/

namespace DocumentSession

open List (Forall₂)

/-! ## Entity tags -/

/-- A change vector as an entity tag. -/
def quoted (version : String) : String :=
  "\"" ++ version ++ "\""

theorem toList_quoted (version : String) :
    (quoted version).toList = '"' :: (version.toList ++ ['"']) := by
  unfold quoted
  rw [String.toList_append, String.toList_append]
  rfl

theorem quoted_injective : Function.Injective quoted := by
  intro version version' h
  have hchars := congrArg String.toList h
  rw [toList_quoted, toList_quoted] at hchars
  exact String.toList_injective (List.append_cancel_right (List.cons.inj hchars).2)

theorem dropWhile_quote {cs : List Char} (h : '"' ∉ cs) (hsome : cs ≠ []) (rest : List Char) :
    (cs ++ rest).dropWhile (· = '"') = cs ++ rest := by
  obtain ⟨c, cs, rfl⟩ := List.exists_cons_of_ne_nil hsome
  have hc : c ≠ '"' := fun hquote => h (hquote ▸ List.mem_cons_self)
  exact List.dropWhile_cons_of_neg (by rw [decide_eq_true_eq]; exact hc)

/-- `unquoted` gives the change vector back, if it has no quotes in it. -/
theorem OpenSession.unquoted_quoted {version : String} (h : '"' ∉ version.toList) :
    unquoted (quoted version) = version := by
  unfold unquoted
  rw [toList_quoted]
  dsimp only
  rw [List.dropWhile_cons_of_pos (by decide)]
  by_cases hempty : version.toList = []
  · rw [hempty]
    exact (String.ext hempty).symm
  · have hreverse : '"' ∉ version.toList.reverse := mt List.mem_reverse.mp h
    rw [dropWhile_quote h hempty, List.reverse_append, List.reverse_singleton,
      List.singleton_append, List.dropWhile_cons_of_pos (by decide),
      ← List.append_nil version.toList.reverse,
      dropWhile_quote hreverse (mt List.reverse_eq_nil_iff.mp hempty), List.append_nil,
      List.reverse_reverse, String.ofList_toList]

/-! ## Unconditional requests -/

namespace SubRequest

/-- The request without `If-None-Match`. -/
def plain (r : SubRequest) : SubRequest :=
  { r with headers := r.headers.erase "If-None-Match" }

theorem find?_plain (r : SubRequest) : r.plain.headers.find? "If-None-Match" = none :=
  (Keyed.find?_erase ..).trans (if_pos rfl)

theorem plain_plain (r : SubRequest) : r.plain.plain = r.plain :=
  congrArg (fun headers => { r with headers }) (Keyed.erase_eq_self r.find?_plain)

end SubRequest

namespace OpenSession

variable {r : SubRequest}

theorem plain_conditional (h : r.headers = []) (found : Option Cached) :
    (found.elim r (conditional r)).plain = r := by
  obtain ⟨path, query, method, headers, body⟩ := r
  obtain rfl : headers = [] := h
  cases found <;> rfl

/-- `conditional` puts the cached change vector into the header. -/
theorem find?_conditional (h : r.headers = []) (found : Option Cached) :
    (found.elim r (conditional r)).headers.find? "If-None-Match"
      = found.map (quoted ·.changeVector) := by
  obtain ⟨path, query, method, headers, body⟩ := r
  obtain rfl : headers = [] := h
  cases found <;> rfl

end OpenSession

/-- The read with an unconditional request. -/
def Asked.plain (asked : Asked) : Asked :=
  { asked with request := asked.request.plain }

/-! ## Cache keys of reads -/

theorem Text.percentEncode_of_unreserved {s : String} (h : ∀ c ∈ s.toList, isUnreserved c = true) :
    percentEncode s = s := by
  have hchars : s.toList.flatMap percentChar = s.toList.flatMap (fun c => [c]) :=
    List.flatMap_congr (fun c hc => if_pos (h c hc))
  unfold percentEncode
  rw [hchars, List.flatMap_singleton', String.ofList_toList]

namespace Query.Frozen

theorem percentEncode_hash (q : Frozen) : Text.percentEncode q.hash = q.hash := by
  have hdigit : ∀ d : Fin 16, Text.isUnreserved (Nat.digitChar d) = true := by decide
  refine Text.percentEncode_of_unreserved ?_
  unfold hash Sha256.hexDigest
  rw [String.toList_ofList]
  intro c hc
  obtain ⟨w, -, hword⟩ := List.mem_flatMap.mp hc
  obtain ⟨i, -, rfl⟩ := List.mem_map.mp hword
  exact hdigit ⟨_ % 16, Nat.mod_lt _ (by decide)⟩

theorem queryString_hash (hash : String) :
    queryString [("queryHash", hash)] = "?queryHash=" ++ Text.percentEncode hash := by
  have hname : Text.percentEncode "queryHash" = "queryHash" := by decide +kernel
  unfold queryString
  rw [if_neg (List.cons_ne_nil _ _), List.map_singleton]
  unfold queryPiece
  rw [hname]
  show "?" ++ ("queryHash" ++ "=" ++ Text.percentEncode hash) = _
  rw [← String.append_assoc]
  rfl

theorem cacheKey_eq (q : Frozen) :
    (SubRequest.ofRequest (queryRequest q)).cacheKey = "/queries?queryHash=" ++ q.hash := by
  show "/queries" ++ queryString [("queryHash", q.hash)] = _
  rw [queryString_hash, q.percentEncode_hash, ← String.append_assoc]
  rfl

end Query.Frozen

namespace LazyRead

/-- The query of a read that has one. -/
def query? : LazyRead → Option Query.Frozen
  | .load .. => none
  | .query _ q _ | .count q => some q

/-- The request is a load, or that of the query of the read. -/
def Requests (read : LazyRead) (r : SubRequest) : Prop :=
  (∃ ids includes, r = .ofRequest (loadRequest ids includes))
    ∨ ∃ q, read.query? = some q ∧ r = .ofRequest (queryRequest q)

variable {read read' : LazyRead} {r r' : SubRequest}

theorem requests_of_asks {w w' : Workspace} (h : read.prepare w = (.asks r read', w')) :
    read.Requests r := by
  cases read with
  | load type ids includes requested =>
    unfold prepare at h
    dsimp only at h
    split at h
    · cases h
    · cases h
    · next unknown _ _ _ =>
      cases h
      exact Or.inl ⟨unknown, includes, rfl⟩
  | query type q tracking =>
    cases h
    exact Or.inr ⟨q, rfl, rfl⟩
  | count q =>
    cases h
    exact Or.inr ⟨q, rfl, rfl⟩

namespace Requests

theorem headers (h : read.Requests r) : r.headers = [] := by
  rcases h with ⟨ids, includes, rfl⟩ | ⟨q, -, rfl⟩ <;> rfl

/-- Two reads with the same cache key have the same request, unless two queries differ and have the
same hash. -/
theorem eq_of_url (h : read.Requests r) (h' : read'.Requests r')
    (hqueries : ∀ q ∈ read.query?, ∀ q' ∈ read'.query?, q.hash = q'.hash → q.toJson = q'.toJson)
    (hurl : r.cacheKey = r'.cacheKey) : r = r' := by
  -- the paths differ in their second letter
  have hpaths : ∀ a b : String, "/docs" ++ a ≠ "/queries" ++ b := by
    intro a b hab
    have hchars := congrArg String.toList hab
    rw [String.toList_append, String.toList_append] at hchars
    cases hchars
  rcases h with ⟨ids, includes, rfl⟩ | ⟨q, hq, rfl⟩
  · rcases h' with ⟨ids', includes', rfl⟩ | ⟨q', -, rfl⟩
    · have hquery := (String.append_right_inj _).mp hurl
      exact congrArg (fun query => (⟨"/docs", query, .get, [], none⟩ : SubRequest)) hquery
    · exact absurd hurl (hpaths _ _)
  · rcases h' with ⟨ids', includes', rfl⟩ | ⟨q', hq', rfl⟩
    · exact absurd hurl.symm (hpaths _ _)
    · rw [q.cacheKey_eq, q'.cacheKey_eq] at hurl
      have hhash : q.hash = q'.hash := (String.append_right_inj _).mp hurl
      have hrequest : ∀ q : Query.Frozen, SubRequest.ofRequest (queryRequest q)
          = ⟨"/queries", queryString [("queryHash", q.hash)], .post, [], some q.toJson⟩ :=
        fun _ => rfl
      rw [hrequest, hrequest, hqueries q hq q' hq' hhash, hhash]

end Requests

end LazyRead

/-- The queries in `pending` have the same hash only if they are the same. -/
def HashesApart (pending : List Pending) : Prop :=
  ∀ p ∈ pending, ∀ p' ∈ pending, ∀ q ∈ p.read.query?, ∀ q' ∈ p'.read.query?,
    q.hash = q'.hash → q.toJson = q'.toJson

/-! ## Servers and conditional requests -/

/-- What a server has during a flush. Its body under a URL and a change vector is the one in
`bodies`. -/
structure Site (bodies : String → String → Option Json) where
  /-- The response to an unconditional request. -/
  current : SubRequest → SubResponse
  /-- The error of every multi-get, if the server does not answer. -/
  outage : Option Halt := none
  isNew : ∀ r, (current r).isNotModified = false
  /-- An `ETag` is a change vector in quotes. -/
  tagged : ∀ r tag, (current r).isSuccess = true → (current r).header "ETag" = some tag →
    ∃ version, '"' ∉ version.toList ∧ tag = quoted version
      ∧ (current r).result = bodies r.cacheKey version

/-- Every cached body is the one in `bodies`. -/
def HoldsBodies (bodies : String → String → Option Json) (found : String → Option Cached) : Prop :=
  ∀ url cached, found url = some cached → bodies url cached.changeVector = some cached.body

namespace Site

variable {bodies : String → String → Option Json} {site : Site bodies}

/-- The server has the change vector in the header of the request. -/
def Unchanged (site : Site bodies) (r : SubRequest) : Prop :=
  (site.current r.plain).isSuccess = true
    ∧ ∃ tag, (site.current r.plain).header "ETag" = some tag
      ∧ r.headers.find? "If-None-Match" = some tag

/-- The response is 304 if the request is `Unchanged`, and `current` otherwise. -/
def Responds (site : Site bodies) (r : SubRequest) (response : SubResponse) : Prop :=
  (site.Unchanged r ∧ response.isNotModified = true)
    ∨ (¬ site.Unchanged r ∧ response = site.current r.plain)

/-- The answer of the server to a multi-get. -/
def Answers (site : Site bodies) (requests : List SubRequest) :
    Except Halt (List SubResponse) → Prop
  | .error halt => site.outage = some halt
  | .ok responses => site.outage = none ∧ Forall₂ site.Responds requests responses

/-- If the request is `Unchanged`, its body is cached still. -/
def Backs (site : Site bodies) (found : String → Option Cached) (r : SubRequest) : Prop :=
  site.Unchanged r → ∃ cached, found r.cacheKey = some cached
    ∧ r.headers.find? "If-None-Match" = some (quoted cached.changeVector)

theorem not_unchanged_plain (site : Site bodies) (r : SubRequest) : ¬ site.Unchanged r.plain := by
  rintro ⟨-, tag, -, hcondition⟩
  rw [r.find?_plain] at hcondition
  cases hcondition

/-- The responses to unconditional requests are `current`. -/
theorem responds_plain {requests : List SubRequest} {responses : List SubResponse}
    (h : Forall₂ site.Responds (requests.map SubRequest.plain) responses) :
    responses = requests.map (fun r => site.current r.plain) := by
  induction requests generalizing responses with
  | nil =>
    cases h
    rfl
  | cons r rest ih =>
    cases h with
    | cons hresponse hrest =>
      obtain ⟨hunchanged, -⟩ | ⟨-, rfl⟩ := hresponse
      · exact absurd hunchanged (site.not_unchanged_plain r)
      · rw [ih hrest, r.plain_plain]
        rfl

/-- The body that is cached for an `Unchanged` request is the current one. -/
theorem Backs.result_eq {found : String → Option Cached} {r : SubRequest}
    (h : site.Backs found r) (hbodies : HoldsBodies bodies found) (hunchanged : site.Unchanged r) :
    ∃ cached, found r.cacheKey = some cached
      ∧ (site.current r.plain).result = some cached.body := by
  obtain ⟨cached, hfound, hcondition⟩ := h hunchanged
  obtain ⟨hsuccess, tag, htag, hknown⟩ := hunchanged
  obtain ⟨version, -, rfl, hresult⟩ := site.tagged r.plain tag hsuccess htag
  have hversion : version = cached.changeVector :=
    quoted_injective (Option.some.inj (hknown.symm.trans hcondition))
  refine ⟨cached, hfound, ?_⟩
  rw [hresult, hversion]
  exact hbodies _ _ hfound

end Site

end DocumentSession
