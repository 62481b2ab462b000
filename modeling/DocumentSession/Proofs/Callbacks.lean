import DocumentSession.Callbacks

set_option autoImplicit false

/-! # What callbacks do to what is shared

`callEach` calls one callback after the other, up to the first that refuses. A reflexive and
transitive relation between what is shared before and after each call holds between what is shared
before and after the round. -/

namespace DocumentSession.Callbacks

variable {R : Shared → Shared → Prop}

theorem relates_callEach {Event : Type} {callbacks : List (Event → Shared → Verdict)}
    (hrefl : ∀ s, R s s) (htrans : ∀ {s s' s''}, R s s' → R s' s'' → R s s'')
    (hcallback : ∀ callback ∈ callbacks, ∀ event s, R s (callback event s).2) (event : Event)
    (s : Shared) : R s (callEach event callbacks s).2 := by
  induction callbacks generalizing s with
  | nil => exact hrefl s
  | cons callback rest ih =>
    have hfirst := hcallback callback (List.mem_cons_self ..) event s
    rw [callEach]
    split
    · next s' hcalled =>
      rw [hcalled] at hfirst
      exact htrans hfirst (ih (fun c hc => hcallback c (List.mem_cons_of_mem _ hc)) s')
    · exact hfirst

theorem relates_callEachOnQuery
    {callbacks : List (Query → Shared → Option Error × Query × Shared)}
    (hrefl : ∀ s, R s s) (htrans : ∀ {s s' s''}, R s s' → R s' s'' → R s s'')
    (hcallback : ∀ callback ∈ callbacks, ∀ q s, R s (callback q s).2.2) (q : Query)
    (s : Shared) : R s (callEachOnQuery callbacks q s).2.2 := by
  induction callbacks generalizing q s with
  | nil => exact hrefl s
  | cons callback rest ih =>
    have hfirst := hcallback callback (List.mem_cons_self ..) q s
    rw [callEachOnQuery]
    split
    · next q' s' hcalled =>
      rw [hcalled] at hfirst
      exact htrans hfirst (ih (fun c hc => hcallback c (List.mem_cons_of_mem _ hc)) q' s')
    · exact hfirst

end DocumentSession.Callbacks
