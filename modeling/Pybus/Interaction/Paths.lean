import Mathlib.Order.Basic

/-! Finite labelled runs of a step relation, and the induction over them. -/
namespace Interaction

variable {σ L : Type} {step : σ → L → σ → Prop} {s t u : σ} {a : L} {as bs : List L}

/-- A finite run with its labels, oldest first. -/
inductive Path (step : σ → L → σ → Prop) : σ → List L → σ → Prop
  | refl (s : σ) : Path step s [] s
  | head {s t u : σ} {a : L} {as : List L} :
      step s a t → Path step t as u → Path step s (a :: as) u

theorem Path.single (h : step s a t) : Path step s [a] t := .head h (.refl t)

theorem Path.append (h : Path step s as t) (k : Path step t bs u) :
    Path step s (as ++ bs) u := by
  induction h with
  | refl => exact k
  | head hs _ ih => exact .head hs (ih k)

theorem Path.split (h : Path step s (as ++ bs) u) :
    ∃ t, Path step s as t ∧ Path step t bs u := by
  induction as generalizing s with
  | nil => exact ⟨s, .refl s, h⟩
  | cons a as ih =>
    cases h with
    | head hs hr =>
      obtain ⟨t, ht, hu⟩ := ih hr
      exact ⟨t, .head hs ht, hu⟩

/-- A step relation may be weakened along a whole run. -/
theorem Path.mono {step' : σ → L → σ → Prop} (hm : ∀ s a t, step s a t → step' s a t)
    (h : Path step s as t) : Path step' s as t := by
  induction h with
  | refl => exact .refl _
  | head hs _ ih => exact .head (hm _ _ _ hs) ih

/-- A property kept by every step holds at the end of a run that starts in it. -/
theorem Path.invariant {I : σ → Prop} (hI : ∀ s a t, step s a t → I s → I t)
    (h : Path step s as t) (hs : I s) : I t := by
  induction h with
  | refl => exact hs
  | head hst _ ih => exact ih (hI _ _ _ hst hs)

/-- A reflexive and transitive relation kept by every step relates the ends of a run,
given an invariant that the single steps may use. -/
theorem Path.relates {I : σ → Prop} {R : σ → σ → Prop} (hI : ∀ s a t, step s a t → I s → I t)
    (hrefl : ∀ s, R s s) (htrans : ∀ s t u, R s t → R t u → R s u)
    (hR : ∀ s a t, step s a t → I s → R s t) (h : Path step s as t) (hs : I s) : R s t := by
  induction h with
  | refl => exact hrefl _
  | head hst _ ih => exact htrans _ _ _ (hR _ _ _ hst hs) (ih (hI _ _ _ hst hs))

/-- The states that some run reaches from a start state. -/
def Reachable (step : σ → L → σ → Prop) (start : σ → Prop) (t : σ) : Prop :=
  ∃ s as, start s ∧ Path step s as t

theorem Reachable.snoc {start : σ → Prop} (h : Reachable step start s) (hs : step s a t) :
    Reachable step start t := by
  obtain ⟨s₀, as, h₀, hp⟩ := h
  exact ⟨s₀, as ++ [a], h₀, hp.append (.single hs)⟩

theorem Reachable.path {start : σ → Prop} (h : Reachable step start s) (hp : Path step s as t) :
    Reachable step start t := by
  obtain ⟨s₀, bs, h₀, hb⟩ := h
  exact ⟨s₀, bs ++ as, h₀, hb.append hp⟩

theorem Reachable.invariant {start I : σ → Prop} (h : Reachable step start t)
    (hstart : ∀ s, start s → I s) (hI : ∀ s a t, step s a t → I s → I t) : I t := by
  obtain ⟨s, as, hs, hp⟩ := h
  exact hp.invariant hI (hstart s hs)

end Interaction
