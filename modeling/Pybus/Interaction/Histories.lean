import Mathlib.Data.List.Induction
import Pybus.Interaction.Pool

/-! The history of a pool: which program each thread was started with, how far it has come, and at
which move of the run each of its calls was answered. -/
namespace Interaction

variable {S : Signature} {σ α : Type}

/-- A program has made some calls and goes on as another one. -/
inductive Prog.Along : Prog S α → List (Event S) → Prog S α → Prop
  | refl (p : Prog S α) : Along p [] p
  | call {o : S.Op} {k : S.Res o → Prog S α} {r : S.Res o} {tr : List (Event S)} {q : Prog S α} :
      Along (k r) tr q → Along (.call o k) (⟨o, r⟩ :: tr) q

namespace Prog.Along

variable {p q : Prog S α} {tr : List (Event S)} {o : S.Op} {k : S.Res o → Prog S α} {r : S.Res o}

theorem snoc (h : p.Along tr (.call o k)) : p.Along (tr ++ [⟨o, r⟩]) (k r) := by
  generalize hq : Prog.call o k = q at h
  induction h with
  | refl p =>
    subst hq
    exact .call (.refl _)
  | call _ ih => exact .call (ih hq)

end Prog.Along

/-- The programs that a run has started, in the order of their threads. -/
def started : List (Move S α) → List (Prog S α)
  | [] => []
  | .start p :: ms => p :: started ms
  | .call _ _ :: ms => started ms

theorem started_append (ms ms' : List (Move S α)) :
    started (ms ++ ms') = started ms ++ started ms' := by
  induction ms with
  | nil => rfl
  | cons m ms ih => cases m <;> simp [started, ih]

variable {W : World S σ α} {P P' Q : Pool S σ α} {ms ms' : List (Move S α)} {m : Move S α}
  {i : Nat} {T : Thread S α} {s : σ}

/-- The last move of a run. -/
theorem Path.last {τ L : Type} {step : τ → L → τ → Prop} {t u : τ} {as : List L} {a : L}
    (h : Path step t (as ++ [a]) u) : ∃ v, Path step t as v ∧ step v a u := by
  obtain ⟨v, hv, hu⟩ := h.split
  cases hu with
  | head hs hr =>
    cases hr
    exact ⟨v, hv, hs⟩

/-- In a run, a thread makes a call in one pool that leads to another. -/
def Turn (W : World S σ α) (P : Pool S σ α) (ms : List (Move S α)) (P' : Pool S σ α) (i : Nat)
    (e : Event S) (Q Q' : Pool S σ α) : Prop :=
  ∃ ms₁ ms₂, ms = ms₁ ++ .call i e :: ms₂ ∧ Path W.Step P ms₁ Q ∧ W.Step Q (.call i e) Q' ∧
    Path W.Step Q' ms₂ P'

namespace Turn

variable {e : Event S} {Q' : Pool S σ α}

theorem append {P'' : Pool S σ α} (h : Turn W P ms P' i e Q Q') (hp : Path W.Step P' ms' P'') :
    Turn W P (ms ++ ms') P'' i e Q Q' := by
  obtain ⟨ms₁, ms₂, rfl, h₁, hm, h₂⟩ := h
  exact ⟨ms₁, ms₂ ++ ms', by simp, h₁, hm, h₂.append hp⟩

theorem later {P₀ : Pool S σ α} (h : Turn W P ms P' i e Q Q') (hp : Path W.Step P₀ ms' P) :
    Turn W P₀ (ms' ++ ms) P' i e Q Q' := by
  obtain ⟨ms₁, ms₂, rfl, h₁, hm, h₂⟩ := h
  exact ⟨ms' ++ ms₁, ms₂, by simp, hp.append h₁, hm, h₂⟩

/-- A turn comes after the run that leads to it. -/
theorem path (h : Turn W P ms P' i e Q Q') : ∃ ms₁, Path W.Step P ms₁ Q := by
  obtain ⟨ms₁, ms₂, -, h₁, -⟩ := h
  exact ⟨ms₁, h₁⟩

end Turn

end Interaction
