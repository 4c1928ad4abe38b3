import Pybus.Interaction.Pool

/-! What a routine does, told by the complete traces of its calls, and the traces that the threads
of a pool are in the middle of. -/
namespace Interaction

variable {S : Signature} {σ ε α β : Type}

namespace Prog

theorem runs_done {a b : α} {tr : List (Event S)} :
    (done a : Prog S α).Runs tr b ↔ tr = [] ∧ b = a := by
  constructor
  · intro h
    cases h
    exact ⟨rfl, rfl⟩
  · rintro ⟨rfl, rfl⟩
    exact .done _

theorem runs_call {o : S.Op} {k : S.Res o → Prog S α} {tr : List (Event S)} {a : α} :
    (call o k).Runs tr a ↔ ∃ r tr', tr = ⟨o, r⟩ :: tr' ∧ (k r).Runs tr' a := by
  constructor
  · intro h
    cases h with
    | call h => exact ⟨_, _, rfl, h⟩
  · rintro ⟨r, tr', rfl, h⟩
    exact .call h

end Prog

namespace Routine

/-- Every complete trace of the routine, with the state and the result it ends in, is as said. -/
def Traces (Q : List (Event S) → σ → Except ε α → Prop) (s : σ) (p : Routine S σ ε α) : Prop :=
  ∀ tr s' r, (p s).Runs tr (r, s') → Q tr s' r

variable {p : Routine S σ ε α} {s : σ} {P Q : List (Event S) → σ → Except ε α → Prop}

theorem Traces.mono (h : p.Traces P s) (hQ : ∀ tr s' r, P tr s' r → Q tr s' r) : p.Traces Q s :=
  fun tr s' r hr => hQ tr s' r (h tr s' r hr)

theorem traces_pure {a : α} (h : Q [] s (.ok a)) : (pure a : Routine S σ ε α).Traces Q s := by
  intro tr s' r hr
  obtain ⟨rfl, hrs⟩ := Prog.runs_done.mp hr
  cases hrs
  exact h

theorem traces_raise {e : ε} (h : Q [] s (.error e)) :
    (raise e : Routine S σ ε α).Traces Q s := by
  intro tr s' r hr
  obtain ⟨rfl, hrs⟩ := Prog.runs_done.mp hr
  cases hrs
  exact h

theorem traces_own {Q : List (Event S) → σ → Except ε σ → Prop} (h : Q [] s (.ok s)) :
    (own : Routine S σ ε σ).Traces Q s := by
  intro tr s' r hr
  obtain ⟨rfl, hrs⟩ := Prog.runs_done.mp hr
  cases hrs
  exact h

theorem traces_update {f : σ → σ} {Q : List (Event S) → σ → Except ε Unit → Prop}
    (h : Q [] (f s) (.ok ())) : (update f : Routine S σ ε Unit).Traces Q s := by
  intro tr s' r hr
  obtain ⟨rfl, hrs⟩ := Prog.runs_done.mp hr
  cases hrs
  exact h

theorem traces_ask {o : S.Op} {Q : List (Event S) → σ → Except ε (S.Res o) → Prop}
    (h : ∀ r, Q [⟨o, r⟩] s (.ok r)) : (ask o : Routine S σ ε (S.Res o)).Traces Q s := by
  intro tr s' r hr
  obtain ⟨a, tr', rfl, hdone⟩ := Prog.runs_call.mp hr
  obtain ⟨rfl, hrs⟩ := Prog.runs_done.mp hdone
  cases hrs
  exact h a

theorem traces_attempt {o : S.Op} {f : S.Res o → Except ε α} (h : ∀ r, Q [⟨o, r⟩] s (f r)) :
    (attempt o f : Routine S σ ε α).Traces Q s := by
  intro tr s' r hr
  obtain ⟨a, tr', rfl, hdone⟩ := Prog.runs_call.mp hr
  obtain ⟨rfl, hrs⟩ := Prog.runs_done.mp hdone
  cases hrs
  exact h a

/-- The trace of a sequence is that of its first part, followed by that of the rest unless the
first part raises. -/
theorem Traces.bind {f : α → Routine S σ ε β} {R : List (Event S) → σ → Except ε β → Prop}
    (h : p.Traces P s)
    (ok : ∀ tr s' a, P tr s' (.ok a) → (f a).Traces (fun tr' => R (tr ++ tr')) s')
    (error : ∀ tr s' e, P tr s' (.error e) → R tr s' (.error e)) : (p >>= f).Traces R s := by
  intro tr s' r hr
  obtain ⟨tr₁, tr₂, ⟨r₁, s₁⟩, rfl, h₁, h₂⟩ := Prog.runs_bind.mp hr
  have hP := h tr₁ s₁ r₁ h₁
  cases r₁ with
  | ok a => exact ok tr₁ s₁ a hP tr₂ s' r h₂
  | error e =>
    obtain ⟨rfl, hrs⟩ := Prog.runs_done.mp h₂
    cases hrs
    rw [List.append_nil]
    exact error tr₁ s' e hP

theorem Traces.tryCatch {f : ε → Routine S σ ε α} (h : p.Traces P s)
    (ok : ∀ tr s' a, P tr s' (.ok a) → Q tr s' (.ok a))
    (error : ∀ tr s' e, P tr s' (.error e) → (f e).Traces (fun tr' => Q (tr ++ tr')) s') :
    (MonadExcept.tryCatch p f).Traces Q s := by
  intro tr s' r hr
  obtain ⟨tr₁, tr₂, ⟨r₁, s₁⟩, rfl, h₁, h₂⟩ := Prog.runs_bind.mp hr
  have hP := h tr₁ s₁ r₁ h₁
  cases r₁ with
  | error e => exact error tr₁ s₁ e hP tr₂ s' r h₂
  | ok a =>
    obtain ⟨rfl, hrs⟩ := Prog.runs_done.mp h₂
    cases hrs
    rw [List.append_nil]
    exact ok tr₁ s' a hP

/-- Run a part and go on, whether it returns or raises. -/
def caught (p : Routine S σ ε α) : Routine S σ ε (Except ε α) := fun s =>
  (p s).bind fun (r, s') => .done (.ok r, s')

theorem Traces.caught {Q : List (Event S) → σ → Except ε (Except ε α) → Prop}
    (h : p.Traces (fun tr s' r => Q tr s' (.ok r)) s) : p.caught.Traces Q s := by
  intro tr s' r hr
  obtain ⟨tr₁, tr₂, ⟨r₁, s₁⟩, rfl, h₁, h₂⟩ := Prog.runs_bind.mp hr
  obtain ⟨rfl, hrs⟩ := Prog.runs_done.mp h₂
  cases hrs
  rw [List.append_nil]
  exact h tr₁ s' r₁ h₁

theorem Meets.caught {G : Type} {M : Monitor S G} {g : G}
    {Q : G → σ → Except ε (Except ε α) → Prop}
    (h : p.Meets M (fun g' s' r => Q g' s' (.ok r)) g s) : p.caught.Meets M Q g s :=
  Prog.meets_bind.mpr (Prog.Meets.mono h fun _ _ hq => hq)

end Routine

/-- What a thread has called so far begins a trace of the program it was started with. -/
theorem Reachable.thread_runs {τ : Type} {W : World S τ α} {t : τ} {P : Pool S τ α}
    (h : Reachable W.Step (World.Start t) P) :
    ∀ (i : Nat) T, P.threads[i]? = some T → ∃ t' p, W.starts t' p ∧
      ∀ tr a, T.rest.Runs tr a → p.Runs (T.log ++ tr) a := by
  refine h.invariant (I := fun P : Pool S τ α => ∀ (i : Nat) T, P.threads[i]? = some T →
    ∃ t' p, W.starts t' p ∧ ∀ tr a, T.rest.Runs tr a → p.Runs (T.log ++ tr) a) ?_ ?_
  · intro P hP i T hi
    rw [hP.2] at hi
    cases hi
  · intro P m P' hm hP i T hi
    rcases hm.thread hi with hi' | ⟨p, -, hp, rfl, -⟩ | ⟨log, o, k, r, -, hi', -, rfl⟩
    · exact hP i T hi'
    · exact ⟨_, p, hp, fun tr a hr => hr⟩
    · obtain ⟨t', p, hp, hruns⟩ := hP i _ hi'
      refine ⟨t', p, hp, fun tr a hr => ?_⟩
      rw [List.append_assoc]
      exact hruns _ a (.call hr)

end Interaction
