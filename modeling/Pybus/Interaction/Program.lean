import Mathlib.Logic.Basic

/-! Programs that interact with their surroundings: a program is a tree of calls, each with a
continuation for every answer. A monitor watches the calls; a program that meets it is safe in
whatever surroundings answer. -/
namespace Interaction

/-- The calls a program can make and the type of the answer to each. -/
structure Signature where
  Op : Type
  Res : Op → Type

/-- A program that ends with a value or makes a call and goes on with its answer. -/
inductive Prog (S : Signature) (α : Type) : Type
  | done (a : α)
  | call (o : S.Op) (k : S.Res o → Prog S α)

/-- A call together with the answer it got. -/
structure Event (S : Signature) where
  op : S.Op
  answer : S.Res op

variable {S : Signature} {α β G : Type}

namespace Prog

def bind (p : Prog S α) (f : α → Prog S β) : Prog S β :=
  match p with
  | .done a => f a
  | .call o k => .call o fun r => (k r).bind f

/-- The complete traces of a program, each with the value it ends in. -/
inductive Runs : Prog S α → List (Event S) → α → Prop
  | done (a : α) : Runs (.done a) [] a
  | call {o : S.Op} {k : S.Res o → Prog S α} {r : S.Res o} {tr : List (Event S)} {a : α} :
      Runs (k r) tr a → Runs (.call o k) (⟨o, r⟩ :: tr) a

/-- The run of a program in surroundings that answer out of a state of their own. -/
def play {E : Type} (answer : E → (o : S.Op) → S.Res o × E) : E → Prog S α → List (Event S) × α
  | _, .done a => ([], a)
  | t, .call o k =>
    let rest := (k (answer t o).1).play answer (answer t o).2
    (⟨o, (answer t o).1⟩ :: rest.1, rest.2)

theorem play_runs {E : Type} {answer : E → (o : S.Op) → S.Res o × E} {t : E} {p : Prog S α} :
    p.Runs (p.play answer t).1 (p.play answer t).2 := by
  induction p generalizing t with
  | done a => exact .done a
  | call o k ih => exact .call (ih _)

/-- What holds of every answer of the surroundings holds along a run in them. -/
theorem play_answers {E : Type} {answer : E → (o : S.Op) → S.Res o × E}
    {A : (o : S.Op) → S.Res o → Prop} (h : ∀ t o, A o (answer t o).1) {t : E} {p : Prog S α} :
    ∀ e ∈ (p.play answer t).1, A e.op e.answer := by
  induction p generalizing t with
  | done a => simp [play]
  | call o k ih =>
    intro e he
    rcases List.mem_cons.mp he with rfl | he
    · exact h t o
    · exact ih _ e he

end Prog

/-- A monitor keeps a state of its own: it says which calls a program may make, which answers
the surroundings may give, and how its state follows. -/
structure Monitor (S : Signature) (G : Type) where
  permits : G → S.Op → Prop
  assumes : G → (o : S.Op) → S.Res o → Prop
  next : G → (o : S.Op) → S.Res o → G

namespace Monitor

variable {M : Monitor S G}

def after (M : Monitor S G) (g : G) (tr : List (Event S)) : G :=
  tr.foldl (fun g e => M.next g e.op e.answer) g

/-- Every call of the trace was permitted where it was made. -/
def Permitted (M : Monitor S G) : G → List (Event S) → Prop
  | _, [] => True
  | g, e :: tr => M.permits g e.op ∧ M.Permitted (M.next g e.op e.answer) tr

/-- Every answer of the trace was one the monitor expects. -/
def Answered (M : Monitor S G) : G → List (Event S) → Prop
  | _, [] => True
  | g, e :: tr => M.assumes g e.op e.answer ∧ M.Answered (M.next g e.op e.answer) tr

@[simp] theorem after_nil (g : G) : M.after g [] = g := rfl

@[simp] theorem after_cons (g : G) (e : Event S) (tr : List (Event S)) :
    M.after g (e :: tr) = M.after (M.next g e.op e.answer) tr := rfl

theorem after_append (g : G) (tr tr' : List (Event S)) :
    M.after g (tr ++ tr') = M.after (M.after g tr) tr' := by
  simp [after]

theorem permitted_append {g : G} {tr tr' : List (Event S)} :
    M.Permitted g (tr ++ tr') ↔ M.Permitted g tr ∧ M.Permitted (M.after g tr) tr' := by
  induction tr generalizing g with
  | nil => simp [Permitted]
  | cons e tr ih => simp [Permitted, ih, and_assoc]

theorem answered_append {g : G} {tr tr' : List (Event S)} :
    M.Answered g (tr ++ tr') ↔ M.Answered g tr ∧ M.Answered (M.after g tr) tr' := by
  induction tr generalizing g with
  | nil => simp [Answered]
  | cons e tr ih => simp [Answered, ih, and_assoc]

/-- What is expected of every answer alike is expected of the answers one by one. -/
theorem answered_iff {A : (o : S.Op) → S.Res o → Prop} (h : ∀ g o r, M.assumes g o r ↔ A o r)
    {g : G} {tr : List (Event S)} : M.Answered g tr ↔ ∀ e ∈ tr, A e.op e.answer := by
  induction tr generalizing g with
  | nil => simp [Answered]
  | cons e tr ih => simp [Answered, ih, h]

/-- A permitted trace permits each of its calls after what came before. -/
theorem Permitted.at {g : G} {pre post : List (Event S)} {e : Event S}
    (h : M.Permitted g (pre ++ e :: post)) : M.permits (M.after g pre) e.op :=
  (permitted_append.mp h).2.1

end Monitor

namespace Prog

variable {M : Monitor S G} {Q Q' : G → α → Prop} {g : G} {p : Prog S α}

/-- The program makes permitted calls only and ends in `Q`, whatever expected answers come. -/
def Meets (M : Monitor S G) (Q : G → α → Prop) : G → Prog S α → Prop
  | g, .done a => Q g a
  | g, .call o k =>
      M.permits g o ∧ ∀ r, M.assumes g o r → Meets M Q (M.next g o r) (k r)

theorem Meets.mono (h : p.Meets M Q g) (hQ : ∀ g a, Q g a → Q' g a) : p.Meets M Q' g := by
  induction p generalizing g with
  | done a => exact hQ g a h
  | call o k ih => exact ⟨h.1, fun r hr => ih r (h.2 r hr)⟩

theorem meets_bind {f : α → Prog S β} {Q : G → β → Prop} :
    (p.bind f).Meets M Q g ↔ p.Meets M (fun g' a => (f a).Meets M Q g') g := by
  induction p generalizing g with
  | done a => exact Iff.rfl
  | call o k ih =>
    simp only [bind, Meets]
    exact and_congr_right fun _ => forall_congr' fun r => imp_congr_right fun _ => ih r

/-- Two specifications of one program agree on some end of it, as long as calls are answered. -/
theorem Meets.together (h : p.Meets M Q g) (h' : p.Meets M Q' g)
    (ha : ∀ g o, ∃ r, M.assumes g o r) : ∃ g' a, Q g' a ∧ Q' g' a := by
  induction p generalizing g with
  | done a => exact ⟨g, a, h, h'⟩
  | call o k ih =>
    obtain ⟨r, hr⟩ := ha g o
    exact ih r (h.2 r hr) (h'.2 r hr)

/-- What a program that meets a monitor does on a complete trace with expected answers. -/
theorem Meets.runs (h : p.Meets M Q g) {tr : List (Event S)} {a : α} (hr : p.Runs tr a)
    (ha : M.Answered g tr) : M.Permitted g tr ∧ Q (M.after g tr) a := by
  induction hr generalizing g with
  | done a => exact ⟨trivial, h⟩
  | call _ ih =>
    obtain ⟨hp, hq⟩ := ih (h.2 _ ha.1) ha.2
    exact ⟨⟨h.1, hp⟩, hq⟩

/-- Every trace of a sequence is a trace of its first part followed by one of the rest. -/
theorem runs_bind {f : α → Prog S β} {tr : List (Event S)} {b : β} :
    (p.bind f).Runs tr b ↔ ∃ tr₁ tr₂ a, tr = tr₁ ++ tr₂ ∧ p.Runs tr₁ a ∧ (f a).Runs tr₂ b := by
  constructor
  · intro h
    induction p generalizing tr with
    | done a => exact ⟨[], tr, a, rfl, .done a, h⟩
    | call o k ih =>
      cases h with
      | call h =>
        obtain ⟨tr₁, tr₂, a, rfl, h₁, h₂⟩ := ih _ h
        exact ⟨_ :: tr₁, tr₂, a, rfl, .call h₁, h₂⟩
  · rintro ⟨tr₁, tr₂, a, rfl, h₁, h₂⟩
    induction h₁ with
    | done a => exact h₂
    | call _ ih => exact .call (ih h₂)

end Prog

/-- The exception of a result that is one. -/
def raised {ε : Type} : Except ε α → Option ε
  | .ok _ => none
  | .error e => some e

@[simp] theorem raised_ok {ε : Type} (a : α) : raised (.ok a : Except ε α) = none := rfl

@[simp] theorem raised_error {ε : Type} (e : ε) : raised (.error e : Except ε α) = some e := rfl

/-- A routine has a state of its own and may raise; the state survives an exception. -/
def Routine (S : Signature) (σ ε α : Type) : Type := σ → Prog S (Except ε α × σ)

namespace Routine

variable {σ ε : Type}

protected def pure (a : α) : Routine S σ ε α := fun s => .done (.ok a, s)

protected def bind (p : Routine S σ ε α) (f : α → Routine S σ ε β) : Routine S σ ε β := fun s =>
  (p s).bind fun
    | (.ok a, s') => f a s'
    | (.error e, s') => .done (.error e, s')

instance : Monad (Routine S σ ε) where
  pure := Routine.pure
  bind := Routine.bind

def raise (e : ε) : Routine S σ ε α := fun s => .done (.error e, s)

/-- Run the handler on an exception of the body, in the state the body left. -/
def handle (p : Routine S σ ε α) (h : ε → Routine S σ ε α) : Routine S σ ε α := fun s =>
  (p s).bind fun
    | (.ok a, s') => .done (.ok a, s')
    | (.error e, s') => h e s'

instance : MonadExceptOf ε (Routine S σ ε) where
  throw := raise
  tryCatch := handle

/-- Make a call that cannot fail. -/
def ask (o : S.Op) : Routine S σ ε (S.Res o) := fun s => .call o fun r => .done (.ok r, s)

/-- Read the routine's own state. -/
def own : Routine S σ ε σ := fun s => .done (.ok s, s)

/-- Change the routine's own state. -/
def update (f : σ → σ) : Routine S σ ε Unit := fun s => .done (.ok (), f s)

/-- Take over an already computed result. -/
def lift : Except ε α → Routine S σ ε α
  | .ok a => Routine.pure a
  | .error e => raise e

/-- Make a call and read its answer as a value or an exception. -/
def attempt (o : S.Op) (f : S.Res o → Except ε α) : Routine S σ ε α := fun s =>
  .call o fun r => .done (f r, s)

variable {M : Monitor S G} {g : G} {s : σ} {Q Q' : G → σ → Except ε α → Prop}
  {p : Routine S σ ε α}

/-- The routine, started in a state, meets the monitor and ends in `Q`. -/
def Meets (M : Monitor S G) (Q : G → σ → Except ε α → Prop) (g : G) (s : σ)
    (p : Routine S σ ε α) : Prop :=
  (p s).Meets M (fun g' r => Q g' r.2 r.1) g

theorem Meets.mono (h : p.Meets M Q g s) (hQ : ∀ g s r, Q g s r → Q' g s r) :
    p.Meets M Q' g s :=
  Prog.Meets.mono h fun g r => hQ g r.2 r.1

@[simp] theorem meets_pure {a : α} : (pure a : Routine S σ ε α).Meets M Q g s ↔ Q g s (.ok a) :=
  Iff.rfl

@[simp] theorem meets_raise {e : ε} :
    (raise e : Routine S σ ε α).Meets M Q g s ↔ Q g s (.error e) := Iff.rfl

@[simp] theorem meets_throw {e : ε} :
    (throw e : Routine S σ ε α).Meets M Q g s ↔ Q g s (.error e) := Iff.rfl

theorem meets_bind {f : α → Routine S σ ε β} {Q : G → σ → Except ε β → Prop} :
    (p >>= f).Meets M Q g s ↔ p.Meets M (fun g' s' r =>
      match r with
      | .ok a => (f a).Meets M Q g' s'
      | .error e => Q g' s' (.error e)) g s := by
  change ((p s).bind _).Meets M _ g ↔ (p s).Meets M _ g
  rw [Prog.meets_bind]
  constructor <;> intro h <;> refine Prog.Meets.mono h ?_ <;> rintro g' ⟨r | r, s'⟩ h <;> exact h

theorem meets_tryCatch {h : ε → Routine S σ ε α} :
    (tryCatch p h).Meets M Q g s ↔ p.Meets M (fun g' s' r =>
      match r with
      | .ok a => Q g' s' (.ok a)
      | .error e => (h e).Meets M Q g' s') g s := by
  change ((p s).bind _).Meets M _ g ↔ (p s).Meets M _ g
  rw [Prog.meets_bind]
  constructor <;> intro h <;> refine Prog.Meets.mono h ?_ <;> rintro g' ⟨r | r, s'⟩ h <;> exact h

/-- What the first part of a sequence ends in has to start the second part, or be the end. -/
theorem Meets.bind {f : α → Routine S σ ε β} {R : G → σ → Except ε β → Prop}
    (h : p.Meets M Q g s) (ok : ∀ g' s' a, Q g' s' (.ok a) → (f a).Meets M R g' s')
    (error : ∀ g' s' e, Q g' s' (.error e) → R g' s' (.error e)) : (p >>= f).Meets M R g s := by
  rw [meets_bind]
  refine h.mono ?_
  rintro g' s' (e | a) hq
  · exact error g' s' e hq
  · exact ok g' s' a hq

/-- A first part that only looks around leaves the second part to itself. -/
theorem Meets.looks {f : α → Routine S σ ε β} {R : G → σ → Except ε β → Prop}
    (h : p.Meets M (fun g' s' r => s' = s ∧ g' = g ∧ ∃ a, r = .ok a) g s)
    (hf : ∀ a, (f a).Meets M R g s) : (p >>= f).Meets M R g s := by
  refine h.bind ?_ ?_
  · rintro g' s' a ⟨rfl, rfl, -⟩
    exact hf a
  · rintro g' s' e ⟨-, -, a, ha⟩
    cases ha

theorem Meets.tryCatch {f : ε → Routine S σ ε α} (h : p.Meets M Q g s)
    (ok : ∀ g' s' a, Q g' s' (.ok a) → Q' g' s' (.ok a))
    (error : ∀ g' s' e, Q g' s' (.error e) → (f e).Meets M Q' g' s') :
    (MonadExcept.tryCatch p f).Meets M Q' g s := by
  refine meets_tryCatch.mpr (h.mono ?_)
  rintro g' s' (e | a) hq
  · exact error g' s' e hq
  · exact ok g' s' a hq

@[simp] theorem meets_ite {c : Prop} [Decidable c] {q : Routine S σ ε α} :
    (if c then p else q).Meets M Q g s ↔ if c then p.Meets M Q g s else q.Meets M Q g s := by
  split <;> rfl

@[simp] theorem meets_ask {o : S.Op} {Q : G → σ → Except ε (S.Res o) → Prop} :
    (ask o : Routine S σ ε (S.Res o)).Meets M Q g s ↔
      M.permits g o ∧ ∀ r, M.assumes g o r → Q (M.next g o r) s (.ok r) := Iff.rfl

@[simp] theorem meets_attempt {o : S.Op} {f : S.Res o → Except ε α} :
    (attempt o f : Routine S σ ε α).Meets M Q g s ↔
      M.permits g o ∧ ∀ r, M.assumes g o r → Q (M.next g o r) s (f r) := Iff.rfl

@[simp] theorem meets_own {Q : G → σ → Except ε σ → Prop} :
    (own : Routine S σ ε σ).Meets M Q g s ↔ Q g s (.ok s) := Iff.rfl

@[simp] theorem meets_update {f : σ → σ} {Q : G → σ → Except ε Unit → Prop} :
    (update f : Routine S σ ε Unit).Meets M Q g s ↔ Q g (f s) (.ok ()) := Iff.rfl

@[simp] theorem meets_lift {r : Except ε α} :
    (lift r : Routine S σ ε α).Meets M Q g s ↔ Q g s r := by
  cases r <;> exact Iff.rfl

end Routine

end Interaction
