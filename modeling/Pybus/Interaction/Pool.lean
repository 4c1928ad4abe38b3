import Pybus.Interaction.Paths
import Pybus.Interaction.Program

/-! Pools of programs that run side by side over one shared state, one call at a time. A thread
that is never moved again has crashed, so every run of a pool is also one with crashes. -/
namespace Interaction

variable {S : Signature} {σ α G : Type}

/-- A running program with the calls it has made, oldest first. -/
structure Thread (S : Signature) (α : Type) where
  log : List (Event S)
  rest : Prog S α

structure Pool (S : Signature) (σ α : Type) where
  shared : σ
  threads : List (Thread S α)

/-- The surroundings of a pool: which programs may be started and how the shared state answers
a call. -/
structure World (S : Signature) (σ α : Type) where
  starts : σ → Prog S α → Prop
  answers : σ → (o : S.Op) → S.Res o → σ → Prop

inductive Move (S : Signature) (α : Type)
  | start (p : Prog S α)
  | call (i : Nat) (e : Event S)

/-- One move of the pool: a new thread, or the next call of a thread already there. -/
inductive World.Step (W : World S σ α) : Pool S σ α → Move S α → Pool S σ α → Prop
  | start {P : Pool S σ α} {p : Prog S α} :
      W.starts P.shared p → W.Step P (.start p) ⟨P.shared, P.threads ++ [⟨[], p⟩]⟩
  | call {P : Pool S σ α} {i : Nat} {log : List (Event S)} {o : S.Op} {k : S.Res o → Prog S α}
      {r : S.Res o} {s' : σ} :
      P.threads[i]? = some ⟨log, .call o k⟩ → W.answers P.shared o r s' →
      W.Step P (.call i ⟨o, r⟩) ⟨s', P.threads.set i ⟨log ++ [⟨o, r⟩], k r⟩⟩

def World.Start (s : σ) (P : Pool S σ α) : Prop := P.shared = s ∧ P.threads = []

variable {W : World S σ α} {P P' : Pool S σ α} {m : Move S α} {i j : Nat} {T T' : Thread S α}

/-- A thread after a move was there before, has just been started, or made the move. -/
theorem World.Step.thread (h : W.Step P m P') (hj : P'.threads[j]? = some T') :
    P.threads[j]? = some T' ∨
    (∃ p, m = .start p ∧ W.starts P.shared p ∧ T' = ⟨[], p⟩ ∧ P.threads[j]? = none) ∨
    (∃ log o k r, m = .call j ⟨o, r⟩ ∧ P.threads[j]? = some ⟨log, .call o k⟩ ∧
      W.answers P.shared o r P'.shared ∧ T' = ⟨log ++ [⟨o, r⟩], k r⟩) := by
  cases h with
  | @start p hp =>
    by_cases hlt : j < P.threads.length
    · left
      simpa [List.getElem?_append_left hlt] using hj
    · right; left
      have hnone : P.threads[j]? = none := List.getElem?_eq_none (by omega)
      rw [List.getElem?_append_right (by omega)] at hj
      rw [List.getElem?_singleton] at hj
      split at hj
      · exact ⟨p, rfl, hp, by simpa using hj.symm, hnone⟩
      · cases hj
  | @call i log o k r s' hi ha =>
    by_cases hij : i = j
    · subst hij
      right; right
      have hlt := (List.getElem?_eq_some_iff.mp hi).1
      rw [List.getElem?_set_self hlt] at hj
      exact ⟨log, o, k, r, rfl, hi, ha, by simpa using hj.symm⟩
    · left
      simpa [List.getElem?_set_ne hij] using hj

/-- A move leaves the shared state alone or answers one call of one thread. -/
theorem World.Step.shared (h : W.Step P m P') :
    (∃ p, m = .start p ∧ P'.shared = P.shared) ∨
    (∃ i log o k r, m = .call i ⟨o, r⟩ ∧ P.threads[i]? = some ⟨log, .call o k⟩ ∧
      W.answers P.shared o r P'.shared) := by
  cases h with
  | @start p hp => exact Or.inl ⟨p, rfl, rfl⟩
  | @call i log o k r s' hi ha => exact Or.inr ⟨i, log, o, k, r, rfl, hi, ha⟩

/-- What a move that makes a call does. -/
theorem World.Step.called {o : S.Op} {r : S.Res o} (h : W.Step P (.call i ⟨o, r⟩) P') :
    ∃ log k, P.threads[i]? = some ⟨log, .call o k⟩ ∧ W.answers P.shared o r P'.shared ∧
      P'.threads[i]? = some ⟨log ++ [⟨o, r⟩], k r⟩ := by
  cases h with
  | call hi ha =>
    have hlt := (List.getElem?_eq_some_iff.mp hi).1
    exact ⟨_, _, hi, ha, List.getElem?_set_self hlt⟩

namespace Pool

/-- Let one thread make its next call, answered by a function. -/
def turn (P : Pool S σ α) (i : Nat) (answer : σ → (o : S.Op) → S.Res o × σ) : Pool S σ α :=
  match P.threads[i]? with
  | some ⟨log, .call o k⟩ =>
    ⟨(answer P.shared o).2,
      P.threads.set i ⟨log ++ [⟨o, (answer P.shared o).1⟩], k (answer P.shared o).1⟩⟩
  | _ => P

/-- Let threads take turns. -/
def turns (P : Pool S σ α) (is : List Nat) (answer : σ → (o : S.Op) → S.Res o × σ) : Pool S σ α :=
  is.foldl (fun P i => P.turn i answer) P

def begin (P : Pool S σ α) (p : Prog S α) : Pool S σ α := ⟨P.shared, P.threads ++ [⟨[], p⟩]⟩

end Pool

section Schedules

variable {W : World S σ α} {P : Pool S σ α} {start : Pool S σ α → Prop}
  {answer : σ → (o : S.Op) → S.Res o × σ}

/-- A turn of a thread that has a call to make is that call. -/
theorem Pool.turn_call {i : Nat} (ha : ∀ s o, W.answers s o (answer s o).1 (answer s o).2)
    {log : List (Event S)} {o : S.Op} {k : S.Res o → Prog S α}
    (hi : P.threads[i]? = some ⟨log, .call o k⟩) :
    W.Step P (.call i ⟨o, (answer P.shared o).1⟩) (P.turn i answer) := by
  simp only [Pool.turn, hi]
  exact .call hi (ha P.shared o)

/-- A turn is one move, if the thread has a call to make. -/
theorem Pool.turn_step {i : Nat} (ha : ∀ s o, W.answers s o (answer s o).1 (answer s o).2) :
    P.turn i answer = P ∨ ∃ m, W.Step P m (P.turn i answer) := by
  unfold Pool.turn
  split
  · rename_i log o k hi
    exact .inr ⟨_, .call hi (ha P.shared o)⟩
  · exact .inl rfl

theorem Pool.turns_path {is : List Nat}
    (ha : ∀ s o, W.answers s o (answer s o).1 (answer s o).2) :
    ∃ ms, Path W.Step P ms (P.turns is answer) := by
  induction is generalizing P with
  | nil => exact ⟨[], .refl P⟩
  | cons i is ih =>
    obtain ⟨ms, hms⟩ := ih (P := P.turn i answer)
    rcases Pool.turn_step (P := P) (i := i) ha with he | ⟨m, hm⟩
    · rw [he] at hms
      exact ⟨ms, by simpa [Pool.turns, he] using hms⟩
    · exact ⟨m :: ms, .head hm hms⟩

/-- A schedule whose answers the surroundings may give leads to a reachable pool. -/
theorem Reachable.turns (h : Reachable W.Step start P) {is : List Nat}
    (ha : ∀ s o, W.answers s o (answer s o).1 (answer s o).2) :
    Reachable W.Step start (P.turns is answer) := by
  obtain ⟨ms, hms⟩ := Pool.turns_path ha
  exact h.path hms

theorem Reachable.begin (h : Reachable W.Step start P) {p : Prog S α} (hp : W.starts P.shared p) :
    Reachable W.Step start (P.begin p) := h.snoc (.start hp)

end Schedules

/-- A monitor that follows every thread, and what each program started has to meet. -/
structure Watch (W : World S σ α) (G : Type) where
  monitor : Monitor S G
  begin : G
  ends : G → α → Prop
  starts : ∀ s p, W.starts s p → p.Meets monitor ends begin
  answers : ∀ s o r s', W.answers s o r s' → ∀ g, monitor.assumes g o r

namespace Watch

variable (V : Watch W G)

/-- What the monitor knows of a thread. -/
def ghost (T : Thread S α) : G := V.monitor.after V.begin T.log

/-- Every thread still meets the monitor. -/
def Follows (P : Pool S σ α) : Prop :=
  ∀ (i : Nat) T, P.threads[i]? = some T → T.rest.Meets V.monitor V.ends (V.ghost T)

variable {V}

theorem ghost_snoc {log : List (Event S)} {o : S.Op} {r : S.Res o} {p q : Prog S α} :
    V.ghost ⟨log ++ [⟨o, r⟩], q⟩ = V.monitor.next (V.ghost ⟨log, p⟩) o r := by
  simp [ghost, Monitor.after_append]

theorem follows_start {s : σ} (h : World.Start s P) : V.Follows P := by
  intro i T hi
  simp [h.2] at hi

theorem follows_step (h : W.Step P m P') (hf : V.Follows P) : V.Follows P' := by
  intro j T' hj
  obtain hj' | ⟨p, rfl, hp, rfl, -⟩ | ⟨log, o, k, r, rfl, hj', ha, rfl⟩ := h.thread hj
  · exact hf j T' hj'
  · exact V.starts _ p hp
  · rw [ghost_snoc (p := .call o k)]
    exact (hf j _ hj').2 r (V.answers _ _ _ _ ha _)

/-- The call a thread makes is one its monitor permits. -/
theorem Follows.permits (hf : V.Follows P) {log : List (Event S)} {o : S.Op}
    {k : S.Res o → Prog S α} (hi : P.threads[i]? = some ⟨log, .call o k⟩) :
    V.monitor.permits (V.ghost ⟨log, .call o k⟩) o := (hf i _ hi).1

/-- Assertions that the moves of a pool keep: `I` about the shared state, `K` about it and what
the monitor knows of one thread, `D` about what it knows of two. -/
structure Local (V : Watch W G) (I : σ → Prop) (K : σ → G → Prop) (D : G → G → Prop) : Prop where
  symm : ∀ g g', D g g' → D g' g
  start : ∀ s, I s → K s V.begin
  alone : ∀ g, D V.begin g
  shared : ∀ s o r s' g, I s → W.answers s o r s' → V.monitor.permits g o → K s g → I s'
  own : ∀ s o r s' g, I s → W.answers s o r s' → V.monitor.permits g o → K s g →
    K s' (V.monitor.next g o r)
  other : ∀ s o r s' g g', I s → W.answers s o r s' → V.monitor.permits g o → K s g → K s g' →
    D g g' → K s' g'
  apart : ∀ s o r s' g g', I s → W.answers s o r s' → V.monitor.permits g o → K s g → K s g' →
    D g g' → D (V.monitor.next g o r) g'

/-- The assertions hold of a pool whose threads all keep to the monitor. -/
structure Invariant (V : Watch W G) (I : σ → Prop) (K : σ → G → Prop) (D : G → G → Prop)
    (P : Pool S σ α) : Prop where
  follows : V.Follows P
  shared : I P.shared
  holds : ∀ (i : Nat) T, P.threads[i]? = some T → K P.shared (V.ghost T)
  distinct : ∀ (i j : Nat) T T', i ≠ j → P.threads[i]? = some T → P.threads[j]? = some T' →
    D (V.ghost T) (V.ghost T')

variable {I : σ → Prop} {K : σ → G → Prop} {D : G → G → Prop}

theorem invariant_start {s : σ} (h : World.Start s P) (hI : I s) : V.Invariant I K D P := by
  obtain ⟨rfl, ht⟩ := h
  refine ⟨follows_start ⟨rfl, ht⟩, hI, ?_, ?_⟩
  · intro i T hi
    simp [ht] at hi
  · intro i j T T' _ hi
    simp [ht] at hi

theorem shared_step (hL : V.Local I K D) (h : W.Step P m P') (hP : V.Invariant I K D P) :
    I P'.shared := by
  rcases h.shared with ⟨p, -, hs⟩ | ⟨i, log, o, k, r, -, hi, ha⟩
  · rw [hs]
    exact hP.shared
  · exact hL.shared _ _ _ _ _ hP.shared ha (hP.follows.permits hi) (hP.holds i _ hi)

theorem holds_step (hL : V.Local I K D) (h : W.Step P m P') (hP : V.Invariant I K D P) :
    ∀ (j : Nat) T, P'.threads[j]? = some T → K P'.shared (V.ghost T) := by
  intro j T' hj
  obtain hj' | ⟨p, rfl, hp, rfl, -⟩ | ⟨log, o, k, r, rfl, hj', ha, rfl⟩ := h.thread hj
  · cases h with
    | start _ => exact hP.holds j T' hj'
    | @call i log o k r s' hi ha =>
      by_cases hij : i = j
      · subst hij
        have hlt := (List.getElem?_eq_some_iff.mp hi).1
        rw [List.getElem?_set_self hlt] at hj
        cases hj
        rw [ghost_snoc (p := .call o k)]
        exact hL.own _ _ _ _ _ hP.shared ha (hP.follows.permits hi) (hP.holds i _ hi)
      · exact hL.other _ _ _ _ _ _ hP.shared ha (hP.follows.permits hi) (hP.holds i _ hi)
          (hP.holds j T' hj') (hP.distinct i j _ T' hij hi hj')
  · have hs : P'.shared = P.shared := by cases h; rfl
    rw [hs]
    exact hL.start _ hP.shared
  · rw [ghost_snoc (p := .call o k)]
    exact hL.own _ _ _ _ _ hP.shared ha (hP.follows.permits hj') (hP.holds j _ hj')

theorem distinct_step (hL : V.Local I K D) (h : W.Step P m P') (hP : V.Invariant I K D P) :
    ∀ (i j : Nat) T T', i ≠ j → P'.threads[i]? = some T → P'.threads[j]? = some T' →
      D (V.ghost T) (V.ghost T') := by
  intro i j T T' hij hi hj
  obtain hi' | ⟨p, rfl, hp, rfl, -⟩ | ⟨log, o, k, r, rfl, hi', ha, rfl⟩ := h.thread hi
  · obtain hj' | ⟨p, rfl, hp, rfl, -⟩ | ⟨log, o, k, r, rfl, hj', ha, rfl⟩ := h.thread hj
    · exact hP.distinct i j T T' hij hi' hj'
    · exact hL.symm _ _ (hL.alone _)
    · rw [ghost_snoc (p := .call o k)]
      exact hL.symm _ _ (hL.apart _ _ _ _ _ _ hP.shared ha (hP.follows.permits hj')
        (hP.holds j _ hj') (hP.holds i _ hi') (hP.distinct j i _ _ hij.symm hj' hi'))
  · exact hL.alone _
  · obtain hj' | ⟨p, hp, -⟩ | ⟨log', o', k', r', hm, -⟩ := h.thread hj
    · rw [ghost_snoc (p := .call o k)]
      exact hL.apart _ _ _ _ _ _ hP.shared ha (hP.follows.permits hi') (hP.holds i _ hi')
        (hP.holds j _ hj') (hP.distinct i j _ _ hij hi' hj')
    · cases hp
    · injection hm with he
      exact absurd he hij

theorem invariant_step (hL : V.Local I K D) (h : W.Step P m P') (hP : V.Invariant I K D P) :
    V.Invariant I K D P' :=
  ⟨follows_step h hP.follows, shared_step hL h hP, holds_step hL h hP, distinct_step hL h hP⟩

/-- What every move keeps holds of every pool that is reached. -/
theorem invariant_reachable {s : σ} (hL : V.Local I K D) (hI : I s)
    (h : Reachable W.Step (World.Start s) P) : V.Invariant I K D P :=
  h.invariant (fun _ hs => invariant_start hs hI) fun _ _ _ hs => invariant_step hL hs

variable (V) in
/-- How many threads satisfy a condition on what the monitor knows of them. -/
def count (f : G → Bool) (P : Pool S σ α) : Nat := P.threads.countP fun T => f (V.ghost T)

theorem le_count {f : G → Bool} (hi : P.threads[i]? = some T) :
    (f (V.ghost T)).toNat ≤ V.count f P := by
  cases hf : f (V.ghost T) with
  | false => exact Nat.zero_le _
  | true => exact List.countP_pos_iff.mpr ⟨T, List.mem_of_getElem? hi, hf⟩

/-- The call of a thread changes a count by what it changes for that thread. -/
theorem count_call {f : G → Bool} {i : Nat} {log : List (Event S)} {o : S.Op}
    {k : S.Res o → Prog S α} {r : S.Res o} {t : σ} (hi : P.threads[i]? = some ⟨log, .call o k⟩) :
    V.count f ⟨t, P.threads.set i ⟨log ++ [⟨o, r⟩], k r⟩⟩ + (f (V.ghost ⟨log, .call o k⟩)).toNat =
      V.count f P + (f (V.monitor.next (V.ghost ⟨log, .call o k⟩) o r)).toNat := by
  obtain ⟨hlt, hT⟩ := List.getElem?_eq_some_iff.mp hi
  have hset := List.countP_set (p := fun T => f (V.ghost T)) (a := ⟨log ++ [⟨o, r⟩], k r⟩) hlt
  have hpos : f (V.ghost ⟨log, .call o k⟩) = true → 0 < V.count f P := by
    intro hf
    have hle := V.le_count (f := f) hi
    rw [hf] at hle
    exact hle
  rw [hT, ghost_snoc (p := .call o k)] at hset
  change List.countP _ _ + _ = List.countP _ _ + _
  rw [hset]
  change _ → 0 < List.countP _ _ at hpos
  cases hf : f (V.ghost ⟨log, .call o k⟩) with
  | false =>
    cases f (V.monitor.next (V.ghost ⟨log, .call o k⟩) o r) <;> simp
  | true =>
    have := hpos hf
    cases f (V.monitor.next (V.ghost ⟨log, .call o k⟩) o r) <;> simp <;> omega

theorem count_start {f : G → Bool} {p : Prog S α} :
    V.count f ⟨P.shared, P.threads ++ [⟨[], p⟩]⟩ = V.count f P + (f V.begin).toNat := by
  have hp : V.ghost (⟨[], p⟩ : Thread S α) = V.begin := rfl
  simp only [count, List.countP_append, List.countP_singleton, hp]
  cases f V.begin <;> rfl

end Watch

end Interaction
