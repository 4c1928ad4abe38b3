import Mathlib.Data.List.Nodup
import Mathlib.Logic.Basic

/-! Dictionaries that keep the order in which their keys were entered, and objects whose methods
may raise. -/

abbrev Dictionary (κ ρ : Type) : Type := List (κ × ρ)

namespace Dictionary

variable {κ ρ : Type} [BEq κ]

/-- `d[k] = r`: a key that is there keeps its place. -/
def put : Dictionary κ ρ → κ → ρ → Dictionary κ ρ
  | [], k, r => [(k, r)]
  | (l, r') :: d, k, r => if l == k then (l, r) :: d else (l, r') :: put d k r

/-- `d.setdefault(k, r)`. -/
def setdefault (d : Dictionary κ ρ) (k : κ) (r : ρ) : Dictionary κ ρ :=
  if (d.lookup k).isSome then d else d ++ [(k, r)]

variable [DecidableEq κ] [LawfulBEq κ] {d : Dictionary κ ρ} {k l : κ} {r : ρ}

theorem lookup_cons_eq {j : κ} {r' : ρ} :
    List.lookup l ((j, r') :: d) = if l = j then some r' else d.lookup l := by
  rw [List.lookup_cons]
  by_cases hl : l = j
  · simp [hl]
  · have hne : (l == j) = false := by simpa using hl
    rw [hne, if_neg hl]

theorem lookup_put : (put d k r).lookup l = if l = k then some r else d.lookup l := by
  induction d with
  | nil => exact lookup_cons_eq
  | cons entry d ih =>
    obtain ⟨j, r'⟩ := entry
    unfold put
    by_cases hjk : j = k
    · subst hjk
      rw [if_pos (by simp), lookup_cons_eq, lookup_cons_eq]
      by_cases hl : l = j <;> simp [hl]
    · rw [if_neg (by simpa using hjk), lookup_cons_eq, lookup_cons_eq, ih]
      by_cases hl : l = j
      · subst hl
        simp [hjk]
      · simp [hl]

omit [DecidableEq κ] in
/-- Entering what is there already changes nothing. -/
theorem put_of_lookup (h : d.lookup k = some r) : put d k r = d := by
  induction d with
  | nil => cases h
  | cons entry d ih =>
    obtain ⟨j, r'⟩ := entry
    unfold put
    by_cases hjk : j = k
    · subst hjk
      rw [List.lookup_cons_self, Option.some.injEq] at h
      rw [if_pos (by simp), h]
    · have hne : (k == j) = false := by simpa using Ne.symm hjk
      rw [List.lookup_cons, hne] at h
      rw [if_neg (by simpa using hjk), ih h]

omit [DecidableEq κ] [LawfulBEq κ] in
theorem setdefault_of_lookup (h : d.lookup k = some r) {r' : ρ} : setdefault d k r' = d := by
  simp [setdefault, h]

theorem lookup_setdefault :
    (setdefault d k r).lookup l = if l = k then some ((d.lookup k).getD r) else d.lookup l := by
  unfold setdefault
  cases hk : d.lookup k with
  | some r' =>
    by_cases hl : l = k
    · subst hl
      simp [hk]
    · simp [hl]
  | none =>
    rw [if_neg (by simp), List.lookup_append, lookup_cons_eq]
    by_cases hl : l = k
    · subst hl
      simp [hk]
    · simp [hl]

omit [DecidableEq κ] in
/-- An entry whose key is entered once is what a lookup finds. -/
theorem lookup_of_mem (h : (d.map (·.1)).Nodup) (hmem : (k, r) ∈ d) : d.lookup k = some r := by
  obtain ⟨d₁, d₂, rfl⟩ := List.append_of_mem hmem
  rw [List.map_append, List.map_cons] at h
  refine List.lookup_eq_some_iff.mpr ⟨d₁, d₂, rfl, fun entry hentry => ?_⟩
  have := (List.nodup_append.mp h).2.2 _ (List.mem_map_of_mem hentry) _ List.mem_cons_self
  simpa using Ne.symm this

omit [DecidableEq κ] [LawfulBEq κ] in
/-- Mapping what is entered maps what a lookup finds. -/
theorem lookup_map_snd {ρ' : Type} {f : ρ → ρ'} :
    (d.map fun entry => (entry.1, f entry.2)).lookup k = (d.lookup k).map f := by
  induction d with
  | nil => rfl
  | cons entry d ih =>
    rw [List.map_cons, List.lookup_cons, List.lookup_cons, ih]
    split <;> rfl

/-- Writing under a key enters that key at most once. -/
theorem nodup_put (h : (d.map (·.1)).Nodup) : ((put d k r).map (·.1)).Nodup := by
  have hkeys : (put d k r).map (·.1) = d.map (·.1) ∨
      k ∉ d.map (·.1) ∧ (put d k r).map (·.1) = d.map (·.1) ++ [k] := by
    clear h
    induction d with
    | nil => exact .inr ⟨by simp, rfl⟩
    | cons entry d ih =>
      obtain ⟨j, r'⟩ := entry
      unfold put
      by_cases hjk : j = k
      · rw [if_pos (by simpa using hjk)]
        exact .inl rfl
      · rw [if_neg (by simpa using hjk), List.map_cons, List.map_cons]
        rcases ih with ih | ⟨hk, ih⟩
        · exact .inl (by rw [ih])
        · refine .inr ⟨?_, by rw [ih, List.cons_append]⟩
          rw [List.mem_cons, not_or]
          exact ⟨Ne.symm hjk, hk⟩
  rcases hkeys with hkeys | ⟨hk, hkeys⟩
  · rwa [hkeys]
  · rw [hkeys]
    exact List.nodup_append.mpr ⟨h, List.nodup_singleton k, by
      intro l hl j hj
      rw [List.mem_singleton] at hj
      subst hj
      rintro rfl
      exact hk hl⟩

omit [DecidableEq κ] in
theorem nodup_setdefault (h : (d.map (·.1)).Nodup) : ((setdefault d k r).map (·.1)).Nodup := by
  unfold setdefault
  split
  · exact h
  · rename_i hnone
    have hk : k ∉ d.map (·.1) := by
      intro hk
      obtain ⟨entry, hentry, rfl⟩ := List.mem_map.mp hk
      have := List.lookup_eq_none_iff.mp (Option.not_isSome_iff_eq_none.mp hnone) entry hentry
      simp at this
    rw [List.map_append]
    refine List.nodup_append.mpr ⟨h, List.nodup_singleton k, ?_⟩
    intro l hl j hj
    rw [List.map_singleton, List.mem_singleton] at hj
    subst hj
    rintro rfl
    exact hk hl

end Dictionary

namespace Methods

variable {ε σ α κ : Type} {m : κ → EStateM ε σ α} {s : σ} {cs cs' : List κ}

/-- The state that a call leaves, whether it returns or raises. -/
def left : EStateM.Result ε σ α → σ
  | .ok _ s | .error _ s => s

/-- The state after some calls. -/
def after (m : κ → EStateM ε σ α) (s : σ) (cs : List κ) : σ := cs.foldl (fun s c => left (m c s)) s

/-- The calls that return, oldest first. -/
def accepted (m : κ → EStateM ε σ α) : σ → List κ → List κ
  | _, [] => []
  | s, c :: cs =>
    match m c s with
    | .ok _ s' => c :: accepted m s' cs
    | .error _ s' => accepted m s' cs

/-- A call that raises leaves the object as it is. -/
def Atomic (p : EStateM ε σ α) : Prop := ∀ s e s', p s = .error e s' → s' = s

/-- A part that returns hands its value to the rest. -/
theorem bind_of_ok {β : Type} {p : EStateM ε σ α} {f : α → EStateM ε σ β} {s' : σ} {a : α}
    (h : p s = .ok a s') : (p >>= f) s = f a s' := by
  change EStateM.bind p f s = f a s'
  unfold EStateM.bind
  rw [h]

theorem bind_of_error {β : Type} {p : EStateM ε σ α} {f : α → EStateM ε σ β} {s' : σ} {e : ε}
    (h : p s = .error e s') : (p >>= f) s = .error e s' := by
  change EStateM.bind p f s = .error e s'
  unfold EStateM.bind
  rw [h]

theorem get_bind {β : Type} {f : σ → EStateM ε σ β} : (get >>= f) s = f s s := rfl

theorem after_append : after m s (cs ++ cs') = after m (after m s cs) cs' := List.foldl_append

theorem after_invariant {I : σ → Prop} (h : ∀ c s, I s → I (left (m c s))) (hs : I s) :
    I (after m s cs) := by
  induction cs generalizing s with
  | nil => exact hs
  | cons c cs ih => exact ih (h c s hs)

/-- An assertion about an object and the calls that it has accepted. -/
theorem accepted_invariant {I : List κ → σ → Prop}
    (ok : ∀ l c s a s', I l s → m c s = .ok a s' → I (l ++ [c]) s')
    (error : ∀ l c s e s', I l s → m c s = .error e s' → I l s') (hs : I [] s) :
    I (accepted m s cs) (after m s cs) := by
  have hrun : ∀ l, I l s → I (l ++ accepted m s cs) (after m s cs) := by
    clear hs
    induction cs generalizing s with
    | nil =>
      intro l hl
      rw [accepted, List.append_nil]
      exact hl
    | cons c cs ih =>
      intro l hl
      change I (l ++ accepted m s (c :: cs)) (after m (left (m c s)) cs)
      unfold accepted
      cases hc : m c s with
      | ok a s' =>
        have hnext := ih _ (ok l c s a s' hl hc)
        rw [List.append_assoc] at hnext
        exact hnext
      | error e s' => exact ih l (error l c s e s' hl hc)
  exact hrun [] hs

section Batches

variable {batches batches' : List (List κ)}

/-- Calls one after the other, to the first that raises. -/
def inOrder (m : κ → EStateM ε σ α) : List κ → EStateM ε σ (List α)
  | [] => return []
  | c :: cs => do
    let a ← m c
    let as ← inOrder m cs
    return a :: as

/-- Those calls, each with the object as it finds it. -/
def found (m : κ → EStateM ε σ α) : σ → List κ → List (σ × κ)
  | _, [] => []
  | s, c :: cs => (s, c) ::
    match m c s with
    | .ok _ s' => found m s' cs
    | .error _ _ => []

/-- The calls of several batches; one that raises ends its batch only. -/
def foundAll (m : κ → EStateM ε σ α) : σ → List (List κ) → List (σ × κ)
  | _, [] => []
  | s, cs :: batches => found m s cs ++ foundAll m (left (inOrder m cs s)) batches

theorem foundAll_append : foundAll m s (batches ++ batches') =
    foundAll m s batches ++ foundAll m (after (inOrder m) s batches) batches' := by
  induction batches generalizing s with
  | nil => rfl
  | cons cs batches ih =>
    rw [List.cons_append, foundAll, foundAll, ih, List.append_assoc]
    rfl

theorem left_inOrder_cons {c : κ} : left (inOrder m (c :: cs) s) =
    match m c s with
    | .ok _ s' => left (inOrder m cs s')
    | .error _ s' => s' := by
  change left ((m c >>= fun a => inOrder m cs >>= fun as => pure (a :: as)) s) = _
  cases hc : m c s with
  | error e s' =>
    rw [bind_of_error hc]
    rfl
  | ok a s' =>
    rw [bind_of_ok hc]
    cases hrest : inOrder m cs s' with
    | ok as s'' =>
      rw [bind_of_ok hrest]
      change s'' = left (inOrder m cs s')
      rw [hrest]
      rfl
    | error e s'' =>
      rw [bind_of_error hrest]
      change s'' = left (inOrder m cs s')
      rw [hrest]
      rfl

theorem inOrder_append : inOrder m (cs ++ cs') = do
    let as ← inOrder m cs
    let as' ← inOrder m cs'
    return as ++ as' := by
  induction cs with
  | nil => simp [inOrder]
  | cons c cs ih => simp [inOrder, ih]

variable {I : σ → Prop} {Bad : σ → κ → Prop}

/-- What every call but a bad one keeps, and a bad one loses for good, tells of bad calls. -/
theorem inOrder_iff (step : ∀ s c, I (left (m c s)) ↔ I s ∧ ¬ Bad s c) :
    I (left (inOrder m cs s)) ↔ I s ∧ ∀ p ∈ found m s cs, ¬ Bad p.1 p.2 := by
  induction cs generalizing s with
  | nil =>
    change I s ↔ _
    simp [found]
  | cons c cs ih =>
    have hc := step s c
    rw [left_inOrder_cons, found, List.forall_mem_cons]
    cases hr : m c s with
    | error e s' =>
      rw [hr] at hc
      change I s' ↔ I s ∧ ¬ Bad s c ∧ _
      rw [show I s' ↔ I s ∧ ¬ Bad s c from hc]
      simp
    | ok a s' =>
      rw [hr] at hc
      change I (left (inOrder m cs s')) ↔ _
      rw [ih, show I s' ↔ I s ∧ ¬ Bad s c from hc, and_assoc]

theorem batches_iff (step : ∀ s c, I (left (m c s)) ↔ I s ∧ ¬ Bad s c) :
    I (after (inOrder m) s batches) ↔ I s ∧ ∀ p ∈ foundAll m s batches, ¬ Bad p.1 p.2 := by
  induction batches generalizing s with
  | nil =>
    change I s ↔ _
    simp [foundAll]
  | cons cs batches ih =>
    change I (after (inOrder m) (left (inOrder m cs s)) batches) ↔ _
    rw [ih, inOrder_iff step, foundAll, List.forall_mem_append, and_assoc]

end Batches

end Methods
