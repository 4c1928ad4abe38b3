import Mathlib.Data.List.Sort

/-! Tables with a primary key, and the statements that select, insert and update their rows. -/
namespace Relational

variable {κ ρ : Type}

/-- A table: finitely many rows, each found by its key. -/
structure Table (κ ρ : Type) where
  keys : List κ
  row : κ → Option ρ
  mem_keys : ∀ k, k ∈ keys ↔ (row k).isSome

namespace Table

def empty : Table κ ρ where
  keys := []
  row := fun _ => none
  mem_keys := by simp

/-- The rows that satisfy a condition, in the order they were inserted. -/
def select (T : Table κ ρ) (p : κ → ρ → Bool) : List (κ × ρ) :=
  T.keys.reverse.filterMap fun k => (T.row k).bind fun r => if p k r then some (k, r) else none

def find (T : Table κ ρ) (p : κ → ρ → Bool) : Option (κ × ρ) := (T.select p).head?

/-- The least row that satisfies a condition. -/
def first (T : Table κ ρ) (p : κ → ρ → Bool) (le : κ × ρ → κ × ρ → Bool) : Option (κ × ρ) :=
  ((T.select p).insertionSort fun a b => le a b = true).head?

def any (T : Table κ ρ) (p : κ → ρ → Bool) : Bool := (T.find p).isSome

def insert [DecidableEq κ] (T : Table κ ρ) (k : κ) (r : ρ) : Table κ ρ where
  keys := k :: T.keys
  row := fun i => if i = k then some r else T.row i
  mem_keys := by
    intro i
    by_cases h : i = k <;> simp [h, T.mem_keys]

/-- Change every row that satisfies a condition. -/
def update (T : Table κ ρ) (p : κ → ρ → Bool) (f : ρ → ρ) : Table κ ρ where
  keys := T.keys
  row := fun k => (T.row k).map fun r => if p k r then f r else r
  mem_keys := by simp [T.mem_keys]

/-- Overwrite the row with a given key. -/
def set [DecidableEq κ] (T : Table κ ρ) (k : κ) (r : ρ) : Table κ ρ :=
  T.update (fun i _ => i = k) fun _ => r

variable {T : Table κ ρ} {p : κ → ρ → Bool} {le : κ × ρ → κ × ρ → Bool} {k i : κ} {r : ρ}

@[simp] theorem row_empty : (empty : Table κ ρ).row k = none := rfl

theorem mem_select : (k, r) ∈ T.select p ↔ T.row k = some r ∧ p k r = true := by
  simp only [select, List.mem_filterMap, List.mem_reverse]
  constructor
  · rintro ⟨i, -, hi⟩
    cases hr : T.row i with
    | none => simp [hr] at hi
    | some r' =>
      by_cases hp : p i r' = true
      · simp only [hr, Option.bind_some, hp, if_true, Option.some.injEq, Prod.mk.injEq] at hi
        obtain ⟨rfl, rfl⟩ := hi
        exact ⟨hr, hp⟩
      · simp [hr, hp] at hi
  · rintro ⟨hr, hp⟩
    exact ⟨k, (T.mem_keys k).mpr (by simp [hr]), by simp [hr, hp]⟩

theorem find_eq_some (h : T.find p = some (k, r)) : T.row k = some r ∧ p k r = true :=
  mem_select.mp (List.mem_of_mem_head? h)

theorem find_eq_none : T.find p = none ↔ ∀ k r, T.row k = some r → p k r = false := by
  rw [find, List.head?_eq_none_iff, List.eq_nil_iff_forall_not_mem]
  constructor
  · intro h k r hr
    have := mt mem_select.mpr (h (k, r))
    simp_all
  · rintro h ⟨k, r⟩ hm
    obtain ⟨hr, hp⟩ := mem_select.mp hm
    simp [h k r hr] at hp

theorem first_eq_some (h : T.first p le = some (k, r)) : T.row k = some r ∧ p k r = true :=
  mem_select.mp ((List.perm_insertionSort _ _).mem_iff.mp (List.mem_of_mem_head? h))

/-- The least row exists as soon as some row satisfies the condition. -/
theorem first_isSome (hr : T.row k = some r) (hp : p k r = true) : (T.first p le).isSome := by
  have hm : (k, r) ∈ (T.select p).insertionSort fun a b => le a b = true :=
    (List.perm_insertionSort _ _).mem_iff.mpr (mem_select.mpr ⟨hr, hp⟩)
  unfold first
  cases hs : (T.select p).insertionSort fun a b => le a b = true with
  | nil => simp [hs] at hm
  | cons a l => rfl

theorem any_eq_true : T.any p = true ↔ ∃ k r, T.row k = some r ∧ p k r = true := by
  cases h : T.find p with
  | none =>
    rw [find_eq_none] at h
    simp only [any, find_eq_none.mpr h, Option.isSome_none, Bool.false_eq_true, false_iff]
    rintro ⟨k, r, hr, hp⟩
    simp [h k r hr] at hp
  | some e =>
    simp only [any, h, Option.isSome_some, true_iff]
    exact ⟨e.1, e.2, find_eq_some h⟩

theorem any_eq_false : T.any p = false ↔ ∀ k r, T.row k = some r → p k r = false := by
  rw [← find_eq_none, any]
  cases T.find p <;> simp

@[simp] theorem row_update (f : ρ → ρ) :
    (T.update p f).row k = (T.row k).map fun r => if p k r then f r else r := rfl

variable [DecidableEq κ]

@[simp] theorem row_insert_self : (T.insert k r).row k = some r := by simp [insert]

theorem row_insert_ne (h : i ≠ k) : (T.insert k r).row i = T.row i := by simp [insert, h]

theorem row_insert : (T.insert k r).row i = if i = k then some r else T.row i := rfl

theorem row_set_self (h : (T.row k).isSome) : (T.set k r).row k = some r := by
  obtain ⟨r', hr'⟩ := Option.isSome_iff_exists.mp h
  simp [set, hr']

theorem row_set_ne (h : i ≠ k) : (T.set k r).row i = T.row i := by simp [set, h]

end Table

end Relational
