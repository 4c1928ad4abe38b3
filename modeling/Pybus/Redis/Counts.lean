import Pybus.Redis.Tracking

/-! What a command does to the numbers of entries and of indexed claims of a payload. -/
namespace Pybus.Redis

open Interaction Relational

variable {Bytes : Type} [DecidableEq Bytes] [Sha1 Bytes]

namespace Server

/-- The copies of a payload that wait in a channel. -/
def waiting (s : Server Bytes) (c : String) (p : Bytes) : Nat := (s.keys c).waiting.count p

/-- The copies of a payload that a command pushes. -/
def pushing (c : String) (p : Bytes) : Command Bytes → Nat
  | .lpush c' q => if c' = c ∧ q = p then 1 else 0
  | _ => 0

/-- The copies of a payload that a command moves into the processing list. -/
def moving (s : Server Bytes) (c : String) (p : Bytes) : Command Bytes → Nat
  | .move c' => if c' = c ∧ (s.keys c).waiting.getLast? = some p then 1 else 0
  | _ => 0

/-- The copies of a payload that a command takes out of the processing list. -/
def removing (s : Server Bytes) (c : String) (p : Bytes) : Command Bytes → Nat
  | .settle c' _ q => if c' = c ∧ q = p ∧ 0 < s.copies c p then 1 else 0
  | _ => 0

/-- The indexed claims of a payload that a command takes away. -/
def dropping (s : Server Bytes) (c : String) (p : Bytes) : Command Bytes → Nat
  | .discard c' i | .settle c' i _ | .zrem c' i =>
    if c' = c ∧ s.claimed c i = some p ∧ s.inIndex c i = true then 1 else 0
  | _ => 0

variable {s : Server Bytes} {o : Command Bytes} {t : Instant} {c i : String} {p q : Bytes}

theorem waiting_apply : (s.apply o t).waiting c p + s.moving c p o = s.waiting c p + pushing c p o := by
  unfold waiting
  rw [keys_apply]
  by_cases h : o.channel = c
  · subst h
    cases o <;> simp only [Command.channel, if_true, Keys.exec, moving, pushing, true_and, Nat.add_zero]
    case lpush c q => simp [List.count_cons]
    case move c =>
      cases hl : (s.keys c).waiting.getLast? with
      | none => simp
      | some q =>
        have hsplit : (s.keys c).waiting = (s.keys c).waiting.dropLast ++ [q] :=
          (List.dropLast_append_getLast? q hl).symm
        have hcount := congrArg (List.count p) hsplit
        simp only [List.count_append, List.count_singleton, beq_iff_eq] at hcount
        simp only [Option.some.injEq]
        omega
    case hsetnx => split <;> rfl
  · cases o <;> simp_all [Command.channel, moving, pushing]

theorem copies_apply : (s.apply o t).copies c p + s.removing c p o = s.copies c p + s.moving c p o := by
  unfold copies
  rw [keys_apply]
  by_cases h : o.channel = c
  · subst h
    cases o <;> simp only [Command.channel, if_true, Keys.exec, moving, removing, true_and,
      Nat.add_zero, Keys.copies, copies]
    case move c =>
      cases hl : (s.keys c).waiting.getLast? with
      | none => simp
      | some q => simp [List.count_cons]
    case settle c i q =>
      by_cases hq : q = p
      · subst hq
        simp only [true_and, List.count_erase_self]
        split <;> omega
      · simp [hq, List.count_erase_of_ne (Ne.symm hq)]
    case hsetnx => split <;> rfl
  · cases o <;> simp_all [Command.channel, moving, removing]

omit [Sha1 Bytes] in
/-- A claim that loses its payload or its place in the index is no longer counted. -/
theorem both_dropping {claims : Hash String (ClaimRecord Bytes)} {index : Hash String Instant}
    (hclaims : ∀ j, j ≠ i → claims.lookup j = (s.keys c).claims.lookup j)
    (hindex : ∀ j, j ≠ i → index.lookup j = (s.keys c).index.lookup j)
    (hgone : claims.lookup i = none ∨ index.lookup i = none) :
    claims.both index (fun r => r.payload = p) +
      (if s.claimed c i = some p ∧ s.inIndex c i = true then 1 else 0) =
      (s.keys c).claims.both (s.keys c).index fun r => r.payload = p := by
  have hdrop := Hash.both_drop (p := fun r : ClaimRecord Bytes => r.payload = p) hclaims hindex hgone
  have hiff : (((s.keys c).claims.lookup i).any (fun r => r.payload = p) &&
      ((s.keys c).index.lookup i).isSome) = true ↔ s.claimed c i = some p ∧ s.inIndex c i = true := by
    cases hr : (s.keys c).claims.lookup i <;> simp [claimed, inIndex, hr]
  simpa only [hiff] using hdrop

/-- A new claim is counted for its payload, and one that loses its place no longer. -/
theorem indexed_apply (hfresh : ∀ c i p u, o = .record c i p u → s.claimed c i = none) :
    (s.apply o t).indexed c p + s.dropping c p o = s.indexed c p + (isRecord c p o).toNat := by
  unfold indexed
  rw [keys_apply]
  by_cases h : o.channel = c
  · subst h
    cases o <;> simp only [Command.channel, if_true, Keys.exec, dropping, isRecord, true_and,
      Nat.add_zero, Bool.toNat_false, Keys.indexed]
    case record c i q u =>
      have hnone : (s.keys c).claims.lookup i = none := by
        simpa [claimed] using hfresh c i q u rfl
      rw [Hash.both_insert hnone]
      by_cases hq : q = p <;> simp [hq]
    case discard c i =>
      exact both_dropping (fun j hj => AList.lookup_erase_ne hj) (fun _ _ => rfl)
        (.inl (AList.lookup_erase ..))
    case settle c i q =>
      exact both_dropping (fun j hj => AList.lookup_erase_ne hj)
        (fun j hj => AList.lookup_erase_ne hj) (.inl (AList.lookup_erase ..))
    case zrem c i =>
      exact both_dropping (fun _ _ => rfl) (fun j hj => AList.lookup_erase_ne hj)
        (.inr (AList.lookup_erase ..))
    case move => split <;> rfl
    case hsetnx => split <;> rfl
  · cases o <;> simp_all [Command.channel, dropping, isRecord]

theorem pushes_apply : (s.apply o t).pushes c p = s.pushes c p + pushing c p o := by
  simp only [pushes, apply, List.count_append, List.count_singleton]
  cases o <;> simp [pushing]

theorem settlements_apply :
    (s.apply o t).settlements c p = s.settlements c p + (isSettle c p o).toNat := by
  simp only [settlements, apply, List.countP_append, List.countP_singleton]
  cases isSettle c p o <;> rfl

omit [Sha1 Bytes] in
/-- A settlement takes a copy out of the processing list if there is one. -/
theorem removing_of_copies (h : 0 < s.copies c p) : s.removing c p o = (isSettle c p o).toNat := by
  cases o with
  | settle c' i q => by_cases he : c' = c <;> by_cases hq : q = p <;> simp [removing, isSettle, he, hq, h]
  | _ => rfl

end Server

end Pybus.Redis
