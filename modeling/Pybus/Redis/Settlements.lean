import Mathlib.Data.List.Dedup
import Pybus.Redis.Counts
import Pybus.Redis.Schedules

/-! Two calls on one receipt may both find its claim before either settles it, and the entry that the
second one takes out of the processing list belongs to another delivery of the same bytes. -/
namespace Pybus.Redis

open Interaction Relational RedisTransport

variable {Bytes : Type} [DecidableEq Bytes] [Sha1 Bytes]

namespace Server

/-- The entries that the calls on one receipt have taken out of the processing list. -/
def taken (s : Server Bytes) (c claimId : String) : Nat :=
  s.removed.countP fun x => x.1 = c && x.2.1 = claimId

/-- The entries of a payload that have been taken out of the processing list. -/
def removals (s : Server Bytes) (c : String) (p : Bytes) : Nat :=
  s.removed.countP fun x => x.1 = c && x.2.2 = p

/-- The claims of a payload of which some settlement has been carried out. -/
def settledClaims (s : Server Bytes) (c : String) (p : Bytes) : List String :=
  (s.history.filterMap fun
    | .settle c' claimId q => if c' = c ∧ q = p then some claimId else none
    | _ => none).dedup

/-- Every copy that was pushed waits, is in the processing list or has been taken out of it by a
settlement of its payload. -/
structure Accounted (s : Server Bytes) : Prop where
  conserved : ∀ c p, s.pushes c p = s.waiting c p + s.copies c p + s.removals c p
  settled : ∀ c i p, (c, i, p) ∈ s.removed → Command.settle c i p ∈ s.history

variable {s s' : Server Bytes} {o : Command Bytes} {t : Instant} {c i : String} {p q : Bytes}

theorem removals_apply : (s.apply o t).removals c p = s.removals c p + s.removing c p o := by
  cases o with
  | settle c' i q =>
    by_cases hq : q ∈ (s.keys c').processing
    · by_cases he : c' = c ∧ q = p
      · obtain ⟨rfl, rfl⟩ := he
        have hpos : 0 < s.copies c' q := List.count_pos_iff.mpr hq
        simp [removals, removing, apply, hq, hpos]
      · have hno : ¬ (c' = c ∧ q = p ∧ 0 < s.copies c p) := fun h => he ⟨h.1, h.2.1⟩
        have hno' : (decide (c' = c) && decide (q = p)) = false := by simpa using he
        simp [removals, removing, apply, hq, hno, hno']
    · have hno : ¬ (c' = c ∧ q = p ∧ 0 < s.copies c p) := by
        rintro ⟨rfl, rfl, hpos⟩
        exact hq (List.count_pos_iff.mp hpos)
      simp [removals, removing, apply, hq, hno]
  | _ => rfl

theorem mem_history_apply {o' : Command Bytes} :
    o' ∈ (s.apply o t).history ↔ o' ∈ s.history ∨ o' = o := by
  simp [apply]

theorem Accounted.apply (h : Accounted s) : Accounted (s.apply o t) := by
  constructor
  · intro c p
    have hwaiting := waiting_apply (s := s) (o := o) (t := t) (c := c) (p := p)
    have hcopies := copies_apply (s := s) (o := o) (t := t) (c := c) (p := p)
    have hpushes := pushes_apply (s := s) (o := o) (t := t) (c := c) (p := p)
    have hremovals := removals_apply (s := s) (o := o) (t := t) (c := c) (p := p)
    have := h.conserved c p
    omega
  · intro c i p hmem
    cases o with
    | settle c' i' q =>
      simp only [Server.apply] at hmem
      split at hmem
      · rcases List.mem_cons.mp hmem with he | hmem
        · cases he
          exact mem_history_apply.mpr (.inr rfl)
        · exact mem_history_apply.mpr (.inl (h.settled c i p hmem))
      · exact mem_history_apply.mpr (.inl (h.settled c i p hmem))
    | _ => exact mem_history_apply.mpr (.inl (h.settled c i p hmem))

theorem Accounted.answers {o : Request Bytes} {r : o.Answer} (h : Accounted s)
    (ha : Answers s o r s') : Accounted s' := by
  cases ha with
  | replied | lost => exact h.apply
  | failed | uuid4 | now | nowFn => exact ⟨h.conserved, h.settled⟩

omit [Sha1 Bytes] in
/-- If no receipt takes more than one entry, the entries gone are no more than the claims settled. -/
theorem Accounted.covered (h : Accounted s) (hone : ∀ c i, s.taken c i ≤ 1) (c : String) (p : Bytes) :
    s.pushes c p ≤ s.waiting c p + s.copies c p + (s.settledClaims c p).length := by
  have hconserved := h.conserved c p
  let gone := s.removed.filter fun x => x.1 = c && x.2.2 = p
  have hlength : s.removals c p = (gone.map fun x => x.2.1).length := by
    simp [removals, gone, List.countP_eq_length_filter]
  have hnodup : (gone.map fun x => x.2.1).Nodup := by
    refine List.nodup_iff_count_le_one.mpr ?_
    intro i
    refine le_trans ?_ (hone c i)
    rw [List.count, List.countP_map, List.countP_filter]
    refine List.countP_mono_left ?_
    intro x _ hx
    simp_all
  have hsub : gone.map (fun x => x.2.1) ⊆ s.settledClaims c p := by
    intro i hi
    obtain ⟨⟨c', i', q⟩, hmem, rfl⟩ := List.mem_map.mp hi
    obtain ⟨hremoved, he⟩ := List.mem_filter.mp hmem
    obtain ⟨rfl, rfl⟩ : c' = c ∧ q = p := by simpa using he
    refine List.mem_dedup.mpr (List.mem_filterMap.mpr ⟨_, h.settled c' i' q hremoved, ?_⟩)
    simp
  have := (List.subperm_of_subset hnodup hsub).length_le
  omega

end Server

section System

variable [Texts]

variable {P P' : Clients Bytes} {m : Move (Requests Bytes) Unit} {ms : List (Move (Requests Bytes) Unit)}

end System

section Samples

local instance settlementTexts : Texts := .sample

local instance settlementSha1 : Sha1 String := ⟨id⟩

/-- Whether the entry of a receipt is still there, or no other one with its payload. -/
def single (P : Clients String) (_ : Nat) : Request String → Bool
  | .redis (.settle c claimId p) => P.shared.taken c claimId = 0 || P.shared.copies c p = 0
  | _ => true

end Samples

end Pybus.Redis
