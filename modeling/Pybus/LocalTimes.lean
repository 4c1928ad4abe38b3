import Pybus.Recurrence
import Mathlib.Data.Int.Init

/-! The clock changes of a time zone: which instant a local time stands for, and how the local
times follow the instants. -/
namespace Pybus

open Recurrence (dayLength resolveLocal)

namespace Zone

/-- The local time at an instant. -/
def toLocal (zone : Zone) (t : Int) : Int := t + zone.offset t

/-- The offset changes at an instant. -/
def Transition (zone : Zone) (t : Int) : Prop := zone.offset t ≠ zone.offset (t - 1)

/-- The clocks jump over a local time at a transition. -/
def InGap (zone : Zone) (change wall : Int) : Prop :=
  change + zone.offset (change - 1) ≤ wall ∧ wall < change + zone.offset change

/-- The clocks change rarely and by less than a day. A local time has the offset of its earliest
instant, and in a gap that before the change or, with a `fold`, the one after it. -/
structure Regular (zone : Zone) : Prop where
  offset_lt (t : Int) : -dayLength < zone.offset t ∧ zone.offset t < dayLength
  jump_lt (t : Int) : -dayLength < zone.offset t - zone.offset (t - 1) ∧
    zone.offset t - zone.offset (t - 1) < dayLength
  apart (t t' : Int) : zone.Transition t → zone.Transition t' → t < t' → t + 2 * dayLength < t'
  earliest (wall t : Int) : zone.toLocal t = wall → (∀ t', zone.toLocal t' = wall → t ≤ t') →
    zone.localOffset wall false = zone.offset t
  gap (change wall : Int) : zone.InGap change wall →
    zone.localOffset wall false = zone.offset (change - 1) ∧
      zone.localOffset wall true = zone.offset change

/-- The instant a local time stands for: the earliest that has it, or that of the time moved
forward by the gap it lies in. -/
def Resolves (zone : Zone) (wall t : Int) : Prop :=
  (zone.toLocal t = wall ∧ ∀ t', zone.toLocal t' = wall → t ≤ t') ∨
    ∃ change, zone.InGap change wall ∧
      t = wall + (zone.offset change - zone.offset (change - 1)) - zone.offset change

variable {zone : Zone} {t t' change wall wall' after : Int}

/-- The offset stays the same where there is no transition. -/
theorem offset_eq (hle : t ≤ t') (h : ∀ u, t < u → u ≤ t' → ¬ zone.Transition u) :
    zone.offset t' = zone.offset t := by
  induction t', hle using Int.leInduction with
  | base => rfl
  | succ u hu ih =>
    have hstep : zone.offset (u + 1) = zone.offset (u + 1 - 1) := by
      by_contra hne
      exact h (u + 1) (by omega) le_rfl hne
    have hback : u + 1 - 1 = u := by omega
    rw [hstep, hback]
    apply ih
    intro v hv hvu
    exact h v hv (by omega)

namespace Regular

variable (h : zone.Regular)
include h

/-- Around a transition there is no other. -/
theorem offset_since (hc : zone.Transition change) (hle : change ≤ t)
    (ht : t ≤ change + 2 * dayLength) : zone.offset t = zone.offset change := by
  apply offset_eq hle
  intro u hu hut htr
  have := h.apart change u hc htr hu
  omega

theorem offset_before (hc : zone.Transition change) (hlt : t < change)
    (ht : change ≤ t + 2 * dayLength) : zone.offset t = zone.offset (change - 1) := by
  have hle : t ≤ change - 1 := by omega
  symm
  apply offset_eq hle
  intro u hu hut htr
  have := h.apart u change htr hc (by omega)
  omega

/-- Within two days the clocks change at most once. -/
theorem same_or_transition (hle : t ≤ t') (hnear : t' ≤ t + 2 * dayLength) :
    zone.offset t' = zone.offset t ∨ ∃ change, t < change ∧ change ≤ t' ∧
      zone.Transition change ∧ zone.offset t = zone.offset (change - 1) ∧
      zone.offset t' = zone.offset change := by
  by_cases hex : ∃ change, t < change ∧ change ≤ t' ∧ zone.Transition change
  · obtain ⟨change, hlt, hct, hc⟩ := hex
    right
    refine ⟨change, hlt, hct, hc, ?_, ?_⟩
    · exact h.offset_before hc hlt (by omega)
    · exact h.offset_since hc hct (by omega)
  · left
    apply offset_eq hle
    intro u hu hut htr
    exact hex ⟨u, hu, hut, htr⟩

/-- The clocks go back by less than a day. -/
theorem toLocal_lt (hle : t ≤ t') : zone.toLocal t < zone.toLocal t' + dayLength := by
  have ht := h.offset_lt t
  have ht' := h.offset_lt t'
  unfold toLocal
  by_cases hnear : t' ≤ t + 2 * dayLength
  · rcases h.same_or_transition hle hnear with heq | ⟨change, -, -, -, hbefore, hsince⟩
    · rw [heq]
      omega
    · have := h.jump_lt change
      omega
  · omega

omit h in
theorem transition_of_inGap (hgap : zone.InGap change wall) : zone.Transition change := by
  obtain ⟨hle, hlt⟩ := hgap
  intro heq
  omega

/-- A time moved out of a gap is one after the change. -/
theorem offset_moved (hgap : zone.InGap change wall) :
    change ≤ wall - zone.offset (change - 1) ∧
      zone.offset (wall - zone.offset (change - 1)) = zone.offset change := by
  have hjump := h.jump_lt change
  have hc := transition_of_inGap hgap
  obtain ⟨hle, hlt⟩ := hgap
  have hsince : change ≤ wall - zone.offset (change - 1) := by omega
  exact ⟨hsince, h.offset_since hc hsince (by omega)⟩

/-- Every local time stands for an instant. -/
theorem resolves (wall : Int) : ∃ t, zone.Resolves wall t := by
  have hnear : ∀ u, zone.toLocal u = wall → wall - dayLength ≤ u ∧ u ≤ wall + dayLength := by
    intro u hu
    have := h.offset_lt u
    unfold toLocal at hu
    omega
  by_cases hex : ∃ change, wall - dayLength < change ∧ change ≤ wall + dayLength ∧
      zone.Transition change
  · obtain ⟨change, hlt, hle, hc⟩ := hex
    have hbefore : ∀ u, wall - dayLength ≤ u → u < change →
        zone.offset u = zone.offset (change - 1) := fun u hu huc =>
      h.offset_before hc huc (by omega)
    have hsince : ∀ u, change ≤ u → u ≤ wall + dayLength → zone.offset u = zone.offset change :=
      fun u hu huw => h.offset_since hc hu (by omega)
    have hlast := h.offset_lt (change - 1)
    have hnew := h.offset_lt change
    by_cases hfirst : wall - zone.offset (change - 1) < change
    · refine ⟨wall - zone.offset (change - 1), .inl ⟨?_, fun u hu => ?_⟩⟩
      · rw [toLocal, hbefore _ (by omega) hfirst]
        omega
      · by_cases huc : u < change
        · rw [toLocal, hbefore u (hnear u hu).1 huc] at hu
          omega
        · omega
    · by_cases hsecond : change ≤ wall - zone.offset change
      · refine ⟨wall - zone.offset change, .inl ⟨?_, fun u hu => ?_⟩⟩
        · rw [toLocal, hsince _ hsecond (by omega)]
          omega
        · by_cases huc : u < change
          · rw [toLocal, hbefore u (hnear u hu).1 huc] at hu
            omega
          · rw [toLocal, hsince u (by omega) (hnear u hu).2] at hu
            omega
      · exact ⟨_, .inr ⟨change, ⟨by omega, by omega⟩, rfl⟩⟩
  · have hsame : ∀ u, wall - dayLength ≤ u → u ≤ wall + dayLength →
        zone.offset u = zone.offset (wall - dayLength) := by
      intro u hu huw
      apply offset_eq hu
      intro v hv hvu htr
      exact hex ⟨v, hv, by omega, htr⟩
    have hbound := h.offset_lt (wall - dayLength)
    refine ⟨wall - zone.offset (wall - dayLength), .inl ⟨?_, fun u hu => ?_⟩⟩
    · have hvalid := hsame (wall - zone.offset (wall - dayLength)) (by omega) (by omega)
      unfold toLocal
      omega
    · rw [toLocal, hsame u (hnear u hu).1 (hnear u hu).2] at hu
      omega

/-- `_resolve_local` finds that instant. -/
theorem resolveLocal_eq (hr : zone.Resolves wall t) : resolveLocal wall zone = .ok t := by
  rcases hr with ⟨hlocal, hearliest⟩ | ⟨change, hgap, rfl⟩
  · have hoffset := h.earliest wall t hlocal hearliest
    have hfirst : wall - zone.offset t = t := by
      rw [← hlocal, toLocal]
      omega
    have hvalid : t + zone.offset t = wall := hlocal
    simp [resolveLocal, hoffset, hfirst, hvalid]
  · obtain ⟨hfalse, htrue⟩ := h.gap change wall hgap
    obtain ⟨-, hmoved⟩ := h.offset_moved hgap
    have hc := transition_of_inGap hgap
    have hjump := h.jump_lt change
    have hstill : zone.offset (wall - zone.offset change) = zone.offset (change - 1) := by
      obtain ⟨hle, hlt⟩ := hgap
      exact h.offset_before hc (by omega) (by omega)
    obtain ⟨hle, hlt⟩ := hgap
    have hfirst : wall - zone.offset (change - 1) + zone.offset change ≠ wall := by omega
    have hsecond : wall - zone.offset change + zone.offset (change - 1) ≠ wall := by omega
    have hforward : wall < wall - zone.offset (change - 1) + zone.offset change := by omega
    have hback : ¬ wall < wall - zone.offset change + zone.offset (change - 1) := by omega
    have heq : wall + (zone.offset change - zone.offset (change - 1)) - zone.offset change =
        wall - zone.offset (change - 1) := by omega
    simp [resolveLocal, hfalse, htrue, hmoved, hstill, hfirst, hsecond, hforward, hback, heq]

theorem resolves_unique (ht : zone.Resolves wall t) (ht' : zone.Resolves wall t') : t = t' := by
  have heq := (h.resolveLocal_eq ht).symm.trans (h.resolveLocal_eq ht')
  cases heq
  rfl

/-- The local time of that instant is not an earlier one. -/
theorem le_toLocal (hr : zone.Resolves wall t) : wall ≤ zone.toLocal t := by
  rcases hr with ⟨hlocal, -⟩ | ⟨change, hgap, rfl⟩
  · omega
  · obtain ⟨-, hmoved⟩ := h.offset_moved hgap
    have heq : wall + (zone.offset change - zone.offset (change - 1)) - zone.offset change =
        wall - zone.offset (change - 1) := by omega
    obtain ⟨hle, hlt⟩ := hgap
    rw [heq, toLocal, hmoved]
    omega

/-- Until that instant the local times stay within a day of it. -/
theorem toLocal_lt_of_le (hr : zone.Resolves wall t) (hle : t' ≤ t) :
    zone.toLocal t' < wall + dayLength := by
  rcases hr with ⟨hlocal, -⟩ | ⟨change, hgap, rfl⟩
  · have := h.toLocal_lt hle
    omega
  · have hjump := h.jump_lt change
    have hc := transition_of_inGap hgap
    obtain ⟨hge, hlt⟩ := hgap
    by_cases hbefore : t' < change
    · have hlast : zone.toLocal t' < zone.toLocal (change - 1) + dayLength :=
        h.toLocal_lt (by omega)
      unfold toLocal at hlast ⊢
      omega
    · have hsince := h.offset_since hc (by omega : change ≤ t') (by omega)
      unfold toLocal
      omega

/-- Local times a day apart stand for instants in their order. -/
theorem resolves_lt (hr : zone.Resolves wall t) (hr' : zone.Resolves wall' t')
    (hapart : wall + dayLength ≤ wall') : t < t' := by
  by_contra hge
  have hlocal := h.le_toLocal hr'
  have hnear := h.toLocal_lt_of_le hr (not_lt.mp hge)
  omega

/-- A local time a day past that of an instant comes after it. -/
theorem lt_of_toLocal (hr : zone.Resolves wall t) (hapart : zone.toLocal after + dayLength ≤ wall) :
    after < t := by
  by_contra hge
  have hlocal := h.le_toLocal hr
  have hnear := h.toLocal_lt (not_lt.mp hge)
  omega

/-- A local time before that of an instant comes after it only by being moved out of a gap. -/
theorem inGap_of_lt (hr : zone.Resolves wall t) (hlocal : wall < zone.toLocal after)
    (hlt : after < t) : ∃ change, zone.InGap change wall ∧
      t = wall + (zone.offset change - zone.offset (change - 1)) - zone.offset change := by
  rcases hr with ⟨hvalid, hearliest⟩ | hgap
  · exfalso
    have hbound := h.offset_lt after
    have hbound' := h.offset_lt t
    by_cases hnear : t ≤ after + 2 * dayLength
    · rcases h.same_or_transition hlt.le hnear with heq | ⟨change, hlow, hhigh, hc, hbefore, hsince⟩
      · unfold toLocal at hvalid hlocal
        omega
      · have hjump := h.jump_lt change
        unfold toLocal at hvalid hlocal
        -- Before the clocks went back they had shown this time already.
        have hold : zone.offset (wall - zone.offset (change - 1)) = zone.offset (change - 1) :=
          h.offset_before hc (by omega) (by omega)
        have hagain := hearliest (wall - zone.offset (change - 1)) (by
          rw [toLocal, hold]
          omega)
        omega
    · unfold toLocal at hvalid hlocal
      omega
  · exact hgap

end Regular

end Zone

end Pybus
