import Pybus.CivilDates
import Pybus.LocalTimes
import Mathlib.Data.Int.LeastGreatest

/-! The slots of a recurrence in the order of their instants, and the one that `next_cadence_at`
returns. -/
namespace Pybus

namespace Recurrence

open Zone (Regular)

/-- The local time of a slot: the anchor some days, weeks or months later, where the day is at most
the last of its month. -/
def slotLocal (cadence : RecurrenceCadence) (anchor k : Int) : Int :=
  match cadence with
  | .daily => anchor + k * dayLength
  | .weekly => anchor + 7 * k * dayLength
  | .monthly =>
    let months := monthNumber anchor + k
    (firstOfMonth months + min (day anchor) (lengthOfMonth months) - 1) * dayLength
      + anchor % dayLength

/-- The day, the week or the month of a local time, counted from that of the anchor. -/
def period (cadence : RecurrenceCadence) (anchor wall : Int) : Int :=
  match cadence with
  | .daily => date wall - date anchor
  | .weekly => (date wall - date anchor) / 7
  | .monthly => monthNumber wall - monthNumber anchor

/-- An instant of a slot. -/
def Slot (r : Recurrence) (zone : Zone) (startsAt k t : Int) : Prop :=
  1 ≤ k ∧ zone.Resolves (slotLocal r.cadence (zone.toLocal startsAt) k) t

/-- The first slot after an instant. -/
def FirstSlot (r : Recurrence) (zone : Zone) (startsAt after t : Int) : Prop :=
  (∃ k, Slot r zone startsAt k t) ∧ after < t ∧
    ∀ k t', Slot r zone startsAt k t' → after < t' → t ≤ t'

/-- The recurrence is over at an instant. -/
def Over (r : Recurrence) (t : Int) : Prop := ∃ e, r.endsAt = some e ∧ e ≤ t

/-- `next_cadence_at` returns the first slot, or none exactly when the recurrence is over by then. -/
def ReturnsFirstSlot [Zones] (r : Recurrence) (zone : Zone) (startsAt after : Int) : Prop :=
  ∃ t, FirstSlot r zone startsAt after t ∧
    (Over r t → nextCadenceAt r startsAt after = .ok none) ∧
    (¬ Over r t → nextCadenceAt r startsAt after = .ok (some t))

variable {r : Recurrence} {cadence : RecurrenceCadence} {zone : Zone}
  {anchor wall wall' after startsAt j k n index t t' : Int} {rounds : Nat}

theorem dayLength_eq : dayLength = 86400000000 := rfl

theorem date_le (h : wall ≤ wall') : date wall ≤ date wall' :=
  Int.ediv_le_ediv (by decide) h

theorem date_bounds (wall : Int) :
    date wall * dayLength ≤ wall ∧ wall < date wall * dayLength + dayLength := by
  unfold date dayLength
  omega

theorem date_mul_add (d wall : Int) : date (d * dayLength + wall % dayLength) = d := by
  unfold date dayLength
  omega

/-- The slots are at least a day apart. -/
theorem slotLocal_succ (cadence : RecurrenceCadence) (anchor k : Int) :
    slotLocal cadence anchor k + dayLength ≤ slotLocal cadence anchor (k + 1) := by
  have hday := dayLength_eq
  cases cadence with
  | daily =>
    simp only [slotLocal, hday]
    omega
  | weekly =>
    simp only [slotLocal, hday]
    omega
  | monthly =>
    have hnext := firstOfMonth_succ (monthNumber anchor + k)
    have hlength := lengthOfMonth_bounds (monthNumber anchor + k + 1)
    have hfirst := day_bounds anchor
    have hassoc : monthNumber anchor + (k + 1) = monthNumber anchor + k + 1 := by omega
    simp only [slotLocal, hassoc, hday]
    omega

theorem slotLocal_lt (cadence : RecurrenceCadence) (anchor : Int) (h : j < k) :
    slotLocal cadence anchor j + dayLength ≤ slotLocal cadence anchor k := by
  have hday := dayLength_eq
  induction k, h using Int.leInduction with
  | base => exact slotLocal_succ cadence anchor j
  | succ k hk ih =>
    have := slotLocal_succ cadence anchor k
    omega

theorem slotLocal_le (cadence : RecurrenceCadence) (anchor : Int) (h : j ≤ k) :
    slotLocal cadence anchor j ≤ slotLocal cadence anchor k := by
  have hday := dayLength_eq
  rcases Int.lt_or_eq_of_le h with hlt | rfl
  · have := slotLocal_lt cadence anchor hlt
    omega
  · exact le_rfl

theorem date_slotLocal_monthly (anchor k : Int) : date (slotLocal .monthly anchor k) =
    firstOfMonth (monthNumber anchor + k)
      + min (day anchor) (lengthOfMonth (monthNumber anchor + k)) - 1 :=
  date_mul_add _ _

/-- A slot lies in its month. -/
theorem date_slotLocal_bounds (anchor k : Int) :
    firstOfMonth (monthNumber anchor + k) ≤ date (slotLocal .monthly anchor k) ∧
      date (slotLocal .monthly anchor k) < firstOfMonth (monthNumber anchor + k + 1) := by
  have hlength := lengthOfMonth_bounds (monthNumber anchor + k)
  have hfirst := day_bounds anchor
  have hnext := firstOfMonth_succ (monthNumber anchor + k)
  rw [date_slotLocal_monthly]
  omega

/-- `_candidate_local` reaches every slot up to the last date. -/
theorem candidateLocal_eq (h : date (slotLocal cadence anchor k) ≤ lastDate) :
    candidateLocal anchor cadence k = .ok (slotLocal cadence anchor k) := by
  cases cadence with
  | daily =>
    have hdate : date (slotLocal .daily anchor k) = date anchor + k := by
      simp only [slotLocal, date, dayLength]
      omega
    have hlast : ¬ lastDate < date anchor + k := by omega
    simp [candidateLocal, addDays, hlast, slotLocal]
  | weekly =>
    have hdate : date (slotLocal .weekly anchor k) = date anchor + 7 * k := by
      simp only [slotLocal, date, dayLength]
      omega
    have hlast : ¬ lastDate < date anchor + 7 * k := by omega
    simp [candidateLocal, addDays, hlast, slotLocal]
  | monthly =>
    have hlow := (date_slotLocal_bounds anchor k).1
    have hlast : lastDate < firstOfMonth 120000 := by decide
    have hyear : ¬ 9999 < (monthNumber anchor + k) / 12 := by
      intro hlt
      have hlate : firstOfMonth 120000 ≤ firstOfMonth (monthNumber anchor + k) :=
        firstOfMonth_le (by omega)
      omega
    have hadd := daysFromCivil_add ((monthNumber anchor + k) / 12)
      ((monthNumber anchor + k) % 12 + 1) 1
      (min (day anchor) (lengthOfMonth (monthNumber anchor + k)) - 1)
    have hclamped : 1 + (min (day anchor) (lengthOfMonth (monthNumber anchor + k)) - 1) =
        min (day anchor) (lengthOfMonth (monthNumber anchor + k)) := by omega
    rw [hclamped] at hadd
    have hindex : year anchor * 12 + month anchor - 1 + k = monthNumber anchor + k := rfl
    simp only [candidateLocal, hindex, if_neg hyear]
    change Except.ok (daysFromCivil _ _ (min (day anchor)
      (lengthOfMonth (monthNumber anchor + k))) * dayLength + anchor % dayLength) = _
    rw [hadd, slotLocal, Int.add_sub_assoc]
    rfl

/-- The loop starts at the period of the given instant. -/
theorem initialIndex_eq (cadence : RecurrenceCadence) (anchor wall : Int) :
    initialIndex cadence anchor wall = max 1 (period cadence anchor wall) := by
  cases cadence with
  | daily => rfl
  | weekly => rfl
  | monthly =>
    simp only [initialIndex, period, monthNumber]
    congr 1
    omega

/-- A slot of an earlier period has an earlier local time. -/
theorem slotLocal_lt_of_period (h : k < period cadence anchor wall) :
    slotLocal cadence anchor k < wall := by
  have hwall := date_bounds wall
  have hanchor := date_bounds anchor
  have hday := dayLength_eq
  cases cadence with
  | daily =>
    simp only [period, slotLocal, hday] at *
    omega
  | weekly =>
    simp only [period, slotLocal, hday] at *
    omega
  | monthly =>
    have hslot := date_bounds (slotLocal .monthly anchor k)
    have hlate := (date_slotLocal_bounds anchor k).2
    have hfirst := firstOfMonth_le_date wall
    have hmonths : firstOfMonth (monthNumber anchor + k + 1) ≤ firstOfMonth (monthNumber wall) := by
      apply firstOfMonth_le
      simp only [period] at h
      omega
    simp only [hday] at *
    omega

/-- Two periods on, the slots have passed every local time by a day. -/
theorem le_slotLocal_of_period (cadence : RecurrenceCadence) (anchor wall : Int) :
    wall + dayLength ≤ slotLocal cadence anchor (period cadence anchor wall + 2) := by
  have hwall := date_bounds wall
  have hanchor := date_bounds anchor
  have hday := dayLength_eq
  cases cadence with
  | daily =>
    simp only [period, slotLocal, hday] at *
    omega
  | weekly =>
    simp only [period, slotLocal, hday] at *
    omega
  | monthly =>
    have hmonths : monthNumber anchor + (monthNumber wall - monthNumber anchor + 2) =
        monthNumber wall + 1 + 1 := by omega
    have hslot := date_bounds (slotLocal .monthly anchor (monthNumber wall - monthNumber anchor + 2))
    have hfirst := (date_slotLocal_bounds anchor (monthNumber wall - monthNumber anchor + 2)).1
    have hlate := date_lt_firstOfMonth wall
    have hnext := firstOfMonth_succ (monthNumber wall + 1)
    have hlength := lengthOfMonth_bounds (monthNumber wall + 1)
    rw [hmonths] at hfirst
    simp only [period, hday] at *
    omega

/-- Well inside the supported years these slots are dates. -/
theorem slotLocal_le_lastDate (hyear : year wall < 9999) (hnear : anchor < wall + dayLength)
    (hk : k ≤ max 1 (period cadence anchor wall) + 2) :
    date (slotLocal cadence anchor k) ≤ lastDate := by
  have hlast : firstOfMonth 119988 = lastDate - 364 := by decide
  have hspring : firstOfMonth 119993 ≤ lastDate := by decide
  have hmonth : monthNumber wall + 1 ≤ 119988 := by
    have := monthNumber_div wall
    omega
  have hwall := date_lt_firstOfMonth wall
  have hend := firstOfMonth_le hmonth
  have hdate : date anchor ≤ date wall + 1 := by
    unfold date dayLength at *
    omega
  apply le_trans (date_le (slotLocal_le cadence anchor hk))
  have hday := dayLength_eq
  have hanchor := date_bounds anchor
  cases cadence with
  | daily =>
    simp only [period, slotLocal, date, hday] at *
    omega
  | weekly =>
    simp only [period, slotLocal, date, hday] at *
    omega
  | monthly =>
    have hmonths : monthNumber anchor ≤ monthNumber wall + 1 := by
      apply monthNumber_le_of_lt
      have := firstOfMonth_lt (by omega : monthNumber wall + 1 < monthNumber wall + 1 + 1)
      omega
    have hslot := (date_slotLocal_bounds anchor (max 1 (period .monthly anchor wall) + 2)).2
    have hbound : firstOfMonth (monthNumber anchor + (max 1 (period .monthly anchor wall) + 2) + 1) ≤
        firstOfMonth 119993 := by
      apply firstOfMonth_le
      simp only [period]
      omega
    omega

/-- The loop returns the first of the slots it visits that lies after the given instant. -/
theorem nextSlot_eq {s : Int → Int} (hrounds : n < index + rounds) (hle : index ≤ n)
    (hslot : ∀ k, index ≤ k → k ≤ n → ∃ wall, candidateLocal anchor r.cadence k = .ok wall ∧
      resolveLocal wall zone = .ok (s k))
    (hpast : ∀ k, index ≤ k → k < n → s k ≤ after) (hlt : after < s n) :
    nextSlot r zone anchor after rounds index =
      .ok (if r.endsAt.any (· ≤ s n) then none else some (s n)) := by
  induction rounds generalizing index with
  | zero =>
    simp only [Nat.cast_zero] at hrounds
    omega
  | succ rounds ih =>
    obtain ⟨wall, hcand, hres⟩ := hslot index le_rfl hle
    simp only [nextSlot, bind, Except.bind, hcand, hres, pure, Except.pure]
    rcases Int.lt_or_eq_of_le hle with hindex | rfl
    · have hnot : ¬ after < s index := not_lt.mpr (hpast index le_rfl hindex)
      rw [if_neg hnot]
      apply ih
      · push_cast at hrounds
        omega
      · omega
      · intro k hk
        exact hslot k (by omega)
      · intro k hk
        exact hpast k (by omega)
    · rw [if_pos hlt]

/-- `next_cadence_at` returns the first slot from its first period on. -/
theorem nextCadenceAt_eq [Zones] {s : Int → Int} (hz : Zones.zone r.timezone = some zone)
    (hzone : zone.Regular) (hle : startsAt ≤ after) (hyear : year (zone.toLocal after) < 9999)
    (hs : ∀ k, zone.Resolves (slotLocal r.cadence (zone.toLocal startsAt) k) (s k)) :
    ∃ n, max 1 (period r.cadence (zone.toLocal startsAt) (zone.toLocal after)) ≤ n ∧ after < s n ∧
      (∀ k, max 1 (period r.cadence (zone.toLocal startsAt) (zone.toLocal after)) ≤ k → k < n →
        s k ≤ after) ∧
      nextCadenceAt r startsAt after =
        .ok (if r.endsAt.any (· ≤ s n) then none else some (s n)) := by
  generalize hanchor : zone.toLocal startsAt = anchor at *
  generalize hwall : zone.toLocal after = wall at *
  have hnear : anchor < wall + dayLength := by
    rw [← hanchor, ← hwall]
    exact hzone.toLocal_lt hle
  have hlater : after < s (max 1 (period r.cadence anchor wall) + 2) := by
    apply hzone.lt_of_toLocal (hs _)
    rw [hwall]
    apply le_trans (le_slotLocal_of_period r.cadence anchor wall)
    exact slotLocal_le r.cadence anchor (by omega)
  obtain ⟨n, ⟨hn, hlt⟩, hleast⟩ : ∃ n, (max 1 (period r.cadence anchor wall) ≤ n ∧ after < s n) ∧
      ∀ k, max 1 (period r.cadence anchor wall) ≤ k ∧ after < s k → n ≤ k :=
    Int.exists_least_of_bdd ⟨max 1 (period r.cadence anchor wall), fun k hk => hk.1⟩
      ⟨_, by omega, hlater⟩
  have htwo : n ≤ max 1 (period r.cadence anchor wall) + 2 := hleast _ ⟨by omega, hlater⟩
  have hpast : ∀ k, max 1 (period r.cadence anchor wall) ≤ k → k < n → s k ≤ after := by
    intro k hk hkn
    by_contra hgt
    have := hleast k ⟨hk, not_le.mp hgt⟩
    omega
  refine ⟨n, hn, hlt, hpast, ?_⟩
  have hstart : startsAt + zone.offset startsAt = anchor := hanchor
  have hnow : after + zone.offset after = wall := hwall
  simp only [nextCadenceAt, hz, hstart, hnow, initialIndex_eq]
  have hdates : (dates : Int) = 3652060 := rfl
  apply nextSlot_eq (by omega) hn _ hpast hlt
  intro k hk hkn
  have hlast : date (slotLocal r.cadence anchor k) ≤ lastDate :=
    slotLocal_le_lastDate hyear hnear (by omega)
  exact ⟨_, candidateLocal_eq hlast, hzone.resolveLocal_eq (hs k)⟩

/-- An instant after the given one that a slot of an earlier period was moved to, out of a gap. -/
def Overtaken (r : Recurrence) (zone : Zone) (startsAt after t : Int) : Prop :=
  ∃ k change, 1 ≤ k ∧ k < period r.cadence (zone.toLocal startsAt) (zone.toLocal after) ∧
    zone.InGap change (slotLocal r.cadence (zone.toLocal startsAt) k) ∧
    t = slotLocal r.cadence (zone.toLocal startsAt) k
      + (zone.offset change - zone.offset (change - 1)) - zone.offset change ∧ after < t

theorem any_endsAt_iff : r.endsAt.any (· ≤ t) = true ↔ Over r t := by
  unfold Over
  cases r.endsAt <;> simp

theorem Over.later (h : Over r t) (hle : t ≤ t') : Over r t' := by
  obtain ⟨e, he, het⟩ := h
  exact ⟨e, he, het.trans hle⟩

section Slots

variable {s : Int → Int} (hzone : zone.Regular)
  (hs : ∀ k, zone.Resolves (slotLocal r.cadence (zone.toLocal startsAt) k) (s k))
include hzone hs

/-- The slots follow one another in time, whatever the clocks do. -/
theorem slots_lt (h : j < k) : s j < s k :=
  hzone.resolves_lt (hs j) (hs k) (slotLocal_lt r.cadence (zone.toLocal startsAt) h)

theorem slots_le (h : j ≤ k) : s j ≤ s k := by
  rcases Int.lt_or_eq_of_le h with hlt | rfl
  · exact (slots_lt hzone hs hlt).le
  · exact le_rfl

theorem firstSlot_of_least (hone : 1 ≤ n) (hlt : after < s n)
    (hleast : ∀ k, 1 ≤ k ∧ after < s k → n ≤ k) : FirstSlot r zone startsAt after (s n) := by
  refine ⟨⟨n, hone, hs n⟩, hlt, ?_⟩
  intro k t hk hkt
  obtain rfl : t = s k := hzone.resolves_unique hk.2 (hs k)
  exact slots_le hzone hs (hleast k ⟨hk.1, hkt⟩)

theorem Overtaken.slot (h : Overtaken r zone startsAt after t) :
    ∃ k, 1 ≤ k ∧ k < period r.cadence (zone.toLocal startsAt) (zone.toLocal after) ∧
      t = s k ∧ after < t := by
  obtain ⟨k, change, hk, hperiod, hgap, ht, hlt⟩ := h
  exact ⟨k, hk, hperiod, hzone.resolves_unique (.inr ⟨change, hgap, ht⟩) (hs k), hlt⟩

end Slots

theorem firstSlot_unique (h : FirstSlot r zone startsAt after t)
    (h' : FirstSlot r zone startsAt after t') : t = t' := by
  obtain ⟨⟨k, hk⟩, hlt, hfirst⟩ := h
  obtain ⟨⟨k', hk'⟩, hlt', hfirst'⟩ := h'
  exact le_antisymm (hfirst k' t' hk' hlt') (hfirst' k t hk hlt)

theorem le_of_overtaken (h : FirstSlot r zone startsAt after t)
    (ho : Overtaken r zone startsAt after t') : t ≤ t' := by
  obtain ⟨k, change, hk, -, hgap, ht, hlt⟩ := ho
  exact h.2.2 k t' ⟨hk, .inr ⟨change, hgap, ht⟩⟩ hlt

theorem overtaken_of_lt (hzone : zone.Regular)
    (hr : zone.Resolves (slotLocal r.cadence (zone.toLocal startsAt) k) t) (hk : 1 ≤ k)
    (hperiod : k < period r.cadence (zone.toLocal startsAt) (zone.toLocal after))
    (hlt : after < t) : Overtaken r zone startsAt after t := by
  obtain ⟨change, hgap, ht⟩ := hzone.inGap_of_lt hr (slotLocal_lt_of_period hperiod) hlt
  exact ⟨k, change, hk, hperiod, hgap, ht, hlt⟩

/-- `next_cadence_at` returns the first slot exactly when the recurrence is over at every slot that
a gap moves past the given instant, out of a day or month before the one it lies in. -/
theorem nextCadenceAt_first_slot_iff [Zones] (hz : Zones.zone r.timezone = some zone)
    (hzone : zone.Regular) (hle : startsAt ≤ after) (hyear : year (zone.toLocal after) < 9999) :
    ReturnsFirstSlot r zone startsAt after ↔
      ∀ t, Overtaken r zone startsAt after t → Over r t := by
  choose s hs using fun k => hzone.resolves (slotLocal r.cadence (zone.toLocal startsAt) k)
  obtain ⟨n, hn, hlt, hpast, hresult⟩ := nextCadenceAt_eq hz hzone hle hyear hs
  obtain ⟨first, ⟨hone, hafter⟩, hleast⟩ : ∃ first, (1 ≤ first ∧ after < s first) ∧
      ∀ k, 1 ≤ k ∧ after < s k → first ≤ k :=
    Int.exists_least_of_bdd ⟨1, fun k hk => hk.1⟩ ⟨n, by omega, hlt⟩
  have hfirst : FirstSlot r zone startsAt after (s first) :=
    firstSlot_of_least hzone hs hone hafter hleast
  have hn' : first ≤ n := hleast n ⟨by omega, hlt⟩
  rcases Int.lt_or_eq_of_le hn' with hskip | rfl
  · -- The loop starts behind the first slot, which lies in an earlier period then.
    have hlow : first < max 1 (period r.cadence (zone.toLocal startsAt) (zone.toLocal after)) := by
      by_contra hge
      have := hpast first (by omega) hskip
      omega
    have hover : Overtaken r zone startsAt after (s first) :=
      overtaken_of_lt hzone (hs first) hone (by omega) hafter
    have hlater : s first < s n := slots_lt hzone hs hskip
    constructor
    · rintro ⟨t, ht, -, hsome⟩ t' ht'
      obtain rfl : t = s first := firstSlot_unique ht hfirst
      by_contra hnot
      have hbefore : s first ≤ t' := le_of_overtaken hfirst ht'
      have hopen : ¬ Over r (s first) := fun h => hnot (h.later hbefore)
      have heq := hresult.symm.trans (hsome hopen)
      split at heq
      · cases heq
      · have hsame : s n = s first := Option.some.inj (Except.ok.inj heq)
        omega
    · intro h
      have hend := h _ hover
      refine ⟨s first, hfirst, fun _ => ?_, fun hopen => absurd hend hopen⟩
      rw [hresult, if_pos (any_endsAt_iff.mpr (hend.later hlater.le))]
  · constructor
    · intro _ t ht
      exfalso
      obtain ⟨k, hk, hperiod, rfl, hkt⟩ := ht.slot hzone hs
      have := hleast k ⟨hk, hkt⟩
      omega
    · intro _
      refine ⟨s first, hfirst, fun hend => ?_, fun hopen => ?_⟩
      · rw [hresult, if_pos (any_endsAt_iff.mpr hend)]
      · rw [hresult, if_neg fun h => hopen (any_endsAt_iff.mp h)]

section Sample

/-- A zone two hours behind UTC whose clocks go from eleven at night to midnight, once. -/
def lateClocks : Zone where
  offset (t : Int) := if t < 1743296400000000 then -7200000000 else -3600000000
  localOffset wall fold :=
    if wall < 1743296400000000 - (if fold then 7200000000 else 3600000000) then -7200000000
    else -3600000000

local instance lateClocksZones : Zones := ⟨fun _ => some lateClocks⟩

theorem lateClocks_transition (h : lateClocks.Transition t) : t = 1743296400000000 := by
  simp only [Zone.Transition, lateClocks] at h
  split at h <;> split at h
  · exact absurd rfl h
  · omega
  · omega
  · exact absurd rfl h

theorem lateClocks_regular : lateClocks.Regular where
  offset_lt t := by
    simp only [lateClocks, dayLength]
    split <;> omega
  jump_lt t := by
    simp only [lateClocks, dayLength]
    split <;> split <;> omega
  apart t t' h h' hlt := by
    have ht := lateClocks_transition h
    have ht' := lateClocks_transition h'
    omega
  earliest wall t h hfirst := by
    simp only [Zone.toLocal, lateClocks, Bool.false_eq_true, if_false] at *
    split at h <;> split <;> omega
  gap change wall h := by
    have hchange := lateClocks_transition (Zone.Regular.transition_of_inGap h)
    subst hchange
    obtain ⟨hle, hlt⟩ := h
    simp only [lateClocks] at *
    simp at hle hlt ⊢
    omega

/-- A daily recurrence; from the second of March on its slots are at half past eleven at night. -/
def nightly : Recurrence := { cadence := .daily, timezone := "America/Nuuk" }

theorem nextCadenceAt_first_slot_iff_nightly :
    ReturnsFirstSlot nightly lateClocks 1740879000000000 1740879000000000 ↔
      ∀ t, Overtaken nightly lateClocks 1740879000000000 1740879000000000 t → Over nightly t :=
  nextCadenceAt_first_slot_iff rfl lateClocks_regular (by decide) (by decide)

/-- Ten minutes into the thirtieth the slot of the night before, which the gap moved to half past
midnight, is skipped. -/
theorem moved_slot_skipped : lateClocks.Regular ∧
    nextCadenceAt nightly 1740879000000000 1743297000000000 = .ok (some 1743381000000000) ∧
    Slot nightly lateClocks 1740879000000000 28 1743298200000000 ∧
    ¬ ReturnsFirstSlot nightly lateClocks 1740879000000000 1743297000000000 := by
  have hreturned : nextCadenceAt nightly 1740879000000000 1743297000000000 =
      .ok (some 1743381000000000) := by decide
  have hslot : Slot nightly lateClocks 1740879000000000 28 1743298200000000 := by
    refine ⟨by decide, .inr ⟨1743296400000000, ⟨?_, ?_⟩, ?_⟩⟩
    · decide
    · decide
    · decide
  refine ⟨lateClocks_regular, hreturned, hslot, ?_⟩
  rintro ⟨t, ⟨-, hafter, hfirst⟩, -, hsome⟩
  have hle := hfirst 28 1743298200000000 hslot (by decide)
  have hopen : ¬ Over nightly t := by
    rintro ⟨e, he, -⟩
    cases he
  have heq := hreturned.symm.trans (hsome hopen)
  have ht : 1743381000000000 = t := Option.some.inj (Except.ok.inj heq)
  omega

end Sample

end Recurrence

end Pybus
