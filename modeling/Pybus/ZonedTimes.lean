import Pybus.LocalTimes
import Mathlib.Data.Int.LeastGreatest

/-! The local times of a recurrence as datetimes of a zone, which exist between two dates only. -/
namespace Pybus

/-- The first and the last datetime there are, in microseconds since the epoch. -/
def firstDatetime : Int := -62135596800000000

def lastDatetime : Int := 253402300799999999

/-- There is a datetime with this date and time. -/
def IsDatetime (wall : Int) : Prop := firstDatetime ≤ wall ∧ wall ≤ lastDatetime

instance (wall : Int) : Decidable (IsDatetime wall) := inferInstanceAs (Decidable (_ ∧ _))

/-- A datetime of a zone: its date and time, and its `fold`. -/
structure ZonedTime where
  wall : Int
  fold : Bool
  deriving DecidableEq

/-- A `ZoneInfo` with the `fold` that it gives to the local time of an instant. -/
structure TimeZone extends Zone where
  fold : Instant → Bool

/-- A date and time that the arithmetic of datetimes has come to. -/
def datetimeOf (wall : Int) : Except Exc Int :=
  if IsDatetime wall then .ok wall else .error (.other "OverflowError")

namespace TimeZone

variable (zone : TimeZone)

/-- The instant of a local time. -/
def instant (d : ZonedTime) : Instant := d.wall - zone.localOffset d.wall d.fold

/-- `d.astimezone(timezone.utc)`. -/
def toUtc (d : ZonedTime) : Except Exc Instant := datetimeOf (zone.instant d)

/-- `d.astimezone(zone)` of a datetime in UTC. -/
def fromUtc (t : Instant) : Except Exc ZonedTime := do
  let wall ← datetimeOf (zone.toLocal t)
  return ⟨wall, zone.fold t⟩

/-- The loop of `min`, which compares the candidates in UTC. -/
def earliestOf (best : ZonedTime) (least : Instant) : List ZonedTime → Except Exc ZonedTime
  | [] => return best
  | candidate :: candidates => do
    let t ← zone.toUtc candidate
    if t < least then earliestOf candidate t candidates else earliestOf best least candidates

/-- `_resolve_local`. -/
def resolveLocal (value : Int) : Except Exc ZonedTime := do
  let first : ZonedTime := ⟨value, false⟩
  let second : ZonedTime := ⟨value, true⟩
  let firstRoundTrip ← zone.fromUtc (← zone.toUtc first)
  let secondRoundTrip ← zone.fromUtc (← zone.toUtc second)
  if firstRoundTrip.wall = value then return first
  else if secondRoundTrip.wall = value then return second
  else
    match [firstRoundTrip, secondRoundTrip].filter (value < ·.wall) with
    | [] => throw (.valueError "unable to resolve recurrence time in timezone")
    | candidate :: candidates => do
      zone.earliestOf candidate (← zone.toUtc candidate) candidates

/-- The transitions are so far apart that the clocks never move past two of them. A local time that
occurs has with `fold=0` the offset of its first instant, and one in a gap that before the change
or, with `fold=1`, the one after it. What shows a local time again has `fold=1`. -/
structure Separated : Prop where
  offset_lt (t : Int) : -Recurrence.dayLength < zone.offset t ∧ zone.offset t < Recurrence.dayLength
  apart (t t' : Int) : zone.Transition t → zone.Transition t' → t < t' →
    (zone.offset t - zone.offset (t - 1)).natAbs ≤ t' - t ∧
      (zone.offset t' - zone.offset (t' - 1)).natAbs ≤ t' - t
  earliest (wall t : Int) : zone.toLocal t = wall → (∀ t', zone.toLocal t' = wall → t ≤ t') →
    zone.localOffset wall false = zone.offset t
  latest (wall t : Int) : zone.toLocal t = wall → (∀ t', zone.toLocal t' = wall → t' ≤ t) →
    zone.localOffset wall true = zone.offset t
  gap (change wall : Int) : zone.InGap change wall →
    zone.localOffset wall false = zone.offset (change - 1) ∧
      zone.localOffset wall true = zone.offset change
  fold_iff (t : Int) : zone.fold t = true ↔ ∃ t', t' < t ∧ zone.toLocal t' = zone.toLocal t

/-- A reading in UTC is a datetime, and so is its local time. -/
def RoundTrip (d : ZonedTime) : Prop :=
  IsDatetime (zone.instant d) ∧ IsDatetime (zone.toLocal (zone.instant d))

instance (d : ZonedTime) : Decidable (zone.RoundTrip d) := inferInstanceAs (Decidable (_ ∧ _))

/-- Both readings of a local time can be converted to UTC and back. -/
def Representable (value : Int) : Prop := ∀ fold, zone.RoundTrip ⟨value, fold⟩

/-- What a local time resolves to: the earliest instant that shows it or, in a gap, the local time
that lies past it by the length of the gap. -/
structure ResolvesTo (value : Int) (d : ZonedTime) : Prop where
  occurs : (∃ t, zone.toLocal t = value) →
    d.wall = value ∧ zone.toLocal (zone.instant d) = value ∧
      ∀ t, zone.toLocal t = value → zone.instant d ≤ t
  gap (change : Int) : zone.InGap change value →
    d.wall = value + (zone.offset change - zone.offset (change - 1)) ∧
      zone.instant d = value - zone.offset (change - 1) ∧ zone.toLocal (zone.instant d) = d.wall
  either : (∃ t, zone.toLocal t = value) ∨ ∃ change, zone.InGap change value

end TimeZone

namespace Zone

variable (zone : Zone) {t t' : Int}

/-- The last transition up to a moment. -/
theorem last_transition (hle : t ≤ t') : zone.offset t' = zone.offset t ∨
    ∃ change, t < change ∧ change ≤ t' ∧ zone.Transition change ∧
      zone.offset t' = zone.offset change := by
  by_cases hex : ∃ change, t < change ∧ change ≤ t' ∧ zone.Transition change
  · obtain ⟨change, ⟨hlt, hct, hc⟩, hlast⟩ :=
      Int.exists_greatest_of_bdd ⟨t', fun u hu => hu.2.1⟩ hex
    refine .inr ⟨change, hlt, hct, hc, offset_eq hct ?_⟩
    intro u hu hut htr
    have := hlast u ⟨by omega, hut, htr⟩
    omega
  · left
    apply offset_eq hle
    intro u hu hut htr
    exact hex ⟨u, hu, hut, htr⟩

/-- The first transition after a moment. -/
theorem first_transition (hle : t ≤ t') : zone.offset t' = zone.offset t ∨
    ∃ change, t < change ∧ change ≤ t' ∧ zone.Transition change ∧
      zone.offset (change - 1) = zone.offset t := by
  by_cases hex : ∃ change, t < change ∧ change ≤ t' ∧ zone.Transition change
  · obtain ⟨change, ⟨hlt, hct, hc⟩, hfirst⟩ :=
      Int.exists_least_of_bdd ⟨t, fun u hu => hu.1.le⟩ hex
    refine .inr ⟨change, hlt, hct, hc, offset_eq (by omega) ?_⟩
    intro u hu hut htr
    have := hfirst u ⟨hu, by omega, htr⟩
    omega
  · left
    apply offset_eq hle
    intro u hu hut htr
    exact hex ⟨u, hu, hut, htr⟩

end Zone

namespace TimeZone

open Zone (last_transition first_transition)
open Recurrence (dayLength)

variable {zone : TimeZone} {t t' u change wall value : Int}

namespace Separated

variable (h : zone.Separated)
include h

/-- Before a transition the clocks show nothing later than the time it starts from. -/
theorem toLocal_before (hc : zone.Transition change) (hlt : u < change) :
    zone.toLocal u < change + zone.offset (change - 1) := by
  induction hn : (change - u).toNat using Nat.strong_induction_on generalizing change with
  | _ n ih =>
    rcases last_transition zone.toZone (show u ≤ change - 1 by omega) with heq | ⟨c, huc, hcc, htr, heq⟩
    · unfold Zone.toLocal
      omega
    · have hbefore := ih _ (by omega) htr huc rfl
      have hjump := (h.apart c change htr hc (by omega)).1
      omega

/-- From a transition on they show nothing earlier than the time it leads to. -/
theorem le_toLocal_since (hc : zone.Transition change) (hle : change ≤ u) :
    change + zone.offset change ≤ zone.toLocal u := by
  induction hn : (u - change).toNat using Nat.strong_induction_on generalizing change with
  | _ n ih =>
    rcases first_transition zone.toZone hle with heq | ⟨c, huc, hcc, htr, heq⟩
    · unfold Zone.toLocal
      omega
    · have hsince := ih _ (by omega) htr hcc rfl
      have hjump := (h.apart change c hc htr huc).2
      omega

/-- The clocks show a local time or jump over it. -/
theorem occurs_or_inGap (wall : Int) :
    (∃ t, zone.toLocal t = wall) ∨ ∃ change, zone.InGap change wall := by
  have hex : ∃ t, wall ≤ zone.toLocal t := by
    refine ⟨wall + dayLength, ?_⟩
    have := (h.offset_lt (wall + dayLength)).1
    unfold Zone.toLocal
    omega
  obtain ⟨change, hle, hfirst⟩ := Int.exists_least_of_bdd (P := fun t => wall ≤ zone.toLocal t)
    ⟨wall - dayLength, fun t ht => by
      have := (h.offset_lt t).2
      unfold Zone.toLocal at ht
      omega⟩ hex
  by_cases heq : zone.toLocal change = wall
  · exact .inl ⟨change, heq⟩
  · right
    have hbefore : zone.toLocal (change - 1) < wall := by
      by_contra hge
      have := hfirst (change - 1) (not_lt.mp hge)
      omega
    unfold Zone.toLocal at hbefore hle heq
    exact ⟨change, by omega, by omega⟩

/-- A local time that occurs has a first instant, the one its reading with `fold=0` gives. -/
theorem first_instant (hocc : zone.toLocal t = value) :
    zone.toLocal (zone.instant ⟨value, false⟩) = value ∧
      ∀ t, zone.toLocal t = value → zone.instant ⟨value, false⟩ ≤ t := by
  obtain ⟨first, hfirst, hleast⟩ := Int.exists_least_of_bdd
    (P := fun t => zone.toLocal t = value) ⟨value - dayLength, fun t ht => by
      have := (h.offset_lt t).2
      unfold Zone.toLocal at ht
      omega⟩ ⟨t, hocc⟩
  have hinstant : zone.instant ⟨value, false⟩ = first := by
    have hoffset := h.earliest value first hfirst hleast
    unfold Zone.toLocal at hfirst
    change value - zone.localOffset value false = first
    omega
  rw [hinstant]
  exact ⟨hfirst, hleast⟩

/-- No local time both occurs and lies in a gap. -/
theorem toLocal_ne_of_inGap (hgap : zone.InGap change value) (t : Int) : zone.toLocal t ≠ value := by
  have hc := Zone.Regular.transition_of_inGap hgap
  obtain ⟨hle, hlt⟩ := hgap
  by_cases htc : t < change
  · have := h.toLocal_before hc htc
    omega
  · have := h.le_toLocal_since hc (not_lt.mp htc)
    omega

/-- No local time lies in two gaps. -/
theorem inGap_unique (hgap : zone.InGap change value) (hgap' : zone.InGap t value) : change = t := by
  have hc := Zone.Regular.transition_of_inGap hgap
  have hc' := Zone.Regular.transition_of_inGap hgap'
  obtain ⟨hle, hlt⟩ := hgap
  obtain ⟨hle', hlt'⟩ := hgap'
  rcases lt_trichotomy change t with hlt'' | heq | hlt''
  · have := h.toLocal_before hc' hlt''
    unfold Zone.toLocal at this
    omega
  · exact heq
  · have := h.toLocal_before hc hlt''
    unfold Zone.toLocal at this
    omega

/-- In a gap the reading with the offset before the change lies after it, and shows the time
moved forward. -/
theorem offset_moved (hgap : zone.InGap change value) :
    zone.offset (value - zone.offset (change - 1)) = zone.offset change := by
  have hc := Zone.Regular.transition_of_inGap hgap
  obtain ⟨hle, hlt⟩ := hgap
  rcases first_transition zone.toZone (show change ≤ value - zone.offset (change - 1) by omega) with
    heq | ⟨c, hcc, hcv, htr, -⟩
  · exact heq
  · have hjump := (h.apart change c hc htr hcc).1
    omega

/-- The reading with the offset after the change lies before it, and shows an earlier time. -/
theorem offset_back (hgap : zone.InGap change value) :
    zone.offset (value - zone.offset change) = zone.offset (change - 1) := by
  have hc := Zone.Regular.transition_of_inGap hgap
  obtain ⟨hle, hlt⟩ := hgap
  rcases last_transition zone.toZone (show value - zone.offset change ≤ change - 1 by omega) with
    heq | ⟨c, hcc, hcv, htr, -⟩
  · exact heq.symm
  · have hjump := (h.apart c change htr hc (by omega)).2
    omega

/-- The time moved forward occurs once, so its reading leads back to the instant it came from. -/
theorem instant_moved (hgap : zone.InGap change value) :
    zone.fold (value - zone.offset (change - 1)) = false ∧
      zone.instant ⟨zone.toLocal (value - zone.offset (change - 1)), false⟩ =
        value - zone.offset (change - 1) := by
  have hmoved := h.offset_moved hgap
  have hc := Zone.Regular.transition_of_inGap hgap
  have hnone : ∀ t, zone.toLocal t = zone.toLocal (value - zone.offset (change - 1)) →
      value - zone.offset (change - 1) ≤ t := by
    intro t ht
    by_contra hlt
    obtain ⟨hle, hlt'⟩ := hgap
    by_cases htc : t < change
    · have := h.toLocal_before hc htc
      unfold Zone.toLocal at ht this
      omega
    · have hsame : zone.offset t = zone.offset change := by
        rcases first_transition zone.toZone (not_lt.mp htc) with heq | ⟨c, hcc, hct, htr, -⟩
        · exact heq
        · have hjump := (h.apart change c hc htr hcc).1
          omega
      unfold Zone.toLocal at ht
      omega
  constructor
  · by_contra hfold
    rw [Bool.not_eq_false, h.fold_iff] at hfold
    obtain ⟨t, hlt, ht⟩ := hfold
    have := hnone t ht
    omega
  · have hoffset := h.earliest _ _ rfl hnone
    change zone.toLocal _ - zone.localOffset (zone.toLocal _) false = _
    rw [hoffset, Zone.toLocal]
    omega

/-- The time moved forward by the gap is what that reading shows, and leads back to it. -/
theorem moved (hgap : zone.InGap change value) :
    zone.toLocal (value - zone.offset (change - 1)) =
      value + (zone.offset change - zone.offset (change - 1)) ∧
    zone.instant ⟨value + (zone.offset change - zone.offset (change - 1)), false⟩ =
      value - zone.offset (change - 1) := by
  have hlocal : zone.toLocal (value - zone.offset (change - 1)) =
      value + (zone.offset change - zone.offset (change - 1)) := by
    rw [Zone.toLocal, h.offset_moved hgap]
    omega
  obtain ⟨-, hinstant⟩ := h.instant_moved hgap
  rw [hlocal] at hinstant
  exact ⟨hlocal, hinstant⟩

end Separated

variable {d : ZonedTime}

theorem toUtc_ok (h : IsDatetime (zone.instant d)) : zone.toUtc d = .ok (zone.instant d) := if_pos h

theorem fromUtc_ok (h : IsDatetime (zone.toLocal t)) :
    zone.fromUtc t = .ok ⟨zone.toLocal t, zone.fold t⟩ := by
  unfold fromUtc datetimeOf
  rw [if_pos h]
  rfl

/-- A reading that leaves the datetimes on the way raises. -/
theorem roundTrip_error (h : ¬ zone.RoundTrip d) :
    (zone.toUtc d >>= zone.fromUtc) = .error (.other "OverflowError") := by
  unfold toUtc datetimeOf
  by_cases hutc : IsDatetime (zone.instant d)
  · have hlocal : ¬ IsDatetime (zone.toLocal (zone.instant d)) := fun hlocal => h ⟨hutc, hlocal⟩
    rw [if_pos hutc]
    change zone.fromUtc (zone.instant d) = _
    unfold fromUtc datetimeOf
    rw [if_neg hlocal]
    rfl
  · rw [if_neg hutc]
    rfl

theorem roundTrip_ok (h : zone.RoundTrip d) :
    (zone.toUtc d >>= zone.fromUtc) =
      .ok ⟨zone.toLocal (zone.instant d), zone.fold (zone.instant d)⟩ := by
  rw [toUtc_ok h.1]
  exact fromUtc_ok h.2

/-- The choice between the readings of a local time, once both have been converted. -/
def choose (zone : TimeZone) (value : Int) (firstRoundTrip secondRoundTrip : ZonedTime) :
    Except Exc ZonedTime :=
  if firstRoundTrip.wall = value then return ⟨value, false⟩
  else if secondRoundTrip.wall = value then return ⟨value, true⟩
  else
    match [firstRoundTrip, secondRoundTrip].filter (value < ·.wall) with
    | [] => throw (.valueError "unable to resolve recurrence time in timezone")
    | candidate :: candidates => do
      zone.earliestOf candidate (← zone.toUtc candidate) candidates

theorem resolveLocal_eq_choose : zone.resolveLocal value =
    (zone.toUtc ⟨value, false⟩ >>= zone.fromUtc) >>= fun firstRoundTrip =>
    (zone.toUtc ⟨value, true⟩ >>= zone.fromUtc) >>= fun secondRoundTrip =>
    zone.choose value firstRoundTrip secondRoundTrip := by
  unfold resolveLocal
  simp only [bind_assoc]
  rfl

/-- Outside the datetimes `_resolve_local` raises. -/
theorem resolveLocal_error (h : ¬ zone.Representable value) :
    zone.resolveLocal value = .error (.other "OverflowError") := by
  rw [resolveLocal_eq_choose]
  by_cases hfirst : zone.RoundTrip ⟨value, false⟩
  · have hsecond : ¬ zone.RoundTrip ⟨value, true⟩ := by
      intro hsecond
      apply h
      intro fold
      cases fold with
      | false => exact hfirst
      | true => exact hsecond
    rw [roundTrip_ok hfirst, roundTrip_error hsecond]
    rfl
  · rw [roundTrip_error hfirst]
    rfl

/-- In a gap the reading moved forward is the only candidate. -/
theorem choose_of_inGap (h : zone.Separated) (hgap : zone.InGap change value)
    (hrep : zone.RoundTrip ⟨value, false⟩) {fold : Bool} :
    zone.choose value
      ⟨zone.toLocal (value - zone.offset (change - 1)), zone.fold (value - zone.offset (change - 1))⟩
      ⟨zone.toLocal (value - zone.offset change), fold⟩ =
      .ok ⟨value + (zone.offset change - zone.offset (change - 1)), false⟩ := by
  have hback := h.offset_back hgap
  obtain ⟨hfold, -⟩ := h.instant_moved hgap
  obtain ⟨hfirst, hinstant⟩ := h.moved hgap
  have hfalse : zone.instant ⟨value, false⟩ = value - zone.offset (change - 1) := by
    change value - zone.localOffset value false = _
    rw [(h.gap change value hgap).1]
  have hsecond : zone.toLocal (value - zone.offset change) =
      value - (zone.offset change - zone.offset (change - 1)) := by
    rw [Zone.toLocal, hback]
    omega
  have hutc : IsDatetime (value - zone.offset (change - 1)) := hfalse ▸ hrep.1
  rw [hfirst, hsecond, hfold]
  obtain ⟨hle, hlt⟩ := hgap
  have hne : value + (zone.offset change - zone.offset (change - 1)) ≠ value := by omega
  have hne' : value - (zone.offset change - zone.offset (change - 1)) ≠ value := by omega
  have hforward : value < value + (zone.offset change - zone.offset (change - 1)) := by omega
  have hbehind : ¬ value < value - (zone.offset change - zone.offset (change - 1)) := by omega
  unfold choose
  rw [if_neg hne, if_neg hne', List.filter_cons_of_pos (by simpa using hforward),
    List.filter_cons_of_neg (by simpa using hbehind)]
  change (zone.toUtc _ >>= fun least => zone.earliestOf _ least []) = _
  rw [toUtc_ok (by rwa [hinstant])]
  rfl

/-- Between the datetimes `_resolve_local` finds the earliest instant of a local time, or the local
time past its gap. -/
theorem resolveLocal_ok (h : zone.Separated) (hrep : zone.Representable value) :
    ∃ d, zone.resolveLocal value = .ok d ∧ zone.ResolvesTo value d := by
  rw [resolveLocal_eq_choose, roundTrip_ok (hrep false), roundTrip_ok (hrep true)]
  rcases h.occurs_or_inGap value with ⟨t, ht⟩ | ⟨change, hgap⟩
  · obtain ⟨hvalid, hleast⟩ := h.first_instant ht
    refine ⟨⟨value, false⟩, if_pos hvalid, ?_, ?_, .inl ⟨t, ht⟩⟩
    · intro _
      exact ⟨rfl, hvalid, hleast⟩
    · intro change hgap
      exact absurd ht (h.toLocal_ne_of_inGap hgap t)
  · obtain ⟨hfalse, htrue⟩ := h.gap change value hgap
    have hfirst : zone.instant ⟨value, false⟩ = value - zone.offset (change - 1) := by
      change value - zone.localOffset value false = _
      rw [hfalse]
    have hsecond : zone.instant ⟨value, true⟩ = value - zone.offset change := by
      change value - zone.localOffset value true = _
      rw [htrue]
    obtain ⟨hlocal, hinstant⟩ := h.moved hgap
    refine ⟨⟨value + (zone.offset change - zone.offset (change - 1)), false⟩, ?_, ?_, ?_, ?_⟩
    · rw [hfirst, hsecond]
      exact choose_of_inGap h hgap (hrep false)
    · rintro ⟨t, ht⟩
      exact absurd ht (h.toLocal_ne_of_inGap hgap t)
    · intro change' hgap'
      obtain rfl := h.inGap_unique hgap hgap'
      refine ⟨rfl, hinstant, ?_⟩
      rw [hinstant]
      exact hlocal
    · exact .inr ⟨change, hgap⟩

/-- The recurrences go by the instant of that datetime. -/
theorem resolveLocal_instant (h : zone.Separated) (hrep : zone.Representable value) :
    ∃ d, zone.resolveLocal value = .ok d ∧
      Recurrence.resolveLocal value zone.toZone = .ok (zone.instant d) := by
  obtain ⟨d, hd, hocc, hgap, heither⟩ := resolveLocal_ok h hrep
  refine ⟨d, hd, ?_⟩
  unfold Recurrence.resolveLocal
  rcases heither with ⟨t, ht⟩ | ⟨change, hchange⟩
  · obtain ⟨-, hvalid, hleast⟩ := hocc ⟨t, ht⟩
    obtain ⟨hvalid', hleast'⟩ := h.first_instant ht
    have hfirst : value - zone.localOffset value false = zone.instant d := by
      have hle := hleast _ hvalid'
      have hle' := hleast' _ hvalid
      change _ ≤ value - zone.localOffset value false at hle
      change value - zone.localOffset value false ≤ _ at hle'
      omega
    simp only [hfirst]
    exact if_pos hvalid
  · obtain ⟨hfalse, htrue⟩ := h.gap change value hchange
    obtain ⟨-, hinstant, -⟩ := hgap change hchange
    have hmoved := h.offset_moved hchange
    have hback := h.offset_back hchange
    obtain ⟨hle, hlt⟩ := hchange
    have hne : ¬ value - zone.offset (change - 1) + zone.offset change = value := by omega
    have hne' : ¬ value - zone.offset change + zone.offset (change - 1) = value := by omega
    have hforward : value < value - zone.offset (change - 1) + zone.offset change := by omega
    have hbehind : ¬ value < value - zone.offset change + zone.offset (change - 1) := by omega
    simp [hfalse, htrue, hmoved, hback, hne, hne', hforward, hbehind, hinstant]

/-- Between the datetimes `_resolve_local` resolves a local time, and elsewhere it raises. -/
theorem resolveLocal_correct (h : zone.Separated) :
    (zone.Representable value →
      ∃ d, zone.resolveLocal value = .ok d ∧ zone.ResolvesTo value d) ∧
    (¬ zone.Representable value → zone.resolveLocal value = .error (.other "OverflowError")) :=
  ⟨resolveLocal_ok h, resolveLocal_error⟩

/-- Five hours behind UTC. -/
def fiveBehind : TimeZone where
  offset _ := -18000000000
  localOffset _ _ := -18000000000
  fold _ := false

/-- The last local times there are have no datetime in UTC. -/
theorem resolveLocal_overflows : fiveBehind.Separated ∧ IsDatetime 253402299000000000 ∧
    fiveBehind.resolveLocal 253402299000000000 = .error (.other "OverflowError") := by
  refine ⟨⟨?_, ?_, ?_, ?_, ?_, ?_⟩, by decide, rfl⟩
  · intro t
    change -86400000000 < (-18000000000 : Int) ∧ (-18000000000 : Int) < 86400000000
    decide
  · intro t t' hc
    exact absurd rfl hc
  · intro wall t _ _
    rfl
  · intro wall t _ _
    rfl
  · intro change wall hgap
    exact ⟨rfl, rfl⟩
  · intro t
    constructor
    · intro hfold
      cases hfold
    · rintro ⟨t', hlt, heq⟩
      change t' + -18000000000 = t + -18000000000 at heq
      omega

/-- A zone with an hour of summer time, in the 180 days from the epoch on. -/
def summerTime : TimeZone where
  offset t := if 0 ≤ t ∧ t < 15552000000000 then 3600000000 else 0
  localOffset wall fold :=
    let shift := if fold then 0 else 3600000000
    if shift ≤ wall ∧ wall < 15552000000000 + shift then 3600000000 else 0
  fold t := 15552000000000 ≤ t && t < 15555600000000

theorem summerTime_offset (t : Int) :
    0 ≤ t ∧ t < 15552000000000 ∧ summerTime.offset t = 3600000000 ∨
      (t < 0 ∨ 15552000000000 ≤ t) ∧ summerTime.offset t = 0 := by
  by_cases hin : 0 ≤ t ∧ t < 15552000000000
  · exact .inl ⟨hin.1, hin.2, if_pos hin⟩
  · exact .inr ⟨by omega, if_neg hin⟩

theorem summerTime_localOffset (wall : Int) (fold : Bool) :
    (if fold then 0 else 3600000000) ≤ wall ∧
      wall < 15552000000000 + (if fold then 0 else 3600000000) ∧
      summerTime.localOffset wall fold = 3600000000 ∨
    (wall < (if fold then 0 else 3600000000) ∨
      15552000000000 + (if fold then 0 else 3600000000) ≤ wall) ∧
      summerTime.localOffset wall fold = 0 := by
  unfold summerTime
  dsimp only
  split <;> omega

theorem summerTime_separated : summerTime.Separated := by
  refine ⟨?_, ?_, ?_, ?_, ?_, ?_⟩
  · intro t
    have := summerTime_offset t
    unfold Recurrence.dayLength
    omega
  · intro t t' hc hc' hlt
    unfold Zone.Transition at hc hc'
    have := summerTime_offset t
    have := summerTime_offset (t - 1)
    have := summerTime_offset t'
    have := summerTime_offset (t' - 1)
    omega
  · intro wall t ht hfirst
    have hearly := hfirst (wall - 3600000000)
    have hlate := hfirst wall
    unfold Zone.toLocal at ht hearly hlate
    have := summerTime_offset t
    have := summerTime_offset wall
    have := summerTime_offset (wall - 3600000000)
    have := summerTime_localOffset wall false
    simp only [Bool.false_eq_true, if_false] at this
    omega
  · intro wall t ht hlast
    have hearly := hlast (wall - 3600000000)
    have hlate := hlast wall
    unfold Zone.toLocal at ht hearly hlate
    have := summerTime_offset t
    have := summerTime_offset wall
    have := summerTime_offset (wall - 3600000000)
    have := summerTime_localOffset wall true
    simp only [if_true] at this
    omega
  · rintro change wall ⟨hle, hlt⟩
    have := summerTime_offset change
    have := summerTime_offset (change - 1)
    have hfalse := summerTime_localOffset wall false
    have htrue := summerTime_localOffset wall true
    simp only [Bool.false_eq_true, if_false] at hfalse
    simp only [if_true] at htrue
    omega
  · intro t
    have hfold : summerTime.fold t = true ↔ 15552000000000 ≤ t ∧ t < 15555600000000 := by
      unfold summerTime
      simp
    rw [hfold]
    constructor
    · intro hin
      refine ⟨t - 3600000000, by omega, ?_⟩
      have := summerTime_offset t
      have := summerTime_offset (t - 3600000000)
      unfold Zone.toLocal
      omega
    · rintro ⟨t', hlt, heq⟩
      have := summerTime_offset t
      have := summerTime_offset t'
      unfold Zone.toLocal at heq
      omega

/-- The local time half an hour into the gap at the beginning of summer. -/
theorem resolveLocal_gap : ∃ d, summerTime.resolveLocal 1800000000 = .ok d ∧
    summerTime.ResolvesTo 1800000000 d := by
  refine (resolveLocal_correct summerTime_separated).1 ?_
  intro fold
  cases fold <;> decide

end TimeZone

end Pybus
