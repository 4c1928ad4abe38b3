import Pybus.Store

/-! The slots of a recurrence: a local time that recurs daily, weekly or monthly in a time zone,
and the first of its instants after a given one. -/
namespace Pybus

/-- A `ZoneInfo`: the UTC offset at an instant, and the one a local time with a `fold` gets. -/
structure Zone where
  offset : Instant → Int
  localOffset : (wall : Int) → (fold : Bool) → Int

/-- The time zone database. -/
class Zones where
  zone : String → Option Zone

/-- Only UTC. -/
@[reducible] def Zones.utc : Zones where
  zone name := if name = "UTC" then some ⟨fun _ => 0, fun _ _ => 0⟩ else none

namespace Recurrence

/-- A day in microseconds. -/
def dayLength : Int := 86400000000

/-- The year, the month and the day of a date, given by its number of days since the epoch. -/
def civil (day : Int) : Int × Int × Int :=
  let z := day + 719468
  let era := z / 146097
  let doe := z - era * 146097
  let yoe := (doe - doe / 1460 + doe / 36524 - doe / 146096) / 365
  let doy := doe - (365 * yoe + yoe / 4 - yoe / 100)
  let mp := (5 * doy + 2) / 153
  let month := if mp < 10 then mp + 3 else mp - 9
  (yoe + era * 400 + (if month ≤ 2 then 1 else 0), month, doy - (153 * mp + 2) / 5 + 1)

/-- The number of days from the epoch to a date. -/
def daysFromCivil (year month day : Int) : Int :=
  let y := if month ≤ 2 then year - 1 else year
  let era := y / 400
  let yoe := y - era * 400
  let doy := (153 * (if 2 < month then month - 3 else month + 9) + 2) / 5 + day - 1
  era * 146097 + (yoe * 365 + yoe / 4 - yoe / 100 + doy) - 719468

/-- `calendar.monthrange(year, month)[1]`. -/
def monthLength (year month : Int) : Int :=
  if month = 2 then
    if year % 4 = 0 ∧ (year % 100 ≠ 0 ∨ year % 400 = 0) then 29 else 28
  else if month ∈ [4, 6, 9, 11] then 30 else 31

/-- The date of a local time, as a number of days, and its year and month. -/
def date (wall : Int) : Int := wall / dayLength

def year (wall : Int) : Int := (civil (date wall)).1

def month (wall : Int) : Int := (civil (date wall)).2.1

/-- The days from the epoch to the last date there is. -/
def lastDate : Int := daysFromCivil 9999 12 31

/-- `_initial_index`. -/
def initialIndex (cadence : RecurrenceCadence) (anchor after : Int) : Int :=
  match cadence with
  | .daily => max 1 (date after - date anchor)
  | .weekly => max 1 ((date after - date anchor) / 7)
  | .monthly => max 1 ((year after - year anchor) * 12 + month after - month anchor)

/-- A local time plus some days, as long as that is a date. -/
def addDays (wall days : Int) : Except Exc Int :=
  if lastDate < date wall + days then .error (.other "OverflowError")
  else .ok (wall + days * dayLength)

/-- `_candidate_local`. -/
def candidateLocal (anchor : Int) (cadence : RecurrenceCadence) (index : Int) : Except Exc Int :=
  match cadence with
  | .daily => addDays anchor index
  | .weekly => addDays anchor (7 * index)
  | .monthly =>
    let monthIndex := year anchor * 12 + month anchor - 1 + index
    let year := monthIndex / 12
    let month := monthIndex % 12 + 1
    let day := min (civil (date anchor)).2.2 (monthLength year month)
    if 9999 < year then .error (.valueError "year is out of range")
    else .ok (daysFromCivil year month day * dayLength + anchor % dayLength)

/-- `_resolve_local`: the instant of a local time. A time that occurs twice is the earlier one, and
a time in a gap moves forward. -/
def resolveLocal (value : Int) (zone : Zone) : Except Exc Instant :=
  let first := value - zone.localOffset value false
  let second := value - zone.localOffset value true
  if first + zone.offset first = value then .ok first
  else if second + zone.offset second = value then .ok second
  else
    match [first, second].filter fun t => value < t + zone.offset t with
    | [] => .error (.valueError "unable to resolve recurrence time in timezone")
    | t :: ts => .ok (ts.foldl min t)

/-- The loop of `next_cadence_at` from an index on. The number of rounds is bounded, because the
dates are. -/
def nextSlot (r : Recurrence) (zone : Zone) (anchor : Int) (after : Instant) :
    (rounds : Nat) → (index : Int) → Except Exc (Option Instant)
  | 0, _ => .error (.other "OverflowError")
  | rounds + 1, index => do
    let candidate ← resolveLocal (← candidateLocal anchor r.cadence index) zone
    if after < candidate then
      return if r.endsAt.any (· ≤ candidate) then none else some candidate
    else nextSlot r zone anchor after rounds (index + 1)

/-- The number of dates there are. -/
def dates : Nat := 3652060

/-- `next_cadence_at`. -/
def nextCadenceAt [Zones] (r : Recurrence) (startsAt after : Instant) :
    Except Exc (Option Instant) :=
  match Zones.zone r.timezone with
  | none => .error (.valueError ("unknown IANA timezone: " ++ r.timezone))
  | some zone =>
    let anchor := startsAt + zone.offset startsAt
    nextSlot r zone anchor after dates
      (initialIndex r.cadence anchor (after + zone.offset after))

/-- The calendar that a time zone database gives. -/
instance calendar [Zones] : Calendar := ⟨nextCadenceAt⟩

variable {r : Recurrence} {zone : Zone} {anchor index : Int} {after t : Instant} {rounds : Nat}

/-- What the loop returns lies after the given instant and before the end of the recurrence. -/
theorem nextSlot_bounds (h : nextSlot r zone anchor after rounds index = .ok (some t)) :
    after < t ∧ ∀ e, r.endsAt = some e → t < e := by
  induction rounds generalizing index with
  | zero => simp [nextSlot] at h
  | succ rounds ih =>
    simp only [nextSlot, bind, Except.bind, pure, Except.pure] at h
    split at h
    · cases h
    split at h
    · cases h
    split at h
    · rename_i hlt
      split at h
      · cases h
      · rename_i hends
        cases h
        refine ⟨hlt, fun e he => ?_⟩
        simpa [he] using hends
    · exact ih h

theorem nextCadenceAt_bounds [Zones] {startsAt : Instant}
    (h : nextCadenceAt r startsAt after = .ok (some t)) :
    after < t ∧ ∀ e, r.endsAt = some e → t < e := by
  unfold nextCadenceAt at h
  split at h
  · cases h
  · exact nextSlot_bounds h

/-- From the last date on there are no further slots. -/
theorem candidateLocal_raises {cadence : RecurrenceCadence} (hyear : 1 ≤ year anchor)
    (hmonth : 1 ≤ month anchor) (hdate : lastDate - dates < date anchor)
    (h : (dates : Int) ≤ index) : ∃ exc, candidateLocal anchor cadence index = .error exc := by
  have hlast : lastDate < date anchor + index := by omega
  have hindex : (3652060 : Int) ≤ index := h
  cases cadence with
  | daily => simp [candidateLocal, addDays, hlast]
  | weekly =>
    have : lastDate < date anchor + 7 * index := by omega
    simp [candidateLocal, addDays, this]
  | monthly =>
    have : 9999 < (year anchor * 12 + month anchor - 1 + index) / 12 := by omega
    simp [candidateLocal, this]

/-- The bound on the rounds of the loop is never reached. -/
theorem nextSlot_rounds (hyear : 1 ≤ year anchor) (hmonth : 1 ≤ month anchor)
    (hdate : lastDate - dates < date anchor) (hpos : 0 < rounds)
    (h : (dates : Int) < index + rounds) (k : Nat) :
    nextSlot r zone anchor after (rounds + k) index = nextSlot r zone anchor after rounds index := by
  induction rounds generalizing index with
  | zero => cases hpos
  | succ rounds ih =>
    rw [Nat.succ_add]
    simp only [nextSlot, bind, Except.bind]
    cases hc : candidateLocal anchor r.cadence index with
    | error exc => rfl
    | ok wall =>
      have hlt : index < dates := by
        by_contra hge
        obtain ⟨exc, hexc⟩ : ∃ exc, candidateLocal anchor r.cadence index = .error exc :=
          candidateLocal_raises hyear hmonth hdate (not_lt.mp hge)
        simp [hexc] at hc
      have hpos : 0 < rounds := by omega
      dsimp only
      rw [ih hpos (by omega)]

end Recurrence

end Pybus
