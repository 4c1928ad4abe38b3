import Pybus.OncePerDay
import Pybus.ZonedTimes

/-! The slots of a cron rule on the days there are, and the next of them. -/
namespace Pybus

open Recurrence

/-- `d + timedelta(days=1)`. -/
def AwareDatetime.nextDay (d : AwareDatetime) : Except Exc AwareDatetime := do
  let wall ← datetimeOf (d.wall + dayLength)
  return { d with wall }

namespace ScheduleRule

section Definitions

variable (rule : ScheduleRule)

instance : Decidable rule.Named := inferInstanceAs (Decidable (_ ∧ _ ∧ _ ∧ _))

/-- The loop of `_cron_due_time` over the candidates. -/
def searchFrom (days : List Int) (startFrom : AwareDatetime) :
    Nat → AwareDatetime → Except Exc AwareDatetime
  | 0, _ => return startFrom
  | n + 1, candidate => do
    if candidate.weekday ∈ days then return candidate
    else searchFrom days startFrom n (← candidate.nextDay)

/-- The choice of a day of the week, from a slot on. -/
def search (startFrom : AwareDatetime) : Except Exc AwareDatetime :=
  match rule.days with
  | none | some [] => return startFrom
  | some days => searchFrom days startFrom 8 startFrom

/-- `_cron_due_time`, where the arithmetic of datetimes raises after the last one. -/
def checkedCronDueTime (current : AwareDatetime) (lastRun : Option AwareDatetime) :
    Except Exc AwareDatetime := do
  let scheduledToday ← rule.scheduledToday current
  let hasRunToday := lastRun.any fun run => date current.wall ≤ date run.wall
  let startFrom ←
    if hasRunToday ∨ scheduledToday.wall ≤ current.wall then scheduledToday.nextDay
    else pure scheduledToday
  rule.search startFrom

/-- The days of the week that the rule allows; without any it allows every day. -/
def Allows (day : Int) : Prop :=
  ∀ days, rule.days = some days → days ≠ [] → (day + 3) % 7 ∈ days

/-- A time at which a task may be due next: it lies in the future, at the time of the day that the
rule names and on a day that it allows, later than the day of the last run. -/
structure Slot (current : AwareDatetime) (lastRun : Option AwareDatetime) (t : AwareDatetime) :
    Prop where
  datetime : IsDatetime t.wall
  offset : t.offset = current.offset
  future : current.wall < t.wall
  time : t.wall % dayLength = (rule.hour.getD 0 * 60 + rule.minute.getD 0) * 60000000
  weekday : ∀ days, rule.days = some days → days ≠ [] → t.weekday ∈ days
  later : ∀ run, lastRun = some run → date run.wall < date t.wall

/-- The first day whose slot lies in the future and that is later than that of the last run. -/
def firstDay (current : AwareDatetime) (lastRun : Option AwareDatetime) : Int :=
  if (lastRun.any fun run => date current.wall ≤ date run.wall) ∨
      (rule.slotOn (date current.wall) current.offset).wall ≤ current.wall then
    date current.wall + 1
  else date current.wall

end Definitions

variable {rule : ScheduleRule} {current start t : AwareDatetime} {lastRun : Option AwareDatetime}
  {days : List Int} {day offset : Int} {n : Nat}

theorem isDatetime_slotOn (h : rule.Named) (hfirst : date firstDatetime ≤ day) :
    IsDatetime (rule.slotOn day offset).wall ↔ day ≤ lastDate := by
  obtain ⟨h₁, h₂, h₃, h₄⟩ := h
  have hlast : lastDate = 2932896 := by decide
  have hstart : date firstDatetime = -719162 := by decide
  rw [hstart] at hfirst
  unfold IsDatetime firstDatetime lastDatetime
  simp only [slotOn, dayLength, hlast]
  omega

theorem nextDay_slotOn (h : rule.Named) (hfirst : date firstDatetime ≤ day) :
    (rule.slotOn day offset).nextDay = if day + 1 ≤ lastDate then .ok (rule.slotOn (day + 1) offset)
      else .error (.other "OverflowError") := by
  have hadd : (rule.slotOn day offset).wall + dayLength = (rule.slotOn (day + 1) offset).wall := by
    simp only [slotOn, dayLength]
    omega
  unfold AwareDatetime.nextDay datetimeOf
  rw [hadd]
  by_cases hday : day + 1 ≤ lastDate
  · rw [if_pos ((isDatetime_slotOn h (by omega)).mpr hday), if_pos hday]
    rfl
  · rw [if_neg fun hw => hday ((isDatetime_slotOn h (by omega)).mp hw), if_neg hday]
    rfl

theorem nextDay_eq {d next : AwareDatetime} (h : d.nextDay = .ok next) : next = d.add dayLength := by
  unfold AwareDatetime.nextDay datetimeOf at h
  split at h
  · exact (Except.ok.inj h).symm
  · cases h

theorem weekday_slotOn (h : rule.Named) : (rule.slotOn day offset).weekday = (day + 3) % 7 := by
  unfold AwareDatetime.weekday
  rw [date_slotOn h]

theorem firstDay_cases (rule : ScheduleRule) (current : AwareDatetime)
    (lastRun : Option AwareDatetime) :
    rule.firstDay current lastRun = date current.wall + 1 ∧
      ((∃ run, lastRun = some run ∧ date current.wall ≤ date run.wall) ∨
        (rule.slotOn (date current.wall) current.offset).wall ≤ current.wall) ∨
    rule.firstDay current lastRun = date current.wall ∧
      (∀ run, lastRun = some run → date run.wall < date current.wall) ∧
      current.wall < (rule.slotOn (date current.wall) current.offset).wall := by
  unfold firstDay
  cases lastRun with
  | none =>
    by_cases hpassed : (rule.slotOn (date current.wall) current.offset).wall ≤ current.wall
    · simp [hpassed]
    · simp [hpassed, not_le.mp hpassed]
  | some run =>
    by_cases hrun : date current.wall ≤ date run.wall
    · simp [hrun]
    · by_cases hpassed : (rule.slotOn (date current.wall) current.offset).wall ≤ current.wall
      · simp [hpassed]
      · simp [hrun, hpassed, not_le.mp hpassed, not_le.mp hrun]

/-- The search begins with the slot of the first day, if there is such a day. -/
theorem checkedCronDueTime_eq (h : rule.Named) (hfirst : date firstDatetime ≤ date current.wall)
    (hend : date current.wall ≤ lastDate) :
    rule.checkedCronDueTime current lastRun =
      if rule.firstDay current lastRun ≤ lastDate then
        rule.search (rule.slotOn (rule.firstDay current lastRun) current.offset)
      else .error (.other "OverflowError") := by
  unfold checkedCronDueTime firstDay
  rw [scheduledToday_eq h]
  by_cases hnext : (lastRun.any fun run => date current.wall ≤ date run.wall) ∨
      (rule.slotOn (date current.wall) current.offset).wall ≤ current.wall
  · rw [if_pos hnext]
    refine (if_pos hnext).trans ?_
    change ((rule.slotOn (date current.wall) current.offset).nextDay >>= rule.search) = _
    rw [nextDay_slotOn h hfirst]
    by_cases hday : date current.wall + 1 ≤ lastDate
    · rw [if_pos hday, if_pos hday]
      rfl
    · rw [if_neg hday, if_neg hday]
      rfl
  · rw [if_neg hnext, if_pos hend]
    exact if_neg hnext

theorem date_le_firstDay (rule : ScheduleRule) (current : AwareDatetime)
    (lastRun : Option AwareDatetime) : date current.wall ≤ rule.firstDay current lastRun := by
  rcases firstDay_cases rule current lastRun with ⟨hd, -⟩ | ⟨hd, -⟩ <;> omega

theorem date_bounds (h : IsDatetime current.wall) :
    date firstDatetime ≤ date current.wall ∧ date current.wall ≤ lastDate := by
  have hlastDay : date lastDatetime = lastDate := by decide
  rw [← hlastDay]
  exact ⟨Int.ediv_le_ediv (by decide) h.1, Int.ediv_le_ediv (by decide) h.2⟩

/-- A time at the time of the day that the rule names is the slot of its day. -/
theorem eq_slotOn (htime : t.wall % dayLength =
    (rule.hour.getD 0 * 60 + rule.minute.getD 0) * 60000000) (hoffset : t.offset = offset) :
    t = rule.slotOn (date t.wall) offset := by
  have hwall : t.wall = (rule.slotOn (date t.wall) offset).wall := by
    simp only [slotOn, ← htime]
    exact (Int.ediv_mul_add_emod t.wall dayLength).symm
  cases t with
  | mk wall o =>
    subst hoffset
    exact congrArg (AwareDatetime.mk · o) hwall

/-- The slots that are left are those of the days from the first one on. -/
theorem slot_iff (h : rule.Named) (hcurrent : IsDatetime current.wall)
    (hlast : ∀ run, lastRun = some run → date run.wall ≤ date current.wall) :
    rule.Slot current lastRun t ↔ ∃ day, rule.firstDay current lastRun ≤ day ∧ day ≤ lastDate ∧
      rule.Allows day ∧ t = rule.slotOn day current.offset := by
  obtain ⟨hfirst, -⟩ := date_bounds hcurrent
  have hday : ∀ day, date (rule.slotOn day current.offset).wall = day :=
    fun day => date_slotOn h day current.offset
  constructor
  · rintro ⟨hdatetime, hoffset, hfuture, htime, hweekday, hlater⟩
    have ht : t = rule.slotOn (date t.wall) current.offset := eq_slotOn htime hoffset
    have hle : date current.wall ≤ date t.wall := Int.ediv_le_ediv (by decide) hfuture.le
    refine ⟨date t.wall, ?_, ?_, hweekday, ht⟩
    · rcases firstDay_cases rule current lastRun with ⟨hd, hnext⟩ | ⟨hd, -⟩
      · have hne : date t.wall ≠ date current.wall := by
          intro heq
          rcases hnext with ⟨run, hrun, hrunDay⟩ | hpassed
          · have := hlater run hrun
            omega
          · rw [ht, heq] at hfuture
            omega
        omega
      · omega
    · rw [ht] at hdatetime
      exact (isDatetime_slotOn h (by omega)).mp hdatetime
  · rintro ⟨day, hfrom, hlastDate, hallows, rfl⟩
    obtain ⟨h₁, h₂, h₃, h₄⟩ := h
    have hge := date_le_firstDay rule current lastRun
    refine ⟨(isDatetime_slotOn ⟨h₁, h₂, h₃, h₄⟩ (by omega)).mpr hlastDate, rfl, ?_, ?_, ?_, ?_⟩
    · rcases firstDay_cases rule current lastRun with ⟨hd, -⟩ | ⟨hd, -, hfuture⟩
      · simp only [slotOn, date, dayLength] at hd hfrom ⊢
        omega
      · simp only [slotOn, dayLength] at hfuture ⊢
        omega
    · simp only [slotOn, dayLength]
      omega
    · intro days hdays hne
      rw [weekday_slotOn ⟨h₁, h₂, h₃, h₄⟩]
      exact hallows days hdays hne
    · intro run hrun
      rw [hday]
      have := hlast run hrun
      rcases firstDay_cases rule current lastRun with ⟨hd, -⟩ | ⟨hd, hrunDay, -⟩
      · omega
      · have := hrunDay run hrun
        omega

/-- The search takes the first day that is one of the days of the week, unless it comes to the last
day there is or runs out of rounds. -/
theorem searchFrom_cases (h : rule.Named) (hfirst : date firstDatetime ≤ day)
    (hday : day ≤ lastDate) (n : Nat) :
    (∃ d, day ≤ d ∧ d ≤ lastDate ∧ (∀ e, day ≤ e → e < d → (e + 3) % 7 ∉ days) ∧
      (d + 3) % 7 ∈ days ∧
      searchFrom days start n (rule.slotOn day offset) = .ok (rule.slotOn d offset)) ∨
    (∀ d, day ≤ d → d ≤ lastDate → (d + 3) % 7 ∉ days) ∧
      searchFrom days start n (rule.slotOn day offset) = .error (.other "OverflowError") ∨
    (∀ d, day ≤ d → d < day + n → (d + 3) % 7 ∉ days) ∧
      searchFrom days start n (rule.slotOn day offset) = .ok start := by
  induction n generalizing day with
  | zero =>
    refine .inr (.inr ⟨?_, rfl⟩)
    intro d hd hlt
    omega
  | succ n ih =>
    unfold searchFrom
    rw [weekday_slotOn h]
    by_cases hmem : (day + 3) % 7 ∈ days
    · refine .inl ⟨day, le_rfl, hday, ?_, hmem, ?_⟩
      · intro e he hlt
        omega
      · rw [if_pos hmem]
        rfl
    · have hstep : ∀ e, day ≤ e → (day + 1 ≤ e → (e + 3) % 7 ∉ days) → (e + 3) % 7 ∉ days := by
        intro e he hlater
        rcases eq_or_lt_of_le he with rfl | hlt
        · exact hmem
        · exact hlater hlt
      rw [if_neg hmem, nextDay_slotOn h hfirst]
      by_cases hnext : day + 1 ≤ lastDate
      · rw [if_pos hnext]
        change (∃ d, _ ∧ _ ∧ _ ∧ _ ∧ searchFrom days start n _ = _) ∨
          _ ∧ searchFrom days start n _ = _ ∨ _ ∧ searchFrom days start n _ = _
        rcases ih (by omega) hnext with
          ⟨d, hd, hle, hnone, hmemd, hr⟩ | ⟨hnone, hr⟩ | ⟨hnone, hr⟩
        · refine .inl ⟨d, by omega, hle, ?_, hmemd, hr⟩
          intro e he hlt
          exact hstep e he fun hlater => hnone e hlater hlt
        · refine .inr (.inl ⟨?_, hr⟩)
          intro e he hle
          exact hstep e he fun hlater => hnone e hlater hle
        · refine .inr (.inr ⟨?_, hr⟩)
          intro e he hlt
          exact hstep e he fun hlater => hnone e hlater (by omega)
      · rw [if_neg hnext]
        refine .inr (.inl ⟨?_, rfl⟩)
        intro d hd hle
        obtain rfl : d = day := by omega
        exact hmem

/-- Each week has the days of the week. -/
theorem exists_weekday (hne : days ≠ []) (hdays : ∀ d ∈ days, 0 ≤ d ∧ d ≤ 6) (day : Int) :
    ∃ d, day ≤ d ∧ d < day + 7 ∧ (d + 3) % 7 ∈ days := by
  obtain ⟨w, hw⟩ := List.exists_mem_of_ne_nil days hne
  obtain ⟨hlow, hhigh⟩ := hdays w hw
  refine ⟨day + (w - (day + 3)) % 7, by omega, by omega, ?_⟩
  have heq : (day + (w - (day + 3)) % 7 + 3) % 7 = w := by omega
  rwa [heq]

theorem allows_iff {w : Int} {ws : List Int} (hdays : rule.days = some (w :: ws)) :
    rule.Allows day ↔ (day + 3) % 7 ∈ w :: ws := by
  unfold Allows
  rw [hdays]
  constructor
  · intro hall
    exact hall _ rfl (List.cons_ne_nil w ws)
  · rintro hmem days heq -
    obtain rfl := Option.some.inj heq
    exact hmem

/-- What `_cron_due_time` does from the first day on: it takes the slot of the first day allowed,
raises where there is none, and otherwise gives up after eight days without one. -/
theorem search_cases (h : rule.Named) (hfirst : date firstDatetime ≤ day) (hday : day ≤ lastDate) :
    (∃ d, day ≤ d ∧ d ≤ lastDate ∧ rule.Allows d ∧ (∀ e, day ≤ e → rule.Allows e → d ≤ e) ∧
      rule.search (rule.slotOn day offset) = .ok (rule.slotOn d offset)) ∨
    (∀ d, day ≤ d → d ≤ lastDate → ¬ rule.Allows d) ∧
      rule.search (rule.slotOn day offset) = .error (.other "OverflowError") ∨
    (∀ d, day ≤ d → d < day + 8 → ¬ rule.Allows d) ∧
      rule.search (rule.slotOn day offset) = .ok (rule.slotOn day offset) := by
  have hevery : (∀ d, rule.Allows d) →
      rule.search (rule.slotOn day offset) = .ok (rule.slotOn day offset) →
      ∃ d, day ≤ d ∧ d ≤ lastDate ∧ rule.Allows d ∧ (∀ e, day ≤ e → rule.Allows e → d ≤ e) ∧
        rule.search (rule.slotOn day offset) = .ok (rule.slotOn d offset) :=
    fun hall hr => ⟨day, le_rfl, hday, hall day, fun e he _ => he, hr⟩
  cases hd : rule.days with
  | none =>
    refine .inl (hevery ?_ ?_)
    · intro d days hdays
      rw [hd] at hdays
      cases hdays
    · unfold search
      rw [hd]
      rfl
  | some days =>
    cases days with
    | nil =>
      refine .inl (hevery ?_ ?_)
      · intro d days hdays hne
        rw [hd, Option.some.injEq] at hdays
        exact absurd hdays.symm hne
      · unfold search
        rw [hd]
        rfl
    | cons w ws =>
      have hsearch : rule.search (rule.slotOn day offset) =
          searchFrom (w :: ws) (rule.slotOn day offset) 8 (rule.slotOn day offset) := by
        unfold search
        rw [hd]
      simp only [allows_iff hd, hsearch]
      rcases searchFrom_cases h hfirst hday 8 with
        ⟨d, hle, hlast, hnone, hmem, hr⟩ | hraises | hgives
      · refine .inl ⟨d, hle, hlast, hmem, ?_, hr⟩
        intro e he hmem'
        by_contra hlt
        exact hnone e he (not_le.mp hlt) hmem'
      · exact .inr (.inl hraises)
      · exact .inr (.inr hgives)

/-- Days of the week come within eight days. -/
theorem search_spec (h : rule.Named) (hdays : ∀ days, rule.days = some days → ∀ d ∈ days, 0 ≤ d ∧ d ≤ 6)
    (hfirst : date firstDatetime ≤ day) (hday : day ≤ lastDate) :
    (∃ d, day ≤ d ∧ d ≤ lastDate ∧ rule.Allows d ∧ (∀ e, day ≤ e → rule.Allows e → d ≤ e) ∧
      rule.search (rule.slotOn day offset) = .ok (rule.slotOn d offset)) ∨
    (∀ d, day ≤ d → d ≤ lastDate → ¬ rule.Allows d) ∧
      rule.search (rule.slotOn day offset) = .error (.other "OverflowError") := by
  rcases search_cases h hfirst hday with hfinds | hraises | ⟨hnone, -⟩
  · exact .inl hfinds
  · exact .inr hraises
  · exfalso
    have hself := hnone day le_rfl (by omega)
    cases hd : rule.days with
    | none =>
      apply hself
      intro days hdays
      rw [hd] at hdays
      cases hdays
    | some days =>
      cases days with
      | nil =>
        apply hself
        intro days hdays hne
        rw [hd, Option.some.injEq] at hdays
        exact absurd hdays.symm hne
      | cons w ws =>
        obtain ⟨d, hle, hlt, hmem⟩ := exists_weekday (List.cons_ne_nil w ws) (hdays _ hd) day
        exact hnone d hle (by omega) ((allows_iff hd).mpr hmem)

/-- On any day there is, `_cron_due_time` raises only where no day that the rule allows is left. -/
theorem checkedCronDueTime_cases (lastRun : Option AwareDatetime) (h : rule.Named) (hcurrent : IsDatetime current.wall) :
    (∃ d, rule.checkedCronDueTime current lastRun = .ok d) ∨
    (∀ d, rule.firstDay current lastRun ≤ d → d ≤ lastDate → ¬ rule.Allows d) ∧
      rule.checkedCronDueTime current lastRun = .error (.other "OverflowError") := by
  obtain ⟨hfirst, hend⟩ := date_bounds hcurrent
  have hge := date_le_firstDay rule current lastRun
  rw [checkedCronDueTime_eq h hfirst hend]
  by_cases hday : rule.firstDay current lastRun ≤ lastDate
  · rw [if_pos hday]
    rcases search_cases h (by omega) hday with
      ⟨d, -, -, -, -, hr⟩ | hraises | ⟨-, hr⟩
    · exact .inl ⟨_, hr⟩
    · exact .inr hraises
    · exact .inl ⟨_, hr⟩
  · rw [if_neg hday]
    refine .inr ⟨?_, rfl⟩
    intro d hd hle
    omega

theorem firstOn_of_searchFrom {candidate d : AwareDatetime}
    (h : searchFrom days start n candidate = .ok d) : (firstOn days n candidate).getD start = d := by
  induction n generalizing candidate with
  | zero => exact Except.ok.inj h
  | succ n ih =>
    unfold searchFrom at h
    unfold firstOn
    split at h
    · rw [if_pos ‹_›]
      exact Except.ok.inj h
    · rw [if_neg ‹_›]
      cases hnext : candidate.nextDay with
      | error exc =>
        rw [hnext] at h
        cases h
      | ok next =>
        rw [hnext] at h
        rw [← nextDay_eq hnext]
        exact ih h

theorem firstAllowed_of_search {d : AwareDatetime} (h : rule.search start = .ok d) :
    rule.firstAllowed start = d := by
  unfold search at h
  unfold firstAllowed
  cases hdays : rule.days with
  | none =>
    rw [hdays] at h
    exact Except.ok.inj h
  | some days =>
    rw [hdays] at h
    cases days with
    | nil => exact Except.ok.inj h
    | cons w ws => exact firstOn_of_searchFrom h

/-- What it returns is what it would return if the days had no end. -/
theorem cronDueTime_of_checked {d : AwareDatetime}
    (h : rule.checkedCronDueTime current lastRun = .ok d) :
    rule.cronDueTime current lastRun = .ok d := by
  unfold checkedCronDueTime at h
  unfold cronDueTime
  cases hs : rule.scheduledToday current with
  | error exc =>
    rw [hs] at h
    cases h
  | ok today =>
    rw [hs] at h
    by_cases hnext : (lastRun.any fun run => date current.wall ≤ date run.wall) ∨
        today.wall ≤ current.wall
    · have hsearch := (if_pos hnext).symm.trans h
      change (today.nextDay >>= rule.search) = _ at hsearch
      cases htomorrow : today.nextDay with
      | error exc =>
        rw [htomorrow] at hsearch
        cases hsearch
      | ok tomorrow =>
        rw [htomorrow, nextDay_eq htomorrow] at hsearch
        change Except.ok (rule.firstAllowed (ite _ _ _)) = _
        rw [if_pos hnext, firstAllowed_of_search hsearch]
    · have hsearch := (if_neg hnext).symm.trans h
      change rule.search today = _ at hsearch
      change Except.ok (rule.firstAllowed (ite _ _ _)) = _
      rw [if_neg hnext, firstAllowed_of_search hsearch]

/-- The slot that comes first. -/
structure NextSlot (rule : ScheduleRule) (current : AwareDatetime) (lastRun : Option AwareDatetime)
    (t : AwareDatetime) : Prop where
  slot : rule.Slot current lastRun t
  first : ∀ t', rule.Slot current lastRun t' → t.wall ≤ t'.wall

theorem slotOn_le {d e : Int} (hle : d ≤ e) :
    (rule.slotOn d offset).wall ≤ (rule.slotOn e offset).wall := by
  simp only [slotOn, dayLength]
  omega

/-- `_cron_due_time` returns the first slot that is left, and raises where no day has one. -/
theorem checkedCronDueTime_spec (h : rule.Named)
    (hdays : ∀ days, rule.days = some days → ∀ d ∈ days, 0 ≤ d ∧ d ≤ 6)
    (hcurrent : IsDatetime current.wall)
    (hlast : ∀ run, lastRun = some run → date run.wall ≤ date current.wall) :
    ((∃ t, rule.Slot current lastRun t) →
      ∃ t, rule.checkedCronDueTime current lastRun = .ok t ∧ rule.NextSlot current lastRun t) ∧
    ((¬ ∃ t, rule.Slot current lastRun t) →
      rule.checkedCronDueTime current lastRun = .error (.other "OverflowError")) := by
  obtain ⟨hfirst, hend⟩ := date_bounds hcurrent
  have hge := date_le_firstDay rule current lastRun
  rw [checkedCronDueTime_eq h hfirst hend]
  by_cases hday : rule.firstDay current lastRun ≤ lastDate
  · rw [if_pos hday]
    rcases search_spec h hdays (by omega) hday with
      ⟨d, hd, hle, hallows, hleast, hr⟩ | ⟨hnone, hr⟩
    · have hslot : rule.Slot current lastRun (rule.slotOn d current.offset) :=
        (slot_iff h hcurrent hlast).mpr ⟨d, hd, hle, hallows, rfl⟩
      constructor
      · intro _
        refine ⟨_, hr, hslot, ?_⟩
        intro t' ht'
        obtain ⟨e, he, -, hallows', rfl⟩ := (slot_iff h hcurrent hlast).mp ht'
        exact slotOn_le (hleast e he hallows')
      · intro hno
        exact absurd ⟨_, hslot⟩ hno
    · have hno : ¬ ∃ t, rule.Slot current lastRun t := by
        rintro ⟨t, ht⟩
        obtain ⟨e, he, hle, hallows, -⟩ := (slot_iff h hcurrent hlast).mp ht
        exact hnone e he hle hallows
      exact ⟨fun ht => absurd ht hno, fun _ => hr⟩
  · rw [if_neg hday]
    have hno : ¬ ∃ t, rule.Slot current lastRun t := by
      rintro ⟨t, ht⟩
      obtain ⟨e, he, hle, -, -⟩ := (slot_iff h hcurrent hlast).mp ht
      omega
    exact ⟨fun ht => absurd ht hno, fun _ => rfl⟩

/-- At noon on the last day there is, a rule for nine o'clock has no slot left. -/
theorem checkedCronDueTime_overflows : IsDatetime 253402257600000000 ∧
    checkedCronDueTime { hour := some 9 } ⟨253402257600000000, 0⟩ none =
      .error (.other "OverflowError") := ⟨by decide, rfl⟩

/-- Mondays at nine. -/
def mondays : ScheduleRule := { hour := some 9, days := some [0] }

/-- On the first Thursday of 1970, with a run on that day, the next slot is on the Monday after. -/
theorem checkedCronDueTime_mondays : ∃ t,
    mondays.checkedCronDueTime ⟨0, 0⟩ (some ⟨3600000000, 0⟩) = .ok t ∧
      mondays.NextSlot ⟨0, 0⟩ (some ⟨3600000000, 0⟩) t := by
  have hdays : ∀ days, mondays.days = some days → ∀ d ∈ days, 0 ≤ d ∧ d ≤ 6 := by
    intro days hdays d hd
    obtain rfl : [0] = days := Option.some.inj hdays
    rw [List.mem_singleton] at hd
    omega
  have hlast : ∀ run : AwareDatetime, some (⟨3600000000, 0⟩ : AwareDatetime) = some run →
      date run.wall ≤ date 0 := by
    intro run hrun
    obtain rfl := Option.some.inj hrun
    decide
  refine (checkedCronDueTime_spec (by decide) hdays (by decide) hlast).1
    ⟨⟨378000000000, 0⟩, by decide, rfl, by decide, by decide, ?_, ?_⟩
  · intro days hdays _
    obtain rfl : [0] = days := Option.some.inj hdays
    decide
  · intro run hrun
    obtain rfl := Option.some.inj hrun
    decide

end ScheduleRule

end Pybus
