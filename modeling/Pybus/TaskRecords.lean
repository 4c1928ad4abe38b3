import Pybus.CronSlots

/-! The states that are persisted for one task, on clocks of any time zone. -/
namespace Pybus

open Texts Recurrence

/-- A reading of an aware clock. `offsetOf` is the offset that its `tzinfo` gives to the local times
computed from it. -/
structure ClockReading where
  now : AwareDatetime
  offsetOf : Int → Int

namespace ClockReading

/-- A local time on the clock. -/
def showing (r : ClockReading) (wall : Int) : AwareDatetime := ⟨wall, r.offsetOf wall⟩

/-- `now + timedelta(microseconds=delta)`. -/
def plus (r : ClockReading) (delta : Int) : Except Exc AwareDatetime := do
  let wall ← datetimeOf (r.now.wall + delta)
  return r.showing wall

/-- A clock in a zone with a fixed offset. -/
def fixed (now : AwareDatetime) : ClockReading := ⟨now, fun _ => now.offset⟩

end ClockReading

namespace ScheduleRule

variable (rule : ScheduleRule)

/-- `_next_due_time`. -/
def nextDueOn (r : ClockReading) : Except Exc AwareDatetime :=
  match rule.interval with
  | some interval => r.plus (interval * 1000000)
  | none => do
    let due ← rule.checkedCronDueTime r.now (some r.now)
    return r.showing due.wall

/-- `_initial_due_time`; a last run that has been read back has a fixed offset. -/
def initialDueOn (r : ClockReading) (lastRun : Option AwareDatetime) : Except Exc AwareDatetime :=
  match rule.interval with
  | some interval =>
    match lastRun with
    | some run => (ClockReading.fixed run).plus (interval * 1000000)
    | none => r.plus (interval * 1000000)
  | none => do
    let due ← rule.checkedCronDueTime r.now lastRun
    return r.showing due.wall

end ScheduleRule

/-- A process that may have registered the task, and the record of the task. -/
structure TaskProcess where
  task : Option ScheduledTask := none
  stored : Option Raw := none

/-- What happens to the task: it is registered, its function has returned or raised, or the process
restarts. The store may refuse a state. -/
inductive TaskEvent
  | scheduled (r : ClockReading)
  | ran (r : ClockReading) (returned acceptsSuccess acceptsFailure : Bool)
  | restart

namespace TaskProcess

variable [Texts]

/-- The decorator of `scheduled`. -/
def register (rule : ScheduleRule) (identity : String) (stored : Option Raw) (r : ClockReading) :
    Except Exc ScheduledTask := do
  let persisted ← readState identity (.ok stored)
  let lastRun := persisted.bind (·.lastRun)
  let due ←
    match persisted.bind fun state => if 0 < state.failures then state.due else none with
    | some due => pure due
    | none => rule.initialDueOn r lastRun
  return {
    rule, due, lastRun
    failures := (persisted.map (·.failures)).getD 0
    lastFailure := persisted.bind (·.lastFailure) }

omit [Texts] in
/-- `_handle_task_success`, up to the state that it writes: the task once the state is stored. -/
def handleSuccess (task : ScheduledTask) (r : ClockReading) : Except Exc ScheduledTask := do
  let due ← task.rule.nextDueOn r
  return { task with failures := 0, lastFailure := none, lastRun := some r.now, due }

omit [Texts] in
/-- `_handle_task_failure`: the task, and whether it comes to write its state. -/
def handleFailure (task : ScheduledTask) (r : ClockReading) : ScheduledTask × Bool :=
  let failed := { task with failures := task.failures + 1, lastFailure := some r.now }
  match r.plus (60 * 2 ^ min failed.failures 10 * 1000000) with
  | .ok due => ({ failed with due }, true)
  | .error _ => (failed, false)

/-- The failure of a task: the process and the states written. -/
def fail (p : TaskProcess) (task : ScheduledTask) (r : ClockReading) (accepts : Bool) :
    TaskProcess × List PersistedScheduleState :=
  match handleFailure task r with
  | (failed, true) =>
    (⟨some failed, if accepts then some (writeState failed.state) else p.stored⟩, [failed.state])
  | (failed, false) => (⟨some failed, p.stored⟩, [])

/-- One event: the process and the states that it has written, stored or not. -/
def step (rule : ScheduleRule) (identity : String) (p : TaskProcess) :
    TaskEvent → TaskProcess × List PersistedScheduleState
  | .scheduled r =>
    match p.task, register rule identity p.stored r with
    | none, .ok task => ({ p with task := some task }, [])
    | _, _ => (p, [])
  | .ran r returned acceptsSuccess acceptsFailure =>
    match p.task with
    | none => (p, [])
    | some task =>
      if returned then
        match handleSuccess task r with
        | .ok done =>
          if acceptsSuccess then (⟨some done, some (writeState done.state)⟩, [done.state])
          else
            let (p', written) := p.fail task r acceptsFailure
            (p', done.state :: written)
        | .error _ => p.fail task r acceptsFailure
      else p.fail task r acceptsFailure
  | .restart => ({ p with task := none }, [])

/-- A history that begins with an empty store: the process, and all states written. -/
def after (rule : ScheduleRule) (identity : String) (history : List TaskEvent) :
    TaskProcess × List PersistedScheduleState :=
  history.foldl (fun (p, written) e =>
    let (p', more) := p.step rule identity e
    (p', written ++ more)) ({}, [])

omit [Texts] in
/-- A state of a task with the rule that a handler writes. -/
structure Writes (rule : ScheduleRule) (st : PersistedScheduleState) : Prop where
  success : st.failures = 0 → st.lastFailure = none ∧ ∃ r : ClockReading,
    st.lastRun = some r.now ∧ ∃ due, st.due = some due ∧ rule.nextDueOn r = .ok due
  failure : 0 < st.failures → st.lastFailure.isSome ∧ st.due.isSome

/-- The task has the rule, and its record is a state that was written. -/
structure Sound (rule : ScheduleRule) (p : TaskProcess) : Prop where
  ruled : ∀ task, p.task = some task → task.rule = rule
  stored : ∀ raw, p.stored = some raw → ∃ st, raw = writeState st ∧ Writes rule st

variable {rule : ScheduleRule} {identity : String} {p : TaskProcess} {task done : ScheduledTask}
  {st : PersistedScheduleState} {r : ClockReading}

/-! ### What is read back -/

omit [Texts] in
theorem Writes.checked (h : Writes rule st) : checkState st = .ok st := by
  unfold checkState
  rw [if_neg, if_neg]
  · rintro ⟨hpos, hnone⟩
    obtain ⟨hfailure, hdue⟩ := h.failure hpos
    rcases hnone with hnone | hnone
    · rw [Option.isNone_iff_eq_none.mp hnone] at hfailure
      cases hfailure
    · rw [Option.isNone_iff_eq_none.mp hnone] at hdue
      cases hdue
  · rintro ⟨hzero, hsome⟩
    rw [(h.success hzero).1] at hsome
    cases hsome

theorem readState_writeState [RoundTexts] (h : Writes rule st) :
    readState identity (.ok (some (writeState st))) = .ok (some st) := by
  unfold readState
  simp only [parseState_writeState, h.checked]

/-! ### What is written -/

omit [Texts] in
theorem handleSuccess_writes (h : handleSuccess task r = .ok done) :
    done.rule = task.rule ∧ Writes task.rule done.state := by
  unfold handleSuccess at h
  cases hd : task.rule.nextDueOn r with
  | error exc =>
    rw [hd] at h
    cases h
  | ok due =>
    rw [hd] at h
    obtain rfl := Except.ok.inj h
    refine ⟨rfl, ?_, ?_⟩
    · intro _
      exact ⟨rfl, r, rfl, due, rfl, hd⟩
    · intro hpos
      exact absurd hpos (Nat.lt_irrefl 0)

omit [Texts] in
theorem handleFailure_rule : (handleFailure task r).1.rule = task.rule := by
  unfold handleFailure
  dsimp only
  split <;> rfl

omit [Texts] in
theorem handleFailure_writes (task : ScheduledTask) (r : ClockReading)
    (h : (handleFailure task r).2 = true) :
    Writes task.rule (handleFailure task r).1.state := by
  unfold handleFailure at h ⊢
  dsimp only at h ⊢
  split
  · refine ⟨?_, fun _ => ⟨rfl, rfl⟩⟩
    intro hzero
    cases hzero
  · rename_i hraised
    rw [hraised] at h
    cases h

theorem register_rule {stored : Option Raw} (h : register rule identity stored r = .ok task) :
    task.rule = rule := by
  unfold register at h
  cases hread : readState identity (.ok stored) with
  | error exc =>
    rw [hread] at h
    cases h
  | ok persisted =>
    simp only [hread, bind, Except.bind] at h
    split at h
    · cases h
      rfl
    · cases hd : rule.initialDueOn r (persisted.bind (·.lastRun)) with
      | error exc =>
        rw [hd] at h
        cases h
      | ok due =>
        rw [hd] at h
        cases h
        rfl

/-- A failure leaves a sound process, and what it writes is a state of the task. -/
theorem fail_sound (r : ClockReading) (accepts : Bool) (h : Sound rule p)
    (hrule : task.rule = rule) :
    Sound rule (p.fail task r accepts).1 ∧
      ∀ st ∈ (p.fail task r accepts).2, Writes rule st := by
  have hkept : (handleFailure task r).1.rule = rule := handleFailure_rule.trans hrule
  have hwrites := handleFailure_writes task r
  rw [hrule] at hwrites
  unfold fail
  cases hf : handleFailure task r with
  | mk failed written =>
    rw [hf] at hkept hwrites
    cases written with
    | false =>
      refine ⟨⟨?_, h.stored⟩, by simp⟩
      rintro task' ⟨⟩
      exact hkept
    | true =>
      refine ⟨⟨?_, ?_⟩, ?_⟩
      · rintro task' ⟨⟩
        exact hkept
      · intro raw hraw
        cases accepts with
        | false => exact h.stored raw hraw
        | true =>
          obtain rfl := Option.some.inj hraw
          exact ⟨_, rfl, hwrites rfl⟩
      · intro st hst
        rw [List.mem_singleton.mp hst]
        exact hwrites rfl

/-- Every event leaves a sound process, and what it writes is a state of the task. -/
theorem step_sound (identity : String) (h : Sound rule p) (e : TaskEvent) :
    Sound rule (p.step rule identity e).1 ∧
    ∀ st ∈ (p.step rule identity e).2, Writes rule st := by
  cases e with
  | scheduled r =>
    unfold step
    dsimp only
    split
    · rename_i task hnone hr
      refine ⟨⟨?_, h.stored⟩, by simp⟩
      rintro task' ⟨⟩
      exact register_rule hr
    · exact ⟨h, by simp⟩
  | restart =>
    refine ⟨⟨?_, h.stored⟩, by simp [step]⟩
    rintro task ⟨⟩
  | ran r returned acceptsSuccess acceptsFailure =>
    unfold step
    cases htask : p.task with
    | none => exact ⟨h, by simp⟩
    | some task =>
      have hrule := h.ruled task htask
      have hfails := fail_sound r acceptsFailure h hrule
      cases returned with
      | false => exact hfails
      | true =>
        cases hs : handleSuccess task r with
        | error exc =>
          simp only [hs, if_true]
          exact hfails
        | ok done =>
          obtain ⟨hkept, hwrites⟩ := handleSuccess_writes hs
          rw [hrule] at hkept hwrites
          cases acceptsSuccess with
          | true =>
            simp only [hs, if_true]
            refine ⟨⟨?_, ?_⟩, ?_⟩
            · rintro task' ⟨⟩
              exact hkept
            · intro raw hraw
              obtain rfl := Option.some.inj hraw
              exact ⟨_, rfl, hwrites⟩
            · intro st hst
              rw [List.mem_singleton.mp hst]
              exact hwrites
          | false =>
            simp only [hs, if_true, Bool.false_eq_true, if_false]
            refine ⟨hfails.1, ?_⟩
            intro st hst
            rcases List.mem_cons.mp hst with rfl | hst
            · exact hwrites
            · exact hfails.2 st hst

theorem after_sound (history : List TaskEvent) : Sound rule (after rule identity history).1 ∧
    ∀ st ∈ (after rule identity history).2, Writes rule st := by
  have hrun : ∀ p written, Sound rule p → (∀ st ∈ written, Writes rule st) →
      Sound rule (history.foldl (fun (p, written) e =>
        let (p', more) := p.step rule identity e
        (p', written ++ more)) (p, written)).1 ∧
      ∀ st ∈ (history.foldl (fun (p, written) e =>
        let (p', more) := p.step rule identity e
        (p', written ++ more)) (p, written)).2, Writes rule st := by
    induction history with
    | nil => exact fun p written h hwritten => ⟨h, hwritten⟩
    | cons e history ih =>
      intro p written h hwritten
      obtain ⟨hstep, hmore⟩ := step_sound identity h e
      refine ih _ _ hstep ?_
      intro st hst
      rcases List.mem_append.mp hst with hst | hst
      · exact hwritten st hst
      · exact hmore st hst
  exact hrun {} [] ⟨by simp, by simp⟩ (by simp)

/-! ### Registration after a restart -/

omit [Texts] in
theorem named_of_nextDueOn (hcron : rule.interval = none) {due : AwareDatetime}
    (h : rule.nextDueOn r = .ok due) : rule.Named := by
  unfold ScheduleRule.nextDueOn at h
  rw [hcron] at h
  cases hc : rule.checkedCronDueTime r.now (some r.now) with
  | error exc =>
    rw [hc] at h
    cases h
  | ok d => exact ScheduleRule.named_of_cronDueTime (ScheduleRule.cronDueTime_of_checked hc)

omit [Texts] in
/-- After a success the due time can be found again, unless no day is left. -/
theorem initialDueOn_cases {r' : ClockReading} {due : AwareDatetime}
    (h : rule.nextDueOn r' = .ok due) (hr : IsDatetime r.now.wall) :
    (∃ d, rule.initialDueOn r (some r'.now) = .ok d) ∨
    rule.interval = none ∧
      (∀ d, rule.firstDay r.now (some r'.now) ≤ d → d ≤ lastDate → ¬ rule.Allows d) ∧
      rule.initialDueOn r (some r'.now) = .error (.other "OverflowError") := by
  cases hi : rule.interval with
  | some interval =>
    left
    unfold ScheduleRule.nextDueOn at h
    unfold ScheduleRule.initialDueOn
    rw [hi] at h ⊢
    change (datetimeOf (r'.now.wall + interval * 1000000) >>= _) = _ at h
    change ∃ d, (datetimeOf (r'.now.wall + interval * 1000000) >>= _) = _
    cases hw : datetimeOf (r'.now.wall + interval * 1000000) with
    | error exc =>
      rw [hw] at h
      cases h
    | ok wall => exact ⟨_, rfl⟩
  | none =>
    have hn := named_of_nextDueOn hi h
    unfold ScheduleRule.initialDueOn
    rw [hi]
    rcases ScheduleRule.checkedCronDueTime_cases (some r'.now) hn hr with
      ⟨d, hd⟩ | ⟨hnone, hd⟩
    · rw [hd]
      exact .inl ⟨_, rfl⟩
    · rw [hd]
      exact .inr ⟨rfl, hnone, rfl⟩

/-- What a task has after it is registered with a state that was read back. -/
structure Restored (st : PersistedScheduleState) (task : ScheduledTask) : Prop where
  lastRun : task.lastRun = st.lastRun
  failures : task.failures = st.failures
  lastFailure : task.lastFailure = st.lastFailure
  due : 0 < st.failures → st.due = some task.due

/-- Registration never fails on a state that was written, and else only where no day is left. -/
theorem register_written [RoundTexts] (h : Writes rule st) (hr : IsDatetime r.now.wall) :
    (∃ task, register rule identity (some (writeState st)) r = .ok task ∧ Restored st task) ∨
    st.failures = 0 ∧ rule.interval = none ∧
      (∀ d, rule.firstDay r.now st.lastRun ≤ d → d ≤ lastDate → ¬ rule.Allows d) ∧
      register rule identity (some (writeState st)) r = .error (.other "OverflowError") := by
  unfold register
  rw [readState_writeState h]
  by_cases hf : 0 < st.failures
  · obtain ⟨due, hdue⟩ := Option.isSome_iff_exists.mp (h.failure hf).2
    left
    simp only [bind, Except.bind, Option.bind_some, if_pos hf, hdue]
    exact ⟨_, rfl, rfl, rfl, rfl, fun _ => hdue⟩
  · have hzero : st.failures = 0 := Nat.eq_zero_of_not_pos hf
    obtain ⟨-, r', hrun, due, -, hnext⟩ := h.success hzero
    simp only [bind, Except.bind, Option.bind_some, if_neg hf]
    rcases initialDueOn_cases hnext hr with ⟨d, hd⟩ | ⟨hcron, hnone, hd⟩
    · rw [← hrun] at hd
      simp only [hd]
      exact .inl ⟨_, rfl, rfl, rfl, rfl, fun hpos => absurd hpos hf⟩
    · rw [← hrun] at hnone hd
      simp only [hd]
      exact .inr ⟨hzero, hcron, hnone, trivial⟩

theorem register_fresh : register rule identity none r =
    (rule.initialDueOn r none).map fun due => { rule, due } := by
  unfold register
  simp only [readState, bind, Except.bind, Option.bind_none]
  cases rule.initialDueOn r none <;> rfl

/-- No state that is written keeps the task from being registered again. -/
structure NeverBricked (rule : ScheduleRule) (identity : String) (history : List TaskEvent) :
    Prop where
  /-- Every state written is read back as it was. -/
  reads : ∀ st ∈ (after rule identity history).2,
    readState identity (.ok (some (writeState st))) = .ok (some st)
  /-- After a restart the task is registered with its last state, unless it has succeeded, has a
  cron rule and no day that the rule allows is left. -/
  registers : ∀ raw, (after rule identity history).1.stored = some raw → ∃ st,
    raw = writeState st ∧ ∀ r : ClockReading, IsDatetime r.now.wall →
      (∃ task, register rule identity (some raw) r = .ok task ∧ Restored st task) ∨
      st.failures = 0 ∧ rule.interval = none ∧
        (∀ d, rule.firstDay r.now st.lastRun ≤ d → d ≤ lastDate → ¬ rule.Allows d) ∧
        register rule identity (some raw) r = .error (.other "OverflowError")
  /-- Without a state it is registered as it was at first. -/
  registers_fresh : (after rule identity history).1.stored = none → ∀ r : ClockReading,
    register rule identity (after rule identity history).1.stored r =
      (rule.initialDueOn r none).map fun due => { rule, due }

/-- Over every history the states written are read back, and the task can be registered again. -/
theorem never_bricked [RoundTexts] (rule : ScheduleRule) (identity : String)
    (history : List TaskEvent) : NeverBricked rule identity history := by
  obtain ⟨hsound, hwrites⟩ : Sound rule (after rule identity history).1 ∧
    ∀ st ∈ (after rule identity history).2, Writes rule st := after_sound history
  refine ⟨?_, ?_, ?_⟩
  · intro st hst
    exact readState_writeState (hwrites st hst)
  · intro raw hraw
    obtain ⟨st, rfl, hst⟩ := hsound.stored raw hraw
    exact ⟨st, rfl, fun r hr => register_written hst hr⟩
  · intro hnone r
    rw [hnone]
    exact register_fresh

end TaskProcess

section Sample

open TaskProcess

local instance recordTexts : Texts := .lawful

local instance recordRounds : RoundTexts := roundTexts_lawful

/-- A task for nine o'clock. -/
def nineOClock : ScheduleRule := { hour := some 9 }

/-- It runs on the last day but one. -/
def lastDays : List TaskEvent :=
  [.scheduled (.fixed ⟨253402156800000000, 0⟩), .ran (.fixed ⟨253402164000000000, 0⟩) true true true,
    .restart]

/-- What is recorded then. -/
def lastState : PersistedScheduleState :=
  ⟨some ⟨253402164000000000, 0⟩, some ⟨253402246800000000, 0⟩, 0, none⟩

theorem lastDays_stored :
    (after nineOClock "report" lastDays).1.stored = some (writeState lastState) := by
  have hfirst : nineOClock.initialDueOn (.fixed ⟨253402156800000000, 0⟩) none =
      .ok ⟨253402160400000000, 0⟩ := by decide
  have hnext : nineOClock.nextDueOn (.fixed ⟨253402164000000000, 0⟩) =
      .ok ⟨253402246800000000, 0⟩ := by decide
  have hregister : register nineOClock "report" none (.fixed ⟨253402156800000000, 0⟩) = _ :=
    register_fresh
  rw [hfirst] at hregister
  simp only [after, lastDays, List.foldl_cons, List.foldl_nil, step, hregister, Except.map,
    handleSuccess, hnext, bind, Except.bind, pure, Except.pure, if_true]
  rfl

theorem lastState_writes : Writes nineOClock lastState := by
  have hnext : nineOClock.nextDueOn (.fixed ⟨253402164000000000, 0⟩) =
      .ok ⟨253402246800000000, 0⟩ := by decide
  constructor
  · intro _
    exact ⟨rfl, .fixed ⟨253402164000000000, 0⟩, rfl, _, rfl, hnext⟩
  · intro hpos
    exact absurd hpos (Nat.lt_irrefl 0)

/-- Its record is read back, but after a restart at noon on the last day there is no next slot. -/
theorem registration_overflows : 
    (after nineOClock "report" lastDays).1.stored = some (writeState lastState) ∧
    readState "report" (.ok (some (writeState lastState))) = .ok (some lastState) ∧
    register nineOClock "report" (some (writeState lastState)) (.fixed ⟨253402257600000000, 0⟩) =
      .error (.other "OverflowError") := by
  have hdue : nineOClock.initialDueOn (.fixed ⟨253402257600000000, 0⟩) lastState.lastRun =
      .error (.other "OverflowError") := by decide
  have hread : readState "report" (.ok (some (writeState lastState))) = .ok (some lastState) :=
    readState_writeState lastState_writes
  refine ⟨lastDays_stored, hread, ?_⟩
  have hzero : ¬ 0 < lastState.failures := by decide
  unfold register
  rw [hread]
  simp only [bind, Except.bind, Option.bind_some, if_neg hzero, hdue]
/-- An hourly task that has failed is registered again with its backoff. -/
theorem never_bricked_hourly : NeverBricked { interval := some 3600 } "report"
    [.scheduled (.fixed ⟨0, 0⟩), .ran (.fixed ⟨3600000000, 0⟩) false true true, .restart] :=
  never_bricked _ _ _

end Sample

/-! ### Clocks of a fixed offset -/

section Fixed

variable {rule : ScheduleRule} {now due : AwareDatetime} {lastRun : Option AwareDatetime}

theorem plus_fixed {delta : Int} (h : (ClockReading.fixed now).plus delta = .ok due) :
    due = now.add delta := by
  unfold ClockReading.plus datetimeOf at h
  split at h
  · exact (Except.ok.inj h).symm
  · cases h

theorem showing_fixed (h : (do
      let d ← rule.checkedCronDueTime now lastRun
      return (ClockReading.fixed now).showing d.wall : Except Exc AwareDatetime) = .ok due) :
    rule.cronDueTime now lastRun = .ok due := by
  cases hc : rule.checkedCronDueTime now lastRun with
  | error exc =>
    rw [hc] at h
    cases h
  | ok d =>
    rw [hc] at h
    have hd := ScheduleRule.cronDueTime_of_checked hc
    obtain ⟨hoffset, -⟩ := ScheduleRule.cronDueTime_day hd
    rw [hd, ← Except.ok.inj h]
    cases d
    subst hoffset
    rfl

/-- On such a clock the due times are those of the scheduler whose dates have no end. -/
theorem nextDueOn_fixed (h : rule.nextDueOn (.fixed now) = .ok due) :
    rule.nextDueTime now now = .ok due := by
  unfold ScheduleRule.nextDueOn at h
  unfold ScheduleRule.nextDueTime
  cases hi : rule.interval with
  | some interval =>
    rw [hi] at h
    rw [plus_fixed h]
  | none =>
    rw [hi] at h
    exact showing_fixed h

theorem initialDueOn_fixed (h : rule.initialDueOn (.fixed now) lastRun = .ok due) :
    rule.initialDueTime now lastRun = .ok due := by
  unfold ScheduleRule.initialDueOn at h
  unfold ScheduleRule.initialDueTime
  cases hi : rule.interval with
  | some interval =>
    rw [hi] at h
    cases lastRun with
    | none => rw [plus_fixed h, Option.getD_none]
    | some run => rw [plus_fixed h, Option.getD_some]
  | none =>
    rw [hi] at h
    exact showing_fixed h

end Fixed

end Pybus
