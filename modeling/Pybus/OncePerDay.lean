import Pybus.Restarts

/-! The successes of a cron task that are checkpointed fall on different dates, whatever fails and
whenever the process is restarted. -/
namespace Pybus

open Texts Recurrence

namespace ScheduleRule

variable {rule : ScheduleRule} {c d : AwareDatetime} {last : Option AwareDatetime}

theorem date_slotOn (h : rule.Named) (day offset : Int) : date (rule.slotOn day offset).wall = day := by
  obtain ⟨h₁, h₂, h₃, h₄⟩ := h
  simp only [slotOn, date, dayLength]
  omega

/-- A due time is the slot of the current day or of a later one, and of a later one if the task has
run on the current day. -/
theorem cronDueTime_day (h : rule.cronDueTime c last = .ok d) : d.offset = c.offset ∧
    date c.wall ≤ date d.wall ∧
    ∀ t, last = some t → date c.wall ≤ date t.wall → date c.wall < date d.wall := by
  have hn := named_of_cronDueTime h
  have hnext : (rule.slotOn (date c.wall) c.offset).add dayLength =
      rule.slotOn (date c.wall + 1) c.offset := by
    have hone : (rule.slotOn (date c.wall) c.offset).add ((1 : Nat) * dayLength) =
        rule.slotOn (date c.wall + (1 : Nat)) c.offset := slotOn_add
    simpa using hone
  unfold cronDueTime at h
  rw [scheduledToday_eq hn] at h
  simp only [bind, Except.bind, pure, Except.pure, Except.ok.injEq] at h
  obtain ⟨day, hday, hd⟩ : ∃ day, (date c.wall ≤ day ∧
      (∀ t, last = some t → date c.wall ≤ date t.wall → date c.wall < day)) ∧
      rule.firstAllowed (rule.slotOn day c.offset) = d := by
    split at h
    · rw [hnext] at h
      exact ⟨_, ⟨by omega, fun _ _ _ => by omega⟩, h⟩
    · rename_i hrun
      refine ⟨_, ⟨le_rfl, fun t ht hle => absurd (.inl ?_) hrun⟩, h⟩
      rw [ht]
      exact decide_eq_true hle
  obtain ⟨k, hk⟩ : ∃ k : Nat, rule.firstAllowed (rule.slotOn day c.offset) =
      (rule.slotOn day c.offset).add (k * dayLength) := firstAllowed_ge
  rw [hd, slotOn_add] at hk
  have hdate : date d.wall = day + k := by
    rw [hk]
    exact date_slotOn hn _ _
  refine ⟨by rw [hk]; rfl, by omega, fun t ht hle => ?_⟩
  have hlater := hday.2 t ht hle
  omega

end ScheduleRule

/-- A due time on a clock that is on a later day than the last run. -/
structure AfterLastRun (offset : Int) (last : Option AwareDatetime) (due : AwareDatetime) : Prop where
  offset : due.offset = offset
  day : ∀ t, last = some t → date t.wall < date due.wall

theorem initialDueTime_after {rule : ScheduleRule} {c d : AwareDatetime}
    {last : Option AwareDatetime} (hcron : rule.interval = none)
    (h : rule.initialDueTime c last = .ok d) (hle : ∀ t, last = some t → t.wall ≤ c.wall) :
    AfterLastRun c.offset last d := by
  unfold ScheduleRule.initialDueTime at h
  rw [hcron] at h
  obtain ⟨hoffset, hday, hrun⟩ := ScheduleRule.cronDueTime_day h
  refine ⟨hoffset, fun t ht => ?_⟩
  have hdays : date t.wall ≤ date c.wall := Int.ediv_le_ediv (by decide) (hle t ht)
  by_cases hsame : date c.wall ≤ date t.wall
  · have hlater := hrun t ht hsame
    omega
  · omega

theorem AfterLastRun.backoff {offset : Int} {last : Option AwareDatetime} {now due : AwareDatetime}
    (h : AfterLastRun offset last due)
    (hnow : now.offset = offset) (hdue : due.instant ≤ now.instant) (failures : Nat) :
    AfterLastRun offset last (now.add (60 * 2 ^ min failures 10 * 1000000)) := by
  refine ⟨hnow, fun t ht => ?_⟩
  have hday := h.day t ht
  have hpower : (0 : Int) ≤ 2 ^ min failures 10 := Int.pow_nonneg (by decide)
  have hwall : due.wall ≤ now.wall := by
    have hinstant : due.wall - due.offset ≤ now.wall - now.offset := hdue
    rw [h.offset, hnow] at hinstant
    omega
  have hlater : date due.wall ≤ date (now.add (60 * 2 ^ min failures 10 * 1000000)).wall := by
    refine Int.ediv_le_ediv (by decide) ?_
    simp only [AwareDatetime.add]
    omega
  omega

namespace Scheduler

variable [Texts]

/-- A task succeeds in a cycle: it is due, its function returns, and its state is stored. -/
def succeeds (task : ScheduledTask) (retries : Nat) (now : AwareDatetime) (cycle : Cycle) : Bool :=
  decide (task.due.instant ≤ now.instant) && returns cycle.ends retries 0 &&
    (task.handleSuccess now cycle.acceptsSuccess).isOk

/-- The time of the success of a task in an action. -/
def success (s : Scheduler) (identity : String) : Action → Option AwareDatetime
  | .runDueTasks clock retries cycles =>
    match requireAwareDatetime clock "Scheduler clock", s.tasks.lookup identity with
    | .ok now, some task => if succeeds task retries now (cycles identity) then some now else none
    | _, _ => none
  | _ => none

/-- The runs of a task in a history whose success was checkpointed. -/
def successes (rules : String → ScheduleRule) (identity : String) :
    Scheduler → List Action → List AwareDatetime
  | _, [] => []
  | s, a :: history =>
    (s.success identity a).toList ++ successes rules identity (s.step rules a) history

/-- The clock that an action reads. -/
def Action.clock : Action → Option Datetime
  | .scheduled _ clock | .runDueTasks clock _ _ => some clock
  | .restart => none

/-- The clock keeps to one offset and never goes back. -/
structure Ticking (offset : Int) (history : List Action) : Prop where
  zone : ∀ a ∈ history, ∀ clock, a.clock = some clock → clock.offset = some offset
  monotone : (history.filterMap Action.clock).Pairwise fun clock clock' => clock.wall ≤ clock'.wall

/-- What a cycle makes of one task and its record. -/
def runIfDue (retries : Nat) (now : AwareDatetime) (cycle : Cycle) (task : ScheduledTask)
    (stored : Option Raw) : ScheduledTask × Option Raw :=
  if task.due.instant ≤ now.instant then (runTaskWithRetry task retries now cycle stored).2
  else (task, stored)

section Cycles

variable (retries : Nat) (now : AwareDatetime) (cycles : String → Cycle) (store : String → Option Raw)
  {identity : String}

theorem runTasks_names (tasks : List (String × ScheduledTask)) :
    (runTasks retries now cycles tasks store).2.1.map Prod.fst = tasks.map Prod.fst := by
  induction tasks generalizing store with
  | nil => rfl
  | cons p tasks ih =>
    unfold runTasks
    split <;> simp [ih]

/-- A cycle leaves the records of other identities alone. -/
theorem runTasks_others {tasks : List (String × ScheduledTask)}
    (h : identity ∉ tasks.map Prod.fst) :
    (runTasks retries now cycles tasks store).2.2 (stateKey identity) = store (stateKey identity) := by
  induction tasks generalizing store with
  | nil => rfl
  | cons p tasks ih =>
    have hne : identity ≠ p.1 := List.ne_of_not_mem_cons h
    have hrest : identity ∉ tasks.map Prod.fst := List.not_mem_of_not_mem_cons h
    unfold runTasks
    split
    · have hkey : stateKey identity ≠ stateKey p.1 := fun hk => hne (stateKey_injective hk)
      exact (ih _ hrest).trans (Function.update_of_ne hkey _ _)
    · exact ih _ hrest

/-- What a cycle makes of a task is what it would make of it alone. -/
theorem runTasks_lookup {tasks : List (String × ScheduledTask)} {task : ScheduledTask}
    (hnodup : (tasks.map Prod.fst).Nodup) (h : tasks.lookup identity = some task) :
    ((runTasks retries now cycles tasks store).2.1.lookup identity,
      (runTasks retries now cycles tasks store).2.2 (stateKey identity)) =
      (some (runIfDue retries now (cycles identity) task (store (stateKey identity))).1,
        (runIfDue retries now (cycles identity) task (store (stateKey identity))).2) := by
  induction tasks generalizing store with
  | nil => cases h
  | cons p tasks ih =>
    obtain ⟨name, first⟩ := p
    obtain ⟨hfresh, hnodup⟩ := List.nodup_cons.mp hnodup
    by_cases heq : identity = name
    · subst heq
      simp only [List.lookup_cons, beq_self_eq_true, Option.some.injEq] at h
      subst h
      unfold runTasks runIfDue
      split
      · simp only [List.lookup_cons, beq_self_eq_true]
        rw [runTasks_others _ _ _ _ hfresh, Function.update_self]
      · simp only [List.lookup_cons, beq_self_eq_true]
        rw [runTasks_others _ _ _ _ hfresh]
    · have hbeq : (identity == name) = false := by simpa using heq
      simp only [List.lookup_cons, hbeq] at h
      have hkey : stateKey identity ≠ stateKey name := fun hk => heq (stateKey_injective hk)
      unfold runTasks
      split
      · simp only [List.lookup_cons, hbeq]
        rw [ih _ hnodup h, Function.update_of_ne hkey]
      · simp only [List.lookup_cons, hbeq]
        exact ih _ hnodup h

end Cycles

/-- A persisted state that can be read back and tells of the last success that was checkpointed; the
task is not due again on its day. -/
structure RecordedAfter (offset : Int) (last : Option AwareDatetime) (st : PersistedScheduleState) :
    Prop where
  checked : checkState st = .ok st
  lastRun : st.lastRun = last
  due : ∀ due, st.due = some due → AfterLastRun offset last due

structure DailyTask (rule : ScheduleRule) (offset : Int) (last : Option AwareDatetime)
    (task : ScheduledTask) : Prop where
  ruled : task.rule = rule
  lastRun : task.lastRun = last
  due : AfterLastRun offset last task.due

structure DailyRecord (offset : Int) (last : Option AwareDatetime) (stored : Option Raw) : Prop where
  fresh : stored = none → last = none
  recorded : ∀ raw, stored = some raw → ∃ st, raw = writeState st ∧ RecordedAfter offset last st

/-- A task with a rule and its record agree on the last success that was checkpointed. -/
structure Daily (rule : ScheduleRule) (offset : Int) (identity : String)
    (last : Option AwareDatetime) (s : Scheduler) : Prop where
  names : (s.tasks.map Prod.fst).Nodup
  task : ∀ task, s.tasks.lookup identity = some task → DailyTask rule offset last task
  record : DailyRecord offset last (s.store (stateKey identity))

section Steps

variable {rule : ScheduleRule} {offset : Int} {identity : String} {last : Option AwareDatetime}
  {task : ScheduledTask} {now : AwareDatetime} {accepts : Bool} {stored : Option Raw}
  {retries : Nat} {cycle : Cycle}

/-- After a failure the last success is the same, and the task is not due again on its day. -/
theorem handleFailure_daily (accepts : Bool) (ht : DailyTask rule offset last task)
    (hr : DailyRecord offset last stored) (hnow : now.offset = offset)
    (hdue : task.due.instant ≤ now.instant) :
    DailyTask rule offset last (task.handleFailure now accepts stored).1 ∧
      DailyRecord offset last (task.handleFailure now accepts stored).2 := by
  have hbackoff := ht.due.backoff hnow hdue (task.failures + 1)
  refine ⟨⟨ht.ruled, ht.lastRun, hbackoff⟩, ?_⟩
  cases accepts with
  | false => exact hr
  | true =>
    refine ⟨(fun hnone => by cases hnone), fun raw hraw => ?_⟩
    cases hraw
    refine ⟨_, rfl, ⟨?_, ht.lastRun, fun due hd => ?_⟩⟩
    · simp [checkState, ScheduledTask.state]
    · cases hd
      exact hbackoff

/-- After a success the task is not due again on its day. -/
theorem handleSuccess_daily {done : ScheduledTask} {record : Raw} (hcron : rule.interval = none)
    (hrule : task.rule = rule) (h : task.handleSuccess now accepts = .ok (done, record)) :
    DailyTask rule now.offset (some now) done ∧ DailyRecord now.offset (some now) (some record) := by
  unfold ScheduledTask.handleSuccess at h
  cases hd : task.rule.nextDueTime now now with
  | error exc => simp [hd, bind, Except.bind] at h
  | ok due =>
    have hafter : AfterLastRun now.offset (some now) due := by
      refine initialDueTime_after hcron (c := now) ?_ fun t ht => ?_
      · rw [hrule] at hd
        unfold ScheduleRule.nextDueTime at hd
        unfold ScheduleRule.initialDueTime
        rw [hcron] at hd ⊢
        exact hd
      · rw [← Option.some.inj ht]
    cases accepts with
    | false => simp [hd, bind, Except.bind, throw, throwThe, MonadExceptOf.throw] at h
    | true =>
      simp only [hd, bind, Except.bind, pure, Except.pure, Bool.not_true, Bool.false_eq_true,
        if_false, Except.ok.injEq, Prod.mk.injEq] at h
      obtain ⟨rfl, rfl⟩ := h
      refine ⟨⟨hrule, rfl, hafter⟩, (fun hnone => by cases hnone), fun raw hraw => ?_⟩
      cases hraw
      refine ⟨_, rfl, ⟨rfl, rfl, fun due' hd' => ?_⟩⟩
      cases hd'
      exact hafter

/-- A task succeeds on a later day than it last did, or its last success stays the same. -/
theorem runIfDue_daily (retries : Nat) (cycle : Cycle) (hcron : rule.interval = none)
    (ht : DailyTask rule offset last task) (hr : DailyRecord offset last stored) (hnow : now.offset = offset) :
    ∃ last', DailyTask rule offset last' (runIfDue retries now cycle task stored).1 ∧
      DailyRecord offset last' (runIfDue retries now cycle task stored).2 ∧
      (succeeds task retries now cycle = false ∧ last' = last ∨
        succeeds task retries now cycle = true ∧ last' = some now ∧
          ∀ t, last = some t → date t.wall < date now.wall) := by
  unfold runIfDue succeeds
  by_cases hdue : task.due.instant ≤ now.instant
  · rw [if_pos hdue, decide_eq_true hdue, Bool.true_and]
    unfold runTaskWithRetry
    obtain ⟨hfailed, hrefused⟩ := handleFailure_daily cycle.acceptsFailure ht hr hnow hdue
    cases hreturns : returns cycle.ends retries 0 with
    | false =>
      simp only [Bool.false_eq_true, if_false, Bool.false_and]
      exact ⟨last, hfailed, hrefused, .inl ⟨trivial, rfl⟩⟩
    | true =>
      simp only [if_true, Bool.true_and]
      cases hs : task.handleSuccess now cycle.acceptsSuccess with
      | error exc => exact ⟨last, hfailed, hrefused, .inl ⟨rfl, rfl⟩⟩
      | ok result =>
        obtain ⟨done, record⟩ := result
        obtain ⟨hdone, hrecord⟩ := handleSuccess_daily hcron ht.ruled hs
        rw [hnow] at hdone hrecord
        refine ⟨some now, hdone, hrecord, .inr ⟨rfl, rfl, fun t htime => ?_⟩⟩
        have hday := ht.due.day t htime
        have hwall : task.due.wall ≤ now.wall := by
          have hinstant : task.due.wall - task.due.offset ≤ now.wall - now.offset := hdue
          rw [ht.due.offset, hnow] at hinstant
          omega
        have hlater : date task.due.wall ≤ date now.wall := Int.ediv_le_ediv (by decide) hwall
        omega
  · rw [if_neg hdue, decide_eq_false hdue, Bool.false_and, Bool.false_and]
    exact ⟨last, ht, hr, .inl ⟨rfl, rfl⟩⟩

/-- A task that is registered again is not due on the day of its last success. -/
theorem register_daily [RoundTexts] {clock : Datetime} (hcron : rule.interval = none)
    (hr : DailyRecord offset last stored) (hzone : clock.offset = some offset)
    (hclock : ∀ t, last = some t → t.wall ≤ clock.wall)
    (h : ScheduledTask.register rule identity (.ok stored) clock = .ok task) :
    DailyTask rule offset last task := by
  have hcurrent : requireAwareDatetime clock "Scheduler clock" = .ok ⟨clock.wall, offset⟩ := by
    simp only [requireAwareDatetime, hzone]
  unfold ScheduledTask.register at h
  rw [hcurrent] at h
  cases stored with
  | none =>
    have hlast : last = none := hr.fresh rfl
    subst hlast
    simp only [readState, bind, Except.bind, pure, Except.pure, Option.bind_none] at h
    cases hd : rule.initialDueTime ⟨clock.wall, offset⟩ none with
    | error exc =>
      rw [hd] at h
      cases h
    | ok due =>
      rw [hd] at h
      cases h
      exact ⟨rfl, rfl, initialDueTime_after hcron hd fun t ht => by cases ht⟩
  | some raw =>
    obtain ⟨st, rfl, hst⟩ := hr.recorded raw rfl
    have hread : readState identity (.ok (some (writeState st))) = .ok (some st) := by
      simp only [readState, parseState_writeState, hst.checked]
    simp only [hread, bind, Except.bind, pure, Except.pure, Option.bind_some] at h
    have hinitial : ∀ due, rule.initialDueTime ⟨clock.wall, offset⟩ st.lastRun = .ok due →
        AfterLastRun offset last due := by
      intro due hd
      rw [hst.lastRun] at hd
      exact initialDueTime_after hcron hd hclock
    split at h
    · rename_i due hd
      cases h
      split at hd
      · exact ⟨rfl, hst.lastRun, hst.due due hd⟩
      · cases hd
    · cases hd : rule.initialDueTime ⟨clock.wall, offset⟩ st.lastRun with
      | error exc =>
        rw [hd] at h
        cases h
      | ok due =>
        rw [hd] at h
        cases h
        exact ⟨rfl, hst.lastRun, hinitial due hd⟩

omit [Texts] in
theorem lookup_none_iff {tasks : List (String × ScheduledTask)} :
    tasks.lookup identity = none ↔ identity ∉ tasks.map Prod.fst := by
  rw [List.lookup_eq_none_iff]
  constructor
  · intro h hmem
    obtain ⟨p, hp, hname⟩ := List.mem_map.mp hmem
    have hne := h p hp
    simp [hname] at hne
  · intro h p hp
    have hne : identity ≠ p.1 := fun heq => h (heq ▸ List.mem_map_of_mem hp)
    simpa using hne

variable {rules : String → ScheduleRule} {s s' : Scheduler} {a : Action} {name : String}
  {clock : Datetime} {cycles : String → Cycle}

/-- A process that starts has no tasks yet. -/
theorem daily_restart {store : String → Option Raw}
    (h : DailyRecord offset last (store (stateKey identity))) :
    Daily rule offset identity last ⟨[], store⟩ := by
  refine ⟨List.nodup_nil, fun task htask => ?_, h⟩
  rw [List.lookup_nil] at htask
  cases htask

theorem scheduled_daily [RoundTexts] (hcron : (rules identity).interval = none)
    (h : Daily (rules identity) offset identity last s) (hzone : clock.offset = some offset)
    (hclock : ∀ t, last = some t → t.wall ≤ clock.wall)
    (hs : s.scheduled name (rules name) clock = .ok s') :
    Daily (rules identity) offset identity last s' := by
  unfold scheduled at hs
  cases hlookup : s.tasks.lookup name with
  | some task => simp [hlookup, bind, Except.bind, throw, throwThe, MonadExceptOf.throw] at hs
  | none =>
    cases hregister : ScheduledTask.register (rules name) name
        (.ok (s.store (stateKey name))) clock with
    | error exc => simp [hlookup, hregister, bind, Except.bind] at hs
    | ok task =>
      simp only [hlookup, hregister, bind, Except.bind, pure, Except.pure, Option.isSome_none,
        Bool.false_eq_true, if_false, Except.ok.injEq] at hs
      subst hs
      refine ⟨?_, fun task' htask' => ?_, h.record⟩
      · rw [List.map_append, List.nodup_append]
        refine ⟨h.names, List.nodup_singleton _, fun name' hname' other hother => ?_⟩
        obtain rfl : other = name := by simpa using hother
        rintro rfl
        exact lookup_none_iff.mp hlookup hname'
      · rw [List.lookup_append] at htask'
        cases hold : s.tasks.lookup identity with
        | some old =>
          rw [hold] at htask'
          exact h.task task' (hold.trans htask')
        | none =>
          rw [hold, Option.none_or] at htask'
          by_cases heq : identity = name
          · subst heq
            simp only [List.lookup_cons, beq_self_eq_true, Option.some.injEq] at htask'
            subst htask'
            exact register_daily hcron h.record hzone hclock hregister
          · have hbeq : (identity == name) = false := by simpa using heq
            simp [List.lookup_cons, hbeq] at htask'

theorem runTasks_daily (retries : Nat) (now : AwareDatetime) (cycles : String → Cycle)
    (hcron : rule.interval = none) (h : Daily rule offset identity last s) (hnow : now.offset = offset) :
    let ran := runTasks retries now cycles s.tasks s.store
    ∃ last', Daily rule offset identity last' ⟨ran.2.1, ran.2.2⟩ ∧
      (s.success identity (.runDueTasks now.toDatetime retries cycles) = none ∧ last' = last ∨
        s.success identity (.runDueTasks now.toDatetime retries cycles) = some now ∧
          last' = some now ∧ ∀ t, last = some t → date t.wall < date now.wall) := by
  have hnames : ((runTasks retries now cycles s.tasks s.store).2.1.map Prod.fst).Nodup := by
    rw [runTasks_names]
    exact h.names
  have hreads : requireAwareDatetime now.toDatetime "Scheduler clock" = .ok now := rfl
  simp only [success, hreads]
  cases hlookup : s.tasks.lookup identity with
  | none =>
    have hmissing := lookup_none_iff.mp hlookup
    refine ⟨last, ⟨hnames, fun task htask => ?_, ?_⟩, .inl ⟨rfl, rfl⟩⟩
    · rw [← runTasks_names retries now cycles s.store, ← lookup_none_iff] at hmissing
      rw [hmissing] at htask
      cases htask
    · have hrecord := h.record
      rw [← runTasks_others retries now cycles s.store hmissing] at hrecord
      exact hrecord
  | some task =>
    obtain ⟨hentry, hstore⟩ := Prod.mk.inj (runTasks_lookup retries now cycles s.store h.names hlookup)
    obtain ⟨last', htask, hrecord, hlast⟩ := runIfDue_daily retries (cycles identity) hcron
      (h.task task hlookup) h.record hnow
    refine ⟨last', ⟨hnames, fun task' htask' => ?_, ?_⟩, ?_⟩
    · rw [hentry] at htask'
      cases htask'
      exact htask
    · rw [← hstore] at hrecord
      exact hrecord
    · rcases hlast with ⟨hfails, rfl⟩ | ⟨hsucceeds, rfl, hday⟩
      · exact .inl ⟨if_neg (by simp [hfails]), rfl⟩
      · exact .inr ⟨if_pos hsucceeds, rfl, hday⟩

/-- Every action keeps a task and its record in agreement; a success comes on a later day than the
one before. -/
theorem step_daily [RoundTexts] (hcron : (rules identity).interval = none)
    (h : Daily (rules identity) offset identity last s)
    (hzone : ∀ clock, a.clock = some clock → clock.offset = some offset ∧
      ∀ t, last = some t → t.wall ≤ clock.wall) :
    ∃ last', Daily (rules identity) offset identity last' (s.step rules a) ∧
      (s.success identity a = none ∧ last' = last ∨
        ∃ now, a.clock = some now.toDatetime ∧ s.success identity a = some now ∧
          last' = some now ∧ ∀ t, last = some t → date t.wall < date now.wall) := by
  cases a with
  | restart => exact ⟨last, daily_restart h.record, .inl ⟨rfl, rfl⟩⟩
  | scheduled name clock =>
    obtain ⟨hoffset, hclock⟩ := hzone clock rfl
    refine ⟨last, ?_, .inl ⟨rfl, rfl⟩⟩
    cases hs : s.scheduled name (rules name) clock with
    | error exc =>
      simp only [step, hs]
      exact h
    | ok s' =>
      simp only [step, hs]
      exact scheduled_daily hcron h hoffset hclock hs
  | runDueTasks clock retries cycles =>
    obtain ⟨wall, zone⟩ := clock
    obtain rfl : zone = some offset := (hzone _ rfl).1
    obtain ⟨last', hdaily, hlast⟩ := runTasks_daily retries ⟨wall, offset⟩ cycles hcron h rfl
    refine ⟨last', hdaily, hlast.imp_right fun hsuccess => ⟨_, rfl, hsuccess⟩⟩

end Steps

section Runs

variable [RoundTexts] {rules : String → ScheduleRule} {identity : String} {offset : Int}
  {history : List Action}

/-- The successes of a history follow the last one before it, each on a later day. -/
theorem successes_daily {s : Scheduler} {last : Option AwareDatetime}
    (hcron : (rules identity).interval = none)
    (h : Daily (rules identity) offset identity last s) (hticking : Ticking offset history)
    (hclock : ∀ t, last = some t → ∀ clock ∈ history.filterMap Action.clock, t.wall ≤ clock.wall) :
    (last.toList ++ successes rules identity s history).Pairwise
      fun t t' => date t.wall < date t'.wall := by
  induction history generalizing s last with
  | nil => cases last <;> simp [successes]
  | cons a history ih =>
    have hzone : ∀ clock, a.clock = some clock → clock.offset = some offset ∧
        ∀ t, last = some t → t.wall ≤ clock.wall := by
      intro clock hc
      refine ⟨hticking.zone a List.mem_cons_self clock hc, fun t ht => hclock t ht clock ?_⟩
      rw [List.filterMap_cons, hc]
      exact List.mem_cons_self
    have hlater : ∀ clock ∈ history.filterMap Action.clock,
        clock ∈ (a :: history).filterMap Action.clock := by
      intro clock hc
      rw [List.filterMap_cons]
      cases a.clock with
      | none => exact hc
      | some _ => exact List.mem_cons_of_mem _ hc
    have htail : Ticking offset history := by
      refine ⟨fun b hb => hticking.zone b (List.mem_cons_of_mem _ hb), ?_⟩
      have hmonotone := hticking.monotone
      rw [List.filterMap_cons] at hmonotone
      cases hc : a.clock with
      | none =>
        rw [hc] at hmonotone
        exact hmonotone
      | some clock =>
        rw [hc] at hmonotone
        exact hmonotone.of_cons
    obtain ⟨last', hdaily, hlast⟩ := step_daily hcron h hzone
    rw [successes]
    rcases hlast with ⟨hnone, rfl⟩ | ⟨now, hnow, hsome, rfl, hday⟩
    · rw [hnone]
      exact ih hdaily htail fun t ht clock hc => hclock t ht clock (hlater clock hc)
    · have hrest := ih hdaily htail fun t ht clock hc => by
        have hmonotone := hticking.monotone
        rw [List.filterMap_cons, hnow] at hmonotone
        cases ht
        exact List.rel_of_pairwise_cons hmonotone hc
      rw [hsome]
      cases last with
      | none => exact hrest
      | some t =>
        refine List.Pairwise.cons (fun t' ht' => ?_) hrest
        have hfirst := hday t rfl
        rcases List.mem_cons.mp ht' with rfl | ht'
        · exact hfirst
        · exact hfirst.trans (List.rel_of_pairwise_cons hrest ht')

/-- The successes of a cron task that are checkpointed all fall on different dates. -/
theorem cron_succeeds_once_a_day (hcron : (rules identity).interval = none)
    (hticking : Ticking offset history) :
    (successes rules identity ⟨[], fun _ => none⟩ history).Pairwise
      fun t t' => date t.wall ≠ date t'.wall := by
  have hstart : Daily (rules identity) offset identity none ⟨[], fun _ => none⟩ :=
    daily_restart ⟨fun _ => rfl, fun raw hraw => by cases hraw⟩
  exact (successes_daily hcron hstart hticking fun t ht => by cases ht).imp fun hday => hday.ne

end Runs

end Scheduler

section Sample

open Scheduler

local instance dailyTexts : Texts := .lawful

local instance dailyRounds : RoundTexts := roundTexts_lawful

/-- A daily task fails at its first midnight, succeeds an hour later after a transient failure, and
succeeds again at the next midnight. -/
def dailyHistory : List Scheduler.Action :=
  [.scheduled "report" (hours 0).toDatetime,
    .runDueTasks (hours 24).toDatetime 0 fun _ => { ends := fun _ => .raised },
    .runDueTasks (hours 25).toDatetime 1 fun _ => { ends := fun n => if n = 0 then .transient else .returned },
    .runDueTasks (hours 26).toDatetime 0 fun _ => {},
    .runDueTasks (hours 48).toDatetime 0 fun _ => {}, .restart]

theorem cron_succeeds_once_a_day_report :
    successes (fun _ => {}) "report" ⟨[], fun _ => none⟩ dailyHistory = [hours 25, hours 48] ∧
      [hours 25, hours 48].Pairwise fun t t' => date t.wall ≠ date t'.wall := by
  have hsuccesses :
      successes (fun _ => {}) "report" ⟨[], fun _ => none⟩ dailyHistory = [hours 25, hours 48] := rfl
  have hticking : Ticking 0 dailyHistory := by
    refine ⟨fun a ha clock hc => ?_, ?_⟩
    · revert clock
      revert a
      simp [dailyHistory, Action.clock, AwareDatetime.toDatetime, hours]
    · simp [dailyHistory, Action.clock, AwareDatetime.toDatetime, hours, List.filterMap_cons]
  refine ⟨hsuccesses, ?_⟩
  rw [← hsuccesses]
  exact cron_succeeds_once_a_day rfl hticking

end Sample

end Pybus
