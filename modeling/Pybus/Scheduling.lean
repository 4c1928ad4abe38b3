import Mathlib.Algebra.Order.Ring.Int
import Pybus.Recurrence
import Pybus.Wire

/-! The scheduler of periodic tasks: registration, one cycle over the tasks that are due, and the
state that is persisted for every task. -/
namespace Pybus

open Texts Recurrence

/-- A `datetime` with a UTC offset. -/
structure AwareDatetime where
  wall : Int
  offset : Int
  deriving DecidableEq, Repr

namespace AwareDatetime

variable {d d' : AwareDatetime}

def instant (d : AwareDatetime) : Instant := d.wall - d.offset

def toDatetime (d : AwareDatetime) : Datetime := ⟨d.wall, some d.offset⟩

/-- Add a `timedelta`, given in microseconds. -/
def add (d : AwareDatetime) (delta : Int) : AwareDatetime := { d with wall := d.wall + delta }

/-- `weekday()`: Monday is 0, and the epoch was a Thursday. -/
def weekday (d : AwareDatetime) : Int := (date d.wall + 3) % 7

end AwareDatetime

/-- `_require_aware_datetime`. -/
def requireAwareDatetime (value : Datetime) (label : String) : Except Exc AwareDatetime :=
  match value.offset with
  | none => .error (.valueError (label ++ " must include a UTC offset"))
  | some offset => .ok ⟨value.wall, offset⟩

/-- The interval in seconds or the cron rule of a task. -/
structure ScheduleRule where
  interval : Option Int := none
  days : Option (List Int) := none
  hour : Option Int := none
  minute : Option Int := none
  deriving DecidableEq, Repr

structure ScheduledTask where
  rule : ScheduleRule
  due : AwareDatetime
  failures : Nat := 0
  lastFailure : Option AwareDatetime := none
  lastRun : Option AwareDatetime := none
  deriving DecidableEq, Repr

structure PersistedScheduleState where
  lastRun : Option AwareDatetime
  due : Option AwareDatetime
  failures : Nat
  lastFailure : Option AwareDatetime
  deriving DecidableEq, Repr

namespace ScheduleRule

variable (rule : ScheduleRule)

/-- `current.replace(hour=hour or 0, minute=minute or 0, second=0, microsecond=0)`. -/
def scheduledToday (current : AwareDatetime) : Except Exc AwareDatetime :=
  let hour := rule.hour.getD 0
  let minute := rule.minute.getD 0
  if hour < 0 ∨ 24 ≤ hour then .error (.valueError "hour must be in 0..23")
  else if minute < 0 ∨ 60 ≤ minute then .error (.valueError "minute must be in 0..59")
  else .ok ⟨date current.wall * dayLength + (hour * 60 + minute) * 60000000, current.offset⟩

/-- The first of so many successive days that is one of the days of the week. -/
def firstOn (days : List Int) : Nat → AwareDatetime → Option AwareDatetime
  | 0, _ => none
  | n + 1, candidate =>
    if candidate.weekday ∈ days then some candidate else firstOn days n (candidate.add dayLength)

/-- The first allowed day from a slot on; without a usable list of days it is the slot itself. -/
def firstAllowed (startFrom : AwareDatetime) : AwareDatetime :=
  match rule.days with
  | none | some [] => startFrom
  | some days => (firstOn days 8 startFrom).getD startFrom

/-- `_cron_due_time`. -/
def cronDueTime (current : AwareDatetime) (lastRun : Option AwareDatetime) :
    Except Exc AwareDatetime := do
  let scheduledToday ← rule.scheduledToday current
  let hasRunToday := lastRun.any fun run => date current.wall ≤ date run.wall
  let startFrom :=
    if hasRunToday ∨ scheduledToday.wall ≤ current.wall then scheduledToday.add dayLength
    else scheduledToday
  return rule.firstAllowed startFrom

/-- `_initial_due_time`. -/
def initialDueTime (current : AwareDatetime) (lastRun : Option AwareDatetime) :
    Except Exc AwareDatetime :=
  match rule.interval with
  | some interval => .ok ((lastRun.getD current).add (interval * 1000000))
  | none => rule.cronDueTime current lastRun

/-- `_next_due_time`. -/
def nextDueTime (now lastRun : AwareDatetime) : Except Exc AwareDatetime :=
  match rule.interval with
  | some interval => .ok (now.add (interval * 1000000))
  | none => rule.cronDueTime now (some lastRun)

end ScheduleRule

section State

variable [Texts]

/-- `_format_datetime`, of values that have an offset. -/
def formatDatetime : Option AwareDatetime → Value
  | none => .null
  | some d => .str (datetimeIsoformat d.toDatetime)

/-- `_parse_datetime`. -/
def parseDatetime : Value → Except Exc (Option AwareDatetime)
  | .null => .ok none
  | .str s =>
    match datetimeFromisoformat s with
    | none => .error (.valueError "Invalid isoformat string")
    | some ⟨_, none⟩ => .error (.valueError "timestamp must include a UTC offset")
    | some ⟨wall, some offset⟩ => .ok (some ⟨wall, offset⟩)
  | _ => .error (.valueError "timestamp must be a string or null")

/-- What `_write_state` stores. -/
def writeState (state : PersistedScheduleState) : Raw :=
  .json (.dict [("due", formatDatetime state.due), ("failures", .int state.failures),
    ("last_failure", formatDatetime state.lastFailure), ("last_run", formatDatetime state.lastRun),
    ("version", .int 1)])

/-- `data[key]`. -/
def stateField (data : Dict) (key : String) : Except Exc Value :=
  match data.lookup key with
  | some v => .ok v
  | none => .error (.keyError key)

def readFailures : Value → Except Exc Nat
  | .int i =>
    if i < 0 then .error (.valueError "failures must not be negative") else .ok i.toNat
  | _ => .error (.valueError "failures must be an integer")

/-- The checks of `_read_state` on the parsed fields. -/
def checkState (state : PersistedScheduleState) : Except Exc PersistedScheduleState :=
  if state.failures = 0 ∧ state.lastFailure.isSome then
    .error (.valueError "successful state cannot have last_failure")
  else if 0 < state.failures ∧ (state.lastFailure.isNone ∨ state.due.isNone) then
    .error (.valueError "failed state requires last_failure and due")
  else .ok state

/-- The part of `_read_state` that parses a record. -/
def parseState : Raw → Except Exc PersistedScheduleState
  | .json (.dict data) => do
    if Value.get data "version" ≠ .int 1 then throw (.valueError "unsupported state version")
    let failures ← readFailures (← stateField data "failures")
    let lastRun ← parseDatetime (← stateField data "last_run")
    let due ← parseDatetime (← stateField data "due")
    let lastFailure ← parseDatetime (← stateField data "last_failure")
    checkState { lastRun, due, failures, lastFailure }
  | .json _ => .error (.valueError "scheduler state must be a JSON object")
  | .malformed _ exc => .error exc

/-- `_read_state`, on what the store returns or raises. -/
def readState (identity : String) :
    Except Exc (Option Raw) → Except Exc (Option PersistedScheduleState)
  | .error _ => .error (.runtimeError ("Unable to read scheduler state for " ++ identity))
  | .ok none => .ok none
  | .ok (some raw) =>
    match parseState raw with
    | .ok state => .ok (some state)
    | .error _ => .error (.valueError ("Invalid scheduler state for " ++ identity))

end State

namespace ScheduledTask

variable [Texts]

/-- The decorator of `scheduled`: the task, from the persisted state and the clock. -/
def register (rule : ScheduleRule) (identity : String) (stored : Except Exc (Option Raw))
    (clock : Datetime) : Except Exc ScheduledTask := do
  let persisted ← readState identity stored
  let current ← requireAwareDatetime clock "Scheduler clock"
  let lastRun := persisted.bind (·.lastRun)
  let due ←
    match persisted.bind fun state => if 0 < state.failures then state.due else none with
    | some due => pure due
    | none => rule.initialDueTime current lastRun
  return {
    rule, due, lastRun
    failures := (persisted.map (·.failures)).getD 0
    lastFailure := persisted.bind (·.lastFailure) }

/-- The state of a task that is persisted. -/
def state (task : ScheduledTask) : PersistedScheduleState :=
  ⟨task.lastRun, some task.due, task.failures, task.lastFailure⟩

/-- `_handle_task_success`; the store may raise instead of accepting the state. -/
def handleSuccess (task : ScheduledTask) (now : AwareDatetime) (accepts : Bool) :
    Except Exc (ScheduledTask × Raw) := do
  let due ← task.rule.nextDueTime now now
  let done := { task with failures := 0, lastFailure := none, lastRun := some now, due }
  if !accepts then throw (.runtimeError "state store")
  return (done, writeState done.state)

/-- `_handle_task_failure`: the backoff doubles up to the tenth failure, and a store that raises
leaves the old record. -/
def handleFailure (task : ScheduledTask) (now : AwareDatetime) (accepts : Bool)
    (stored : Option Raw) : ScheduledTask × Option Raw :=
  let failures := task.failures + 1
  let failed := { task with
    failures, lastFailure := some now
    due := now.add (60 * 2 ^ min failures 10 * 1000000) }
  (failed, if accepts then some (writeState failed.state) else stored)

end ScheduledTask

/-- How one call of a task's function ends; the caller says which exceptions are transient. -/
inductive CallEnd
  | returned
  | transient
  | raised
  deriving DecidableEq, Repr

/-- The loop of `_run_task_with_retry`: whether the function has returned in the end. -/
def returns (ends : Nat → CallEnd) : (retries attempt : Nat) → Bool
  | 0, attempt => ends attempt = .returned
  | retries + 1, attempt =>
    match ends attempt with
    | .returned => true
    | .raised => false
    | .transient => returns ends retries (attempt + 1)

/-- What happens to one task in a cycle: how the calls of its function end, and whether the store
accepts the state of a success and that of a failure. -/
structure Cycle where
  ends : Nat → CallEnd := fun _ => .returned
  acceptsSuccess : Bool := true
  acceptsFailure : Bool := true

/-- `_run_task_with_retry`: whether it raises, the task and its record. -/
def runTaskWithRetry [Texts] (task : ScheduledTask) (retries : Nat) (now : AwareDatetime)
    (cycle : Cycle) (stored : Option Raw) : Bool × ScheduledTask × Option Raw :=
  if returns cycle.ends retries 0 then
    match task.handleSuccess now cycle.acceptsSuccess with
    | .ok (done, record) => (false, done, some record)
    | .error _ => (true, task.handleFailure now cycle.acceptsFailure stored)
  else (true, task.handleFailure now cycle.acceptsFailure stored)

/-- A scheduler: its tasks in the order of their registration, by their identity, and the records
of its state store. -/
structure Scheduler where
  tasks : List (String × ScheduledTask)
  store : String → Option Raw

namespace Scheduler

variable [Texts]

omit [Texts] in
def stateKey (identity : String) : String := "pybus.scheduler.state:" ++ identity

/-- The loop of `run_due_tasks`: whether a task raised, the tasks and the records. -/
def runTasks (retries : Nat) (now : AwareDatetime) (cycles : String → Cycle) :
    List (String × ScheduledTask) → (String → Option Raw) →
      Bool × List (String × ScheduledTask) × (String → Option Raw)
  | [], store => (false, [], store)
  | (identity, task) :: tasks, store =>
    if task.due.instant ≤ now.instant then
      let (raised, task', record) :=
        runTaskWithRetry task retries now (cycles identity) (store (stateKey identity))
      let (others, tasks', store') := runTasks retries now cycles tasks
        (Function.update store (stateKey identity) record)
      (raised || others, (identity, task') :: tasks', store')
    else
      let (others, tasks', store') := runTasks retries now cycles tasks store
      (others, (identity, task) :: tasks', store')

/-- `run_due_tasks`: whether it raised the first error of the cycle, and the scheduler. -/
def runDueTasks (s : Scheduler) (clock : Datetime) (retries : Nat) (cycles : String → Cycle) :
    Except Exc (Bool × Scheduler) := do
  let now ← requireAwareDatetime clock "Scheduler clock"
  let (raised, tasks, store) := runTasks retries now cycles s.tasks s.store
  return (raised, { tasks, store })

/-- `scheduled`, for a task with a given identity. -/
def scheduled (s : Scheduler) (identity : String) (rule : ScheduleRule) (clock : Datetime) :
    Except Exc Scheduler := do
  if (s.tasks.lookup identity).isSome then
    throw (.valueError ("Duplicate scheduled task identity: " ++ identity))
  let task ← ScheduledTask.register rule identity (.ok (s.store (stateKey identity))) clock
  return { s with tasks := s.tasks ++ [(identity, task)] }

/-- What a process that uses the scheduler does, and its end: the next process has no tasks yet. -/
inductive Action
  | scheduled (identity : String) (clock : Datetime)
  | runDueTasks (clock : Datetime) (retries : Nat) (cycles : String → Cycle)
  | restart

/-- One action; one that raises leaves the scheduler as it is. Every task keeps its rule. -/
def step (rules : String → ScheduleRule) (s : Scheduler) : Action → Scheduler
  | .scheduled identity clock =>
    match s.scheduled identity (rules identity) clock with
    | .ok s' => s'
    | .error _ => s
  | .runDueTasks clock retries cycles =>
    match s.runDueTasks clock retries cycles with
    | .ok (_, s') => s'
    | .error _ => s
  | .restart => { s with tasks := [] }

/-- The scheduler after a history that began with an empty store. -/
def after (rules : String → ScheduleRule) (history : List Action) : Scheduler :=
  history.foldl (step rules) ⟨[], fun _ => none⟩

/-- The record of a task holds its state: its last checkpoint was successful. -/
def Checkpointed (s : Scheduler) (identity : String) (task : ScheduledTask) : Prop :=
  s.store (stateKey identity) = some (writeState task.state)

end Scheduler

end Pybus
