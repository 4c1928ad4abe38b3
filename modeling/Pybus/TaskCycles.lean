import Pybus.Interaction.Program
import Pybus.OncePerDay

/-! One cycle of a scheduler, call by call: the functions of the tasks, the writes of the state store,
and what every exception leads to. -/
namespace Pybus

open Texts Interaction Scheduler

/-- The calls of a cycle: of the function of a task, and of the state store. -/
inductive TaskCall
  | func (identity : String)
  | set (key : String) (value : Raw)
  deriving DecidableEq

abbrev TaskCalls : Signature where
  Op := TaskCall
  Res _ := Except Exc Unit

/-- What is done to one task. -/
abbrev Tasking (α : Type) : Type := Routine TaskCalls ScheduledTask Exc α

/-- What is done to all the tasks of a scheduler. -/
abbrev Cycling (α : Type) : Type := Routine TaskCalls (List (String × ScheduledTask)) Exc α

namespace ScheduledTask

/-- The task after one more failure. -/
def failedAt (task : ScheduledTask) (now : AwareDatetime) : ScheduledTask :=
  { task with
    failures := task.failures + 1
    lastFailure := some now
    due := now.add (60 * 2 ^ min (task.failures + 1) 10 * 1000000) }

/-- The task after a success. -/
def doneAt (task : ScheduledTask) (now due : AwareDatetime) : ScheduledTask :=
  { task with failures := 0, lastFailure := none, lastRun := some now, due }

end ScheduledTask

namespace Tasking

section Programs

variable [Texts] (identity : String) (transient : Exc → Bool) (now : AwareDatetime)

/-- `_handle_task_failure`. -/
def handleTaskFailure : Tasking Unit := do
  Routine.update fun task => { task with failures := task.failures + 1, lastFailure := some now }
  Routine.update fun task => { task with due := now.add (60 * 2 ^ min task.failures 10 * 1000000) }
  let task ← Routine.own
  try Routine.attempt (.set (stateKey identity) (writeState task.state)) id
  catch _ => return ()

/-- `_handle_task_success`. -/
def handleTaskSuccess : Tasking Unit := do
  let task ← Routine.own
  let nextDue ← Routine.lift (task.rule.nextDueTime now now)
  Routine.attempt (.set (stateKey identity) (writeState ⟨some now, some nextDue, 0, none⟩)) id
  Routine.update fun task =>
    { task with failures := 0, lastFailure := none, lastRun := some now, due := nextDue }

/-- An exception that is not retried. -/
def fails (exc : Exc) : Tasking Unit := do
  handleTaskFailure identity now
  throw exc

/-- The `else` branch of `_run_task_with_retry`. -/
def completes : Tasking Unit := do
  try handleTaskSuccess identity now
  catch exc => fails identity now exc

/-- `_run_task_with_retry`, with so many retries left. -/
def runTaskWithRetry : Nat → Tasking Unit
  | 0 => do
    match ← Routine.attempt (.func identity) Except.ok with
    | .ok () => completes identity now
    | .error exc => fails identity now exc
  | left + 1 => do
    match ← Routine.attempt (.func identity) Except.ok with
    | .ok () => completes identity now
    | .error exc => if transient exc then runTaskWithRetry left else fails identity now exc

end Programs

/-- One task of the scheduler: what is done to it is done to the task with the identity. -/
def onTask (identity : String) (p : Tasking Unit) : Cycling Unit := fun tasks =>
  match tasks.lookup identity with
  | none => .done (.error (.keyError identity), tasks)
  | some task => (p task).bind fun (r, task') =>
    .done (r, tasks.map fun p => if p.1 = identity then (identity, task') else p)

section Programs

variable [Texts] (retries : Nat) (transient : Exc → Bool)

/-- The loop of `run_due_tasks`, with the first error so far. -/
def runEach (now : AwareDatetime) : List String → Option Exc → Cycling (Option Exc)
  | [], firstError => return firstError
  | identity :: identities, firstError => do
    let raised ← try
      onTask identity (runTaskWithRetry identity transient now retries)
      pure none
    catch exc => pure (some exc)
    runEach now identities (firstError <|> raised)

/-- `run_due_tasks`. -/
def runDueTasks (clock : Datetime) : Cycling Unit := do
  let now ← Routine.lift (requireAwareDatetime clock "Scheduler clock")
  let tasks ← Routine.own
  let due := tasks.filter fun p => p.2.due.instant ≤ now.instant
  match ← runEach retries transient now (due.map Prod.fst) none with
  | some exc => throw exc
  | none => return ()

end Programs

/-- What a complete run for one task amounts to: its calls, its end, and the task after it. -/
inductive TaskRun [Texts] (identity : String) (transient : Exc → Bool) (now : AwareDatetime)
    (task : ScheduledTask) : Nat → List (Event TaskCalls) → Except Exc Unit → ScheduledTask → Prop
  | retried {left : Nat} {exc : Exc} {trace : List (Event TaskCalls)} {r : Except Exc Unit}
      {task' : ScheduledTask} : transient exc = true →
      TaskRun identity transient now task left trace r task' →
      TaskRun identity transient now task (left + 1) (⟨.func identity, .error exc⟩ :: trace) r task'
  | raised {left : Nat} {exc : Exc} {written : Except Exc Unit} :
      (transient exc = true → left = 0) →
      TaskRun identity transient now task left [⟨.func identity, .error exc⟩,
        ⟨.set (stateKey identity) (writeState (task.failedAt now).state), written⟩]
        (.error exc) (task.failedAt now)
  | undated {left : Nat} {exc : Exc} {written : Except Exc Unit} :
      task.rule.nextDueTime now now = .error exc →
      TaskRun identity transient now task left [⟨.func identity, .ok ()⟩,
        ⟨.set (stateKey identity) (writeState (task.failedAt now).state), written⟩]
        (.error exc) (task.failedAt now)
  | refused {left : Nat} {due : AwareDatetime} {exc : Exc} {written : Except Exc Unit} :
      task.rule.nextDueTime now now = .ok due →
      TaskRun identity transient now task left [⟨.func identity, .ok ()⟩,
        ⟨.set (stateKey identity) (writeState (task.doneAt now due).state), .error exc⟩,
        ⟨.set (stateKey identity) (writeState (task.failedAt now).state), written⟩]
        (.error exc) (task.failedAt now)
  | succeeded {left : Nat} {due : AwareDatetime} : task.rule.nextDueTime now now = .ok due →
      TaskRun identity transient now task left [⟨.func identity, .ok ()⟩,
        ⟨.set (stateKey identity) (writeState (task.doneAt now due).state), .ok ()⟩]
        (.ok ()) (task.doneAt now due)

section Runs

variable [Texts] {identity : String} {transient : Exc → Bool} {now : AwareDatetime}
  {task task' : ScheduledTask} {left : Nat} {trace : List (Event TaskCalls)} {r : Except Exc Unit}
  {exc : Exc}

theorem fails_eq : fails identity now exc task =
    .call (.set (stateKey identity) (writeState (task.failedAt now).state)) fun _ =>
      .done (.error exc, task.failedAt now) := by
  refine congrArg (Prog.call (S := TaskCalls) _) (funext fun r => ?_)
  rcases r with e | ⟨⟩ <;> rfl

theorem fails_runs (h : (fails identity now exc task).Runs trace (r, task')) :
    ∃ written, trace = [⟨.set (stateKey identity) (writeState (task.failedAt now).state), written⟩] ∧
      r = .error exc ∧ task' = task.failedAt now := by
  rw [fails_eq] at h
  cases h with
  | call h =>
    cases h
    exact ⟨_, rfl, rfl, rfl⟩

theorem completes_undated (h : task.rule.nextDueTime now now = .error exc) :
    completes identity now task = fails identity now exc task := by
  change Prog.bind (Prog.bind (Routine.lift (task.rule.nextDueTime now now) task) _) _ = _
  rw [h]
  rfl

theorem completes_dated {due : AwareDatetime} (h : task.rule.nextDueTime now now = .ok due) :
    completes identity now task =
      .call (.set (stateKey identity) (writeState (task.doneAt now due).state)) fun r =>
        match r with
        | .ok () => .done (.ok (), task.doneAt now due)
        | .error exc => fails identity now exc task := by
  change Prog.bind (Prog.bind (Routine.lift (task.rule.nextDueTime now now) task) _) _ = _
  rw [h]
  refine congrArg (Prog.call (S := TaskCalls) _) (funext fun r => ?_)
  rcases r with e | ⟨⟩ <;> rfl

/-- What follows when the function of a task has returned. -/
theorem completes_runs (h : (completes identity now task).Runs trace (r, task')) :
    TaskRun identity transient now task left (⟨.func identity, .ok ()⟩ :: trace) r task' := by
  cases hd : task.rule.nextDueTime now now with
  | error exc =>
    rw [completes_undated hd] at h
    obtain ⟨written, rfl, rfl, rfl⟩ := fails_runs h
    exact .undated hd
  | ok due =>
    rw [completes_dated hd] at h
    cases h with
    | @call _ _ answer tr _ h =>
      rcases answer with exc | ⟨⟩
      · obtain ⟨written, rfl, rfl, rfl⟩ := fails_runs h
        exact .refused hd
      · cases h
        exact .succeeded hd

/-- What the runs of one task amount to. -/
theorem runTaskWithRetry_runs
    (h : (runTaskWithRetry identity transient now left task).Runs trace (r, task')) :
    TaskRun identity transient now task left trace r task' := by
  induction left generalizing trace with
  | zero =>
    cases h with
    | @call _ _ answer tr _ h =>
      rcases answer with exc | ⟨⟩
      · obtain ⟨written, rfl, rfl, rfl⟩ := fails_runs h
        exact .raised fun _ => rfl
      · exact completes_runs h
  | succ left ih =>
    cases h with
    | @call _ _ answer tr _ h =>
      rcases answer with exc | ⟨⟩
      · change ((if transient exc then runTaskWithRetry identity transient now left
          else fails identity now exc : Tasking Unit) task).Runs tr (r, task') at h
        cases ht : transient exc with
        | true =>
          rw [ht, if_pos rfl] at h
          exact .retried ht (ih h)
        | false =>
          rw [ht, if_neg Bool.false_ne_true] at h
          obtain ⟨written, rfl, rfl, rfl⟩ := fails_runs h
          exact .raised fun hn => absurd (ht.symm.trans hn) Bool.false_ne_true
      · exact completes_runs h

end Runs

/-- A call for one task: of its function, or to store its state. -/
def concerns (identity : String) (event : Event TaskCalls) : Bool :=
  match event.op with
  | .func name => name = identity
  | .set key _ => key = stateKey identity

/-- The calls for one task. -/
def eventsOf (identity : String) (trace : List (Event TaskCalls)) : List (Event TaskCalls) :=
  trace.filter (concerns identity)

/-- How often the function of a task is called. -/
def invocations (identity : String) (trace : List (Event TaskCalls)) : Nat :=
  trace.countP fun event => event.op = .func identity

namespace TaskRun

variable [Texts] {identity : String} {transient : Exc → Bool} {now : AwareDatetime}
  {task task' : ScheduledTask} {left : Nat} {trace : List (Event TaskCalls)} {r : Except Exc Unit}

theorem concerned (h : TaskRun identity transient now task left trace r task') :
    ∀ event ∈ trace, concerns identity event = true := by
  induction h with
  | retried ht _ ih =>
    intro event he
    rcases List.mem_cons.mp he with rfl | he
    · simp [concerns]
    · exact ih event he
  | raised | undated | refused | succeeded => simp [concerns]

theorem invoked (h : TaskRun identity transient now task left trace r task') :
    1 ≤ invocations identity trace ∧ invocations identity trace ≤ left + 1 := by
  unfold invocations
  induction h with
  | retried ht _ ih =>
    rw [List.countP_cons_of_pos (by simp)]
    omega
  | raised | undated | refused | succeeded => simp

/-- A task fails with the exception of its function, or with the one that came up at its
checkpoint. -/
theorem failed (h : TaskRun identity transient now task left trace r task') {exc : Exc}
    (hr : r = .error exc) : task' = task.failedAt now ∧
      (⟨.func identity, .error exc⟩ ∈ trace ∨
        (∃ value, ⟨.set (stateKey identity) value, .error exc⟩ ∈ trace) ∨
        task.rule.nextDueTime now now = .error exc) := by
  induction h with
  | retried ht _ ih =>
    obtain ⟨hfailed, hcause⟩ := ih hr
    refine ⟨hfailed, ?_⟩
    rcases hcause with hfunc | ⟨value, hset⟩ | hdue
    · exact .inl (List.mem_cons_of_mem _ hfunc)
    · exact .inr (.inl ⟨value, List.mem_cons_of_mem _ hset⟩)
    · exact .inr (.inr hdue)
  | raised =>
    cases hr
    exact ⟨rfl, .inl List.mem_cons_self⟩
  | undated hd =>
    cases hr
    exact ⟨rfl, .inr (.inr hd)⟩
  | refused =>
    cases hr
    exact ⟨rfl, .inr (.inl ⟨_, List.mem_cons_of_mem _ List.mem_cons_self⟩)⟩
  | succeeded => cases hr

theorem succeeds (h : TaskRun identity transient now task left trace r task') (hr : r = .ok ()) :
    ⟨.func identity, .ok ()⟩ ∈ trace ∧ ∃ due, task.rule.nextDueTime now now = .ok due ∧
      task' = task.doneAt now due ∧
      ⟨.set (stateKey identity) (writeState (task.doneAt now due).state), .ok ()⟩ ∈ trace := by
  induction h with
  | retried ht _ ih =>
    obtain ⟨hfunc, due, hdue, hdone, hset⟩ := ih hr
    exact ⟨List.mem_cons_of_mem _ hfunc, due, hdue, hdone, List.mem_cons_of_mem _ hset⟩
  | succeeded hd =>
    exact ⟨List.mem_cons_self, _, hd, rfl, List.mem_cons_of_mem _ List.mem_cons_self⟩
  | raised | undated | refused => cases hr

end TaskRun

section Cycles

variable [Texts] {identity : String} {retries : Nat} {transient : Exc → Bool} {now : AwareDatetime}
  {tasks tasks' : List (String × ScheduledTask)} {trace : List (Event TaskCalls)}

omit [Texts] in
theorem onTask_runs {p : Tasking Unit} {task : ScheduledTask} {r : Except Exc Unit}
    (hlookup : tasks.lookup identity = some task)
    (h : (onTask identity p tasks).Runs trace (r, tasks')) :
    ∃ task', (p task).Runs trace (r, task') ∧
      tasks' = tasks.map fun p => if p.1 = identity then (identity, task') else p := by
  unfold onTask at h
  rw [hlookup] at h
  obtain ⟨tr₁, tr₂, ⟨r₁, task'⟩, rfl, hrun, hrest⟩ := Prog.runs_bind.mp h
  cases hrest
  rw [List.append_nil]
  exact ⟨task', hrun, rfl⟩

/-- One step of the loop of a cycle: the task runs, and its exception is kept if it is the first. -/
theorem runEach_cons_runs {identities : List String} {firstError : Option Exc}
    {r : Except Exc (Option Exc)}
    (h : (runEach retries transient now (identity :: identities) firstError tasks).Runs trace
      (r, tasks')) : ∃ tr₁ tr₂ r₁ tasks₁, trace = tr₁ ++ tr₂ ∧
        (onTask identity (runTaskWithRetry identity transient now retries) tasks).Runs tr₁
          (r₁, tasks₁) ∧
        (runEach retries transient now identities (firstError <|> raised r₁) tasks₁).Runs tr₂
          (r, tasks') := by
  obtain ⟨tr, tr₂, ⟨r₀, tasks₀⟩, rfl, hfirst, hrest⟩ := Prog.runs_bind.mp h
  obtain ⟨tr', tr₀, ⟨r₁, tasks₁⟩, rfl, htask, hcatch⟩ := Prog.runs_bind.mp hfirst
  obtain ⟨tr₁, tr'', ⟨r₂, tasks₂⟩, rfl, htask, hnone⟩ := Prog.runs_bind.mp htask
  rcases r₂ with exc | ⟨⟩
  · cases hnone
    cases hcatch
    exact ⟨_, _, _, _, by simp, htask, hrest⟩
  · cases hnone
    cases hcatch
    exact ⟨_, _, _, _, by simp, htask, hrest⟩

omit [Texts] in
theorem lookup_replaced {name : String} {task' : ScheduledTask} (h : name ≠ identity) :
    (tasks.map fun p => if p.1 = identity then (identity, task') else p).lookup name =
      tasks.lookup name := by
  induction tasks with
  | nil => rfl
  | cons p tasks ih =>
    obtain ⟨key, task⟩ := p
    by_cases heq : key = identity
    · subst heq
      have hbeq : (name == key) = false := by simpa using h
      simp only [List.map_cons, if_true, List.lookup_cons, hbeq, ih]
    · simp only [List.map_cons, if_neg heq, List.lookup_cons, ih]

omit [Texts] in
theorem eventsOf_append (trace trace' : List (Event TaskCalls)) :
    eventsOf identity (trace ++ trace') = eventsOf identity trace ++ eventsOf identity trace' :=
  List.filter_append _ _

omit [Texts] in
theorem eventsOf_self (h : ∀ event ∈ trace, concerns identity event = true) :
    eventsOf identity trace = trace := List.filter_eq_self.mpr h

omit [Texts] in
/-- A call for one task is not for another. -/
theorem eventsOf_other {name : String} (hne : name ≠ identity)
    (h : ∀ event ∈ trace, concerns identity event = true) : eventsOf name trace = [] := by
  refine List.filter_eq_nil_iff.mpr fun event he => ?_
  have hconcerns := h event he
  obtain ⟨o, r⟩ := event
  cases o with
  | func other =>
    simp only [concerns, decide_eq_true_eq] at hconcerns ⊢
    rw [hconcerns]
    exact hne.symm
  | set key value =>
    simp only [concerns, decide_eq_true_eq] at hconcerns ⊢
    rw [hconcerns]
    exact fun hkey => hne (stateKey_injective hkey).symm

/-- The loop of a cycle runs every task as if it were alone. -/
theorem runEach_runs {identities : List String} {firstError : Option Exc}
    {r : Except Exc (Option Exc)} (hnodup : identities.Nodup)
    (hknown : ∀ name ∈ identities, ∃ task, tasks.lookup name = some task)
    (h : (runEach retries transient now identities firstError tasks).Runs trace (r, tasks')) :
    ∃ ends : String → Except Exc Unit × ScheduledTask,
      r = .ok (firstError <|> (identities.map fun name => (ends name).1).findSome? raised) ∧
      (tasks' = tasks.map fun p => if p.1 ∈ identities then (p.1, (ends p.1).2) else p) ∧
      (∀ name ∈ identities, ∀ task, tasks.lookup name = some task →
        (runTaskWithRetry name transient now retries task).Runs (eventsOf name trace) (ends name)) ∧
      ∀ name ∉ identities, eventsOf name trace = [] := by
  induction identities generalizing tasks firstError trace with
  | nil =>
    cases h
    exact ⟨fun _ => (.ok (), ⟨{}, ⟨0, 0⟩, 0, none, none⟩), by simp, by simp, nofun, fun _ _ => rfl⟩
  | cons identity identities ih =>
    obtain ⟨hfresh, hnodup⟩ := List.nodup_cons.mp hnodup
    obtain ⟨tr₁, tr₂, r₁, tasks₁, rfl, hfirst, hrest⟩ := runEach_cons_runs h
    obtain ⟨task, htask⟩ := hknown identity List.mem_cons_self
    obtain ⟨task', hrun, rfl⟩ := onTask_runs htask hfirst
    have hconcerned := (runTaskWithRetry_runs hrun).concerned
    have hdistinct : ∀ name ∈ identities, name ≠ identity := by
      intro name hname heq
      exact hfresh (heq ▸ hname)
    obtain ⟨ends, hr, htasks, hruns, hothers⟩ := ih hnodup (fun name hname => by
      rw [lookup_replaced (hdistinct name hname)]
      exact hknown name (List.mem_cons_of_mem _ hname)) hrest
    have hends : ∀ name ∈ identities,
        Function.update ends identity (r₁, task') name = ends name := fun name hname =>
      Function.update_of_ne (hdistinct name hname) _ _
    refine ⟨Function.update ends identity (r₁, task'), ?_, ?_, fun name hname task₀ htask₀ => ?_,
      fun name hname => ?_⟩
    · have hrest : (identities.map fun name =>
          (Function.update ends identity (r₁, task') name).1) =
          identities.map fun name => (ends name).1 :=
        List.map_congr_left fun name hname => congrArg Prod.fst (hends name hname)
      rw [hr, List.map_cons, List.findSome?_cons, hrest, Function.update_self]
      cases firstError <;> cases raised r₁ <;> rfl
    · rw [htasks, List.map_map]
      refine List.map_congr_left fun p _ => ?_
      by_cases heq : p.1 = identity
      · simp [heq, hfresh]
      · simp [heq]
    · rw [eventsOf_append]
      rcases List.mem_cons.mp hname with rfl | hname
      · cases htask.symm.trans htask₀
        rw [eventsOf_self hconcerned, hothers name hfresh, List.append_nil, Function.update_self]
        exact hrun
      · have hne := hdistinct name hname
        rw [eventsOf_other hne hconcerned, List.nil_append, hends name hname]
        exact hruns name hname task₀ ((lookup_replaced hne).trans htask₀)
    · obtain ⟨hne, hname⟩ := not_or.mp fun h => hname (List.mem_cons.mpr h)
      rw [eventsOf_append, eventsOf_other hne hconcerned, hothers name hname, List.append_nil]

omit [Texts] in
theorem lookup_of_mem {p : String × ScheduledTask} (hnodup : (tasks.map Prod.fst).Nodup)
    (h : p ∈ tasks) : tasks.lookup p.1 = some p.2 := by
  obtain ⟨before, after, rfl⟩ := List.append_of_mem h
  refine List.lookup_eq_some_iff.mpr ⟨before, after, rfl, fun q hq => ?_⟩
  rw [List.map_append, List.nodup_append] at hnodup
  have hne := hnodup.2.2 q.1 (List.mem_map_of_mem hq) p.1 (List.mem_map_of_mem List.mem_cons_self)
  simpa using hne.symm

omit [Texts] in
theorem lookup_unique {p q : String × ScheduledTask} (hnodup : (tasks.map Prod.fst).Nodup)
    (hp : p ∈ tasks) (hq : q ∈ tasks) (h : p.1 = q.1) : p = q := by
  have hlookup := lookup_of_mem hnodup hp
  rw [h, lookup_of_mem hnodup hq] at hlookup
  exact Prod.ext h (Option.some.inj hlookup).symm

/-- The end of a cycle: its first error, if there is one. -/
def cycleEnd (ends : List (Except Exc Unit)) : Except Exc Unit :=
  match ends.findSome? raised with
  | some exc => .error exc
  | none => .ok ()

omit [Texts] in
theorem cycleEnd_error_iff {ends : List (Except Exc Unit)} :
    (∃ exc, cycleEnd ends = .error exc) ↔ ∃ r ∈ ends, ∃ exc, r = .error exc := by
  unfold cycleEnd
  cases hfirst : ends.findSome? raised with
  | some exc =>
    obtain ⟨r, hr, hraised⟩ := List.exists_of_findSome?_eq_some hfirst
    refine ⟨fun _ => ⟨r, hr, exc, ?_⟩, fun _ => ⟨exc, rfl⟩⟩
    cases r with
    | error e => exact congrArg _ (Option.some.inj hraised)
    | ok => cases hraised
  | none =>
    refine ⟨fun ⟨exc, h⟩ => (nomatch h), fun ⟨r, hr, exc, hexc⟩ => ?_⟩
    have hnone := List.findSome?_eq_none_iff.mp hfirst r hr
    rw [hexc] at hnone
    cases hnone

/-- The tasks that are due, as `get_due_tasks` lists them. -/
def dueTasks (now : AwareDatetime) (tasks : List (String × ScheduledTask)) :
    List (String × ScheduledTask) := tasks.filter fun p => p.2.due.instant ≤ now.instant

theorem runDueTasks_runs {clock : Datetime} {result : Except Exc Unit}
    (hclock : requireAwareDatetime clock "Scheduler clock" = .ok now)
    (h : (runDueTasks retries transient clock tasks).Runs trace (result, tasks')) :
    ∃ r, (runEach retries transient now ((dueTasks now tasks).map Prod.fst) none tasks).Runs trace
      (r, tasks') ∧ ∀ firstError, r = .ok firstError → result = match firstError with
        | some exc => .error exc
        | none => .ok () := by
  change (Prog.bind (Routine.lift (requireAwareDatetime clock "Scheduler clock") tasks) _).Runs _ _ at h
  rw [hclock] at h
  obtain ⟨tr₁, tr₂, ⟨r, tasks₁⟩, rfl, hloop, hend⟩ := (Prog.runs_bind (p :=
    runEach retries transient now ((dueTasks now tasks).map Prod.fst) none tasks)).mp h
  refine ⟨r, ?_, ?_⟩
  · rcases r with exc | _ | exc <;> cases hend <;> simpa using hloop
  · rintro firstError rfl
    cases firstError <;> cases hend <;> rfl

/-- A cycle runs every due task as if it were alone, leaves the others untouched, and raises the first
error of a task if there is one. -/
theorem runDueTasks_alone {clock : Datetime} {result : Except Exc Unit}
    (hclock : requireAwareDatetime clock "Scheduler clock" = .ok now)
    (hnodup : (tasks.map Prod.fst).Nodup)
    (h : (runDueTasks retries transient clock tasks).Runs trace (result, tasks')) :
    ∃ ends : String → Except Exc Unit × ScheduledTask,
      (∀ p ∈ tasks, p.2.due.instant ≤ now.instant →
        (runTaskWithRetry p.1 transient now retries p.2).Runs (eventsOf p.1 trace) (ends p.1)) ∧
      (∀ p ∈ tasks, now.instant < p.2.due.instant → eventsOf p.1 trace = []) ∧
      (tasks' = tasks.map fun p =>
        if p.2.due.instant ≤ now.instant then (p.1, (ends p.1).2) else p) ∧
      result = cycleEnd ((dueTasks now tasks).map fun p => (ends p.1).1) := by
  have hnames : ((dueTasks now tasks).map Prod.fst).Nodup := hnodup.sublist (List.filter_sublist.map _)
  have hdue : ∀ p ∈ tasks, (p.1 ∈ (dueTasks now tasks).map Prod.fst ↔
      p.2.due.instant ≤ now.instant) := by
    intro p hp
    constructor
    · intro hmem
      obtain ⟨q, hq, hname⟩ := List.mem_map.mp hmem
      obtain ⟨hq, hqdue⟩ := List.mem_filter.mp hq
      rw [← lookup_unique hnodup hq hp hname]
      exact of_decide_eq_true hqdue
    · intro hpdue
      exact List.mem_map_of_mem (List.mem_filter.mpr ⟨hp, decide_eq_true hpdue⟩)
  obtain ⟨r, hloop, hresult⟩ := runDueTasks_runs hclock h
  obtain ⟨ends, hr, htasks, hruns, hothers⟩ := runEach_runs hnames (fun name hname => by
    obtain ⟨q, hq, rfl⟩ := List.mem_map.mp hname
    exact ⟨q.2, lookup_of_mem hnodup (List.mem_filter.mp hq).1⟩) hloop
  refine ⟨ends, fun p hp hpdue => ?_, fun p hp hlater => ?_, ?_, ?_⟩
  · exact hruns p.1 ((hdue p hp).mpr hpdue) p.2 (lookup_of_mem hnodup hp)
  · exact hothers p.1 fun hmem => absurd ((hdue p hp).mp hmem) (Int.not_le.mpr hlater)
  · rw [htasks]
    refine List.map_congr_left fun p hp => ?_
    simp only [hdue p hp]
  · have hfirst := hresult _ hr
    rw [List.map_map] at hfirst
    exact hfirst

omit [Texts] in
/-- A cycle raises just if a due task failed. -/
theorem cycleEnd_due_iff {ends : String → Except Exc Unit × ScheduledTask} :
    (∃ exc, cycleEnd ((dueTasks now tasks).map fun p => (ends p.1).1) = .error exc) ↔
      ∃ p ∈ tasks, p.2.due.instant ≤ now.instant ∧ ∃ exc, (ends p.1).1 = .error exc := by
  rw [cycleEnd_error_iff]
  constructor
  · rintro ⟨r, hr, hfailed⟩
    obtain ⟨p, hp, rfl⟩ := List.mem_map.mp hr
    obtain ⟨hp, hpdue⟩ := List.mem_filter.mp hp
    exact ⟨p, hp, of_decide_eq_true hpdue, hfailed⟩
  · rintro ⟨p, hp, hpdue, hfailed⟩
    exact ⟨_, List.mem_map_of_mem (List.mem_filter.mpr ⟨hp, decide_eq_true hpdue⟩), hfailed⟩

end Cycles

section Functional

variable [Texts] {identity : String} {retries : Nat} {transient : Exc → Bool} {now : AwareDatetime}
  {tasks tasks' : List (String × ScheduledTask)} {trace : List (Event TaskCalls)}
  {store : String → Option Raw}

omit [Texts] in
/-- The record of a task after its calls. -/
def recordAfter (stored : Option Raw) (trace : List (Event TaskCalls)) : Option Raw :=
  trace.foldl (fun stored event =>
    match event with
    | ⟨.set _ value, .ok ()⟩ => some value
    | _ => stored) stored

omit [Texts] in
/-- The records after a trace. -/
def storeAfter (store : String → Option Raw) (trace : List (Event TaskCalls)) :
    String → Option Raw :=
  trace.foldl (fun store event =>
    match event with
    | ⟨.set key value, .ok ()⟩ => Function.update store key (some value)
    | _ => store) store

omit [Texts] in
/-- The record of a task depends on its own calls only. -/
theorem storeAfter_eventsOf (store : String → Option Raw) :
    storeAfter store trace (stateKey identity) =
    recordAfter (store (stateKey identity)) (eventsOf identity trace) := by
  induction trace generalizing store with
  | nil => rfl
  | cons event trace ih =>
    obtain ⟨o, r⟩ := event
    cases o with
    | func name =>
      by_cases hc : concerns identity ⟨.func name, r⟩ = true
      · rw [eventsOf, List.filter_cons_of_pos hc]
        exact ih store
      · rw [eventsOf, List.filter_cons_of_neg hc]
        exact ih store
    | set key value =>
      by_cases hkey : key = stateKey identity
      · subst hkey
        rw [eventsOf, List.filter_cons_of_pos (by simp [concerns])]
        rcases r with exc | ⟨⟩
        · exact ih store
        · refine (ih (Function.update store (stateKey identity) (some value))).trans ?_
          rw [Function.update_self]
          rfl
      · rw [eventsOf, List.filter_cons_of_neg (by simpa [concerns] using hkey)]
        rcases r with exc | ⟨⟩
        · exact ih store
        · refine (ih (Function.update store key (some value))).trans ?_
          rw [Function.update_of_ne (Ne.symm hkey)]
          rfl

omit [Texts] in
theorem returns_later (ends : Nat → CallEnd) (first : CallEnd) (left attempt : Nat) :
    returns (fun n => if n = 0 then first else ends (n - 1)) left (attempt + 1) =
      returns ends left attempt := by
  induction left generalizing attempt with
  | zero => simp [returns]
  | succ left ih =>
    simp only [returns, Nat.add_eq_zero_iff, Nat.one_ne_zero, and_false, if_false,
      Nat.add_sub_cancel]
    cases ends attempt with
    | returned | raised => rfl
    | transient => exact ih _

/-- A run for one task is a cycle of it as the scheduler's histories have it. -/
theorem TaskRun.cycle {task task' : ScheduledTask} {left : Nat} {r : Except Exc Unit}
    (h : TaskRun identity transient now task left trace r task') (stored : Option Raw) :
    ∃ cycle, Pybus.runTaskWithRetry task left now cycle stored =
      ((Interaction.raised r).isSome, task', recordAfter stored trace) := by
  induction h with
  | @retried left _ _ _ _ ht _ ih =>
    obtain ⟨cycle, hcycle⟩ := ih
    refine ⟨{ cycle with ends := fun n => if n = 0 then .transient else cycle.ends (n - 1) }, ?_⟩
    have hreturns := returns_later cycle.ends .transient left 0
    unfold Pybus.runTaskWithRetry at hcycle ⊢
    simp only [returns, if_true]
    rw [hreturns]
    exact hcycle
  | @raised left exc written =>
    refine ⟨{ ends := fun _ => .raised, acceptsFailure := written.isOk }, ?_⟩
    have hreturns : returns (fun _ => .raised) left 0 = false := by
      cases left <;> rfl
    unfold Pybus.runTaskWithRetry
    rw [hreturns]
    rcases written with e | ⟨⟩ <;> rfl
  | @undated left exc written hd =>
    refine ⟨{ acceptsFailure := written.isOk }, ?_⟩
    have hreturns : returns (fun _ => .returned) left 0 = true := by
      cases left <;> rfl
    unfold Pybus.runTaskWithRetry
    rw [hreturns]
    simp only [ScheduledTask.handleSuccess, hd, bind, Except.bind, if_true]
    rcases written with e | ⟨⟩ <;> rfl
  | @refused left due exc written hd =>
    refine ⟨{ acceptsSuccess := false, acceptsFailure := written.isOk }, ?_⟩
    have hreturns : returns (fun _ => .returned) left 0 = true := by
      cases left <;> rfl
    unfold Pybus.runTaskWithRetry
    rw [hreturns]
    simp only [ScheduledTask.handleSuccess, hd, bind, Except.bind, if_true]
    rcases written with e | ⟨⟩ <;> rfl
  | @succeeded left due hd =>
    refine ⟨{}, ?_⟩
    have hreturns : returns (fun _ => .returned) left 0 = true := by
      cases left <;> rfl
    unfold Pybus.runTaskWithRetry
    rw [hreturns]
    simp only [ScheduledTask.handleSuccess, hd, bind, Except.bind, if_true]
    rfl

/-- The tasks after a cycle of the scheduler's histories, and whether it raises. -/
theorem runTasks_alone (retries : Nat) (now : AwareDatetime) (cycles : String → Cycle)
    (store : String → Option Raw) (hnodup : (tasks.map Prod.fst).Nodup) :
    ((runTasks retries now cycles tasks store).1 = true ↔ ∃ p ∈ tasks, p.2.due.instant ≤ now.instant ∧
      (Pybus.runTaskWithRetry p.2 retries now (cycles p.1) (store (stateKey p.1))).1 = true) ∧
    (runTasks retries now cycles tasks store).2.1 = tasks.map fun p =>
      (p.1, (runIfDue retries now (cycles p.1) p.2 (store (stateKey p.1))).1) := by
  induction tasks generalizing store with
  | nil => simp [runTasks]
  | cons p tasks ih =>
    obtain ⟨hfresh, hnodup⟩ := List.nodup_cons.mp hnodup
    unfold runTasks
    split
    · rename_i hdue
      have hothers : ∀ q ∈ tasks, Function.update store (stateKey p.1) (Pybus.runTaskWithRetry p.2
          retries now (cycles p.1) (store (stateKey p.1))).2.2 (stateKey q.1) =
          store (stateKey q.1) := by
        intro q hq
        refine Function.update_of_ne (fun hkey => hfresh ?_) _ _
        rw [← stateKey_injective hkey]
        exact List.mem_map_of_mem hq
      obtain ⟨hraised, htasks⟩ := ih (Function.update store (stateKey p.1)
        (Pybus.runTaskWithRetry p.2 retries now (cycles p.1) (store (stateKey p.1))).2.2) hnodup
      refine ⟨?_, ?_⟩
      · simp only [Bool.or_eq_true, hraised, List.exists_mem_cons_iff, hdue, true_and]
        refine or_congr Iff.rfl (exists_congr fun q => and_congr_right fun hq => ?_)
        rw [hothers q hq]
      · simp only [htasks, List.map_cons, runIfDue, if_pos hdue]
        refine congrArg _ (List.map_congr_left fun q hq => ?_)
        rw [hothers q hq]
    · rename_i hlater
      obtain ⟨hraised, htasks⟩ := ih store hnodup
      refine ⟨?_, ?_⟩
      · simp only [hraised, List.exists_mem_cons_iff, hlater, false_and, false_or]
      · simp only [htasks, List.map_cons, runIfDue, if_neg hlater]

/-- A cycle, call by call, does what a cycle of the scheduler's histories does. -/
theorem runDueTasks_refines {clock : Datetime} {result : Except Exc Unit}
    (hclock : requireAwareDatetime clock "Scheduler clock" = .ok now)
    (hnodup : (tasks.map Prod.fst).Nodup)
    (h : (runDueTasks retries transient clock tasks).Runs trace (result, tasks')) :
    ∃ cycles store', Scheduler.runDueTasks ⟨tasks, store⟩ clock retries cycles =
        .ok ((raised result).isSome, ⟨tasks', store'⟩) ∧
      ∀ p ∈ tasks, store' (stateKey p.1) = storeAfter store trace (stateKey p.1) := by
  obtain ⟨ends, hruns, hsilent, htasks, hend⟩ := runDueTasks_alone hclock hnodup h
  have hcycle : ∀ name, ∃ cycle, ∀ p ∈ tasks, p.1 = name → p.2.due.instant ≤ now.instant →
      Pybus.runTaskWithRetry p.2 retries now cycle (store (stateKey name)) =
        ((raised (ends name).1).isSome, (ends name).2,
          recordAfter (store (stateKey name)) (eventsOf name trace)) := by
    intro name
    by_cases hp : ∃ p ∈ tasks, p.1 = name ∧ p.2.due.instant ≤ now.instant
    · obtain ⟨p, hp, rfl, hdue⟩ := hp
      obtain ⟨cycle, hcycle⟩ := (runTaskWithRetry_runs (hruns p hp hdue)).cycle
        (store (stateKey p.1))
      refine ⟨cycle, fun q hq hname _ => ?_⟩
      rw [lookup_unique hnodup hq hp hname]
      exact hcycle
    · exact ⟨{}, fun p hmem hname hdue => absurd ⟨p, hmem, hname, hdue⟩ hp⟩
  obtain ⟨cycles, hcycles⟩ := Classical.skolem.mp hcycle
  obtain ⟨hraised, hafter⟩ := runTasks_alone retries now cycles store hnodup
  refine ⟨cycles, (runTasks retries now cycles tasks store).2.2, ?_, fun p hp => ?_⟩
  · simp only [Scheduler.runDueTasks, hclock, bind, Except.bind, pure, Except.pure]
    refine congrArg _ (Prod.ext ?_ (congrArg (Scheduler.mk · _) ?_))
    · rw [Bool.eq_iff_iff, hraised]
      have hresult : (raised result).isSome = true ↔ ∃ exc, result = .error exc := by
        cases result <;> simp
      rw [hresult, hend, cycleEnd_due_iff]
      refine exists_congr fun p => and_congr_right fun hp => and_congr_right fun hdue => ?_
      rw [hcycles p.1 p hp rfl hdue]
      cases (ends p.1).1 <;> simp
    · rw [hafter, htasks]
      refine List.map_congr_left fun p hp => ?_
      unfold runIfDue
      by_cases hdue : p.2.due.instant ≤ now.instant
      · rw [if_pos hdue, if_pos hdue, hcycles p.1 p hp rfl hdue]
      · rw [if_neg hdue, if_neg hdue]
  · have hlookup := lookup_of_mem hnodup hp
    have hstore := (Prod.mk.inj (runTasks_lookup retries now cycles store hnodup hlookup)).2
    refine hstore.trans ?_
    rw [storeAfter_eventsOf]
    unfold runIfDue
    by_cases hdue : p.2.due.instant ≤ now.instant
    · rw [if_pos hdue, hcycles p.1 p hp rfl hdue]
    · rw [if_neg hdue, hsilent p hp (Int.not_le.mp hdue)]
      rfl

end Functional

end Tasking

section Sample

open Tasking

local instance cycleTexts : Texts := .sample

end Sample

end Pybus
