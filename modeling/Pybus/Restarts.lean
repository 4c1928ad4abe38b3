import Mathlib.Tactic.Ring
import Pybus.Scheduling

/-! What a scheduler makes of the state that was persisted before a restart. -/
namespace Pybus

open Texts Recurrence

section Calendar

variable {rule : ScheduleRule} {days : List Int} {n : Nat} {a b c d t : AwareDatetime}

namespace ScheduleRule

theorem firstOn_ge (h : firstOn days n a = some b) : ∃ k : Nat, b = a.add (k * dayLength) := by
  induction n generalizing a with
  | zero => cases h
  | succ n ih =>
    unfold firstOn at h
    split at h
    · rw [Option.some.injEq] at h
      subst h
      exact ⟨0, by simp [AwareDatetime.add]⟩
    · obtain ⟨k, rfl⟩ := ih h
      refine ⟨k + 1, ?_⟩
      simp only [AwareDatetime.add, AwareDatetime.mk.injEq, and_true]
      push_cast
      ring

theorem firstAllowed_ge : ∃ k : Nat, rule.firstAllowed a = a.add (k * dayLength) := by
  have hself : a = a.add ((0 : Nat) * dayLength) := by simp [AwareDatetime.add]
  unfold firstAllowed
  split
  · exact ⟨0, hself⟩
  · exact ⟨0, hself⟩
  · rename_i days _ _
    cases hf : firstOn days 8 a with
    | none => exact ⟨0, hself⟩
    | some b => exact firstOn_ge hf

/-- The slot of a day. -/
def slotOn (rule : ScheduleRule) (day offset : Int) : AwareDatetime :=
  ⟨day * dayLength + (rule.hour.getD 0 * 60 + rule.minute.getD 0) * 60000000, offset⟩

/-- The rule names a time of the day. -/
def Named (rule : ScheduleRule) : Prop :=
  0 ≤ rule.hour.getD 0 ∧ rule.hour.getD 0 < 24 ∧ 0 ≤ rule.minute.getD 0 ∧ rule.minute.getD 0 < 60

theorem scheduledToday_eq (h : rule.Named) :
    rule.scheduledToday c = .ok (rule.slotOn (date c.wall) c.offset) := by
  obtain ⟨h₁, h₂, h₃, h₄⟩ := h
  simp only [scheduledToday, slotOn]
  rw [if_neg (by omega), if_neg (by omega)]

theorem named_of_scheduledToday (h : rule.scheduledToday c = .ok d) : rule.Named := by
  unfold scheduledToday at h
  simp only at h
  split at h
  · cases h
  · split at h
    · cases h
    · unfold Named
      omega

theorem named_of_cronDueTime {lastRun : Option AwareDatetime}
    (h : rule.cronDueTime c lastRun = .ok d) : rule.Named := by
  unfold cronDueTime at h
  cases hs : rule.scheduledToday c with
  | error exc => simp [hs, bind, Except.bind] at h
  | ok today => exact named_of_scheduledToday hs

theorem slotOn_add {j : Nat} {day o : Int} :
    (rule.slotOn day o).add (j * dayLength) = rule.slotOn (day + j) o := by
  simp only [slotOn, AwareDatetime.add, AwareDatetime.mk.injEq, and_true]
  ring

end ScheduleRule

end Calendar

section Records

variable [Texts] {rule : ScheduleRule} {st st' : PersistedScheduleState} {identity : String}

theorem parseDatetime_formatDatetime [RoundTexts] (d : Option AwareDatetime) :
    parseDatetime (formatDatetime d) = .ok d := by
  cases d with
  | none => rfl
  | some d => simp only [formatDatetime, parseDatetime, RoundTexts.datetime_round,
      AwareDatetime.toDatetime]

/-- What was written is parsed back, up to the checks. -/
theorem parseState_writeState [RoundTexts] : parseState (writeState st) = checkState st := by
  have hfailures : readFailures (.int st.failures) = .ok st.failures := by
    have hnonneg : ¬ (st.failures : Int) < 0 := by omega
    simp [readFailures, hnonneg]
  simp only [parseState, writeState, Value.get, stateField, List.lookup_cons, bind, Except.bind]
  simp [hfailures, parseDatetime_formatDatetime]

omit [Texts] in
theorem checkState_eq (h : checkState st = .ok st') : st' = st := by
  unfold checkState at h
  split at h
  · cases h
  · split at h
    · cases h
    · exact (Except.ok.inj h).symm

omit [Texts] in
/-- A state that a cycle may record for a task with the rule: after a success the due time is the
one that follows the run. -/
structure Recorded (rule : ScheduleRule) (st : PersistedScheduleState) : Prop where
  success : st.failures = 0 → st.lastFailure = none ∧ ∃ t d, st.lastRun = some t ∧
    st.due = some d ∧ rule.nextDueTime t t = .ok d
  failure : 0 < st.failures → st.lastFailure.isSome ∧ st.due.isSome

omit [Texts] in
theorem Recorded.checked (h : Recorded rule st) : checkState st = .ok st := by
  unfold checkState
  rw [if_neg, if_neg]
  · rintro ⟨hpos, hnone | hnone⟩
    · have := (h.failure hpos).1
      simp_all
    · have := (h.failure hpos).2
      simp_all
  · rintro ⟨hzero, hsome⟩
    rw [(h.success hzero).1] at hsome
    cases hsome

/-- The record of a task with the rule, if there is one. -/
def RecordOf (rule : ScheduleRule) (stored : Option Raw) : Prop :=
  ∀ raw, stored = some raw → ∃ st, raw = writeState st ∧ Recorded rule st

theorem handleSuccess_recorded {task done : ScheduledTask} {now : AwareDatetime} {accepts : Bool}
    {record : Raw} (h : task.handleSuccess now accepts = .ok (done, record)) :
    done.rule = task.rule ∧ record = writeState done.state ∧
      RecordOf task.rule (some record) := by
  unfold ScheduledTask.handleSuccess at h
  cases hd : task.rule.nextDueTime now now with
  | error exc => simp [hd, bind, Except.bind] at h
  | ok due =>
    cases accepts with
    | false => simp [hd, bind, Except.bind, throw, throwThe, MonadExceptOf.throw] at h
    | true =>
      simp only [hd, bind, Except.bind, pure, Except.pure, Bool.not_true, Bool.false_eq_true,
        if_false, Except.ok.injEq, Prod.mk.injEq] at h
      obtain ⟨rfl, rfl⟩ := h
      refine ⟨rfl, rfl, ?_⟩
      rintro raw ⟨⟩
      exact ⟨_, rfl, ⟨fun _ => ⟨rfl, now, due, rfl, rfl, hd⟩, fun hpos => absurd hpos (Nat.lt_irrefl 0)⟩⟩

/-- A task that has run is checkpointed, unless the store has refused the state of its failure. -/
theorem runTaskWithRetry_checkpoints {task : ScheduledTask} {retries : Nat} {now : AwareDatetime}
    {cycle : Cycle} {stored : Option Raw}
    (h : (runTaskWithRetry task retries now cycle stored).1 = false ∨ cycle.acceptsFailure = true) :
    (runTaskWithRetry task retries now cycle stored).2.2 =
      some (writeState (runTaskWithRetry task retries now cycle stored).2.1.state) := by
  have hfailure : cycle.acceptsFailure = true →
      (task.handleFailure now cycle.acceptsFailure stored).2 =
        some (writeState (task.handleFailure now cycle.acceptsFailure stored).1.state) := by
    intro haccepts
    rw [haccepts]
    rfl
  unfold runTaskWithRetry at h ⊢
  split at h
  · rename_i hreturns
    rw [if_pos hreturns]
    cases hs : task.handleSuccess now cycle.acceptsSuccess with
    | ok result =>
      obtain ⟨done, record⟩ := result
      exact congrArg some (handleSuccess_recorded hs).2.1
    | error exc =>
      rw [hs] at h
      exact hfailure (h.resolve_left fun hraised => Bool.noConfusion hraised)
  · rename_i hraises
    rw [if_neg hraises]
    exact hfailure (h.resolve_left fun hraised => Bool.noConfusion hraised)

end Records

namespace Scheduler

variable [Texts] {rules : String → ScheduleRule} {s : Scheduler} {identity : String}

omit [Texts] in
theorem stateKey_injective {identity' : String} (h : stateKey identity = stateKey identity') :
    identity = identity' :=
  (String.append_right_inj _).mp h

/-- Every task has the rule of its identity, and so has every record. -/
structure Consistent (rules : String → ScheduleRule) (s : Scheduler) : Prop where
  ruled : ∀ p ∈ s.tasks, p.2.rule = rules p.1
  recorded : ∀ identity, RecordOf (rules identity) (s.store (stateKey identity))

theorem register_rule {rule : ScheduleRule} {stored : Except Exc (Option Raw)} {clock : Datetime}
    {task : ScheduledTask} (h : ScheduledTask.register rule identity stored clock = .ok task) :
    task.rule = rule := by
  unfold ScheduledTask.register at h
  simp only [bind, Except.bind] at h
  repeat' split at h
  all_goals first | (cases h; done) | skip
  all_goals
    injection h with h
    subst h
    rfl

/-- The state of a task that is checkpointed is one that a cycle has recorded. -/
theorem Checkpointed.recorded [RoundTexts] {task : ScheduledTask}
    (hp : s.Checkpointed identity task) (hs : Consistent rules s) :
    Recorded (rules identity) task.state := by
  obtain ⟨st, hst, hrec⟩ := hs.recorded identity _ hp
  have hparse : parseState (writeState task.state) = .ok st := by
    rw [hst, parseState_writeState, hrec.checked]
  rw [parseState_writeState] at hparse
  rw [← checkState_eq hparse]
  exact hrec

end Scheduler

section Sample

open Scheduler

local instance restartTexts : Texts := .lawful

local instance restartRounds : RoundTexts := roundTexts_lawful

/-- A number of hours since the epoch, in UTC. -/
def hours (n : Int) : AwareDatetime := ⟨n * 3600000000, 0⟩

end Sample

end Pybus
