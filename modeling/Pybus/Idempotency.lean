import Pybus.Fingerprints
import Pybus.Interaction.Histories
import Pybus.KeySpace

/-! Calls of `schedule_command` side by side over one database: a key belongs to the call that was
first to store it, and every other call with it finds what that one stored. -/
namespace Pybus

open Texts Interaction Relational Database DjangoDurableJobStore

/-- What a program over the database ends in: a call has a result. -/
abbrev ScheduleEnd : Type := Option (Except Exc DurableJobHandle)

namespace ScheduleCommand

section Programs

variable [Texts]

variable {Cls : Type} [DecidableEq Cls] [Dataclasses Cls] [DecimalTexts] [FloatTexts]
  {B : SchedulingBus Cls} {c : ScheduleCommand Cls} {x : CallSurroundings} {d : DurableJobDraft}

/-- A call as a program over the database. -/
def program (B : SchedulingBus Cls) (c : ScheduleCommand Cls) (x : CallSurroundings) :
    Prog SchedulingOp.signature ScheduleEnd :=
  (c.run B x ()).bind fun r => .done (some r.1)

/-- The insertion of a call succeeds. -/
def Inserted (c : ScheduleCommand Cls) (x : CallSurroundings) (d : DurableJobDraft)
    (db db' : Database) : Prop :=
  match c.recurrence with
  | none => db.createJob x.jobId (.ofDraft d) = .ok db'
  | some r => SchedulingOp.createPair db x.seriesId x.jobId (d.recurring r) = .ok db'

end Programs

end ScheduleCommand

namespace SchedulingOp

/-- The operation is a query. -/
def reads : SchedulingOp → Bool
  | jobByKey _ | seriesByKey _ | occurrence _ _ => true
  | _ => false

section Answers

variable [Texts] [Calendar] {db db' : Database}

end Answers

end SchedulingOp

namespace ScheduleCommand

variable {Cls : Type} {c : ScheduleCommand Cls} {x : CallSurroundings} {d : DurableJobDraft}
  {db db' : Database}

/-- The job that a call adds. -/
def stored (c : ScheduleCommand Cls) (x : CallSurroundings) (d : DurableJobDraft) : DurableJob :=
  match c.recurrence with
  | none => .ofDraft d
  | some _ => .firstOccurrence d x.seriesId

/-- A job is added, and a series with it if the call is a recurring one. -/
structure Adds (c : ScheduleCommand Cls) (x : CallSurroundings) (d : DurableJobDraft)
    (db db' : Database) : Prop where
  unused : db.jobs.row x.jobId = none
  jobs : db'.jobs = db.jobs.insert x.jobId (c.stored x d)
  series : match c.recurrence with
    | none => db'.series = db.series
    | some r => db.series.row x.seriesId = none ∧
        db'.series = db.series.insert x.seriesId (.ofDraft (d.recurring r))

/-- What a job of a call is. -/
structure Stems (c : ScheduleCommand Cls) (x : CallSurroundings) (d : DurableJobDraft) (id : Uuid)
    (r : DurableJob) : Prop where
  id : id = x.jobId
  key : r.idempotencyKey = d.idempotencyKey
  fingerprint : r.fingerprint = d.fingerprint
  series : r.seriesId = c.recurrence.map fun _ => x.seriesId

theorem Stems.same {id : Uuid} {r r' : DurableJob} (h : c.Stems x d id r) (hs : SameJob r r') :
    c.Stems x d id r' where
  id := h.id
  key := hs.key.trans h.key
  fingerprint := hs.fingerprint.trans h.fingerprint
  series := hs.series.trans h.series

namespace Inserted

theorem pair {r : Recurrence} (h : c.Inserted x d db db') (hr : c.recurrence = some r) :
    ∃ db₁, db.createSeries x.seriesId (.ofDraft (d.recurring r)) = .ok db₁ ∧
      db₁.createJob x.jobId (.firstOccurrence d x.seriesId) = .ok db' := by
  unfold Inserted at h
  rw [hr] at h
  exact MessageEnvelope.bind_eq_ok h

theorem oneOff (h : c.Inserted x d db db') (hr : c.recurrence = none) :
    db.createJob x.jobId (.ofDraft d) = .ok db' := by
  unfold Inserted at h
  rwa [hr] at h

theorem adds (h : c.Inserted x d db db') : c.Adds x d db db' := by
  cases hr : c.recurrence with
  | none =>
    obtain ⟨rfl, hn, -, -⟩ := createJob_eq_ok (h.oneOff hr)
    exact ⟨hn, by rw [stored, hr], by rw [hr]⟩
  | some r =>
    obtain ⟨db₁, hs, hj⟩ := h.pair hr
    obtain ⟨rfl, hsn⟩ := createSeries_eq_ok hs
    obtain ⟨rfl, hn, -, -⟩ := createJob_eq_ok hj
    exact ⟨hn, by rw [stored, hr], by rw [hr]; exact ⟨hsn, rfl⟩⟩

theorem grows (h : c.Inserted x d db db') : Grows db db' := by
  cases hr : c.recurrence with
  | none =>
    obtain ⟨rfl, hn, -, -⟩ := createJob_eq_ok (h.oneOff hr)
    exact .insertJob hn
  | some r =>
    obtain ⟨db₁, hs, hj⟩ := h.pair hr
    obtain ⟨rfl, hsn⟩ := createSeries_eq_ok hs
    obtain ⟨rfl, hn, -, -⟩ := createJob_eq_ok hj
    exact (Grows.insertSeries hsn).trans (.insertJob hn)

/-- The only job that an insertion adds is the call's. -/
theorem stems {id : Uuid} {r : DurableJob} (h : c.Inserted x d db db')
    (hrow : db'.jobs.row id = some r) : db.jobs.row id = some r ∨ c.Stems x d id r := by
  cases hr : c.recurrence with
  | none =>
    obtain ⟨rfl, -, -, -⟩ := createJob_eq_ok (h.oneOff hr)
    rcases Changes.insert_cases hrow with ⟨rfl, rfl⟩ | hold
    · exact .inr ⟨rfl, rfl, rfl, by rw [hr]; rfl⟩
    · exact .inl hold
  | some r =>
    obtain ⟨db₁, hs, hj⟩ := h.pair hr
    obtain ⟨rfl, -⟩ := createSeries_eq_ok hs
    obtain ⟨rfl, -, -, -⟩ := createJob_eq_ok hj
    rcases Changes.insert_cases hrow with ⟨rfl, rfl⟩ | hold
    · exact .inr ⟨rfl, rfl, rfl, by rw [hr]; rfl⟩
    · exact .inl hold

end Inserted

section Refusals

end Refusals

end ScheduleCommand

section Pools

variable {Cls : Type} [DecidableEq Cls] [Dataclasses Cls] [Texts] [DecimalTexts] [FloatTexts]
  [Calendar]

variable (Cls) in
/-- Calls of `schedule_command` and the operations of everybody else, over one database. The
identifiers that an insertion uses are new. -/
def scheduling : World SchedulingOp.signature Database ScheduleEnd where
  starts _ p := (∃ (B : SchedulingBus Cls) (c : ScheduleCommand Cls) (x : CallSurroundings),
      p = c.program B x) ∨
    ∃ op env, SchedulingOp.others op = true ∧ p = .call (.store op env) fun _ => .done none
  answers db o a db' := SchedulingOp.Unused db o ∧ SchedulingOp.respond db o = (a, db')

variable {P P' Q Q' : Pool SchedulingOp.signature Database ScheduleEnd}
  {ms ms' : List (Move SchedulingOp.signature ScheduleEnd)}
  {m : Move SchedulingOp.signature ScheduleEnd} {i : Nat}
  {log : List (Event SchedulingOp.signature)} {o : SchedulingOp}
  {k : o.Res → Prog SchedulingOp.signature ScheduleEnd}

/-- No jobs and no calls. -/
def noCalls : Pool SchedulingOp.signature Database ScheduleEnd := ⟨.empty, []⟩

section Requests

open Prog.Along ScheduleCommand

end Requests

/-- In a run, a call with a draft stored it. -/
structure Origin (ms : List (Move SchedulingOp.signature ScheduleEnd))
    (P : Pool SchedulingOp.signature Database ScheduleEnd) (j : Nat) (B : SchedulingBus Cls)
    (c : ScheduleCommand Cls) (x : CallSurroundings) (d : DurableJobDraft) : Prop where
  started : (started ms)[j]? = some (c.program B x)
  draft : c.draft B x = .ok d
  turn : ∃ e Q Q', Turn (scheduling Cls) noCalls ms P j e Q Q' ∧ c.Inserted x d Q.shared Q'.shared

omit [Texts] [DecimalTexts] [FloatTexts] [Calendar] in
theorem started_of_append {n : Nat} {p : Prog SchedulingOp.signature ScheduleEnd}
    (h : (started ms)[n]? = some p) : (started (ms ++ ms'))[n]? = some p := by
  rw [started_append, List.getElem?_append_left (List.getElem?_eq_some_iff.mp h).1, h]

theorem Origin.append {j : Nat} {B : SchedulingBus Cls} {c : ScheduleCommand Cls}
    {x : CallSurroundings} {d : DurableJobDraft} (h : Origin ms Q j B c x d)
    (h' : Path (scheduling Cls).Step Q ms' P) : Origin (ms ++ ms') P j B c x d := by
  obtain ⟨e, R, R', ht, hins⟩ := h.turn
  exact ⟨started_of_append h.started, h.draft, e, R, R', ht.append h', hins⟩

section Ends

open Prog.Along ScheduleCommand

variable {res : Except Exc DurableJobHandle}

end Ends

section Queries

variable {db : Database} {key : String}

end Queries

section Calls

open ScheduleCommand

variable {B : SchedulingBus Cls} {c : ScheduleCommand Cls} {x : CallSurroundings}
  {d : DurableJobDraft} {T : Thread SchedulingOp.signature ScheduleEnd}
  {res : Except Exc DurableJobHandle}

/-- A call returns what another one stored: its job, or the occurrence that is the latest of its
series when the call reads that. -/
def Finds (ms : List (Move SchedulingOp.signature ScheduleEnd))
    (P : Pool SchedulingOp.signature Database ScheduleEnd) (i : Nat) (c' : ScheduleCommand Cls)
    (x' : CallSurroundings) (res : Except Exc DurableJobHandle) : Prop :=
  match c'.recurrence with
  | none => ∃ e Q Q' r, Turn (scheduling Cls) noCalls ms P i e Q Q' ∧
      Q.shared.jobs.row x'.jobId = some r ∧ res = .ok (r.handle x'.jobId)
  | some _ => ∃ e Q Q' e₁ Q₁ Q₁' s id r, Turn (scheduling Cls) noCalls ms P i e Q Q' ∧
      Q.shared.series.row x'.seriesId = some s ∧ Turn (scheduling Cls) noCalls ms P i e₁ Q₁ Q₁' ∧
      Q₁.shared.jobs.row id = some r ∧ r.seriesId = some x'.seriesId ∧
      r.occurrenceNumber = some s.latestOccurrenceNumber ∧ res = .ok (r.handle id)

/-- A call leaves every row as it is. -/
def LeavesRows (Cls : Type) [DecidableEq Cls] [Dataclasses Cls]
    (ms : List (Move SchedulingOp.signature ScheduleEnd))
    (P : Pool SchedulingOp.signature Database ScheduleEnd) (i : Nat) : Prop :=
  ∀ e Q Q', Turn (scheduling Cls) noCalls ms P i e Q Q' → Q'.shared = Q.shared

/-- A call with a key finds that another one stored it: it returns what that one stored if they
ask for the same, and raises a conflict if they do not. -/
def Meets (ms : List (Move SchedulingOp.signature ScheduleEnd))
    (P : Pool SchedulingOp.signature Database ScheduleEnd) (i : Nat) (c : ScheduleCommand Cls)
    (d : DurableJobDraft) (res : Except Exc DurableJobHandle) : Prop :=
  ∃ key, c.idempotencyKey = some key ∧ LeavesRows Cls ms P i ∧
    ∃ (j : Nat) (B' : SchedulingBus Cls) (c' : ScheduleCommand Cls) (x' : CallSurroundings)
      (d' : DurableJobDraft), Origin ms P j B' c' x' d' ∧ c'.idempotencyKey = some key ∧
        (c.content d = c'.content d' → Finds ms P i c' x' res) ∧
        (c.content d ≠ c'.content d' → ∃ kind, res = .error (conflict key kind))

end Calls

end Pools

section Race

open ScheduleCommand

local instance raceTexts : Texts := .lawful
local instance raceRounds : RoundTexts := roundTexts_lawful
local instance raceDecimals : DecimalTexts := .lawful
local instance raceFloats : FloatTexts := .sample
local instance raceInvoices : Dataclasses Invoice := invoices
local instance raceCalendar : Calendar := .daily

end Race

end Pybus
