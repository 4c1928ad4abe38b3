import Pybus.Calls
import Pybus.Interaction.Program
import Pybus.JsonTexts
import Pybus.Store
import Pybus.TypedMessages

/-! `schedule_command`: the draft it makes of a command with its canonical fingerprint, and the
transactions in which the Django store keeps that draft or finds an earlier one. -/
namespace Pybus

open Value Texts Interaction

def RecurrenceCadence.value : RecurrenceCadence → String
  | .daily => "daily"
  | .weekly => "weekly"
  | .monthly => "monthly"

/-- The arguments of `schedule_command`. -/
structure ScheduleCommand (Cls : Type) where
  command : TypedMessage Cls
  runAt : Option Datetime := none
  recurrence : Option Recurrence := none
  idempotencyKey : Option String := none

/-- What `schedule_command` uses of a bus. `declaredQueue` is the queue that a class of commands
declares. -/
structure SchedulingBus (Cls : Type) [DecidableEq Cls] where
  typeRegistry : PayloadTypeRegistry Cls
  messageClassFor : String → String → Option (TypedClass Cls)
  declaredQueue : TypedClass Cls → Option String
  topology : QueueTopology

/-- What a call finds: the time, and the identifiers it will use for the message, the job and the
series. -/
structure CallSurroundings where
  now : Instant
  messageId : Uuid
  jobId : Uuid
  seriesId : Uuid
  deriving DecidableEq

/-- `validate_queue_name`. -/
def validateQueueName (queue : String) : Except Exc String :=
  if queue.toList.all Bus.isSpace then
    .error (.invalidMessageDefinition "queue must be a non-empty string")
  else .ok queue

namespace SchedulingBus

variable {Cls : Type} [DecidableEq Cls]

/-- `_resolve_publication_queue` on a typed message. -/
def resolvePublicationQueue [Texts] (B : SchedulingBus Cls) (c : TypedClass Cls)
    (queue : Option String) : Except Exc String := do
  let queue ← validateQueueName
    ((queue.or (B.declaredQueue c)).getD B.topology.defaultQueue)
  if B.topology.hasQueue queue then return queue
  else throw (.invalidMessageDefinition
    ("queue " ++ Texts.repr (.str queue) ++ " is not declared in the bus topology"))

end SchedulingBus

namespace ScheduleCommand

variable {Cls : Type} [DecidableEq Cls] [Dataclasses Cls] [Texts] [DecimalTexts] [FloatTexts]

/-- The check of `idempotency_key`. -/
def validateKey : Option String → Except Exc Unit
  | none => .ok ()
  | some key =>
    if key.toList.all Bus.isSpace || decide (255 < key.length) then
      .error (.invalidMessageDefinition
        "idempotency_key must be a non-empty string of at most 255 characters")
    else .ok ()

/-- The check of `run_at`, and its instant. -/
def validateRunAt : Option Datetime → Except Exc (Option Instant)
  | none => .ok none
  | some d =>
    match d.instant with
    | none => .error (.invalidMessageDefinition "run_at must be timezone-aware")
    | some t => .ok (some t)

/-- `isoformat` of an instant in UTC, or `None`. -/
def utcText : Option Instant → Value
  | none => .null
  | some t => .str (datetimeIsoformat (.utc t))

/-- `fingerprint_fields`. -/
def fingerprintFields (e : MessageEnvelope) (queue : String) (runAt : Option Instant)
    (recurrence : Option Recurrence) : Dict :=
  [("message_type", e.messageType), ("version", .int e.version), ("payload", e.payload),
    ("headers", .dict e.headers), ("queue", .str queue)] ++
  (match runAt with
    | none => []
    | some _ => [("run_at", utcText runAt)]) ++
  (match recurrence with
    | none => []
    | some r => [("recurrence", .dict [("cadence", .str r.cadence.value),
        ("timezone", .str r.timezone), ("ends_at", utcText r.endsAt), ("run_at", utcText runAt)])])

/-- The draft that `schedule_command` makes of a command. -/
def draft (B : SchedulingBus Cls) (c : ScheduleCommand Cls) (x : CallSurroundings) :
    Except Exc DurableJobDraft := do
  validateKey c.idempotencyKey
  let runAt ← validateRunAt c.runAt
  let kind := c.command.messageClass.messageKind
  let e ← Bus.prepareMessage B.typeRegistry
    (B.messageClassFor kind c.command.messageClass.messageType) c.command "command" none none
    x.messageId x.now
  let queue ← B.resolvePublicationQueue c.command.messageClass none
  let normalizedRunAt := runAt.getD x.now
  if c.recurrence.any fun r => r.endsAt.any (· ≤ normalizedRunAt) then
    throw (.invalidMessageDefinition "run_at must be before ends_at")
  return {
    messageId := e.messageId.text
    messageType := e.messageType.text
    version := e.version
    payload := e.payload
    headers := e.headers
    createdAt := x.now
    availableAt := normalizedRunAt
    queue
    fingerprint := JsonSerializer.text (.dict (fingerprintFields e queue runAt c.recurrence))
    idempotencyKey := c.idempotencyKey }

end ScheduleCommand

/-- The draft of a series whose first occurrence is a draft. -/
def DurableJobDraft.recurring (d : DurableJobDraft) (r : Recurrence) : JobSeriesDraft where
  firstOccurrence := d
  recurrence := r
  startsAt := d.availableAt
  fingerprint := d.fingerprint
  idempotencyKey := d.idempotencyKey

/-- `DurableJobHandle`. -/
structure DurableJobHandle where
  id : String
  messageId : String
  state : DurableJobState
  createdAt : Instant
  seriesId : Option String
  occurrenceNumber : Option Nat
  deriving DecidableEq

/-- `DurableJobHandle.from_record` of a row's record. -/
def DurableJob.handle [Texts] (r : DurableJob) (id : Uuid) : DurableJobHandle where
  id := uuidText id
  messageId := r.messageId
  state := r.state
  createdAt := r.createdAt
  seriesId := r.seriesId.map uuidText
  occurrenceNumber := r.occurrenceNumber

/-- The first occurrence of a series. -/
def DurableJob.firstOccurrence (d : DurableJobDraft) (sid : Uuid) : DurableJob :=
  { DurableJob.ofDraft d with seriesId := some sid, occurrenceNumber := some 1 }

/-- The transactions and queries of scheduling, and the operations of everybody else. -/
inductive SchedulingOp
  | createJob (id : Uuid) (draft : DurableJobDraft)
  | createSeries (sid id : Uuid) (draft : JobSeriesDraft)
  | jobByKey (key : String)
  | seriesByKey (key : String)
  | occurrence (sid : Uuid) (number : Nat)
  | store (op : StoreOp) (env : Surroundings)

namespace SchedulingOp

abbrev Res : SchedulingOp → Type
  | createJob _ _ | createSeries _ _ _ => Except Exc Unit
  | jobByKey _ | occurrence _ _ => Option (Uuid × DurableJob)
  | seriesByKey _ => Option (Uuid × JobSeries)
  | store op _ => Except Exc op.Result

abbrev signature : Signature := ⟨SchedulingOp, Res⟩

/-- The result of a transaction and the database after it. -/
def settle {α : Type} (db : Database) : Except Exc (α × Database) → Except Exc α × Database
  | .ok (a, db') => (.ok a, db')
  | .error exc => (.error exc, db)

/-- The transaction in which a series is created together with its first occurrence. -/
def createPair (db : Database) (sid id : Uuid) (d : JobSeriesDraft) : Except Exc Database :=
  (db.createSeries sid (.ofDraft d)).bind fun db =>
    db.createJob id (.firstOccurrence d.firstOccurrence sid)

/-- What the database answers, and what it is afterwards. -/
def respond [Texts] [Calendar] (db : Database) : (o : SchedulingOp) → o.Res × Database
  | .createJob id d => settle db ((db.createJob id (.ofDraft d)).map ((), ·))
  | .createSeries sid id d => settle db ((createPair db sid id d).map ((), ·))
  | .jobByKey key => (db.jobs.find fun _ r => r.idempotencyKey = some key, db)
  | .seriesByKey key => (db.series.find fun _ s => s.idempotencyKey = some key, db)
  | .occurrence sid number =>
    (db.jobs.find fun _ r => r.seriesId = some sid && r.occurrenceNumber = some number, db)
  | .store op env => settle db (op.run env db)

/-- The identifiers that an insertion uses are not in the database. -/
def Unused (db : Database) : SchedulingOp → Prop
  | .createJob id d =>
    db.jobs.row id = none ∧ ∀ i r, db.jobs.row i = some r → r.messageId ≠ d.messageId
  | .createSeries sid id d =>
    db.series.row sid = none ∧ db.jobs.row id = none ∧
      ∀ i r, db.jobs.row i = some r → r.messageId ≠ d.firstOccurrence.messageId
  | _ => True

/-- The operation is one of everybody else. -/
def others : StoreOp → Bool
  | .schedule _ | .scheduleRecurring _ => false
  | _ => true

end SchedulingOp

/-- What a call of the store does. -/
abbrev Scheduled (α : Type) : Type := Routine SchedulingOp.signature Unit Exc α

namespace Scheduled

def ask (o : SchedulingOp) : Scheduled o.Res := @Routine.ask SchedulingOp.signature Unit Exc o

def createJob (id : Uuid) (d : DurableJobDraft) : Scheduled (Except Exc Unit) :=
  ask (.createJob id d)

def createSeries (sid id : Uuid) (d : JobSeriesDraft) : Scheduled (Except Exc Unit) :=
  ask (.createSeries sid id d)

def jobByKey (key : String) : Scheduled (Option (Uuid × DurableJob)) := ask (.jobByKey key)

def seriesByKey (key : String) : Scheduled (Option (Uuid × JobSeries)) := ask (.seriesByKey key)

def occurrence (sid : Uuid) (number : Nat) : Scheduled (Option (Uuid × DurableJob)) :=
  ask (.occurrence sid number)

end Scheduled

namespace DjangoDurableJobStore

variable [Texts]

def conflict (key kind : String) : Exc :=
  .jobConflict ("idempotency key " ++ Texts.repr (.str key) ++ " already identifies a " ++ kind)

/-- `schedule` as the transaction and the query that it is. -/
def scheduleSteps (d : DurableJobDraft) (id : Uuid) : Scheduled (Uuid × DurableJob) := do
  match ← Scheduled.createJob id d with
  | .ok () => return (id, .ofDraft d)
  | .error exc =>
    match d.idempotencyKey with
    | none => throw exc
    | some key =>
      match ← Scheduled.jobByKey key with
      | none => throw .doesNotExist
      | some (i, r) =>
        if r.fingerprint ≠ d.fingerprint then throw (conflict key "different durable job")
        else return (i, r)

/-- `schedule_recurring` as the transaction and the queries that it is. -/
def scheduleRecurringSteps (d : JobSeriesDraft) (sid id : Uuid) :
    Scheduled (Uuid × DurableJob) := do
  match ← Scheduled.createSeries sid id d with
  | .ok () => return (id, .firstOccurrence d.firstOccurrence sid)
  | .error exc =>
    match d.idempotencyKey with
    | none => throw exc
    | some key =>
      match ← Scheduled.seriesByKey key with
      | none => throw (conflict key "one-off durable job")
      | some (i, s) =>
        if s.fingerprint ≠ d.fingerprint then
          throw (conflict key "different recurring durable job")
        else
          match ← Scheduled.occurrence i s.latestOccurrenceNumber with
          | none => throw .doesNotExist
          | some found => return found

end DjangoDurableJobStore

namespace ScheduleCommand

open DjangoDurableJobStore

variable {Cls : Type} [DecidableEq Cls] [Dataclasses Cls] [Texts] [DecimalTexts] [FloatTexts]

/-- `schedule_command`. -/
def run (B : SchedulingBus Cls) (c : ScheduleCommand Cls) (x : CallSurroundings) :
    Scheduled DurableJobHandle := do
  let d ← Routine.lift (c.draft B x)
  let (id, r) ← match c.recurrence with
    | none => scheduleSteps d x.jobId
    | some r => scheduleRecurringSteps (d.recurring r) x.seriesId x.jobId
  return r.handle id

end ScheduleCommand

end Pybus
