import Pybus.Durable
import Pybus.Relational.Table

/-! The Django job store. Each operation is one transaction: it returns a result together with the
new database, or raises and leaves the database alone. -/
namespace Pybus

open Value Texts Relational

/-- A row of `JobSeries`. -/
structure JobSeries where
  messageType : String
  version : Int
  payload : Value
  headers : Dict
  queue : String
  recurrence : Recurrence
  startsAt : Instant
  fingerprint : String
  idempotencyKey : Option String
  state : JobSeriesState := .active
  latestOccurrenceNumber : Nat := 1
  createdAt : Instant
  finishedAt : Option Instant := none
  deriving DecidableEq

/-- A row of `DurableJob`. -/
structure DurableJob where
  messageId : String
  messageType : String
  version : Int
  payload : Value
  headers : Dict
  createdAt : Instant
  availableAt : Instant
  queue : String
  fingerprint : String
  idempotencyKey : Option String
  seriesId : Option Uuid := none
  occurrenceNumber : Option Nat := none
  state : DurableJobState := .pending
  generation : Nat := 0
  retryCount : Nat := 0
  maxRetries : Option Nat := none
  leaseOwner : Option String := none
  leaseExpiresAt : Option Instant := none
  reconciliationDueAt : Option Instant := none
  indeterminateReason : Option IndeterminateReason := none
  settlementStatus : Option CommandDeliveryStatus := none
  settlementSource : Option String := none
  settlementDestination : Option String := none
  lastAttemptAt : Option Instant := none
  startedAt : Option Instant := none
  finishedAt : Option Instant := none
  deriving DecidableEq

structure Database where
  jobs : Table Uuid DurableJob
  series : Table Uuid JobSeries

namespace Database

def empty : Database := ⟨.empty, .empty⟩

def setJob (db : Database) (id : Uuid) (r : DurableJob) : Database :=
  { db with jobs := db.jobs.set id r }

def setSeries (db : Database) (id : Uuid) (s : JobSeries) : Database :=
  { db with series := db.series.set id s }

/-- Whether two optional columns hold the same value; two nulls are never equal. -/
def sameColumn {α : Type} [DecidableEq α] (a b : Option α) : Bool := a.isSome && a = b

/-- The unique constraints and the foreign key of `DurableJob`. -/
def jobConflicts (db : Database) (id : Uuid) (r : DurableJob) : Bool :=
  db.jobs.any (fun i r' => i = id || r'.messageId = r.messageId ||
    sameColumn r'.idempotencyKey r.idempotencyKey ||
    (sameColumn r'.seriesId r.seriesId &&
      (sameColumn r'.occurrenceNumber r.occurrenceNumber ||
        (!r'.state.terminal && !r.state.terminal)))) ||
  (match r.seriesId with
    | some sid => (db.series.row sid).isNone
    | none => false)

def createJob (db : Database) (id : Uuid) (r : DurableJob) : Except Exc Database :=
  if db.jobConflicts id r then .error .integrityError
  else .ok { db with jobs := db.jobs.insert id r }

/-- The unique constraints of `JobSeries`. -/
def seriesConflicts (db : Database) (id : Uuid) (s : JobSeries) : Bool :=
  db.series.any fun i s' => i = id || sameColumn s'.idempotencyKey s.idempotencyKey

def createSeries (db : Database) (id : Uuid) (s : JobSeries) : Except Exc Database :=
  if db.seriesConflicts id s then .error .integrityError
  else .ok { db with series := db.series.insert id s }

variable {db db' : Database} {id sid : Uuid} {r r' : DurableJob} {s s' : JobSeries}

@[simp] theorem setJob_series : (db.setJob id r).series = db.series := rfl

@[simp] theorem setSeries_jobs : (db.setSeries sid s).jobs = db.jobs := rfl

theorem setJob_row (h : db.jobs.row id = some r) :
    (db.setJob id r').jobs.row id = some r' := by
  exact Table.row_set_self (by simp [h])

theorem setJob_row_ne {i : Uuid} (h : i ≠ id) : (db.setJob id r').jobs.row i = db.jobs.row i :=
  Table.row_set_ne h

theorem setSeries_row (h : db.series.row sid = some s) :
    (db.setSeries sid s').series.row sid = some s' := by
  exact Table.row_set_self (by simp [h])

theorem setSeries_row_ne {i : Uuid} (h : i ≠ sid) :
    (db.setSeries sid s').series.row i = db.series.row i :=
  Table.row_set_ne h

/-- An insertion that succeeds violates no constraint. -/
theorem createJob_eq_ok (h : db.createJob id r = .ok db') :
    db' = { db with jobs := db.jobs.insert id r } ∧ db.jobs.row id = none ∧
    (∀ i r', db.jobs.row i = some r' → r.seriesId.isSome → r'.seriesId = r.seriesId →
      (r.occurrenceNumber.isSome → r'.occurrenceNumber ≠ r.occurrenceNumber) ∧
      (r.state.terminal = false → r'.state.terminal = true)) ∧
    (∀ sid, r.seriesId = some sid → ∃ s, db.series.row sid = some s) := by
  unfold createJob at h
  split at h
  · cases h
  rename_i hc
  simp only [jobConflicts, Bool.or_eq_true, not_or, Bool.not_eq_true, Table.any_eq_false] at hc
  obtain ⟨hrows, hfk⟩ := hc
  injection h with h
  refine ⟨h.symm, ?_, ?_, ?_⟩
  · cases hr : db.jobs.row id with
    | none => rfl
    | some q =>
      have := hrows id q hr
      simp at this
  · intro i r' hr' hsome hser
    have := hrows i r' hr'
    simp only [Bool.or_eq_false_iff, Bool.and_eq_false_iff, sameColumn, hser, hsome] at this
    obtain ⟨-, hk⟩ := this
    simp only [decide_true, Bool.true_eq_false, false_or, decide_eq_false_iff_not] at hk
    refine ⟨?_, ?_⟩
    · intro hn heq
      rw [heq] at hk
      simp [hn] at hk
    · intro ht
      simpa [ht] using hk.2
  · intro sid hs
    rw [hs] at hfk
    cases hrow : db.series.row sid with
    | none => simp [hrow] at hfk
    | some s => exact ⟨s, rfl⟩

theorem createSeries_eq_ok (h : db.createSeries sid s = .ok db') :
    db' = { db with series := db.series.insert sid s } ∧ db.series.row sid = none := by
  unfold createSeries at h
  split at h
  · cases h
  rename_i hc
  simp only [seriesConflicts, Bool.not_eq_true, Table.any_eq_false] at hc
  injection h with h
  refine ⟨h.symm, ?_⟩
  cases hr : db.series.row sid with
  | none => rfl
  | some q =>
    have := hc sid q hr
    simp at this

end Database

/-- A transaction. -/
abbrev Tx (α : Type) := Database → Except Exc (α × Database)

/-- A run that is checked to succeed has a result. -/
theorem exists_ok {ε α : Type} {x : Except ε α} {p : α → Bool} (h : x.toOption.any p = true) :
    ∃ a, x = .ok a ∧ p a = true := by
  cases x with
  | error e => cases h
  | ok a => exact ⟨a, rfl, h⟩

/-- What an operation finds around it: the clock, identifiers nobody has used, and for a claim
whether it runs inside another transaction and which rows are locked by others. -/
structure Surroundings where
  now : Instant
  fresh : Uuid
  freshOther : Uuid
  inAtomicBlock : Bool := false
  locked : List Uuid := []
  deriving DecidableEq

/-- `next_cadence_at`: the first slot of a recurrence after an instant. -/
class Calendar where
  nextCadenceAt : Recurrence → (startsAt after : Instant) → Except Exc (Option Instant)

/-- The slots of a daily recurrence in UTC. -/
@[reducible] def Calendar.daily : Calendar where
  nextCadenceAt r startsAt after :=
    let day := 86400000000
    let next := startsAt + ((after - startsAt) / day + 1) * day
    .ok (if r.endsAt.any (· ≤ next) then none else some next)

namespace DurableJob

/-- A new row for a draft. -/
def ofDraft (d : DurableJobDraft) : DurableJob where
  messageId := d.messageId
  messageType := d.messageType
  version := d.version
  payload := d.payload
  headers := d.headers
  createdAt := d.createdAt
  availableAt := d.availableAt
  queue := d.queue
  fingerprint := d.fingerprint
  idempotencyKey := d.idempotencyKey

/-- The update that cancels an occurrence: `_cancel_occurrence`, and wherever else it is written
out. -/
def cancel (r : DurableJob) (cancelledAt : Instant) : DurableJob :=
  { r with
    state := .cancelled, leaseOwner := none, leaseExpiresAt := none, reconciliationDueAt := none
    finishedAt := some cancelledAt }

/-- A handler whose outcome is unknown and whose retries are used up. -/
def park (r : DurableJob) : DurableJob :=
  { r with
    state := .indeterminate, reconciliationDueAt := none
    indeterminateReason := some .handlerOutcome }

/-- `claim_values`. -/
def claim (r : DurableJob) (workerId : String) (now leaseExpiresAt : Instant) : DurableJob :=
  { r with
    state := .claimed
    generation := r.generation + 1
    retryCount := if r.state = .running then r.retryCount + 1 else r.retryCount
    leaseOwner := some workerId
    leaseExpiresAt := some leaseExpiresAt
    reconciliationDueAt := none
    indeterminateReason := none
    lastAttemptAt := if r.state = .running then some now else r.lastAttemptAt
    settlementSource := if r.settlementStatus = none then none else r.settlementSource
    settlementDestination := if r.settlementStatus = none then none else r.settlementDestination }

/-- `DurableJobClaim.from_record` of the row's record. -/
def toClaim [Texts] (r : DurableJob) (id : Uuid) : DurableJobClaim where
  id := uuidText id
  messageId := r.messageId
  messageType := r.messageType
  version := r.version
  payload := r.payload
  headers := r.headers
  createdAt := r.createdAt
  queue := r.queue
  generation := r.generation
  retryCount := r.retryCount
  settlementStatus := r.settlementStatus
  settlementSource := r.settlementSource
  lastAttemptAt := r.lastAttemptAt

def publish (r : DurableJob) (c : DurableJobClaim) (reconciliationDueAt : Instant) : DurableJob :=
  let r := { r with state := .published, reconciliationDueAt := some reconciliationDueAt }
  if c.settlementStatus = none then r
  else { r with settlementStatus := none, settlementSource := none, settlementDestination := none }

section Publish

variable {r : DurableJob} {c : DurableJobClaim} {due : Instant}

@[simp] theorem publish_state : (r.publish c due).state = .published := by
  unfold publish
  split <;> rfl

@[simp] theorem publish_generation : (r.publish c due).generation = r.generation := by
  unfold publish
  split <;> rfl

@[simp] theorem publish_retryCount : (r.publish c due).retryCount = r.retryCount := by
  unfold publish
  split <;> rfl

@[simp] theorem publish_maxRetries : (r.publish c due).maxRetries = r.maxRetries := by
  unfold publish
  split <;> rfl

end Publish

def publishIndeterminate (r : DurableJob) (c : DurableJobClaim) (reconciliationDueAt : Instant) :
    DurableJob :=
  { r with
    state := if c.settlementStatus = none then .indeterminate else .settling
    reconciliationDueAt := some reconciliationDueAt
    indeterminateReason :=
      if c.settlementStatus = none then some .publicationAcknowledgement else none }

def admitted (r : DurableJob) (a : DurableDeliveryAdmission) (now : Instant) : DurableJob :=
  { r with
    state := .running
    retryCount := a.retryCount
    maxRetries := some (r.maxRetries.getD a.maxRetries)
    queue := a.sourceQueue
    reconciliationDueAt := a.reconciliationDueAt
    settlementStatus := none
    settlementSource := none
    settlementDestination := none
    indeterminateReason := none
    startedAt := some (r.startedAt.getD (a.admittedAt.getD now)) }

def checkpoint (r : DurableJob) (s : DurableSettlement) : DurableJob :=
  { r with
    state := .settling
    retryCount := s.retryCount
    settlementStatus := some s.status
    settlementSource := some s.sourceQueue
    settlementDestination := s.destinationQueue
    queue := destinationOrSource s.destinationQueue s.sourceQueue
    reconciliationDueAt := some s.reconciliationDueAt
    lastAttemptAt := if s.lastAttemptAt.isSome then s.lastAttemptAt else r.lastAttemptAt }

def release (r : DurableJob) (reconciliationDueAt : Instant) : DurableJob :=
  { r with
    state := .published, reconciliationDueAt := some reconciliationDueAt, startedAt := none }

def succeed (r : DurableJob) (finishedAt : Instant) : DurableJob :=
  { r with
    state := .succeeded, leaseOwner := none, leaseExpiresAt := none, reconciliationDueAt := none
    finishedAt := some finishedAt }

/-- The update of a confirmed retry or continuation. -/
def resume (r : DurableJob) (o : CommandDeliveryOutcome) (reconciliationDueAt : Instant) :
    DurableJob :=
  { r with
    state := .published
    queue := destinationOrSource o.destinationQueue o.sourceQueue
    retryCount := o.retryCount
    settlementStatus := none
    settlementSource := none
    settlementDestination := none
    reconciliationDueAt := some reconciliationDueAt }

def deadLetterFromClaim (r : DurableJob) (finishedAt : Instant) : DurableJob :=
  { r with
    state := .deadLettered, reconciliationDueAt := none, leaseOwner := none
    leaseExpiresAt := none, finishedAt := some finishedAt, indeterminateReason := none }

def deadLetterFromOutcome (r : DurableJob) (o : CommandDeliveryOutcome) (finishedAt : Instant) :
    DurableJob :=
  { r with
    state := .deadLettered
    queue := destinationOrSource o.destinationQueue o.sourceQueue
    leaseOwner := none, leaseExpiresAt := none, reconciliationDueAt := none
    finishedAt := some finishedAt }

/-- The lease or the due time of a row has passed. -/
def elapsed (r : DurableJob) (now : Instant) : Bool :=
  match r.state with
  | .claimed => r.leaseExpiresAt.any (· < now)
  | .published | .indeterminate | .running | .settling => r.reconciliationDueAt.any (· ≤ now)
  | _ => false

/-- `max_retries` is known and reached. -/
def exhausted (r : DurableJob) : Bool := r.maxRetries.any (· ≤ r.retryCount)

/-- Whether the columns that identify a message hold what an outcome names. -/
def matchesOutcome [Texts] (r : DurableJob) (o : CommandDeliveryOutcome) : Bool :=
  o.durableGeneration = some (r.generation : Int) &&
  o.messageId ≠ .null && r.messageId = o.messageId.text &&
  o.messageType ≠ .null && r.messageType = o.messageType.text &&
  r.version = o.version

/-- What `admit_delivery` compares between a row and a delivery before it looks at the retries. -/
def matchesAdmission [Texts] (r : DurableJob) (a : DurableDeliveryAdmission) : Bool :=
  Value.str r.messageId = a.messageId && Value.str r.messageType = a.messageType &&
  r.version = a.version &&
  JsonSerializer.dumps r.payload = JsonSerializer.dumps a.payload &&
  JsonSerializer.dumps (.dict r.headers) = JsonSerializer.dumps (.dict a.applicationHeaders) &&
  r.queue = a.sourceQueue && r.lastAttemptAt = a.lastAttemptAt

end DurableJob

namespace JobSeries

def ofDraft (d : JobSeriesDraft) : JobSeries where
  messageType := d.firstOccurrence.messageType
  version := d.firstOccurrence.version
  payload := d.firstOccurrence.payload
  headers := d.firstOccurrence.headers
  queue := d.firstOccurrence.queue
  recurrence := d.recurrence
  startsAt := d.startsAt
  fingerprint := d.fingerprint
  idempotencyKey := d.idempotencyKey
  createdAt := d.firstOccurrence.createdAt

def finish (s : JobSeries) (state : JobSeriesState) (finishedAt : Instant) : JobSeries :=
  { s with state, finishedAt := some finishedAt }

end JobSeries

namespace DjangoDurableJobStore

open Database

/-- The exception of a query for an identifier that is no UUID. -/
def validationError : Exc := .other "ValidationError"

def schedule (d : DurableJobDraft) (env : Surroundings) : Tx (Uuid × DurableJob) := fun db =>
  match db.createJob env.fresh (.ofDraft d) with
  | .ok db' => .ok ((env.fresh, .ofDraft d), db')
  | .error exc =>
    match d.idempotencyKey with
    | none => .error exc
    | some key =>
      match db.jobs.find fun _ r => r.idempotencyKey = some key with
      | none => .error .doesNotExist
      | some (id, r) =>
        if r.fingerprint ≠ d.fingerprint then
          .error (.jobConflict "idempotency key already identifies a different durable job")
        else .ok ((id, r), db)

/-- The series together with its latest occurrence. -/
abbrev SeriesRecord := (Uuid × JobSeries) × (Uuid × DurableJob)

def latestOccurrence (db : Database) (sid : Uuid) (s : JobSeries) : Option (Uuid × DurableJob) :=
  db.jobs.find fun _ r =>
    r.seriesId = some sid && r.occurrenceNumber = some s.latestOccurrenceNumber

def scheduleRecurring (d : JobSeriesDraft) (env : Surroundings) : Tx SeriesRecord := fun db =>
  let s := JobSeries.ofDraft d
  let r := { DurableJob.ofDraft d.firstOccurrence with
    seriesId := some env.freshOther, occurrenceNumber := some 1 }
  match (db.createSeries env.freshOther s).bind fun db₁ => db₁.createJob env.fresh r with
  | .ok db' => .ok (((env.freshOther, s), (env.fresh, r)), db')
  | .error exc =>
    match d.idempotencyKey with
    | none => .error exc
    | some key =>
      match db.series.find fun _ s => s.idempotencyKey = some key with
      | none => .error (.jobConflict "idempotency key already identifies a one-off durable job")
      | some (sid, s) =>
        if s.fingerprint ≠ d.fingerprint then
          .error (.jobConflict
            "idempotency key already identifies a different recurring durable job")
        else
          match latestOccurrence db sid s with
          | none => .error .doesNotExist
          | some occurrence => .ok (((sid, s), occurrence), db)

def cancelRecurring [Texts] (seriesId : String) (cancelledAt : Instant) : Tx SeriesRecord :=
  fun db =>
    match uuidFromText seriesId with
    | none => .error (.seriesNotFound seriesId)
    | some sid =>
      match db.series.row sid with
      | none => .error (.seriesNotFound seriesId)
      | some s =>
        match latestOccurrence db sid s with
        | none => .error .doesNotExist
        | some (id, r) =>
          if s.state = .active then
            let s' := s.finish .cancelled cancelledAt
            let db := db.setSeries sid s'
            if r.state ∈ [.pending, .claimed, .published, .settling, .indeterminate] then
              .ok (((sid, s'), (id, r.cancel cancelledAt)), db.setJob id (r.cancel cancelledAt))
            else .ok (((sid, s'), (id, r)), db)
          else .ok (((sid, s), (id, r)), db)

/-- The occurrence that follows a completed one, at a time the handler or the cadence chose. -/
def createNextOccurrence [Texts] (db : Database) (sid : Uuid) (s : JobSeries)
    (completedAt nextAt : Instant) (env : Surroundings) : Except Exc Database := do
  let number := s.latestOccurrenceNumber + 1
  let db ← db.createJob env.fresh {
    messageId := uuidText env.freshOther
    messageType := s.messageType
    version := s.version
    payload := s.payload
    headers := s.headers
    createdAt := completedAt
    availableAt := nextAt
    queue := s.queue
    fingerprint := s.fingerprint
    idempotencyKey := none
    seriesId := some sid
    occurrenceNumber := some number }
  return db.setSeries sid { s with latestOccurrenceNumber := number }

/-- How an active series goes on after a successful occurrence. -/
def advanceSeries [Texts] [Calendar] (db : Database) (sid : Uuid) (s : JobSeries)
    (result : HandlerResult Unit) (completedAt : Instant) (env : Surroundings) :
    Except Exc Database :=
  let complete := .ok (db.setSeries sid (s.finish .completed completedAt))
  match result with
  | .endRecurrence => complete
  | .scheduleNextOccurrence nextAt =>
    if nextAt ≤ completedAt then
      .error (.invalidMessageDefinition "next occurrence must be strictly after completion")
    else if s.recurrence.endsAt.any (· ≤ nextAt) then complete
    else createNextOccurrence db sid s completedAt nextAt env
  | _ =>
    match Calendar.nextCadenceAt s.recurrence s.startsAt completedAt with
    | .error exc => .error exc
    | .ok none => complete
    | .ok (some nextAt) => createNextOccurrence db sid s completedAt nextAt env

/-- The row an outcome names, if it is still the one the outcome is about. -/
def outcomeRow [Texts] (db : Database) (o : CommandDeliveryOutcome) (recordId : String) :
    Except Exc (Option (Uuid × DurableJob)) :=
  match uuidFromText recordId with
  | none => .error validationError
  | some id =>
    match db.jobs.row id with
    | none => .ok none
    | some r => .ok (if r.matchesOutcome o then some (id, r) else none)

def lockSeries (db : Database) (seriesId : Option Uuid) : Except Exc (Option (Uuid × JobSeries)) :=
  match seriesId with
  | none => .ok none
  | some sid =>
    match db.series.row sid with
    | none => .error .doesNotExist
    | some s => .ok (some (sid, s))

def recurringResultMessage : String :=
  "recurring command handlers must return None, ScheduleNextOccurrence, EndRecurrence, or " ++
    "ContinueProcessing"

def completeRecurringSuccess [Texts] [Calendar] (o : CommandDeliveryOutcome)
    (result : HandlerResult Unit) (completedAt : Instant) (env : Surroundings) : Tx Bool :=
  fun db =>
    match o.durableRecordId, o.durableGeneration with
    | some recordId, some _ => do
      match ← outcomeRow db o recordId with
      | none => return (false, db)
      | some (id, r) =>
        match ← lockSeries db r.seriesId with
        | none => return (false, db)
        | some (sid, s) =>
          if r.state ≠ .running then return (true, db)
          if !result.isRecurring then
            throw (.invalidMessageDefinition recurringResultMessage)
          let succeeded := db.setJob id (r.succeed completedAt)
          if s.state ≠ .active then return (true, succeeded)
          return (true, ← advanceSeries succeeded sid s result completedAt env)
    | _, _ => .ok (false, db)

def seriesState (db : Database) (r : DurableJob) : Option JobSeriesState :=
  (r.seriesId.bind db.series.row).map (·.state)

/-- No series, or an active one. -/
def seriesOpen (db : Database) (r : DurableJob) : Bool :=
  r.seriesId = none || seriesState db r = some .active

theorem seriesState_of_lock {db : Database} {r : DurableJob} {x : Option (Uuid × JobSeries)}
    (h : lockSeries db r.seriesId = .ok x) : seriesState db r = x.map (·.2.state) := by
  unfold lockSeries at h
  unfold seriesState
  split at h
  · rename_i hn
    injection h with h
    simp [hn, ← h]
  · rename_i sid hs
    split at h
    · cases h
    · rename_i s hrow
      injection h with h
      simp [hs, hrow, ← h]

theorem lockSeries_eq_none {db : Database} {r : DurableJob} (h : lockSeries db r.seriesId = .ok none) :
    r.seriesId = none := by
  unfold lockSeries at h
  split at h
  · assumption
  · split at h <;> cases h

theorem lockSeries_eq_some {db : Database} {r : DurableJob} {sid : Uuid} {s : JobSeries}
    (h : lockSeries db r.seriesId = .ok (some (sid, s))) :
    r.seriesId = some sid ∧ db.series.row sid = some s := by
  unfold lockSeries at h
  split at h
  · cases h
  · split at h
    · cases h
    · rename_i hs _ hrow
      simp_all

theorem seriesOpen_of_lock {db : Database} {r : DurableJob} {x : Option (Uuid × JobSeries)}
    (h : lockSeries db r.seriesId = .ok x) (hx : ∀ sid s, x = some (sid, s) → s.state = .active) :
    seriesOpen db r = true := by
  cases x with
  | none => simp [seriesOpen, lockSeries_eq_none h]
  | some e => simp [seriesOpen, seriesState_of_lock h, hx e.1 e.2 rfl]

theorem seriesOpen_of_cancelled {db : Database} {r : DurableJob}
    (h : seriesState db r = some .cancelled) : seriesOpen db r = false := by
  have hn : r.seriesId ≠ none := by
    intro hn
    simp [seriesState, hn] at h
  simp [seriesOpen, h, hn]

/-- The rows of cancelled series whose owner is overdue. -/
def cancelledReclaimable (db : Database) (now : Instant) (r : DurableJob) : Bool :=
  r.elapsed now && seriesState db r = some .cancelled

def parkable (db : Database) (now : Instant) (r : DurableJob) : Bool :=
  seriesOpen db r && r.state = .running && r.elapsed now && r.exhausted

def claimable (db : Database) (now : Instant) (r : DurableJob) : Bool :=
  (r.state = .pending || r.elapsed now) && seriesOpen db r && r.availableAt ≤ now

/-- Both bulk updates of `claim`. -/
def sweep (db : Database) (now : Instant) : Database :=
  let jobs := db.jobs.update (fun _ r => cancelledReclaimable db now r) (·.cancel now)
  { db with jobs := jobs.update (fun _ r => parkable db now r) (·.park) }

theorem sweep_row {db : Database} {id : Uuid} {r : DurableJob} {now : Instant}
    (h : db.jobs.row id = some r) :
    (sweep db now).jobs.row id = some (if cancelledReclaimable db now r then r.cancel now
      else if parkable db now r then r.park else r) := by
  simp only [sweep, Table.row_update, h, Option.map_some, Option.some.injEq]
  by_cases hc : cancelledReclaimable db now r = true
  · have hp : parkable db now (r.cancel now) = false := by
      simp [parkable, DurableJob.cancel]
    simp [hc, hp]
  · simp [hc]

theorem sweep_row_none {db : Database} {id : Uuid} {now : Instant}
    (h : db.jobs.row id = none) : (sweep db now).jobs.row id = none := by
  simp [sweep, h]

/-- `order_by("created_at", "id")`. -/
def older (a b : Uuid × DurableJob) : Bool :=
  a.2.createdAt < b.2.createdAt || (a.2.createdAt = b.2.createdAt && a.1 ≤ b.1)

/-- `claim`. Its last update compares state and generation with what the same transaction has
just read, so it always finds its row. -/
def claim [Texts] (workerId : String) (now leaseExpiresAt : Instant) (env : Surroundings) :
    Tx (Option DurableJobClaim) := fun db =>
  if env.inAtomicBlock then
    .error (.workerAbort "durable job claims must run outside transaction.atomic()")
  else
    let db := sweep db now
    match db.jobs.first (fun id r => claimable db now r && !env.locked.contains id) older with
    | none => .ok (none, db)
    | some (id, r) =>
      let r := r.claim workerId now leaseExpiresAt
      .ok (some (r.toClaim id), db.setJob id r)

/-- The row a claim was taken on, while it is still claimed under that generation. -/
def claimedRow [Texts] (db : Database) (c : DurableJobClaim) :
    Except Exc (Option (Uuid × DurableJob)) :=
  match uuidFromText c.id with
  | none => .error validationError
  | some id =>
    match db.jobs.row id with
    | none => .ok none
    | some r =>
      .ok (if r.generation = c.generation ∧ r.state = .claimed then some (id, r) else none)

/-- `_fail_active_series`. -/
def failActiveSeries (db : Database) (series : Option (Uuid × JobSeries)) (finishedAt : Instant) :
    Database :=
  match series with
  | some (sid, s) => if s.state = .active then db.setSeries sid (s.finish .failed finishedAt) else db
  | none => db

def finishDeadLetterFromClaim [Texts] (c : DurableJobClaim) (finishedAt : Instant) : Tx Unit :=
  fun db => do
    match uuidFromText c.id with
    | none => throw validationError
    | some id =>
      match db.jobs.row id with
      | none => return ((), db)
      | some r =>
        let series ← lockSeries db r.seriesId
        if r.generation = c.generation ∧ r.state = .claimed then
          return ((), failActiveSeries (db.setJob id (r.deadLetterFromClaim finishedAt)) series
            finishedAt)
        else return ((), db)

def markPublished [Texts] (c : DurableJobClaim) (now reconciliationDueAt : Instant) : Tx Unit :=
  fun db =>
    if c.settlementStatus = some .deadLettered then finishDeadLetterFromClaim c now db
    else do
      match ← claimedRow db c with
      | none => return ((), db)
      | some (id, r) => return ((), db.setJob id (r.publish c reconciliationDueAt))

def markPublishIndeterminate [Texts] (c : DurableJobClaim) (reconciliationDueAt : Instant) :
    Tx Unit := fun db => do
  match ← claimedRow db c with
  | none => return ((), db)
  | some (id, r) => return ((), db.setJob id (r.publishIndeterminate c reconciliationDueAt))

/-- What `admit_delivery` decides on a row of the right generation in an open series. -/
def decideAdmission [Texts] (a : DurableDeliveryAdmission) (r : DurableJob) :
    DurableDeliveryDecision :=
  if r.state ∉ [.claimed, .published, .settling, .indeterminate] then .abort
  else if r.state = .indeterminate ∧ r.indeterminateReason ≠ some .publicationAcknowledgement then
    .drop
  else if !r.matchesAdmission a then .abort
  else if a.retryCount < r.retryCount then .drop
  else if r.retryCount < a.retryCount then .abort
  else if r.maxRetries.isSome ∧ r.maxRetries ≠ some a.maxRetries then .abort
  else .proceed

def admitDelivery [Texts] (a : DurableDeliveryAdmission) (env : Surroundings) :
    Tx DurableDeliveryDecision := fun db =>
  match uuidFromText a.recordId with
  | none => .ok (.abort, db)
  | some id =>
    match db.jobs.row id with
    | none => .ok (.abort, db)
    | some r => do
      let series ← lockSeries db r.seriesId
      if r.generation < a.generation then return (.abort, db)
      if a.generation < r.generation ∨ r.state.terminal ∨ r.state = .running then
        return (.drop, db)
      match series with
      | some (_, s) =>
        if s.state = .cancelled then return (.drop, db.setJob id (r.cancel env.now))
        if s.state ≠ .active then return (.drop, db)
      | none => pure ()
      if decideAdmission a r = .proceed then
        return (.proceed, db.setJob id (r.admitted a env.now))
      return (decideAdmission a r, db)

/-- `_guarded_series_update`: the number of rows it changed. -/
def guardedSeriesUpdate [Texts] (recordId : String) (filters : DurableJob → Bool)
    (expectedState : DurableJobState) (values : DurableJob → DurableJob) (cancelledAt : Instant) :
    Tx Nat := fun db =>
  match uuidFromText recordId with
  | none => .error validationError
  | some id =>
    match db.jobs.row id with
    | none => .ok (0, db)
    | some r => do
      if !filters r then return (0, db)
      match ← lockSeries db r.seriesId with
      | none =>
        if r.state = expectedState then return (1, db.setJob id (values r)) else return (0, db)
      | some (_, s) =>
        if r.state ≠ expectedState then return (0, db)
        if s.state = .cancelled then return (1, db.setJob id (r.cancel cancelledAt))
        if s.state ≠ .active then return (0, db)
        return (1, db.setJob id (values r))

def checkpointSettlement [Texts] (s : DurableSettlement) (env : Surroundings) : Tx Unit :=
  fun db => do
    let (updated, db) ← guardedSeriesUpdate s.recordId
      (fun r => r.generation = s.generation && r.retryCount ≤ s.retryCount &&
        r.maxRetries = some s.maxRetries)
      .running (·.checkpoint s) env.now db
    if updated ≠ 1 then
      throw (.runtimeError "durable settlement no longer owns the active generation")
    return ((), db)

def releaseDelivery [Texts] (recordId : String) (generation : Nat) (reconciliationDueAt : Instant)
    (env : Surroundings) : Tx Unit := fun db => do
  let (updated, db) ← guardedSeriesUpdate recordId (fun r => r.generation = generation)
    .running (·.release reconciliationDueAt) env.now db
  if updated ≠ 1 then
    throw (.runtimeError "durable delivery admission could not be released")
  return ((), db)

def finishDeadLetterFromOutcome [Texts] (o : CommandDeliveryOutcome) (recordId : String)
    (env : Surroundings) : Tx Unit := fun db => do
  match ← outcomeRow db o recordId with
  | none => return ((), db)
  | some (id, r) =>
    let series ← lockSeries db r.seriesId
    if r.state ≠ .settling then return ((), db)
    return ((), failActiveSeries (db.setJob id (r.deadLetterFromOutcome o env.now)) series env.now)

def applyOutcome [Texts] (o : CommandDeliveryOutcome) (reconciliationDueAt : Instant)
    (env : Surroundings) : Tx Unit := fun db =>
  match o.durableRecordId, o.durableGeneration with
  | some recordId, some _ =>
    if (uuidFromText recordId).isNone then .error validationError else
    match o.status with
    | .started => .ok ((), db)
    | .succeeded => do
      match ← outcomeRow db o recordId with
      | none => return ((), db)
      | some (id, r) =>
        if r.state = .running then return ((), db.setJob id (r.succeed env.now))
        else return ((), db)
    | .deadLettered => finishDeadLetterFromOutcome o recordId env db
    | .retryScheduled | .continued => do
      let (_, db) ← guardedSeriesUpdate recordId (fun r => r.matchesOutcome o) .settling
        (·.resume o reconciliationDueAt) env.now db
      return ((), db)
  | _, _ => .ok ((), db)

end DjangoDurableJobStore

/-- The operations of the store with their arguments. -/
inductive StoreOp
  | schedule (draft : DurableJobDraft)
  | scheduleRecurring (draft : JobSeriesDraft)
  | cancelRecurring (seriesId : String) (cancelledAt : Instant)
  | claim (workerId : String) (now leaseExpiresAt : Instant)
  | markPublished (claim : DurableJobClaim) (now reconciliationDueAt : Instant)
  | markPublishIndeterminate (claim : DurableJobClaim) (now reconciliationDueAt : Instant)
  | admitDelivery (admission : DurableDeliveryAdmission)
  | checkpointSettlement (settlement : DurableSettlement)
  | releaseDelivery (recordId : String) (generation : Nat) (reconciliationDueAt : Instant)
  | applyOutcome (outcome : CommandDeliveryOutcome) (reconciliationDueAt : Instant)
  | completeRecurringSuccess (outcome : CommandDeliveryOutcome) (result : HandlerResult Unit)
      (completedAt : Instant)

namespace StoreOp

abbrev Result : StoreOp → Type
  | schedule _ => Uuid × DurableJob
  | scheduleRecurring _ | cancelRecurring _ _ => DjangoDurableJobStore.SeriesRecord
  | claim _ _ _ => Option DurableJobClaim
  | admitDelivery _ => DurableDeliveryDecision
  | completeRecurringSuccess _ _ _ => Bool
  | _ => Unit

def run [Texts] [Calendar] (op : StoreOp) (env : Surroundings) : Tx op.Result :=
  match op with
  | .schedule draft => DjangoDurableJobStore.schedule draft env
  | .scheduleRecurring draft => DjangoDurableJobStore.scheduleRecurring draft env
  | .cancelRecurring seriesId cancelledAt =>
    DjangoDurableJobStore.cancelRecurring seriesId cancelledAt
  | .claim workerId now leaseExpiresAt =>
    DjangoDurableJobStore.claim workerId now leaseExpiresAt env
  | .markPublished c now due => DjangoDurableJobStore.markPublished c now due
  | .markPublishIndeterminate c _ due => DjangoDurableJobStore.markPublishIndeterminate c due
  | .admitDelivery admission => DjangoDurableJobStore.admitDelivery admission env
  | .checkpointSettlement settlement =>
    DjangoDurableJobStore.checkpointSettlement settlement env
  | .releaseDelivery recordId generation due =>
    DjangoDurableJobStore.releaseDelivery recordId generation due env
  | .applyOutcome outcome due => DjangoDurableJobStore.applyOutcome outcome due env
  | .completeRecurringSuccess outcome result completedAt =>
    DjangoDurableJobStore.completeRecurringSuccess outcome result completedAt env

end StoreOp

end Pybus
