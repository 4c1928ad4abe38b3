import Pybus.Handlers

/-! The records that durable jobs are described with: drafts, claims, admissions, settlements
and delivery outcomes. -/
namespace Pybus

open Value Texts

inductive DurableJobState
  | pending
  | claimed
  | published
  | running
  | settling
  | indeterminate
  | succeeded
  | deadLettered
  | cancelled
  deriving DecidableEq, Repr

/-- `succeeded`, `dead_lettered` and `cancelled`. -/
def DurableJobState.terminal : DurableJobState → Bool
  | .succeeded | .deadLettered | .cancelled => true
  | _ => false

inductive DurableDeliveryDecision
  | proceed
  | drop
  | abort
  deriving DecidableEq, Repr

inductive CommandDeliveryStatus
  | started
  | succeeded
  | continued
  | retryScheduled
  | deadLettered
  deriving DecidableEq, Repr

inductive IndeterminateReason
  | handlerOutcome
  | publicationAcknowledgement
  deriving DecidableEq, Repr

inductive JobSeriesState
  | active
  | completed
  | failed
  | cancelled
  deriving DecidableEq, Repr

inductive RecurrenceCadence
  | daily
  | weekly
  | monthly
  deriving DecidableEq, Repr

structure Recurrence where
  cadence : RecurrenceCadence
  timezone : String := "UTC"
  endsAt : Option Instant := none
  deriving DecidableEq

structure DurableJobDraft where
  messageId : String
  messageType : String
  version : Int
  payload : Value
  headers : Dict
  createdAt : Instant
  availableAt : Instant
  queue : String
  fingerprint : String
  idempotencyKey : Option String := none
  deriving DecidableEq

structure JobSeriesDraft where
  firstOccurrence : DurableJobDraft
  recurrence : Recurrence
  startsAt : Instant
  fingerprint : String
  idempotencyKey : Option String := none
  deriving DecidableEq

structure DurableJobClaim where
  id : String
  messageId : String
  messageType : String
  version : Int
  payload : Value
  headers : Dict
  createdAt : Instant
  queue : String
  generation : Nat
  retryCount : Nat
  settlementStatus : Option CommandDeliveryStatus := none
  settlementSource : Option String := none
  lastAttemptAt : Option Instant := none
  deriving DecidableEq

structure DurableDeliveryAdmission where
  recordId : String
  generation : Nat
  sourceQueue : String
  retryCount : Nat
  maxRetries : Nat
  messageId : Value
  messageType : Value
  version : Int
  payload : Value
  applicationHeaders : Dict
  lastAttemptAt : Option Instant := none
  admittedAt : Option Instant := none
  reconciliationDueAt : Option Instant := none
  deriving DecidableEq

structure DurableSettlement where
  recordId : String
  generation : Nat
  status : CommandDeliveryStatus
  sourceQueue : String
  destinationQueue : Option String
  retryCount : Nat
  maxRetries : Nat
  reconciliationDueAt : Instant
  lastAttemptAt : Option Instant := none
  deriving DecidableEq

structure CommandDeliveryOutcome where
  status : CommandDeliveryStatus
  messageId : Value
  messageType : Value
  version : Int
  sourceQueue : String
  destinationQueue : Option String
  retryCount : Nat
  maxRetries : Nat
  durableRecordId : Option String := none
  durableGeneration : Option Int := none
  deriving DecidableEq

/-- `DurableJobPolicy`, with what `__post_init__` checks; durations are in microseconds. -/
structure DurableJobPolicy where
  leaseDuration : Int := 30000000
  reconciliationDelay : Int := 300000000
  leaseDuration_pos : 0 < leaseDuration := by first | exact halfMinute_pos | decide
  reconciliationDelay_pos : 0 < reconciliationDelay := by first | exact fiveMinutes_pos | decide

def durableRecordHeader : String := "pybus_durable_record"

def durableGenerationHeader : String := "pybus_durable_generation"

/-- `destination or source`: an absent or empty destination falls back to the source. -/
def destinationOrSource (destination : Option String) (source : String) : String :=
  match destination with
  | some d => if d = "" then source else d
  | none => source

/-- `delivery_envelope`. `fresh` is the identifier `create` makes up when there is none. -/
def DurableJobClaim.deliveryEnvelope [Texts] (c : DurableJobClaim) (fresh : String) :
    MessageEnvelope :=
  let headers := c.headers
  let headers :=
    if c.retryCount = 0 then headers else set headers "retries" (.int c.retryCount)
  let headers :=
    match c.lastAttemptAt with
    | some t => set headers "last_attempt" (.str (datetimeIsoformat (.utc t)))
    | none => headers
  let headers :=
    if c.settlementStatus = some .deadLettered then
      set headers "dead_lettered_from" ((c.settlementSource.map Value.str).getD .null)
    else headers
  { messageId := .str (if c.messageId = "" then fresh else c.messageId)
    messageType := .str c.messageType
    messageKind := .str "command"
    version := c.version
    payload := c.payload
    headers := set (set headers durableRecordHeader (.str c.id)) durableGenerationHeader
      (.int c.generation)
    createdAt := .datetime (.utc c.createdAt) }

namespace DurableJobController

/-- `identity`: the record and the generation a delivery belongs to, if it is durable. -/
def identity (e : MessageEnvelope) : Except Exc (Option (String × Nat)) :=
  match get e.headers durableRecordHeader, get e.headers durableGenerationHeader with
  | .null, .null => .ok none
  | .str recordId, .int generation =>
    if recordId = "" ∨ generation < 1 then
      .error (.valueError "invalid durable delivery identity")
    else .ok (some (recordId, generation.toNat))
  | _, _ => .error (.valueError "invalid durable delivery identity")

/-- The headers of the application: those that are not the framework's own. -/
def applicationHeaders (headers : Dict) : Dict :=
  headers.filter fun e => !([durableRecordHeader, durableGenerationHeader, "dead_lettered_from",
    "last_attempt", "retries"].contains e.1)

/-- The retry time that `admit` reads from the headers. -/
def lastAttempt [Texts] (headers : Dict) : Except Exc (Option Instant) :=
  match get headers "last_attempt" with
  | .null => .ok none
  | .str s =>
    match datetimeFromisoformat s with
    | none => .error (.valueError "Invalid isoformat string")
    | some d =>
      match d.instant with
      | some t => .ok (some t)
      | none => .error (.valueError "durable retry timing must be timezone-aware")
  | _ => .error (.valueError "durable retry timing is invalid")

/-- The admission that `admit` puts to the store; `none` for a delivery that is not durable. -/
def admission [Texts] (policy : DurableJobPolicy) (e : MessageEnvelope) (now : Instant)
    (sourceQueue : String) (retryCount maxRetries : Nat) :
    Except Exc (Option DurableDeliveryAdmission) := do
  match ← identity e with
  | none => return none
  | some (recordId, generation) =>
    if e.messageKind ≠ .str "command" then
      throw (.valueError "durable delivery must be a command")
    let lastAttemptAt ← lastAttempt e.headers
    return some {
      recordId, generation, sourceQueue, retryCount, maxRetries
      messageId := e.messageId
      messageType := e.messageType
      version := e.version
      payload := e.payload
      applicationHeaders := applicationHeaders e.headers
      lastAttemptAt
      admittedAt := some now
      reconciliationDueAt := some (now + policy.reconciliationDelay) }

/-- The settlement that `checkpoint` puts to the store. -/
def settlement (policy : DurableJobPolicy) (e : MessageEnvelope) (now : Instant)
    (status : CommandDeliveryStatus) (sourceQueue : String) (destinationQueue : Option String)
    (retryCount maxRetries : Nat) (lastAttemptAt : Option Instant) :
    Except Exc (Option DurableSettlement) := do
  match ← identity e with
  | none => return none
  | some (recordId, generation) =>
    return some {
      recordId, generation, status, sourceQueue, destinationQueue, retryCount, maxRetries
      reconciliationDueAt := now + policy.reconciliationDelay
      lastAttemptAt }

/-- The one way to be durable: two well-formed headers. -/
theorem identity_eq_some {e : MessageEnvelope} {recordId : String} {generation : Nat}
    (h : identity e = .ok (some (recordId, generation))) :
    get e.headers durableRecordHeader = .str recordId ∧
      get e.headers durableGenerationHeader = .int generation ∧ 1 ≤ generation := by
  unfold identity at h
  split at h
  · cases h
  · rename_i r g hr hg
    split at h
    · cases h
    · rename_i hc
      have hpos : 1 ≤ g := by omega
      injection h with h
      injection h with h
      injection h with h₁ h₂
      subst h₁
      refine ⟨hr, ?_, by omega⟩
      rw [hg, ← h₂]
      simp only [int.injEq]
      omega
  · cases h

/-- Not being durable: neither header is there. -/
theorem identity_eq_none {e : MessageEnvelope} (h : identity e = .ok none) :
    get e.headers durableRecordHeader = .null ∧ get e.headers durableGenerationHeader = .null := by
  unfold identity at h
  split at h
  · rename_i hr hg
    exact ⟨hr, hg⟩
  · split at h <;> cases h
  · cases h

end DurableJobController

/-- `_command_delivery_outcome`. -/
def commandDeliveryOutcome (e : MessageEnvelope) (status : CommandDeliveryStatus)
    (sourceQueue : String) (destinationQueue : Option String) (retryCount maxRetries : Nat) :
    CommandDeliveryOutcome where
  status := status
  messageId := e.messageId
  messageType := e.messageType
  version := e.version
  sourceQueue := sourceQueue
  destinationQueue := destinationQueue
  retryCount := retryCount
  maxRetries := maxRetries
  durableRecordId :=
    match get e.headers durableRecordHeader with
    | .str s => some s
    | _ => none
  durableGeneration :=
    match get e.headers durableGenerationHeader with
    | .int i => some i
    | .bool b => some (if b then 1 else 0)
    | _ => none

end Pybus
