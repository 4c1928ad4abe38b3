import Pybus.Interaction.Program
import Pybus.Redis.Server

/-! The methods of `RedisTransport`, each as the requests it makes one after the other. -/
namespace Pybus.Redis

open Interaction Relational Texts

/-- Bounds for reclaiming stale claims. -/
structure RedisReaperPolicy where
  visibilityTimeout : Int := 300000000
  maxReclaimAttempts : Nat := 5
  orphanConfirmationDelay : Int := 30000000
  visibilityTimeout_pos : 0 < visibilityTimeout := by first | exact fiveMinutes_pos | decide
  orphanConfirmationDelay_pos : 0 < orphanConfirmationDelay := by
    first | exact halfMinute_pos | decide
  deriving DecidableEq

/-- A reaper, with the channels it looks after. -/
structure RedisReaperRunner where
  channels : List String
  deadLetterChannel : String
  policy : RedisReaperPolicy := {}
  batchLimit : Nat := 100
  channels_ne_nil : channels ≠ []
  deadLetterChannel_terminal : deadLetterChannel ∉ channels
  deriving DecidableEq

/-- What a client asks for: a Redis command, `uuid4().hex`, its own clock, or the clock of a reaper. -/
inductive Request (Bytes : Type)
  | redis (c : Command Bytes)
  | uuid4
  | now
  | nowFn (reaper : RedisReaperRunner)
  deriving DecidableEq

/-- What a client gets instead of the result of a command: an exception, or nothing any more. -/
inductive Interruption
  | raised (exc : Exc)
  | crashed
  deriving DecidableEq

abbrev Request.Answer {Bytes : Type} : Request Bytes → Type
  | redis c => Except Interruption c.Result
  | uuid4 => String
  | now | nowFn _ => Instant

abbrev Requests (Bytes : Type) : Signature where
  Op := Request Bytes
  Res := Request.Answer

abbrev Client (Bytes α : Type) : Type := Routine (Requests Bytes) Unit Interruption α

/-- A claimed payload with the receipt that settles it. A receipt is kept as the JSON it denotes. -/
structure ReceiptedMessage (Bytes : Type) where
  payload : Bytes
  receipt : Raw
  deriving DecidableEq

namespace Client

variable {Bytes α : Type}

def request (o : Request Bytes) : Client Bytes o.Answer := Routine.ask (S := Requests Bytes) o

def redis (c : Command Bytes) : Client Bytes c.Result :=
  Routine.attempt (S := Requests Bytes) (.redis c) id

def raise (exc : Exc) : Client Bytes α := throw (.raised exc)

/-- `except Exception`: a crash is no exception. -/
def catching (p : Client Bytes α) (handler : Exc → Client Bytes α) : Client Bytes α :=
  tryCatch p fun
    | .raised exc => handler exc
    | .crashed => throw .crashed

end Client

namespace RedisTransport

open Client

variable {Bytes : Type} [DecidableEq Bytes] [Texts] [Sha1 Bytes]

def receipt (channel claimId : String) : Raw :=
  .json (.dict [("channel", .str channel), ("claim_id", .str claimId)])

def parseReceipt : Raw → Option (String × String)
  | .json (.dict data) =>
    match Value.get data "channel", Value.get data "claim_id" with
    | .str channel, .str claimId => some (channel, claimId)
    | _, _ => none
  | _ => none

def publish (channel : String) (message : Bytes) : Client Bytes Unit :=
  redis (.lpush channel message)

def size (channel : String) : Client Bytes Nat := redis (.llen channel)

/-- Best effort: a failure of the cleanup is ignored. -/
def cleanupFailedClaimAttempt (channel claimId : String) : Client Bytes Unit :=
  catching (redis (.discard channel claimId)) fun _ => pure ()

def claim (channel : String) (payload : Bytes) : Client Bytes (ReceiptedMessage Bytes) := do
  let claimId ← request .uuid4
  let claimedAt ← request .now
  catching (redis (.record channel claimId payload claimedAt)) fun _ => do
    cleanupFailedClaimAttempt channel claimId
    raise (.indeterminateDelivery
      ("Redis claim record failed with an unknown outcome for " ++ Texts.repr (.str channel)))
  return ⟨payload, receipt channel claimId⟩

def consume (channel : String) : Client Bytes (Option (ReceiptedMessage Bytes)) := do
  let moved ← catching (redis (.move channel)) fun _ => raise (.indeterminateDelivery
    ("Redis consume failed with an unknown claim outcome for " ++ Texts.repr (.str channel)))
  match moved with
  | none => return none
  | some m => return some (← claim channel m.payload)

def consumeMany (channel : String) : Nat → Client Bytes (List (ReceiptedMessage Bytes))
  | 0 => return []
  | limit + 1 => do
    let moved ← catching (redis (.move channel)) fun _ => raise (.indeterminateDelivery
      ("Redis batch consume failed with an unknown claim outcome for " ++
        Texts.repr (.str channel)))
    match moved with
    | none => return []
    | some m => do
      let claimed ← claim channel m.payload
      return claimed :: (← consumeMany channel limit)

def lookupClaim (r : Raw) : Client Bytes (Option (String × String × Bytes)) :=
  match parseReceipt r with
  | none => return none
  | some (channel, claimId) => do
    let payload ← redis (.payloadOf channel claimId)
    return payload.map fun p => (channel, claimId, p)

def settleClaim (channel claimId : String) (payload : Bytes) : Client Bytes Unit :=
  catching (redis (.settle channel claimId payload)) fun _ => raise (.indeterminateDelivery
    ("Redis claim settlement failed with an unknown outcome for " ++ Texts.repr (.str channel)))

def ack (r : Raw) : Client Bytes Unit := do
  match ← lookupClaim r with
  | none => return ()
  | some (channel, claimId, payload) => settleClaim channel claimId payload

def nack (r : Raw) (requeue : Bool) : Client Bytes Unit := do
  match ← lookupClaim r with
  | none => return ()
  | some (channel, claimId, payload) => do
    if requeue then
      catching (redis (.lpush channel payload)) fun _ => raise (.indeterminateDelivery
        ("Redis nack requeue failed with an unknown outcome for " ++ Texts.repr (.str channel)))
    settleClaim channel claimId payload

/-- The loop of `stale_claims` over the claim ids that the index gave. -/
def staleMessages (channel : String) : List String → Client Bytes (List (ReceiptedMessage Bytes))
  | [] => return []
  | claimId :: claimIds => do
    match ← redis (.payloadOf channel claimId) with
    | none => do
      redis (.zrem channel claimId)
      staleMessages channel claimIds
    | some payload => return ⟨payload, receipt channel claimId⟩ :: (← staleMessages channel claimIds)

def staleClaims (channel : String) (olderThan : Instant) (limit : Nat) :
    Client Bytes (List (ReceiptedMessage Bytes)) := do
  let claimIds ← redis (.zrangebyscore channel (some olderThan) (some limit))
  staleMessages channel claimIds

/-- The payloads that the counter of indexed payloads does not cover. -/
def uncovered : (Bytes → Nat) → List Bytes → List Bytes
  | _, [] => []
  | indexedPayloads, payload :: processing =>
    if 0 < indexedPayloads payload then
      uncovered (Function.update indexedPayloads payload (indexedPayloads payload - 1)) processing
    else payload :: uncovered indexedPayloads processing

def unclaimedProcessingEntries (channel : String) (limit : Nat) : Client Bytes (List Bytes) := do
  let processing ← redis (.lrange channel (limit - 1))
  let indexedClaimIds ← redis (.zrangebyscore channel none none)
  let claims ← redis (.hgetall channel)
  return uncovered (fun payload => claims.countP fun c => c.2 = payload && c.1 ∈ indexedClaimIds)
    processing

def reindexOrphanedProcessingEntry (channel : String) (payload : Bytes) :
    Client Bytes (ReceiptedMessage Bytes) := claim channel payload

/-- One round of `reconcile_orphaned_processing_entries`: whether the payload was reindexed. -/
def reconcileEntry (channel : String) (now : Instant) (confirmationDelay : Int) (payload : Bytes) :
    Client Bytes Bool := do
  let digest := Sha1.hexdigest payload
  if ← redis (.hsetnx channel digest now) then return false
  match ← redis (.hget channel digest) with
  | none => return false
  | some seenAt =>
    if now - seenAt < confirmationDelay then return false
    let wonReindexRights ← catching (redis (.hdel channel digest)) fun _ => return false
    if !wonReindexRights then return false
    let _ ← reindexOrphanedProcessingEntry channel payload
    return true

def reconcileEntries (channel : String) (now : Instant) (confirmationDelay : Int) :
    List Bytes → Client Bytes Nat
  | [] => return 0
  | payload :: payloads => do
    let reindexed ← reconcileEntry channel now confirmationDelay payload
    let reconciled ← reconcileEntries channel now confirmationDelay payloads
    return if reindexed then reconciled + 1 else reconciled

def reconcileOrphanedProcessingEntries (channel : String) (now : Instant) (limit : Nat)
    (confirmationDelay : Int) : Client Bytes Nat := do
  let payloads ← unclaimedProcessingEntries channel limit
  reconcileEntries channel now confirmationDelay payloads

end RedisTransport

/-- What a run of the reaper does about the orphans of a channel. -/
def RedisReaperRunner.reconcile {Bytes : Type} [DecidableEq Bytes] [Texts] [Sha1 Bytes]
    (self : RedisReaperRunner) (channel : String) : Client Bytes Nat := do
  let now ← Client.request (.nowFn self)
  RedisTransport.reconcileOrphanedProcessingEntries channel now self.batchLimit
    self.policy.orphanConfirmationDelay

end Pybus.Redis
