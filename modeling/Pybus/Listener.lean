import Pybus.Calls

/-! The listener: one call of `listen_once` and everything below it. -/
namespace Pybus

open Value Texts Interaction

/-- `DurableJobController`: its policy, and whether its store is a `JobSeriesStore`. -/
structure DurableConfiguration where
  policy : DurableJobPolicy := {}
  jobSeriesStore : Bool := true

/-- The configuration of a listener: its collaborators, the number of its observers, and the
optional methods its transport has. -/
structure Listener (Obj : Type) where
  dispatcher : Dispatcher Obj
  retryPolicy : RetryPolicy := {}
  deadLetterChannel : String := "pybus.jobs.failed"
  topology : Option QueueTopology := none
  commandDeliveryObservers : Nat := 0
  durableJobController : Option DurableConfiguration := none
  hasSize : Bool := true
  hasConsumeMany : Bool := true

/-- What `_dispatch` returns: the sentinel of a settled claim, nothing for a dropped delivery, or
the results of the handlers. -/
inductive DispatchResult (Obj : Type)
  | claimSettled
  | dropped
  | results (rs : List (HandlerResult Obj))

def batchedBufferKey (eventType : String) : String := "batched:" ++ eventType

def defaultReplyQueue : String := "pybus.responses"

namespace Listener

variable {Obj α : Type} [Texts] (L : Listener Obj)

/-- `_settle_after_claim`. -/
def settleAfterClaim (action : String) (operation : Action Obj Unit) : Action Obj Unit :=
  tryCatch operation fun exc =>
    if exc.isIndeterminate then throw exc
    else throw (.indeterminateDelivery
      (action ++ " failed after a message was claimed from the transport"))

/-- `_ack_claim`. -/
def ackClaim (claim : Claim) : Action Obj Unit :=
  match claim.receipt with
  | none => pure ()
  | some receipt =>
    tryCatch (.attempt (.ack receipt claim) id) fun exc =>
      if exc.isIndeterminate then throw exc
      else throw (.indeterminateDelivery
        "claim ack failed after a message outcome was durably published")

/-- `transport.publish(channel, serializer.dump(envelope))`, made for a claim. -/
def publishEnvelope (channel : String) (e : MessageEnvelope) (claim : Claim) : Action Obj Unit := do
  let message ← .lift e.dump
  .attempt (.publish channel message claim) id

/-- `_restore_claimed_command_and_abort`. -/
def restoreClaimedCommandAndAbort (channel : String) (e : MessageEnvelope) (reason : String)
    (errorType : String → Exc) (claim : Claim) : Action Obj α := do
  settleAfterClaim "command claim recovery" (publishEnvelope channel e claim)
  ackClaim claim
  throw (errorType
    (reason ++ "; the unchanged command was restored before handler execution"))

/-- The record of a message that could not be read. -/
def poison (channel : String) (message : Raw) (exc : Exc) (messageId : Uuid) (now : Instant) :
    MessageEnvelope where
  messageId := .str (uuidText messageId)
  messageType := .str "pybus.message.decode_failed"
  messageKind := .str "event"
  version := 1
  payload := .dict [("raw_message", .str (base64 message)),
    ("raw_message_encoding", .str "base64"), ("error_type", .str exc.typeName)]
  headers := [("dead_lettered_from", .str channel)]
  createdAt := .datetime (.utc now)

/-- `_dead_letter_undecodable`. -/
def deadLetterUndecodable (channel : String) (message : Raw) (exc : Exc) (claim : Claim) :
    Action Obj Unit := do
  let messageId ← .ask .uuid4
  let now ← .ask .now
  settleAfterClaim "decode-failure publication"
    (publishEnvelope L.deadLetterChannel (poison channel message exc messageId now) claim)
  ackClaim claim

/-- `_is_typed`. -/
def isTyped (e : MessageEnvelope) : Except Exc Bool := do
  return (← L.dispatcher.registry.messageClassFor e.messageKind e.messageType).isSome

/-- `_retry_count`. -/
def retryCount (e : MessageEnvelope) : Except Exc Nat := do
  return resolveRetryCount (if ← L.isTyped e then none else some e.payload) e.headers

/-- `_should_retry`. -/
def shouldRetry (e : MessageEnvelope) : Except Exc Bool := do
  return L.retryPolicy.shouldRetry (← L.retryCount e)

/-- `retry_limit` of the handler, or the policy's limit. -/
def maxRetriesOf (spec : HandlerSpec) : Nat := spec.retryLimit.getD L.retryPolicy.maxRetries

/-- `DurableJobController.apply_outcome`. -/
def applyOutcome (c : DurableConfiguration) (outcome : CommandDeliveryOutcome) (claim : Claim) :
    Action Obj Unit :=
  .when outcome.durableRecordId.isSome do
    let now ← .ask .now
    .attempt (.store (.applyOutcome outcome (now + c.policy.reconciliationDelay)) (some claim)) id

/-- `DurableJobController.checkpoint`. -/
def checkpoint (c : DurableConfiguration) (e : MessageEnvelope) (status : CommandDeliveryStatus)
    (sourceQueue : String) (destinationQueue : Option String) (retryCount maxRetries : Nat)
    (lastAttemptAt : Option Instant) (claim : Claim) : Action Obj Unit := do
  let now ← .ask .now
  match ← .lift (DurableJobController.settlement c.policy e now status sourceQueue destinationQueue
    retryCount maxRetries lastAttemptAt) with
  | none => pure ()
  | some s => .attempt (.store (.checkpointSettlement s) (some claim)) id

/-- `DurableJobController.release`. -/
def release (c : DurableConfiguration) (e : MessageEnvelope) (claim : Claim) : Action Obj Unit := do
  match ← .lift (DurableJobController.identity e) with
  | none => pure ()
  | some (recordId, generation) =>
    let now ← .ask .now
    .attempt (.store (.releaseDelivery recordId generation (now + c.policy.reconciliationDelay))
      (some claim)) id

/-- `DurableJobController.admit`. -/
def admitEnvelope (c : DurableConfiguration) (e : MessageEnvelope) (sourceQueue : String)
    (retryCount maxRetries : Nat) (claim : Claim) :
    Action Obj (Option DurableDeliveryDecision) := do
  let now ← .ask .now
  match ← .lift (DurableJobController.admission c.policy e now sourceQueue retryCount maxRetries)
    with
  | none => return none
  | some a => return some (← .attempt (.store (.admitDelivery a) (some claim)) id)

/-- What `complete_success` does for a job without a series. -/
def completeSingle (c : DurableConfiguration) (outcome : CommandDeliveryOutcome)
    (result : HandlerResult Obj) (claim : Claim) : Action Obj Unit :=
  if result.isRecurrence then
    throw (.invalidMessageDefinition "recurrence results require a recurring durable job")
  else applyOutcome c outcome claim

/-- `DurableJobController.complete_success`. -/
def completeSuccess (c : DurableConfiguration) (outcome : CommandDeliveryOutcome)
    (result : HandlerResult Obj) (completedAt : Instant) (claim : Claim) : Action Obj Unit := do
  if c.jobSeriesStore then
    let handled ← .attempt (.store (.completeRecurringSuccess outcome result.forget completedAt)
      (some claim)) id
    if handled then return () else completeSingle c outcome result claim
  else completeSingle c outcome result claim

/-- Call the observers in order; whether one of them raised. -/
def observe (outcome : CommandDeliveryOutcome) (claim : Claim) : List Nat → Action Obj Bool
  | [] => return false
  | i :: is => do
    let failed ← Action.failed (.attempt (.observer i outcome claim) id)
    let others ← observe outcome claim is
    return failed || others

/-- Whether the durable store was told of an outcome and raised. -/
def storeFailed (outcome : CommandDeliveryOutcome) (applyDurable : Bool) (claim : Claim) :
    Action Obj Bool :=
  match L.durableJobController with
  | some c => if applyDurable then .failed (applyOutcome c outcome claim) else pure false
  | none => pure false

/-- `_notify_command_outcome`. -/
def notifyCommandOutcome (e : MessageEnvelope) (status : CommandDeliveryStatus)
    (sourceQueue : String) (destinationQueue : Option String) (retryCount maxRetries : Nat)
    (applyDurable : Bool) (claim : Claim) : Action Obj Unit :=
  .when (e.messageKind = .str "command") do
    let outcome :=
      commandDeliveryOutcome e status sourceQueue destinationQueue retryCount maxRetries
    let storeFailed ← L.storeFailed outcome applyDurable claim
    let observerFailed ← observe outcome claim (List.range L.commandDeliveryObservers)
    .when (storeFailed || observerFailed) (throw (.deliveryObservation
      "command delivery observer failed after a known message settlement"))

/-- `_checkpoint_durable_settlement`. -/
def checkpointDurableSettlement (e : MessageEnvelope) (status : CommandDeliveryStatus)
    (sourceQueue : String) (destinationQueue : Option String) (retryCount maxRetries : Nat)
    (lastAttemptAt : Option Instant) (claim : Claim) : Action Obj Unit :=
  match L.durableJobController with
  | none => pure ()
  | some c =>
    tryCatch (checkpoint c e status sourceQueue destinationQueue retryCount maxRetries
      lastAttemptAt claim) fun _ =>
      restoreClaimedCommandAndAbort sourceQueue e "durable job settlement checkpoint failed"
        .workerAbort claim

/-- The payload of a retry: an untyped mapping carries the retry state itself. -/
def retryPayload (e : MessageEnvelope) (typed : Bool) (now : Instant) (retries : Nat) : Value :=
  match typed, e.payload with
  | false, .dict d => .dict (nextRetryPayload d now retries)
  | _, payload => payload

/-- `_requeue`. -/
def requeue (channel : String) (e : MessageEnvelope) (maxRetries : Nat) (claim : Claim) :
    Action Obj Unit := do
  let retries ← .lift (L.retryCount e)
  let delay := L.retryPolicy.nextDelay retries
  .when (0 < delay) (.attempt (.sleepFn delay) id)
  let now ← .ask .now
  let payload := retryPayload e (← .lift (L.isTyped e)) now retries
  let headers := set (set e.headers "retries" (.int (retries + 1))) "last_attempt"
    (.str (datetimeIsoformat (.utc now)))
  L.checkpointDurableSettlement e .retryScheduled channel (some channel) (retries + 1) maxRetries
    (some now) claim
  settleAfterClaim "retry requeue"
    (publishEnvelope channel { e with payload, headers } claim)
  ackClaim claim
  L.notifyCommandOutcome e .retryScheduled channel (some channel) (retries + 1) maxRetries true
    claim

/-- `_dead_letter`. -/
def deadLetter (channel : String) (e : MessageEnvelope) (maxRetries : Nat) (claim : Claim) :
    Action Obj Unit := do
  let headers := set e.headers "dead_lettered_from" (.str channel)
  let retries ← .lift (L.retryCount e)
  L.checkpointDurableSettlement e .deadLettered channel (some L.deadLetterChannel) retries
    maxRetries none claim
  settleAfterClaim "dead-letter publication"
    (publishEnvelope L.deadLetterChannel { e with headers } claim)
  ackClaim claim
  L.notifyCommandOutcome e .deadLettered channel (some L.deadLetterChannel) retries maxRetries true
    claim

/-- `_handle_failed_delivery`. -/
def handleFailedDelivery (channel : String) (e : MessageEnvelope) (spec : HandlerSpec)
    (claim : Claim) : Action Obj Unit := do
  let maxRetries := L.maxRetriesOf spec
  if (← .lift (L.retryCount e)) < maxRetries then
    .when (0 < spec.delay) (.ask (.sleep spec.delay))
    L.requeue channel e maxRetries claim
  else L.deadLetter channel e maxRetries claim

/-- `_continue_processing`. -/
def continueProcessing (channel : String) (e : MessageEnvelope) (continuation : ContinueProcessing)
    (maxRetries : Nat) (claim : Claim) : Action Obj Unit := do
  let target := continuation.queue.getD channel
  .when (target = L.deadLetterChannel) (throw (.valueError "dead-letter channel is terminal"))
  .when (continuation.queue.isSome && target ≠ channel &&
      L.topology.any (fun t => !t.hasQueue target))
    (throw (.valueError ("Unknown continuation queue: " ++ target)))
  .when (0 < continuation.delay) (tryCatch (.attempt (.sleepFn continuation.delay) id) fun _ =>
    throw (.indeterminateDelivery "continuation delay failed after message claim"))
  let retries ← .lift (L.retryCount e)
  L.checkpointDurableSettlement e .continued channel (some target) retries maxRetries none claim
  settleAfterClaim "continuation" (publishEnvelope target e claim)
  ackClaim claim
  L.notifyCommandOutcome e .continued channel (some target) retries maxRetries true claim

/-- `_verify_durable_configuration`. -/
def verifyDurableConfiguration (channel : String) (e : MessageEnvelope) (claim : Claim) :
    Action Obj Unit :=
  match DurableJobController.identity e with
  | .error _ =>
    restoreClaimedCommandAndAbort channel e "durable job metadata is invalid" .workerAbort claim
  | .ok none => pure ()
  | .ok (some _) =>
    if L.durableJobController.isNone then
      restoreClaimedCommandAndAbort channel e "durable job store is not configured on this worker"
        .workerAbort claim
    else if e.messageKind ≠ .str "command" then
      restoreClaimedCommandAndAbort channel e
        "durable delivery metadata is valid only on commands" .workerAbort claim
    else pure ()

/-- `_admit_durable_delivery`. -/
def admitDurableDelivery (channel : String) (e : MessageEnvelope) (maxRetries : Nat)
    (claim : Claim) : Action Obj Bool := do
  match L.durableJobController with
  | none => return true
  | some c =>
    let decision ← tryCatch
      (do admitEnvelope c e channel (← .lift (L.retryCount e)) maxRetries claim)
      fun _ => restoreClaimedCommandAndAbort channel e "durable job admission failed" .workerAbort
        claim
    match decision with
    | none | some .proceed => return true
    | some .drop => return false
    | some .abort =>
      restoreClaimedCommandAndAbort channel e "durable job admission could not be verified"
        .workerAbort claim

/-- `_consume_envelope`: the first channel that has a message. -/
def consumeEnvelope (timeout : Nat) :
    List String → Action Obj (Option (String × MessageEnvelope × Claim))
  | [] => return none
  | channel :: channels => do
    let state ← .own
    match ← .attempt (.consume channel timeout state.claims) id with
    | none => consumeEnvelope timeout channels
    | some message =>
      .update fun s => s.claimed 1
      let claim : Claim := ⟨message.receipt, state.claims⟩
      let now ← .ask .now
      match MessageEnvelope.read now message.bytes with
      | .ok e => return some (channel, e, claim)
      | .error exc =>
        L.deadLetterUndecodable channel message.bytes exc claim
        return none

/-- Read the messages of a batch; what cannot be read is dead-lettered. -/
def decodeBatch (buffer : String) :
    List (RawMessage × Nat) → Action Obj (List (MessageEnvelope × Message Obj × Claim))
  | [] => return []
  | (message, number) :: rest => do
    let claim : Claim := ⟨message.receipt, number⟩
    let now ← .ask .now
    let decoded := (MessageEnvelope.read now message.bytes).bind fun e =>
      (L.dispatcher.decode e).map fun event => (e, event)
    match decoded with
    | .ok (e, event) => return (e, event, claim) :: (← decodeBatch buffer rest)
    | .error exc =>
      L.deadLetterUndecodable buffer message.bytes exc claim
      decodeBatch buffer rest

/-- Settle the messages of a batch whose handler raised; whether one of them was requeued. -/
def requeueBatch (buffer : String) (maxRetries : Nat) :
    List (MessageEnvelope × Claim) → Action Obj Bool
  | [] => return false
  | (e, claim) :: rest => do
    if (← .lift (L.retryCount e)) < maxRetries then
      L.requeue buffer e maxRetries claim
      let _ ← requeueBatch buffer maxRetries rest
      return true
    else
      L.deadLetter buffer e maxRetries claim
      requeueBatch buffer maxRetries rest

def ackAll : List Claim → Action Obj Unit
  | [] => return ()
  | claim :: claims => do
    ackClaim claim
    ackAll claims

/-- The `except` clause of `_flush_batch`. -/
def flushFailed (messageType : String) (h : Handler) (batch : List (MessageEnvelope × Claim)) :
    Action Obj Unit := do
  if ← L.requeueBatch (batchedBufferKey messageType) (L.maxRetriesOf h.spec) batch then
    let now ← .ask .now
    .update fun s => s.backingOff messageType (now + h.spec.maxWait * 1000000)
  else .update fun s => s.notBackingOff messageType

/-- Hand a batch to its handler and settle it. -/
def flushEvents (messageType : String) (h : Handler)
    (batch : List (MessageEnvelope × Message Obj × Claim)) : Action Obj Unit := do
  if ← .failed (.attempt (.batchHandler h (batch.map (·.2.1)) (batch.map (·.2.2))) id) then
    L.flushFailed messageType h (batch.map fun m => (m.1, m.2.2))
  else
    ackAll (batch.map (·.2.2))
    .update fun s => (s.notStarted messageType).notBackingOff messageType

/-- `_flush_batch`. -/
def flushBatch (messageType : String) (h : Handler) : Action Obj Unit := do
  let buffer := batchedBufferKey messageType
  let first := (← .own).claims
  let messages ← .attempt (.consumeMany buffer h.spec.batchSize first) id
  .update fun s => s.claimed messages.length
  if messages.isEmpty then return ()
  else
    let batch ← L.decodeBatch buffer (messages.zipIdx first)
    if batch.isEmpty then .update fun s => (s.notStarted messageType).notBackingOff messageType
    else L.flushEvents messageType h batch

/-- `_batch_in_backoff`. -/
def batchInBackoff (messageType : String) : Action Obj Bool := do
  match (← .own).batchRetryAfter.lookup messageType with
  | none => return false
  | some retryAt => return decide ((← .ask .now) < retryAt)

/-- Whether a buffer of this size, first seen at `startedAt`, is to be flushed. -/
def batchReady (spec : HandlerSpec) (size : Nat) (startedAt : Instant) : Action Obj Bool :=
  if spec.batchSize ≤ size then pure true
  else do
    let now ← .ask .now
    return decide ((spec.maxWait : Int) * 1000000 ≤ now - startedAt)

/-- Flush a buffer that is not backing off, if it is ready. -/
def flushBuffer (messageType : String) (h : Handler) : Action Obj Unit := do
  let size ← .attempt (.size (batchedBufferKey messageType)) id
  if size = 0 then .update fun s => s.notStarted messageType
  else
    let now ← .ask .now
    let startedAt := ((← .own).batchStartedAt.lookup messageType).getD now
    .update fun s => s.started messageType startedAt
    .when (← batchReady h.spec size startedAt) (L.flushBatch messageType h)

/-- One handler of the loop in `_flush_ready_batches`. -/
def flushIfReady (messageType : String) (h : Handler) : Action Obj Unit :=
  .when h.spec.isBatched do
    .when (!(← batchInBackoff messageType)) (L.flushBuffer messageType h)

def flushHandlers (messageType : String) : List Handler → Action Obj Unit
  | [] => return ()
  | h :: hs => do
    L.flushIfReady messageType h
    flushHandlers messageType hs

def flushItems : List (MessageKey × List Handler) → Action Obj Unit
  | [] => return ()
  | ((kind, messageType), hs) :: items => do
    .when (kind = "event") (L.flushHandlers messageType hs)
    flushItems items

/-- `_flush_ready_batches`. -/
def flushReadyBatches : Action Obj Unit :=
  .when (L.hasSize && L.hasConsumeMany) (L.flushItems L.dispatcher.registry.items)

/-- Note the start of a batch that is still empty. -/
def startBatch (messageType : String) : Action Obj Unit := do
  let size ← .attempt (.size (batchedBufferKey messageType)) id
  .when (size = 0) do
    let now ← .ask .now
    .update fun s => s.started messageType now

/-- `_buffer_batched_message`. -/
def bufferBatchedMessage (messageType : String) (e : MessageEnvelope) (claim : Claim) :
    Action Obj Unit :=
  .when L.hasSize do
    startBatch messageType
    settleAfterClaim "batch buffering" (publishEnvelope (batchedBufferKey messageType) e claim)
    ackClaim claim

/-- `_should_delay`. -/
def shouldDelay (e : MessageEnvelope) (spec : HandlerSpec) : Action Obj Bool := do
  if spec.delay = 0 then return false
  let typed ← .lift (L.isTyped e)
  match resolveLastAttempt (if typed then none else some e.payload) e.headers with
  | none => return false
  | some lastAttempt =>
    return decide ((← .ask .now) - lastAttempt < (spec.delay : Int) * 1000000)

/-- The call of one handler; nothing if it raised. -/
def callHandler (h : Handler) (message : Message Obj) (e : MessageEnvelope) (claim : Claim) :
    Action Obj (Option (HandlerResult Obj)) :=
  tryCatch (some <$> .attempt (.handler h message e claim) id) fun _ => pure none

/-- A result about recurrence that does not come from a durable command. -/
def misplaced (result : HandlerResult Obj) (e : MessageEnvelope) (durable : Bool) : Bool :=
  result.isRecurrence && (e.messageKind ≠ .str "command" || !durable)

/-- One round of the loop over the handlers: a result to collect, or nothing once the claim has
been settled. -/
def runHandler (channel : String) (e : MessageEnvelope) (message : Message Obj) (durable : Bool)
    (claim : Claim) (h : Handler) : Action Obj (Option (HandlerResult Obj)) := do
  .when (← L.shouldDelay e h.spec) (.ask (.sleep h.spec.delay))
  match ← callHandler h message e claim with
  | none =>
    L.handleFailedDelivery channel e h.spec claim
    return none
  | some (.continueProcessing continuation) =>
    L.continueProcessing channel e continuation (L.maxRetriesOf h.spec) claim
    return none
  | some result =>
    if misplaced result e durable then
      L.handleFailedDelivery channel e h.spec claim
      return none
    else return some result

/-- The loop over the handlers: their results, or nothing once the claim has been settled. -/
def runHandlers (channel : String) (e : MessageEnvelope) (message : Message Obj) (durable : Bool)
    (claim : Claim) : List Handler → Action Obj (Option (List (HandlerResult Obj)))
  | [] => return some []
  | h :: hs => do
    match ← L.runHandler channel e message durable claim h with
    | none => return none
    | some result =>
      return (← runHandlers channel e message durable claim hs).map (result :: ·)

/-- What follows a failed `STARTED` observer: the delivery is given back. -/
def giveBack (channel : String) (e : MessageEnvelope) (durable : Bool) (claim : Claim) :
    Action Obj Unit := do
  match durable, L.durableJobController with
  | true, some c =>
    tryCatch (release c e claim) fun _ =>
      throw (.indeterminateDelivery "durable job admission could not be released")
    restoreClaimedCommandAndAbort channel e "command delivery start observation failed"
      .deliveryObservation claim
  | _, _ =>
    restoreClaimedCommandAndAbort channel e "command delivery start observation failed"
      .deliveryObservation claim

/-- Announce the start of a command, which has to have one handler. -/
def announceStart (channel : String) (e : MessageEnvelope) (hs : List Handler) (durable : Bool)
    (maxRetries : Nat) (claim : Claim) : Action Obj Unit :=
  if hs.length ≠ 1 then
    restoreClaimedCommandAndAbort channel e
      "command delivery outcomes require exactly one handler" .workerAbort claim
  else do
    let retries ← .lift (L.retryCount e)
    tryCatch (L.notifyCommandOutcome e .started channel none retries maxRetries true claim)
      fun exc =>
        match exc with
        | .deliveryObservation _ => L.giveBack channel e durable claim
        | exc => throw exc

/-- Record the success of a durable command; whether it was recorded, or a failed delivery was
settled instead. -/
def recordSuccess (channel : String) (e : MessageEnvelope) (h : Handler)
    (result : HandlerResult Obj) (maxRetries : Nat) (claim : Claim) (c : DurableConfiguration) :
    Action Obj Bool := do
  let retries ← .lift (L.retryCount e)
  let outcome := commandDeliveryOutcome e .succeeded channel none retries maxRetries
  let completedAt ← .ask .now
  let recorded ← tryCatch (do completeSuccess c outcome result completedAt claim; return true)
    fun exc =>
      match exc with
      | .invalidMessageDefinition _ => return false
      | _ => throw (.deliveryObservation
          "durable job success settlement failed after handler completion")
  if recorded then return true
  else
    L.handleFailedDelivery channel e h.spec claim
    return false

/-- Observe the success of a command and return what its handlers returned. -/
def announceSuccess (channel : String) (e : MessageEnvelope) (durable : Bool) (maxRetries : Nat)
    (claim : Claim) (results : List (HandlerResult Obj)) : Action Obj (DispatchResult Obj) := do
  let retries ← .lift (L.retryCount e)
  L.notifyCommandOutcome e .succeeded channel none retries maxRetries (!durable) claim
  return .results results

/-- What follows the loop over the handlers of an observed command. -/
def conclude (channel : String) (e : MessageEnvelope) (hs : List Handler) (durable : Bool)
    (maxRetries : Nat) (claim : Claim) (results : List (HandlerResult Obj)) :
    Action Obj (DispatchResult Obj) := do
  match durable, L.durableJobController, hs, results with
  | true, some c, h :: _, result :: _ =>
    if ← L.recordSuccess channel e h result maxRetries claim c then
      L.announceSuccess channel e durable maxRetries claim results
    else return .claimSettled
  | _, _, _, _ => L.announceSuccess channel e durable maxRetries claim results

/-- Call the handlers of a message, which are not batched. -/
def process (channel : String) (e : MessageEnvelope) (hs : List Handler) (message : Message Obj)
    (durable : Bool) (claim : Claim) : Action Obj (DispatchResult Obj) := do
  let maxRetries := L.maxRetriesOf ((hs.head?.map (·.spec)).getD {})
  let observed :=
    e.messageKind = .str "command" && (0 < L.commandDeliveryObservers || durable)
  .when observed (L.announceStart channel e hs durable maxRetries claim)
  match ← L.runHandlers channel e message durable claim hs with
  | none => return .claimSettled
  | some results =>
    if observed then L.conclude channel e hs durable maxRetries claim results
    else return .results results

/-- What `_dispatch` does once the handlers of a message are known and a durable delivery has been
admitted. -/
def deliver (channel : String) (e : MessageEnvelope) (hs : List Handler) (durable : Bool)
    (claim : Claim) : Action Obj (DispatchResult Obj) :=
  if hs.isEmpty then throw (.handlerNotFound
    ("No handlers registered for " ++ e.messageKind.text ++ ":" ++ e.messageType.text))
  else do
    let message ← .lift (L.dispatcher.decode e)
    if hs.any (·.spec.isBatched) then
      L.bufferBatchedMessage message.messageType.text e claim
      L.flushReadyBatches
      return .claimSettled
    else L.process channel e hs message durable claim

/-- Whether a durable delivery may go on; every other one may. -/
def mayProceed (channel : String) (e : MessageEnvelope) (hs : List Handler) (durable : Bool)
    (claim : Claim) : Action Obj Bool :=
  if e.messageKind = .str "command" && durable then
    if 1 < hs.length then
      restoreClaimedCommandAndAbort channel e "durable jobs require exactly one command handler"
        .workerAbort claim
    else
      L.admitDurableDelivery channel e (L.maxRetriesOf ((hs.head?.map (·.spec)).getD {})) claim
  else pure true

/-- `_dispatch`. -/
def dispatch (channel : String) (e : MessageEnvelope) (claim : Claim) :
    Action Obj (DispatchResult Obj) := do
  let hs ← .lift (L.dispatcher.registry.handlersFor e.messageKind e.messageType)
  let identity ← .lift (DurableJobController.identity e)
  if ← L.mayProceed channel e hs identity.isSome claim then
    L.deliver channel e hs identity.isSome claim
  else return .dropped

/-- `_publish_response`. -/
def publishResponse (request : MessageEnvelope) (response : ResponseMessage Obj) (claim : Claim) :
    Action Obj Unit := do
  settleAfterClaim "response publication" do
    let replyQueue := if request.replyTo.truthy then request.replyTo else .str defaultReplyQueue
    let codec := L.dispatcher.payloadCodec
    let headers ← .lift (codec.encode response.headers none)
    let payload ← .lift (codec.encode response.payload (some response.headers))
    let createdAt ← .ask .now
    let messageId ← .ask .uuid4
    match if headers.truthy then headers else .dict [] with
    | .dict headers =>
      publishEnvelope replyQueue.text {
        messageId := .str (uuidText messageId)
        messageType := response.messageType
        messageKind := .str "response"
        version := 1
        payload
        headers
        createdAt := .datetime (.utc createdAt)
        correlationId := request.correlationId
        causationId := request.messageId
        replyTo := replyQueue
        expiresAt := response.expiresAt
        contentType := response.contentType
        contentEncoding := response.contentEncoding } claim
    | _ => throw (.serialization "Unable to serialize value as JSON")
  ackClaim claim

/-- The `except` clauses of `listen_once`: settle a delivery whose dispatch raised. -/
def recover (channel : String) (e : MessageEnvelope) (exc : Exc) (claim : Claim) :
    Action Obj Unit :=
  let maxRetries := L.retryPolicy.maxRetries
  if exc.stopsWorker then throw exc
  else
    match exc with
    | .handlerNotFound _ => L.deadLetter channel e maxRetries claim
    | _ => do
      if ← .lift (L.shouldRetry e) then L.requeue channel e maxRetries claim
      else L.deadLetter channel e maxRetries claim

/-- What `listen_once` does with what dispatch returned. -/
def finish (e : MessageEnvelope) (claim : Claim) :
    DispatchResult Obj → Action Obj (Option (List (HandlerResult Obj)))
  | .claimSettled => return none
  | .dropped => do
    ackClaim claim
    return none
  | .results results => do
    match results with
    | [.response response] =>
      if e.messageKind = .str "request" then L.publishResponse e response claim
      else ackClaim claim
    | _ => ackClaim claim
    return some results

/-- What `listen_once` does with a message it has claimed and read. -/
def settle (channel : String) (e : MessageEnvelope) (claim : Claim) :
    Action Obj (Option (List (HandlerResult Obj))) := do
  L.verifyDurableConfiguration channel e claim
  let result ← tryCatch (L.dispatch channel e claim) fun exc => do
    L.recover channel e exc claim
    return .claimSettled
  L.finish e claim result

/-- `_active_channels`. -/
def activeChannels (channels : List String) : List String :=
  channels.filter (· ≠ L.deadLetterChannel)

/-- `listen_once`. -/
def listenOnce (channels : List String) : Action Obj (Option (List (HandlerResult Obj))) := do
  L.flushReadyBatches
  let active := L.activeChannels channels
  if active.isEmpty then return none
  else
    match ← L.consumeEnvelope (if active.length = 1 then 5 else 1) active with
    | none => return none
    | some (channel, e, claim) => L.settle channel e claim

end Listener

end Pybus
