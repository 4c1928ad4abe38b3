import Pybus.Failing
import Pybus.Guarantees
import Pybus.RetryState

/-! Draining a queue: how often a handler that always fails is called for one message, and what
becomes of the message. -/
namespace Pybus

open Value Texts MessageEnvelope Interaction Listener Action

section Draining

variable {Obj : Type}

/-- What waits in every queue, and how often a handler has been called. -/
structure Queues where
  waiting : String → List Raw
  handled : Nat

namespace Queues

/-- Only one message waits. -/
def holding (channel : String) (message : Raw) (handled : Nat) : Queues :=
  ⟨Function.update (fun _ => []) channel [message], handled⟩

def put (q : Queues) (channel : String) (message : Raw) : Queues :=
  { q with waiting := Function.update q.waiting channel (q.waiting channel ++ [message]) }

def drop (q : Queues) (channel : String) (n : Nat) : Queues :=
  { q with waiting := Function.update q.waiting channel ((q.waiting channel).drop n) }

end Queues

variable {answers : Nat → Except Exc (HandlerResult Obj)}

variable [Texts]

/-- The message as a consumer may read it after any number of failures: only retry bookkeeping has
changed, and what every trip over the wire changes. -/
structure Copied (L : Listener Obj) (e e' : MessageEnvelope) : Prop where
  messageId : e'.messageId.settled = e.messageId.settled
  messageType : e'.messageType.settled = e.messageType.settled
  messageKind : e'.messageKind.settled = e.messageKind.settled
  version : e'.version = e.version
  payload : L.isTyped e = .ok true → e'.payload.settled = e.payload.settled
  timed : e'.Timed
  identity : DurableJobController.identity e' = .ok none

variable {L : Listener Obj} {e e' : MessageEnvelope} {now : Instant} {raw raw' : Raw} {n : Nat}
  {channel : String}

section Copies

omit [Texts] in
theorem Copied.isTyped (h : Copied L e e') : L.isTyped e' = L.isTyped e := by
  rw [Listener.isTyped, Listener.isTyped, Registry.messageClassFor, Registry.messageClassFor,
    ← lookupKey_settled, h.messageKind, h.messageType, lookupKey_settled]

omit [Texts] in
theorem Copied.handlersFor (h : Copied L e e') :
    L.dispatcher.registry.handlersFor e'.messageKind e'.messageType =
      L.dispatcher.registry.handlersFor e.messageKind e.messageType := by
  rw [Registry.handlersFor, Registry.handlersFor, ← lookupKey_settled, h.messageKind,
    h.messageType, lookupKey_settled]

omit [Texts] in
theorem Copied.hashable (h : Copied L e e') (he : e.Hashable) : e'.Hashable := by
  obtain ⟨hkind, htype⟩ := he
  refine ⟨?_, ?_⟩
  · rw [← hashable_settled, h.messageKind, hashable_settled, hkind]
  · rw [← hashable_settled, h.messageType, hashable_settled, htype]

/-- A copy can be sent again. -/
theorem Copied.sendable (h : Copied L e e') (he : e.Hashable) (hr : read now raw = .ok e') :
    Sendable e' where
  valid := read_valid hr
  dumpable := dumpable_of_timed h.timed
  hashable := h.hashable he
  identity := h.identity

/-- A consumer reads a copy of the message with that many retries. -/
def Awaits (L : Listener Obj) (e : MessageEnvelope) (raw : Raw) (n : Nat) : Prop :=
  ∀ now, ∃ e', read now raw = .ok e' ∧ Copied L e e' ∧ L.retryCount e' = .ok n

/-- The bytes are a dead letter of the message: it has the same identity and, if it is typed, the
same payload as the message has on the wire. -/
def Buries (L : Listener Obj) (e : MessageEnvelope) (raw : Raw) : Prop :=
  ∀ now, ∃ e', read now raw = .ok e' ∧ e'.messageId = e.messageId.settled ∧
    (L.isTyped e = .ok true → e'.payload = e.payload.settled)

variable [RoundTexts]

end Copies

section Idle

variable {q : Queues} {s : ListenerState}

end Idle

/-- A message on a channel that a listener listens on, with one handler, which is not batched. -/
structure SingleHandled (L : Listener Obj) (channels : List String) (channel : String)
    (e : MessageEnvelope) (h : Handler) : Prop where
  listened : channel ∈ channels
  notTerminal : channel ≠ L.deadLetterChannel
  notBuffer : ∀ t, channel ≠ batchedBufferKey t
  deadNotBuffer : ∀ t, L.deadLetterChannel ≠ batchedBufferKey t
  handlers : L.dispatcher.registry.handlersFor e.messageKind e.messageType = .ok [h]
  unbatched : h.spec.isBatched = false
  decodes : ∀ e', Copied L e e' → ∃ message, L.dispatcher.decode e' = .ok message

section Rounds

variable {channels : List String} {h : Handler} {r₀ i : Nat} {q : Queues} {s : ListenerState}

theorem SingleHandled.hashable (hd : SingleHandled L channels channel e h) : e.Hashable := by
  by_contra hn
  have hf := hd.handlers
  rw [Registry.handlersFor_unhashable hn] at hf
  cases hf

/-- The message waits with a retry for each of the failures so far, and nothing else waits. -/
def Waiting (L : Listener Obj) (e : MessageEnvelope) (channel : String) (r₀ i : Nat) (q : Queues) :
    Prop :=
  ∃ raw, Awaits L e raw (r₀ + i) ∧ q = .holding channel raw i

/-- One dead letter of the message has been published, and nothing else waits. -/
def Terminal (L : Listener Obj) (e : MessageEnvelope) (i : Nat) (q : Queues) : Prop :=
  ∃ raw, Buries L e raw ∧ q = .holding L.deadLetterChannel raw i

/-- The handler has failed for the last time at the first failure that finds no retry left. -/
def Listener.Stops (L : Listener Obj) (channel : String) (h : Handler)
    (answers : Nat → Except Exc (HandlerResult Obj)) (r₀ i : Nat) : Prop :=
  L.limitOf channel h (answers i) ≤ r₀ + i

/-- After `n` rounds the message still waits, or it was dead-lettered at the first stop. -/
def Round (L : Listener Obj) (e : MessageEnvelope) (channel : String) (h : Handler)
    (answers : Nat → Except Exc (HandlerResult Obj)) (r₀ n : Nat) (q : Queues) : Prop :=
  (∀ i < n, ¬ L.Stops channel h answers r₀ i) ∧ Waiting L e channel r₀ n q ∨
  ∃ m < n, L.Stops channel h answers r₀ m ∧ (∀ i < m, ¬ L.Stops channel h answers r₀ i) ∧
    Terminal L e (m + 1) q

end Rounds

end Draining

section Sample

local instance drainTexts : Texts := .lawful

local instance drainRounds : RoundTexts := roundTexts_lawful

end Sample

end Pybus
