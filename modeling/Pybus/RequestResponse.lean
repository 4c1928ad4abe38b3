import Pybus.Calls
import Pybus.Envelope

/-! Requests and their responses: the coordinator, the two ways to wait for a response, and the calls
that both make. -/
namespace Pybus

open Value Texts Interaction

/-- `RequestResponseCoordinator`: the responses that were stored and not taken yet, and the deadlines
of the requests that `wait_for_response` waits for, by correlation id. -/
structure RequestResponseCoordinator where
  responses : Value → Option MessageEnvelope := fun _ => none
  deadlines : Value → Option Instant := fun _ => none

namespace RequestResponseCoordinator

variable (self : RequestResponseCoordinator)

/-- The deadline of a correlation id has been reached. -/
def expired (now : Instant) (correlationId : Value) : Bool :=
  (self.deadlines correlationId).any fun deadline => decide (deadline ≤ now)

/-- `_evict_expired`. -/
def evictExpired (now : Instant) : RequestResponseCoordinator where
  responses correlationId :=
    if self.expired now correlationId then none else self.responses correlationId
  deadlines correlationId :=
    if self.expired now correlationId then none else self.deadlines correlationId

/-- `store_response`. -/
def storeResponse (now : Instant) (e : MessageEnvelope) : Except Exc RequestResponseCoordinator :=
  if !e.correlationId.truthy then
    .error (.valueError "response envelope must include a correlation_id")
  else if !e.correlationId.hashable then .error (.typeError "unhashable type")
  else
    let alreadyExpired := self.expired now e.correlationId
    let self := self.evictExpired now
    .ok (if alreadyExpired then self
      else { self with responses := Function.update self.responses e.correlationId (some e) })

/-- What `take_response` and the end of `wait_for_response` leave. -/
def without (correlationId : String) : RequestResponseCoordinator where
  responses := Function.update self.responses (.str correlationId) none
  deadlines := Function.update self.deadlines (.str correlationId) none

/-- `take_response`. -/
def takeResponse (correlationId : String) : Option MessageEnvelope × RequestResponseCoordinator :=
  (self.responses (.str correlationId), self.without correlationId)

/-- The deadline that `wait_for_response` computes and enters before it waits. -/
def startWait (now : Instant) (correlationId : String) (timeout : Option Nat) :
    Option Instant × RequestResponseCoordinator :=
  match timeout with
  | none => (none, self)
  | some seconds =>
    let deadline : Instant := now + seconds * 1000000
    (some deadline,
      { self with deadlines := Function.update self.deadlines (.str correlationId) (some deadline) })

/-- What a look at the responses amounts to while the lock is held. -/
inductive Waited
  | found (e : MessageEnvelope)
  | timedOut
  | waits
  deriving DecidableEq

/-- One round of the loop of `wait_for_response`, up to where it lets go of the lock. -/
def checkResponse (now : Instant) (correlationId : String) (deadline : Option Instant) :
    Waited × RequestResponseCoordinator :=
  match self.responses (.str correlationId) with
  | some e => (.found e, self.without correlationId)
  | none => (if deadline.any fun d => decide (d ≤ now) then .timedOut else .waits, self)

variable {self : RequestResponseCoordinator} {now : Instant} {e : MessageEnvelope}

theorem storeResponse_error {exc : Exc} (h : self.storeResponse now e = .error exc) :
    e.correlationId.truthy = false ∨ e.correlationId.hashable = false := by
  unfold storeResponse at h
  split at h
  · rename_i ht
    exact .inl (by simpa using ht)
  · split at h
    · rename_i hh
      exact .inr (by simpa using hh)
    · cases h

/-- A response that can be stored is kept, unless the deadline of its request has been reached. -/
theorem storeResponse_ok (self : RequestResponseCoordinator) (now : Instant)
    (ht : e.correlationId.truthy = true) (hh : e.correlationId.hashable = true) :
    self.storeResponse now e = .ok (if self.expired now e.correlationId then self.evictExpired now
      else ⟨Function.update (self.evictExpired now).responses e.correlationId (some e),
        (self.evictExpired now).deadlines⟩) := by
  simp [storeResponse, ht, hh]

theorem evictExpired_responses {v : Value} (h : (self.evictExpired now).responses v = some e) :
    self.responses v = some e := by
  simp only [evictExpired] at h
  split at h
  · cases h
  · exact h

/-- Without deadlines nothing is evicted. -/
theorem evictExpired_of_none (h : ∀ v, self.deadlines v = none) : self.evictExpired now = self := by
  have hexpired : ∀ v, self.expired now v = false := by simp [expired, h]
  simp [evictExpired, hexpired]

end RequestResponseCoordinator

open RequestResponseCoordinator

/-- The calls about requests and responses. A reading of the clock that decides about the timeout of
a request names the request and its deadline. -/
inductive ReplyCall
  | publishRequest (requestId correlationId : String)
  | takeResponse (correlationId : String)
  | storeResponse (e : MessageEnvelope)
  | startWait (correlationId : String) (timeout : Option Nat)
  | checkResponse (requestId correlationId : String) (deadline : Option Instant)
  | consume (queue : String) (timeout : Nat)
  | publishResponse (queue : String) (message : Raw)
  | ack (receipt : String)
  | monotonic (requestId : String) (deadline : Option Instant)
  | now
  | sleep (micros : Int)
  deriving DecidableEq

abbrev ReplyCall.Answer : ReplyCall → Type
  | takeResponse _ => Option MessageEnvelope
  | startWait _ _ => Option Instant
  | checkResponse _ _ _ => Waited
  | consume _ _ => Except Exc (Option RawMessage)
  | monotonic _ _ | now => Instant
  | sleep _ => Unit
  | _ => Except Exc Unit

abbrev ReplyCalls : Signature where
  Op := ReplyCall
  Res := ReplyCall.Answer

abbrev Exchanging (α : Type) : Type := Routine ReplyCalls Unit Exc α

namespace Exchanging

variable {α : Type}

def ask (c : ReplyCall) : Exchanging c.Answer := Routine.ask (S := ReplyCalls) c

def attempt (c : ReplyCall) (f : c.Answer → Except Exc α) : Exchanging α :=
  Routine.attempt (S := ReplyCalls) c f

end Exchanging

open Exchanging

def messageTimeoutError : Exc := .other "MessageTimeoutError"

/-- Up to when a request waits, and how it consumes until then: the timeout of `consume` and the sleep
after an empty queue. -/
structure Polling where
  pollTimeout : Nat
  sleepInterval : Int
  deriving DecidableEq

/-- The looks at the clock in the loop of `_await_response`. -/
def polling (requestId : String) : Option Instant → Exchanging Polling
  | none => return ⟨1, 10000⟩
  | some deadline => do
    let now ← ask (.monotonic requestId (some deadline))
    if deadline ≤ now then throw messageTimeoutError
    let now ← ask (.monotonic requestId (some deadline))
    let remaining := deadline - now
    if remaining ≤ 0 then throw messageTimeoutError
    return if remaining < 1000000 then ⟨0, min 10000 remaining⟩ else ⟨1, 10000⟩

section Programs

variable [Texts] (requestId correlationId : String) (replyQueue : String)

/-- One round of the loop of `_await_response`: a response to return, or another round. -/
def awaitRound (deadline : Option Instant) : Exchanging (Option MessageEnvelope) := do
  match ← ask (.takeResponse correlationId) with
  | some buffered => return some buffered
  | none => do
    let p ← polling requestId deadline
    match ← attempt (.consume replyQueue p.pollTimeout) id with
    | none => do
      ask (.sleep p.sleepInterval)
      return none
    | some m => do
      let now ← ask .now
      let e ← Routine.lift (MessageEnvelope.read now m.bytes)
      attempt (.storeResponse e) id
      return none

/-- The first rounds of the loop; without a response after them the call is still waiting. -/
def awaitRounds (deadline : Option Instant) : Nat → Exchanging (Option MessageEnvelope)
  | 0 => return none
  | n + 1 => do
    match ← awaitRound requestId correlationId replyQueue deadline with
    | some e => return some e
    | none => awaitRounds deadline n

/-- `_await_response`, for a number of rounds. -/
def awaitResponse (timeout : Option Nat) (rounds : Nat) : Exchanging (Option MessageEnvelope) := do
  match timeout with
  | none => awaitRounds requestId correlationId replyQueue none rounds
  | some seconds => do
    let now ← ask (.monotonic requestId none)
    awaitRounds requestId correlationId replyQueue (some (now + seconds * 1000000)) rounds

/-- `Pybus.request` up to the response that it makes its return value from. -/
def request (timeout : Option Nat) (rounds : Nat) : Exchanging (Option MessageEnvelope) := do
  attempt (.publishRequest requestId correlationId) id
  awaitResponse requestId correlationId replyQueue timeout rounds

omit [Texts] in
/-- The loop of `wait_for_response`. -/
def waitRounds (deadline : Option Instant) : Nat → Exchanging (Option MessageEnvelope)
  | 0 => return none
  | n + 1 => do
    match ← ask (.checkResponse requestId correlationId deadline) with
    | .found e => return some e
    | .timedOut => throw messageTimeoutError
    | .waits => waitRounds deadline n

omit [Texts] in
/-- `wait_for_response`. -/
def waitForResponse (timeout : Option Nat) (rounds : Nat) : Exchanging (Option MessageEnvelope) := do
  let deadline ← ask (.startWait correlationId timeout)
  waitRounds requestId correlationId deadline rounds

end Programs

end Pybus
