import Pybus.Interaction.Program
import Pybus.Store

/-! What the listener and the runner call: the transport, handlers, observers, the store, the clock.
Every call may raise unless it only looks at a clock or makes up an identifier. -/
namespace Pybus

open Interaction

/-- The bytes a transport hands over, with the receipt of a backend that has receipts. -/
structure RawMessage where
  bytes : Raw
  receipt : Option String := none
  deriving DecidableEq

/-- A claimed message: its receipt, and a number that tells the claims of one listener apart. The
code passes the receipt around; the number only names in every call which claim it settles. -/
structure Claim where
  receipt : Option String
  number : Nat
  deriving DecidableEq

/-- The calls, each that is about a claim together with that claim. A call of `consume` or
`consumeMany` carries the number that the first message it returns will get, and a runner calls its
store about no claim. -/
inductive Call (Obj : Type)
  | consume (channel : String) (timeout : Nat) (next : Nat)
  | consumeMany (channel : String) (limit : Nat) (next : Nat)
  | size (channel : String)
  | publish (channel : String) (message : Raw) (claim : Claim)
  | ack (receipt : String) (claim : Claim)
  | handler (h : Handler) (message : Message Obj) (envelope : MessageEnvelope) (claim : Claim)
  | batchHandler (h : Handler) (messages : List (Message Obj)) (claims : List Claim)
  | observer (index : Nat) (outcome : CommandDeliveryOutcome) (claim : Claim)
  | store (op : StoreOp) (claim : Option Claim)
  | publisher (envelope : MessageEnvelope) (queue : String)
  | sleepFn (seconds : Rat)
  | sleep (seconds : Nat)
  | now
  | uuid4

/-- The answer to each call. -/
abbrev Call.Answer {Obj : Type} : Call Obj → Type
  | consume _ _ _ => Except Exc (Option RawMessage)
  | consumeMany _ _ _ => Except Exc (List RawMessage)
  | size _ => Except Exc Nat
  | handler _ _ _ _ => Except Exc (HandlerResult Obj)
  | store op _ => Except Exc op.Result
  | sleep _ => Unit
  | now => Instant
  | uuid4 => Uuid
  | _ => Except Exc Unit

/-- The signature of all calls. -/
abbrev Calls (Obj : Type) : Signature where
  Op := Call Obj
  Res := Call.Answer

/-- `d[key] = value` for a dictionary of the listener's state. -/
def dictSet (d : List (String × Instant)) (key : String) (value : Instant) :
    List (String × Instant) :=
  (key, value) :: d.filter (·.1 ≠ key)

/-- `d.pop(key, None)`. -/
def dictPop (d : List (String × Instant)) (key : String) : List (String × Instant) :=
  d.filter (·.1 ≠ key)

/-- The dictionaries a listener keeps, and how many messages it has claimed so far. -/
structure ListenerState where
  batchStartedAt : List (String × Instant) := []
  batchRetryAfter : List (String × Instant) := []
  claims : Nat := 0
  deriving DecidableEq

namespace ListenerState

def started (s : ListenerState) (messageType : String) (t : Instant) : ListenerState :=
  { s with batchStartedAt := dictSet s.batchStartedAt messageType t }

def notStarted (s : ListenerState) (messageType : String) : ListenerState :=
  { s with batchStartedAt := dictPop s.batchStartedAt messageType }

def backingOff (s : ListenerState) (messageType : String) (t : Instant) : ListenerState :=
  { s with batchRetryAfter := dictSet s.batchRetryAfter messageType t }

def notBackingOff (s : ListenerState) (messageType : String) : ListenerState :=
  { s with batchRetryAfter := dictPop s.batchRetryAfter messageType }

/-- The next `n` messages have been claimed. -/
def claimed (s : ListenerState) (n : Nat) : ListenerState := { s with claims := s.claims + n }

end ListenerState

/-- A method of the listener: it calls out, changes the listener's state and may raise. -/
abbrev Action (Obj : Type) (α : Type) : Type := Routine (Calls Obj) ListenerState Exc α

namespace Action

variable {Obj α : Type}

/-- Make a call that cannot fail. -/
def ask (c : Call Obj) : Action Obj c.Answer := Routine.ask (S := Calls Obj) c

/-- Make a call and take over what it returns or raises. -/
def attempt (c : Call Obj) (f : c.Answer → Except Exc α) : Action Obj α :=
  Routine.attempt (S := Calls Obj) c f

/-- Read the listener's state. -/
def own : Action Obj ListenerState := Routine.own

/-- Change the listener's state. -/
def update (f : ListenerState → ListenerState) : Action Obj Unit := Routine.update f

/-- Take over an already computed result. -/
def lift (r : Except Exc α) : Action Obj α := Routine.lift r

/-- An `if` without an `else`. -/
def when (b : Bool) (p : Action Obj Unit) : Action Obj Unit := if b then p else pure ()

/-- `except Exception` around a part that then counts as failed. -/
def failed (p : Action Obj Unit) : Action Obj Bool :=
  tryCatch (do p; return false) fun _ => return true

variable {G : Type} {M : Monitor (Calls Obj) G} {g : G} {s : ListenerState}

@[simp] theorem meets_ask {c : Call Obj} {Q : G → ListenerState → Except Exc c.Answer → Prop} :
    (ask c).Meets M Q g s ↔ M.permits g c ∧ ∀ r, M.assumes g c r → Q (M.next g c r) s (.ok r) :=
  Iff.rfl

@[simp] theorem meets_now {Q : G → ListenerState → Except Exc Instant → Prop} :
    (ask .now : Action Obj Instant).Meets M Q g s ↔
      M.permits g .now ∧ ∀ r, M.assumes g .now r → Q (M.next g .now r) s (.ok r) := Iff.rfl

@[simp] theorem meets_uuid4 {Q : G → ListenerState → Except Exc Uuid → Prop} :
    (ask .uuid4 : Action Obj Uuid).Meets M Q g s ↔
      M.permits g .uuid4 ∧ ∀ r, M.assumes g .uuid4 r → Q (M.next g .uuid4 r) s (.ok r) := Iff.rfl

@[simp] theorem meets_sleep {d : Nat} {Q : G → ListenerState → Except Exc Unit → Prop} :
    (ask (.sleep d) : Action Obj Unit).Meets M Q g s ↔
      M.permits g (.sleep d) ∧ ∀ r, M.assumes g (.sleep d) r →
        Q (M.next g (.sleep d) r) s (.ok r) := Iff.rfl

@[simp] theorem meets_when {b : Bool} {p : Action Obj Unit}
    {Q : G → ListenerState → Except Exc Unit → Prop} :
    (when b p).Meets M Q g s ↔ if b then p.Meets M Q g s else Q g s (.ok ()) := by
  unfold when
  split <;> rfl

@[simp] theorem meets_attempt {c : Call Obj} {f : c.Answer → Except Exc α}
    {Q : G → ListenerState → Except Exc α → Prop} :
    (attempt c f).Meets M Q g s ↔
      M.permits g c ∧ ∀ r, M.assumes g c r → Q (M.next g c r) s (f r) := Iff.rfl

@[simp] theorem meets_own {Q : G → ListenerState → Except Exc ListenerState → Prop} :
    (own : Action Obj ListenerState).Meets M Q g s ↔ Q g s (.ok s) := Iff.rfl

@[simp] theorem meets_update {f : ListenerState → ListenerState}
    {Q : G → ListenerState → Except Exc Unit → Prop} :
    (update f : Action Obj Unit).Meets M Q g s ↔ Q g (f s) (.ok ()) := Iff.rfl

@[simp] theorem meets_lift {r : Except Exc α} {Q : G → ListenerState → Except Exc α → Prop} :
    (lift r : Action Obj α).Meets M Q g s ↔ Q g s r := Routine.meets_lift

variable {β : Type} {f : α → Action Obj β} {R : G → ListenerState → Except Exc β → Prop}

theorem meets_lift_bind {a : α} {r : Except Exc α} (h : r = .ok a)
    (hf : (f a).Meets M R g s) : (lift r >>= f).Meets M R g s := by
  subst h
  exact hf

theorem meets_lift_bind_error {exc : Exc} {r : Except Exc α} (h : r = .error exc)
    (hR : R g s (.error exc)) : (lift r >>= f).Meets M R g s := by
  subst h
  exact hR

/-- A check that may raise, and what comes after it. -/
theorem meets_check_bind {b : Bool} {exc : Exc} {f : Unit → Action Obj β}
    (hraise : b = true → R g s (.error exc)) (hf : b = false → (f ()).Meets M R g s) :
    (when b (throw exc) >>= f).Meets M R g s := by
  cases b with
  | true => exact hraise rfl
  | false => exact hf rfl

theorem meets_now_bind {f : Instant → Action Obj β} :
    (ask .now >>= f).Meets M R g s ↔ M.permits g .now ∧ ∀ t, M.assumes g .now t →
      (f t).Meets M R (M.next g .now t) s := Iff.rfl

theorem meets_uuid4_bind {f : Uuid → Action Obj β} :
    (ask .uuid4 >>= f).Meets M R g s ↔ M.permits g .uuid4 ∧ ∀ u, M.assumes g .uuid4 u →
      (f u).Meets M R (M.next g .uuid4 u) s := Iff.rfl

theorem meets_own_bind {f : ListenerState → Action Obj β} :
    (own >>= f).Meets M R g s ↔ (f s).Meets M R g s := Iff.rfl

theorem meets_update_bind {h : ListenerState → ListenerState} {f : Unit → Action Obj β} :
    (update h >>= f).Meets M R g s ↔ (f ()).Meets M R g (h s) := Iff.rfl

theorem meets_attempt_bind {c : Call Obj} {h : c.Answer → Except Exc α} (hp : M.permits g c)
    (ok : ∀ r a, M.assumes g c r → h r = .ok a → (f a).Meets M R (M.next g c r) s)
    (error : ∀ r exc, M.assumes g c r → h r = .error exc → R (M.next g c r) s (.error exc)) :
    (attempt c h >>= f).Meets M R g s := by
  refine ⟨hp, fun r hr => ?_⟩
  cases hx : h r with
  | ok a =>
    have := ok r a hr hx
    simp only [hx]
    exact this
  | error exc =>
    have := error r exc hr hx
    simp only [hx]
    exact this

theorem meets_failed {p : Action Obj Unit} {Q : G → ListenerState → Except Exc Bool → Prop} :
    (failed p).Meets M Q g s ↔
      p.Meets M (fun g' s' r => Q g' s' (.ok (raised r).isSome)) g s := by
  rw [failed, Routine.meets_tryCatch, Routine.meets_bind]
  constructor <;> intro h <;> refine h.mono ?_ <;> rintro g' s' (e | a) hq <;> exact hq

theorem meets_failed_bind {p : Action Obj Unit} {f : Bool → Action Obj β} :
    (failed p >>= f).Meets M R g s ↔
      p.Meets M (fun g' s' r => (f (raised r).isSome).Meets M R g' s') g s := by
  rw [Routine.meets_bind, meets_failed]

end Action

/-- `QueueTopology`. -/
structure QueueTopology where
  defaultQueue : String := "pybus.jobs"
  slowQueue : String := "pybus.jobs.slow"
  deadLetterQueue : String := "pybus.jobs.failed"
  extraQueues : List String := []
  deriving DecidableEq

namespace QueueTopology

def queues (t : QueueTopology) : List String :=
  t.defaultQueue :: t.slowQueue :: t.deadLetterQueue :: t.extraQueues

def hasQueue (t : QueueTopology) (queue : String) : Bool := t.queues.contains queue

end QueueTopology

end Pybus
