import Pybus.Envelope

/-! Handlers, the registry that finds them, and the decoding of envelopes for them. -/
namespace Pybus

open Value

/-- `ContinueProcessing`, with what `__post_init__` checks. The delay is in seconds. -/
structure ContinueProcessing where
  queue : Option String := none
  delay : Rat := 0
  queue_nonempty : ∀ q, queue = some q → ¬ q.toList.all Char.isWhitespace := by simp
  delay_nonneg : 0 ≤ delay := by first | exact noDelay_nonneg | decide
  delay_le : delay ≤ 60 := by decide

/-- `ResponseMessage`; `Obj` stands for the objects a payload codec decodes to. -/
structure ResponseMessage (Obj : Type) where
  messageType : Value
  payload : Obj
  headers : Obj
  expiresAt : Value := .null
  contentType : Value := .null
  contentEncoding : Value := .null

/-- What a handler may return, as far as the code tells results apart. -/
inductive HandlerResult (Obj : Type)
  | none
  | continueProcessing (continuation : ContinueProcessing)
  | scheduleNextOccurrence (at_ : Instant)
  | endRecurrence
  | response (message : ResponseMessage Obj)
  | value (result : Obj)

namespace HandlerResult

variable {Obj : Type}

/-- A result that is neither a continuation nor about recurrence: the handler simply succeeded. -/
def isPlain : HandlerResult Obj → Bool
  | continueProcessing _ | scheduleNextOccurrence _ | endRecurrence => false
  | _ => true

def isRecurrence : HandlerResult Obj → Bool
  | scheduleNextOccurrence _ | endRecurrence => true
  | _ => false

/-- What the handler of a recurring command may return besides a continuation. -/
def isRecurring : HandlerResult Obj → Bool
  | none | scheduleNextOccurrence _ | endRecurrence => true
  | _ => false

/-- A result as the store sees it, which tells only the kinds of results apart. -/
def forget : HandlerResult Obj → HandlerResult Unit
  | none => none
  | continueProcessing continuation => continueProcessing continuation
  | scheduleNextOccurrence nextAt => scheduleNextOccurrence nextAt
  | endRecurrence => endRecurrence
  | response _ | value _ => value ()

end HandlerResult

/-- A typed message class. `construct` is the call of the class with a decoded payload. -/
structure MessageClass (Obj : Type) where
  name : String
  messageType : String
  version : Int
  construct : Obj → Except Exc Obj

/-- `HandlerSpec`, as far as it is read after registration. -/
structure HandlerSpec where
  retryLimit : Option Nat := none
  delay : Nat := 0
  isBatched : Bool := false
  batchSize : Nat := 100
  maxWait : Nat := 10
  deriving DecidableEq, Repr

/-- A registered callable; the number stands for its identity. -/
structure Handler where
  id : Nat
  handlerSpec : Option HandlerSpec := none
  deriving DecidableEq, Repr

/-- `_spec_for`. -/
def Handler.spec (h : Handler) : HandlerSpec := h.handlerSpec.getD {}

/-- A message kind and a message type. -/
abbrev MessageKey := String × String

/-- `Registry`: both dictionaries, in insertion order. A batched handler is registered alone. -/
structure Registry (Obj : Type) where
  handlers : List (MessageKey × List Handler)
  messageClasses : List (MessageKey × MessageClass Obj)
  keys_nodup : (handlers.map (·.1)).Nodup
  batched_alone : ∀ item ∈ handlers, item.2.any (·.spec.isBatched) = true → item.2.length = 1

/-- The registry can look the message up. -/
def MessageEnvelope.Hashable (e : MessageEnvelope) : Prop :=
  e.messageKind.hashable = true ∧ e.messageType.hashable = true

instance (e : MessageEnvelope) : Decidable e.Hashable := inferInstanceAs (Decidable (_ ∧ _))

namespace Registry

variable {Obj : Type}

/-- A lookup hashes its key, and no list or dictionary has a hash. -/
def lookupKey {α : Type} (d : List (MessageKey × α)) (kind type : Value) :
    Except Exc (Option α) :=
  if !kind.hashable || !type.hashable then .error (.typeError "unhashable type")
  else
    match kind, type with
    | .str k, .str t => .ok (d.lookup (k, t))
    | _, _ => .ok none

def handlersFor (R : Registry Obj) (kind type : Value) : Except Exc (List Handler) := do
  return (← lookupKey R.handlers kind type).getD []

def messageClassFor (R : Registry Obj) (kind type : Value) :
    Except Exc (Option (MessageClass Obj)) :=
  lookupKey R.messageClasses kind type

def items (R : Registry Obj) : List (MessageKey × List Handler) := R.handlers

/-- What was entered under a key is what a lookup finds. -/
theorem handlersFor_of_mem {R : Registry Obj} {k t : String} {hs : List Handler}
    (h : ((k, t), hs) ∈ R.items) : R.handlersFor (.str k) (.str t) = .ok hs := by
  obtain ⟨l₁, l₂, hd⟩ := List.append_of_mem h
  have hnodup := R.keys_nodup
  rw [show R.handlers = _ from hd, List.map_append, List.map_cons] at hnodup
  have hl : R.handlers.lookup (k, t) = some hs := by
    refine List.lookup_eq_some_iff.mpr ⟨l₁, l₂, hd, fun p hp => ?_⟩
    have := (List.nodup_append.mp hnodup).2.2 _ (List.mem_map_of_mem hp) _ List.mem_cons_self
    simpa using Ne.symm this
  simp [handlersFor, lookupKey, hashable, hl, bind, Except.bind, pure, Except.pure]

/-- The handlers of a message of which one is batched are that handler alone. -/
theorem eq_singleton_of_batched {R : Registry Obj} {key : MessageKey} {hs : List Handler}
    {h : Handler} (hi : (key, hs) ∈ R.items) (hh : h ∈ hs) (hb : h.spec.isBatched = true) :
    hs = [h] := by
  obtain ⟨h', rfl⟩ := List.length_eq_one_iff.mp
    (R.batched_alone _ hi (List.any_eq_true.mpr ⟨h, hh, hb⟩))
  rw [List.mem_singleton.mp hh]

theorem lookupKey_hashable {α : Type} (d : List (MessageKey × α)) {kind type : Value}
    (h : kind.hashable = true ∧ type.hashable = true) :
    ∃ r, lookupKey d kind type = .ok r := by
  simp only [lookupKey, h.1, h.2, Bool.not_true, Bool.or_self, Bool.false_eq_true, if_false]
  split
  · exact ⟨_, rfl⟩
  · exact ⟨_, rfl⟩

theorem lookupKey_unhashable {α : Type} (d : List (MessageKey × α)) {kind type : Value}
    (h : ¬ (kind.hashable = true ∧ type.hashable = true)) :
    lookupKey d kind type = .error (.typeError "unhashable type") := by
  have hh : (!kind.hashable || !type.hashable) = true := by
    cases hk : kind.hashable <;> cases ht : type.hashable <;> simp_all
  simp only [lookupKey, hh, if_true]

/-- What a lookup finds was entered under the very kind and type looked up. -/
theorem mem_of_lookupKey {α : Type} {d : List (MessageKey × α)} {kind type : Value} {a : α}
    (h : lookupKey d kind type = .ok (some a)) :
    ∃ k t, kind = .str k ∧ type = .str t ∧ ((k, t), a) ∈ d := by
  unfold lookupKey at h
  split at h
  · cases h
  · split at h
    · rename_i k t hh
      injection h with h
      obtain ⟨l₁, l₂, hd, -⟩ := List.lookup_eq_some_iff.mp h
      exact ⟨_, _, rfl, rfl, by simp [hd]⟩
    · cases h

theorem handlersFor_hashable {R : Registry Obj} {kind type : Value}
    (h : kind.hashable = true ∧ type.hashable = true) :
    ∃ hs, R.handlersFor kind type = .ok hs := by
  obtain ⟨r, hr⟩ := lookupKey_hashable R.handlers h
  exact ⟨r.getD [], by simp only [handlersFor, hr]; rfl⟩

theorem handlersFor_unhashable {R : Registry Obj} {kind type : Value}
    (h : ¬ (kind.hashable = true ∧ type.hashable = true)) :
    R.handlersFor kind type = .error (.typeError "unhashable type") := by
  simp only [handlersFor, lookupKey_unhashable R.handlers h]
  rfl

/-- A handler that the registry finds is registered for the kind and type it was asked for. -/
theorem mem_items_of_handlersFor {R : Registry Obj} {kind type : Value} {hs : List Handler}
    {h : Handler} (hf : R.handlersFor kind type = .ok hs) (hh : h ∈ hs) :
    ∃ k t, kind = .str k ∧ type = .str t ∧ ((k, t), hs) ∈ R.items := by
  cases hl : lookupKey R.handlers kind type with
  | error exc => simp [handlersFor, hl, bind, Except.bind] at hf
  | ok r =>
    simp only [handlersFor, hl, bind, Except.bind, pure, Except.pure, Except.ok.injEq] at hf
    cases r with
    | none => simp [← hf] at hh
    | some l =>
      obtain rfl : l = hs := hf
      exact mem_of_lookupKey hl

end Registry

/-- A payload codec, which an application may replace by its own. -/
structure PayloadCodec (Obj : Type) where
  encode : Obj → Option Obj → Except Exc Value
  decode : Value → Option Obj → Except Exc Obj
  isMapping : Obj → Bool

/-- A decoded message: what a handler is called with. -/
structure Message (Obj : Type) where
  messageKind : Value
  messageType : Value
  content : Obj
  headers : Option Obj

structure Dispatcher (Obj : Type) where
  registry : Registry Obj
  payloadCodec : PayloadCodec Obj

namespace Dispatcher

variable {Obj : Type} [Texts]

/-- `message_class_for_kind`, followed by the check of `from_envelope`. -/
def classForKind (kind : Value) : Except Exc Unit :=
  if kind = .str "event" ∨ kind = .str "command" ∨ kind = .str "request" ∨ kind = .str "response"
  then .ok ()
  else if !kind.hashable then .error (.typeError "unhashable type")
  else .error (.invalidMessageDefinition ("Unsupported message_kind: " ++ Texts.repr kind))

/-- `decode` on an envelope. The constructed object stands for a typed message, the decoded
payload together with the headers for an untyped one. -/
def decode (D : Dispatcher Obj) (e : MessageEnvelope) : Except Exc (Message Obj) := do
  match ← D.registry.messageClassFor e.messageKind e.messageType with
  | some c =>
    if e.version ≠ c.version then
      throw (.invalidMessageDefinition ("Expected version=" ++ toString c.version ++ ", got " ++
        toString e.version))
    let headers ← D.payloadCodec.decode (.dict e.headers) none
    let payload ← D.payloadCodec.decode e.payload (some headers)
    if !D.payloadCodec.isMapping payload then
      throw (.deserialization "Typed message payload must decode to a mapping")
    match c.construct payload with
    | .ok content => return ⟨e.messageKind, .str c.messageType, content, none⟩
    | .error (.typeError _) | .error (.valueError _) | .error (.invalidMessageDefinition _) =>
      throw (.deserialization ("Invalid payload for " ++ Texts.repr e.messageType))
    | .error exc => throw exc
  | none =>
    classForKind e.messageKind
    let headers ← D.payloadCodec.decode (.dict e.headers) none
    let payload ← D.payloadCodec.decode e.payload (some headers)
    if !D.payloadCodec.isMapping headers then
      throw (.invalidMessageDefinition "headers must be a dictionary")
    return ⟨e.messageKind, e.messageType, payload, some headers⟩

end Dispatcher

end Pybus
