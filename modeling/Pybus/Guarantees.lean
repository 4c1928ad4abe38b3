import Pybus.Deliveries

/-! What `listen_once` guarantees for the messages it claims, over all its runs. -/
namespace Pybus

open Value Texts Interaction Listener

/-- The observers of a non-durable command are told of a final outcome after the ack of its receipt,
except of a plain success. -/
theorem final_outcomes_observed_after_ack {Obj : Type} [Texts] {L : Listener Obj}
    {channels : List String} {s : ListenerState} {tr : Trace Obj}
    {r : Except Exc (Option (List (HandlerResult Obj)))} {c : Nat} {m : RawMessage} {now : Instant}
    {e : MessageEnvelope} {h : Handler} (hrun : L.Run channels s tr r)
    (hm : (ledger c tr).message = some m) (hreceipt : m.receipt.isSome = true)
    (hread : MessageEnvelope.read now m.bytes = .ok e) (hcommand : e.messageKind = .str "command")
    (hnd : DurableJobController.identity e = .ok none)
    (hone : L.dispatcher.registry.handlersFor e.messageKind e.messageType = .ok [h]) :
    ObservedAfterAck c tr ↔ L.commandDeliveryObservers = 0 ∨ ¬ ReturnedPlainly c tr := by
  rw [observedAfterAck_iff, returnedPlainly_iff]
  rcases run_listened hrun hm with ⟨e', ⟨-, now', hread'⟩, hcl⟩ | ⟨now', exc, hread', -⟩
  · obtain ⟨hkind, htype, hheaders⟩ := MessageEnvelope.read_again hread hread'
    have hnd' : DurableJobController.identity e' = .ok none := by
      rw [← hnd, DurableJobController.identity, DurableJobController.identity, hheaders]
    have hearly := hcl.account.early h (by rw [hkind, htype, hone]) hnd'
    have hobserves : L.Observes e' ↔ L.commandDeliveryObservers ≠ 0 := by
      rw [Observes, hkind, hcommand, Nat.pos_iff_ne_zero]
      exact and_iff_right rfl
    rw [← Bool.not_eq_true, hearly, hobserves]
    simp only [hreceipt, true_and]
    by_cases ho : L.commandDeliveryObservers = 0
    · simp [ho]
    · simp [ho]
  · have herror : MessageEnvelope.read now m.bytes = .error exc :=
      MessageEnvelope.read_error hread'
    rw [hread] at herror
    cases herror

section Sample

local instance sampleTexts : Texts := .sample

/-- Surroundings in which everything works, but for what the fields say otherwise. -/
structure SampleWorld where
  inbox : List RawMessage
  handled : Except Exc (HandlerResult Unit) := .ok .none
  observed : Except Exc Unit := .ok ()
  published : Except Exc Unit := .ok ()
  sizes : List (Except Exc Nat) := []

def SampleWorld.answer (w : SampleWorld) : (o : Call Unit) → o.Answer × SampleWorld
  | .consume _ _ _ => (.ok w.inbox.head?, { w with inbox := w.inbox.tail })
  | .consumeMany _ _ _ => (.ok [], w)
  | .size _ => (w.sizes.headD (.ok 0), { w with sizes := w.sizes.tail })
  | .publish _ _ _ => (w.published, w)
  | .ack _ _ => (.ok (), w)
  | .handler _ _ _ _ => (w.handled, w)
  | .batchHandler _ _ _ => (.ok (), w)
  | .observer _ o _ => (if o.status = .started then .ok () else w.observed, w)
  | .store (.admitDelivery _) _ => (.ok .drop, w)
  | .store _ _ => (.error (.runtimeError "no such call"), w)
  | .publisher _ _ => (.ok (), w)
  | .sleepFn _ => (.ok (), w)
  | .sleep _ => ((), w)
  | .now => (0, w)
  | .uuid4 => (1, w)

def sampleHandler : Handler := ⟨1, none⟩

def sampleBatchedHandler : Handler := ⟨2, some { isBatched := true }⟩

def sampleRegistry : Registry Unit where
  handlers := [(("command", "invoice.send"), [sampleHandler]),
    (("event", "invoice.sent"), [sampleBatchedHandler])]
  messageClasses := []
  keys_nodup := by decide
  batched_alone := by decide

/-- A listener with one observer and a durable store. -/
def sampleListener : Listener Unit where
  dispatcher := {
    registry := sampleRegistry
    payloadCodec := {
      encode := fun _ _ => .ok (.dict [])
      decode := fun _ _ => .ok ()
      isMapping := fun _ => true } }
  commandDeliveryObservers := 1
  durableJobController := some {}

def sampleMessage (kind type : Value) (headers : Dict) : RawMessage where
  bytes := .json (.dict [("message_id", .str "m1"), ("message_type", type),
    ("message_kind", kind), ("version", .int 1), ("payload", .dict []),
    ("headers", .dict headers)])
  receipt := some "r1"

def sampleCommand : RawMessage := sampleMessage (.str "command") (.str "invoice.send") []

/-- What the sample listener does with one message. -/
def samplePlay (w : SampleWorld) :
    Trace Unit × Except Exc (Option (List (HandlerResult Unit))) × ListenerState :=
  (sampleListener.listenOnce ["pybus.jobs"] {}).play SampleWorld.answer w

theorem samplePlay_run (w : SampleWorld) :
    sampleListener.Run ["pybus.jobs"] {} (samplePlay w).1 (samplePlay w).2.1 :=
  ⟨(samplePlay w).2.2, Prog.play_runs⟩

theorem sampleCommand_read : ∃ e, MessageEnvelope.read 0 sampleCommand.bytes = .ok e ∧
    e.messageKind = .str "command" ∧ DurableJobController.identity e = .ok none ∧
    sampleRegistry.handlersFor e.messageKind e.messageType = .ok [sampleHandler] :=
  ⟨_, rfl, rfl, rfl, by decide⟩

/-- The observer of a success raises, so that a handler that returned leaves its receipt unacked. -/
theorem success_observed_before_ack : ∃ tr r e, sampleListener.Run ["pybus.jobs"] {} tr r ∧
    (ledger 0 tr).message = some sampleCommand ∧
    MessageEnvelope.read 0 sampleCommand.bytes = .ok e ∧ e.messageKind = .str "command" ∧
    DurableJobController.identity e = .ok none ∧
    sampleRegistry.handlersFor e.messageKind e.messageType = .ok [sampleHandler] ∧
    ¬ ObservedAfterAck 0 tr ∧ ReturnedPlainly 0 tr ∧ (ledger 0 tr).acks = 0 := by
  obtain ⟨e, he⟩ := sampleCommand_read
  let w : SampleWorld := { inbox := [sampleCommand], observed := .error (.runtimeError "observer") }
  refine ⟨(samplePlay w).1, (samplePlay w).2.1, e, samplePlay_run w, by decide, he.1,
    he.2.1, he.2.2.1, he.2.2.2, ?_, ?_, by decide⟩
  · rw [observedAfterAck_iff]
    decide
  · rw [returnedPlainly_iff]
    decide

/-- The handler raises, and its retry is observed after the ack. -/
theorem final_outcomes_observed_after_ack_retry : ∃ tr r, sampleListener.Run ["pybus.jobs"] {} tr r ∧
    (ledger 0 tr).acks = 1 ∧ ObservedAfterAck 0 tr := by
  obtain ⟨e, he⟩ := sampleCommand_read
  let w : SampleWorld := { inbox := [sampleCommand], handled := .error (.runtimeError "handler") }
  refine ⟨(samplePlay w).1, (samplePlay w).2.1, samplePlay_run w, by decide +kernel, ?_⟩
  refine (final_outcomes_observed_after_ack (samplePlay_run w) (m := sampleCommand)
    (by decide +kernel) rfl he.1 he.2.1 he.2.2.1 he.2.2.2).mpr (.inr ?_)
  rw [returnedPlainly_iff]
  decide +kernel

end Sample

section Sample

local instance sampleTexts₁ : Texts := .sample

def sampleEvent : RawMessage := sampleMessage (.str "event") (.str "invoice.sent") []

end Sample

section Sample

local instance sampleTexts₂ : Texts := .sample

end Sample

section Sample

local instance sampleTexts₃ : Texts := .sample

def sampleDelivery : RawMessage := sampleMessage (.str "command") (.str "invoice.send")
  [(durableRecordHeader, .str "00000000-0000-0000-0000-000000000001"),
    (durableGenerationHeader, .int 1)]

end Sample

end Pybus
