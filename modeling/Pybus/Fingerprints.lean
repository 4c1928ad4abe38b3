import Pybus.ScheduleCalls

/-! The fingerprint of a scheduled command: two calls have the same one if and only if what they ask
for is the same. -/
namespace Pybus

open Value Texts
open MessageEnvelope (bind_eq_ok)

namespace Value

variable [Texts] {d d' : Dict} {k : String}

end Value

/-- What a call of `schedule_command` asks for: its payload as the document it is written as, and
the instant of its `run_at` if it has one. -/
structure ScheduleContent where
  messageType : String
  version : Int
  payload : Value
  queue : String
  runAt : Option Instant
  recurrence : Option Recurrence
  deriving DecidableEq

namespace ScheduleCommand

section Canonical

variable [Texts] {e e' : MessageEnvelope} {queue queue' : String} {t t' : Option Instant}
  {r r' : Option Recurrence}

end Canonical

section Drafts

variable {Cls : Type} [DecidableEq Cls] [Dataclasses Cls] [Texts] [DecimalTexts] [FloatTexts]
  {B B' : SchedulingBus Cls} {c c' : ScheduleCommand Cls} {x x' : CallSurroundings}
  {d d' : DurableJobDraft}

/-- What a call asks for, given the draft that is made of it. -/
def content (c : ScheduleCommand Cls) (d : DurableJobDraft) : ScheduleContent where
  messageType := d.messageType
  version := d.version
  payload := JsonSerializer.dumps d.payload
  queue := d.queue
  runAt := c.runAt.bind Datetime.instant
  recurrence := c.recurrence

/-- The envelope whose fields a fingerprint is made of. -/
def envelope (d : DurableJobDraft) : MessageEnvelope where
  messageId := .str d.messageId
  messageType := .str d.messageType
  messageKind := .str "command"
  version := d.version
  payload := d.payload
  headers := d.headers
  createdAt := .datetime (.utc d.createdAt)

/-- What an accepted call hands to the store. -/
structure Drafted (c : ScheduleCommand Cls) (x : CallSurroundings) (d : DurableJobDraft) :
    Prop where
  messageId : d.messageId = uuidText x.messageId
  headers : d.headers = []
  key : d.idempotencyKey = c.idempotencyKey
  fingerprint : d.fingerprint = JsonSerializer.text (.dict (fingerprintFields (envelope d) d.queue
    (c.runAt.bind Datetime.instant) c.recurrence))

omit [DecidableEq Cls] [Dataclasses Cls] [Texts] [DecimalTexts] [FloatTexts] in
theorem validateRunAt_ok {o : Option Datetime} {t : Option Instant} (h : validateRunAt o = .ok t) :
    t = o.bind Datetime.instant := by
  unfold validateRunAt at h
  split at h
  · cases h
    rfl
  · split at h
    · cases h
    · rename_i ht
      cases h
      rw [Option.bind_some, ht]

omit [FloatTexts] in
/-- The envelope of a command without headers. -/
theorem prepareMessage_eq_ok {R : PayloadTypeRegistry Cls} {registered : Option (TypedClass Cls)}
    {m : TypedMessage Cls} {kind : String} {fresh : Uuid} {now : Instant} {e : MessageEnvelope}
    (h : Bus.prepareMessage R registered m kind none none fresh now = .ok e) :
    e.messageId = .str (uuidText fresh) ∧ e.messageType = .str m.messageClass.messageType ∧
      e.version = m.messageClass.version ∧
      PythonPayloadCodec.encode R (.dict m.fields) = .ok e.payload ∧ e.headers = [] ∧
      m.messageClass.messageKind = kind := by
  unfold Bus.prepareMessage at h
  obtain ⟨id, hid, h⟩ := bind_eq_ok h
  obtain ⟨hs, hcopied, h⟩ := bind_eq_ok h
  cases hid
  cases hcopied
  -- what is left once the class is one that may be sent
  have rest : ∀ {e : MessageEnvelope}, (do
      let payload ← PythonPayloadCodec.encode R (.dict m.fields)
      let headers ← PythonPayloadCodec.encode R (.dict [])
      let headers ← MessageEnvelope.readHeaders headers
      return ({
        messageId := .str ((none : Option String).getD (uuidText fresh))
        messageType := .str m.messageClass.messageType
        messageKind := .str m.messageClass.messageKind
        version := m.messageClass.version
        payload, headers
        createdAt := .datetime (.utc now) } : MessageEnvelope) : Except Exc MessageEnvelope) =
        .ok e → e.messageId = .str (uuidText fresh) ∧
          e.messageType = .str m.messageClass.messageType ∧ e.version = m.messageClass.version ∧
          PythonPayloadCodec.encode R (.dict m.fields) = .ok e.payload ∧ e.headers = [] := by
    intro e h
    obtain ⟨payload, hpayload, h⟩ := bind_eq_ok h
    obtain ⟨written, hwritten, h⟩ := bind_eq_ok h
    obtain ⟨headers, hheaders, h⟩ := bind_eq_ok h
    cases hwritten
    cases hheaders
    cases h
    exact ⟨rfl, rfl, rfl, hpayload, rfl⟩
  dsimp only at h
  split at h
  · cases h
  rename_i hkind
  have done : e.messageId = .str (uuidText fresh) ∧
      e.messageType = .str m.messageClass.messageType ∧ e.version = m.messageClass.version ∧
      PythonPayloadCodec.encode R (.dict m.fields) = .ok e.payload ∧ e.headers = [] := by
    split at h
    · split at h
      · cases h
      · exact rest h
    · exact rest h
  obtain ⟨hid, htype, hversion, hpayload, hheaders⟩ := done
  exact ⟨hid, htype, hversion, hpayload, hheaders, not_not.mp hkind⟩

theorem drafted (h : c.draft B x = .ok d) : c.Drafted x d := by
  unfold draft at h
  obtain ⟨-, -, h⟩ := bind_eq_ok h
  obtain ⟨runAt, hrun, h⟩ := bind_eq_ok h
  obtain ⟨e, he, h⟩ := bind_eq_ok h
  obtain ⟨queue, -, h⟩ := bind_eq_ok h
  obtain ⟨hid, htype, -, -, hheaders, -⟩ := prepareMessage_eq_ok he
  obtain rfl := validateRunAt_ok hrun
  dsimp only at h
  split at h
  · cases h
  cases h
  refine ⟨by simp [hid, Value.text], hheaders, rfl, ?_⟩
  simp [fingerprintFields, envelope, htype, Value.text]

end Drafts

end ScheduleCommand

end Pybus
