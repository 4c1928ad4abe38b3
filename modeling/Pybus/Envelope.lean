import Pybus.Value

/-! The message envelope, its reading and writing, and the retry state it carries. -/
namespace Pybus

open Texts Value

/-- `MessageEnvelope`. Most fields hold whatever value the wire carried; `validate` looks at the
truth of the first three, at the version and at the headers. -/
structure MessageEnvelope where
  messageId : Value
  messageType : Value
  messageKind : Value
  version : Int
  payload : Value
  headers : Dict
  createdAt : Value
  correlationId : Value := .null
  causationId : Value := .null
  replyTo : Value := .null
  expiresAt : Value := .null
  contentType : Value := .null
  contentEncoding : Value := .null
  deriving DecidableEq

namespace MessageEnvelope

variable [Texts]

def validate (e : MessageEnvelope) : Except Exc MessageEnvelope :=
  if !e.messageId.truthy then .error (.invalidMessageDefinition "message_id is required")
  else if !e.messageType.truthy then
    .error (.invalidMessageDefinition "message_type is required")
  else if !e.messageKind.truthy then
    .error (.invalidMessageDefinition "message_kind is required")
  else if e.version < 1 then
    .error (.invalidMessageDefinition "version must be a positive integer")
  else .ok e

/-- `value.isoformat()`, which only dates and times have. -/
def isoformat : Value → Except Exc Value
  | .datetime d => .ok (.str (datetimeIsoformat d))
  | .date day => .ok (.str (dateIsoformat day))
  | .time t => .ok (.str (timeIsoformat t))
  | _ => .error (.attributeError "isoformat")

def toDict (e : MessageEnvelope) : Except Exc Value := do
  let e ← e.validate
  let createdAt ← isoformat e.createdAt
  let expiresAt ← if e.expiresAt.truthy then isoformat e.expiresAt else pure .null
  return .dict [
    ("message_id", e.messageId),
    ("message_type", e.messageType),
    ("message_kind", e.messageKind),
    ("version", .int e.version),
    ("payload", encodeValue e.payload),
    ("headers", encodeValue (.dict e.headers)),
    ("created_at", createdAt),
    ("correlation_id", e.correlationId),
    ("causation_id", e.causationId),
    ("reply_to", e.replyTo),
    ("expires_at", expiresAt),
    ("content_type", e.contentType),
    ("content_encoding", e.contentEncoding)]

/-- `datetime.fromisoformat` on a string; anything else is left as it is. -/
def readDatetime : Value → Except Exc Value
  | .str s =>
    match datetimeFromisoformat s with
    | some d => .ok (.datetime d)
    | none => .error (.valueError "Invalid isoformat string")
  | v => .ok v

/-- `data[key]`; a missing key becomes the package's own error. -/
def field (data : Dict) (key : String) : Except Exc Value :=
  match data.lookup key with
  | some v => .ok v
  | none => .error (.invalidMessageDefinition ("Missing envelope field: " ++ key))

def readVersion : Value → Except Exc Int
  | .int i => .ok i
  | _ => .error (.invalidMessageDefinition "version must be a positive integer")

def readHeaders : Value → Except Exc Dict
  | .dict d => .ok d
  | _ => .error (.invalidMessageDefinition "headers must be a dictionary")

/-- The checks of `validate` in its order, on fields whose types are not known yet. -/
def build (messageId messageType messageKind version payload headers createdAt : Value)
    (data : Dict) (expiresAt : Value) : Except Exc MessageEnvelope := do
  if !messageId.truthy then throw (.invalidMessageDefinition "message_id is required")
  if !messageType.truthy then throw (.invalidMessageDefinition "message_type is required")
  if !messageKind.truthy then throw (.invalidMessageDefinition "message_kind is required")
  let version ← readVersion version
  if version < 1 then
    throw (.invalidMessageDefinition "version must be a positive integer")
  let headers ← readHeaders headers
  return {
    messageId, messageType, messageKind, version, payload, headers, createdAt, expiresAt
    correlationId := get data "correlation_id"
    causationId := get data "causation_id"
    replyTo := get data "reply_to"
    contentType := get data "content_type"
    contentEncoding := get data "content_encoding" }

/-- `from_dict`; `now` is the clock at the call, the default of a missing `created_at`. A marker
object that lacks its value raises the key error the final clause turns into the package's own. -/
def fromDict (now : Instant) : Value → Except Exc MessageEnvelope
  | .dict data => do
    let expiresAt := get data "expires_at"
    let createdAt ← readDatetime (get data "created_at")
    let expiresAt ← readDatetime expiresAt
    let messageId ← field data "message_id"
    let messageType ← field data "message_type"
    let messageKind ← field data "message_kind"
    let version ← field data "version"
    let payload ← catchKey (do decodeValue (← field data "payload"))
    let headers := get data "headers"
    let headers ← catchKey (decodeValue (if headers.truthy then headers else .dict []))
    build messageId messageType messageKind version payload headers
      (if createdAt.truthy then createdAt else .datetime (.utc now)) data expiresAt
  | _ => .error (.attributeError "get")
where
  catchKey {α : Type} (r : Except Exc α) : Except Exc α :=
    match r with
    | .error (.keyError key) =>
      .error (.invalidMessageDefinition ("Missing envelope field: " ++ key))
    | r => r

/-- `MessageEnvelope.from_dict(serializer.loads(message))`. -/
def read (now : Instant) (message : Raw) : Except Exc MessageEnvelope :=
  (JsonSerializer.loads message).bind (fromDict now)

/-- `serializer.dump(envelope)`. -/
def dump (e : MessageEnvelope) : Except Exc Raw :=
  match e.toDict with
  | .ok v => .ok (.json (JsonSerializer.dumps v))
  | .error (.invalidMessageDefinition _) =>
    .error (.serialization "Unable to serialize value as JSON")
  | .error exc => .error exc

/-- What `dump` needs of the two timestamps: something with `isoformat`. -/
def Dumpable (e : MessageEnvelope) : Prop :=
  (isoformat e.createdAt).isOk ∧ (e.expiresAt.truthy = true → (isoformat e.expiresAt).isOk)

instance (e : MessageEnvelope) : Decidable e.Dumpable := inferInstanceAs (Decidable (_ ∧ _))

/-- What holds of every envelope that was read or built: `validate` accepts it. -/
def Valid (e : MessageEnvelope) : Prop :=
  e.messageId.truthy ∧ e.messageType.truthy ∧ e.messageKind.truthy ∧ 1 ≤ e.version

omit [Texts] in
theorem validate_of_valid {e : MessageEnvelope} (h : e.Valid) : e.validate = .ok e := by
  obtain ⟨h₁, h₂, h₃, h₄⟩ := h
  have h₅ : ¬ e.version < 1 := by omega
  simp [validate, h₁, h₂, h₃, h₅]

theorem isoformat_error {v : Value} {exc : Exc} (h : isoformat v = .error exc) :
    exc = .attributeError "isoformat" := by
  unfold isoformat at h
  split at h <;> cases h
  rfl

theorem dump_ok {e : MessageEnvelope} {d : Value} (h : e.toDict = .ok d) :
    e.dump = .ok (.json (JsonSerializer.dumps d)) := by
  simp only [dump, h]

theorem dump_of_not_dumpable {e : MessageEnvelope} (h : e.Valid) (hd : ¬ e.Dumpable) :
    e.dump = .error (.attributeError "isoformat") := by
  have ht : e.toDict = .error (.attributeError "isoformat") := by
    cases hc : isoformat e.createdAt with
    | error exc =>
      rw [isoformat_error hc] at hc
      simp [toDict, validate_of_valid h, hc, bind, Except.bind]
    | ok c =>
      by_cases hx : e.expiresAt.truthy = true
      · cases hi : isoformat e.expiresAt with
        | error exc =>
          rw [isoformat_error hi] at hi
          simp [toDict, validate_of_valid h, hc, hx, hi, bind, Except.bind]
        | ok x => exact absurd ⟨by rw [hc]; rfl, fun _ => by rw [hi]; rfl⟩ hd
      · exact absurd ⟨by rw [hc]; rfl, fun hx' => absurd hx' hx⟩ hd
  simp only [dump, ht]

theorem dump_of_dumpable {e : MessageEnvelope} (h : e.Valid) (hd : e.Dumpable) :
    ∃ d, e.toDict = .ok d ∧ e.dump = .ok (.json (JsonSerializer.dumps d)) := by
  suffices ∃ d, e.toDict = .ok d by
    obtain ⟨d, hd⟩ := this
    exact ⟨d, hd, dump_ok hd⟩
  obtain ⟨hc, hx⟩ := hd
  cases hc' : isoformat e.createdAt with
  | error exc => simp [hc', Except.isOk, Except.toBool] at hc
  | ok c =>
    by_cases ht : e.expiresAt.truthy = true
    · cases hi : isoformat e.expiresAt with
      | error exc => simp [hi, Except.isOk, Except.toBool, ht] at hx
      | ok x =>
        simp [toDict, validate_of_valid h, hc', ht, hi, bind, Except.bind, pure, Except.pure]
    · simp [toDict, validate_of_valid h, hc', ht, bind, Except.bind, pure, Except.pure]

omit [Texts] in
theorem build_valid {messageId messageType messageKind version payload headers createdAt : Value}
    {data : Dict} {expiresAt : Value} {e : MessageEnvelope}
    (h : build messageId messageType messageKind version payload headers createdAt data expiresAt
      = .ok e) : e.Valid := by
  simp only [build, bind, Except.bind, pure, Except.pure, throw, throwThe, MonadExceptOf.throw]
    at h
  repeat' split at h
  all_goals first | (cases h; done) | skip
  all_goals
    injection h with h
    subst h
    simp_all [Valid]
    try omega

theorem fromDict_valid {now : Instant} {v : Value} {e : MessageEnvelope}
    (h : fromDict now v = .ok e) : e.Valid := by
  cases v with
  | dict data =>
    simp only [fromDict, bind, Except.bind] at h
    repeat' split at h
    all_goals first | cases h | exact build_valid h
  | _ => cases h

theorem read_valid {now : Instant} {message : Raw} {e : MessageEnvelope}
    (h : read now message = .ok e) : e.Valid := by
  unfold read at h
  cases hl : JsonSerializer.loads message with
  | error exc => simp [hl, Except.bind] at h
  | ok v =>
    simp only [hl, Except.bind] at h
    exact fromDict_valid h

omit [Texts] in
theorem build_fields {messageId messageType messageKind version payload headers createdAt : Value}
    {data : Dict} {expiresAt : Value} {e : MessageEnvelope}
    (h : build messageId messageType messageKind version payload headers createdAt data expiresAt
      = .ok e) :
    e.messageKind = messageKind ∧ e.messageType = messageType ∧ headers = .dict e.headers := by
  simp only [build, bind, Except.bind, pure, Except.pure, throw, throwThe, MonadExceptOf.throw]
    at h
  repeat' split at h
  all_goals first | (cases h; done) | skip
  rename_i d hd
  injection h with h
  subst h
  refine ⟨rfl, rfl, ?_⟩
  cases headers <;> simp_all [readHeaders]

/-- Where the kind, the type and the headers of an envelope come from. -/
theorem fromDict_fields {now : Instant} {data : Dict} {e : MessageEnvelope}
    (h : fromDict now (.dict data) = .ok e) :
    field data "message_kind" = .ok e.messageKind ∧ field data "message_type" = .ok e.messageType ∧
      fromDict.catchKey (decodeValue (if (get data "headers").truthy then get data "headers"
        else .dict [])) = .ok (.dict e.headers) := by
  simp only [fromDict, bind, Except.bind] at h
  repeat' split at h
  all_goals first | cases h | skip
  all_goals
    obtain ⟨hk, ht, hh⟩ := build_fields h
    subst hk ht hh
    exact ⟨by assumption, by assumption, by assumption⟩

omit [Texts] in
theorem build_error {messageId messageType messageKind version payload headers createdAt
    createdAt' : Value} {data : Dict} {expiresAt : Value} {exc : Exc}
    (h : build messageId messageType messageKind version payload headers createdAt data expiresAt
      = .error exc) :
    build messageId messageType messageKind version payload headers createdAt' data expiresAt
      = .error exc := by
  simp only [build, bind, Except.bind, pure, Except.pure, throw, throwThe, MonadExceptOf.throw]
    at h ⊢
  repeat' split at h
  all_goals simp_all

/-- The clock at which a message is read has no say in whether it can be read. -/
theorem read_error {now now' : Instant} {message : Raw} {exc : Exc}
    (h : read now message = .error exc) : read now' message = .error exc := by
  unfold read at h ⊢
  cases hl : JsonSerializer.loads message with
  | error exc' => simpa [hl, Except.bind] using h
  | ok v =>
    simp only [hl, Except.bind] at h ⊢
    cases v with
    | dict data =>
      simp only [fromDict, bind, Except.bind] at h ⊢
      repeat' split at h
      all_goals first | exact h | exact build_error h
    | _ => exact h

/-- The clock at which a message is read has no say in its kind, its type and its headers. -/
theorem read_again {now now' : Instant} {message : Raw} {e e' : MessageEnvelope}
    (h : read now message = .ok e) (h' : read now' message = .ok e') :
    e'.messageKind = e.messageKind ∧ e'.messageType = e.messageType ∧ e'.headers = e.headers := by
  unfold read at h h'
  cases hl : JsonSerializer.loads message with
  | error exc => simp [hl, Except.bind] at h
  | ok v =>
    simp only [hl, Except.bind] at h h'
    cases v with
    | dict data =>
      obtain ⟨hk, ht, hh⟩ := fromDict_fields h
      obtain ⟨hk', ht', hh'⟩ := fromDict_fields h'
      refine ⟨?_, ?_, ?_⟩
      · exact Except.ok.inj (hk'.symm.trans hk)
      · exact Except.ok.inj (ht'.symm.trans ht)
      · simpa using hh'.symm.trans hh
    | _ => cases h

end MessageEnvelope

/-- `_valid_retry_count`: a non-negative integer, possibly written as text. -/
def validRetryCount [Texts] : Value → Option Nat
  | .int i => if i < 0 then none else some i.toNat
  | .str s =>
    match intFromText s with
    | some i => if i < 0 then none else some i.toNat
    | none => none
  | _ => none

/-- `resolve_retry_count`: a valid header count wins over the one in a mapping payload. -/
def resolveRetryCount [Texts] (payload : Option Value) (headers : Dict) : Nat :=
  match validRetryCount (get headers "retries") with
  | some n => n
  | none =>
    match payload with
    | some (.dict d) => (validRetryCount (get d "retries")).getD 0
    | _ => 0

/-- `_valid_datetime`: an ISO text with an offset. -/
def validDatetime [Texts] : Value → Option Instant
  | .str s => (datetimeFromisoformat s).bind Datetime.instant
  | _ => none

/-- `resolve_last_attempt`. -/
def resolveLastAttempt [Texts] (payload : Option Value) (headers : Dict) : Option Instant :=
  match validDatetime (get headers "last_attempt") with
  | some t => some t
  | none =>
    match payload with
    | some (.dict d) => validDatetime (get d "last_attempt")
    | _ => none

/-- `next_retry_payload`, as the listener calls it. -/
def nextRetryPayload [Texts] (payload : Dict) (attemptedAt : Instant) (retries : Nat) : Dict :=
  set (set payload "retries" (.int (retries + 1))) "last_attempt"
    (.str (datetimeIsoformat (.utc attemptedAt)))

theorem noDelay_nonneg : (0 : Rat) ≤ 0 := by decide

theorem noBackoff_nonneg : (0 : Rat) ≤ 1 := by decide

/-- `RetryPolicy`, with what `__post_init__` checks. Delays are in seconds. -/
structure RetryPolicy where
  maxRetries : Nat := 10
  delay : Rat := 0
  backoffFactor : Rat := 1
  delay_nonneg : 0 ≤ delay := by first | exact noDelay_nonneg | decide
  backoffFactor_nonneg : 0 ≤ backoffFactor := by first | exact noBackoff_nonneg | decide

namespace RetryPolicy

def shouldRetry (p : RetryPolicy) (retries : Nat) : Bool := retries < p.maxRetries

def nextDelay (p : RetryPolicy) (retries : Nat) : Rat := p.delay * p.backoffFactor ^ retries

end RetryPolicy

end Pybus
