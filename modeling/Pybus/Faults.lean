import Pybus.Codec

/-! What the decoders raise: the first thing they cannot read, in document order, decides whether it
is their declared error. -/
namespace Pybus

open Value Texts

/-- What `bytes.decode` and `json.loads` make of bytes. The last is the limit on the digits of an
integer. -/
inductive Reading
  | document (v : Value)
  | invalidUtf8
  | invalidJson
  | oversizedInteger

class JsonTexts where
  read : List UInt8 → Reading

/-- Bytes as `JsonSerializer.loads` sees them: two of the failures have an except clause. -/
def Raw.ofBytes [JsonTexts] (bytes : List UInt8) : Raw :=
  match JsonTexts.read bytes with
  | .document v => .json v
  | .invalidUtf8 => .malformed bytes (.deserialization "Payload is not valid UTF-8")
  | .invalidJson => .malformed bytes (.deserialization "Payload is not valid JSON")
  | .oversizedInteger =>
    .malformed bytes (.valueError "Exceeds the limit for integer string conversion")

/-- What is raised where a value cannot be read: the declared error, a `TypeError`, or another. -/
inductive Fault
  | declared
  | typeError
  | stray
  deriving DecidableEq, Repr

/-- Whatever is raised is a `DeserializationError`. -/
def Declared {α : Type} (r : Except Exc α) : Prop :=
  ∀ exc, r = .error exc → ∃ message, exc = .deserialization message

def Exc.fault : Exc → Fault
  | deserialization _ => .declared
  | typeError _ => .typeError
  | _ => .stray

/-- The fault of a result, `none` when there is a value. -/
def faultOf {α : Type} : Except Exc α → Option Fault
  | .ok _ => none
  | .error exc => some exc.fault

section Results

variable {α β : Type} {r : Except Exc α} {f : Option Fault}

theorem declared_iff : Declared r ↔ faultOf r = none ∨ faultOf r = some .declared := by
  cases r with
  | ok a =>
    simp only [faultOf, true_or, iff_true]
    intro exc h
    cases h
  | error exc =>
    simp only [faultOf, reduceCtorEq, false_or, Option.some.injEq]
    constructor
    · intro h
      obtain ⟨m, rfl⟩ := h exc rfl
      rfl
    · intro h exc' he
      cases he
      cases exc with
      | deserialization m => exact ⟨m, rfl⟩
      | _ => simp [Exc.fault] at h

theorem faultOf_eq_none : faultOf r = none ↔ ∃ a, r = .ok a := by
  cases r with
  | ok a => simp [faultOf]
  | error exc => simp [faultOf]

theorem faultOf_map {g : α → β} : faultOf (r.map g) = faultOf r := by
  cases r <;> rfl

/-- The first fault of two computations in turn. -/
theorem faultOf_bind {k : α → Except Exc β} {g : Option Fault}
    (h : ∀ a, r = .ok a → faultOf (k a) = g) :
    faultOf (do let a ← r; k a) = (faultOf r).or g := by
  cases r with
  | ok a => exact h a rfl
  | error exc => rfl

theorem ok_bind {a : α} {k : α → Except Exc β} : (Except.ok a >>= k) = k a := rfl

theorem faultOf_bind_pure {g : α → β} : faultOf (do let a ← r; return g a) = faultOf r := by
  cases r <;> rfl

end Results

namespace Value

variable [Texts]

/-- The fault of a marker object that must hold a text of some form. -/
def textFault (reads : String → Bool) (d : Dict) : Option Fault :=
  match d.lookup "value" with
  | none => some .stray
  | some (.str s) => if reads s then none else some .declared
  | some _ => some .declared

/-- `UUID` looks for the methods of a text on numbers, lists and objects, and finds none. -/
def uuidFault (d : Dict) : Option Fault :=
  match d.lookup "value" with
  | some (.bool _) | some (.int _) | some (.float _) | some (.uuid _) | some (.list _)
  | some (.dict _) => some .stray
  | _ => textFault (fun s => (uuidFromText s).isSome) d

mutual
/-- The first marker object that cannot be read, in document order. -/
def fault : Value → Option Fault
  | .list items => faultItems items
  | .dict d =>
    match d.lookup "__pybus_type__" with
    | some (.str "datetime") => textFault (fun s => (datetimeFromisoformat s).isSome) d
    | some (.str "date") => textFault (fun s => (dateFromisoformat s).isSome) d
    | some (.str "time") => textFault (fun s => (timeFromisoformat s).isSome) d
    | some (.str "uuid") => uuidFault d
    | _ => faultEntries d
  | _ => none

def faultItems : List Value → Option Fault
  | [] => none
  | v :: vs => (fault v).or (faultItems vs)

def faultEntries : Dict → Option Fault
  | [] => none
  | (_, v) :: d => (fault v).or (faultEntries d)
end

omit [Texts] in
theorem faultOf_decodeMarker {α : Type} {message : String} {conversion : String → Option α}
    {make : α → Value} {d : Dict} : faultOf (decodeMarker d message conversion make) =
      textFault (fun s => (conversion s).isSome) d := by
  unfold decodeMarker textFault
  cases d.lookup "value" with
  | none => rfl
  | some v =>
    cases v with
    | str s =>
      cases hc : conversion s <;> simp [hc, faultOf, Exc.fault]
    | _ => rfl

theorem faultOf_decodeUuid {d : Dict} : faultOf (decodeUuid d) = uuidFault d := by
  unfold decodeUuid uuidFault
  cases hl : d.lookup "value" with
  | none => exact faultOf_decodeMarker
  | some v => cases v <;> first | rfl | exact faultOf_decodeMarker

mutual
theorem faultOf_decodeValue : (v : Value) → faultOf (decodeValue v) = fault v
  | .list items => by
    rw [decodeValue, faultOf_bind_pure, fault]
    exact faultOf_decodeItems items
  | .dict d => by
    have hentries : faultOf (do return Value.dict (← decodeEntries d)) = faultEntries d := by
      rw [faultOf_bind_pure]
      exact faultOf_decodeEntries d
    rw [decodeValue]
    split
    · rename_i hl
      rw [fault, hl]
      exact faultOf_decodeMarker
    · rename_i hl
      rw [fault, hl]
      exact faultOf_decodeMarker
    · rename_i hl
      rw [fault, hl]
      exact faultOf_decodeMarker
    · rename_i hl
      rw [fault, hl]
      exact faultOf_decodeUuid
    · rename_i hd ht hm hu
      rw [fault]
      split
      · exact absurd ‹_› hd
      · exact absurd ‹_› ht
      · exact absurd ‹_› hm
      · exact absurd ‹_› hu
      · exact hentries
  | .null | .bool _ | .int _ | .float _ | .str _ | .datetime _ | .date _ | .time _ | .uuid _ => by
    simp only [decodeValue, fault, faultOf]

theorem faultOf_decodeItems : (vs : List Value) → faultOf (decodeItems vs) = faultItems vs
  | [] => rfl
  | v :: vs => by
    rw [decodeItems, faultItems, ← faultOf_decodeValue v, ← faultOf_decodeItems vs]
    exact faultOf_bind fun w _ => faultOf_bind_pure

theorem faultOf_decodeEntries : (d : Dict) → faultOf (decodeEntries d) = faultEntries d
  | [] => rfl
  | (k, v) :: d => by
    rw [decodeEntries, faultEntries, ← faultOf_decodeValue v, ← faultOf_decodeEntries d]
    exact faultOf_bind fun w _ => faultOf_bind_pure
end

end Value

namespace PythonPayloadCodec

variable {Cls : Type} [DecidableEq Cls] [Dataclasses Cls] [Texts] [DecimalTexts]

def decimalFault (d : Dict) : Option Fault :=
  match d.lookup "value" with
  | some (.str text) =>
    if (DecimalTexts.decimalFromText text).any (·.isFinite) then none else some .declared
  | _ => some .declared

/-- The type a dataclass shape names, if its identifier and version are in order. -/
def shapeType (R : PayloadTypeRegistry Cls) (d : Dict) : Option Cls :=
  match typeId d, validateObjectVersion d with
  | .ok id, .ok _ => R.types.lookup id
  | _, _ => none

/-- The fault of a call of a dataclass type whose fields have been read: a `TypeError` is caught. -/
def callFault (c : Cls) (fields : Except Exc (List (String × Obj Cls))) : Option Fault :=
  match faultOf (fields.bind (Dataclasses.construct c)) with
  | some .typeError => some .declared
  | f => f

/-- The fault of a dataclass shape: in its header, in its fields, or in the call of the type. -/
def objectFault (R : PayloadTypeRegistry Cls) (d : Dict) (fieldsFault : Option (Option Fault))
    (fields : Option (Except Exc (List (String × Obj Cls)))) : Option Fault :=
  match shapeType R d, fieldsFault, fields with
  | some c, some none, some fields => callFault c fields
  | some _, some (some .stray), _ => some .stray
  | _, _, _ => some .declared

mutual
/-- The first thing the codec cannot read, in document order. -/
def fault (R : PayloadTypeRegistry Cls) : Value → Option Fault
  | .list items => faultItems R items
  | .dict d =>
    match d.lookup codecKey with
    | some (.str kind) =>
      if d.lookup "version" ≠ some (.int codecVersion) then some .declared
      else if kind = "mapping" then
        match faultUnder R "value" d with
        | none => some .declared
        | some f => f.or (faultRest R d)
      else if kind = "decimal" then decimalFault d
      else if kind = "dataclass" then
        objectFault R d (faultUnder R "fields" d) (decodeUnder R "fields" d)
      else some .declared
    | some _ => some .declared
    | none =>
      match d.lookup typeKey with
      | some (.str "decimal") => decimalFault d
      | some (.str "dataclass") =>
        objectFault R d (faultUnder R "fields" d) (decodeUnder R "fields" d)
      | some (.str name) =>
        if markerNames.contains name then Value.fault (.dict d) else faultEntries R d
      | some (.list _) | some (.dict _) => some .typeError
      | _ => faultEntries R d
  | _ => none

def faultItems (R : PayloadTypeRegistry Cls) : List Value → Option Fault
  | [] => none
  | v :: vs => (fault R v).or (faultItems R vs)

def faultEntries (R : PayloadTypeRegistry Cls) : Dict → Option Fault
  | [] => none
  | (_, v) :: d => (fault R v).or (faultEntries R d)

def faultUnder (R : PayloadTypeRegistry Cls) (key : String) : Dict → Option (Option Fault)
  | [] => none
  | (k, v) :: d =>
    if k = key then
      match v with
      | .dict entries => some (faultEntries R entries)
      | _ => none
    else faultUnder R key d

def faultRest (R : PayloadTypeRegistry Cls) : Dict → Option Fault
  | [] => none
  | (k, v) :: d =>
    if k = codecKey ∨ k = "version" ∨ k = "value" then faultRest R d
    else (fault R v).or (faultRest R d)
end

section Shapes

variable {R : PayloadTypeRegistry Cls} {d : Dict}

omit [DecimalTexts] in
theorem faultOf_validateCodecVersion : faultOf (validateCodecVersion d) =
    if d.lookup "version" ≠ some (.int codecVersion) then some .declared else none := by
  unfold validateCodecVersion
  cases hl : d.lookup "version" with
  | none => simp [faultOf, Exc.fault]
  | some v =>
    cases v with
    | int i => by_cases hi : i = codecVersion <;> simp [hi, faultOf, Exc.fault]
    | _ => simp [faultOf, Exc.fault]

omit [DecidableEq Cls] [Dataclasses Cls] [Texts] in
theorem faultOf_decodeDecimal : faultOf (decodeDecimal d : Except Exc (Obj Cls)) = decimalFault d := by
  unfold decodeDecimal decimalFault
  cases hl : d.lookup "value" with
  | none => rfl
  | some v =>
    cases v with
    | str text =>
      cases hx : DecimalTexts.decimalFromText text with
      | none => simp [hx, faultOf, Exc.fault]
      | some x => cases hf : x.isFinite <;> simp [hx, hf, faultOf, Exc.fault]
    | _ => rfl

omit [Texts] [DecimalTexts] in
theorem faultOf_typeId {exc : Exc} (h : typeId d = .error exc) : exc.fault = .declared := by
  unfold typeId at h
  simp only at h
  split at h
  · split at h
    · cases h
      rfl
    · cases h
  · cases h
    rfl

omit [DecimalTexts] in
theorem faultOf_validateObjectVersion {exc : Exc} (h : validateObjectVersion d = .error exc) :
    exc.fault = .declared := by
  unfold validateObjectVersion at h
  split at h
  · cases h
  · split at h
    · cases h
    · cases h
      rfl

omit [DecidableEq Cls] [Texts] [DecimalTexts] in
/-- The call of a dataclass type raises no `TypeError`. -/
theorem faultOf_construct {c : Cls} {id : String} {fields : Except Exc (List (String × Obj Cls))} :
    faultOf (construct c id fields) = callFault c fields := by
  unfold construct callFault
  cases hr : fields.bind (Dataclasses.construct c) with
  | ok x => rfl
  | error exc => cases exc <;> rfl

omit [DecimalTexts] in
/-- A dataclass shape fails in its header, in its fields, or in the call of the type. -/
theorem faultOf_decodeObject {f : Option (Except Exc (List (String × Obj Cls)))} :
    faultOf (decodeObject R d f) = objectFault R d (f.map faultOf) f := by
  unfold decodeObject objectFault shapeType
  cases hid : typeId d with
  | error exc => simp [bind, Except.bind, faultOf, faultOf_typeId hid]
  | ok id =>
    cases hv : validateObjectVersion d with
    | error exc => simp [bind, Except.bind, faultOf, faultOf_validateObjectVersion hv]
    | ok u =>
      cases hr : R.types.lookup id with
      | none => simp [bind, Except.bind, PayloadTypeRegistry.resolve, hr, faultOf, Exc.fault]
      | some c =>
        cases f with
        | none => simp [bind, Except.bind, PayloadTypeRegistry.resolve, hr, faultOf, Exc.fault]
        | some fields =>
          simp only [bind, Except.bind, PayloadTypeRegistry.resolve, hr, Option.map_some,
            faultOf_construct]
          cases fields with
          | ok kwargs => rfl
          | error exc => cases exc <;> rfl

omit [DecidableEq Cls] [Dataclasses Cls] [Texts] [DecimalTexts] in
/-- A mapping shape fails in the mapping it holds, then in the entries next to it. -/
theorem faultOf_mapping {inner : Option (Except Exc (List (String × Obj Cls)))}
    {rest : Except Exc (List (String × Obj Cls))} :
    faultOf (match inner with
      | none => .error (.deserialization "Invalid payload mapping encoding")
      | some entries => do
        let mapping ← entries
        return Obj.dict (Obj.update mapping (← rest))) =
      match inner.map faultOf with
      | none => some .declared
      | some f => f.or (faultOf rest) := by
  cases inner with
  | none => rfl
  | some entries => exact faultOf_bind fun mapping _ => faultOf_bind_pure

end Shapes

mutual
theorem faultOf_decode (R : PayloadTypeRegistry Cls) :
    (v : Value) → faultOf (decode R v) = fault R v
  | .list items => by
    rw [decode, faultOf_bind_pure, fault]
    exact faultOf_decodeItems R items
  | .dict d => by
    have hentries : faultOf (do return Obj.dict (← decodeEntries R d)) = faultEntries R d := by
      rw [faultOf_bind_pure]
      exact faultOf_decodeEntries R d
    have hobject := faultOf_decodeObject (R := R) (d := d) (f := decodeUnder R "fields" d)
    rw [faultOf_decodeUnder R "fields" d] at hobject
    rw [decode]
    cases hc : d.lookup codecKey with
    | some kind =>
      cases kind with
      | str kind =>
        rw [fault, hc]
        simp only
        by_cases hk : kind = ""
        · subst hk
          simp [faultOf, Exc.fault]
        · rw [if_neg hk]
          have hversion := faultOf_validateCodecVersion (d := d)
          cases hv : validateCodecVersion d with
          | error exc =>
            rw [hv] at hversion
            split at hversion
            · rename_i hne
              rw [if_pos hne]
              exact hversion
            · cases hversion
          | ok u =>
            rw [hv] at hversion
            split at hversion
            · cases hversion
            · rename_i hne
              rw [if_neg hne]
              rw [ok_bind]
              split
              · rw [← faultOf_decodeUnder R "value" d, ← faultOf_decodeRest R d]
                exact faultOf_mapping
              · split
                · exact faultOf_decodeDecimal
                · split
                  · exact hobject
                  · simp [faultOf, Exc.fault]
      | _ =>
        rw [fault, hc]
        rfl
    | none =>
      simp only
      split
      · rename_i hl
        rw [fault, hc, hl]
        exact faultOf_decodeDecimal
      · rename_i hl
        rw [fault, hc, hl]
        exact hobject
      · rename_i name h₁ h₂ hl
        rw [fault, hc]
        simp only [hl]
        split
        · rw [faultOf_map]
          exact Value.faultOf_decodeValue (.dict d)
        · exact hentries
      · rename_i hl
        rw [fault, hc, hl]
        rfl
      · rename_i hl
        rw [fault, hc, hl]
        rfl
      · rename_i h₁ h₂ h₃ h₄ h₅
        rw [hentries, fault, hc]
        simp only
  | .null | .bool _ | .int _ | .float _ | .str _ | .datetime _ | .date _ | .time _ | .uuid _ => by
    simp only [decode, decodeValue, fault, faultOf, Except.map]

theorem faultOf_decodeItems (R : PayloadTypeRegistry Cls) :
    (vs : List Value) → faultOf (decodeItems R vs) = faultItems R vs
  | [] => rfl
  | v :: vs => by
    rw [decodeItems, faultItems, ← faultOf_decode R v, ← faultOf_decodeItems R vs]
    exact faultOf_bind fun w _ => faultOf_bind_pure

theorem faultOf_decodeEntries (R : PayloadTypeRegistry Cls) :
    (d : Dict) → faultOf (decodeEntries R d) = faultEntries R d
  | [] => rfl
  | (k, v) :: d => by
    rw [decodeEntries, faultEntries, ← faultOf_decode R v, ← faultOf_decodeEntries R d]
    exact faultOf_bind fun w _ => faultOf_bind_pure

theorem faultOf_decodeUnder (R : PayloadTypeRegistry Cls) (key : String) :
    (d : Dict) → (decodeUnder R key d).map faultOf = faultUnder R key d
  | [] => rfl
  | (k, .dict entries) :: d => by
    rw [decodeUnder, faultUnder]
    split
    · simp only [Option.map_some, faultOf_decodeEntries R entries]
    · exact faultOf_decodeUnder R key d
  | (k, .list _) :: d | (k, .null) :: d | (k, .bool _) :: d | (k, .int _) :: d | (k, .float _) :: d
  | (k, .str _) :: d | (k, .datetime _) :: d | (k, .date _) :: d | (k, .time _) :: d
  | (k, .uuid _) :: d => by
    simp only [decodeUnder, faultUnder]
    split
    · rfl
    · exact faultOf_decodeUnder R key d

theorem faultOf_decodeRest (R : PayloadTypeRegistry Cls) :
    (d : Dict) → faultOf (decodeRest R d) = faultRest R d
  | [] => rfl
  | (k, v) :: d => by
    rw [decodeRest, faultRest]
    split
    · exact faultOf_decodeRest R d
    · rw [← faultOf_decode R v, ← faultOf_decodeRest R d]
      exact faultOf_bind fun w _ => faultOf_bind_pure
end

end PythonPayloadCodec

/-- The first thing `loads` cannot read. -/
def bytesFault [Texts] [JsonTexts] (bytes : List UInt8) : Option Fault :=
  match JsonTexts.read bytes with
  | .document v => v.fault
  | .invalidUtf8 | .invalidJson => some .declared
  | .oversizedInteger => some .stray

theorem faultOf_loads [Texts] [JsonTexts] {bytes : List UInt8} :
    faultOf (JsonSerializer.loads (Raw.ofBytes bytes)) = bytesFault bytes := by
  unfold Raw.ofBytes bytesFault
  cases JsonTexts.read bytes with
  | document v => exact Value.faultOf_decodeValue v
  | _ => rfl

/-- The decoders raise nothing but their declared error exactly when the first thing they cannot
read, if any, raises it. -/
theorem decoders_declared_iff {Cls : Type} [DecidableEq Cls] [Dataclasses Cls] [Texts] [DecimalTexts]
    [JsonTexts] (R : PayloadTypeRegistry Cls) (bytes : List UInt8) (v : Value) :
    (Declared (JsonSerializer.loads (Raw.ofBytes bytes)) ↔
      bytesFault bytes = none ∨ bytesFault bytes = some .declared) ∧
    (Declared (PythonPayloadCodec.decode R v) ↔
      PythonPayloadCodec.fault R v = none ∨ PythonPayloadCodec.fault R v = some .declared) := by
  rw [declared_iff, declared_iff, faultOf_loads, PythonPayloadCodec.faultOf_decode]
  exact ⟨Iff.rfl, Iff.rfl⟩

section Samples

local instance faultTexts : Texts := .lawful

local instance noDataclasses : Dataclasses Empty where
  name := nofun
  qualifiedName := nofun
  qualifiedName_ne_empty := nofun
  construct := nofun
  equals _ _ := False

local instance noDecimals : DecimalTexts where
  decimalText _ := ""
  decimalFromText _ := none

/-- The text of a marker object without a value. -/
def markerBytes : List UInt8 := "\x7b\"__pybus_type__\":\"datetime\"\x7d".toUTF8.toList

/-- These bytes are JSON; no others are of interest. -/
local instance sampleJson : JsonTexts where
  read bytes :=
    if bytes = markerBytes then
      .document (.dict [("__pybus_type__", .str "datetime")])
    else .invalidJson

/-- A marker object without its value, and an application mapping with a list for its marker. -/
theorem unreadable_markers_escape :
    JsonSerializer.loads (Raw.ofBytes markerBytes) = .error (.keyError "value") ∧
    PythonPayloadCodec.decode ({} : PayloadTypeRegistry Empty) (.dict [("__pybus_type__", .list [])]) =
      .error (.typeError "unhashable type") := by
  refine ⟨by decide +kernel, ?_⟩
  rfl

end Samples

end Pybus
