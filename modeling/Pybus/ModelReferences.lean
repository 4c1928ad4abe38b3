import Pybus.Codec
import Pybus.Dictionary

/-! Any Python value and what the payload codecs make of it: the generic codec, and the Django
codec, which writes model instances as references and reads references with the application's
resolvers. -/
namespace Pybus

open Value Texts

namespace Value

theorem isScalar_null : null.isScalar = true := rfl

theorem isScalar_str (s : String) : (str s).isScalar = true := rfl

theorem isScalar_int (i : Int) : (int i).isScalar = true := rfl

theorem isScalar_uuid (u : Uuid) : (uuid u).isScalar = true := rfl

theorem isScalar_datetime (t : Datetime) : (datetime t).isScalar = true := rfl

theorem isScalar_date (day : Int) : (date day).isScalar = true := rfl

theorem isScalar_time (t : ClockTime) : (time t).isScalar = true := rfl

end Value

/-- A key of a mapping: its text, and the string it is equal to if there is one. -/
structure Key where
  text : String
  string : Option String
  deriving DecidableEq

/-- A string as a key. -/
def Key.ofString (s : String) : Key := ⟨s, some s⟩

/-- Python values over the dataclass types `Cls` and any further objects `X`. An object may have a
method `to_dict`, which returns a value or raises. -/
inductive Py (Cls X : Type)
  | scalar (v : Scalar)
  | decimal (x : PyDecimal)
  | list (items : List (Py Cls X))
  | tuple (items : List (Py Cls X))
  | dict (entries : List (Key × Py Cls X))
  | object (cls : Cls) (attributes : List (String × Py Cls X))
      (toDict : Option (Except Exc (Py Cls X)))
  | model (appLabel modelName : String) (pk : Py Cls X)
      (toDict : Option (Except Exc (Py Cls X)))
  | other (x : X) (toDict : Option (Except Exc (Py Cls X)))

/-- What an encoding is made of: scalars, lists, mappings with string keys, and whatever else
`encode_value` has let pass. -/
inductive Encoded (A : Type)
  | scalar (v : Scalar)
  | other (x : A)
  | list (items : List (Encoded A))
  | dict (entries : List (String × Encoded A))

namespace Encoded

variable {A : Type}

abbrev Entries (A : Type) : Type := List (String × Encoded A)

def str (s : String) : Encoded A := .scalar ⟨.str s, isScalar_str s⟩

def int (i : Int) : Encoded A := .scalar ⟨.int i, isScalar_int i⟩

/-- The string that an encoding is. -/
def string? : Encoded A → Option String
  | .scalar ⟨.str s, _⟩ => some s
  | _ => none

/-- The mapping that an encoding is. -/
def entries? : Encoded A → Option (Entries A)
  | .dict entries => some entries
  | _ => none

/-- A scalar as `encode_value` writes it. -/
def ofScalar [Texts] : Scalar → Encoded A
  | ⟨.datetime d, _⟩ => .dict [("__pybus_type__", str "datetime"),
      ("value", str (datetimeIsoformat { d with offset := some (d.offset.getD 0) }))]
  | ⟨.date day, _⟩ => .dict [("__pybus_type__", str "date"), ("value", str (dateIsoformat day))]
  | ⟨.time t, _⟩ => .dict [("__pybus_type__", str "time"), ("value", str (timeIsoformat t))]
  | ⟨.uuid u, _⟩ => .dict [("__pybus_type__", str "uuid"), ("value", str (uuidText u))]
  | v => .scalar v

/-- A dict comprehension: of two entries with one key the last one counts. -/
def comprehension {B : Type} (entries : List (String × B)) : List (String × B) :=
  entries.foldl (fun d entry => Dictionary.put d entry.1 entry.2) []

end Encoded

/-- What the codecs use of objects they know nothing of. -/
class PyObjects (Cls X : Type) where
  /-- The call of a dataclass type with keyword arguments. -/
  construct : Cls → List (String × Py Cls X) → Except Exc (Py Cls X)
  /-- `hash` raises `TypeError`. -/
  unhashable : Py Cls X → Bool
  isOne : Py Cls X → Bool
  str : Py Cls X → String
  repr : Encoded (Py Cls X) → String

section Encoding

variable {Cls X : Type} [Texts]

mutual
/-- `encode_value`. -/
def encodeAny : Py Cls X → Except Exc (Encoded (Py Cls X))
  | .scalar v => .ok (Encoded.ofScalar v)
  | .dict entries => do return .dict (Encoded.comprehension (← encodeAnyEntries entries))
  | .list items | .tuple items => do return .list (← encodeAnyItems items)
  | .object _ _ (some (.ok x)) | .model _ _ _ (some (.ok x))
  | .other _ (some (.ok x)) => encodeAny x
  | .object _ _ (some (.error exc)) | .model _ _ _ (some (.error exc))
  | .other _ (some (.error exc)) => .error exc
  | x => .ok (.other x)

def encodeAnyItems : List (Py Cls X) → Except Exc (List (Encoded (Py Cls X)))
  | [] => .ok []
  | x :: xs => do return (← encodeAny x) :: (← encodeAnyItems xs)

def encodeAnyEntries : List (Key × Py Cls X) → Except Exc (Encoded.Entries (Py Cls X))
  | [] => .ok []
  | (k, x) :: d => do return (k.text, ← encodeAny x) :: (← encodeAnyEntries d)
end

end Encoding

/-- Reading of encoded values: it may raise, and lists the calls of resolvers. -/
abbrev Decoding (Cls X α : Type) : Type := EStateM Exc (List (String × Py Cls X)) α

/-- What a codec that knows model instances makes of them: the model types it has a resolver for,
and the reading of a reference, given the reading of its `pk`. -/
structure Models (Cls X : Type) where
  known : String → Bool
  read : Encoded.Entries (Py Cls X) → Decoding Cls X (Py Cls X) → Decoding Cls X (Py Cls X)

/-- A codec. The generic one knows no model instances. -/
structure ModelCodec (Cls X : Type) [DecidableEq Cls] where
  typeRegistry : PayloadTypeRegistry Cls
  models : Option (Models Cls X)

namespace ModelCodec

open PythonPayloadCodec (codecKey typeKey codecVersion)

def modelMarker : String := "django_model"

def djangoTypePrefix : String := "django://"

variable {Cls X : Type} [DecidableEq Cls] [Dataclasses Cls] [Texts] [DecimalTexts] [PyObjects Cls X]

/-- A model reference. -/
def reference (modelType : String) (pk : Encoded (Py Cls X)) : Encoded (Py Cls X) :=
  .dict [(codecKey, .str modelMarker), ("version", .int codecVersion), ("type", .str modelType),
    ("pk", pk)]

mutual
/-- `self.encode`, or with `own` false the call of the generic codec's `encode` on `super()`. -/
def encode (C : ModelCodec Cls X) (own : Bool) : Py Cls X → Except Exc (Encoded (Py Cls X))
  | .model appLabel modelName pk toDict =>
    match if own then C.models else none with
    | some models =>
      let modelType := djangoTypePrefix ++ appLabel ++ "/" ++ modelName
      if models.known modelType then do return reference modelType (← encode C false pk)
      else .error (.serialization ("Django model type " ++
        PyObjects.repr (.str modelType : Encoded (Py Cls X)) ++ " has no configured resolver"))
    | none => encodeAny (.model appLabel modelName pk toDict)
  | .decimal x =>
    if !x.isFinite then .error (.serialization "Decimal payload values must be finite")
    else .ok (.dict [(codecKey, .str "decimal"), ("version", .int codecVersion),
      ("value", .str (DecimalTexts.decimalText x))])
  | .object c attributes _ => do
    let id ← C.typeRegistry.typeIdFor c
    let fields ← encodeFields C attributes
    return .dict [(codecKey, .str "dataclass"), ("type", .str id), ("version", .int codecVersion),
      ("fields", .dict fields)]
  | .dict entries => do
    let encoded ← encodeEntries C entries
    let encoded := Encoded.comprehension encoded
    if entries.any fun entry => entry.1.string = some codecKey then
      return .dict [(codecKey, .str "mapping"), ("version", .int codecVersion),
        ("value", .dict encoded)]
    else return .dict encoded
  | .list items | .tuple items => do return .list (← encodeItems C items)
  | x => encodeAny x

def encodeItems (C : ModelCodec Cls X) : List (Py Cls X) → Except Exc (List (Encoded (Py Cls X)))
  | [] => .ok []
  | x :: xs => do return (← encode C true x) :: (← encodeItems C xs)

def encodeEntries (C : ModelCodec Cls X) :
    List (Key × Py Cls X) → Except Exc (Encoded.Entries (Py Cls X))
  | [] => .ok []
  | (k, x) :: d => do return (k.text, ← encode C true x) :: (← encodeEntries C d)

def encodeFields (C : ModelCodec Cls X) :
    List (String × Py Cls X) → Except Exc (Encoded.Entries (Py Cls X))
  | [] => .ok []
  | (k, x) :: d => do return (k, ← encode C true x) :: (← encodeFields C d)
end

section Decoding

variable (d : Encoded.Entries (Py Cls X))

def invalid {α : Type} (message : String) : Decoding Cls X α := throw (.deserialization message)

/-- `_validate_codec_version`. -/
def validateCodecVersion : Decoding Cls X Unit :=
  match d.lookup "version" with
  | some (.scalar ⟨.int 1, _⟩) => pure ()
  | v => invalid ("Unsupported payload codec version: " ++
      PyObjects.repr (v.getD (.scalar ⟨.null, isScalar_null⟩)))

/-- Whether a version is equal to the codec's. -/
def currentVersion : Encoded (Py Cls X) → Bool
  | .scalar v => v.1 = .int codecVersion ∨ v.1 = .bool true ∨ v.1 = .float (.finite 1)
  | .other x => PyObjects.isOne x
  | _ => false

def decodeDecimal : Decoding Cls X (Py Cls X) :=
  match (d.lookup "value").bind Encoded.string? with
  | some text =>
    match DecimalTexts.decimalFromText text with
    | some x =>
      if !x.isFinite then invalid "Decimal payload values must be finite" else pure (.decimal x)
    | none => invalid "Invalid decimal encoding"
  | none => invalid "Invalid decimal encoding"

/-- What is looked up, `None` being the same as a missing entry. -/
def given (key : String) : Option (Encoded (Py Cls X)) :=
  match d.lookup key with
  | some (.scalar ⟨.null, _⟩) | none => none
  | some v => some v

/-- The `type` of a mapping, or else what two other entries are put together to. -/
def namedType (first second : String) (together : String → String → String) : Option String :=
  match given d "type" with
  | some v => v.string?
  | none => do return together (← (← d.lookup first).string?) (← (← d.lookup second).string?)

/-- The dataclass shape, under either marker; `fields` is what its fields decode to. -/
def decodeObject (R : PayloadTypeRegistry Cls)
    (fields : Option (Decoding Cls X (List (String × Py Cls X)))) : Decoding Cls X (Py Cls X) :=
  match namedType d "module" "qualname" fun module qualname => module ++ ":" ++ qualname with
  | none | some "" => invalid "Dataclass encoding requires a type"
  | some id =>
    if (d.lookup "version").any fun v => !currentVersion v then
      invalid ("Unsupported dataclass payload version: " ++
        PyObjects.repr ((d.lookup "version").getD (.scalar ⟨.null, isScalar_null⟩)))
    else do
      let c ← liftExcept (R.resolve id)
      match fields with
      | none => invalid "Dataclass encoding requires fields"
      | some fields =>
        tryCatch (do liftExcept (PyObjects.construct c (← fields)))
          fun
          | .typeError _ => invalid ("Invalid fields for payload type " ++ id)
          | exc => throw exc

/-- The marker of a mapping, or else its legacy marker, says that it is a model reference. -/
def isModel : Bool :=
  ((match d.lookup codecKey with
    | some v => some v
    | none => d.lookup typeKey).bind Encoded.string?) = some modelMarker

/-- `conversion(value["value"])` on a marker object: only a string converts. -/
def decodeStamp {α : Type} (message : String) (conversion : String → Option α)
    (make : α → Scalar) : Decoding Cls X (Py Cls X) :=
  match d.lookup "value" with
  | none => throw (.keyError "value")
  | some v =>
    match v.string?.bind conversion with
    | some a => pure (.scalar (make a))
    | none => invalid message

/-- `UUID(value["value"])`, which looks for string methods on whatever it is given. -/
def decodeUuidStamp : Decoding Cls X (Py Cls X) :=
  match d.lookup "value" with
  | none | some (.scalar ⟨.str _, _⟩) | some (.scalar ⟨.null, _⟩) =>
    decodeStamp d "Invalid UUID encoding" uuidFromText fun u => ⟨.uuid u, isScalar_uuid u⟩
  | some _ => throw (.attributeError "replace")

/-- `decode_value` on a mapping with one of its own names under the type key. -/
def decodeKnown (name : String) : Decoding Cls X (Py Cls X) :=
  if name = "datetime" then
    decodeStamp d "Invalid datetime encoding" datetimeFromisoformat fun t => ⟨.datetime t, isScalar_datetime t⟩
  else if name = "date" then
    decodeStamp d "Invalid date encoding" dateFromisoformat fun day => ⟨.date day, isScalar_date day⟩
  else if name = "time" then
    decodeStamp d "Invalid time encoding" timeFromisoformat fun t => ⟨.time t, isScalar_time t⟩
  else decodeUuidStamp d

/-- `hash` raises `TypeError`. -/
def unhashable : Encoded (Py Cls X) → Bool
  | .scalar _ => false
  | .other x => PyObjects.unhashable x
  | .list _ | .dict _ => true

end Decoding

/-- A mapping that has been read. -/
def mapping (entries : List (String × Py Cls X)) : Py Cls X :=
  .dict (entries.map fun entry => (Key.ofString entry.1, entry.2))

mutual
/-- `self.decode`, or with `own` false the call of the generic codec's `decode` on `super()`. -/
def decode (C : ModelCodec Cls X) (own : Bool) : Encoded (Py Cls X) → Decoding Cls X (Py Cls X)
  | .scalar v => pure (.scalar v)
  | .other x => pure x
  | .list items => do return .list (← decodeItems C items)
  | .dict d =>
    match if own && isModel d then C.models else none with
    | some models => do
      if (d.lookup codecKey).isSome then validateCodecVersion d
      models.read d (decodePk C d)
    | none =>
      match d.lookup codecKey with
      | some marker =>
        match marker.string? with
        | none | some "" => invalid "Invalid payload codec type"
        | some kind => do
          validateCodecVersion d
          if kind = "mapping" then
            match decodeUnder C "value" d with
            | none => invalid "Invalid payload mapping encoding"
            | some entries => do
              let decoded ← entries
              let rest ← decodeRest C d
              return mapping (rest.foldl (fun d entry => Dictionary.put d entry.1 entry.2) decoded)
          else if kind = "decimal" then decodeDecimal d
          else if kind = "dataclass" then
            decodeObject d C.typeRegistry (decodeUnder C "fields" d)
          else invalid ("Unsupported payload codec type: " ++
            PyObjects.repr (.str kind : Encoded (Py Cls X)))
      | none =>
        match d.lookup typeKey with
        | none => do return mapping (← decodeEntries C d)
        | some marker =>
          if marker.string? = some "decimal" then decodeDecimal d
          else if marker.string? = some "dataclass" then
            decodeObject d C.typeRegistry (decodeUnder C "fields" d)
          -- the kind is looked up in a set, which hashes it
          else if unhashable marker then throw (.typeError "unhashable type")
          else
            match markerNames.find? fun name => marker.string? = some name with
            | some name => decodeKnown d name
            | none => do return mapping (← decodeEntries C d)

def decodeItems (C : ModelCodec Cls X) :
    List (Encoded (Py Cls X)) → Decoding Cls X (List (Py Cls X))
  | [] => pure []
  | v :: vs => do return (← decode C true v) :: (← decodeItems C vs)

def decodeEntries (C : ModelCodec Cls X) :
    Encoded.Entries (Py Cls X) → Decoding Cls X (List (String × Py Cls X))
  | [] => pure []
  | (k, v) :: d => do return (k, ← decode C true v) :: (← decodeEntries C d)

/-- The entries of the mapping under a key, `none` unless there is one. -/
def decodeUnder (C : ModelCodec Cls X) (key : String) :
    Encoded.Entries (Py Cls X) → Option (Decoding Cls X (List (String × Py Cls X)))
  | [] => none
  | (k, v) :: d =>
    if k = key then
      match v with
      | .dict entries => some (decodeEntries C entries)
      | _ => none
    else decodeUnder C key d

/-- The entries of a mapping shape next to its own. -/
def decodeRest (C : ModelCodec Cls X) :
    Encoded.Entries (Py Cls X) → Decoding Cls X (List (String × Py Cls X))
  | [] => pure []
  | (k, v) :: d =>
    if k = codecKey ∨ k = "version" ∨ k = "value" then decodeRest C d
    else do return (k, ← decode C true v) :: (← decodeRest C d)

/-- `super().decode(value.get("pk"))`. -/
def decodePk (C : ModelCodec Cls X) : Encoded.Entries (Py Cls X) → Decoding Cls X (Py Cls X)
  | [] => pure (.scalar ⟨.null, isScalar_null⟩)
  | (k, v) :: d => if k = "pk" then decode C false v else decodePk C d
end

end ModelCodec

variable {Cls X : Type} [DecidableEq Cls]

/-- The generic codec. -/
def PythonPayloadCodec.self (R : PayloadTypeRegistry Cls) : ModelCodec Cls X := ⟨R, none⟩

namespace DjangoPayloadCodec

open ModelCodec

variable [PyObjects Cls X]

/-- A resolver returns an object or `None`, or raises. -/
abbrev Resolvers (Cls X : Type) : Type := List (String × (Py Cls X → Except Exc (Py Cls X)))

/-- The part of `decode` on a model reference after its version has been checked. -/
def resolveReference (resolvers : Resolvers Cls X) (d : Encoded.Entries (Py Cls X))
    (decodePk : Decoding Cls X (Py Cls X)) : Decoding Cls X (Py Cls X) :=
  let modelType := namedType d "app_label" "model_name" fun appLabel modelName =>
    djangoTypePrefix ++ appLabel ++ "/" ++ modelName
  match modelType.filter fun modelType => djangoTypePrefix.toList.isPrefixOf modelType.toList with
  | none => invalid "Invalid Django model type"
  | some modelType =>
    match resolvers.lookup modelType with
    | none => invalid ("Django model type " ++
        PyObjects.repr (.str modelType : Encoded (Py Cls X)) ++ " has no configured resolver")
    | some resolver => do
      let pk ← decodePk
      let referred := modelType ++ "(" ++ PyObjects.str pk ++ ")"
      modify (· ++ [(modelType, pk)])
      match resolver pk with
      | .error (.deserialization message) => invalid message
      | .error _ => invalid ("Could not resolve Django model reference " ++ referred)
      | .ok (.scalar ⟨.null, _⟩) =>
        invalid ("Django model reference " ++ referred ++ " was not found")
      | .ok resolved => pure resolved

/-- The Django codec. -/
def self (R : PayloadTypeRegistry Cls) (resolvers : Resolvers Cls X) : ModelCodec Cls X where
  typeRegistry := R
  models := some {
    known := fun modelType => (resolvers.lookup modelType).isSome
    read := resolveReference resolvers }

end DjangoPayloadCodec

end Pybus
