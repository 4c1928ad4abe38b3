import Pybus.Wire

/-! The payload codec: its registry of dataclass types, and how it writes payload objects as JSON
values and reads them again. -/
namespace Pybus

open Value Texts

/-- A `Decimal`: a sign, a coefficient and an exponent of ten, unless it is infinite or no number. -/
inductive PyDecimal
  | finite (negative : Bool) (coefficient : Nat) (exponent : Int)
  | infinite (negative : Bool)
  | nan
  deriving DecidableEq, Repr

def PyDecimal.isFinite : PyDecimal → Bool
  | finite _ _ _ => true
  | _ => false

/-- A value that holds no other values. -/
def Value.isScalar : Value → Bool
  | .list _ | .dict _ => false
  | _ => true

abbrev Scalar := { v : Value // v.isScalar = true }

/-- Payload objects over the dataclass types `Cls`. An instance lists its fields in the order of
`fields`. -/
inductive Obj (Cls : Type)
  | scalar (v : Scalar)
  | decimal (x : PyDecimal)
  | object (cls : Cls) (attributes : List (String × Obj Cls))
  | list (items : List (Obj Cls))
  | tuple (items : List (Obj Cls))
  | dict (entries : List (String × Obj Cls))

/-- What the codec uses of an application's dataclass types: their names, the call of a type with
keyword arguments, and their equality. -/
class Dataclasses (Cls : Type) where
  name : Cls → String
  qualifiedName : Cls → String
  qualifiedName_ne_empty : ∀ c, qualifiedName c ≠ ""
  construct : Cls → List (String × Obj Cls) → Except Exc (Obj Cls)
  equals : Obj Cls → Obj Cls → Prop

/-- `str` on finite decimals and `Decimal` on texts, `none` where it raises `InvalidOperation`. -/
class DecimalTexts where
  decimalText : PyDecimal → String
  decimalFromText : String → Option PyDecimal

/-- `PayloadTypeRegistry`. An identifier keeps its type, and the canonical identifier of a type
leads back to it. -/
structure PayloadTypeRegistry (Cls : Type) [DecidableEq Cls] where
  types : List (String × Cls) := []
  canonicalIds : List (Cls × String) := []
  resolves : ∀ {c id}, canonicalIds.lookup c = some id → types.lookup id = some c := by simp
  named : ∀ {c id}, canonicalIds.lookup c = some id → id ≠ "" := by simp

namespace PayloadTypeRegistry

variable {Cls : Type} [DecidableEq Cls]

/-- `type_id_for`. -/
def typeIdFor [Dataclasses Cls] (R : PayloadTypeRegistry Cls) (c : Cls) : Except Exc String :=
  match R.canonicalIds.lookup c with
  | some id => .ok id
  | none => .error (.serialization
      ("Payload type " ++ Dataclasses.qualifiedName c ++ " is not registered"))

def resolve (R : PayloadTypeRegistry Cls) (id : String) : Except Exc Cls :=
  match R.types.lookup id with
  | some c => .ok c
  | none => .error (.deserialization ("Payload type " ++ id ++ " is not registered"))

/-- An identifier is entered unless it already stands for the type. -/
def enter (c : Cls) : List String → List (String × Cls) → List (String × Cls)
  | [], types => types
  | id :: ids, types =>
    enter c ids (if types.lookup id = none then types ++ [(id, c)] else types)

omit [DecidableEq Cls] in
theorem lookup_append_single {types : List (String × Cls)} {id k : String} {c : Cls} :
    (types ++ [(id, c)]).lookup k =
      (types.lookup k).or (if k = id then some c else none) := by
  rw [List.lookup_append]
  by_cases hk : k = id
  · subst hk
    simp
  · have hne : (k == id) = false := by simpa using hk
    simp [List.lookup_cons, hne, hk]

omit [DecidableEq Cls] in
/-- Nothing that was entered is lost. -/
theorem lookup_enter {c d : Cls} {k : String} : (ids : List String) →
    ∀ {types : List (String × Cls)}, types.lookup k = some d → (enter c ids types).lookup k = some d
  | [], _, h => h
  | id :: ids, types, h => by
    rw [enter]
    apply lookup_enter ids
    split
    · rw [lookup_append_single, h]
      rfl
    · exact h

omit [DecidableEq Cls] in
theorem lookup_enter_self {c : Cls} {id : String} {ids : List String} {types : List (String × Cls)}
    (h : ∀ d, types.lookup id = some d → d = c) :
    (enter c (id :: ids) types).lookup id = some c := by
  rw [enter]
  apply lookup_enter
  split
  · rename_i hn
    rw [lookup_append_single, hn]
    simp
  · rename_i hn
    obtain ⟨d, hd⟩ := Option.ne_none_iff_exists'.mp hn
    rw [hd, h d hd]

variable [Dataclasses Cls]

/-- `type_id or fully_qualified_type_name(value_type)`. -/
def identifier (c : Cls) (typeId : String) : String :=
  if typeId = "" then Dataclasses.qualifiedName c else typeId

omit [DecidableEq Cls] in
theorem identifier_ne_empty {c : Cls} {typeId : String} : identifier c typeId ≠ "" := by
  unfold identifier
  split
  · exact Dataclasses.qualifiedName_ne_empty c
  · assumption

/-- `register`: nothing is entered when the type has another identifier already, or one of the
identifiers another type. -/
def register (R : PayloadTypeRegistry Cls) (c : Cls) (typeId : String) (aliases : List String) :
    Except Exc (String × PayloadTypeRegistry Cls) :=
  let id := identifier c typeId
  if R.canonicalIds.lookup c ≠ none ∧ R.canonicalIds.lookup c ≠ some id then
    .error (.valueError ("Payload type is already registered as another identifier"))
  else if h : ∀ k ∈ id :: aliases, ∀ d, R.types.lookup k = some d → d = c then
    .ok (id, {
      types := enter c (id :: aliases) R.types
      canonicalIds := (c, id) :: R.canonicalIds
      resolves := by
        intro d k hd
        by_cases hdc : d = c
        · subst hdc
          rw [List.lookup_cons_self, Option.some.injEq] at hd
          rw [← hd]
          exact lookup_enter_self (h _ List.mem_cons_self)
        · have hne : (d == c) = false := by simpa using hdc
          rw [List.lookup_cons, hne] at hd
          exact lookup_enter _ (R.resolves hd)
      named := by
        intro d k hd
        by_cases hdc : d = c
        · subst hdc
          rw [List.lookup_cons_self, Option.some.injEq] at hd
          rw [← hd]
          exact identifier_ne_empty
        · have hne : (d == c) = false := by simpa using hdc
          rw [List.lookup_cons, hne] at hd
          exact R.named hd })
  else .error (.valueError "Payload type identifier is already registered")

end PayloadTypeRegistry

namespace Obj

variable {Cls : Type}

mutual
/-- A JSON value as a payload object. -/
def ofValue : Value → Obj Cls
  | .list items => .list (ofItems items)
  | .dict entries => .dict (ofEntries entries)
  | .null => .scalar ⟨.null, rfl⟩
  | .bool b => .scalar ⟨.bool b, rfl⟩
  | .int i => .scalar ⟨.int i, rfl⟩
  | .float x => .scalar ⟨.float x, rfl⟩
  | .str s => .scalar ⟨.str s, rfl⟩
  | .datetime d => .scalar ⟨.datetime d, rfl⟩
  | .date day => .scalar ⟨.date day, rfl⟩
  | .time t => .scalar ⟨.time t, rfl⟩
  | .uuid u => .scalar ⟨.uuid u, rfl⟩

def ofItems : List Value → List (Obj Cls)
  | [] => []
  | v :: vs => ofValue v :: ofItems vs

def ofEntries : Dict → List (String × Obj Cls)
  | [] => []
  | (k, v) :: d => (k, ofValue v) :: ofEntries d
end

/-- `d[k] = x`. -/
def set : List (String × Obj Cls) → String → Obj Cls → List (String × Obj Cls)
  | [], k, x => [(k, x)]
  | (l, y) :: d, k, x => if l = k then (k, x) :: d else (l, y) :: set d k x

/-- `d.update(e)`. -/
def update (d e : List (String × Obj Cls)) : List (String × Obj Cls) :=
  e.foldl (fun d entry => set d entry.1 entry.2) d

end Obj

namespace PythonPayloadCodec

def codecKey : String := "__pybus_codec__"

def typeKey : String := "__pybus_type__"

def codecVersion : Int := 1

variable {Cls : Type} [DecidableEq Cls] [Dataclasses Cls] [Texts] [DecimalTexts]

/-- The three shapes the codec owns. -/
def decimalShape (text : String) : Value :=
  .dict [(codecKey, .str "decimal"), ("version", .int codecVersion), ("value", .str text)]

def objectShape (id : String) (fields : Dict) : Value :=
  .dict [(codecKey, .str "dataclass"), ("type", .str id), ("version", .int codecVersion),
    ("fields", .dict fields)]

def mappingShape (entries : Dict) : Value :=
  .dict [(codecKey, .str "mapping"), ("version", .int codecVersion), ("value", .dict entries)]

mutual
/-- `encode`. -/
def encode (R : PayloadTypeRegistry Cls) : Obj Cls → Except Exc Value
  | .decimal x =>
    if !x.isFinite then .error (.serialization "Decimal payload values must be finite")
    else .ok (decimalShape (DecimalTexts.decimalText x))
  | .object c attributes => do
    let id ← R.typeIdFor c
    let fields ← encodeEntries R attributes
    return objectShape id fields
  | .dict entries => do
    let encoded ← encodeEntries R entries
    -- an application mapping with the codec's own key is wrapped
    return if (entries.lookup codecKey).isSome then mappingShape encoded else .dict encoded
  | .list items | .tuple items => do return .list (← encodeItems R items)
  | .scalar v => .ok (encodeValue v.1)

def encodeItems (R : PayloadTypeRegistry Cls) : List (Obj Cls) → Except Exc (List Value)
  | [] => .ok []
  | x :: xs => do return (← encode R x) :: (← encodeItems R xs)

def encodeEntries (R : PayloadTypeRegistry Cls) : List (String × Obj Cls) → Except Exc Dict
  | [] => .ok []
  | (k, x) :: d => do return (k, ← encode R x) :: (← encodeEntries R d)
end

/-- `_validate_codec_version`: the integer 1 and nothing equal to it. -/
def validateCodecVersion (d : Dict) : Except Exc Unit :=
  match d.lookup "version" with
  | some (.int i) =>
    if i = codecVersion then .ok ()
    else .error (.deserialization ("Unsupported payload codec version: " ++ Texts.repr (.int i)))
  | v => .error (.deserialization ("Unsupported payload codec version: " ++ Texts.repr (v.getD .null)))

/-- The version a dataclass shape may lack, or hold as anything that equals 1. -/
def validateObjectVersion (d : Dict) : Except Exc Unit :=
  match d.lookup "version" with
  | none => .ok ()
  | some v =>
    if v = .int codecVersion ∨ v = .bool true ∨ v = .float (.finite 1) then .ok ()
    else .error (.deserialization ("Unsupported dataclass payload version: " ++ Texts.repr v))

def decodeDecimal (d : Dict) : Except Exc (Obj Cls) :=
  match d.lookup "value" with
  | some (.str text) =>
    match DecimalTexts.decimalFromText text with
    | some x =>
      if !x.isFinite then .error (.deserialization "Decimal payload values must be finite")
      else .ok (.decimal x)
    | none => .error (.deserialization "Invalid decimal encoding")
  | _ => .error (.deserialization "Invalid decimal encoding")

/-- The type identifier of a dataclass shape: given, or put together from a module and a name. -/
def typeId (d : Dict) : Except Exc String :=
  let given : Value :=
    match get d "type" with
    | .null =>
      match get d "module", get d "qualname" with
      | .str module, .str qualname => .str (module ++ ":" ++ qualname)
      | _, _ => .null
    | v => v
  match given with
  | .str id =>
    if id = "" then .error (.deserialization "Dataclass encoding requires a type") else .ok id
  | _ => .error (.deserialization "Dataclass encoding requires a type")

/-- The call of a dataclass type: a `TypeError` means fields that do not fit. -/
def construct (c : Cls) (id : String) (fields : Except Exc (List (String × Obj Cls))) :
    Except Exc (Obj Cls) :=
  match fields.bind (Dataclasses.construct c) with
  | .error (.typeError _) => .error (.deserialization ("Invalid fields for payload type " ++ id))
  | r => r

/-- The dataclass shape, under either marker; `fields` is what its fields decode to. -/
def decodeObject (R : PayloadTypeRegistry Cls) (d : Dict)
    (fields : Option (Except Exc (List (String × Obj Cls)))) : Except Exc (Obj Cls) := do
  let id ← typeId d
  validateObjectVersion d
  let c ← R.resolve id
  match fields with
  | none => .error (.deserialization "Dataclass encoding requires fields")
  | some fields => construct c id fields

mutual
/-- `decode`. -/
def decode (R : PayloadTypeRegistry Cls) : Value → Except Exc (Obj Cls)
  | .list items => do return .list (← decodeItems R items)
  | .dict d =>
    match d.lookup codecKey with
    | some (.str kind) =>
      if kind = "" then .error (.deserialization "Invalid payload codec type")
      else do
        validateCodecVersion d
        if kind = "mapping" then
          match decodeUnder R "value" d with
          | none => .error (.deserialization "Invalid payload mapping encoding")
          | some entries => do
            let mapping ← entries
            return .dict (Obj.update mapping (← decodeRest R d))
        else if kind = "decimal" then decodeDecimal d
        else if kind = "dataclass" then decodeObject R d (decodeUnder R "fields" d)
        else .error (.deserialization ("Unsupported payload codec type: " ++ Texts.repr (.str kind)))
    | some _ => .error (.deserialization "Invalid payload codec type")
    | none =>
      match d.lookup typeKey with
      | some (.str "decimal") => decodeDecimal d
      | some (.str "dataclass") => decodeObject R d (decodeUnder R "fields" d)
      | some (.str name) =>
        if markerNames.contains name then (decodeValue (.dict d)).map Obj.ofValue
        else do return .dict (← decodeEntries R d)
      -- the kind is looked up in a set, which hashes it
      | some (.list _) | some (.dict _) => .error (.typeError "unhashable type")
      | _ => do return .dict (← decodeEntries R d)
  | v => (decodeValue v).map Obj.ofValue

def decodeItems (R : PayloadTypeRegistry Cls) : List Value → Except Exc (List (Obj Cls))
  | [] => .ok []
  | v :: vs => do return (← decode R v) :: (← decodeItems R vs)

def decodeEntries (R : PayloadTypeRegistry Cls) : Dict → Except Exc (List (String × Obj Cls))
  | [] => .ok []
  | (k, v) :: d => do return (k, ← decode R v) :: (← decodeEntries R d)

/-- The entries of the mapping under a key, `none` unless there is one. -/
def decodeUnder (R : PayloadTypeRegistry Cls) (key : String) :
    Dict → Option (Except Exc (List (String × Obj Cls)))
  | [] => none
  | (k, v) :: d =>
    if k = key then
      match v with
      | .dict entries => some (decodeEntries R entries)
      | _ => none
    else decodeUnder R key d

/-- The entries of a mapping shape next to its own. -/
def decodeRest (R : PayloadTypeRegistry Cls) : Dict → Except Exc (List (String × Obj Cls))
  | [] => .ok []
  | (k, v) :: d =>
    if k = codecKey ∨ k = "version" ∨ k = "value" then decodeRest R d
    else do return (k, ← decode R v) :: (← decodeRest R d)
end

end PythonPayloadCodec

end Pybus
