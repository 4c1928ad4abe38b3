import Mathlib.Data.Rat.Defs
import Mathlib.Data.List.Sort

/-! The exceptions of the package and the values that cross its serializer. -/
namespace Pybus

/-- A point in time, in microseconds since the epoch. -/
abbrev Instant := Int

theorem halfMinute_pos : (0 : Int) < 30000000 := by decide

theorem fiveMinutes_pos : (0 : Int) < 300000000 := by decide

/-- A UUID, by its integer. -/
abbrev Uuid := Nat

/-- The exceptions the code raises or tells apart; `other` is any further one. -/
inductive Exc
  | indeterminateDelivery (message : String)
  | workerAbort (message : String)
  | deliveryObservation (message : String)
  | handlerNotFound (message : String)
  | invalidMessageDefinition (message : String)
  | serialization (message : String)
  | deserialization (message : String)
  | jobConflict (message : String)
  | seriesNotFound (message : String)
  | integrityError
  | doesNotExist
  | runtimeError (message : String)
  | valueError (message : String)
  | typeError (message : String)
  | attributeError (message : String)
  | keyError (key : String)
  | other (name : String)
  deriving DecidableEq, Repr

namespace Exc

def typeName : Exc → String
  | indeterminateDelivery _ => "IndeterminateDeliveryError"
  | workerAbort _ => "WorkerAbortError"
  | deliveryObservation _ => "DeliveryObservationError"
  | handlerNotFound _ => "HandlerNotFoundError"
  | invalidMessageDefinition _ => "InvalidMessageDefinitionError"
  | serialization _ => "SerializationError"
  | deserialization _ => "DeserializationError"
  | jobConflict _ => "DurableJobConflictError"
  | seriesNotFound _ => "JobSeriesNotFoundError"
  | integrityError => "IntegrityError"
  | doesNotExist => "DoesNotExist"
  | runtimeError _ => "RuntimeError"
  | valueError _ => "ValueError"
  | typeError _ => "TypeError"
  | attributeError _ => "AttributeError"
  | keyError _ => "KeyError"
  | other name => name

def isIndeterminate : Exc → Bool
  | indeterminateDelivery _ => true
  | _ => false

/-- `isinstance(exc, WorkerAbortError)`; the observation error is a subclass. -/
def isWorkerAbort : Exc → Bool
  | workerAbort _ | deliveryObservation _ => true
  | _ => false

/-- The exceptions that stop a worker: what the first `except` clause of `listen_once` lets pass. -/
def stopsWorker (e : Exc) : Bool := e.isIndeterminate || e.isWorkerAbort

theorem stopsWorker_of_indeterminate {e : Exc} (h : e.isIndeterminate = true) :
    e.stopsWorker = true := by
  simp [stopsWorker, h]

end Exc

/-- A `datetime`: its wall clock in microseconds, and its UTC offset unless it is naive. -/
structure Datetime where
  wall : Int
  offset : Option Int
  deriving DecidableEq, Repr

def Datetime.utc (t : Instant) : Datetime := ⟨t, some 0⟩

/-- The instant of an aware datetime. -/
def Datetime.instant (d : Datetime) : Option Instant := d.offset.map (d.wall - ·)

/-- A `time`: microseconds since midnight, and its UTC offset unless it is naive. -/
structure ClockTime where
  micros : Nat
  offset : Option Int
  deriving DecidableEq, Repr

inductive PyFloat
  | finite (q : Rat)
  | nan
  | infinite (negative : Bool)
  deriving DecidableEq, Repr

/-- JSON values and the four kinds of objects that the serializer turns into marker objects. A
dictionary lists its entries in insertion order. -/
inductive Value
  | null
  | bool (b : Bool)
  | int (i : Int)
  | float (x : PyFloat)
  | str (s : String)
  | datetime (d : Datetime)
  | date (day : Int)
  | time (t : ClockTime)
  | uuid (u : Uuid)
  | list (items : List Value)
  | dict (entries : List (String × Value))
  deriving Repr

abbrev Dict := List (String × Value)

namespace Value

mutual
def beq : Value → Value → Bool
  | .null, .null => true
  | .bool a, .bool b => a == b
  | .int a, .int b => a == b
  | .float a, .float b => a == b
  | .str a, .str b => a == b
  | .datetime a, .datetime b => a == b
  | .date a, .date b => a == b
  | .time a, .time b => a == b
  | .uuid a, .uuid b => a == b
  | .list a, .list b => beqItems a b
  | .dict a, .dict b => beqEntries a b
  | _, _ => false

def beqItems : List Value → List Value → Bool
  | [], [] => true
  | a :: as, b :: bs => beq a b && beqItems as bs
  | _, _ => false

def beqEntries : List (String × Value) → List (String × Value) → Bool
  | [], [] => true
  | (k, a) :: as, (l, b) :: bs => k == l && beq a b && beqEntries as bs
  | _, _ => false
end

mutual
theorem beq_iff : (a b : Value) → (beq a b = true ↔ a = b)
  | .list a, b => by cases b <;> simp [beq, beqItems_iff a]
  | .dict a, b => by cases b <;> simp [beq, beqEntries_iff a]
  | .null, b | .bool _, b | .int _, b | .float _, b | .str _, b | .datetime _, b | .date _, b
  | .time _, b | .uuid _, b => by cases b <;> simp [beq]

theorem beqItems_iff : (a b : List Value) → (beqItems a b = true ↔ a = b)
  | [], b => by cases b <;> simp [beqItems]
  | a :: as, b => by cases b <;> simp [beqItems, beq_iff a, beqItems_iff as]

theorem beqEntries_iff : (a b : List (String × Value)) → (beqEntries a b = true ↔ a = b)
  | [], b => by cases b <;> simp [beqEntries]
  | (k, a) :: as, b => by
    cases b with
    | nil => simp [beqEntries]
    | cons e bs => obtain ⟨l, b⟩ := e; simp [beqEntries, beq_iff a, beqEntries_iff as]
end

instance : DecidableEq Value := fun a b =>
  if h : beq a b = true then .isTrue ((beq_iff a b).mp h)
  else .isFalse fun e => h ((beq_iff a b).mpr e)

/-- Python's truth value. -/
def truthy : Value → Bool
  | .null => false
  | .bool b => b
  | .int i => i != 0
  | .float x => x != .finite 0
  | .str s => s != ""
  | .list items => !items.isEmpty
  | .dict entries => !entries.isEmpty
  | _ => true

/-- Whether `hash` accepts the value, as a dictionary lookup needs. -/
def hashable : Value → Bool
  | .list _ | .dict _ => false
  | _ => true

/-- `dict.get`, with `None` for a missing key. -/
def get (d : Dict) (k : String) : Value := (d.lookup k).getD .null

/-- `d[k] = v`: an existing key keeps its place. -/
def set : Dict → String → Value → Dict
  | [], k, v => [(k, v)]
  | (l, w) :: d, k, v => if l = k then (k, v) :: d else (l, w) :: set d k v

theorem lookup_set (d : Dict) (k : String) (v : Value) : (set d k v).lookup k = some v := by
  induction d with
  | nil => simp [set]
  | cons e d ih =>
    obtain ⟨l, w⟩ := e
    by_cases h : l = k
    · simp [set, h]
    · have hk : (k == l) = false := by simpa using Ne.symm h
      simp [set, h, List.lookup_cons, hk, ih]

theorem lookup_set_ne {d : Dict} {k l : String} {v : Value} (h : l ≠ k) :
    (set d k v).lookup l = d.lookup l := by
  induction d with
  | nil =>
    have hl : (l == k) = false := by simpa using h
    simp [set, List.lookup_cons, hl]
  | cons e d ih =>
    obtain ⟨m, w⟩ := e
    by_cases hm : m = k
    · have hl : (l == k) = false := by simpa using h
      simp [set, hm, List.lookup_cons, hl]
    · simp [set, hm, List.lookup_cons, ih]

end Value

/-- Bytes on the wire. A JSON text is kept as the document it denotes, any other bytes with the
exception `json.loads` raises on them. -/
inductive Raw
  | json (document : Value)
  | malformed (bytes : List UInt8) (error : Exc)
  deriving Repr, DecidableEq

/-- Text conversions of the standard library: `isoformat`, `fromisoformat`, `str`, `repr`, `UUID`,
`int` and `base64.b64encode`. -/
class Texts where
  datetimeIsoformat : Datetime → String
  datetimeFromisoformat : String → Option Datetime
  dateIsoformat : Int → String
  dateFromisoformat : String → Option Int
  timeIsoformat : ClockTime → String
  timeFromisoformat : String → Option ClockTime
  uuidText : Uuid → String
  uuidFromText : String → Option Uuid
  intFromText : String → Option Int
  base64 : Raw → String
  str : Value → String
  repr : Value → String
  uuid_round : ∀ u, uuidFromText (uuidText u) = some u
  uuidText_ne_empty : ∀ u, uuidText u ≠ ""

/-- Conversions that agree with the standard library on the epoch and on the identifiers 1 and 2. -/
@[reducible] def Texts.sample : Texts where
  datetimeIsoformat d := if d = .utc 0 then "1970-01-01T00:00:00+00:00" else ""
  datetimeFromisoformat s := if s = "1970-01-01T00:00:00+00:00" then some (.utc 0) else none
  dateIsoformat d := if d = 0 then "1970-01-01" else ""
  dateFromisoformat s := if s = "1970-01-01" then some 0 else none
  timeIsoformat t := if t = ⟨0, none⟩ then "00:00:00" else ""
  timeFromisoformat s := if s = "00:00:00" then some ⟨0, none⟩ else none
  uuidText u :=
    if u = 1 then "00000000-0000-0000-0000-000000000001"
    else if u = 2 then "00000000-0000-0000-0000-000000000002"
    else String.ofList (List.replicate (u + 1) 'x')
  uuidFromText s :=
    if s = "00000000-0000-0000-0000-000000000001" then some 1
    else if s = "00000000-0000-0000-0000-000000000002" then some 2
    else some (s.length - 1)
  intFromText s := s.toInt?
  base64 _ := ""
  str _ := ""
  repr _ := ""
  uuid_round := by
    intro u
    by_cases h₁ : u = 1
    · simp [h₁]
    by_cases h₂ : u = 2
    · simp [h₂]
    have hne : ∀ t : String, t.toList.all (· = 'x') = false →
        String.ofList (List.replicate (u + 1) 'x') ≠ t := by
      intro t ht he
      simp [← he] at ht
    have hne₁ := hne "00000000-0000-0000-0000-000000000001" (by decide)
    have hne₂ := hne "00000000-0000-0000-0000-000000000002" (by decide)
    simp [h₁, h₂, hne₁, hne₂]
  uuidText_ne_empty := by
    intro u
    by_cases h₁ : u = 1
    · simp [h₁]
    by_cases h₂ : u = 2
    · simp [h₂]
    simp [h₁, h₂, String.ofList_eq_empty_iff]

open Texts

variable [Texts]

theorem uuidText_injective {u v : Uuid} (h : uuidText u = uuidText v) : u = v := by
  have hu := uuid_round u
  rw [h, uuid_round v] at hu
  exact (Option.some.inj hu).symm

/-- `str(v)`; a string is its own text. -/
def Value.text : Value → String
  | .str s => s
  | v => Texts.str v

/-- A marker object; a naive datetime is taken to be UTC. -/
def marker (name text : String) : Value :=
  .dict [("__pybus_type__", .str name), ("value", .str text)]

def encodeDatetime (d : Datetime) : Value :=
  marker "datetime" (datetimeIsoformat { d with offset := some (d.offset.getD 0) })

mutual
def encodeValue : Value → Value
  | .datetime d => encodeDatetime d
  | .date day => marker "date" (dateIsoformat day)
  | .time t => marker "time" (timeIsoformat t)
  | .uuid u => marker "uuid" (uuidText u)
  | .dict entries => .dict (encodeEntries entries)
  | .list items => .list (encodeItems items)
  | v => v

def encodeItems : List Value → List Value
  | [] => []
  | v :: vs => encodeValue v :: encodeItems vs

def encodeEntries : Dict → Dict
  | [] => []
  | (k, v) :: d => (k, encodeValue v) :: encodeEntries d
end

/-- `conversion(value["value"])` on a marker object: only a string converts. -/
def decodeMarker {α : Type} (entries : Dict) (message : String) (conversion : String → Option α)
    (make : α → Value) : Except Exc Value :=
  match entries.lookup "value" with
  | none => .error (.keyError "value")
  | some (.str s) =>
    match conversion s with
    | some a => .ok (make a)
    | none => .error (.deserialization message)
  | some _ => .error (.deserialization message)

/-- `UUID(value["value"])`, which looks for string methods on whatever it is given. -/
def decodeUuid (entries : Dict) : Except Exc Value :=
  match entries.lookup "value" with
  | some (.bool _) | some (.int _) | some (.float _) | some (.uuid _) | some (.list _)
  | some (.dict _) => .error (.attributeError "replace")
  | _ => decodeMarker entries "Invalid UUID encoding" uuidFromText .uuid

mutual
def decodeValue : Value → Except Exc Value
  | .list items => do return .list (← decodeItems items)
  | .dict entries =>
    match entries.lookup "__pybus_type__" with
    | some (.str "datetime") =>
      decodeMarker entries "Invalid datetime encoding" datetimeFromisoformat .datetime
    | some (.str "date") =>
      decodeMarker entries "Invalid date encoding" dateFromisoformat .date
    | some (.str "time") =>
      decodeMarker entries "Invalid time encoding" timeFromisoformat .time
    | some (.str "uuid") => decodeUuid entries
    | _ => do return .dict (← decodeEntries entries)
  | v => .ok v

def decodeItems : List Value → Except Exc (List Value)
  | [] => .ok []
  | v :: vs => do return (← decodeValue v) :: (← decodeItems vs)

def decodeEntries : Dict → Except Exc Dict
  | [] => .ok []
  | (k, v) :: d => do return (k, ← decodeValue v) :: (← decodeEntries d)
end

mutual
/-- The order `sort_keys=True` writes keys in. -/
def sortKeys : Value → Value
  | .dict entries =>
    .dict ((sortEntries entries).insertionSort fun a b => decide (a.1 ≤ b.1))
  | .list items => .list (sortItems items)
  | v => v

def sortItems : List Value → List Value
  | [] => []
  | v :: vs => sortKeys v :: sortItems vs

def sortEntries : Dict → Dict
  | [] => []
  | (k, v) :: d => (k, sortKeys v) :: sortEntries d
end

namespace JsonSerializer

/-- `dumps`: the text is kept as the document it denotes, with its keys in order. -/
def dumps (v : Value) : Value := sortKeys (encodeValue v)

def loads : Raw → Except Exc Value
  | .json document => decodeValue document
  | .malformed _ error => .error error

end JsonSerializer

end Pybus
