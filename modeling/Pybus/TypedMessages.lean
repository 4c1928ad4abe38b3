import Pybus.CodecRounds
import Pybus.Handlers

/-! Typed messages on their way through payload codec, envelope and serializer, and back. -/
namespace Pybus

open Value Texts

namespace Obj

variable {Cls : Type}

/-- Entries in the order of their keys. -/
def sorted (d : List (String × Obj Cls)) : List (String × Obj Cls) :=
  d.insertionSort fun a b => decide (a.1 ≤ b.1)

mutual
/-- The object with its tuples as lists and its mappings in the order of their keys: what equal
objects have in common. -/
def canonical : Obj Cls → Obj Cls
  | .object c attributes => .object c (canonicalEntries attributes)
  | .list items | .tuple items => .list (canonicalItems items)
  | .dict entries => .dict (sorted (canonicalEntries entries))
  | x => x

def canonicalItems : List (Obj Cls) → List (Obj Cls)
  | [] => []
  | x :: xs => canonical x :: canonicalItems xs

def canonicalEntries : List (String × Obj Cls) → List (String × Obj Cls)
  | [] => []
  | (k, x) :: d => (k, canonical x) :: canonicalEntries d
end

/-- Equality of objects that tells neither tuples from lists nor the order of keys. -/
def Alike (x y : Obj Cls) : Prop := x.canonical = y.canonical

variable [Dataclasses Cls]

/-- Calling the type with keyword arguments for exactly these fields stores them as given. -/
def StoresFields (c : Cls) (names : List String) : Prop :=
  names.Nodup ∧ ∀ kwargs : List (String × Obj Cls), (kwargs.map (·.1)).Perm names →
    Dataclasses.construct c kwargs =
      .ok (.object c (names.filterMap fun name => (kwargs.lookup name).map fun x => (name, x)))

variable [DecidableEq Cls]

mutual
/-- What the fields of a typed message may be built from: scalars with aware datetimes, finite
decimals, registered plain dataclasses, lists, tuples and mappings, without the type key. -/
def Payload (R : PayloadTypeRegistry Cls) : Obj Cls → Prop
  | .scalar v => awareScalar v.1 = true
  | .decimal a => a.isFinite = true
  | .object c attributes => (R.typeIdFor c).isOk ∧ StoresFields c (attributes.map (·.1)) ∧
      "__pybus_type__" ∉ attributes.map (·.1) ∧ PayloadEntries R attributes
  | .list items | .tuple items => PayloadItems R items
  | .dict entries => "__pybus_type__" ∉ entries.map (·.1) ∧ PayloadEntries R entries

def PayloadItems (R : PayloadTypeRegistry Cls) : List (Obj Cls) → Prop
  | [] => True
  | x :: xs => Payload R x ∧ PayloadItems R xs

def PayloadEntries (R : PayloadTypeRegistry Cls) : List (String × Obj Cls) → Prop
  | [] => True
  | (_, x) :: d => Payload R x ∧ PayloadEntries R d
end

end Obj

namespace PythonPayloadCodec

variable {Cls : Type} [DecidableEq Cls] [Dataclasses Cls] [Texts] [DecimalTexts]
  {R : PayloadTypeRegistry Cls}

/-- What an object is written as before the serializer's own objects are: it travels unchanged, and
is read back up to the order of keys. -/
structure Travels (R : PayloadTypeRegistry Cls) (x : Obj Cls) (p : Value) : Prop where
  plain : p.plain = true
  inUtc : p.inUtc = p
  encoded : encode R x = .ok (encodeValue p)
  decoded : decode R (sortKeys p) = .ok x.canonical

structure TravelItems (R : PayloadTypeRegistry Cls) (xs : List (Obj Cls)) (ps : List Value) :
    Prop where
  plain : plainItems ps = true
  inUtc : inUtcItems ps = ps
  encoded : encodeItems R xs = .ok (Pybus.encodeItems ps)
  decoded : decodeItems R (sortItems ps) = .ok (Obj.canonicalItems xs)

structure TravelEntries (R : PayloadTypeRegistry Cls) (d : List (String × Obj Cls)) (p : Dict) :
    Prop where
  keys : p.map (·.1) = d.map (·.1)
  plain : plainEntries p = true
  inUtc : inUtcEntries p = p
  encoded : encodeEntries R d = .ok (Pybus.encodeEntries p)
  decoded : decodeEntries R (sortEntries p) = .ok (Obj.canonicalEntries d)

section Sorted

variable {d : List (String × Obj Cls)} {p : Dict} {k : String} {x : Obj Cls} {v : Value}

omit [DecidableEq Cls] [Dataclasses Cls] [Texts] [DecimalTexts] in
theorem perm_sorted : (Obj.sorted d).Perm d := List.perm_insertionSort _ d

theorem decodeEntries_cons (hv : decode R v = .ok x) (hd : decodeEntries R p = .ok d) :
    decodeEntries R ((k, v) :: p) = .ok ((k, x) :: d) := by
  rw [decodeEntries, hv, hd]
  rfl

theorem decodeEntries_of_cons (h : decodeEntries R ((k, v) :: p) = .ok d) :
    ∃ x d₁, decode R v = .ok x ∧ decodeEntries R p = .ok d₁ ∧ d = (k, x) :: d₁ := by
  rw [decodeEntries] at h
  obtain ⟨x, hx, h⟩ := MessageEnvelope.bind_eq_ok h
  obtain ⟨d₁, hd, h⟩ := MessageEnvelope.bind_eq_ok h
  cases h
  exact ⟨x, d₁, hx, hd, rfl⟩

theorem decodeEntries_orderedInsert (hv : decode R v = .ok x) (hd : decodeEntries R p = .ok d) :
    decodeEntries R (p.orderedInsert (fun a b => keyOrder a b) (k, v)) =
      .ok (d.orderedInsert (fun a b => decide (a.1 ≤ b.1)) (k, x)) := by
  induction p generalizing d with
  | nil =>
    cases hd
    exact decodeEntries_cons hv rfl
  | cons e p ih =>
    obtain ⟨l, w⟩ := e
    obtain ⟨y, d₁, hy, hd₁, rfl⟩ := decodeEntries_of_cons hd
    rw [List.orderedInsert_cons, List.orderedInsert_cons]
    by_cases hle : k ≤ l
    · rw [if_pos (by simpa [keyOrder] using hle), if_pos (by simpa using hle)]
      exact decodeEntries_cons hv hd
    · rw [if_neg (by simpa [keyOrder] using hle), if_neg (by simpa using hle)]
      exact decodeEntries_cons hy (ih hd₁)

/-- Sorting entries before or after they are read is the same. -/
theorem decodeEntries_sorted (hd : decodeEntries R p = .ok d) :
    decodeEntries R (Value.sorted p) = .ok (Obj.sorted d) := by
  induction p generalizing d with
  | nil =>
    cases hd
    rfl
  | cons e p ih =>
    obtain ⟨k, v⟩ := e
    obtain ⟨x, d₁, hx, hd₁, rfl⟩ := decodeEntries_of_cons hd
    exact decodeEntries_orderedInsert hx (ih hd₁)

omit [DecidableEq Cls] [Dataclasses Cls] [Texts] [DecimalTexts] in
theorem keys_canonicalEntries : (Obj.canonicalEntries d).map (·.1) = d.map (·.1) := by
  induction d with
  | nil => rfl
  | cons e d ih =>
    obtain ⟨k, x⟩ := e
    rw [Obj.canonicalEntries, List.map_cons, List.map_cons, ih]

omit [DecidableEq Cls] [Dataclasses Cls] [Texts] [DecimalTexts] in
theorem lookup_of_mem (hn : (d.map (·.1)).Nodup) (h : (k, x) ∈ d) : d.lookup k = some x := by
  obtain ⟨l₁, l₂, rfl⟩ := List.append_of_mem h
  rw [List.map_append, List.map_cons] at hn
  refine List.lookup_eq_some_iff.mpr ⟨l₁, l₂, rfl, fun e he => ?_⟩
  have hne := (List.nodup_append.mp hn).2.2 _ (List.mem_map_of_mem he) _ List.mem_cons_self
  simpa using Ne.symm hne

omit [DecidableEq Cls] [Dataclasses Cls] [Texts] [DecimalTexts] in
/-- Entries with distinct keys are found by their keys, in whatever order. -/
theorem filterMap_lookup {d' : List (String × Obj Cls)} (hn : (d.map (·.1)).Nodup)
    (hp : d'.Perm d) : (d.map (·.1)).filterMap (fun name => (d'.lookup name).map fun x => (name, x))
      = d := by
  have hn' : (d'.map (·.1)).Nodup := (hp.map _).nodup_iff.mpr hn
  have hfound : ∀ e ∈ d, (d'.lookup e.1).map (fun x => (e.1, x)) = some e := fun e he => by
    rw [lookup_of_mem (x := e.2) hn' (hp.mem_iff.mpr he)]
    rfl
  rw [List.filterMap_map]
  calc d.filterMap _ = d.filterMap some := List.filterMap_congr hfound
    _ = d := List.filterMap_some

end Sorted

section Travelling

omit [DecidableEq Cls] [Dataclasses Cls] [Texts] [DecimalTexts] in
theorem eq_ok_of_toOption {α : Type} {r : Except Exc α} {a : α} (h : r.toOption = some a) :
    r = .ok a := by
  cases r with
  | error exc => cases h
  | ok b => rw [Option.some.inj h]

variable {d : List (String × Obj Cls)} {p : Dict} {k : String} {x : Obj Cls} {v : Value}

theorem travels_scalar {v : Scalar} (h : Obj.awareScalar v.1 = true) :
    Travels R (.scalar v) v.1 := by
  obtain ⟨v, hv⟩ := v
  cases v with
  | list items => simp [isScalar] at hv
  | dict entries => simp [isScalar] at hv
  | datetime a =>
    obtain ⟨wall, offset⟩ := a
    cases offset with
    | none => simp [Obj.awareScalar] at h
    | some o =>
      refine ⟨?_, ?_, ?_, ?_⟩
      · simp only [plain]
      · simp [inUtc]
      · rw [encode]
      · simp [sortKeys, decode, decodeValue, Except.map, Obj.ofValue, Obj.canonical]
  | _ =>
    refine ⟨?_, ?_, ?_, ?_⟩
    · simp only [plain]
    · simp only [inUtc]
    · rw [encode]
    · simp [sortKeys, decode, decodeValue, Except.map, Obj.ofValue, Obj.canonical]

omit [Texts] [DecimalTexts] in
theorem lookup_shape : (Value.sorted (sortEntries p)).lookup k = (p.lookup k).map sortKeys := by
  rw [lookup_sorted, lookup_sortEntries]

theorem travels_decimal [RoundDecimals] {a : PyDecimal} (h : a.isFinite = true) :
    Travels R (.decimal a : Obj Cls) (decimalShape (DecimalTexts.decimalText a)) := by
  refine ⟨?_, ?_, ?_, ?_⟩
  · simp [decimalShape, codecKey, plain, plainEntries, isMarker, List.lookup_cons]
  · simp [decimalShape, inUtc, inUtcEntries]
  · simp [encode, h, decimalShape, encodeValue, Pybus.encodeEntries]
  · rw [decimalShape, sortKeys_dict, Obj.canonical]
    · exact decode_decimal (by rw [lookup_shape]; simp [sortKeys])
        (by rw [lookup_shape]; simp [codecKey, sortKeys, List.lookup_cons])
        (by rw [lookup_shape]; simp [codecKey, sortKeys, List.lookup_cons]) 
        (RoundDecimals.decimal_round a h) h
    all_goals
      intros
      simp_all

omit [DecidableEq Cls] [Dataclasses Cls] [Texts] [DecimalTexts] in
theorem lookup_of_absent (h : k ∉ p.map (·.1)) : p.lookup k = none := by
  rw [List.lookup_eq_none_iff]
  intro e he
  have hne : k ≠ e.1 := fun heq => h (heq ▸ List.mem_map_of_mem he)
  simpa using hne

omit [Texts] [DecimalTexts] in
theorem isMarker_of_absent (h : "__pybus_type__" ∉ p.map (·.1)) : isMarker p = false := by
  rw [isMarker, lookup_of_absent h]

theorem travels_object {c : Cls} {attributes : List (String × Obj Cls)} {id : String}
    (hid : R.typeIdFor c = .ok id) (hs : Obj.StoresFields c (attributes.map (·.1)))
    (hk : "__pybus_type__" ∉ attributes.map (·.1)) (h : TravelEntries R attributes p) :
    Travels R (.object c attributes) (objectShape id p) := by
  have hmarker : isMarker p = false := isMarker_of_absent (by rw [h.keys]; exact hk)
  refine ⟨?_, ?_, ?_, ?_⟩
  · simp [objectShape, codecKey, plain, plainEntries, isMarker, List.lookup_cons] at hmarker ⊢
    exact ⟨hmarker, h.plain⟩
  · simp [objectShape, inUtc, inUtcEntries, h.inUtc]
  · rw [encode, hid, h.encoded]
    simp [objectShape, encodeValue, Pybus.encodeEntries, bind, Except.bind, pure, Except.pure]
  · have hread := decode_dataclass (R := R) (c := c) (i := id)
      (f := Value.sorted (sortEntries p))
      (d := Value.sorted (sortEntries [(codecKey, .str "dataclass"), ("type", .str id),
        ("version", .int codecVersion), ("fields", .dict p)]))
      (by rw [lookup_shape]; simp [sortKeys])
      (by rw [lookup_shape]; simp [codecKey, sortKeys, List.lookup_cons])
      (by rw [lookup_shape]; simp [codecKey, sortKeys, List.lookup_cons])
      (by rw [lookup_shape, ← sortKeys_dict]; simp [codecKey, List.lookup_cons]) hid
    have hperm : (Obj.sorted (Obj.canonicalEntries attributes)).Perm
        (Obj.canonicalEntries attributes) := perm_sorted
    have hkeys := hperm.map (·.1)
    rw [keys_canonicalEntries] at hkeys
    have hn : ((Obj.canonicalEntries attributes).map (·.1)).Nodup := by
      rw [keys_canonicalEntries]
      exact hs.1
    have hfound := filterMap_lookup hn hperm
    rw [keys_canonicalEntries] at hfound
    rw [decodeEntries_sorted h.decoded] at hread
    simp only [Except.toOption, Option.bind_some] at hread
    rw [hs.2 _ hkeys, hfound] at hread
    rw [objectShape, sortKeys_dict, Obj.canonical]
    exact eq_ok_of_toOption hread

omit [DecidableEq Cls] [Dataclasses Cls] [Texts] [DecimalTexts] in
theorem lookup_none_of_keys (h : p.map (·.1) = d.map (·.1)) (hd : d.lookup k = none) :
    p.lookup k = none := by
  rw [List.lookup_eq_none_iff] at hd ⊢
  intro e he
  have hmem : e.1 ∈ d.map (·.1) := h ▸ List.mem_map_of_mem he
  obtain ⟨e', he', heq⟩ := List.mem_map.mp hmem
  rw [← heq]
  exact hd e' he'

/-- A mapping without the codec's own key travels as it is. -/
theorem travels_unwrapped (hk : "__pybus_type__" ∉ d.map (·.1)) (hc : d.lookup codecKey = none)
    (h : TravelEntries R d p) : Travels R (.dict d) (.dict p) := by
  have hmarker : isMarker p = false := isMarker_of_absent (by rw [h.keys]; exact hk)
  have hread := decodeEntries_sorted h.decoded
  refine ⟨?_, ?_, ?_, ?_⟩
  · rw [plain, hmarker, h.plain]
    rfl
  · rw [inUtc, h.inUtc]
  · rw [encode, h.encoded, encodeValue]
    simp [bind, Except.bind, pure, Except.pure, hc]
  · have hcodec : (Value.sorted (sortEntries p)).lookup codecKey = none := by
      rw [lookup_shape, lookup_none_of_keys h.keys hc]
      rfl
    have htype : (Value.sorted (sortEntries p)).lookup typeKey = none := by
      rw [lookup_shape, typeKey, lookup_of_absent (by rw [h.keys]; exact hk)]
      rfl
    rw [sortKeys_dict, decode, hcodec]
    simp only [htype, hread, Obj.canonical]
    rfl

/-- A mapping with the codec's own key travels in a wrapper, any other as it is. -/
theorem travels_dict (hk : "__pybus_type__" ∉ d.map (·.1)) (h : TravelEntries R d p) :
    ∃ q, Travels R (.dict d) (.dict q) := by
  have hmarker : isMarker p = false := isMarker_of_absent (by rw [h.keys]; exact hk)
  have hread := decodeEntries_sorted h.decoded
  cases hc : d.lookup codecKey with
  | some y =>
    refine ⟨[(codecKey, .str "mapping"), ("version", .int codecVersion), ("value", .dict p)],
      ?_, ?_, ?_, ?_⟩
    · simp [codecKey, plain, plainEntries, isMarker, List.lookup_cons] at hmarker ⊢
      exact ⟨hmarker, h.plain⟩
    · simp [inUtc, inUtcEntries, h.inUtc]
    · rw [encode, h.encoded]
      simp [mappingShape, encodeValue, Pybus.encodeEntries, bind, Except.bind, pure, Except.pure, hc]
    · have hmapping := decode_mapping (R := R) (m := Value.sorted (sortEntries p))
        (d := Value.sorted (sortEntries [(codecKey, .str "mapping"),
          ("version", .int codecVersion), ("value", .dict p)]))
        (by rw [lookup_shape]; simp [sortKeys])
        (by rw [lookup_shape]; simp [codecKey, sortKeys, List.lookup_cons])
        (by rw [lookup_shape, ← sortKeys_dict]; simp [codecKey, List.lookup_cons])
        (fun e he => by
          rw [Value.sorted, List.mem_insertionSort, sortEntries_eq_map] at he
          simp only [List.map_cons, List.map_nil, List.mem_cons, List.not_mem_nil, or_false] at he
          rcases he with rfl | rfl | rfl <;> simp)
      rw [sortKeys_dict, hmapping, hread, Obj.canonical]
      rfl
  | none => exact ⟨p, travels_unwrapped hk hc h⟩

end Travelling

mutual
theorem travels [RoundDecimals] : (x : Obj Cls) → Obj.Payload R x → ∃ p, Travels R x p
  | .scalar v, h => by
    rw [Obj.Payload] at h
    exact ⟨v.1, travels_scalar h⟩
  | .decimal a, h => by
    rw [Obj.Payload] at h
    exact ⟨_, travels_decimal h⟩
  | .object c attributes, h => by
    rw [Obj.Payload] at h
    obtain ⟨hid, hs, hk, hentries⟩ := h
    obtain ⟨p, hp⟩ := travelEntries attributes hentries
    cases hc : R.typeIdFor c with
    | error exc =>
      rw [hc] at hid
      cases hid
    | ok id => exact ⟨_, travels_object hc hs hk hp⟩
  | .list items, h => by
    rw [Obj.Payload] at h
    obtain ⟨ps, hp, hu, he, hd⟩ := travelItems items h
    refine ⟨.list ps, ?_, ?_, ?_, ?_⟩
    · rw [plain, hp]
    · rw [inUtc, hu]
    · rw [encode, he, encodeValue]
      rfl
    · rw [sortKeys, decode, hd, Obj.canonical]
      rfl
  | .tuple items, h => by
    rw [Obj.Payload] at h
    obtain ⟨ps, hp, hu, he, hd⟩ := travelItems items h
    refine ⟨.list ps, ?_, ?_, ?_, ?_⟩
    · rw [plain, hp]
    · rw [inUtc, hu]
    · rw [encode, he, encodeValue]
      rfl
    · rw [sortKeys, decode, hd, Obj.canonical]
      rfl
  | .dict entries, h => by
    rw [Obj.Payload] at h
    obtain ⟨p, hp⟩ := travelEntries entries h.2
    obtain ⟨q, hq⟩ := travels_dict h.1 hp
    exact ⟨_, hq⟩

theorem travelItems [RoundDecimals] : (xs : List (Obj Cls)) → Obj.PayloadItems R xs →
    ∃ ps, TravelItems R xs ps
  | [], _ => ⟨[], rfl, rfl, rfl, rfl⟩
  | x :: xs, h => by
    rw [Obj.PayloadItems] at h
    obtain ⟨p, hp, hu, he, hd⟩ := travels x h.1
    obtain ⟨ps, hps, hus, hes, hds⟩ := travelItems xs h.2
    refine ⟨p :: ps, ?_, ?_, ?_, ?_⟩
    · rw [plainItems, hp, hps]
      rfl
    · rw [inUtcItems, hu, hus]
    · rw [encodeItems, he, hes]
      rfl
    · rw [sortItems, decodeItems, hd, hds]
      rfl

theorem travelEntries [RoundDecimals] : (d : List (String × Obj Cls)) → Obj.PayloadEntries R d →
    ∃ p, TravelEntries R d p
  | [], _ => ⟨[], rfl, rfl, rfl, rfl, rfl⟩
  | (k, x) :: d, h => by
    rw [Obj.PayloadEntries] at h
    obtain ⟨p, hp, hu, he, hd⟩ := travels x h.1
    obtain ⟨ps, hks, hps, hus, hes, hds⟩ := travelEntries d h.2
    refine ⟨(k, p) :: ps, ?_, ?_, ?_, ?_, ?_⟩
    · rw [List.map_cons, List.map_cons, hks]
    · rw [plainEntries, hp, hps]
      rfl
    · rw [inUtcEntries, hu, hus]
    · rw [encodeEntries, he, hes]
      rfl
    · rw [sortEntries]
      exact decodeEntries_cons hd hds
end

/-- A mapping travels as a mapping. -/
theorem travels_mapping [RoundDecimals] {d : List (String × Obj Cls)}
    (h : Obj.Payload R (.dict d)) : ∃ q, Travels R (.dict d) (.dict q) := by
  rw [Obj.Payload] at h
  obtain ⟨p, hp⟩ := travelEntries d h.2
  exact travels_dict h.1 hp

end PythonPayloadCodec

namespace Obj

variable {Cls : Type} {d : List (String × Obj Cls)}

theorem canonicalEntries_eq_map : canonicalEntries d = d.map fun e => (e.1, canonical e.2) := by
  induction d with
  | nil => rfl
  | cons e d ih => rw [canonicalEntries, ih, List.map_cons]

theorem canonicalEntries_sorted : canonicalEntries (sorted d) = sorted (canonicalEntries d) := by
  rw [canonicalEntries_eq_map, canonicalEntries_eq_map]
  exact List.map_insertionSort (fun a b => decide (a.1 ≤ b.1) = true)
    (fun a b => decide (a.1 ≤ b.1) = true) (fun e : String × Obj Cls => (e.1, canonical e.2)) d
    fun _ _ _ _ => Iff.rfl

theorem sorted_sorted : sorted (sorted d) = sorted d := by
  have htotal : Std.Total fun a b : String × Obj Cls => decide (a.1 ≤ b.1) = true :=
    ⟨fun a b => by simpa using String.le_total a.1 b.1⟩
  have htrans : IsTrans (String × Obj Cls) fun a b => decide (a.1 ≤ b.1) = true :=
    ⟨fun a b c hab hbc => by
      simp only [decide_eq_true_eq] at hab hbc ⊢
      exact String.le_trans hab hbc⟩
  exact (List.pairwise_insertionSort _ d).insertionSort_eq

mutual
theorem canonical_canonical : (x : Obj Cls) → x.canonical.canonical = x.canonical
  | .scalar v | .decimal a => by simp only [canonical]
  | .object c attributes => by simp only [canonical, canonicalEntries_canonicalEntries attributes]
  | .list items | .tuple items => by simp only [canonical, canonicalItems_canonicalItems items]
  | .dict entries => by
    simp only [canonical, canonicalEntries_sorted, canonicalEntries_canonicalEntries entries,
      sorted_sorted]

theorem canonicalItems_canonicalItems : (xs : List (Obj Cls)) →
    canonicalItems (canonicalItems xs) = canonicalItems xs
  | [] => rfl
  | x :: xs => by
    simp only [canonicalItems, canonical_canonical x, canonicalItems_canonicalItems xs]

theorem canonicalEntries_canonicalEntries : (d : List (String × Obj Cls)) →
    canonicalEntries (canonicalEntries d) = canonicalEntries d
  | [] => rfl
  | (k, x) :: d => by
    simp only [canonicalEntries, canonical_canonical x, canonicalEntries_canonicalEntries d]
end

end Obj

/-- A class declared with `@event` or `@command`, with what the decorator checks. -/
structure TypedClass (Cls : Type) where
  cls : Cls
  messageKind : String
  messageType : String
  version : Int
  kind_declared : messageKind = "event" ∨ messageKind = "command"
  type_nonempty : messageType ≠ ""
  version_positive : 1 ≤ version
  deriving DecidableEq

/-- An instance of such a class; `typed_message_payload` is its fields. -/
structure TypedMessage (Cls : Type) where
  messageClass : TypedClass Cls
  fields : List (String × Obj Cls)

namespace TypedMessage

variable {Cls : Type}

def toObj (m : TypedMessage Cls) : Obj Cls := .object m.messageClass.cls m.fields

end TypedMessage

namespace PythonPayloadCodec

variable {Cls : Type} [DecidableEq Cls] [Dataclasses Cls] [Texts] [DecimalTexts]

/-- The codec as the dispatcher uses it. -/
def codec (R : PayloadTypeRegistry Cls) : PayloadCodec (Obj Cls) where
  encode x _ := encode R x
  decode v _ := decode R v
  isMapping x :=
    match x with
    | .dict _ => true
    | _ => false

end PythonPayloadCodec

/-- The class as the dispatcher calls it: with the decoded payload as keyword arguments. -/
def TypedClass.toMessageClass {Cls : Type} [Dataclasses Cls] (c : TypedClass Cls) :
    MessageClass (Obj Cls) where
  name := Dataclasses.name c.cls
  messageType := c.messageType
  version := c.version
  construct payload :=
    match payload with
    | .dict kwargs => Dataclasses.construct c.cls kwargs
    | _ => .error (.typeError "argument after ** must be a mapping")

namespace Bus

def maxMessageIdLength : Nat := 255

/-- What `str.strip` takes for white space. -/
def isSpace (c : Char) : Bool :=
  [0x20, 0x85, 0xa0, 0x1680, 0x2028, 0x2029, 0x202f, 0x205f, 0x3000].contains c.toNat ||
    (9 ≤ c.toNat && c.toNat ≤ 13) || (28 ≤ c.toNat && c.toNat ≤ 31) ||
    (0x2000 ≤ c.toNat && c.toNat ≤ 0x200a)

/-- The category `Cc`. -/
def isControl (c : Char) : Bool := c.toNat < 32 || (127 ≤ c.toNat && c.toNat < 160)

/-- `_validate_message_id`. -/
def validateMessageId : Option String → Except Exc (Option String)
  | none => .ok none
  | some id =>
    if id.toList.all isSpace then .error (.invalidMessageDefinition "message_id must be non-empty")
    else if id.length > maxMessageIdLength then
      .error (.invalidMessageDefinition "message_id cannot exceed 255 characters")
    else if id.toList.any isControl then
      .error (.invalidMessageDefinition "message_id cannot contain control characters")
    else .ok (some id)

def frameworkDeliveryHeaders : List String :=
  ["dead_lettered_from", "last_attempt", "pybus_durable_generation", "pybus_durable_record",
    "retries"]

/-- `_copy_headers`. -/
def copyHeaders {Cls : Type} : Option (List (String × Obj Cls)) →
    Except Exc (List (String × Obj Cls))
  | none => .ok []
  | some headers =>
    if headers.any fun e => frameworkDeliveryHeaders.contains e.1 then
      .error (.invalidMessageDefinition ("headers contain framework-reserved keys: " ++
        String.intercalate ", " (frameworkDeliveryHeaders.filter fun k => headers.any (·.1 = k))))
    else .ok headers

variable {Cls : Type} [DecidableEq Cls] [Dataclasses Cls] [Texts] [DecimalTexts]

/-- `_prepare_message` on a typed message. `registered` is the class the bus has for this kind and
type, `fresh` the UUID and `now` the time it would give the envelope. -/
def prepareMessage (R : PayloadTypeRegistry Cls) (registered : Option (TypedClass Cls))
    (message : TypedMessage Cls) (expectedKind : String) (messageId : Option String)
    (headers : Option (List (String × Obj Cls))) (fresh : Uuid) (now : Instant) :
    Except Exc MessageEnvelope := do
  let messageId ← validateMessageId messageId
  let headers ← copyHeaders headers
  let c := message.messageClass
  if c.messageKind ≠ expectedKind then
    throw (.invalidMessageDefinition ("Expected an " ++ expectedKind ++ ", got " ++
      Texts.repr (.str c.messageKind)))
  if let some expected := registered then
    if c ≠ expected then
      throw (.invalidMessageDefinition ("Expected " ++ Dataclasses.name expected.cls ++ " for " ++
        c.messageKind ++ ":" ++ c.messageType))
  let payload ← PythonPayloadCodec.encode R (.dict message.fields)
  let headers ← PythonPayloadCodec.encode R (.dict headers)
  let headers ← MessageEnvelope.readHeaders headers
  return {
    messageId := .str (messageId.getD (uuidText fresh))
    messageType := .str c.messageType
    messageKind := .str c.messageKind
    version := c.version
    payload, headers
    createdAt := .datetime (.utc now) }

end Bus

namespace MessageEnvelope

variable [Texts]

/-- Writing encodes payload and headers, whether they are encoded already or not. -/
theorem dump_encoded {e : MessageEnvelope} {p : Value} {d : Dict} :
    ({ e with payload := encodeValue p, headers := encodeEntries d } : MessageEnvelope).dump =
      ({ e with payload := p, headers := d } : MessageEnvelope).dump := by
  have h : ({ e with payload := encodeValue p, headers := encodeEntries d } : MessageEnvelope).toDict
      = ({ e with payload := p, headers := d } : MessageEnvelope).toDict := by
    unfold toDict validate
    simp only
    split
    · rfl
    split
    · rfl
    split
    · rfl
    split
    · rfl
    simp only [bind, Except.bind, encodeValue_encodeValue, encodeValue, encodeEntries_encodeEntries]
  unfold dump
  rw [h]

end MessageEnvelope

namespace Bus

variable {Cls : Type} [DecidableEq Cls] [Dataclasses Cls] [Texts] [DecimalTexts]
  {R : PayloadTypeRegistry Cls} {m : TypedMessage Cls} {registered : Option (TypedClass Cls)}
  {messageId : Option String} {headers : Option (List (String × Obj Cls))} {fresh : Uuid}
  {now : Instant}

omit [Texts] [DecimalTexts] in
theorem validateMessageId_ne {id : String} (h : validateMessageId messageId = .ok (some id)) :
    id ≠ "" := by
  rintro rfl
  cases messageId with
  | none => cases h
  | some id =>
    rw [validateMessageId] at h
    split at h
    · cases h
    · rename_i hblank
      split at h
      · cases h
      · split at h
        · cases h
        · cases h
          simp at hblank

/-- The envelope of a typed message. -/
def envelopeOf (c : TypedClass Cls) (id : String) (payload : Value) (headers : Dict)
    (now : Instant) : MessageEnvelope where
  messageId := .str id
  messageType := .str c.messageType
  messageKind := .str c.messageKind
  version := c.version
  payload := payload
  headers := headers
  createdAt := .datetime (.utc now)

/-- What preparing a typed message makes of it. -/
theorem prepareMessage_ok {id : Option String} {hs : List (String × Obj Cls)} {p q : Dict}
    (hid : validateMessageId messageId = .ok id) (hh : copyHeaders headers = .ok hs)
    (hr : registered = none ∨ registered = some m.messageClass)
    (hp : PythonPayloadCodec.Travels R (.dict m.fields) (.dict p))
    (hq : PythonPayloadCodec.Travels R (.dict hs) (.dict q)) :
    prepareMessage R registered m m.messageClass.messageKind messageId headers fresh now =
      .ok (envelopeOf m.messageClass (id.getD (uuidText fresh)) (encodeValue (.dict p))
        (encodeEntries q) now) := by
  unfold prepareMessage
  simp only [hid, hh, hp.encoded, hq.encoded, encodeValue, MessageEnvelope.readHeaders, bind,
    Except.bind, pure, Except.pure]
  rcases hr with rfl | rfl <;> simp [envelopeOf]

omit [DecidableEq Cls] [Dataclasses Cls] [DecimalTexts] in
/-- The envelope that is read has the fields that travelled, their keys in order. -/
theorem read_envelopeOf [RoundTexts] (t : Instant) {c : TypedClass Cls} {id : String} {p : Value} {q : Dict}
    (hid : id ≠ "") (hp : p.plain = true) (hu : p.inUtc = p) (hq : (Value.dict q).plain = true) :
    ∃ raw, (envelopeOf c id (encodeValue p) (encodeEntries q) t).dump = .ok raw ∧
      ∀ at', MessageEnvelope.read at' raw = .ok (envelopeOf c id (sortKeys p) (settledEntries q) t) := by
  have hvalid : (envelopeOf c id p q t).Valid := by
    refine ⟨?_, ?_, ?_, c.version_positive⟩
    · simpa [envelopeOf, truthy] using hid
    · simpa [envelopeOf, truthy] using c.type_nonempty
    · rcases c.kind_declared with h | h <;> simp [envelopeOf, truthy, h]
  have hplain : (envelopeOf c id p q t).Plain := by
    simp only [MessageEnvelope.Plain, MessageEnvelope.document, plainEntries, envelopeOf, hp, hq]
    simp only [plain, Bool.and_self]
  have htimed : (envelopeOf c id p q t).Timed := ⟨⟨_, rfl⟩, .inl rfl⟩
  obtain ⟨raw, hd, hr⟩ := MessageEnvelope.read_dump hvalid hplain htimed
  refine ⟨raw, ?_, fun at' => ?_⟩
  · rw [← hd]
    exact MessageEnvelope.dump_encoded (e := envelopeOf c id p q t)
  · rw [hr]
    simp [MessageEnvelope.settled, envelopeOf, Value.settled, hu, inUtc, sortKeys]

/-- A dispatcher that knows the class makes the message anew from what arrived. -/
theorem decode_envelopeOf {c : TypedClass Cls} {id : String} {fields hs : List (String × Obj Cls)}
    {p q : Dict} {D : Dispatcher (Obj Cls)} (hcodec : D.payloadCodec = PythonPayloadCodec.codec R)
    (hbinds : D.registry.messageClassFor (.str c.messageKind) (.str c.messageType) =
      .ok (some c.toMessageClass))
    (hstores : Obj.StoresFields c.cls (fields.map (·.1)))
    (hp : PythonPayloadCodec.Travels R (.dict fields) (.dict p))
    (hq : PythonPayloadCodec.Travels R (.dict hs) (.dict q)) :
    D.decode (envelopeOf c id (sortKeys (.dict p)) (settledEntries q) now) =
      .ok ⟨.str c.messageKind, .str c.messageType, (Obj.object c.cls fields).canonical, none⟩ := by
  have hheaders : PythonPayloadCodec.decode R (.dict (settledEntries q)) =
      .ok (Obj.dict hs).canonical := by
    rw [← settled_dict, Value.settled, hq.inUtc]
    exact hq.decoded
  have hfields := hp.decoded
  rw [Obj.canonical] at hfields
  have hperm : (Obj.sorted (Obj.canonicalEntries fields)).Perm (Obj.canonicalEntries fields) :=
    PythonPayloadCodec.perm_sorted
  have hkeys := hperm.map (·.1)
  rw [PythonPayloadCodec.keys_canonicalEntries] at hkeys
  have hn : ((Obj.canonicalEntries fields).map (·.1)).Nodup := by
    rw [PythonPayloadCodec.keys_canonicalEntries]
    exact hstores.1
  have hfound := PythonPayloadCodec.filterMap_lookup hn hperm
  rw [PythonPayloadCodec.keys_canonicalEntries] at hfound
  have hcall := hstores.2 _ hkeys
  rw [hfound] at hcall
  unfold Dispatcher.decode
  simp only [envelopeOf, hbinds, hcodec, PythonPayloadCodec.codec, hheaders, hfields,
    TypedClass.toMessageClass, hcall, Obj.canonical, bind, Except.bind, pure, Except.pure]
  simp

/-- A typed message that is prepared, written, read and decoded comes back alike, with its
identity, kind, type, version and time of creation. -/
theorem typed_message_round_trip [RoundTexts] [RoundDecimals] {id : Option String}
    {hs : List (String × Obj Cls)} {D : Dispatcher (Obj Cls)}
    (hfields : Obj.Payload R (.dict m.fields))
    (hstores : Obj.StoresFields m.messageClass.cls (m.fields.map (·.1)))
    (hid : validateMessageId messageId = .ok id)
    (hcopied : copyHeaders headers = .ok hs) (hheaders : Obj.Payload R (.dict hs))
    (hregistered : registered = none ∨ registered = some m.messageClass)
    (hcodec : D.payloadCodec = PythonPayloadCodec.codec R)
    (hbinds : D.registry.messageClassFor (.str m.messageClass.messageKind)
      (.str m.messageClass.messageType) = .ok (some m.messageClass.toMessageClass)) :
    ∃ e raw e' message,
      prepareMessage R registered m m.messageClass.messageKind messageId headers fresh now = .ok e ∧
        e.dump = .ok raw ∧ (∀ at', MessageEnvelope.read at' raw = .ok e') ∧
        D.decode e' = .ok message ∧ Obj.Alike message.content m.toObj ∧
        message.messageKind = .str m.messageClass.messageKind ∧
        message.messageType = .str m.messageClass.messageType ∧
        e.messageId = .str (id.getD (uuidText fresh)) ∧ e'.messageId = e.messageId ∧
        e'.messageType = e.messageType ∧ e'.messageKind = e.messageKind ∧ e'.version = e.version ∧
        e'.createdAt = e.createdAt := by
  obtain ⟨p, hp⟩ := PythonPayloadCodec.travels_mapping hfields
  obtain ⟨q, hq⟩ := PythonPayloadCodec.travels_mapping hheaders
  have hne : id.getD (uuidText fresh) ≠ "" := by
    cases id with
    | none => exact uuidText_ne_empty fresh
    | some id => exact validateMessageId_ne hid
  obtain ⟨raw, hdump, hread⟩ := read_envelopeOf (c := m.messageClass) now hne hp.plain hp.inUtc
    hq.plain
  refine ⟨_, raw, _, _, prepareMessage_ok hid hcopied hregistered hp hq, hdump, hread,
    decode_envelopeOf hcodec hbinds hstores hp hq, ?_, rfl, rfl, rfl, rfl, rfl, rfl, rfl, rfl⟩
  exact Obj.canonical_canonical _

end Bus

section Samples

local instance messageTexts : Texts := .lawful

local instance messageDecimals : DecimalTexts := .lawful

local instance messageRounds : RoundTexts := roundTexts_lawful

local instance messageDecimalRounds : RoundDecimals := roundDecimals_lawful

local instance messageInvoices : Dataclasses Invoice := invoices

/-- A typed command with the fields of an invoice. -/
def sendInvoice : TypedClass Invoice where
  cls := .invoice
  messageKind := "command"
  messageType := "invoice.send"
  version := 1
  kind_declared := .inr rfl
  type_nonempty := by decide
  version_positive := by decide

def invoiceMessage : TypedMessage Invoice where
  messageClass := sendInvoice
  fields := [("amount", .decimal (.finite false 1250 (-2))),
    ("label", .dict [("__pybus_codec__", .tuple [.scalar ⟨.datetime (.utc 0), rfl⟩])])]

def invoiceDispatcher : Dispatcher (Obj Invoice) where
  registry := {
    handlers := []
    messageClasses := [(("command", "invoice.send"), sendInvoice.toMessageClass)]
    keys_nodup := by simp
    batched_alone := by simp }
  payloadCodec := PythonPayloadCodec.codec invoiceTypes

theorem storesFields_invoice : Obj.StoresFields Invoice.invoice invoiceFields := by
  refine ⟨by decide, fun kwargs h => ?_⟩
  have hperm : (kwargs.map (·.1)).isPerm invoiceFields = true := List.isPerm_iff.mpr h
  simp only [Dataclasses.construct, hperm, if_true]

namespace Bus

theorem typed_message_round_trip_invoice : ∃ e raw e' message,
    prepareMessage invoiceTypes none invoiceMessage "command" none none 1 0 = .ok e ∧
      e.dump = .ok raw ∧ (∀ at', MessageEnvelope.read at' raw = .ok e') ∧
      invoiceDispatcher.decode e' = .ok message ∧ Obj.Alike message.content invoiceMessage.toObj ∧
      message.messageKind = .str "command" ∧ message.messageType = .str "invoice.send" ∧
      e.messageId = .str "00000000-0000-0000-0000-000000000001" ∧ e'.messageId = e.messageId ∧
      e'.messageType = e.messageType ∧ e'.messageKind = e.messageKind ∧ e'.version = e.version ∧
      e'.createdAt = e.createdAt :=
  typed_message_round_trip (m := invoiceMessage) (D := invoiceDispatcher)
    (by simp [Obj.Payload, Obj.PayloadEntries, Obj.PayloadItems, invoiceMessage, PyDecimal.isFinite,
      Obj.awareScalar, Datetime.utc])
    storesFields_invoice (show validateMessageId none = .ok none from rfl)
    (show copyHeaders (none : Option (List (String × Obj Invoice))) = .ok [] from rfl)
    (by simp [Obj.Payload, Obj.PayloadEntries]) (.inl rfl) rfl rfl

end Bus

end Samples

end Pybus
