import Pybus.Codec

/-! Reading with the payload codec what it has written: what comes back is the object with every
dataclass instance called into being anew. -/
namespace Pybus

open Value Texts

/-- Texts that `str` writes for finite decimals are read again. -/
class RoundDecimals [DecimalTexts] : Prop where
  decimal_round : ∀ x : PyDecimal, x.isFinite = true →
    DecimalTexts.decimalFromText (DecimalTexts.decimalText x) = some x

namespace Obj

variable {Cls : Type}

mutual
/-- The object with its tuples as lists. -/
def listed : Obj Cls → Obj Cls
  | .object c attributes => .object c (listedEntries attributes)
  | .list items | .tuple items => .list (listedItems items)
  | .dict entries => .dict (listedEntries entries)
  | x => x

def listedItems : List (Obj Cls) → List (Obj Cls)
  | [] => []
  | x :: xs => listed x :: listedItems xs

def listedEntries : List (String × Obj Cls) → List (String × Obj Cls)
  | [] => []
  | (k, x) :: d => (k, listed x) :: listedEntries d
end

mutual
/-- The object with every dataclass instance made anew, from the inside out, by calling its type
with its fields; `none` where a call fails. -/
def restore [Dataclasses Cls] : Obj Cls → Option (Obj Cls)
  | .object c attributes => do (Dataclasses.construct c (← restoreEntries attributes)).toOption
  | .list items | .tuple items => (restoreItems items).map .list
  | .dict entries => (restoreEntries entries).map .dict
  | x => some x

def restoreItems [Dataclasses Cls] : List (Obj Cls) → Option (List (Obj Cls))
  | [] => some []
  | x :: xs => do return (← restore x) :: (← restoreItems xs)

def restoreEntries [Dataclasses Cls] : List (String × Obj Cls) → Option (List (String × Obj Cls))
  | [] => some []
  | (k, x) :: d => do return (k, ← restore x) :: (← restoreEntries d)
end

/-- The names the codec itself once wrote, or writes, under the type key. -/
def legacyNames : List String := "decimal" :: "dataclass" :: markerNames

/-- A mapping does not hold a legacy name under the type key. -/
def ordinaryMarker : Option (Obj Cls) → Bool
  | some (.scalar ⟨.str name, _⟩) => !legacyNames.contains name
  | _ => true

/-- A scalar is no naive datetime. -/
def awareScalar : Value → Bool
  | .datetime d => d.offset.isSome
  | _ => true

mutual
/-- Datetimes are aware, and no mapping holds a legacy name under the type key. -/
def ordinary : Obj Cls → Bool
  | .scalar v => awareScalar v.1
  | .decimal _ => true
  | .object _ attributes => ordinaryEntries attributes
  | .list items | .tuple items => ordinaryItems items
  | .dict entries => ordinaryMarker (entries.lookup "__pybus_type__") && ordinaryEntries entries

def ordinaryItems : List (Obj Cls) → Bool
  | [] => true
  | x :: xs => ordinary x && ordinaryItems xs

def ordinaryEntries : List (String × Obj Cls) → Bool
  | [] => true
  | (_, x) :: d => ordinary x && ordinaryEntries d
end

/-- What stands under the type key of a mapping is written as something that has a hash. -/
def hashableMarker : Option (Obj Cls) → Bool
  | none => true
  | some (.scalar ⟨.datetime _, _⟩) | some (.scalar ⟨.date _, _⟩) | some (.scalar ⟨.time _, _⟩)
  | some (.scalar ⟨.uuid _, _⟩) => false
  | some (.scalar _) => true
  | some _ => false

mutual
/-- Every mapping without the codec's own key has a hashable type marker, if any. -/
def hashable : Obj Cls → Bool
  | .object _ attributes => hashableEntries attributes
  | .list items | .tuple items => hashableItems items
  | .dict entries =>
    ((entries.lookup PythonPayloadCodec.codecKey).isSome ||
      hashableMarker (entries.lookup "__pybus_type__")) && hashableEntries entries
  | _ => true

def hashableItems : List (Obj Cls) → Bool
  | [] => true
  | x :: xs => hashable x && hashableItems xs

def hashableEntries : List (String × Obj Cls) → Bool
  | [] => true
  | (_, x) :: d => hashable x && hashableEntries d
end

end Obj

namespace PythonPayloadCodec

variable {Cls : Type} [DecidableEq Cls] [Dataclasses Cls] [Texts] [DecimalTexts]
  {R : PayloadTypeRegistry Cls}

section Options

variable {α β γ : Type} {r : Except Exc α} {s : Except Exc β} {b : Bool} {c : Bool} {o : Option α}
  {p : Option β}

omit [DecidableEq Cls] [Dataclasses Cls] [Texts] [DecimalTexts]

theorem toOption_map {g : α → β} : (r.map g).toOption = r.toOption.map g := by
  cases r <;> rfl

theorem toOption_bind_pure {g : α → β} :
    (do let a ← r; return g a : Except Exc β).toOption = r.toOption.map g := by
  cases r <;> rfl

/-- Two computations in turn have a value when both have. -/
theorem toOption_pair {g : α → β → γ} (hr : r.toOption = if b then o else none)
    (hs : s.toOption = if c then p else none) :
    (do let a ← r; let a' ← s; return g a a' : Except Exc γ).toOption =
      if b && c then (do let a ← o; let a' ← p; return g a a') else none := by
  cases r with
  | error exc =>
    cases b <;> simp_all [Except.toOption, bind, Except.bind]
    simp [← hr]
  | ok a =>
    have hb : b = true ∧ o = some a := by cases b <;> simp_all [Except.toOption]
    rw [hb.1, hb.2]
    cases s with
    | error exc =>
      cases c <;> simp_all [Except.toOption, bind, Except.bind]
      simp [← hs]
    | ok a' =>
      have hc : c = true ∧ p = some a' := by cases c <;> simp_all [Except.toOption]
      rw [hc.1, hc.2]
      rfl

theorem toOption_mapped {g : α → β} (hr : r.toOption = if b then o else none) :
    (do let a ← r; return g a : Except Exc β).toOption = if b then o.map g else none := by
  rw [toOption_bind_pure, hr]
  cases b <;> rfl

end Options

section Written

variable {x : Obj Cls} {d : List (String × Obj Cls)} {e : Value} {d' : Dict} {k : String}

theorem encodeEntries_of_cons (h : encodeEntries R ((k, x) :: d) = .ok d') :
    ∃ e d₁, encode R x = .ok e ∧ encodeEntries R d = .ok d₁ ∧ d' = (k, e) :: d₁ := by
  rw [encodeEntries] at h
  obtain ⟨e, he, h⟩ := MessageEnvelope.bind_eq_ok h
  obtain ⟨d₁, hd, h⟩ := MessageEnvelope.bind_eq_ok h
  cases h
  exact ⟨e, d₁, he, hd, rfl⟩

theorem encodeItems_of_cons {xs : List (Obj Cls)} {es : List Value}
    (h : encodeItems R (x :: xs) = .ok es) :
    ∃ e es₁, encode R x = .ok e ∧ encodeItems R xs = .ok es₁ ∧ es = e :: es₁ := by
  rw [encodeItems] at h
  obtain ⟨e, he, h⟩ := MessageEnvelope.bind_eq_ok h
  obtain ⟨es₁, hes, h⟩ := MessageEnvelope.bind_eq_ok h
  cases h
  exact ⟨e, es₁, he, hes, rfl⟩

/-- What is written under a key is what stands there. -/
theorem lookup_encodeEntries (h : encodeEntries R d = .ok d') :
    (d.lookup k = none ∧ d'.lookup k = none) ∨
      ∃ x e, d.lookup k = some x ∧ encode R x = .ok e ∧ d'.lookup k = some e := by
  induction d generalizing d' with
  | nil =>
    cases h
    exact .inl ⟨rfl, rfl⟩
  | cons entry d ih =>
    obtain ⟨l, x⟩ := entry
    obtain ⟨e, d₁, he, hd, rfl⟩ := encodeEntries_of_cons h
    by_cases hl : k = l
    · subst hl
      exact .inr ⟨x, e, List.lookup_cons_self, he, List.lookup_cons_self⟩
    · have hne : (k == l) = false := by simpa using hl
      simpa only [List.lookup_cons, hne] using ih hd

/-- A marker object of the serializer is left to it. -/
theorem decode_marker {name text : String} (h : markerNames.contains name = true) :
    decode R (marker name text) = (decodeValue (marker name text)).map Obj.ofValue := by
  have hcodec : [("__pybus_type__", Value.str name), ("value", .str text)].lookup codecKey = none := by
    simp [codecKey, List.lookup_cons]
  have htype : [("__pybus_type__", Value.str name), ("value", .str text)].lookup typeKey =
      some (.str name) := List.lookup_cons_self
  rw [marker, decode, hcodec]
  simp only [htype]
  split
  · rename_i heq
    cases heq
    simp [markerNames] at h
  · rename_i heq
    cases heq
    simp [markerNames] at h
  · rename_i heq
    cases heq
    rw [if_pos h]
  all_goals simp_all

/-- A scalar is read back, a naive datetime as UTC. -/
theorem decode_encodeValue [RoundTexts] (v : Scalar) :
    decode R (encodeValue v.1) = .ok (Obj.ofValue v.1.inUtc) := by
  obtain ⟨v, hv⟩ := v
  have hread (hp : plain v = true) := decodeValue_encodeValue v hp
  cases v with
  | list items => simp [isScalar] at hv
  | dict entries => simp [isScalar] at hv
  | datetime a | date a | time a | uuid a =>
    have hread := hread (by simp only [plain])
    simp only [encodeValue, encodeDatetime] at hread ⊢
    rw [decode_marker (by decide), hread]
    rfl
  | _ => simp only [encodeValue, decode, decodeValue, inUtc, Except.map]

theorem decodeUnder_eq {key : String} {d : Dict} : decodeUnder R key d =
    match d.lookup key with
    | some (.dict entries) => some (decodeEntries R entries)
    | _ => none := by
  induction d with
  | nil => rfl
  | cons e d ih =>
    obtain ⟨k, v⟩ := e
    by_cases hk : k = key
    · subst hk
      rw [List.lookup_cons_self]
      cases v <;> simp [decodeUnder]
    · rw [lookup_cons_ne (Ne.symm hk), ← ih]
      cases v <;> simp [decodeUnder, hk]

omit [DecimalTexts] in
theorem validateCodecVersion_ok {d : Dict} (hv : d.lookup "version" = some (.int codecVersion)) :
    validateCodecVersion d = .ok () := by
  simp [validateCodecVersion, hv]

/-- How the codec reads its own shapes, in whatever order their keys come. -/
theorem decode_decimal {d : Dict} {text : String} {a : PyDecimal}
    (hk : d.lookup codecKey = some (.str "decimal"))
    (hv : d.lookup "version" = some (.int codecVersion)) (ht : d.lookup "value" = some (.str text))
    (ha : DecimalTexts.decimalFromText text = some a) (hf : a.isFinite = true) :
    decode R (.dict d) = .ok (.decimal a) := by
  rw [decode, hk]
  simp only [validateCodecVersion_ok hv]
  simp [decodeDecimal, ht, ha, hf, bind, Except.bind]

theorem decode_dataclass {d : Dict} {c : Cls} {i : String} {f : Dict}
    (hk : d.lookup codecKey = some (.str "dataclass"))
    (hv : d.lookup "version" = some (.int codecVersion)) (ht : d.lookup "type" = some (.str i))
    (hf : d.lookup "fields" = some (.dict f)) (hid : R.typeIdFor c = .ok i) :
    (decode R (.dict d)).toOption = (decodeEntries R f).toOption.bind fun kwargs =>
      (Dataclasses.construct c kwargs).toOption := by
  have hcanonical : R.canonicalIds.lookup c = some i := by
    unfold PayloadTypeRegistry.typeIdFor at hid
    split at hid
    · rename_i id' hl
      rw [hl, Except.ok.inj hid]
    · cases hid
  have htype : typeId d = .ok i := by
    simp [typeId, Value.get, ht, R.named hcanonical]
  have hversion : validateObjectVersion d = .ok () := by
    simp [validateObjectVersion, hv]
  have hresolve : R.resolve i = .ok c := by
    simp [PayloadTypeRegistry.resolve, R.resolves hcanonical]
  have hfields : decodeUnder R "fields" d = some (decodeEntries R f) := by
    rw [decodeUnder_eq, hf]
  rw [decode, hk]
  simp only [validateCodecVersion_ok hv, hfields]
  simp only [decodeObject, htype, hversion, hresolve, bind, Except.bind, construct]
  simp only [String.reduceEq, if_false, if_true]
  cases decodeEntries R f with
  | error exc => cases exc <;> rfl
  | ok kwargs =>
    simp only [Except.toOption, Option.bind_some]
    cases Dataclasses.construct c kwargs with
    | ok y => rfl
    | error exc => cases exc <;> rfl

theorem decodeRest_nil {d : Dict}
    (h : ∀ e ∈ d, e.1 = codecKey ∨ e.1 = "version" ∨ e.1 = "value") : decodeRest R d = .ok [] := by
  induction d with
  | nil => rfl
  | cons e d ih =>
    obtain ⟨k, v⟩ := e
    rw [decodeRest, if_pos (h (k, v) List.mem_cons_self)]
    exact ih fun e he => h e (List.mem_cons_of_mem _ he)

theorem decode_mapping {d m : Dict} (hk : d.lookup codecKey = some (.str "mapping"))
    (hv : d.lookup "version" = some (.int codecVersion))
    (hm : d.lookup "value" = some (.dict m))
    (hrest : ∀ e ∈ d, e.1 = codecKey ∨ e.1 = "version" ∨ e.1 = "value") :
    decode R (.dict d) = (decodeEntries R m).map .dict := by
  have hvalue : decodeUnder R "value" d = some (decodeEntries R m) := by
    rw [decodeUnder_eq, hm]
  rw [decode, hk]
  simp only [validateCodecVersion_ok hv, hvalue, decodeRest_nil hrest, bind, Except.bind]
  simp only [String.reduceEq, if_false, if_true]
  cases decodeEntries R m <;> rfl

omit [DecidableEq Cls] [Dataclasses Cls] [Texts] [DecimalTexts] in
theorem ofValue_inUtc {v : Scalar} (h : Obj.awareScalar v.1 = true) :
    (Obj.ofValue v.1.inUtc : Obj Cls) = .scalar v := by
  obtain ⟨v, hv⟩ := v
  cases v with
  | list items => simp [isScalar] at hv
  | dict entries => simp [isScalar] at hv
  | datetime a =>
    obtain ⟨wall, offset⟩ := a
    cases offset with
    | none => simp [Obj.awareScalar] at h
    | some o => rfl
  | _ => rfl

/-- A marker is written as a dictionary or a list when it is unhashable. -/
theorem toOption_marked {x : Obj Cls} {e : Value} {d : Dict} (he : encode R x = .ok e)
    (ho : Obj.ordinaryMarker (some x) = true) :
    (match some e with
      | some (.str "decimal") => decodeDecimal d
      | some (.str "dataclass") => decodeObject R d (decodeUnder R "fields" d)
      | some (.str name) =>
        if markerNames.contains name then (decodeValue (.dict d)).map Obj.ofValue
        else do return .dict (← decodeEntries R d)
      | some (.list _) | some (.dict _) => .error (.typeError "unhashable type")
      | _ => do return .dict (← decodeEntries R d) : Except Exc (Obj Cls)).toOption =
      if Obj.hashableMarker (some x) then (decodeEntries R d).toOption.map .dict else none := by
  cases x with
  | scalar v =>
    rw [encode] at he
    cases he
    obtain ⟨v, hv⟩ := v
    cases v with
    | list items => simp [isScalar] at hv
    | dict entries => simp [isScalar] at hv
    | datetime a | date a | time a | uuid a => rfl
    | str name =>
      simp only [Obj.ordinaryMarker, Obj.legacyNames, Bool.not_eq_true', List.contains_eq_mem,
        List.mem_cons, decide_eq_false_iff_not, not_or] at ho
      obtain ⟨h₁, h₂, h₃⟩ := ho
      simp only [encodeValue, Obj.hashableMarker, if_true]
      rw [if_neg (by simpa using h₃)]
      exact toOption_bind_pure
    | _ => exact toOption_bind_pure
  | decimal a =>
    rw [encode] at he
    split at he
    · cases he
    · cases he
      rfl
  | object c attributes =>
    rw [encode] at he
    obtain ⟨id, -, he⟩ := MessageEnvelope.bind_eq_ok he
    obtain ⟨fields, -, he⟩ := MessageEnvelope.bind_eq_ok he
    cases he
    rfl
  | list items | tuple items =>
    rw [encode] at he
    obtain ⟨es, -, he⟩ := MessageEnvelope.bind_eq_ok he
    cases he
    rfl
  | dict entries =>
    rw [encode] at he
    obtain ⟨es, -, he⟩ := MessageEnvelope.bind_eq_ok he
    split at he <;> cases he <;> rfl

/-- A mapping without the codec's own key is read entry by entry when its marker is ordinary and
hashable, and not at all when the marker is unhashable. -/
theorem toOption_decode_dict {entries : List (String × Obj Cls)} {d : Dict}
    (he : encodeEntries R entries = .ok d) (hk : entries.lookup codecKey = none)
    (ho : Obj.ordinaryMarker (entries.lookup typeKey) = true) :
    (decode R (.dict d)).toOption = if Obj.hashableMarker (entries.lookup typeKey) then
      (decodeEntries R d).toOption.map .dict else none := by
  have hcodec : d.lookup codecKey = none := by
    rcases lookup_encodeEntries (k := codecKey) he with ⟨-, h⟩ | ⟨x, e, hx, -, -⟩
    · exact h
    · rw [hk] at hx
      cases hx
  rw [decode, hcodec]
  simp only
  rcases lookup_encodeEntries (k := typeKey) he with ⟨hx, hd⟩ | ⟨x, e, hx, hxe, hd⟩
  · rw [hx, hd]
    simp only [Obj.hashableMarker, if_true, toOption_bind_pure]
  · rw [hx] at ho ⊢
    rw [hd]
    exact toOption_marked hxe ho

end Written

mutual
/-- What is read from what was written is the object made anew, unless a marker is unhashable. -/
theorem toOption_decode [RoundTexts] [RoundDecimals] : (x : Obj Cls) → ∀ {e},
    encode R x = .ok e → x.ordinary = true →
      (decode R e).toOption = if x.hashable then x.restore else none
  | .scalar v, e, h, ho => by
    rw [encode] at h
    cases h
    rw [Obj.ordinary] at ho
    rw [decode_encodeValue, ofValue_inUtc ho, Obj.hashable, Obj.restore]
    · rfl
    all_goals nofun
  | .decimal a, e, h, _ => by
    rw [encode] at h
    cases hf : a.isFinite with
    | false => simp [hf] at h
    | true =>
      rw [hf, if_neg (by simp)] at h
      cases h
      rw [decimalShape, decode_decimal (by simp) (by simp [codecKey, List.lookup_cons])
        (by simp [codecKey, List.lookup_cons]) (RoundDecimals.decimal_round a hf) hf, Obj.hashable,
        Obj.restore]
      · rfl
      all_goals nofun
  | .object c attributes, e, h, ho => by
    rw [encode] at h
    obtain ⟨id, hid, h⟩ := MessageEnvelope.bind_eq_ok h
    obtain ⟨fields, hfields, h⟩ := MessageEnvelope.bind_eq_ok h
    cases h
    rw [Obj.ordinary] at ho
    have hread := toOption_decodeEntries attributes hfields ho
    rw [objectShape, decode_dataclass (f := fields) (by simp)
      (by simp [codecKey, List.lookup_cons]) (by simp [codecKey, List.lookup_cons])
      (by simp [codecKey, List.lookup_cons]) hid, hread, Obj.hashable, Obj.restore]
    split <;> rfl
  | .list items, e, h, ho => by
    rw [encode] at h
    obtain ⟨es, hes, h⟩ := MessageEnvelope.bind_eq_ok h
    cases h
    rw [Obj.ordinary] at ho
    rw [decode, Obj.hashable, Obj.restore]
    exact toOption_mapped (toOption_decodeItems items hes ho)
  | .tuple items, e, h, ho => by
    rw [encode] at h
    obtain ⟨es, hes, h⟩ := MessageEnvelope.bind_eq_ok h
    cases h
    rw [Obj.ordinary] at ho
    rw [decode, Obj.hashable, Obj.restore]
    exact toOption_mapped (toOption_decodeItems items hes ho)
  | .dict entries, e, h, ho => by
    rw [encode] at h
    obtain ⟨d, hd, h⟩ := MessageEnvelope.bind_eq_ok h
    rw [Obj.ordinary, Bool.and_eq_true] at ho
    have ih := toOption_decodeEntries entries hd ho.2
    rw [Obj.hashable, Obj.restore]
    cases hk : entries.lookup codecKey with
    | some y =>
      rw [hk, Option.isSome_some, if_pos rfl] at h
      cases h
      rw [mappingShape, decode_mapping (m := d) (by simp)
        (by simp [codecKey, List.lookup_cons]) (by simp [codecKey, List.lookup_cons]) (by simp),
        toOption_map, ih, Option.isSome_some, Bool.true_or, Bool.true_and]
      split <;> rfl
    | none =>
      rw [hk, Option.isSome_none, if_neg (by simp)] at h
      cases h
      rw [toOption_decode_dict hd hk ho.1, ih, Option.isSome_none, Bool.false_or, typeKey]
      cases Obj.hashableMarker (entries.lookup "__pybus_type__") <;>
        cases Obj.hashableEntries entries <;> rfl

theorem toOption_decodeItems [RoundTexts] [RoundDecimals] : (xs : List (Obj Cls)) → ∀ {es},
    encodeItems R xs = .ok es → Obj.ordinaryItems xs = true →
      (decodeItems R es).toOption = if Obj.hashableItems xs then Obj.restoreItems xs else none
  | [], es, h, _ => by
    cases h
    rfl
  | x :: xs, es, h, ho => by
    obtain ⟨e, es₁, he, hes, rfl⟩ := encodeItems_of_cons h
    rw [Obj.ordinaryItems, Bool.and_eq_true] at ho
    rw [decodeItems, Obj.hashableItems, Obj.restoreItems]
    exact toOption_pair (toOption_decode x he ho.1) (toOption_decodeItems xs hes ho.2)

theorem toOption_decodeEntries [RoundTexts] [RoundDecimals] : (d : List (String × Obj Cls)) →
    ∀ {d'}, encodeEntries R d = .ok d' → Obj.ordinaryEntries d = true →
      (decodeEntries R d').toOption = if Obj.hashableEntries d then Obj.restoreEntries d else none
  | [], d', h, _ => by
    cases h
    rfl
  | (k, x) :: d, d', h, ho => by
    obtain ⟨e, d₁, he, hd, rfl⟩ := encodeEntries_of_cons h
    rw [Obj.ordinaryEntries, Bool.and_eq_true] at ho
    rw [decodeEntries, Obj.hashableEntries, Obj.restoreEntries]
    exact toOption_pair (toOption_decode x he ho.1) (toOption_decodeEntries d hd ho.2)
end

/-- What was written is read back equal, tuples as lists, exactly when every type marker is hashable
and every dataclass instance equals one made anew from its fields. -/
theorem decode_encode_iff [RoundTexts] [RoundDecimals] (R : PayloadTypeRegistry Cls) {x : Obj Cls}
    {e : Value} (h : encode R x = .ok e) (ho : x.ordinary = true) :
    (∃ y, decode R e = .ok y ∧ Dataclasses.equals y x.listed) ↔
      x.hashable = true ∧ ∃ y, x.restore = some y ∧ Dataclasses.equals y x.listed := by
  have hread := toOption_decode x h ho
  constructor
  · rintro ⟨y, hy, heq⟩
    rw [hy] at hread
    cases hh : x.hashable with
    | false => simp [hh, Except.toOption] at hread
    | true =>
      rw [hh, if_pos rfl] at hread
      exact ⟨rfl, y, hread.symm, heq⟩
  · rintro ⟨hh, y, hy, heq⟩
    rw [hh, if_pos rfl, hy] at hread
    cases hd : decode R e with
    | error exc => simp [hd, Except.toOption] at hread
    | ok z =>
      rw [hd] at hread
      cases hread
      exact ⟨y, rfl, heq⟩

end PythonPayloadCodec

section Samples

instance encodablePyDecimal : Encodable PyDecimal :=
  Encodable.ofLeftInverse
    (fun x => match x with
      | .finite b n e => (Sum.inl (b, n, e) : (Bool × Nat × Int) ⊕ Option Bool)
      | .infinite b => .inr (some b)
      | .nan => .inr none)
    (fun p => match p with
      | .inl (b, n, e) => .finite b n e
      | .inr (some b) => .infinite b
      | .inr none => .nan)
    (fun x => by cases x <;> rfl)

def knownDecimals : List (PyDecimal × String) := [(.finite false 1250 (-2), "12.50")]

/-- Conversions of decimals with the round trip, which agree with `str` on 12.50. -/
@[reducible] def DecimalTexts.lawful : DecimalTexts where
  decimalText := knownText knownDecimals
  decimalFromText := knownValue knownDecimals

theorem roundDecimals_lawful : @RoundDecimals DecimalTexts.lawful :=
  @RoundDecimals.mk DecimalTexts.lawful fun x _ =>
    knownValue_knownText (by decide) (by decide) x

/-- A dataclass with two fields, stored as given. -/
inductive Invoice
  | invoice
  deriving DecidableEq

def invoiceFields : List String := ["amount", "label"]

local instance invoices : Dataclasses Invoice where
  name _ := "Invoice"
  qualifiedName _ := "billing:Invoice"
  qualifiedName_ne_empty _ := by decide
  construct c kwargs :=
    if (kwargs.map (·.1)).isPerm invoiceFields then
      .ok (.object c (invoiceFields.filterMap fun name =>
        (kwargs.lookup name).map fun x => (name, x)))
    else .error (.typeError "unexpected keyword argument")
  equals x y := x = y

local instance codecTexts : Texts := .lawful

local instance codecDecimals : DecimalTexts := .lawful

local instance codecRounds : RoundTexts := roundTexts_lawful

local instance codecDecimalRounds : RoundDecimals := roundDecimals_lawful

def invoiceTypes : PayloadTypeRegistry Invoice where
  types := [("billing:Invoice", .invoice)]
  canonicalIds := [(.invoice, "billing:Invoice")]
  resolves := by
    intro c id h
    cases c
    simp only [List.lookup_cons_self, Option.some.injEq] at h
    rw [← h, List.lookup_cons_self]
  named := by
    intro c id h
    cases c
    simp only [List.lookup_cons_self, Option.some.injEq] at h
    simp [← h]

def sampleInvoice : Obj Invoice :=
  .object .invoice [("amount", .decimal (.finite false 1250 (-2))),
    ("label", .dict [("__pybus_codec__", .tuple [.scalar ⟨.bool true, rfl⟩])])]

/-- An application mapping whose type marker is a list. -/
def listMarker : Obj Invoice := .dict [("__pybus_type__", .list [])]

namespace PythonPayloadCodec

theorem decode_encode_iff_invoice : ∃ y, decode invoiceTypes (objectShape "billing:Invoice"
      [("amount", decimalShape "12.50"),
        ("label", mappingShape [("__pybus_codec__", .list [.bool true])])]) = .ok y ∧
    y = sampleInvoice.listed :=
  (decode_encode_iff invoiceTypes (x := sampleInvoice) rfl rfl).mpr ⟨rfl, _, rfl, rfl⟩

/-- A list under the type key is written, and cannot be read. -/
theorem list_marker_unreadable :
    encode invoiceTypes listMarker = .ok (.dict [("__pybus_type__", .list [])]) ∧
      listMarker.ordinary = true ∧
      decode invoiceTypes (.dict [("__pybus_type__", .list [])]) =
        .error (.typeError "unhashable type") :=
  ⟨rfl, rfl, rfl⟩

end PythonPayloadCodec

end Samples

end Pybus
