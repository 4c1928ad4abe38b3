import Mathlib.Logic.Denumerable
import Pybus.Envelope

/-! What becomes of a value on its way through the serializer: what `decode_value` returns holds no
marker object, and writing it and reading it again changes nothing but naive datetimes and the order
of keys. -/
namespace Pybus

open Value Texts

namespace Value

/-- The names that `decode_value` takes for marker objects. -/
def markerNames : List String := ["datetime", "date", "time", "uuid"]

/-- Whether `decode_value` takes a dictionary for a marker object. -/
def isMarker (entries : Dict) : Bool :=
  match entries.lookup "__pybus_type__" with
  | some (.str name) => markerNames.contains name
  | _ => false

mutual
/-- No dictionary of the value is a marker object. -/
def plain : Value → Bool
  | .list items => plainItems items
  | .dict entries => !isMarker entries && plainEntries entries
  | _ => true

def plainItems : List Value → Bool
  | [] => true
  | v :: vs => plain v && plainItems vs

def plainEntries : Dict → Bool
  | [] => true
  | (_, v) :: d => plain v && plainEntries d
end

mutual
/-- Naive datetimes are taken to be UTC. -/
def inUtc : Value → Value
  | .datetime d => .datetime { d with offset := some (d.offset.getD 0) }
  | .list items => .list (inUtcItems items)
  | .dict entries => .dict (inUtcEntries entries)
  | v => v

def inUtcItems : List Value → List Value
  | [] => []
  | v :: vs => inUtc v :: inUtcItems vs

def inUtcEntries : Dict → Dict
  | [] => []
  | (k, v) :: d => (k, inUtc v) :: inUtcEntries d
end

/-- The order of `sort_keys`. -/
def keyOrder (a b : String × Value) : Bool := decide (a.1 ≤ b.1)

/-- The entries of a dictionary in the order of their keys. -/
def sorted (d : Dict) : Dict := d.insertionSort fun a b => keyOrder a b

/-- What a value without marker objects is read as after it has been written. -/
def settled (v : Value) : Value := sortKeys (inUtc v)

def settledEntries (d : Dict) : Dict := sorted (sortEntries (inUtcEntries d))

theorem sortKeys_dict {d : Dict} : sortKeys (.dict d) = .dict (sorted (sortEntries d)) := by
  rw [sortKeys]
  rfl

section Lookup

variable {k l : String} {v w : Value} {d : Dict}

theorem lookup_cons_ne (h : l ≠ k) : ((k, v) :: d).lookup l = d.lookup l := by
  have hl : (l == k) = false := by simpa using h
  rw [List.lookup_cons, hl]

/-- An entry is looked up wherever it is inserted. -/
theorem lookup_orderedInsert : (d.orderedInsert (fun a b => keyOrder a b) (k, v)).lookup l =
    ((k, v) :: d).lookup l := by
  induction d with
  | nil => rfl
  | cons e d ih =>
    obtain ⟨m, w⟩ := e
    rw [List.orderedInsert_cons]
    split
    · rfl
    · rename_i hlt
      have hne : m ≠ k := by
        rintro rfl
        simp [keyOrder] at hlt
      by_cases hl : l = m
      · subst hl
        rw [List.lookup_cons_self, lookup_cons_ne hne, List.lookup_cons_self]
      · rw [lookup_cons_ne hl, ih]
        by_cases hk : l = k
        · subst hk
          rw [List.lookup_cons_self, List.lookup_cons_self]
        · rw [lookup_cons_ne hk, lookup_cons_ne hk, lookup_cons_ne hl]

theorem lookup_sorted : (sorted d).lookup l = d.lookup l := by
  induction d with
  | nil => rfl
  | cons e d ih =>
    obtain ⟨k, v⟩ := e
    have hcons : sorted ((k, v) :: d) = (sorted d).orderedInsert (fun a b => keyOrder a b) (k, v) := rfl
    rw [hcons, lookup_orderedInsert]
    by_cases hl : l = k
    · subst hl
      rw [List.lookup_cons_self, List.lookup_cons_self]
    · rw [lookup_cons_ne hl, lookup_cons_ne hl, ih]

theorem lookup_sortEntries : (sortEntries d).lookup l = (d.lookup l).map sortKeys := by
  induction d with
  | nil => rfl
  | cons e d ih =>
    obtain ⟨k, v⟩ := e
    rw [sortEntries]
    by_cases hl : l = k
    · subst hl
      rw [List.lookup_cons_self, List.lookup_cons_self]
      rfl
    · rw [lookup_cons_ne hl, lookup_cons_ne hl, ih]

end Lookup

end Value

variable [Texts]

/-- Texts that `isoformat` writes are read again by `fromisoformat`. -/
class RoundTexts : Prop where
  datetime_round : ∀ d, datetimeFromisoformat (datetimeIsoformat d) = some d
  date_round : ∀ day, dateFromisoformat (dateIsoformat day) = some day
  time_round : ∀ t, timeFromisoformat (timeIsoformat t) = some t

section Lawful

variable {α : Type} [DecidableEq α] [Encodable α] {known : List (α × String)}

/-- The known text of a value, or else a unary one. -/
def knownText (known : List (α × String)) (a : α) : String :=
  (known.lookup a).getD (String.ofList (List.replicate (Encodable.encode a + 1) 'x'))

def knownValue (known : List (α × String)) (s : String) : Option α :=
  match known.find? fun e => e.2 = s with
  | some e => some e.1
  | none => Encodable.decode (s.length - 1)

omit [Texts] in
theorem knownValue_knownText (hfind : ∀ e ∈ known, known.find? (fun f => f.2 = e.2) = some e)
    (hunary : ∀ e ∈ known, e.2.toList.all (· = 'x') = false) (a : α) :
    knownValue known (knownText known a) = some a := by
  cases hl : known.lookup a with
  | some s =>
    obtain ⟨l₁, l₂, hk, -⟩ := List.lookup_eq_some_iff.mp hl
    have hmem : (a, s) ∈ known := by simp [hk]
    simp [knownText, knownValue, hl, hfind _ hmem]
  | none =>
    have hnone : known.find? (fun e => e.2 = knownText known a) = none := by
      rw [List.find?_eq_none]
      intro e he htext
      have hall := hunary e he
      rw [of_decide_eq_true htext] at hall
      simp [knownText, hl] at hall
    simp only [knownValue, hnone]
    simp [knownText, hl]

instance encodableDatetime : Encodable Datetime :=
  Encodable.ofEquiv (Int × Option Int)
    ⟨fun d => (d.wall, d.offset), fun p => ⟨p.1, p.2⟩, fun _ => rfl, fun _ => rfl⟩

instance encodableClockTime : Encodable ClockTime :=
  Encodable.ofEquiv (Nat × Option Int)
    ⟨fun t => (t.micros, t.offset), fun p => ⟨p.1, p.2⟩, fun _ => rfl, fun _ => rfl⟩

/-- The epoch, aware and naive. -/
def knownDatetimes : List (Datetime × String) :=
  [(.utc 0, "1970-01-01T00:00:00+00:00"), (⟨0, none⟩, "1970-01-01T00:00:00")]

def knownDates : List (Int × String) := [(0, "1970-01-01")]

def knownTimes : List (ClockTime × String) := [(⟨0, none⟩, "00:00:00")]

/-- Conversions with all round trips, which agree with the standard library on the epoch. -/
@[reducible] def Texts.lawful : Texts :=
  { Texts.sample with
    datetimeIsoformat := knownText knownDatetimes
    datetimeFromisoformat := knownValue knownDatetimes
    dateIsoformat := knownText knownDates
    dateFromisoformat := knownValue knownDates
    timeIsoformat := knownText knownTimes
    timeFromisoformat := knownValue knownTimes }

omit [Texts] in
theorem roundTexts_lawful : @RoundTexts Texts.lawful :=
  @RoundTexts.mk Texts.lawful
    (knownValue_knownText (by decide) (by decide))
    (knownValue_knownText (by decide) (by decide))
    (knownValue_knownText (by decide) (by decide))

end Lawful

namespace Value

section Decoding

variable {v w : Value} {d d' : Dict} {k s : String}

/-- A dictionary that is no marker object is read entry by entry. -/
theorem decodeValue_dict (h : isMarker d = false) :
    decodeValue (.dict d) = (decodeEntries d).map .dict := by
  rw [decodeValue]
  unfold isMarker at h
  split
  · rename_i hl
    simp [hl, markerNames] at h
  · rename_i hl
    simp [hl, markerNames] at h
  · rename_i hl
    simp [hl, markerNames] at h
  · rename_i hl
    simp [hl, markerNames] at h
  · cases decodeEntries d <;> rfl

omit [Texts] in
theorem decodeMarker_make {α : Type} {message : String} {conversion : String → Option α}
    {make : α → Value} (h : decodeMarker d message conversion make = .ok v) : ∃ a, v = make a := by
  unfold decodeMarker at h
  split at h
  · cases h
  · split at h
    · rename_i a _
      exact ⟨a, (Except.ok.inj h).symm⟩
    · cases h
  · cases h

theorem decodeUuid_make (h : decodeUuid d = .ok v) : ∃ u, v = .uuid u := by
  unfold decodeUuid at h
  split at h
  all_goals first | cases h | exact decodeMarker_make h

/-- A marker object is read as a date, a time or a UUID. -/
theorem decodeValue_marker (h : isMarker d = true) (hv : decodeValue (.dict d) = .ok v) :
    (∃ a, v = .datetime a) ∨ (∃ a, v = .date a) ∨ (∃ a, v = .time a) ∨ ∃ a, v = .uuid a := by
  rw [decodeValue] at hv
  split at hv
  · exact .inl (decodeMarker_make hv)
  · exact .inr (.inl (decodeMarker_make hv))
  · exact .inr (.inr (.inl (decodeMarker_make hv)))
  · exact .inr (.inr (.inr (decodeUuid_make hv)))
  · rename_i hd ht hm hu
    unfold isMarker at h
    split at h
    · rename_i name hname
      simp only [markerNames, List.contains_eq_mem, decide_eq_true_eq, List.mem_cons,
        List.not_mem_nil, or_false] at h
      rcases h with rfl | rfl | rfl | rfl
      · exact absurd hname hd
      · exact absurd hname ht
      · exact absurd hname hm
      · exact absurd hname hu
    · cases h

theorem decodeValue_eq_str (h : decodeValue v = .ok (.str s)) : v = .str s := by
  cases v with
  | dict d =>
    cases hm : isMarker d with
    | true => rcases decodeValue_marker hm h with ⟨a, ha⟩ | ⟨a, ha⟩ | ⟨a, ha⟩ | ⟨a, ha⟩ <;> cases ha
    | false =>
      rw [decodeValue_dict hm] at h
      cases hd : decodeEntries d <;> simp [hd, Except.map] at h
  | list items =>
    rw [decodeValue] at h
    cases hi : decodeItems items <;> simp [hi, bind, Except.bind, pure, Except.pure] at h
  | _ =>
    simp only [decodeValue, Except.ok.injEq] at h
    exact h

/-- The entries of a dictionary are read one by one. -/
theorem decodeEntries_cons (hv : decodeValue v = .ok w) (hd : decodeEntries d = .ok d') :
    decodeEntries ((k, v) :: d) = .ok ((k, w) :: d') := by
  rw [decodeEntries, hv, hd]
  rfl

theorem decodeEntries_of_cons (h : decodeEntries ((k, v) :: d) = .ok d') :
    ∃ w d₁, decodeValue v = .ok w ∧ decodeEntries d = .ok d₁ ∧ d' = (k, w) :: d₁ := by
  rw [decodeEntries] at h
  cases hv : decodeValue v with
  | error exc => simp [hv, bind, Except.bind] at h
  | ok w =>
    cases hd : decodeEntries d with
    | error exc => simp [hv, hd, bind, Except.bind] at h
    | ok d₁ =>
      simp only [hv, hd, bind, Except.bind, pure, Except.pure, Except.ok.injEq] at h
      exact ⟨w, d₁, rfl, rfl, h.symm⟩

theorem decodeItems_of_cons {vs ws : List Value} (h : decodeItems (v :: vs) = .ok ws) :
    ∃ w ws₁, decodeValue v = .ok w ∧ decodeItems vs = .ok ws₁ ∧ ws = w :: ws₁ := by
  rw [decodeItems] at h
  cases hv : decodeValue v with
  | error exc => simp [hv, bind, Except.bind] at h
  | ok w =>
    cases hd : decodeItems vs with
    | error exc => simp [hv, hd, bind, Except.bind] at h
    | ok ws₁ =>
      simp only [hv, hd, bind, Except.bind, pure, Except.pure, Except.ok.injEq] at h
      exact ⟨w, ws₁, rfl, rfl, h.symm⟩

theorem decodeItems_cons {vs ws : List Value} (hv : decodeValue v = .ok w)
    (hd : decodeItems vs = .ok ws) : decodeItems (v :: vs) = .ok (w :: ws) := by
  rw [decodeItems, hv, hd]
  rfl

/-- What is read under a key is what stood there. -/
theorem lookup_decodeEntries (h : decodeEntries d = .ok d') (hk : d'.lookup k = some w) :
    ∃ v, d.lookup k = some v ∧ decodeValue v = .ok w := by
  induction d generalizing d' with
  | nil =>
    cases h
    cases hk
  | cons e d ih =>
    obtain ⟨l, v⟩ := e
    obtain ⟨w₁, d₁, hv, hd, rfl⟩ := decodeEntries_of_cons h
    by_cases hl : k = l
    · subst hl
      rw [List.lookup_cons_self] at hk
      cases hk
      exact ⟨v, List.lookup_cons_self, hv⟩
    · rw [lookup_cons_ne hl] at hk
      rw [lookup_cons_ne hl]
      exact ih hd hk

/-- A dictionary that is read entry by entry is no marker object afterwards either. -/
theorem isMarker_decodeEntries (hm : isMarker d = false) (h : decodeEntries d = .ok d') :
    isMarker d' = false := by
  unfold isMarker
  split
  · rename_i name hname
    obtain ⟨v, hv, hdec⟩ := lookup_decodeEntries h hname
    obtain rfl := decodeValue_eq_str hdec
    simpa [isMarker, hv] using hm
  · rfl

mutual
/-- What has been read holds no marker object. -/
theorem plain_decodeValue : (v : Value) → ∀ {w}, decodeValue v = .ok w → plain w = true
  | .list items, w, h => by
    rw [decodeValue] at h
    cases hi : decodeItems items with
    | error exc => simp [hi, bind, Except.bind] at h
    | ok ws =>
      simp only [hi, bind, Except.bind, pure, Except.pure, Except.ok.injEq] at h
      subst h
      rw [plain]
      exact plain_decodeItems items hi
  | .dict d, w, h => by
    cases hm : isMarker d with
    | true => rcases decodeValue_marker hm h with ⟨a, rfl⟩ | ⟨a, rfl⟩ | ⟨a, rfl⟩ | ⟨a, rfl⟩ <;> rfl
    | false =>
      rw [decodeValue_dict hm] at h
      cases hd : decodeEntries d with
      | error exc => simp [hd, Except.map] at h
      | ok d' =>
        simp only [hd, Except.map, Except.ok.injEq] at h
        subst h
        rw [plain, isMarker_decodeEntries hm hd, plain_decodeEntries d hd]
        rfl
  | .null, w, h | .bool _, w, h | .int _, w, h | .float _, w, h | .str _, w, h | .datetime _, w, h
  | .date _, w, h | .time _, w, h | .uuid _, w, h => by
    simp only [decodeValue, Except.ok.injEq] at h
    subst h
    rfl

theorem plain_decodeItems : (vs : List Value) → ∀ {ws}, decodeItems vs = .ok ws →
    plainItems ws = true
  | [], ws, h => by
    cases h
    rfl
  | v :: vs, ws, h => by
    obtain ⟨w, ws₁, hv, hvs, rfl⟩ := decodeItems_of_cons h
    rw [plainItems, plain_decodeValue v hv, plain_decodeItems vs hvs]
    rfl

theorem plain_decodeEntries : (d : Dict) → ∀ {d'}, decodeEntries d = .ok d' →
    plainEntries d' = true
  | [], d', h => by
    cases h
    rfl
  | (k, v) :: d, d', h => by
    obtain ⟨w, d₁, hv, hd, rfl⟩ := decodeEntries_of_cons h
    rw [plainEntries, plain_decodeValue v hv, plain_decodeEntries d hd]
    rfl
end

end Decoding

section Encoding

variable {v w : Value} {d d' : Dict} {k s : String}

theorem encodeEntries_eq_map : encodeEntries d = d.map fun e => (e.1, encodeValue e.2) := by
  induction d with
  | nil => rfl
  | cons e d ih => rw [encodeEntries, ih, List.map_cons]

omit [Texts] in
theorem sortEntries_eq_map : sortEntries d = d.map fun e => (e.1, sortKeys e.2) := by
  induction d with
  | nil => rfl
  | cons e d ih => rw [sortEntries, ih, List.map_cons]

omit [Texts] in
theorem inUtcEntries_eq_map : inUtcEntries d = d.map fun e => (e.1, inUtc e.2) := by
  induction d with
  | nil => rfl
  | cons e d ih => rw [inUtcEntries, ih, List.map_cons]

omit [Texts] in
/-- Values are sorted along with the keys they stand under. -/
theorem sorted_map (f : Value → Value) :
    sorted (d.map fun e => (e.1, f e.2)) = (sorted d).map fun e => (e.1, f e.2) :=
  (List.map_insertionSort (fun a b => keyOrder a b = true) (fun a b => keyOrder a b = true)
    (fun e : String × Value => (e.1, f e.2)) d fun _ _ _ _ => Iff.rfl).symm

omit [Texts] in
theorem lookup_map (f : Value → Value) :
    (d.map fun e => (e.1, f e.2)).lookup k = (d.lookup k).map f := by
  induction d with
  | nil => rfl
  | cons e d ih =>
    obtain ⟨l, v⟩ := e
    rw [List.map_cons]
    by_cases hl : k = l
    · subst hl
      rw [List.lookup_cons_self, List.lookup_cons_self]
      rfl
    · rw [lookup_cons_ne hl, lookup_cons_ne hl, ih]

omit [Texts] in
/-- The keys of a marker object are in order. -/
theorem sortKeys_marker (name text : String) : sortKeys (marker name text) = marker name text := by
  have horder : "__pybus_type__" ≤ "value" := by decide
  rw [marker, sortKeys_dict, sortEntries, sortEntries, sortEntries, sortKeys, sortKeys]
  · simp [sorted, keyOrder, horder]
  all_goals simp

theorem encodeValue_marker (name text : String) :
    encodeValue (marker name text) = marker name text := by
  simp [marker, encodeValue, encodeEntries]

theorem encodeValue_eq_str (h : encodeValue v = .str s) : v = .str s := by
  cases v with
  | str t =>
    simpa [encodeValue] using h
  | _ => simp [encodeValue, encodeDatetime, marker] at h

mutual
/-- What has been written holds no object that is still to be written. -/
theorem encodeValue_encodeValue : (v : Value) → encodeValue (encodeValue v) = encodeValue v
  | .list items => by simp only [encodeValue, encodeItems_encodeItems items]
  | .dict d => by simp only [encodeValue, encodeEntries_encodeEntries d]
  | .datetime _ | .date _ | .time _ | .uuid _ => by
    simp only [encodeValue, encodeDatetime, encodeValue_marker]
  | .null | .bool _ | .int _ | .float _ | .str _ => by simp only [encodeValue]

theorem encodeItems_encodeItems : (vs : List Value) → encodeItems (encodeItems vs) = encodeItems vs
  | [] => rfl
  | v :: vs => by simp only [encodeItems, encodeValue_encodeValue v, encodeItems_encodeItems vs]

theorem encodeEntries_encodeEntries : (d : Dict) →
    encodeEntries (encodeEntries d) = encodeEntries d
  | [] => rfl
  | (k, v) :: d => by
    simp only [encodeEntries, encodeValue_encodeValue v, encodeEntries_encodeEntries d]
end

theorem isMarker_encodeEntries (h : isMarker d = false) : isMarker (encodeEntries d) = false := by
  unfold isMarker
  rw [encodeEntries_eq_map, lookup_map]
  split
  · rename_i name hname
    obtain ⟨v, hv, hstr⟩ := Option.map_eq_some_iff.mp hname
    obtain rfl := encodeValue_eq_str hstr
    simpa [isMarker, hv] using h
  · rfl

mutual
/-- The keys are put in order before or after the values are written. -/
theorem sortKeys_encodeValue : (v : Value) → sortKeys (encodeValue v) = encodeValue (sortKeys v)
  | .list items => by simp only [encodeValue, sortKeys, sortItems_encodeItems items]
  | .dict d => by
    rw [encodeValue, sortKeys_dict, sortKeys_dict, encodeValue, sortEntries_encodeEntries d,
      encodeEntries_eq_map, encodeEntries_eq_map, sorted_map]
  | .datetime _ | .date _ | .time _ | .uuid _ => by
    simp only [encodeValue, encodeDatetime, sortKeys_marker, sortKeys]
  | .null | .bool _ | .int _ | .float _ | .str _ => by simp only [encodeValue, sortKeys]

theorem sortItems_encodeItems : (vs : List Value) →
    sortItems (encodeItems vs) = encodeItems (sortItems vs)
  | [] => rfl
  | v :: vs => by
    simp only [encodeItems, sortItems, sortKeys_encodeValue v, sortItems_encodeItems vs]

theorem sortEntries_encodeEntries : (d : Dict) →
    sortEntries (encodeEntries d) = encodeEntries (sortEntries d)
  | [] => rfl
  | (k, v) :: d => by
    simp only [encodeEntries, sortEntries, sortKeys_encodeValue v, sortEntries_encodeEntries d]
end

end Encoding

section Plain

variable {v w : Value} {d d' : Dict} {k s : String}

omit [Texts] in
theorem plainEntries_iff : plainEntries d = true ↔ ∀ e ∈ d, plain e.2 = true := by
  induction d with
  | nil => simp [plainEntries]
  | cons e d ih => simp [plainEntries, ih]

omit [Texts] in
theorem plain_dict_iff :
    plain (.dict d) = true ↔ isMarker d = false ∧ ∀ e ∈ d, plain e.2 = true := by
  simp [plain, plainEntries_iff]

omit [Texts] in
theorem plain_of_lookup (h : plainEntries d = true) (hk : d.lookup k = some v) :
    plain v = true := by
  induction d with
  | nil => cases hk
  | cons e d ih =>
    obtain ⟨l, w⟩ := e
    rw [plainEntries, Bool.and_eq_true] at h
    by_cases hl : k = l
    · subst hl
      rw [List.lookup_cons_self] at hk
      cases hk
      exact h.1
    · rw [lookup_cons_ne hl] at hk
      exact ih h.2 hk

omit [Texts] in
theorem plain_get (h : plainEntries d = true) : plain (get d k) = true := by
  rw [get]
  cases hk : d.lookup k with
  | none => simp only [Option.getD_none, plain]
  | some v => exact plain_of_lookup h hk

omit [Texts] in
theorem isMarker_sorted : isMarker (sorted d) = isMarker d := by
  unfold isMarker
  rw [lookup_sorted]

omit [Texts] in
theorem sortKeys_eq_str (h : sortKeys v = .str s) : v = .str s := by
  cases v with
  | str t => simpa [sortKeys] using h
  | _ => simp [sortKeys] at h

omit [Texts] in
theorem inUtc_eq_str (h : inUtc v = .str s) : v = .str s := by
  cases v with
  | str t => simpa [inUtc] using h
  | _ => simp [inUtc] at h

omit [Texts] in
/-- A function on values that makes no new strings makes no new marker objects. -/
theorem isMarker_map {f : Value → Value} (hf : ∀ {v s}, f v = .str s → v = .str s)
    (h : isMarker d = false) : isMarker (d.map fun e => (e.1, f e.2)) = false := by
  unfold isMarker
  rw [lookup_map]
  split
  · rename_i name hname
    obtain ⟨v, hv, hstr⟩ := Option.map_eq_some_iff.mp hname
    obtain rfl := hf hstr
    simpa [isMarker, hv] using h
  · rfl

omit [Texts] in
mutual
theorem plain_sortKeys : (v : Value) → plain v = true → plain (sortKeys v) = true
  | .list items, h => by
    rw [plain] at h
    rw [sortKeys, plain]
    exact plainItems_sortItems items h
  | .dict d, h => by
    obtain ⟨hm, -⟩ := plain_dict_iff.mp h
    rw [plain, Bool.and_eq_true] at h
    have hentries := plainEntries_iff.mp (plainEntries_sortEntries d h.2)
    rw [sortKeys_dict, plain_dict_iff, isMarker_sorted, sortEntries_eq_map]
    refine ⟨isMarker_map sortKeys_eq_str hm, fun e he => ?_⟩
    rw [← sortEntries_eq_map] at he
    exact hentries e ((List.mem_insertionSort _).mp he)
  | .null, _ | .bool _, _ | .int _, _ | .float _, _ | .str _, _ | .datetime _, _ | .date _, _
  | .time _, _ | .uuid _, _ => by simp only [sortKeys, plain]

theorem plainItems_sortItems : (vs : List Value) → plainItems vs = true →
    plainItems (sortItems vs) = true
  | [], _ => rfl
  | v :: vs, h => by
    rw [plainItems, Bool.and_eq_true] at h
    rw [sortItems, plainItems, plain_sortKeys v h.1, plainItems_sortItems vs h.2]
    rfl

theorem plainEntries_sortEntries : (d : Dict) → plainEntries d = true →
    plainEntries (sortEntries d) = true
  | [], _ => rfl
  | (k, v) :: d, h => by
    rw [plainEntries, Bool.and_eq_true] at h
    rw [sortEntries, plainEntries, plain_sortKeys v h.1, plainEntries_sortEntries d h.2]
    rfl
end

omit [Texts] in
mutual
theorem plain_inUtc : (v : Value) → plain v = true → plain (inUtc v) = true
  | .list items, h => by
    rw [plain] at h
    rw [inUtc, plain]
    exact plainItems_inUtcItems items h
  | .dict d, h => by
    obtain ⟨hm, -⟩ := plain_dict_iff.mp h
    rw [plain, Bool.and_eq_true] at h
    rw [inUtc, plain, plainEntries_inUtcEntries d h.2, inUtcEntries_eq_map,
      isMarker_map inUtc_eq_str hm]
    rfl
  | .null, _ | .bool _, _ | .int _, _ | .float _, _ | .str _, _ | .datetime _, _ | .date _, _
  | .time _, _ | .uuid _, _ => by simp only [inUtc, plain]

theorem plainItems_inUtcItems : (vs : List Value) → plainItems vs = true →
    plainItems (inUtcItems vs) = true
  | [], _ => rfl
  | v :: vs, h => by
    rw [plainItems, Bool.and_eq_true] at h
    rw [inUtcItems, plainItems, plain_inUtc v h.1, plainItems_inUtcItems vs h.2]
    rfl

theorem plainEntries_inUtcEntries : (d : Dict) → plainEntries d = true →
    plainEntries (inUtcEntries d) = true
  | [], _ => rfl
  | (k, v) :: d, h => by
    rw [plainEntries, Bool.and_eq_true] at h
    rw [inUtcEntries, plainEntries, plain_inUtc v h.1, plainEntries_inUtcEntries d h.2]
    rfl
end

omit [Texts] in
mutual
theorem sortKeys_inUtc : (v : Value) → sortKeys (inUtc v) = inUtc (sortKeys v)
  | .list items => by simp only [inUtc, sortKeys, sortItems_inUtcItems items]
  | .dict d => by
    rw [inUtc, sortKeys_dict, sortKeys_dict, inUtc, sortEntries_inUtcEntries d,
      inUtcEntries_eq_map, inUtcEntries_eq_map, sorted_map]
  | .null | .bool _ | .int _ | .float _ | .str _ | .datetime _ | .date _ | .time _ | .uuid _ => by
    simp only [inUtc, sortKeys]

theorem sortItems_inUtcItems : (vs : List Value) →
    sortItems (inUtcItems vs) = inUtcItems (sortItems vs)
  | [] => rfl
  | v :: vs => by simp only [inUtcItems, sortItems, sortKeys_inUtc v, sortItems_inUtcItems vs]

theorem sortEntries_inUtcEntries : (d : Dict) →
    sortEntries (inUtcEntries d) = inUtcEntries (sortEntries d)
  | [] => rfl
  | (k, v) :: d => by
    simp only [inUtcEntries, sortEntries, sortKeys_inUtc v, sortEntries_inUtcEntries d]
end

omit [Texts] in
theorem pairwise_sorted : (sorted d).Pairwise fun a b => keyOrder a b = true := by
  have : Std.Total fun a b : String × Value => keyOrder a b = true :=
    ⟨fun a b => by simpa [keyOrder] using String.le_total a.1 b.1⟩
  have : IsTrans (String × Value) fun a b => keyOrder a b = true :=
    ⟨fun a b c hab hbc => by
      simp only [keyOrder, decide_eq_true_eq] at hab hbc ⊢
      exact String.le_trans hab hbc⟩
  exact List.pairwise_insertionSort _ d

omit [Texts] in
theorem sorted_sorted : sorted (sorted d) = sorted d := pairwise_sorted.insertionSort_eq

omit [Texts] in
mutual
theorem sortKeys_sortKeys : (v : Value) → sortKeys (sortKeys v) = sortKeys v
  | .list items => by simp only [sortKeys, sortItems_sortItems items]
  | .dict d => by
    rw [sortKeys_dict, sortKeys_dict, sortEntries_eq_map, ← sorted_map, ← sortEntries_eq_map,
      sortEntries_sortEntries d, sorted_sorted]
  | .null | .bool _ | .int _ | .float _ | .str _ | .datetime _ | .date _ | .time _ | .uuid _ => by
    simp only [sortKeys]

theorem sortItems_sortItems : (vs : List Value) → sortItems (sortItems vs) = sortItems vs
  | [] => rfl
  | v :: vs => by simp only [sortItems, sortKeys_sortKeys v, sortItems_sortItems vs]

theorem sortEntries_sortEntries : (d : Dict) → sortEntries (sortEntries d) = sortEntries d
  | [] => rfl
  | (k, v) :: d => by simp only [sortEntries, sortKeys_sortKeys v, sortEntries_sortEntries d]
end

omit [Texts] in
mutual
theorem inUtc_inUtc : (v : Value) → inUtc (inUtc v) = inUtc v
  | .datetime d => by cases h : d.offset <;> simp [inUtc, h]
  | .list items => by simp only [inUtc, inUtcItems_inUtcItems items]
  | .dict d => by simp only [inUtc, inUtcEntries_inUtcEntries d]
  | .null | .bool _ | .int _ | .float _ | .str _ | .date _ | .time _ | .uuid _ => by
    simp only [inUtc]

theorem inUtcItems_inUtcItems : (vs : List Value) → inUtcItems (inUtcItems vs) = inUtcItems vs
  | [] => rfl
  | v :: vs => by simp only [inUtcItems, inUtc_inUtc v, inUtcItems_inUtcItems vs]

theorem inUtcEntries_inUtcEntries : (d : Dict) → inUtcEntries (inUtcEntries d) = inUtcEntries d
  | [] => rfl
  | (k, v) :: d => by simp only [inUtcEntries, inUtc_inUtc v, inUtcEntries_inUtcEntries d]
end

mutual
/-- A value without marker objects is read as it is. -/
theorem decodeValue_of_plain : (v : Value) → plain v = true → decodeValue v = .ok v
  | .list items, h => by
    rw [plain] at h
    simp only [decodeValue, decodeItems_of_plain items h, bind, Except.bind, pure, Except.pure]
  | .dict d, h => by
    obtain ⟨hm, -⟩ := plain_dict_iff.mp h
    rw [plain, Bool.and_eq_true] at h
    rw [decodeValue_dict hm, decodeEntries_of_plain d h.2]
    rfl
  | .null, _ | .bool _, _ | .int _, _ | .float _, _ | .str _, _ | .datetime _, _ | .date _, _
  | .time _, _ | .uuid _, _ => by simp only [decodeValue]

theorem decodeItems_of_plain : (vs : List Value) → plainItems vs = true → decodeItems vs = .ok vs
  | [], _ => rfl
  | v :: vs, h => by
    rw [plainItems, Bool.and_eq_true] at h
    exact decodeItems_cons (decodeValue_of_plain v h.1) (decodeItems_of_plain vs h.2)

theorem decodeEntries_of_plain : (d : Dict) → plainEntries d = true → decodeEntries d = .ok d
  | [], _ => rfl
  | (k, v) :: d, h => by
    rw [plainEntries, Bool.and_eq_true] at h
    exact decodeEntries_cons (decodeValue_of_plain v h.1) (decodeEntries_of_plain d h.2)
end

omit [Texts] in
theorem decodeMarker_ok {α : Type} {message : String} {conversion : String → Option α}
    {make : α → Value} {a : α} (hl : d.lookup "value" = some (.str s)) (h : conversion s = some a) :
    decodeMarker d message conversion make = .ok (make a) := by
  simp only [decodeMarker, hl, h]

omit [Texts] in
theorem lookup_marker {x y : Value} :
    [("__pybus_type__", x), ("value", y)].lookup "value" = some y := by
  simp [List.lookup_cons]

theorem decodeUuid_ok {u : Uuid} (hl : d.lookup "value" = some (.str s))
    (h : uuidFromText s = some u) : decodeUuid d = .ok (.uuid u) := by
  simp only [decodeUuid, hl]
  exact decodeMarker_ok hl h

mutual
/-- What has been written is read again, with naive datetimes taken to be UTC. -/
theorem decodeValue_encodeValue [RoundTexts] : (v : Value) → plain v = true →
    decodeValue (encodeValue v) = .ok (inUtc v)
  | .list items, h => by
    rw [plain] at h
    simp only [encodeValue, decodeValue, decodeItems_encodeItems items h, bind, Except.bind, pure,
      Except.pure, inUtc]
  | .dict d, h => by
    obtain ⟨hm, -⟩ := plain_dict_iff.mp h
    rw [plain, Bool.and_eq_true] at h
    rw [encodeValue, decodeValue_dict (isMarker_encodeEntries hm), decodeEntries_encodeEntries d h.2,
      inUtc]
    rfl
  | .datetime d, _ => by
    simp only [encodeValue, encodeDatetime, inUtc, marker, decodeValue, List.lookup_cons_self]
    exact decodeMarker_ok lookup_marker (RoundTexts.datetime_round _)
  | .date day, _ => by
    simp only [encodeValue, inUtc, marker, decodeValue, List.lookup_cons_self]
    exact decodeMarker_ok lookup_marker (RoundTexts.date_round _)
  | .time t, _ => by
    simp only [encodeValue, inUtc, marker, decodeValue, List.lookup_cons_self]
    exact decodeMarker_ok lookup_marker (RoundTexts.time_round _)
  | .uuid u, _ => by
    simp only [encodeValue, inUtc, marker, decodeValue, List.lookup_cons_self]
    exact decodeUuid_ok lookup_marker (uuid_round _)
  | .null, _ | .bool _, _ | .int _, _ | .float _, _ | .str _, _ => by
    simp only [encodeValue, decodeValue, inUtc]

theorem decodeItems_encodeItems [RoundTexts] : (vs : List Value) → plainItems vs = true →
    decodeItems (encodeItems vs) = .ok (inUtcItems vs)
  | [], _ => rfl
  | v :: vs, h => by
    rw [plainItems, Bool.and_eq_true] at h
    exact decodeItems_cons (decodeValue_encodeValue v h.1) (decodeItems_encodeItems vs h.2)

theorem decodeEntries_encodeEntries [RoundTexts] : (d : Dict) → plainEntries d = true →
    decodeEntries (encodeEntries d) = .ok (inUtcEntries d)
  | [], _ => rfl
  | (k, v) :: d, h => by
    rw [plainEntries, Bool.and_eq_true] at h
    exact decodeEntries_cons (decodeValue_encodeValue v h.1) (decodeEntries_encodeEntries d h.2)
end

/-- A value without marker objects comes back from the wire settled. -/
theorem loads_dumps [RoundTexts] (h : plain v = true) :
    JsonSerializer.loads (.json (JsonSerializer.dumps v)) = .ok (settled v) := by
  rw [JsonSerializer.loads, JsonSerializer.dumps, sortKeys_encodeValue,
    decodeValue_encodeValue _ (plain_sortKeys v h), settled, sortKeys_inUtc]

end Plain

section Settled

variable {v w : Value} {d : Dict} {k s : String}

omit [Texts] in
theorem settled_dict : settled (.dict d) = .dict (settledEntries d) := by
  rw [settled, inUtc, sortKeys_dict, settledEntries]

omit [Texts] in
theorem plain_settled (h : plain v = true) : plain (settled v) = true :=
  plain_sortKeys _ (plain_inUtc _ h)

omit [Texts] in
theorem settledEntries_eq_map : settledEntries d = sorted (d.map fun e => (e.1, settled e.2)) := by
  rw [settledEntries, sortEntries_eq_map, inUtcEntries_eq_map, List.map_map]
  rfl

omit [Texts] in
theorem lookup_settledEntries : (settledEntries d).lookup k = (d.lookup k).map settled := by
  rw [settledEntries_eq_map, lookup_sorted, lookup_map]

omit [Texts] in
theorem get_settledEntries : get (settledEntries d) k = settled (get d k) := by
  rw [get, get, lookup_settledEntries]
  cases d.lookup k with
  | none => simp [settled, inUtc, sortKeys]
  | some v => rfl

omit [Texts] in
theorem settledEntries_isEmpty : (settledEntries d).isEmpty = d.isEmpty := by
  have hlen : (settledEntries d).length = d.length := by
    rw [settledEntries_eq_map, sorted, List.length_insertionSort, List.length_map]
  cases d with
  | nil => rfl
  | cons e d =>
    cases hs : settledEntries (e :: d) with
    | nil => simp [hs] at hlen
    | cons f d' => rfl

omit [Texts] in
theorem truthy_settled : (settled v).truthy = v.truthy := by
  cases v with
  | dict d => rw [settled_dict, truthy, truthy, settledEntries_isEmpty]
  | list items => cases items <;> simp [settled, inUtc, inUtcItems, sortKeys, sortItems, truthy]
  | _ => simp [settled, inUtc, sortKeys, truthy]

end Settled

end Value

namespace MessageEnvelope

variable {e : MessageEnvelope} {now : Instant}

/-- The dictionary an envelope is written from, before its payload and headers are encoded. -/
def document (e : MessageEnvelope) (createdAt expiresAt : Value) : Dict :=
  [("message_id", e.messageId),
    ("message_type", e.messageType),
    ("message_kind", e.messageKind),
    ("version", .int e.version),
    ("payload", e.payload),
    ("headers", .dict e.headers),
    ("created_at", createdAt),
    ("correlation_id", e.correlationId),
    ("causation_id", e.causationId),
    ("reply_to", e.replyTo),
    ("expires_at", expiresAt),
    ("content_type", e.contentType),
    ("content_encoding", e.contentEncoding)]

/-- No field holds a marker object. -/
def Plain (e : MessageEnvelope) : Prop := plainEntries (e.document .null .null) = true

instance (e : MessageEnvelope) : Decidable e.Plain := inferInstanceAs (Decidable (_ = _))

/-- The two timestamps are datetimes, except that the second may be absent. -/
def Timed (e : MessageEnvelope) : Prop :=
  (∃ d, e.createdAt = .datetime d) ∧ (e.expiresAt = .null ∨ ∃ d, e.expiresAt = .datetime d)

/-- The envelope that is read after this one has been written. -/
def settled (e : MessageEnvelope) : MessageEnvelope where
  messageId := e.messageId.settled
  messageType := e.messageType.settled
  messageKind := e.messageKind.settled
  version := e.version
  payload := e.payload.settled
  headers := settledEntries e.headers
  createdAt := e.createdAt
  correlationId := e.correlationId.settled
  causationId := e.causationId.settled
  replyTo := e.replyTo.settled
  expiresAt := e.expiresAt
  contentType := e.contentType.settled
  contentEncoding := e.contentEncoding.settled

/-- Encoding payload and headers twice is encoding them once. -/
theorem dumps_toDict {v : Value} (h : e.toDict = .ok v) : ∃ c x,
    isoformat e.createdAt = .ok c ∧ (if e.expiresAt.truthy then isoformat e.expiresAt else .ok .null)
      = .ok x ∧ JsonSerializer.dumps v = JsonSerializer.dumps (.dict (e.document c x)) := by
  unfold toDict at h
  cases hv : e.validate with
  | error exc => simp [hv, bind, Except.bind] at h
  | ok e' =>
    obtain rfl : e' = e := by
      unfold validate at hv
      repeat' split at hv
      all_goals first | cases hv; rfl | cases hv
    simp only [hv, bind, Except.bind] at h
    cases hc : isoformat e'.createdAt with
    | error exc => simp [hc] at h
    | ok c =>
      by_cases ht : e'.expiresAt.truthy = true
      · cases hx : isoformat e'.expiresAt with
        | error exc => simp [hc, ht, hx] at h
        | ok x =>
          simp only [hc, ht, hx, if_true, pure, Except.pure, Except.ok.injEq] at h
          subst h
          refine ⟨c, x, rfl, by rw [if_pos ht], ?_⟩
          simp only [JsonSerializer.dumps, document, encodeValue, encodeEntries,
            encodeValue_encodeValue, encodeEntries_encodeEntries]
      · simp only [hc, ht, pure, Except.pure, Except.ok.injEq, Bool.false_eq_true, if_false] at h
        subst h
        refine ⟨c, .null, rfl, by rw [if_neg ht], ?_⟩
        simp only [JsonSerializer.dumps, document, encodeValue, encodeEntries,
          encodeValue_encodeValue, encodeEntries_encodeEntries]

theorem isoformat_eq_str {v t : Value} (h : isoformat v = .ok t) : ∃ s, t = .str s := by
  unfold isoformat at h
  split at h
  all_goals first | exact ⟨_, (Except.ok.inj h).symm⟩ | cases h

omit [Texts] in
theorem settled_str {s : String} : (Value.str s).settled = .str s := by
  simp only [Value.settled, inUtc, sortKeys]

omit [Texts] in
theorem settled_null : Value.null.settled = .null := by
  simp only [Value.settled, inUtc, sortKeys]

omit [Texts] in
theorem settled_int {i : Int} : (Value.int i).settled = .int i := by
  simp only [Value.settled, inUtc, sortKeys]

theorem isoformat_datetime {d : Datetime} :
    isoformat (.datetime d) = .ok (.str (datetimeIsoformat d)) := rfl

omit [Texts] in
theorem plain_document {c x : Value} (h : e.Plain) (hc : plain c = true) (hx : plain x = true) :
    plain (.dict (e.document c x)) = true := by
  rw [plain, Bool.and_eq_true]
  refine ⟨by simp [isMarker, document, List.lookup_cons], ?_⟩
  simp only [Plain, document, plainEntries, Bool.and_eq_true] at h ⊢
  tauto

omit [Texts] in
theorem Plain.payload (h : e.Plain) : plain e.payload = true := by
  simp only [Plain, document, plainEntries, Bool.and_eq_true] at h
  tauto

omit [Texts] in
theorem Plain.headers (h : e.Plain) : plain (.dict e.headers) = true := by
  simp only [Plain, document, plainEntries, Bool.and_eq_true] at h
  tauto

omit [Texts] in
theorem field_settledEntries {d : Dict} {k : String} :
    field (settledEntries d) k = (field d k).map Value.settled := by
  rw [field, field, lookup_settledEntries]
  cases d.lookup k <;> rfl

theorem catchKey_ok {v w : Value} (h : decodeValue v = .ok w) :
    fromDict.catchKey (decodeValue v) = .ok w := by
  rw [h]
  rfl

omit [Texts] in
theorem build_ok {messageId messageType messageKind payload createdAt expiresAt : Value}
    {version : Int} {headers data : Dict} (h₁ : messageId.truthy) (h₂ : messageType.truthy)
    (h₃ : messageKind.truthy) (h₄ : 1 ≤ version) :
    build messageId messageType messageKind (.int version) payload (.dict headers) createdAt data
      expiresAt = .ok {
        messageId, messageType, messageKind, version, payload, headers, createdAt, expiresAt
        correlationId := Value.get data "correlation_id"
        causationId := Value.get data "causation_id"
        replyTo := Value.get data "reply_to"
        contentType := Value.get data "content_type"
        contentEncoding := Value.get data "content_encoding" } := by
  have h₅ : ¬ version < 1 := by omega
  simp [build, h₁, h₂, h₃, h₅, readVersion, readHeaders, bind, Except.bind, pure, Except.pure]

/-- The fields a document is read back with. -/
theorem fromDict_settled {d : Datetime} {s : String} {x : Value} (hv : e.Valid) (hp : e.Plain)
    (hc : readDatetime (.str s) = .ok (.datetime d)) (he : e.createdAt = .datetime d)
    (hx : readDatetime x.settled = .ok e.expiresAt) :
    fromDict now (.dict (settledEntries (e.document (.str s) x))) = .ok e.settled := by
  obtain ⟨h₁, h₂, h₃, h₄⟩ := hv
  have h₅ : ¬ e.version < 1 := by omega
  have hcreated : get (settledEntries (e.document (.str s) x)) "created_at" = .str s := by
    rw [get_settledEntries]
    simp [Value.get, document, List.lookup_cons, Value.settled, inUtc, sortKeys]
  have hexpires : get (settledEntries (e.document (.str s) x)) "expires_at" = x.settled := by
    rw [get_settledEntries]
    simp [Value.get, document, List.lookup_cons]
  have hheaders : get (settledEntries (e.document (.str s) x)) "headers" =
      .dict (settledEntries e.headers) := by
    rw [get_settledEntries, ← settled_dict]
    simp [Value.get, document, List.lookup_cons]
  have hif : (if (Value.dict (settledEntries e.headers)).truthy then
      Value.dict (settledEntries e.headers) else .dict []) = .dict (settledEntries e.headers) := by
    split
    · rfl
    · rename_i hempty
      simpa [truthy] using hempty
  have hpayload := catchKey_ok (decodeValue_of_plain _ (plain_settled hp.payload))
  have hdecode := catchKey_ok (decodeValue_of_plain _ (plain_settled hp.headers))
  rw [settled_dict] at hdecode
  have hid : field (e.document (.str s) x) "message_id" = .ok e.messageId := by
    simp [field, document]
  have htype : field (e.document (.str s) x) "message_type" = .ok e.messageType := by
    simp [field, document, List.lookup_cons]
  have hkind : field (e.document (.str s) x) "message_kind" = .ok e.messageKind := by
    simp [field, document, List.lookup_cons]
  have hversion : field (e.document (.str s) x) "version" = .ok (.int e.version) := by
    simp [field, document, List.lookup_cons]
  have hbody : field (e.document (.str s) x) "payload" = .ok e.payload := by
    simp [field, document, List.lookup_cons]
  simp only [fromDict, hcreated, hexpires, hc, hx, hheaders, hif, hdecode, field_settledEntries, hid,
    htype, hkind, hversion, hbody, Except.map, bind, Except.bind, hpayload]
  have hseconds : (Value.datetime d).truthy = true := rfl
  have hint : (Value.int e.version).settled = .int e.version := by
    simp [Value.settled, inUtc, sortKeys]
  rw [hseconds, if_pos rfl, hint, build_ok (by rw [truthy_settled]; exact h₁)
    (by rw [truthy_settled]; exact h₂) (by rw [truthy_settled]; exact h₃) h₄]
  simp only [get_settledEntries, settled, he]
  simp [Value.get, document, List.lookup_cons]

variable [RoundTexts]

theorem readDatetime_isoformat {d : Datetime} :
    readDatetime (.str (datetimeIsoformat d)) = .ok (.datetime d) := by
  simp only [readDatetime, RoundTexts.datetime_round]

omit [RoundTexts] in
theorem dumpable_of_timed (ht : e.Timed) : e.Dumpable := by
  obtain ⟨⟨d, hd⟩, hx⟩ := ht
  refine ⟨by rw [hd]; rfl, fun htruthy => ?_⟩
  rcases hx with hx | ⟨x, hx⟩
  · rw [hx] at htruthy
    cases htruthy
  · rw [hx]
    rfl

/-- The text of an absent or present expiry is read back as it was. -/
theorem readDatetime_expires {x : Value}
    (hx : e.expiresAt = .null ∨ ∃ d, e.expiresAt = .datetime d)
    (h : (if e.expiresAt.truthy then isoformat e.expiresAt else .ok .null) = .ok x) :
    readDatetime x.settled = .ok e.expiresAt ∧ plain x = true := by
  rcases hx with hx | ⟨t, hx⟩
  · rw [hx] at h ⊢
    cases h
    refine ⟨?_, by simp only [plain]⟩
    simp [Value.settled, inUtc, sortKeys, readDatetime]
  · rw [hx] at h ⊢
    cases h
    refine ⟨?_, by simp only [plain]⟩
    simp [Value.settled, inUtc, sortKeys, readDatetime, RoundTexts.datetime_round]

/-- A well-formed envelope is written, and read again settled. -/
theorem read_dump (hv : e.Valid) (hp : e.Plain) (ht : e.Timed) :
    ∃ raw, e.dump = .ok raw ∧ ∀ now, read now raw = .ok e.settled := by
  obtain ⟨v, hv', hraw⟩ := dump_of_dumpable hv (dumpable_of_timed ht)
  obtain ⟨c, x, hc, hx', hdumps⟩ := dumps_toDict hv'
  obtain ⟨⟨d, hd⟩, hx⟩ := ht
  rw [hd, isoformat_datetime] at hc
  cases hc
  obtain ⟨hread, hplain⟩ := readDatetime_expires hx hx'
  refine ⟨_, hraw, fun now => ?_⟩
  have htext : plain (.str (datetimeIsoformat d)) = true := by simp only [plain]
  have hloads := loads_dumps (plain_document hp htext hplain)
  rw [read, hdumps, hloads, settled_dict]
  simp only [Except.bind]
  exact fromDict_settled hv hp readDatetime_isoformat hd hread

end MessageEnvelope

namespace MessageEnvelope

variable {e : MessageEnvelope} {now : Instant}

omit [Texts] in
/-- What an envelope is built from. -/
theorem build_eq {messageId messageType messageKind version payload headers createdAt : Value}
    {data : Dict} {expiresAt : Value}
    (h : build messageId messageType messageKind version payload headers createdAt data expiresAt
      = .ok e) : ∃ v d, version = .int v ∧ headers = .dict d ∧ e = {
        messageId, messageType, messageKind, payload, createdAt, expiresAt
        version := v
        headers := d
        correlationId := Value.get data "correlation_id"
        causationId := Value.get data "causation_id"
        replyTo := Value.get data "reply_to"
        contentType := Value.get data "content_type"
        contentEncoding := Value.get data "content_encoding" } := by
  simp only [build, bind, Except.bind, pure, Except.pure, throw, throwThe, MonadExceptOf.throw]
    at h
  repeat' split at h
  all_goals first | (cases h; done) | skip
  rename_i v hv _ _ d hd
  injection h with h
  subst h
  refine ⟨v, d, ?_, ?_, rfl⟩
  · cases version <;> simp_all [readVersion]
  · cases headers <;> simp_all [readHeaders]

/-- How a dictionary is read as an envelope. -/
structure Reads (now : Instant) (data : Dict) (e : MessageEnvelope) : Prop where
  createdAt : ∃ c, readDatetime (Value.get data "created_at") = .ok c ∧
    e.createdAt = if c.truthy then c else .datetime (.utc now)
  expiresAt : readDatetime (Value.get data "expires_at") = .ok e.expiresAt
  messageId : data.lookup "message_id" = some e.messageId
  messageType : data.lookup "message_type" = some e.messageType
  messageKind : data.lookup "message_kind" = some e.messageKind
  version : data.lookup "version" = some (.int e.version)
  payload : ∃ p, data.lookup "payload" = some p ∧ decodeValue p = .ok e.payload
  headers : decodeValue (if (Value.get data "headers").truthy then Value.get data "headers"
    else .dict []) = .ok (.dict e.headers)
  correlationId : e.correlationId = Value.get data "correlation_id"
  causationId : e.causationId = Value.get data "causation_id"
  replyTo : e.replyTo = Value.get data "reply_to"
  contentType : e.contentType = Value.get data "content_type"
  contentEncoding : e.contentEncoding = Value.get data "content_encoding"

omit [Texts] in
theorem bind_eq_ok {α β : Type} {r : Except Exc α} {f : α → Except Exc β} {b : β}
    (h : (do let a ← r; f a) = .ok b) : ∃ a, r = .ok a ∧ f a = .ok b := by
  cases r with
  | error exc => cases h
  | ok a => exact ⟨a, rfl, h⟩

omit [Texts] in
theorem catchKey_eq_ok {α : Type} {r : Except Exc α} {a : α}
    (h : fromDict.catchKey r = .ok a) : r = .ok a := by
  unfold fromDict.catchKey at h
  split at h
  · cases h
  · exact h

omit [Texts] in
theorem lookup_of_field {data : Dict} {k : String} {v : Value} (h : field data k = .ok v) :
    data.lookup k = some v := by
  unfold field at h
  split at h
  · cases h
    assumption
  · cases h

theorem reads_of_fromDict {data : Dict} (h : fromDict now (.dict data) = .ok e) :
    Reads now data e := by
  obtain ⟨createdAt, hcreated, h⟩ := bind_eq_ok h
  obtain ⟨expiresAt, hexpires, h⟩ := bind_eq_ok h
  obtain ⟨messageId, hid, h⟩ := bind_eq_ok h
  obtain ⟨messageType, htype, h⟩ := bind_eq_ok h
  obtain ⟨messageKind, hkind, h⟩ := bind_eq_ok h
  obtain ⟨version, hversion, h⟩ := bind_eq_ok h
  obtain ⟨payload, hpayload, h⟩ := bind_eq_ok h
  obtain ⟨headers, hheaders, h⟩ := bind_eq_ok h
  obtain ⟨p, hp, hpayload⟩ := bind_eq_ok (catchKey_eq_ok hpayload)
  obtain ⟨v, d, rfl, rfl, rfl⟩ := build_eq h
  exact {
    createdAt := ⟨createdAt, hcreated, rfl⟩
    expiresAt := hexpires
    messageId := lookup_of_field hid
    messageType := lookup_of_field htype
    messageKind := lookup_of_field hkind
    version := lookup_of_field hversion
    payload := ⟨p, lookup_of_field hp, hpayload⟩
    headers := catchKey_eq_ok hheaders
    correlationId := rfl
    causationId := rfl
    replyTo := rfl
    contentType := rfl
    contentEncoding := rfl }

theorem read_eq_ok {raw : Raw} (h : read now raw = .ok e) :
    ∃ document data, raw = .json document ∧ decodeValue document = .ok (.dict data) ∧
      Reads now data e := by
  unfold read at h
  cases raw with
  | malformed bytes exc => cases h
  | json document =>
    obtain ⟨v, hv, h⟩ := bind_eq_ok h
    cases v with
    | dict data => exact ⟨document, data, rfl, hv, reads_of_fromDict h⟩
    | _ => cases h

/-- An envelope that has been read holds no marker object. -/
theorem Reads.plain {data : Dict} (h : Reads now data e) (hp : plainEntries data = true) :
    e.Plain := by
  obtain ⟨p, -, hpayload⟩ := h.payload
  simp only [Plain, document, plainEntries, Bool.and_eq_true]
  refine ⟨plain_of_lookup hp h.messageId, plain_of_lookup hp h.messageType,
    plain_of_lookup hp h.messageKind, plain_of_lookup hp h.version, plain_decodeValue p hpayload,
    plain_decodeValue _ h.headers, by simp only [Value.plain], ?_, ?_, ?_, by simp only [Value.plain],
    ?_, ?_, trivial⟩
  · rw [h.correlationId]
    exact plain_get hp
  · rw [h.causationId]
    exact plain_get hp
  · rw [h.replyTo]
    exact plain_get hp
  · rw [h.contentType]
    exact plain_get hp
  · rw [h.contentEncoding]
    exact plain_get hp

theorem read_plain {raw : Raw} (h : read now raw = .ok e) : e.Plain := by
  obtain ⟨document, data, rfl, hd, hr⟩ := read_eq_ok h
  have hp := plain_decodeValue document hd
  rw [Value.plain, Bool.and_eq_true] at hp
  exact hr.plain hp.2

end MessageEnvelope

end Pybus
