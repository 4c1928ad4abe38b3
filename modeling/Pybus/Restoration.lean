import Pybus.Wire

/-! Publishing an envelope again that was read from the wire: when it comes back equal, by Python's
own equality. -/
namespace Pybus

open Value Texts

namespace PyFloat

/-- `==` on floats: NaN differs from itself. -/
def equal (x y : PyFloat) : Bool := x != .nan && x == y

theorem equal_self_iff {x : PyFloat} : x.equal x = true ↔ x ≠ .nan := by simp [equal]

end PyFloat

/-- `==` on datetimes: aware ones by their instant, naive ones by their wall clock. -/
def Datetime.equal (a b : Datetime) : Bool :=
  match a.offset, b.offset with
  | none, none => a.wall == b.wall
  | some o, some p => a.wall - o == b.wall - p
  | _, _ => false

def ClockTime.equal (a b : ClockTime) : Bool :=
  match a.offset, b.offset with
  | none, none => a.micros == b.micros
  | some o, some p => (a.micros : Int) - o == (b.micros : Int) - p
  | _, _ => false

theorem ClockTime.equal_self (t : ClockTime) : t.equal t = true := by
  cases h : t.offset <;> simp [ClockTime.equal, h]

namespace Value

/-- The number a value is, in the eyes of `==`. -/
def number : Value → Option PyFloat
  | .bool b => some (.finite (if b then 1 else 0))
  | .int i => some (.finite i)
  | .float x => some x
  | _ => none

mutual
/-- `==` on values whose dictionaries list their keys in one order. -/
def same : Value → Value → Bool
  | .null, .null => true
  | .str s, .str t => s == t
  | .datetime a, .datetime b => a.equal b
  | .date a, .date b => a == b
  | .time a, .time b => a.equal b
  | .uuid u, .uuid v => u == v
  | .list vs, .list ws => sameItems vs ws
  | .dict d, .dict d' => sameEntries d d'
  | v, w =>
    match number v, number w with
    | some x, some y => x.equal y
    | _, _ => false

def sameItems : List Value → List Value → Bool
  | [], [] => true
  | v :: vs, w :: ws => same v w && sameItems vs ws
  | _, _ => false

def sameEntries : Dict → Dict → Bool
  | [], [] => true
  | (k, v) :: d, (l, w) :: d' => k == l && same v w && sameEntries d d'
  | _, _ => false
end

/-- `==`: dictionaries are equal when they hold equal values under the same keys. -/
def equal (v w : Value) : Bool := same (sortKeys v) (sortKeys w)

mutual
/-- The value holds no NaN and no naive datetime. -/
def steady : Value → Bool
  | .float x => x != .nan
  | .datetime d => d.offset.isSome
  | .list items => steadyItems items
  | .dict entries => steadyEntries entries
  | _ => true

def steadyItems : List Value → Bool
  | [] => true
  | v :: vs => steady v && steadyItems vs

def steadyEntries : Dict → Bool
  | [] => true
  | (_, v) :: d => steady v && steadyEntries d
end

theorem equal_inUtc_datetime {d : Datetime} :
    d.equal { d with offset := some (d.offset.getD 0) } = d.offset.isSome := by
  cases h : d.offset <;> simp [Datetime.equal, h]

mutual
/-- Only NaN and naive datetimes differ from what they become on the wire. -/
theorem same_inUtc : (v : Value) → same v (inUtc v) = steady v
  | .list items => by simp only [inUtc, same, steady, sameItems_inUtcItems items]
  | .dict d => by simp only [inUtc, same, steady, sameEntries_inUtcEntries d]
  | .datetime d => by simp only [inUtc, same, steady, equal_inUtc_datetime]
  | .float x => by
    cases x <;> simp [inUtc, same, number, steady, PyFloat.equal]
  | .time t => by simp only [inUtc, same, steady, ClockTime.equal_self]
  | .bool _ | .int _ => by simp [inUtc, same, number, steady, PyFloat.equal]
  | .null | .str _ | .date _ | .uuid _ => by simp [inUtc, same, steady]

theorem sameItems_inUtcItems : (vs : List Value) → sameItems vs (inUtcItems vs) = steadyItems vs
  | [] => rfl
  | v :: vs => by
    simp only [inUtcItems, sameItems, steadyItems, same_inUtc v, sameItems_inUtcItems vs]

theorem sameEntries_inUtcEntries : (d : Dict) → sameEntries d (inUtcEntries d) = steadyEntries d
  | [] => rfl
  | (k, v) :: d => by
    simp only [inUtcEntries, sameEntries, steadyEntries, same_inUtc v, sameEntries_inUtcEntries d,
      beq_self_eq_true, Bool.true_and]
end

theorem steadyEntries_iff {d : Dict} : steadyEntries d = true ↔ ∀ e ∈ d, steady e.2 = true := by
  induction d with
  | nil => simp [steadyEntries]
  | cons e d ih => simp [steadyEntries, ih]

theorem steadyEntries_sorted {d : Dict} : steadyEntries (sorted d) = steadyEntries d := by
  rw [Bool.eq_iff_iff, steadyEntries_iff, steadyEntries_iff]
  simp only [sorted, List.mem_insertionSort]

mutual
theorem steady_sortKeys : (v : Value) → steady (sortKeys v) = steady v
  | .list items => by simp only [sortKeys, steady, steadyItems_sortItems items]
  | .dict d => by rw [sortKeys_dict, steady, steady, steadyEntries_sorted, steadyEntries_sortEntries d]
  | .null | .bool _ | .int _ | .float _ | .str _ | .datetime _ | .date _ | .time _ | .uuid _ => by
    simp only [sortKeys, steady]

theorem steadyItems_sortItems : (vs : List Value) → steadyItems (sortItems vs) = steadyItems vs
  | [] => rfl
  | v :: vs => by simp only [sortItems, steadyItems, steady_sortKeys v, steadyItems_sortItems vs]

theorem steadyEntries_sortEntries : (d : Dict) → steadyEntries (sortEntries d) = steadyEntries d
  | [] => rfl
  | (k, v) :: d => by
    simp only [sortEntries, steadyEntries, steady_sortKeys v, steadyEntries_sortEntries d]
end

/-- A value equals what it is read as exactly when it holds no NaN and no naive datetime. -/
theorem equal_settled (v : Value) : v.equal v.settled = v.steady := by
  rw [equal, settled, sortKeys_sortKeys, sortKeys_inUtc, same_inUtc, steady_sortKeys]

mutual
/-- What a JSON text denotes: no objects, and no NaN. -/
def isJson : Value → Bool
  | .float x => x != .nan
  | .datetime _ | .date _ | .time _ | .uuid _ => false
  | .list items => isJsonItems items
  | .dict entries => isJsonEntries entries
  | _ => true

def isJsonItems : List Value → Bool
  | [] => true
  | v :: vs => isJson v && isJsonItems vs

def isJsonEntries : Dict → Bool
  | [] => true
  | (_, v) :: d => isJson v && isJsonEntries d
end

variable [Texts]

/-- Whether the text of a datetime marker object has an offset. -/
def awareMarker (entries : Dict) : Bool :=
  match entries.lookup "value" with
  | some (.str s) =>
    match datetimeFromisoformat s with
    | some d => d.offset.isSome
    | none => true
  | _ => true

mutual
/-- No marker object of the document denotes a naive datetime. -/
def aware : Value → Bool
  | .list items => awareItems items
  | .dict entries =>
    match entries.lookup "__pybus_type__" with
    | some (.str "datetime") => awareMarker entries
    | some (.str "date") | some (.str "time") | some (.str "uuid") => true
    | _ => awareEntries entries
  | _ => true

def awareItems : List Value → Bool
  | [] => true
  | v :: vs => aware v && awareItems vs

def awareEntries : Dict → Bool
  | [] => true
  | (_, v) :: d => aware v && awareEntries d
end

section Awareness

variable {v w : Value} {d d' : Dict} {k s : String}

theorem aware_dict (h : isMarker d = false) : aware (.dict d) = awareEntries d := by
  rw [aware]
  unfold isMarker at h
  split
  all_goals first | rfl | (rename_i hl; simp [hl, markerNames] at h)

/-- A marker object read as a datetime is aware when the datetime is. -/
theorem aware_marker (h : isMarker d = true) (hv : decodeValue (.dict d) = .ok v) :
    steady v = aware (.dict d) := by
  rw [decodeValue] at hv
  split at hv
  · rename_i hl
    rw [aware]
    simp only [hl]
    unfold decodeMarker at hv
    unfold awareMarker
    split at hv
    · cases hv
    · rename_i hs
      simp only [hs]
      split at hv
      · rename_i a ha
        cases hv
        simp only [ha, steady]
      · cases hv
    · cases hv
  · rename_i hl
    obtain ⟨a, rfl⟩ := decodeMarker_make hv
    rw [aware]
    simp only [hl, steady]
  · rename_i hl
    obtain ⟨a, rfl⟩ := decodeMarker_make hv
    rw [aware]
    simp only [hl, steady]
  · rename_i hl
    obtain ⟨a, rfl⟩ := decodeUuid_make hv
    rw [aware]
    simp only [hl, steady]
  · rename_i hd ht hm hu
    unfold isMarker at h
    split at h
    · rename_i name hname
      simp only [markerNames, List.contains_eq_mem, decide_eq_true_eq, List.mem_cons,
        List.not_mem_nil, or_false] at h
      rcases h with rfl | rfl | rfl | rfl
      · exact absurd hname hd
      · exact absurd hname ht
      · exact absurd hname hm
      · exact absurd hname hu
    · cases h

mutual
/-- What is read holds a naive datetime exactly where the document denotes one. -/
theorem steady_decodeValue : (v : Value) → ∀ {w}, isJson v = true → decodeValue v = .ok w →
    steady w = aware v
  | .list items, w, hj, h => by
    rw [decodeValue] at h
    rw [isJson] at hj
    obtain ⟨ws, hws, h⟩ := MessageEnvelope.bind_eq_ok h
    cases h
    rw [steady, aware]
    exact steadyItems_decodeItems items hj hws
  | .dict d, w, hj, h => by
    cases hm : isMarker d with
    | true => exact aware_marker hm h
    | false =>
      rw [decodeValue_dict hm] at h
      rw [isJson] at hj
      cases hd : decodeEntries d with
      | error exc => simp [hd, Except.map] at h
      | ok d' =>
        simp only [hd, Except.map, Except.ok.injEq] at h
        subst h
        rw [steady, aware_dict hm]
        exact steadyEntries_decodeEntries d hj hd
  | .float x, w, hj, h => by
    simp only [decodeValue, Except.ok.injEq] at h
    subst h
    simpa only [isJson, steady, aware] using hj
  | .null, w, _, h | .bool _, w, _, h | .int _, w, _, h | .str _, w, _, h => by
    simp only [decodeValue, Except.ok.injEq] at h
    subst h
    simp only [steady, aware]
  | .datetime _, w, hj, _ | .date _, w, hj, _ | .time _, w, hj, _ | .uuid _, w, hj, _ => by
    simp [isJson] at hj

theorem steadyItems_decodeItems : (vs : List Value) → ∀ {ws}, isJsonItems vs = true →
    decodeItems vs = .ok ws → steadyItems ws = awareItems vs
  | [], ws, _, h => by
    cases h
    rfl
  | v :: vs, ws, hj, h => by
    rw [isJsonItems, Bool.and_eq_true] at hj
    obtain ⟨w, ws₁, hv, hvs, rfl⟩ := decodeItems_of_cons h
    rw [steadyItems, awareItems, steady_decodeValue v hj.1 hv, steadyItems_decodeItems vs hj.2 hvs]

theorem steadyEntries_decodeEntries : (d : Dict) → ∀ {d'}, isJsonEntries d = true →
    decodeEntries d = .ok d' → steadyEntries d' = awareEntries d
  | [], d', _, h => by
    cases h
    rfl
  | (k, v) :: d, d', hj, h => by
    rw [isJsonEntries, Bool.and_eq_true] at hj
    obtain ⟨w, d₁, hv, hd, rfl⟩ := decodeEntries_of_cons h
    rw [steadyEntries, awareEntries, steady_decodeValue v hj.1 hv,
      steadyEntries_decodeEntries d hj.2 hd]
end

/-- What is read has the truth value of the document. -/
theorem truthy_decodeValue (h : decodeValue v = .ok w) : w.truthy = v.truthy := by
  cases v with
  | list items =>
    rw [decodeValue] at h
    obtain ⟨ws, hws, h⟩ := MessageEnvelope.bind_eq_ok h
    cases h
    cases items with
    | nil =>
      cases hws
      rfl
    | cons v vs =>
      obtain ⟨w, ws₁, -, -, rfl⟩ := decodeItems_of_cons hws
      rfl
  | dict d =>
    cases hm : isMarker d with
    | true =>
      have hd : d.isEmpty = false := by
        cases d with
        | nil => simp [isMarker] at hm
        | cons e d => rfl
      rcases decodeValue_marker hm h with ⟨a, rfl⟩ | ⟨a, rfl⟩ | ⟨a, rfl⟩ | ⟨a, rfl⟩ <;>
        simp [truthy, hd]
    | false =>
      rw [decodeValue_dict hm] at h
      cases d with
      | nil =>
        cases h
        rfl
      | cons e d =>
        obtain ⟨k, v⟩ := e
        cases hd : decodeEntries ((k, v) :: d) with
        | error exc => simp [hd, Except.map] at h
        | ok d' =>
          simp only [hd, Except.map, Except.ok.injEq] at h
          subst h
          obtain ⟨w, d₁, -, -, rfl⟩ := decodeEntries_of_cons hd
          rfl
  | _ =>
    simp only [decodeValue, Except.ok.injEq] at h
    subst h
    rfl

end Awareness

/-- Whether a field of a document is read as a datetime: a text, or a marker object of that name. -/
def isTimestamp : Value → Bool
  | .str _ => true
  | .dict entries => entries.lookup "__pybus_type__" == some (.str "datetime")
  | _ => false

/-- The fields of a document that are kept as values of any type. -/
def valueFields : List String :=
  ["message_id", "message_type", "message_kind", "payload", "headers", "correlation_id",
    "causation_id", "reply_to", "content_type", "content_encoding"]

/-- The document gives its time of creation as a datetime or not at all, likewise its expiry, and
denotes no naive datetime in any other field. -/
def republishable : Value → Bool
  | .dict d =>
    (isTimestamp (get d "created_at") || !(get d "created_at").truthy) &&
      (isTimestamp (get d "expires_at") || get d "expires_at" == .null) &&
      valueFields.all fun k => aware (get d k)
  | _ => false

end Value

namespace MessageEnvelope

variable [Texts] {e e' : MessageEnvelope} {now now' : Instant}

/-- `==` on envelopes: all fields are equal. -/
def equal (e e' : MessageEnvelope) : Bool :=
  e.messageId.equal e'.messageId && e.messageType.equal e'.messageType &&
    e.messageKind.equal e'.messageKind && e.version == e'.version && e.payload.equal e'.payload &&
    (Value.dict e.headers).equal (.dict e'.headers) && e.createdAt.equal e'.createdAt &&
    e.correlationId.equal e'.correlationId && e.causationId.equal e'.causationId &&
    e.replyTo.equal e'.replyTo && e.expiresAt.equal e'.expiresAt &&
    e.contentType.equal e'.contentType && e.contentEncoding.equal e'.contentEncoding

/-- No field but the timestamps holds NaN or a naive datetime. -/
def Steady (e : MessageEnvelope) : Prop := steadyEntries (e.document .null .null) = true

omit [Texts] in
theorem equal_timestamp {v : Value} (h : v = .null ∨ ∃ d, v = .datetime d) : v.equal v = true := by
  rcases h with rfl | ⟨d, rfl⟩
  · simp [Value.equal, sortKeys, same]
  · cases ho : d.offset <;> simp [Value.equal, sortKeys, same, Datetime.equal, ho]

omit [Texts] in
theorem equal_settled_iff (ht : e.Timed) : e.equal e.settled = true ↔ e.Steady := by
  obtain ⟨⟨d, hd⟩, hx⟩ := ht
  have hdict := equal_settled (.dict e.headers)
  rw [settled_dict] at hdict
  simp only [equal, settled, equal_settled, hdict, equal_timestamp (.inr ⟨d, hd⟩),
    equal_timestamp hx, Steady, document, steadyEntries, Bool.and_eq_true, beq_self_eq_true]
  have hint : steady (.int e.version) = true := by simp only [steady]
  have hnull : steady .null = true := by simp only [steady]
  tauto

omit [Texts] in
/-- Only a datetime equals a datetime. -/
theorem datetime_of_equal {v : Value} {d : Datetime} (h : v.equal (.datetime d) = true) :
    ∃ d', v = .datetime d' := by
  cases v with
  | datetime d' => exact ⟨d', rfl⟩
  | _ => simp [Value.equal, sortKeys, same, number] at h

omit [Texts] in
theorem null_of_equal {v : Value} (h : v.equal .null = true) : v = .null := by
  cases v with
  | null => rfl
  | _ => simp [Value.equal, sortKeys, same, number] at h

/-- A text is read as a datetime or not at all. -/
theorem readDatetime_str {s : String} {v : Value} (h : readDatetime (.str s) = .ok v) :
    ∃ d, v = .datetime d := by
  unfold readDatetime at h
  split at h
  · rename_i t ht
    cases ht
    split at h
    · exact ⟨_, (Except.ok.inj h).symm⟩
    · cases h
  · rename_i hne
    exact absurd rfl (hne s)

/-- The timestamps of what was written are read back as datetimes, except for an absent expiry. -/
theorem timed_of_read [RoundTexts] {raw : Raw} (hp : e.Plain) (hd : e.dump = .ok raw)
    (hr : read now' raw = .ok e') : e'.Timed := by
  cases ht : e.toDict with
  | error exc =>
    unfold dump at hd
    rw [ht] at hd
    split at hd
    · rename_i hok
      cases hok
    · cases hd
    · cases hd
  | ok v =>
    rw [dump_ok ht] at hd
    cases hd
    obtain ⟨c, x, hc, hx, hdumps⟩ := dumps_toDict ht
    obtain ⟨s, rfl⟩ := isoformat_eq_str hc
    have hexpires : x = .null ∨ ∃ t, x = .str t := by
      split at hx
      · exact .inr (isoformat_eq_str hx)
      · cases hx
        exact .inl rfl
    have hplain : plain x = true := by
      rcases hexpires with rfl | ⟨t, rfl⟩ <;> simp only [plain]
    have hloads := loads_dumps (plain_document hp (c := .str s) (by simp only [plain]) hplain)
    rw [read, hdumps, hloads, settled_dict] at hr
    simp only [Except.bind] at hr
    have hreads := reads_of_fromDict hr
    have hcreated := hreads.createdAt
    have hexpiry := hreads.expiresAt
    have hs : Value.get (e.document (.str s) x) "created_at" = .str s := by
      simp [Value.get, document, List.lookup_cons]
    have hx : Value.get (e.document (.str s) x) "expires_at" = x := by
      simp [Value.get, document, List.lookup_cons]
    rw [get_settledEntries, hs, settled_str] at hcreated
    rw [get_settledEntries, hx] at hexpiry
    obtain ⟨c, hc, hcreated⟩ := hcreated
    obtain ⟨d, rfl⟩ := readDatetime_str hc
    refine ⟨⟨d, hcreated⟩, ?_⟩
    rcases hexpires with rfl | ⟨t, rfl⟩
    · rw [settled_null] at hexpiry
      exact .inl (Except.ok.inj hexpiry).symm
    · rw [settled_str] at hexpiry
      exact .inr (readDatetime_str hexpiry)

omit [Texts] in
/-- An envelope that comes back equal had datetimes for timestamps. -/
theorem timed_of_equal (ht : e'.Timed) (he : e.equal e' = true) : e.Timed := by
  obtain ⟨⟨d, hd⟩, hx⟩ := ht
  simp only [equal, Bool.and_eq_true] at he
  have hcreated : e.createdAt.equal e'.createdAt = true := by tauto
  have hexpires : e.expiresAt.equal e'.expiresAt = true := by tauto
  rw [hd] at hcreated
  refine ⟨datetime_of_equal hcreated, ?_⟩
  rcases hx with hx | ⟨t, hx⟩
  · rw [hx] at hexpires
    exact .inl (null_of_equal hexpires)
  · rw [hx] at hexpires
    exact .inr (datetime_of_equal hexpires)

/-- A well-formed envelope comes back equal exactly when it is timed and steady. -/
theorem returns_iff [RoundTexts] (hv : e.Valid) (hp : e.Plain) :
    (∃ raw e', e.dump = .ok raw ∧ read now raw = .ok e' ∧ e.equal e' = true) ↔
      e.Timed ∧ e.Steady := by
  constructor
  · rintro ⟨raw, e', hd, hr, he⟩
    have ht := timed_of_equal (timed_of_read hp hd hr) he
    obtain ⟨raw', hd', hr'⟩ := read_dump hv hp ht
    rw [hd] at hd'
    cases hd'
    rw [hr'] at hr
    cases hr
    exact ⟨ht, (equal_settled_iff ht).mp he⟩
  · rintro ⟨ht, hs⟩
    obtain ⟨raw, hd, hr⟩ := read_dump hv hp ht
    exact ⟨raw, e.settled, hd, hr now, (equal_settled_iff ht).mpr hs⟩

end MessageEnvelope

section Documents

open MessageEnvelope

variable [Texts] {e : MessageEnvelope} {now now' : Instant} {v w c : Value} {d d' : Dict} {k : String}

/-- What is read under a key is read from what stood there. -/
theorem decodeValue_get (h : decodeEntries d = .ok d') :
    decodeValue (get d k) = .ok (get d' k) := by
  induction d generalizing d' with
  | nil =>
    cases h
    simp [Value.get, decodeValue]
  | cons e d ih =>
    obtain ⟨l, v⟩ := e
    obtain ⟨w, d₁, hv, hd, rfl⟩ := decodeEntries_of_cons h
    have htail := ih hd
    by_cases hl : k = l
    · subst hl
      simpa only [Value.get, List.lookup_cons_self, Option.getD_some] using hv
    · simpa only [Value.get, lookup_cons_ne hl] using htail

omit [Texts] in
theorem isJson_get (h : isJsonEntries d = true) : isJson (get d k) = true := by
  induction d with
  | nil => simp [Value.get, isJson]
  | cons e d ih =>
    obtain ⟨l, v⟩ := e
    rw [isJsonEntries, Bool.and_eq_true] at h
    by_cases hl : k = l
    · subst hl
      simpa only [Value.get, List.lookup_cons_self, Option.getD_some] using h.1
    · simpa only [Value.get, lookup_cons_ne hl] using ih h.2

/-- A field is read as a datetime exactly when it is a timestamp. -/
theorem datetime_iff_isTimestamp (hj : isJson v = true) (hv : decodeValue v = .ok w)
    (hc : readDatetime w = .ok c) : (∃ a, c = .datetime a) ↔ isTimestamp v = true := by
  cases v with
  | str s =>
    simp only [decodeValue, Except.ok.injEq] at hv
    subst hv
    simpa only [isTimestamp, iff_true] using readDatetime_str hc
  | list items =>
    rw [decodeValue] at hv
    obtain ⟨ws, -, hv⟩ := bind_eq_ok hv
    cases hv
    cases hc
    simp [isTimestamp]
  | dict d =>
    simp only [isTimestamp, beq_iff_eq]
    rw [decodeValue] at hv
    split at hv
    · rename_i hl
      obtain ⟨a, rfl⟩ := decodeMarker_make hv
      cases hc
      exact iff_of_true ⟨a, rfl⟩ hl
    · rename_i hl
      obtain ⟨a, rfl⟩ := decodeMarker_make hv
      cases hc
      simp [hl]
    · rename_i hl
      obtain ⟨a, rfl⟩ := decodeMarker_make hv
      cases hc
      simp [hl]
    · rename_i hl
      obtain ⟨a, rfl⟩ := decodeUuid_make hv
      cases hc
      simp [hl]
    · rename_i hd _ _ _
      obtain ⟨ws, -, hv⟩ := bind_eq_ok hv
      cases hv
      cases hc
      exact iff_of_false (by simp) hd
  | datetime _ | date _ | time _ | uuid _ => simp [isJson] at hj
  | _ =>
    simp only [decodeValue, Except.ok.injEq] at hv
    subst hv
    cases hc
    simp [isTimestamp]

/-- A field that is no timestamp is left as it was read. -/
theorem readDatetime_eq (ht : isTimestamp v = false) (hv : decodeValue v = .ok w)
    (hc : readDatetime w = .ok c) : c = w := by
  cases w with
  | str s =>
    rw [decodeValue_eq_str hv] at ht
    simp [isTimestamp] at ht
  | _ => exact (Except.ok.inj hc).symm

theorem decodeValue_eq_null (h : decodeValue v = .ok .null) : v = .null := by
  have ht := truthy_decodeValue h
  cases v with
  | null => rfl
  | list items =>
    rw [decodeValue] at h
    obtain ⟨ws, -, h⟩ := bind_eq_ok h
    cases h
  | dict d =>
    cases hm : isMarker d with
    | true => rcases decodeValue_marker hm h with ⟨a, ha⟩ | ⟨a, ha⟩ | ⟨a, ha⟩ | ⟨a, ha⟩ <;> cases ha
    | false =>
      rw [decodeValue_dict hm] at h
      cases hd : decodeEntries d <;> simp [hd, Except.map] at h
  | _ =>
    simp only [decodeValue, Except.ok.injEq] at h
    exact h

/-- The time of creation is a datetime when the document gives one, or nothing true. -/
theorem created_iff (hj : isJson v = true) (hv : decodeValue v = .ok w)
    (hc : readDatetime w = .ok c) (he : e.createdAt = if c.truthy then c else .datetime (.utc now)) :
    (∃ a, e.createdAt = .datetime a) ↔ (isTimestamp v || !v.truthy) = true := by
  have hiff := datetime_iff_isTimestamp hj hv hc
  cases ht : isTimestamp v with
  | true =>
    obtain ⟨a, rfl⟩ := hiff.mpr ht
    have htrue : (Value.datetime a).truthy = true := rfl
    rw [he, htrue]
    simp
  | false =>
    obtain rfl := readDatetime_eq ht hv hc
    rw [truthy_decodeValue hv] at he
    cases htv : v.truthy with
    | true =>
      rw [htv, if_pos rfl] at he
      rw [he, hiff, ht]
      rfl
    | false =>
      rw [htv] at he
      rw [he]
      simp

/-- The expiry is a datetime or absent when the document gives one, or null. -/
theorem expires_iff (hj : isJson v = true) (hv : decodeValue v = .ok w)
    (hc : readDatetime w = .ok c) :
    (c = .null ∨ ∃ a, c = .datetime a) ↔ (isTimestamp v || v == .null) = true := by
  have hiff := datetime_iff_isTimestamp hj hv hc
  cases ht : isTimestamp v with
  | true =>
    obtain ⟨a, rfl⟩ := hiff.mpr ht
    simp
  | false =>
    obtain rfl := readDatetime_eq ht hv hc
    rw [hiff, ht]
    simp only [Bool.false_eq_true, or_false, Bool.false_or, beq_iff_eq]
    constructor
    · rintro rfl
      exact decodeValue_eq_null hv
    · rintro rfl
      exact (Except.ok.inj hv).symm

/-- A document is read with datetimes for timestamps exactly when it gives such timestamps. -/
theorem timed_iff (hj : isJsonEntries d = true) (hd : decodeEntries d = .ok d')
    (hr : Reads now d' e) : e.Timed ↔
      (isTimestamp (Value.get d "created_at") || !(Value.get d "created_at").truthy) = true ∧
        (isTimestamp (Value.get d "expires_at") || Value.get d "expires_at" == .null) = true := by
  obtain ⟨c, hc, hcreated⟩ := hr.createdAt
  exact and_congr (created_iff (isJson_get hj) (decodeValue_get hd) hc hcreated)
    (expires_iff (isJson_get hj) (decodeValue_get hd) hr.expiresAt)

theorem steady_get (hj : isJsonEntries d = true) (hd : decodeEntries d = .ok d') :
    steady (Value.get d' k) = aware (Value.get d k) :=
  steady_decodeValue _ (isJson_get hj) (decodeValue_get hd)

omit [Texts] in
theorem steady_of_not_truthy (h : v.truthy = false) : steady v = true := by
  cases v with
  | float x =>
    have hx : x = .finite 0 := by simpa [truthy] using h
    rw [hx]
    simp [steady]
  | list items => cases items <;> simp_all [truthy, steady, steadyItems]
  | dict d => cases d <;> simp_all [truthy, steady, steadyEntries]
  | datetime a => simp [truthy] at h
  | _ => simp only [steady]

/-- The headers of an envelope are those read, or none in their place. -/
theorem steady_headers (hp : plainEntries d' = true) (hr : Reads now d' e) :
    steady (.dict e.headers) = steady (Value.get d' "headers") := by
  have hh := hr.headers
  cases ht : (Value.get d' "headers").truthy with
  | true =>
    rw [ht, if_pos rfl, decodeValue_of_plain _ (plain_get hp)] at hh
    rw [Except.ok.inj hh]
  | false =>
    rw [ht, if_neg (by simp), decodeValue_of_plain (.dict []) rfl] at hh
    rw [← Except.ok.inj hh, steady_of_not_truthy ht]
    rfl

/-- A document is read steady exactly when it denotes no naive datetime. -/
theorem steady_iff (hj : isJsonEntries d = true) (hd : decodeEntries d = .ok d')
    (hr : Reads now d' e) : e.Steady ↔
      (valueFields.all fun k => aware (Value.get d k)) = true := by
  have hp := plain_decodeEntries d hd
  have hid : e.messageId = Value.get d' "message_id" := by rw [Value.get, hr.messageId]; rfl
  have htype : e.messageType = Value.get d' "message_type" := by rw [Value.get, hr.messageType]; rfl
  have hkind : e.messageKind = Value.get d' "message_kind" := by rw [Value.get, hr.messageKind]; rfl
  obtain ⟨p, hlookup, hpayload⟩ := hr.payload
  rw [decodeValue_of_plain p (plain_of_lookup hp hlookup)] at hpayload
  have hbody : e.payload = Value.get d' "payload" := by
    rw [Value.get, hlookup]
    exact (Except.ok.inj hpayload).symm
  have hint : steady (.int e.version) = true := by simp only [steady]
  have hnull : steady .null = true := by simp only [steady]
  simp only [MessageEnvelope.Steady, MessageEnvelope.document, steadyEntries, steady_headers hp hr,
    hid, htype, hkind, hbody, hr.correlationId, hr.causationId, hr.replyTo, hr.contentType,
    hr.contentEncoding, steady_get hj hd, hint, hnull, valueFields, List.all_cons, List.all_nil,
    Bool.and_eq_true]
  tauto

/-- An accepted JSON value is published again and comes back equal exactly when it gives its two
times as datetimes, or not at all, and denotes no naive datetime. -/
theorem republished_iff [RoundTexts] {document : Value} (hj : isJson document = true)
    (h : read now (.json document) = .ok e) :
    (∃ raw e', e.dump = .ok raw ∧ read now' raw = .ok e' ∧ e.equal e' = true) ↔
      republishable document = true := by
  rw [returns_iff (read_valid h) (read_plain h)]
  obtain ⟨document', data, hdoc, hdecode, hr⟩ := read_eq_ok h
  cases hdoc
  cases document with
  | dict d =>
    rw [isJson] at hj
    have hd : decodeEntries d = .ok data := by
      cases hm : isMarker d with
      | true =>
        rcases decodeValue_marker hm hdecode with ⟨a, ha⟩ | ⟨a, ha⟩ | ⟨a, ha⟩ | ⟨a, ha⟩ <;> cases ha
      | false =>
        rw [decodeValue_dict hm] at hdecode
        cases hd : decodeEntries d with
        | error exc => simp [hd, Except.map] at hdecode
        | ok d' => simpa [hd, Except.map] using hdecode
    rw [timed_iff hj hd hr, steady_iff hj hd hr, republishable]
    simp only [Bool.and_eq_true]
  | list items =>
    rw [decodeValue] at hdecode
    obtain ⟨ws, -, hdecode⟩ := bind_eq_ok hdecode
    cases hdecode
  | _ => simp [decodeValue] at hdecode

end Documents

section Samples

open MessageEnvelope

local instance lawfulTexts : Texts := .lawful

/-- A command whose time of creation is `createdAt`. -/
def createdDocument (createdAt : Value) : Value :=
  .dict [("message_id", .str "m-1"), ("message_type", .str "report.build"),
    ("message_kind", .str "command"), ("version", .int 1),
    ("payload", .dict [("since", marker "date" "1970-01-01"), ("ids", .list [.int 2, .int 1])]),
    ("headers", .dict []), ("created_at", createdAt)]

def createdCommand (createdAt : Value) : MessageEnvelope where
  messageId := .str "m-1"
  messageType := .str "report.build"
  messageKind := .str "command"
  version := 1
  payload := .dict [("since", .date 0), ("ids", .list [.int 2, .int 1])]
  headers := []
  createdAt := createdAt

theorem republished_iff_epoch :
    ∃ raw e', (createdCommand (.datetime (.utc 0))).dump = .ok raw ∧ read 0 raw = .ok e' ∧
      (createdCommand (.datetime (.utc 0))).equal e' = true :=
  (@republished_iff Texts.lawful _ 0 0 roundTexts_lawful
    (createdDocument (.str "1970-01-01T00:00:00+00:00")) (by decide)
    (by decide)).mpr (by decide)

/-- A time of creation given as a number is accepted, and the envelope cannot be written again. -/
theorem numeric_creation_refused :
    isJson (createdDocument (.int 5)) = true ∧
      read 0 (.json (createdDocument (.int 5))) = .ok (createdCommand (.int 5)) ∧
      (createdCommand (.int 5)).dump = .error (.attributeError "isoformat") := by
  decide

end Samples

end Pybus
