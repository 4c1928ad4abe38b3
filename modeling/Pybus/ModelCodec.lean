import Pybus.ModelReferences

/-! The Django codec as an extension of the generic one: both write values without model instances
in the same way, and both read alike what does not come to a model reference. -/
namespace Pybus

open PythonPayloadCodec (codecKey typeKey codecVersion)

variable {Cls X : Type}

namespace Py

mutual
/-- The codec meets no Django model instance. -/
def modelFree : Py Cls X → Bool
  | .model _ _ _ _ => false
  | .object _ attributes _ => modelFreeFields attributes
  | .dict entries => modelFreeEntries entries
  | .list items | .tuple items => modelFreeItems items
  | _ => true

def modelFreeItems : List (Py Cls X) → Bool
  | [] => true
  | x :: xs => modelFree x && modelFreeItems xs

def modelFreeEntries : List (Key × Py Cls X) → Bool
  | [] => true
  | (_, x) :: d => modelFree x && modelFreeEntries d

def modelFreeFields : List (String × Py Cls X) → Bool
  | [] => true
  | (_, x) :: d => modelFree x && modelFreeFields d
end

end Py

namespace Encoded

variable {A : Type}

/-- The string that a mapping holds under a key. -/
def text (d : Entries A) (key : String) : Option String := (d.lookup key).bind string?

mutual
/-- No mapping holds the marker of model references under the legacy key. -/
def legacyFree : Encoded A → Bool
  | .list items => legacyFreeItems items
  | .dict d => text d typeKey ≠ some ModelCodec.modelMarker && legacyFreeEntries d
  | _ => true

def legacyFreeItems : List (Encoded A) → Bool
  | [] => true
  | v :: vs => legacyFree v && legacyFreeItems vs

def legacyFreeEntries : Entries A → Bool
  | [] => true
  | (_, v) :: d => legacyFree v && legacyFreeEntries d
end

/-- A mapping that reads as a model reference of the current version. -/
def isReference (d : Entries A) : Bool :=
  text d codecKey = some ModelCodec.modelMarker &&
    match d.lookup "version" with
    | some (.scalar ⟨.int 1, _⟩) => true
    | _ => false

/-- The key of the mapping that is read entry by entry in place of the mapping it is in. -/
def readInside (d : Entries A) : Option String :=
  if text d codecKey = some "mapping" then some "value"
  else if text d codecKey = some "dataclass" then some "fields"
  else if text d codecKey = none ∧ text d typeKey = some "dataclass" then some "fields"
  else none

mutual
/-- A mapping that reads as a model reference stands where a decoder reads it. -/
def exposed : Encoded A → Bool
  | .list items => exposedItems items
  | .dict d => isReference d || exposedParts (readInside d) d
  | _ => false

def exposedItems : List (Encoded A) → Bool
  | [] => false
  | v :: vs => exposed v || exposedItems vs

def exposedEntries : Entries A → Bool
  | [] => false
  | (_, v) :: d => exposed v || exposedEntries d

def exposedParts (key : Option String) : Entries A → Bool
  | [] => false
  | (k, v) :: d => (if key = some k then exposedInside v else exposed v) || exposedParts key d

def exposedInside : Encoded A → Bool
  | .dict d => exposedEntries d
  | _ => false
end

end Encoded

namespace ModelCodec

variable [DecidableEq Cls] [Dataclasses Cls] [Texts] [DecimalTexts] [PyObjects Cls X]

section Encoding

variable {C C' : ModelCodec Cls X}

mutual
/-- Codecs with one registry write values without model instances alike. -/
theorem encode_eq (h : C.typeRegistry = C'.typeRegistry) (own : Bool) : (x : Py Cls X) →
    x.modelFree = true → encode C own x = encode C' own x
  | .model _ _ _ _, hx => by cases hx
  | .scalar _, _ | .decimal _, _ | .other _ _, _ => by simp only [encode]
  | .object _ attributes _, hx => by
    simp only [encode, h, encodeFields_eq h attributes hx]
  | .dict entries, hx => by simp only [encode, encodeEntries_eq h entries hx]
  | .list items, hx | .tuple items, hx => by simp only [encode, encodeItems_eq h items hx]

theorem encodeItems_eq (h : C.typeRegistry = C'.typeRegistry) : (xs : List (Py Cls X)) →
    Py.modelFreeItems xs = true → encodeItems C xs = encodeItems C' xs
  | [], _ => rfl
  | x :: xs, hxs => by
    obtain ⟨hx, hxs⟩ := Bool.and_eq_true_iff.mp hxs
    simp only [encodeItems, encode_eq h true x hx, encodeItems_eq h xs hxs]

theorem encodeEntries_eq (h : C.typeRegistry = C'.typeRegistry) : (d : List (Key × Py Cls X)) →
    Py.modelFreeEntries d = true → encodeEntries C d = encodeEntries C' d
  | [], _ => rfl
  | (_, x) :: d, hd => by
    obtain ⟨hx, hd⟩ := Bool.and_eq_true_iff.mp hd
    simp only [encodeEntries, encode_eq h true x hx, encodeEntries_eq h d hd]

theorem encodeFields_eq (h : C.typeRegistry = C'.typeRegistry) : (d : List (String × Py Cls X)) →
    Py.modelFreeFields d = true → encodeFields C d = encodeFields C' d
  | [], _ => rfl
  | (_, x) :: d, hd => by
    obtain ⟨hx, hd⟩ := Bool.and_eq_true_iff.mp hd
    simp only [encodeFields, encode_eq h true x hx, encodeFields_eq h d hd]
end

end Encoding

/-! ### Reading as a function of how references are read -/

/-- What a codec does with a model reference of the current version. -/
def readReference (models : Option (Models Cls X)) (d : Encoded.Entries (Py Cls X))
    (pk : Decoding Cls X (Py Cls X)) : Decoding Cls X (Py Cls X) :=
  match models with
  | some models => models.read d pk
  | none => invalid ("Unsupported payload codec type: " ++
      PyObjects.repr (.str modelMarker : Encoded (Py Cls X)))

/-- A reading is the same whatever is made of model references, or comes to one of them: what is
raised there is what it raises. The latter happens only where one is exposed. -/
def Settled {α : Type} (exposed : Bool) (F : Option (Models Cls X) → Decoding Cls X α) : Prop :=
  (∃ r : Except Exc α, ∀ models, F models = liftExcept r) ∨
  exposed = true ∧ ∃ d, ∀ models message,
    (∀ pk, readReference models d pk = invalid message) → F models = invalid message

section Settled

omit [DecidableEq Cls] [Dataclasses Cls] [Texts] [DecimalTexts]

variable {α β : Type} {a b : Bool} {F : Option (Models Cls X) → Decoding Cls X α}

theorem settled_lift {r : Except Exc α} :
    Settled a (fun _ : Option (Models Cls X) => (liftExcept r : Decoding Cls X α)) :=
  .inl ⟨r, fun _ => rfl⟩

theorem settled_pure {x : α} :
    Settled a (fun _ : Option (Models Cls X) => (pure x : Decoding Cls X α)) :=
  .inl ⟨.ok x, fun _ => rfl⟩

theorem settled_throw {exc : Exc} :
    Settled a (fun _ : Option (Models Cls X) => (throw exc : Decoding Cls X α)) :=
  .inl ⟨.error exc, fun _ => rfl⟩

theorem Settled.mono (h : Settled a F) (hab : a = true → b = true) : Settled b F := by
  rcases h with h | ⟨ha, h⟩
  · exact .inl h
  · exact .inr ⟨hab ha, h⟩

theorem Settled.bind {G : Option (Models Cls X) → α → Decoding Cls X β} (h : Settled a F)
    (hG : ∀ x, Settled b fun models => G models x) :
    Settled (a || b) fun models => F models >>= G models := by
  rcases h with ⟨r, hr⟩ | ⟨ha, d, hd⟩
  · have hF : (fun models => F models >>= G models) = fun models => liftExcept r >>= G models :=
      funext fun models => by rw [hr]
    rw [hF]
    cases r with
    | ok x => exact (hG x).mono fun hb => by rw [hb, Bool.or_true]
    | error exc => exact settled_throw
  · refine .inr ⟨by rw [ha, Bool.true_or], d, fun models message hmessage => ?_⟩
    change F models >>= G models = _
    rw [hd models message hmessage]
    rfl

/-- A handler that lets pass what refuses a value. -/
theorem Settled.tryCatch {handler : Exc → Decoding Cls X α} (h : Settled a F)
    (hrefused : ∀ message, handler (.deserialization message) = throw (.deserialization message))
    (hhandler : ∀ exc, ∃ exc', handler exc = throw exc') :
    Settled a fun models => MonadExcept.tryCatch (F models) handler := by
  rcases h with ⟨r, hr⟩ | ⟨ha, d, hd⟩
  · cases r with
    | ok x =>
      refine .inl ⟨.ok x, fun models => ?_⟩
      change EStateM.tryCatch (F models) handler = _
      rw [hr]
      rfl
    | error exc =>
      obtain ⟨exc', hexc⟩ := hhandler exc
      refine .inl ⟨.error exc', fun models => ?_⟩
      change EStateM.tryCatch (F models) handler = throw exc'
      rw [hr, ← hexc]
      rfl
  · refine .inr ⟨ha, d, fun models message hmessage => ?_⟩
    change EStateM.tryCatch (F models) handler = throw (.deserialization message)
    rw [hd models message hmessage, ← hrefused]
    rfl

end Settled

variable {R : PayloadTypeRegistry Cls}

section Shapes

variable {d : Encoded.Entries (Py Cls X)} {a : Bool}

omit [DecidableEq Cls] [Dataclasses Cls] [Texts] [DecimalTexts] in
theorem validateCodecVersion_cases :
    (validateCodecVersion d = pure () ∧ ∃ h, d.lookup "version" = some (.scalar ⟨.int 1, h⟩)) ∨
      ∃ message, validateCodecVersion d = invalid message := by
  unfold validateCodecVersion
  split
  · rename_i h hversion
    exact .inl ⟨rfl, h, hversion⟩
  · exact .inr ⟨_, rfl⟩

omit [DecidableEq Cls] [Dataclasses Cls] [Texts] [DecimalTexts] in
theorem settled_validateCodecVersion :
    Settled a fun _ : Option (Models Cls X) => validateCodecVersion d := by
  rcases validateCodecVersion_cases (d := d) with ⟨h, -⟩ | ⟨message, h⟩
  · rw [h]
    exact settled_pure
  · rw [h]
    exact settled_throw

omit [DecidableEq Cls] [Dataclasses Cls] [Texts] in
theorem settled_decodeDecimal : Settled a fun _ : Option (Models Cls X) => decodeDecimal d := by
  unfold decodeDecimal
  split
  · split
    · split
      · exact settled_throw
      · exact settled_pure
    · exact settled_throw
  · exact settled_throw

omit [DecidableEq Cls] [Dataclasses Cls] [Texts] [DecimalTexts] in
theorem settled_decodeStamp {α : Type} {message : String} {conversion : String → Option α}
    {make : α → Scalar} :
    Settled a fun _ : Option (Models Cls X) => decodeStamp d message conversion make := by
  unfold decodeStamp
  split
  · exact settled_throw
  · split
    · exact settled_pure
    · exact settled_throw

omit [DecidableEq Cls] [Dataclasses Cls] [DecimalTexts] in
theorem settled_decodeKnown {name : String} :
    Settled a fun _ : Option (Models Cls X) => decodeKnown d name := by
  unfold decodeKnown decodeUuidStamp
  split
  · exact settled_decodeStamp
  · split
    · exact settled_decodeStamp
    · split
      · exact settled_decodeStamp
      · split
        · exact settled_decodeStamp
        · exact settled_decodeStamp
        · exact settled_decodeStamp
        · exact settled_throw

/-- The reading of what may stand under a key is settled, wherever something stands there. -/
def SettledUnder {α : Type} (a : Bool)
    (F : Option (Models Cls X) → Option (Decoding Cls X α)) : Prop :=
  (∀ models, F models = none) ∨ ∃ G, Settled a G ∧ ∀ models, F models = some (G models)

omit [Dataclasses Cls] [Texts] [DecimalTexts] in
theorem settled_decodeObject
    {F : Option (Models Cls X) → Option (Decoding Cls X (List (String × Py Cls X)))}
    (h : SettledUnder a F) : Settled a fun models => decodeObject d R (F models) := by
  unfold decodeObject
  split
  · exact settled_throw
  · exact settled_throw
  · rename_i id _ _
    split
    · exact settled_throw
    · refine (Settled.bind (a := false) settled_lift fun c => ?_).mono fun h => h
      rcases h with h | ⟨G, hG, h⟩
      · obtain rfl : F = fun _ => none := funext h
        exact settled_throw
      · obtain rfl : F = fun models => some (G models) := funext h
        refine Settled.tryCatch ?_ (fun message => rfl) fun exc => ?_
        · refine (hG.bind (b := false) fun fields => settled_lift).mono ?_
          rw [Bool.or_false]
          exact fun h => h
        · cases exc <;> exact ⟨_, rfl⟩

end Shapes

section Places

open Encoded

variable {A : Type} {d : Entries A}

omit [DecidableEq Cls] [Dataclasses Cls] [Texts] [DecimalTexts] [PyObjects Cls X]

theorem exposedEntries_eq : exposedEntries d = exposedParts none d := by
  induction d with
  | nil => rfl
  | cons entry d ih =>
    obtain ⟨k, v⟩ := entry
    simp [exposedEntries, exposedParts, ih]

theorem exposed_of_parts {key : Option String} (hinside : readInside d = key)
    (h : exposedParts key d = true) : exposed (.dict d) = true := by
  rw [exposed, hinside, h, Bool.or_true]

theorem exposed_of_reference (h : isReference d = true) : exposed (.dict d) = true := by
  rw [exposed, h, Bool.true_or]

end Places

section Reading

open Encoded

omit [Dataclasses Cls]

/-- A mapping with the marker of a model reference. -/
theorem decode_model_settled {d : Entries (Py Cls X)} {kind : Encoded (Py Cls X)}
    (hmarker : d.lookup codecKey = some kind) (hkind : kind.string? = some modelMarker) :
    Settled (exposed (.dict d)) fun models => decode ⟨R, models⟩ true (.dict d) := by
  have hmodel : isModel d = true := by simp [isModel, hmarker, hkind]
  have hdecode : (fun models => decode (⟨R, models⟩ : ModelCodec Cls X) true (.dict d)) =
      fun models => validateCodecVersion d >>= fun _ =>
        readReference models d (decodePk ⟨R, models⟩ d) := by
    funext models
    cases models with
    | none => simp [decode, hmodel, hmarker, hkind, readReference, modelMarker]
    | some models => simp [decode, hmodel, hmarker, readReference]
  rw [hdecode]
  rcases validateCodecVersion_cases (d := d) with ⟨hvalid, h, hversion⟩ | ⟨message, hvalid⟩
  · refine .inr ⟨exposed_of_reference ?_, d, fun models message hread => ?_⟩
    · simp [isReference, text, hmarker, hkind, hversion]
    · simp only [hvalid]
      exact hread _
  · simp only [hvalid]
    exact settled_throw

/-- What decides how a mapping that is no model reference is read. -/
theorem decode_dict {C : ModelCodec Cls X} {d : Entries (Py Cls X)} (h : isModel d = false) :
    decode C true (.dict d) =
      match d.lookup codecKey with
      | some marker =>
        match marker.string? with
        | none | some "" => invalid "Invalid payload codec type"
        | some kind => do
          validateCodecVersion d
          if kind = "mapping" then
            match decodeUnder C "value" d with
            | none => invalid "Invalid payload mapping encoding"
            | some entries => do
              let decoded ← entries
              let rest ← decodeRest C d
              return mapping (rest.foldl (fun d entry => Dictionary.put d entry.1 entry.2) decoded)
          else if kind = "decimal" then decodeDecimal d
          else if kind = "dataclass" then
            decodeObject d C.typeRegistry (decodeUnder C "fields" d)
          else invalid ("Unsupported payload codec type: " ++
            PyObjects.repr (.str kind : Encoded (Py Cls X)))
      | none =>
        match d.lookup typeKey with
        | none => do return mapping (← decodeEntries C d)
        | some marker =>
          if marker.string? = some "decimal" then decodeDecimal d
          else if marker.string? = some "dataclass" then
            decodeObject d C.typeRegistry (decodeUnder C "fields" d)
          else if unhashable marker then throw (.typeError "unhashable type")
          else
            match Value.markerNames.find? fun name => marker.string? = some name with
            | some name => decodeKnown d name
            | none => do return mapping (← decodeEntries C d) := by
  rw [decode, h, Bool.and_false]
  rfl

section Kinds

variable {d : Entries (Py Cls X)} {marker : Encoded (Py Cls X)}

/-- A mapping whose entries are all read as they are. -/
theorem settled_plain (hinside : readInside d = none)
    (hentries : Settled (exposedEntries d) fun models => decodeEntries ⟨R, models⟩ d) :
    Settled (exposed (.dict d)) fun models => do
      return mapping (← decodeEntries (⟨R, models⟩ : ModelCodec Cls X) d) := by
  refine (hentries.bind (b := false) fun entries => settled_pure).mono fun h => ?_
  rw [Bool.or_false, exposedEntries_eq] at h
  exact exposed_of_parts hinside h

theorem settled_marked (hmarker : d.lookup codecKey = some marker) (hmodel : isModel d = false)
    (hunder : ∀ key, SettledUnder (exposedParts (some key) d)
      fun models => decodeUnder ⟨R, models⟩ key d)
    (hrest : Settled (exposedParts (some "value") d) fun models => decodeRest ⟨R, models⟩ d) :
    Settled (exposed (.dict d)) fun models => decode ⟨R, models⟩ true (.dict d) := by
  simp only [decode_dict hmodel, hmarker]
  split
  · exact settled_throw
  · exact settled_throw
  · rename_i kind _ hkind
    have htext : Encoded.text d codecKey = some kind := by rw [Encoded.text, hmarker]; exact hkind
    refine (settled_validateCodecVersion (a := false)).bind fun _ => ?_
    split
    · rename_i hmapping
      have hinside : readInside d = some "value" := by simp [readInside, htext, hmapping]
      rcases hunder "value" with hnone | ⟨G, hG, hsome⟩
      · simp only [hnone]
        exact settled_throw
      · simp only [hsome]
        refine (hG.bind fun decoded => hrest.bind (b := false) fun rest => settled_pure).mono ?_
        rw [Bool.or_false, Bool.or_self]
        exact exposed_of_parts hinside
    · split
      · exact settled_decodeDecimal
      · split
        · rename_i hobject
          have hinside : readInside d = some "fields" := by simp [readInside, htext, hobject]
          refine (settled_decodeObject (hunder "fields")).mono ?_
          exact exposed_of_parts hinside
        · exact settled_throw

theorem settled_unmarked (hmarker : d.lookup codecKey = none) (hmodel : isModel d = false)
    (hentries : Settled (exposedEntries d) fun models => decodeEntries ⟨R, models⟩ d)
    (hunder : ∀ key, SettledUnder (exposedParts (some key) d)
      fun models => decodeUnder ⟨R, models⟩ key d) :
    Settled (exposed (.dict d)) fun models => decode ⟨R, models⟩ true (.dict d) := by
  have htext : Encoded.text d codecKey = none := by rw [Encoded.text, hmarker]; rfl
  simp only [decode_dict hmodel, hmarker]
  split
  · rename_i hlegacy
    have htype : Encoded.text d typeKey = none := by rw [Encoded.text, hlegacy]; rfl
    refine settled_plain ?_ hentries
    simp [readInside, htext, htype]
  · rename_i marker hlegacy
    have htype : Encoded.text d typeKey = marker.string? := by rw [Encoded.text, hlegacy]; rfl
    split
    · exact settled_decodeDecimal
    · split
      · rename_i hobject
        refine (settled_decodeObject (hunder "fields")).mono (exposed_of_parts ?_)
        simp [readInside, htext, htype, hobject]
      · rename_i hobject
        split
        · exact settled_throw
        · split
          · exact settled_decodeKnown
          · refine settled_plain ?_ hentries
            simp [readInside, htext, htype, hobject]

end Kinds

mutual
/-- Reading comes to an exposed model reference first of all, or does not depend on how model
references are read. -/
theorem decode_settled : (e : Encoded (Py Cls X)) → e.legacyFree = true →
    Settled e.exposed fun models => decode ⟨R, models⟩ true e
  | .scalar v, _ => by
    simp only [decode]
    exact settled_pure
  | .other x, _ => by
    simp only [decode]
    exact settled_pure
  | .list items, h => by
    simp only [decode, exposed]
    refine ((decodeItems_settled items h).bind (b := false) fun ys => settled_pure).mono ?_
    rw [Bool.or_false]
    exact fun h => h
  | .dict d, h => by
    obtain ⟨hlegacy, hd⟩ := Bool.and_eq_true_iff.mp h
    have hentries := decodeEntries_settled d hd
    have hunder := fun key => decodeUnder_settled key d hd
    cases hmarker : d.lookup codecKey with
    | some marker =>
      cases hmodel : isModel d with
      | true =>
        refine decode_model_settled hmarker ?_
        simpa [isModel, hmarker] using hmodel
      | false => exact settled_marked hmarker hmodel hunder (decodeRest_settled d hd)
    | none =>
      refine settled_unmarked hmarker ?_ hentries hunder
      rw [isModel, hmarker]
      exact decide_eq_false (of_decide_eq_true hlegacy)

theorem decodeItems_settled : (vs : List (Encoded (Py Cls X))) → legacyFreeItems vs = true →
    Settled (exposedItems vs) fun models => decodeItems ⟨R, models⟩ vs
  | [], _ => settled_pure
  | v :: vs, h => by
    obtain ⟨hv, hvs⟩ := Bool.and_eq_true_iff.mp h
    simp only [decodeItems]
    refine ((decode_settled v hv).bind fun y =>
      (decodeItems_settled vs hvs).bind (b := false) fun ys => settled_pure).mono ?_
    rw [Bool.or_false]
    exact fun h => h

theorem decodeEntries_settled : (d : Entries (Py Cls X)) → legacyFreeEntries d = true →
    Settled (exposedEntries d) fun models => decodeEntries ⟨R, models⟩ d
  | [], _ => settled_pure
  | (k, v) :: d, h => by
    obtain ⟨hv, hd⟩ := Bool.and_eq_true_iff.mp h
    simp only [decodeEntries]
    refine ((decode_settled v hv).bind fun y =>
      (decodeEntries_settled d hd).bind (b := false) fun ys => settled_pure).mono ?_
    rw [Bool.or_false]
    exact fun h => h

theorem decodeUnder_settled (key : String) : (d : Entries (Py Cls X)) →
    legacyFreeEntries d = true →
    SettledUnder (exposedParts (some key) d) fun models => decodeUnder ⟨R, models⟩ key d
  | [], _ => .inl fun _ => rfl
  | (k, v) :: d, h => by
    obtain ⟨hv, hd⟩ := Bool.and_eq_true_iff.mp h
    by_cases hk : k = key
    · cases v with
      | dict entries =>
        refine .inr ⟨_, (decodeEntries_settled entries (Bool.and_eq_true_iff.mp hv).2).mono ?_, ?_⟩
        · intro hexposed
          simp [exposedParts, exposedInside, hk, hexposed]
        · intro models
          simp only [decodeUnder, hk, if_true]
      | _ => exact .inl fun models => by simp only [decodeUnder, hk, if_true]
    · have hunder : ∀ models, decodeUnder (⟨R, models⟩ : ModelCodec Cls X) key ((k, v) :: d) =
          decodeUnder ⟨R, models⟩ key d := fun models => by cases v <;> simp [decodeUnder, hk]
      simp only [hunder]
      rcases decodeUnder_settled key d hd with hnone | ⟨G, hG, hsome⟩
      · exact .inl hnone
      · refine .inr ⟨G, hG.mono fun h => ?_, hsome⟩
        rw [exposedParts, h, Bool.or_true]

theorem decodeRest_settled : (d : Entries (Py Cls X)) → legacyFreeEntries d = true →
    Settled (exposedParts (some "value") d) fun models => decodeRest ⟨R, models⟩ d
  | [], _ => settled_pure
  | (k, v) :: d, h => by
    obtain ⟨hv, hd⟩ := Bool.and_eq_true_iff.mp h
    by_cases hk : k = codecKey ∨ k = "version" ∨ k = "value"
    · simp only [decodeRest, hk, if_true]
      refine (decodeRest_settled d hd).mono fun h => ?_
      rw [exposedParts, h, Bool.or_true]
    · have hvalue : (some "value" = some k) = False := by
        simp only [Option.some.injEq, eq_iff_iff, iff_false]
        exact fun h => hk (.inr (.inr h.symm))
      simp only [decodeRest, hk, if_false, exposedParts, hvalue]
      refine ((decode_settled v hv).bind fun y =>
        (decodeRest_settled d hd).bind (b := false) fun ys => settled_pure).mono ?_
      rw [Bool.or_false]
      exact fun h => h
end

end Reading

end ModelCodec

end Pybus
