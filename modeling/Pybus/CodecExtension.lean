import Pybus.ModelCodec

/-! When the Django codec does what the generic codec does: always when it writes a value without
model instances, and when it reads one that does not mimic a model reference behind its back. -/
namespace Pybus

open PythonPayloadCodec (codecKey typeKey codecVersion)
open ModelCodec Encoded
open MessageEnvelope (bind_eq_ok)

section Extension

variable {Cls X : Type} [DecidableEq Cls] [Dataclasses Cls] [Texts] [DecimalTexts] [PyObjects Cls X]
  {R : PayloadTypeRegistry Cls} {e : Encoded (Py Cls X)} {v : Py Cls X}

/-- The resolver calls there have been after a reading. -/
def resolverCalls {α : Type} : EStateM.Result Exc (List (String × Py Cls X)) α →
    List (String × Py Cls X)
  | .ok _ calls | .error _ calls => calls

/-- Reading comes to a model reference: what is raised where one is read is what it raises. -/
def ComesTo (R : PayloadTypeRegistry Cls) (e : Encoded (Py Cls X)) : Prop :=
  ∀ message, decode ⟨R, some ⟨fun _ => false, fun _ _ => invalid message⟩⟩ true e = invalid message

/-- Whatever its resolvers, the Django codec reads what the generic codec reads, or raises what it
raises, and calls no resolver. -/
def Extends (R : PayloadTypeRegistry Cls) (e : Encoded (Py Cls X)) : Prop :=
  ∀ resolvers, decode (DjangoPayloadCodec.self R resolvers) true e =
      decode (PythonPayloadCodec.self R) true e ∧
    ∀ calls, resolverCalls (decode (DjangoPayloadCodec.self R resolvers) true e calls) = calls

/-- The Django codec is a conservative extension of the generic codec at a value. -/
structure Conservative (R : PayloadTypeRegistry Cls) (v : Py Cls X) : Prop where
  encode : ∀ resolvers, encode (DjangoPayloadCodec.self R resolvers) true v =
    encode (PythonPayloadCodec.self R) true v
  decode : ∀ e, ModelCodec.encode (PythonPayloadCodec.self R) true v = .ok e →
    e.legacyFree = true → Extends R e

omit [DecidableEq Cls] [Dataclasses Cls] [Texts] [DecimalTexts] [PyObjects Cls X] in
theorem invalid_injective {message message' : String}
    (h : (invalid message : Decoding Cls X (Py Cls X)) = invalid message') :
    message = message' := by
  have happly := congrFun h []
  cases happly
  rfl

omit [Dataclasses Cls] in
theorem not_comesTo {r : Except Exc (Py Cls X)}
    (h : ∀ models, decode ⟨R, models⟩ true e = liftExcept r) : ¬ ComesTo R e := by
  intro hcomes
  have hempty := (h _).symm.trans (hcomes "")
  have hother := (h _).symm.trans (hcomes "other")
  exact absurd (invalid_injective (hempty.symm.trans hother)) (by decide)

omit [DecidableEq Cls] [Dataclasses Cls] [Texts] [DecimalTexts] in
/-- Without resolvers a model reference is refused, and not as an unknown codec type is. -/
theorem resolveReference_nil {d : Entries (Py Cls X)} : ∃ message,
    (∀ pk, DjangoPayloadCodec.resolveReference [] d pk = invalid message) ∧
      ∀ kind, message ≠ "Unsupported payload codec type: " ++ kind := by
  have hne : ∀ text text' kind : String, text.toList.head? ≠ some 'U' → text ≠ "" →
      text ++ text' ≠ "Unsupported payload codec type: " ++ kind := by
    intro text text' kind hhead hempty heq
    have hlist := congrArg (fun s => s.toList.head?) heq
    rw [String.toList_append, String.toList_append,
      List.head?_append_of_ne_nil _ (by simpa)] at hlist
    exact hhead (hlist.trans rfl)
  unfold DjangoPayloadCodec.resolveReference
  simp only [List.lookup_nil]
  split
  · refine ⟨_, fun _ => rfl, fun kind => ?_⟩
    rw [← String.append_empty (s := "Invalid Django model type")]
    exact hne _ _ kind (by decide) (by decide)
  · refine ⟨_, fun _ => rfl, fun kind => ?_⟩
    rw [String.append_assoc]
    exact hne _ _ kind (by decide) (by decide)

omit [Dataclasses Cls] in
/-- The two codecs read a value alike unless reading it comes to a model reference. -/
theorem extends_iff (h : e.legacyFree = true) : Extends R e ↔ ¬ ComesTo R e := by
  rcases decode_settled (R := R) e h with ⟨r, hr⟩ | ⟨-, d, hd⟩
  · refine iff_of_true (fun resolvers => ⟨?_, fun calls => ?_⟩) (not_comesTo hr)
    · exact (hr _).trans (hr _).symm
    · have hread : decode (DjangoPayloadCodec.self R resolvers) true e = liftExcept r := hr _
      rw [hread]
      cases r <;> rfl
  · refine iff_of_false (fun hextends => ?_) (not_not.mpr fun message => hd _ message fun _ => rfl)
    obtain ⟨message, hrefused, hne⟩ := resolveReference_nil (d := d)
    have hdjango : decode (DjangoPayloadCodec.self R []) true e = invalid message :=
      hd _ message hrefused
    have hpython : decode (PythonPayloadCodec.self R) true e = _ := hd none _ fun _ => rfl
    have heq := (hextends []).1
    rw [hdjango, hpython] at heq
    exact hne _ (invalid_injective heq)

omit [Dataclasses Cls] in
theorem not_comesTo_of_exposed (h : e.legacyFree = true) (hexposed : e.exposed = false) :
    ¬ ComesTo R e := by
  rcases decode_settled (R := R) e h with ⟨r, hr⟩ | ⟨htrue, -⟩
  · exact not_comesTo hr
  · rw [hexposed] at htrue
    cases htrue

/-! ### Values that mimic no model reference -/

namespace Py

omit [DecidableEq Cls] [Dataclasses Cls] [DecimalTexts] [PyObjects Cls X]

/-- The string that a value is written as. -/
def written : Py Cls X → Option String
  | .list _ | .tuple _ | .dict _ | .object _ _ _ | .decimal _ => none
  | x => (encodeAny x).toOption.bind string?

/-- A mapping that is written as it is has neither the codec's key nor its legacy marker of a
dataclass. -/
def unmarked (entries : List (Key × Py Cls X)) : Bool :=
  entries.all fun entry => entry.1.text ≠ codecKey &&
    !(entry.1.text = typeKey && entry.2.written = some "dataclass")

mutual
/-- Every mapping of the value is written with the codec's wrapper or is unmarked, and no object's
`to_dict()` exposes what reads as a model reference. -/
def escaped : Py Cls X → Bool
  | .list items | .tuple items => escapedItems items
  | .dict entries =>
    escapedEntries entries &&
      ((entries.any fun entry => entry.1.string = some codecKey) || unmarked entries)
  | .object _ attributes _ => escapedFields attributes
  | .other _ (some (.ok x)) => (encodeAny x).toOption.all fun e => !e.exposed
  | _ => true

def escapedItems : List (Py Cls X) → Bool
  | [] => true
  | x :: xs => escaped x && escapedItems xs

def escapedEntries : List (Key × Py Cls X) → Bool
  | [] => true
  | (_, x) :: d => escaped x && escapedEntries d

def escapedFields : List (String × Py Cls X) → Bool
  | [] => true
  | (_, x) :: d => escaped x && escapedFields d
end

end Py

section Escaping

variable {C : ModelCodec Cls X}

omit [DecidableEq Cls] [Dataclasses Cls] [Texts] [DecimalTexts] [PyObjects Cls X] in
theorem mem_put {B : Type} {d : List (String × B)} {k l : String} {x y : B}
    (h : (l, y) ∈ Dictionary.put d k x) : (l, y) ∈ d ∨ (l, y) = (k, x) := by
  induction d with
  | nil => exact .inr (List.mem_singleton.mp h)
  | cons entry d ih =>
    obtain ⟨j, z⟩ := entry
    unfold Dictionary.put at h
    split at h
    · rename_i hj
      rcases List.mem_cons.mp h with h | h
      · rw [beq_iff_eq.mp hj] at h
        exact .inr h
      · exact .inl (List.mem_cons_of_mem _ h)
    · rcases List.mem_cons.mp h with h | h
      · exact .inl (h ▸ List.mem_cons_self)
      · exact (ih h).imp_left (List.mem_cons_of_mem _)

omit [DecidableEq Cls] [Dataclasses Cls] [Texts] [DecimalTexts] [PyObjects Cls X] in
/-- A comprehension holds no entries but those it is given. -/
theorem mem_comprehension {B : Type} {entries : List (String × B)} {k : String} {x : B}
    (h : (k, x) ∈ comprehension entries) : (k, x) ∈ entries := by
  have hfold : ∀ (entries d : List (String × B)),
      (k, x) ∈ entries.foldl (fun d entry => Dictionary.put d entry.1 entry.2) d →
        (k, x) ∈ d ∨ (k, x) ∈ entries := by
    intro entries
    induction entries with
    | nil => exact fun d h => .inl h
    | cons entry entries ih =>
      intro d h
      rcases ih _ h with h | h
      · rcases mem_put h with h | h
        · exact .inl h
        · exact .inr (h ▸ List.mem_cons_self)
      · exact .inr (List.mem_cons_of_mem _ h)
  rcases hfold entries [] h with h | h
  · cases h
  · exact h

omit [DecidableEq Cls] [Dataclasses Cls] [Texts] [DecimalTexts] [PyObjects Cls X] in
theorem exposedEntries_iff {A : Type} {d : Entries A} :
    exposedEntries d = false ↔ ∀ k v, (k, v) ∈ d → v.exposed = false := by
  induction d with
  | nil => simp [exposedEntries]
  | cons entry d ih =>
    obtain ⟨k, v⟩ := entry
    rw [exposedEntries, Bool.or_eq_false_iff, ih]
    constructor
    · rintro ⟨hv, hd⟩ l w hmem
      rcases List.mem_cons.mp hmem with heq | hmem
      · cases heq
        exact hv
      · exact hd l w hmem
    · intro h
      exact ⟨h k v List.mem_cons_self, fun l w hmem => h l w (List.mem_cons_of_mem _ hmem)⟩

theorem mem_encodeEntries {d : List (Key × Py Cls X)} {entries : Entries (Py Cls X)}
    (h : ModelCodec.encodeEntries C d = .ok entries) {k : String} {y : Encoded (Py Cls X)}
    (hmem : (k, y) ∈ entries) : ∃ key x, (key, x) ∈ d ∧ key.text = k ∧ encode C true x = .ok y := by
  induction d generalizing entries with
  | nil =>
    cases h
    cases hmem
  | cons entry d ih =>
    obtain ⟨key, x⟩ := entry
    rw [ModelCodec.encodeEntries] at h
    obtain ⟨y', hy', h⟩ := bind_eq_ok h
    obtain ⟨entries', hd, h⟩ := bind_eq_ok h
    cases h
    rcases List.mem_cons.mp hmem with heq | hmem
    · cases heq
      exact ⟨key, x, List.mem_cons_self, rfl, hy'⟩
    · obtain ⟨key', x', hmem', htext, hx'⟩ := ih hd hmem
      exact ⟨key', x', List.mem_cons_of_mem _ hmem', htext, hx'⟩

omit [DecidableEq Cls] [Dataclasses Cls] [DecimalTexts] [PyObjects Cls X] in
theorem exposed_ofScalar {A : Type} (v : Scalar) : (ofScalar v : Encoded A).exposed = false := by
  obtain ⟨v, h⟩ := v
  cases v <;> rfl

/-- What is written as a string. -/
theorem string?_encode {x : Py Cls X} {y : Encoded (Py Cls X)} {s : String}
    (hmodel : x.modelFree = true) (h : encode C true x = .ok y) (hs : y.string? = some s) :
    x.written = some s := by
  cases x with
  | scalar v =>
    change encodeAny (.scalar v) = _ at h
    simp only [Py.written, h]
    exact hs
  | other x toDict =>
    change encodeAny (.other x toDict) = _ at h
    simp only [Py.written, h]
    exact hs
  | model _ _ _ _ => cases hmodel
  | decimal x =>
    rw [encode] at h
    split at h
    · cases h
    · cases h
      cases hs
  | list items =>
    rw [encode] at h
    obtain ⟨ys, -, h⟩ := bind_eq_ok h
    cases h
    cases hs
  | tuple items =>
    rw [encode] at h
    obtain ⟨ys, -, h⟩ := bind_eq_ok h
    cases h
    cases hs
  | object c attributes toDict =>
    rw [encode] at h
    obtain ⟨id, -, h⟩ := bind_eq_ok h
    obtain ⟨fields, -, h⟩ := bind_eq_ok h
    cases h
    cases hs
  | dict entries =>
    rw [encode] at h
    obtain ⟨encoded, -, h⟩ := bind_eq_ok h
    split at h
    · cases h
      cases hs
    · cases h
      cases hs

omit [DecidableEq Cls] [Dataclasses Cls] [Texts] [DecimalTexts] [PyObjects Cls X] in
theorem mem_of_lookup {B : Type} {d : List (String × B)} {k : String} {x : B}
    (h : d.lookup k = some x) : (k, x) ∈ d := by
  obtain ⟨l₁, l₂, rfl, -⟩ := List.lookup_eq_some_iff.mp h
  simp

/-- A mapping that is written as it is shows no marker that stands for more. -/
theorem unmarked_readInside {entries : List (Key × Py Cls X)} {es : Entries (Py Cls X)}
    (hmodel : Py.modelFreeEntries entries = true) (hunmarked : Py.unmarked entries = true)
    (h : ModelCodec.encodeEntries C entries = .ok es) :
    text (comprehension es) codecKey = none ∧ readInside (comprehension es) = none := by
  have hfree : ∀ key x, (key, x) ∈ entries → x.modelFree = true := by
    clear h hunmarked
    induction entries with
    | nil => exact fun _ _ h => by cases h
    | cons entry entries ih =>
      obtain ⟨hx, hentries⟩ := Bool.and_eq_true_iff.mp hmodel
      intro key x hmem
      rcases List.mem_cons.mp hmem with rfl | hmem
      · exact hx
      · exact ih hentries key x hmem
  have hentry : ∀ k y, (comprehension es).lookup k = some y → k ≠ codecKey ∧
      ¬(k = typeKey ∧ y.string? = some "dataclass") := by
    intro k y hlookup
    obtain ⟨key, x, hmem, rfl, hx⟩ :=
      mem_encodeEntries h (mem_comprehension (mem_of_lookup hlookup))
    have hkey := List.all_eq_true.mp hunmarked _ hmem
    simp only [Bool.and_eq_true, decide_eq_true_eq, Bool.not_eq_true', Bool.and_eq_false_iff,
      decide_eq_false_iff_not] at hkey
    refine ⟨hkey.1, ?_⟩
    rintro ⟨hlegacy, hobject⟩
    rcases hkey.2 with hne | hne
    · exact hne hlegacy
    · exact hne (string?_encode (hfree key x hmem) hx hobject)
  have hcodec : (comprehension es).lookup codecKey = none := by
    cases hlookup : (comprehension es).lookup codecKey with
    | none => rfl
    | some y => exact absurd rfl (hentry _ y hlookup).1
  have htext : text (comprehension es) codecKey = none := by rw [text, hcodec]; rfl
  refine ⟨htext, ?_⟩
  have hlegacy : text (comprehension es) typeKey ≠ some "dataclass" := by
    unfold Encoded.text
    cases hlookup : (comprehension es).lookup typeKey with
    | none => simp
    | some y => exact fun hobject => (hentry _ y hlookup).2 ⟨rfl, hobject⟩
  simp [readInside, htext, hlegacy]

mutual
/-- An escaped value exposes no model reference when it is written. -/
theorem exposed_encode : (x : Py Cls X) → x.modelFree = true → x.escaped = true →
    ∀ y, encode C true x = .ok y → y.exposed = false
  | .scalar v, _, _, y, h => by
    cases h
    exact exposed_ofScalar v
  | .decimal x, _, _, y, h => by
    rw [encode] at h
    split at h
    · cases h
    · cases h
      rfl
  | .model _ _ _ _, hmodel, _, _, _ => by cases hmodel
  | .other x none, _, _, y, h => by
    cases h
    rfl
  | .other x (some (.error exc)), _, _, y, h => by cases h
  | .other x (some (.ok x')), _, hescaped, y, h => by
    have hy : encodeAny x' = .ok y := h
    rw [Py.escaped, hy] at hescaped
    exact (Bool.not_eq_true' _).mp hescaped
  | .list items, hmodel, hescaped, y, h | .tuple items, hmodel, hescaped, y, h => by
    rw [encode] at h
    obtain ⟨ys, hys, h⟩ := bind_eq_ok h
    cases h
    exact exposed_encodeItems items hmodel hescaped ys hys
  | .object c attributes _, hmodel, hescaped, y, h => by
    rw [encode] at h
    obtain ⟨id, -, h⟩ := bind_eq_ok h
    obtain ⟨fields, hfields, h⟩ := bind_eq_ok h
    cases h
    have hexposed := exposed_encodeFields attributes hmodel hescaped fields hfields
    simp [exposed, isReference, text, readInside, exposedParts, exposedInside, string?, Encoded.str,
      Encoded.int, modelMarker, codecKey, hexposed]
  | .dict entries, hmodel, hescaped, y, h => by
    obtain ⟨hentries, hmarked⟩ := Bool.and_eq_true_iff.mp hescaped
    rw [encode] at h
    obtain ⟨es, hes, h⟩ := bind_eq_ok h
    have hexposed := exposed_encodeEntries entries hmodel hentries es hes
    have hcomprehension : exposedEntries (comprehension es) = false := by
      refine exposedEntries_iff.mpr fun k v hmem => ?_
      exact exposedEntries_iff.mp hexposed k v (mem_comprehension hmem)
    split at h
    · cases h
      simp [exposed, isReference, text, readInside, exposedParts, exposedInside, string?,
        Encoded.str, Encoded.int, modelMarker, codecKey, hcomprehension]
    · rename_i hkey
      cases h
      rw [Bool.eq_false_of_not_eq_true hkey, Bool.false_or] at hmarked
      obtain ⟨htext, hinside⟩ := unmarked_readInside hmodel hmarked hes
      rw [exposed, hinside, ← exposedEntries_eq, hcomprehension]
      simp [isReference, htext]

theorem exposed_encodeItems : (xs : List (Py Cls X)) → Py.modelFreeItems xs = true →
    Py.escapedItems xs = true → ∀ ys, ModelCodec.encodeItems C xs = .ok ys →
      exposedItems ys = false
  | [], _, _, ys, h => by
    cases h
    rfl
  | x :: xs, hmodel, hescaped, ys, h => by
    obtain ⟨hx, hxs⟩ := Bool.and_eq_true_iff.mp hmodel
    obtain ⟨hx', hxs'⟩ := Bool.and_eq_true_iff.mp hescaped
    rw [ModelCodec.encodeItems] at h
    obtain ⟨y, hy, h⟩ := bind_eq_ok h
    obtain ⟨ys', hys, h⟩ := bind_eq_ok h
    cases h
    rw [exposedItems, exposed_encode x hx hx' y hy, exposed_encodeItems xs hxs hxs' ys' hys]
    rfl

theorem exposed_encodeEntries : (d : List (Key × Py Cls X)) → Py.modelFreeEntries d = true →
    Py.escapedEntries d = true → ∀ es, ModelCodec.encodeEntries C d = .ok es →
      exposedEntries es = false
  | [], _, _, es, h => by
    cases h
    rfl
  | (k, x) :: d, hmodel, hescaped, es, h => by
    obtain ⟨hx, hd⟩ := Bool.and_eq_true_iff.mp hmodel
    obtain ⟨hx', hd'⟩ := Bool.and_eq_true_iff.mp hescaped
    rw [ModelCodec.encodeEntries] at h
    obtain ⟨y, hy, h⟩ := bind_eq_ok h
    obtain ⟨es', hes, h⟩ := bind_eq_ok h
    cases h
    rw [exposedEntries, exposed_encode x hx hx' y hy, exposed_encodeEntries d hd hd' es' hes]
    rfl

theorem exposed_encodeFields : (d : List (String × Py Cls X)) → Py.modelFreeFields d = true →
    Py.escapedFields d = true → ∀ es, ModelCodec.encodeFields C d = .ok es →
      exposedEntries es = false
  | [], _, _, es, h => by
    cases h
    rfl
  | (k, x) :: d, hmodel, hescaped, es, h => by
    obtain ⟨hx, hd⟩ := Bool.and_eq_true_iff.mp hmodel
    obtain ⟨hx', hd'⟩ := Bool.and_eq_true_iff.mp hescaped
    rw [encodeFields] at h
    obtain ⟨y, hy, h⟩ := bind_eq_ok h
    obtain ⟨es', hes, h⟩ := bind_eq_ok h
    cases h
    rw [exposedEntries, exposed_encode x hx hx' y hy, exposed_encodeFields d hd hd' es' hes]
    rfl
end

end Escaping

/-- The Django codec extends the generic one at a value unless reading what has been written comes
to a model reference; at an escaped value it never does. -/
theorem conservative_iff (hmodel : v.modelFree = true) :
    (Conservative R v ↔ ∀ e, encode (PythonPayloadCodec.self R) true v = .ok e →
      e.legacyFree = true → ¬ ComesTo R e) ∧ (v.escaped = true → Conservative R v) := by
  have hencode : ∀ resolvers, encode (DjangoPayloadCodec.self R resolvers) true v =
      encode (PythonPayloadCodec.self R) true v := fun resolvers =>
    @encode_eq Cls X _ _ _ _ _ (DjangoPayloadCodec.self R resolvers) (PythonPayloadCodec.self R) rfl
      true v hmodel
  have hiff : Conservative R v ↔ ∀ e, encode (PythonPayloadCodec.self R) true v = .ok e →
      e.legacyFree = true → ¬ ComesTo R e := by
    constructor
    · exact fun h e he hlegacy => (extends_iff hlegacy).mp (h.decode e he hlegacy)
    · exact fun h => ⟨hencode, fun e he hlegacy => (extends_iff hlegacy).mpr (h e he hlegacy)⟩
  refine ⟨hiff, fun hescaped => hiff.mpr fun e he hlegacy => ?_⟩
  exact not_comesTo_of_exposed hlegacy (exposed_encode v hmodel hescaped e he)

end Extension

section Samples

local instance plainTypes : Dataclasses Unit where
  name _ := "Plain"
  qualifiedName _ := "plain:Plain"
  qualifiedName_ne_empty _ := by decide
  construct c kwargs := .ok (.object c kwargs)
  equals x y := x = y

local instance plainObjects : PyObjects Unit Unit where
  construct c kwargs := .ok (.object c kwargs none)
  unhashable _ := false
  isOne _ := false
  str _ := ""
  repr _ := ""

local instance plainTexts : Texts := .lawful

local instance plainDecimals : DecimalTexts where
  decimalText _ := "0"
  decimalFromText _ := some (.finite false 0 0)

/-- A mapping that looks like a model reference. -/
def mimic : Py Unit Unit :=
  .dict [(.ofString codecKey, .scalar ⟨.str modelMarker, rfl⟩),
    (.ofString "version", .scalar ⟨.int 1, rfl⟩),
    (.ofString "type", .scalar ⟨.str "django://schools/student", rfl⟩)]

/-- A resolver that finds what it is asked for. -/
def students : DjangoPayloadCodec.Resolvers Unit Unit :=
  [("django://schools/student", fun _ => .ok (.other () none))]

/-- A mapping that mimics a model reference is protected by the codec's wrapper. -/
theorem conservative_iff_mimic : Conservative ({} : PayloadTypeRegistry Unit) mimic :=
  (conservative_iff rfl).2 rfl

/-- What an object's `to_dict()` returns is not wrapped, so it is taken for a model reference. -/
theorem mimic_from_to_dict : (Py.other () (some (.ok mimic)) : Py Unit Unit).modelFree = true ∧
    ¬ Conservative ({} : PayloadTypeRegistry Unit) (.other () (some (.ok mimic))) := by
  refine ⟨rfl, fun h => ?_⟩
  have hcalls := ((h.decode _ rfl rfl) students).2 []
  have hlength : 1 = 0 := congrArg List.length hcalls
  cases hlength

end Samples

end Pybus
