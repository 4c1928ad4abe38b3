import Pybus.Wire
import Pybus.Writing.JsonWords

/-! The texts that the serializer writes: two values get the same text only if they are written as
the same document. -/
namespace Pybus

open Value Texts Writing

/-- `float.__repr__` on finite floats. -/
class FloatTexts where
  floatText : Rat → String
  floatText_inj : ∀ {q r}, floatText q = floatText r → q = r
  floatText_char : ∀ {q c}, c ∈ (floatText q).toList → c.isDigit = true ∨ c ∈ ['-', '+', '.', 'e']
  floatText_marked : ∀ q, ∃ c ∈ (floatText q).toList, c = '.' ∨ c = 'e'

open FloatTexts

namespace Value

mutual
/-- The value is one that `json.dumps` accepts as it is. -/
def document : Value → Bool
  | .datetime _ | .date _ | .time _ | .uuid _ => false
  | .list items => documentItems items
  | .dict entries => documentEntries entries
  | _ => true

def documentItems : List Value → Bool
  | [] => true
  | v :: vs => document v && documentItems vs

def documentEntries : Dict → Bool
  | [] => true
  | (_, v) :: d => document v && documentEntries d
end

def openBrace : Char := Char.ofNat 0x7b

def closeBrace : Char := Char.ofNat 0x7d

/-- A constant or a number. -/
def atomText [FloatTexts] : Value → List Char
  | .null => ['n', 'u', 'l', 'l']
  | .bool true => ['t', 'r', 'u', 'e']
  | .bool false => ['f', 'a', 'l', 's', 'e']
  | .int i => jsonInt i
  | .float (.finite q) => (floatText q).toList
  | .float .nan => ['N', 'a', 'N']
  | .float (.infinite false) => ['I', 'n', 'f', 'i', 'n', 'i', 't', 'y']
  | .float (.infinite true) => ['-', 'I', 'n', 'f', 'i', 'n', 'i', 't', 'y']
  | _ => []

mutual
/-- `json.dumps` with the separators of the serializer, on a document whose keys are in order. -/
def jsonText [FloatTexts] : Value → List Char
  | .str s => jsonString s
  | .list [] => ['[', ']']
  | .list (v :: vs) => '[' :: (jsonText v ++ jsonItems vs)
  | .dict [] => [openBrace, closeBrace]
  | .dict ((k, v) :: d) =>
    openBrace :: ((jsonString k ++ ':' :: jsonText v) ++ jsonEntries d)
  | v => atomText v

def jsonItems [FloatTexts] : List Value → List Char
  | [] => [']']
  | v :: vs => ',' :: (jsonText v ++ jsonItems vs)

def jsonEntries [FloatTexts] : Dict → List Char
  | [] => [closeBrace]
  | (k, v) :: d => ',' :: ((jsonString k ++ ':' :: jsonText v) ++ jsonEntries d)
end

end Value

/-- The text that `dumps` returns. -/
def JsonSerializer.text [Texts] [FloatTexts] (v : Value) : String :=
  String.ofList (jsonText (JsonSerializer.dumps v))

namespace Value

section Documents

mutual
theorem document_encodeValue [Texts] : (v : Value) → document (encodeValue v) = true
  | .list items => by
    rw [encodeValue, document]
    exact documentItems_encodeItems items
  | .dict d => by
    rw [encodeValue, document]
    exact documentEntries_encodeEntries d
  | .null | .bool _ | .int _ | .float _ | .str _ | .datetime _ | .date _ | .time _ | .uuid _ => rfl

theorem documentItems_encodeItems [Texts] : (vs : List Value) →
    documentItems (encodeItems vs) = true
  | [] => rfl
  | v :: vs => by
    rw [encodeItems, documentItems, document_encodeValue v, documentItems_encodeItems vs]
    rfl

theorem documentEntries_encodeEntries [Texts] : (d : Dict) →
    documentEntries (encodeEntries d) = true
  | [] => rfl
  | (k, v) :: d => by
    rw [encodeEntries, documentEntries, document_encodeValue v, documentEntries_encodeEntries d]
    rfl
end

end Documents

section Atoms

variable [FloatTexts] {v w : Value} {c : Char}

/-- Constants and numbers. -/
def atom : Value → Bool
  | .null | .bool _ | .int _ | .float _ => true
  | _ => false

def numeric : Value → Bool
  | .int _ | .float (.finite _) => true
  | _ => false

/-- The characters of numbers. -/
def numberChar (c : Char) : Bool := c.isDigit || ['-', '+', '.', 'e'].contains c

theorem numberChar_of_numeric (h : numeric v = true) (hc : c ∈ atomText v) :
    numberChar c = true := by
  unfold numeric at h
  split at h
  · rcases mem_jsonInt hc with hd | rfl
    · simp [numberChar, hd]
    · rfl
  · rcases floatText_char hc with hd | hd
    · simp [numberChar, hd]
    · simp only [numberChar, List.contains_eq_mem, hd, decide_true, Bool.or_true]
  · cases h

/-- A constant has a letter that no number has. -/
theorem exists_letter (ha : atom v = true) (h : numeric v = false) :
    ∃ c ∈ atomText v, numberChar c = false := by
  cases v with
  | null => exact ⟨'n', by simp [atomText], by decide⟩
  | bool b =>
    cases b with
    | false => exact ⟨'f', by simp [atomText], by decide⟩
    | true => exact ⟨'t', by simp [atomText], by decide⟩
  | int i => cases h
  | float x =>
    cases x with
    | finite q => cases h
    | nan => exact ⟨'N', by simp [atomText], by decide⟩
    | infinite negative => cases negative <;> exact ⟨'I', by simp [atomText], by decide⟩
  | _ => cases ha

/-- The constants are written in different ways. -/
theorem constant_inj (hv : atom v = true) (hw : atom w = true) (hnv : numeric v = false)
    (hnw : numeric w = false) (h : atomText v = atomText w) : v = w := by
  have constants : ∀ {v}, atom v = true → numeric v = false →
      v ∈ [null, bool true, bool false, float .nan, float (.infinite false),
        float (.infinite true)] := by
    intro v ha hn
    cases v with
    | null => simp
    | bool b => cases b <;> simp
    | int i => cases hn
    | float x =>
      cases x with
      | finite q => cases hn
      | nan => simp
      | infinite negative => cases negative <;> simp
    | _ => cases ha
  have hmv := constants hv hnv
  have hmw := constants hw hnw
  simp only [List.mem_cons, List.not_mem_nil, or_false] at hmv hmw
  rcases hmv with rfl | rfl | rfl | rfl | rfl | rfl <;>
    rcases hmw with rfl | rfl | rfl | rfl | rfl | rfl <;>
    first | rfl | exact absurd h (by simp [atomText])

/-- A float is written with a character that no integer has. -/
theorem int_ne_float {i : Int} {q : Rat} : jsonInt i ≠ (floatText q).toList := by
  intro h
  obtain ⟨c, hc, hm⟩ := floatText_marked q
  rw [← h] at hc
  rcases mem_jsonInt hc with hd | rfl
  · rcases hm with rfl | rfl <;> exact absurd hd (by decide)
  · rcases hm with hm | hm <;> exact absurd hm (by decide)

theorem numeric_inj (hv : numeric v = true) (hw : numeric w = true)
    (h : atomText v = atomText w) : v = w := by
  unfold numeric at hv hw
  split at hv
  · split at hw
    · exact congrArg _ (jsonInt_inj h)
    · exact absurd h int_ne_float
    · cases hw
  · split at hw
    · exact absurd h.symm int_ne_float
    · exact congrArg _ (congrArg _ (floatText_inj (String.toList_inj.mp h)))
    · cases hw
  · cases hv

theorem atomText_inj (hv : atom v = true) (hw : atom w = true) (h : atomText v = atomText w) :
    v = w := by
  cases hnv : numeric v with
  | true =>
    cases hnw : numeric w with
    | true => exact numeric_inj hnv hnw h
    | false =>
      obtain ⟨c, hc, hn⟩ := exists_letter hw hnw
      rw [← h] at hc
      rw [numberChar_of_numeric hnv hc] at hn
      cases hn
  | false =>
    cases hnw : numeric w with
    | true =>
      obtain ⟨c, hc, hn⟩ := exists_letter hv hnv
      rw [h] at hc
      rw [numberChar_of_numeric hnw hc] at hn
      cases hn
    | false => exact constant_inj hv hw hnv hnw h

/-- The characters that a value other than a constant or a number begins with. -/
def jsonOpens (c : Char) : Bool := [quotationMark, '[', openBrace].contains c

omit [FloatTexts] in
theorem marks_of_numberChar (h : numberChar c = true) :
    jsonStops c = false ∧ jsonOpens c = false := by
  have hmarks : ∀ d ∈ [',', ':', ']', Char.ofNat 0x7d, quotationMark, '[', openBrace],
      numberChar d = false := by
    simp only [List.forall_mem_cons]
    exact ⟨rfl, rfl, rfl, rfl, rfl, rfl, rfl, fun _ h => by cases h⟩
  have hne : c ∉ [',', ':', ']', Char.ofNat 0x7d, quotationMark, '[', openBrace] := by
    intro hc
    rw [hmarks c hc] at h
    cases h
  simp only [List.mem_cons, not_or] at hne
  simp [jsonStops, jsonOpens, hne]

/-- A constant or a number is one word, which no other value begins like. -/
theorem atomText_word (h : atom v = true) (hc : c ∈ atomText v) :
    jsonStops c = false ∧ jsonOpens c = false := by
  cases hn : numeric v with
  | true => exact marks_of_numberChar (numberChar_of_numeric hn hc)
  | false =>
    have hall : (atomText v).all (fun c => !jsonStops c && !jsonOpens c) = true := by
      cases v with
      | null => rfl
      | bool b => cases b <;> rfl
      | int i => cases hn
      | float x =>
        cases x with
        | finite q => cases hn
        | nan => rfl
        | infinite negative => cases negative <;> rfl
      | _ => cases h
    simpa using List.all_eq_true.mp hall c hc

theorem atomText_ne_nil (h : atom v = true) : atomText v ≠ [] := by
  cases hn : numeric v with
  | true =>
    unfold numeric at hn
    split at hn
    · exact jsonInt_ne_nil
    · rename_i q
      obtain ⟨c, hc, -⟩ := floatText_marked q
      exact List.ne_nil_of_mem hc
    · cases hn
  | false =>
    obtain ⟨c, hc, -⟩ := exists_letter h hn
    exact List.ne_nil_of_mem hc

end Atoms

section Openings

variable [FloatTexts] {v w : Value} {vs : List Value} {d : Dict}

theorem jsonText_atom (h : atom v = true) : jsonText v = atomText v := by
  cases v with
  | null | bool _ | int _ | float _ => rw [jsonText] <;> simp
  | _ => cases h

theorem jsonItems_eq : jsonItems vs = listed jsonText ',' ']' vs := by
  induction vs with
  | nil => rfl
  | cons v vs ih => rw [jsonItems, listed, ih]

theorem jsonText_list : jsonText (.list vs) = bracketed jsonText '[' ',' ']' vs := by
  cases vs with
  | nil => rw [jsonText, bracketed]
  | cons v vs => rw [jsonText, bracketed, jsonItems_eq]

/-- An entry of a dictionary. -/
def entryText : String × Value → List Char := pair jsonString ':' jsonText

theorem jsonEntries_eq : jsonEntries d = listed entryText ',' closeBrace d := by
  induction d with
  | nil => rfl
  | cons e d ih =>
    obtain ⟨k, v⟩ := e
    rw [jsonEntries, listed, ih]
    rfl

theorem jsonText_dict : jsonText (.dict d) = bracketed entryText openBrace ',' closeBrace d := by
  cases d with
  | nil => rw [jsonText, bracketed]
  | cons e d =>
    obtain ⟨k, v⟩ := e
    rw [jsonText, bracketed, jsonEntries_eq]
    rfl

/-- The mark that a value begins with, if it is no constant and no number. -/
def opening : Value → Option Char
  | .str _ => some quotationMark
  | .list _ => some '['
  | .dict _ => some openBrace
  | _ => none

theorem jsonText_opening {o : Char} (h : opening v = some o) : (jsonText v).head? = some o := by
  unfold opening at h
  split at h
  · cases h
    rw [jsonText]
    rfl
  · cases h
    rw [jsonText_list]
    rename_i items
    cases items <;> rfl
  · cases h
    rw [jsonText_dict]
    rename_i d
    cases d <;> rfl
  · cases h

omit [FloatTexts] in
theorem atom_of_opening (hd : document v = true) (h : opening v = none) : atom v = true := by
  cases v with
  | null | bool _ | int _ | float _ => rfl
  | str _ | list _ | dict _ => cases h
  | _ => cases hd

/-- What a document begins with tells whether it is a string, a list or a dictionary. -/
theorem jsonText_head (hd : document v = true) :
    ∃ c, (jsonText v).head? = some c ∧ opening v = if jsonOpens c then some c else none := by
  cases ho : opening v with
  | some o =>
    refine ⟨o, jsonText_opening ho, ?_⟩
    unfold opening at ho
    split at ho <;> cases ho <;> rfl
  | none =>
    have ha := atom_of_opening hd ho
    rw [jsonText_atom ha]
    cases hc : (atomText v).head? with
    | none => exact absurd (List.head?_eq_none_iff.mp hc) (atomText_ne_nil ha)
    | some c =>
      refine ⟨c, rfl, ?_⟩
      rw [(atomText_word ha (List.mem_of_head? hc)).2]
      rfl

theorem jsonText_ne_nil (hd : document v = true) : jsonText v ≠ [] := by
  obtain ⟨c, hc, -⟩ := jsonText_head hd
  intro h
  rw [h] at hc
  cases hc

/-- Documents of different kinds are told apart by what they begin with. -/
theorem selfDelimiting_of_opening (hv : document v = true) (hw : document w = true)
    (h : opening v ≠ opening w) : SelfDelimiting jsonText v w := by
  apply selfDelimiting_of_head (jsonText_ne_nil hv) (jsonText_ne_nil hw)
  intro he
  obtain ⟨c, hc, ho⟩ := jsonText_head hv
  obtain ⟨c', hc', ho'⟩ := jsonText_head hw
  rw [hc, hc'] at he
  cases he
  exact h (by rw [ho, ho'])

theorem not_stop_head (hd : document v = true) {c : Char} (hs : jsonStops c = true) :
    jsonText v ≠ [] ∧ (jsonText v).head? ≠ some c := by
  refine ⟨jsonText_ne_nil hd, ?_⟩
  intro h
  cases ho : opening v with
  | some o =>
    rw [jsonText_opening ho] at h
    cases h
    unfold opening at ho
    split at ho <;> cases ho <;> exact absurd hs (by decide)
  | none =>
    have ha := atom_of_opening hd ho
    rw [jsonText_atom ha] at h
    rw [(atomText_word ha (List.mem_of_head? h)).1] at hs
    cases hs

end Openings

section Unique

variable [FloatTexts] {v w : Value} {d d' : Dict}

omit [FloatTexts] in
theorem documentItems_iff {vs : List Value} :
    documentItems vs = true ↔ ∀ v ∈ vs, document v = true := by
  induction vs with
  | nil => simp [documentItems]
  | cons v vs ih => simp [documentItems, ih]

omit [FloatTexts] in
theorem documentEntries_iff : documentEntries d = true ↔ ∀ e ∈ d, document e.2 = true := by
  induction d with
  | nil => simp [documentEntries]
  | cons e d ih =>
    obtain ⟨k, v⟩ := e
    simp [documentEntries, ih]

theorem entryText_head (e : String × Value) {c : Char} (hc : c ≠ quotationMark) :
    entryText e ≠ [] ∧ (entryText e).head? ≠ some c := by
  constructor
  · intro h
    cases h
  · intro h
    injection h with h
    exact hc h.symm

mutual
/-- Every document is told apart from every other one by its text, whatever follows it. -/
theorem jsonText_apart : (v : Value) → document v = true → ∀ w, document w = true →
    ToldApart jsonStops jsonText v w
  | .list vs, hv, w, hw => by
    by_cases ho : opening (.list vs) = opening w
    · cases w with
      | list ws =>
        rw [document, documentItems_iff] at hv hw
        intro s t _ _ he
        rw [jsonText_list, jsonText_list] at he
        obtain ⟨hvw, hst⟩ := bracketed_selfDelimiting (by decide) (by decide) (by decide)
          (fun a ha => not_stop_head (ha.elim (hv a) (hw a)) (by decide))
          (fun a ha b hb => jsonItems_apart vs hv a ha b (hw b hb)) s t he
        exact ⟨congrArg _ hvw, hst⟩
      | _ => cases ho
    · exact (selfDelimiting_of_opening hv hw ho).toldApart
  | .dict d, hv, w, hw => by
    by_cases ho : opening (.dict d) = opening w
    · cases w with
      | dict d' =>
        rw [document, documentEntries_iff] at hv hw
        intro s t _ _ he
        rw [jsonText_dict, jsonText_dict] at he
        obtain ⟨hvw, hst⟩ := bracketed_selfDelimiting (by decide) (by decide) (by decide)
          (fun e _ => entryText_head e (by decide))
          (fun e he e' he' => toldApart_pair (jsonString_selfDelimiting e.1 e'.1)
            (jsonEntries_apart d hv e he e'.2 (hw e' he'))) s t he
        exact ⟨congrArg _ hvw, hst⟩
      | _ => cases ho
    · exact (selfDelimiting_of_opening hv hw ho).toldApart
  | .str x, hv, w, hw => by
    by_cases ho : opening (.str x) = opening w
    · cases w with
      | str y =>
        intro s t _ _ he
        rw [jsonText, jsonText] at he
        obtain ⟨hxy, hst⟩ := jsonString_selfDelimiting x y s t he
        exact ⟨congrArg _ hxy, hst⟩
      | _ => cases ho
    · exact (selfDelimiting_of_opening hv hw ho).toldApart
  | .null, hv, w, hw | .bool _, hv, w, hw | .int _, hv, w, hw | .float _, hv, w, hw => by
    by_cases ho : opening w = none
    · have ha := atom_of_opening hw ho
      apply toldApart_of_word
      · intro c hc
        rw [jsonText_atom rfl] at hc
        exact (atomText_word rfl hc).1
      · intro c hc
        rw [jsonText_atom ha] at hc
        exact (atomText_word ha hc).1
      · intro he
        rw [jsonText_atom rfl, jsonText_atom ha] at he
        exact atomText_inj rfl ha he
    · exact (selfDelimiting_of_opening hv hw fun h => ho h.symm).toldApart
  | .datetime _, hv, _, _ | .date _, hv, _, _ | .time _, hv, _, _ | .uuid _, hv, _, _ => by
    cases hv

theorem jsonItems_apart : (vs : List Value) → (∀ v ∈ vs, document v = true) →
    ∀ v ∈ vs, ∀ w, document w = true → ToldApart jsonStops jsonText v w
  | [], _, v, hv, _, _ => by cases hv
  | u :: us, hd, v, hv, w, hw => by
    rcases List.mem_cons.mp hv with h | hv
    · rw [h]
      exact jsonText_apart u (hd u (List.mem_cons_self ..)) w hw
    · exact jsonItems_apart us (fun x hx => hd x (List.mem_cons_of_mem _ hx)) v hv w hw

theorem jsonEntries_apart : (d : Dict) → (∀ e ∈ d, document e.2 = true) →
    ∀ e ∈ d, ∀ w, document w = true → ToldApart jsonStops jsonText e.2 w
  | [], _, e, he, _, _ => by cases he
  | (k, u) :: d, hd, e, he, w, hw => by
    rcases List.mem_cons.mp he with rfl | he
    · exact jsonText_apart u (hd (k, u) (List.mem_cons_self ..)) w hw
    · exact jsonEntries_apart d (fun x hx => hd x (List.mem_cons_of_mem _ hx)) e he w hw
end

end Unique

section Written

variable [Texts]

mutual
/-- A naive datetime is written as one in UTC. -/
theorem encodeValue_inUtc : (v : Value) → encodeValue (inUtc v) = encodeValue v
  | .list items => by rw [inUtc, encodeValue, encodeValue, encodeItems_inUtcItems items]
  | .dict d => by rw [inUtc, encodeValue, encodeValue, encodeEntries_inUtcEntries d]
  | .datetime d => rfl
  | .null | .bool _ | .int _ | .float _ | .str _ | .date _ | .time _ | .uuid _ => rfl

theorem encodeItems_inUtcItems : (vs : List Value) →
    encodeItems (inUtcItems vs) = encodeItems vs
  | [] => rfl
  | v :: vs => by
    rw [inUtcItems, encodeItems, encodeItems, encodeValue_inUtc v, encodeItems_inUtcItems vs]

theorem encodeEntries_inUtcEntries : (d : Dict) →
    encodeEntries (inUtcEntries d) = encodeEntries d
  | [] => rfl
  | (k, v) :: d => by
    rw [inUtcEntries, encodeEntries, encodeEntries, encodeValue_inUtc v,
      encodeEntries_inUtcEntries d]
end

end Written

end Value

namespace JsonSerializer

variable [Texts] [FloatTexts] {v w : Value}

end JsonSerializer

section Samples

def sampleFloatText (q : Rat) : List Char := jsonInt q.num ++ '.' :: Nat.toDigits 10 q.den

theorem sampleFloatText_inj {q r : Rat} (h : sampleFloatText q = sampleFloatText r) : q = r := by
  have hword : ∀ i : Int, ∀ c ∈ jsonInt i, decide (c = '.') = false := by
    intro i c hc
    rcases mem_jsonInt hc with hd | rfl
    · rw [decide_eq_false_iff_not]
      rintro rfl
      cases hd
    · rfl
  have hapart := @toldApart_of_word _ (fun c => decide (c = '.')) jsonInt q.num r.num (hword q.num)
    (hword r.num) jsonInt_inj
  obtain ⟨hn, hd⟩ := hapart _ _ (ended_cons rfl) (ended_cons rfl) h
  injection hd with _ hd
  exact Rat.ext hn (toDigits_inj hd)

/-- A text for every fraction. -/
@[reducible] def FloatTexts.sample : FloatTexts where
  floatText q := String.ofList (sampleFloatText q)
  floatText_inj h := sampleFloatText_inj (String.ofList_inj.mp h)
  floatText_char h := by
    rw [String.toList_ofList] at h
    rcases List.mem_append.mp h with h | h
    · rcases mem_jsonInt h with hd | rfl
      · exact .inl hd
      · exact .inr (by decide)
    · rcases List.mem_cons.mp h with rfl | h
      · exact .inr (by decide)
      · exact .inl (isDigit_of_mem h)
  floatText_marked q := ⟨'.', by simp [sampleFloatText], .inl rfl⟩

end Samples

namespace JsonSerializer

end JsonSerializer

end Pybus
