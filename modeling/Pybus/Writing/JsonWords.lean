import Pybus.Writing.Delimited

/-! The words of JSON in ASCII: strings with escapes, and integers. -/
namespace Writing

def quotationMark : Char := Char.ofNat 0x22

def backslash : Char := Char.ofNat 0x5c

/-- Four digits of a number in base sixteen. -/
def hex4 (n : Nat) : List Char :=
  [Nat.digitChar (n / 4096 % 16), Nat.digitChar (n / 256 % 16), Nat.digitChar (n / 16 % 16),
    Nat.digitChar (n % 16)]

def unicodeEscape (n : Nat) : List Char := backslash :: 'u' :: hex4 n

/-- The characters with an escape of their own. -/
def shortEscapes : List (Char × Char) :=
  [(quotationMark, quotationMark), (backslash, backslash), (Char.ofNat 0x0a, 'n'),
    (Char.ofNat 0x0d, 'r'), (Char.ofNat 0x09, 't'), (Char.ofNat 0x0c, 'f'),
    (Char.ofNat 0x08, 'b')]

/-- A character in a JSON string. Beyond ASCII it is written as its UTF-16 code units. -/
def escape (c : Char) : List Char :=
  match shortEscapes.lookup c with
  | some letter => [backslash, letter]
  | none =>
    if 0x20 ≤ c.toNat ∧ c.toNat < 0x7f then [c]
    else if c.toNat < 0x10000 then unicodeEscape c.toNat
    else
      let n := c.toNat - 0x10000
      unicodeEscape (0xd800 + n / 0x400) ++ unicodeEscape (0xdc00 + n % 0x400)

/-- A JSON string. -/
def jsonString : String → List Char := quoted escape quotationMark

/-- A JSON integer. -/
def jsonInt (i : Int) : List Char := i.repr.toList

/-- The characters that end a word of JSON. -/
def jsonStops (c : Char) : Bool := [',', ':', ']', Char.ofNat 0x7d].contains c

section Escapes

variable {c d : Char} {m n : Nat} {s t : List Char}

theorem digitChar_inj : ∀ i < 16, ∀ j < 16, Nat.digitChar i = Nat.digitChar j → i = j := by
  decide

theorem hex4_inj (hm : m < 65536) (hn : n < 65536) (h : hex4 m = hex4 n) : m = n := by
  simp only [hex4, List.cons.injEq, and_true] at h
  obtain ⟨h₁, h₂, h₃, h₄⟩ := h
  have h₁ := digitChar_inj _ (by omega) _ (by omega) h₁
  have h₂ := digitChar_inj _ (by omega) _ (by omega) h₂
  have h₃ := digitChar_inj _ (by omega) _ (by omega) h₃
  have h₄ := digitChar_inj _ (by omega) _ (by omega) h₄
  omega

theorem unicodeEscape_append (hm : m < 65536) (hn : n < 65536)
    (h : unicodeEscape m ++ s = unicodeEscape n ++ t) : m = n ∧ s = t := by
  obtain ⟨h₁, h₂⟩ := List.append_inj h rfl
  injection h₁ with _ h₁
  injection h₁ with _ h₁
  exact ⟨hex4_inj hm hn h₁, h₂⟩

theorem shortEscapes_inj : ∀ p ∈ shortEscapes, ∀ q ∈ shortEscapes, p.2 = q.2 → p = q := by
  decide

theorem shortEscapes_letter : ∀ p ∈ shortEscapes, p.2 ≠ 'u' := by
  decide

theorem mem_shortEscapes {x : Char} (h : shortEscapes.lookup c = some x) :
    (c, x) ∈ shortEscapes := by
  obtain ⟨l₁, l₂, hl, -⟩ := List.lookup_eq_some_iff.mp h
  rw [hl]
  simp

/-- A character is no surrogate. -/
theorem toNat_range : c.toNat < 0xd800 ∨ 0xdfff < c.toNat ∧ c.toNat < 0x110000 := by
  have h := c.valid
  rcases h with h | ⟨h₁, h₂⟩
  · exact .inl h
  · exact .inr ⟨h₁, h₂⟩

/-- The ways a character is written. -/
theorem escape_cases (c : Char) :
    (∃ letter, (c, letter) ∈ shortEscapes ∧ escape c = [backslash, letter]) ∨
    (c ≠ backslash ∧ c ≠ quotationMark ∧ escape c = [c]) ∨
    (c.toNat < 0x10000 ∧ escape c = unicodeEscape c.toNat) ∨
    (∃ n < 0x100000, c.toNat = n + 0x10000 ∧
      escape c = unicodeEscape (0xd800 + n / 0x400) ++ unicodeEscape (0xdc00 + n % 0x400)) := by
  unfold escape
  split
  · rename_i letter hl
    exact .inl ⟨letter, mem_shortEscapes hl, rfl⟩
  · rename_i hl
    split
    · refine .inr (.inl ⟨?_, ?_, rfl⟩) <;> rintro rfl <;> exact absurd hl (by decide)
    · split
      · rename_i hlt
        exact .inr (.inr (.inl ⟨hlt, rfl⟩))
      · rename_i hge
        have := toNat_range (c := c)
        exact .inr (.inr (.inr ⟨c.toNat - 0x10000, by omega, by omega, rfl⟩))

theorem escape_head (c : Char) : escape c ≠ [] ∧ (escape c).head? ≠ some quotationMark := by
  rcases escape_cases c with ⟨x, -, h⟩ | ⟨-, hq, h⟩ | ⟨-, h⟩ | ⟨n, -, -, h⟩ <;> rw [h]
  · exact ⟨by simp, by simp [backslash, quotationMark]⟩
  · exact ⟨by simp, by simpa using hq⟩
  · exact ⟨by simp [unicodeEscape], by simp [unicodeEscape, backslash, quotationMark]⟩
  · exact ⟨by simp [unicodeEscape], by simp [unicodeEscape, backslash, quotationMark]⟩

/-- No character is written as another one begins. -/
theorem escape_selfDelimiting (c d : Char) : SelfDelimiting escape c d := by
  have plain : ∀ c d : Char, c ≠ backslash → escape c = [c] → SelfDelimiting escape c d := by
    intro c d hc he s t h
    rcases escape_cases d with ⟨x, -, hd⟩ | ⟨-, -, hd⟩ | ⟨-, hd⟩ | ⟨n, -, -, hd⟩ <;>
      rw [he, hd] at h <;> injection h with h₁ h₂
    · exact absurd h₁ hc
    · exact ⟨h₁, h₂⟩
    · exact absurd h₁ hc
    · exact absurd h₁ hc
  intro s t h
  rcases escape_cases c with ⟨x, hx, hc⟩ | ⟨hb, -, hc⟩ | ⟨hlt, hc⟩ | ⟨m, hm, hcm, hc⟩
  · rcases escape_cases d with ⟨y, hy, hd⟩ | ⟨hb, -, hd⟩ | ⟨-, hd⟩ | ⟨n, -, -, hd⟩
    · rw [hc, hd] at h
      injection h with _ h
      injection h with hxy h
      exact ⟨congrArg Prod.fst (shortEscapes_inj _ hx _ hy hxy), h⟩
    · obtain ⟨h₁, h₂⟩ := plain d c hb hd t s h.symm
      exact ⟨h₁.symm, h₂.symm⟩
    · rw [hc, hd] at h
      injection h with _ h
      injection h with hxu _
      exact absurd hxu (shortEscapes_letter _ hx)
    · rw [hc, hd] at h
      injection h with _ h
      injection h with hxu _
      exact absurd hxu (shortEscapes_letter _ hx)
  · exact plain c d hb hc s t h
  · rcases escape_cases d with ⟨y, hy, hd⟩ | ⟨hb, -, hd⟩ | ⟨hlt', hd⟩ | ⟨n, hn, hdn, hd⟩
    · rw [hc, hd] at h
      injection h with _ h
      injection h with hxu _
      exact absurd hxu.symm (shortEscapes_letter _ hy)
    · obtain ⟨h₁, h₂⟩ := plain d c hb hd t s h.symm
      exact ⟨h₁.symm, h₂.symm⟩
    · rw [hc, hd] at h
      obtain ⟨hcd, hst⟩ := unicodeEscape_append hlt hlt' h
      exact ⟨Char.toNat_inj.mp hcd, hst⟩
    · -- the first code unit beyond the first plane is no character
      rw [hc, hd, List.append_assoc] at h
      have hunit := (unicodeEscape_append hlt (by omega) h).1
      have := toNat_range (c := c)
      omega
  · rcases escape_cases d with ⟨y, hy, hd⟩ | ⟨hb, -, hd⟩ | ⟨hlt', hd⟩ | ⟨n, hn, hdn, hd⟩
    · rw [hc, hd] at h
      injection h with _ h
      injection h with hxu _
      exact absurd hxu.symm (shortEscapes_letter _ hy)
    · obtain ⟨h₁, h₂⟩ := plain d c hb hd t s h.symm
      exact ⟨h₁.symm, h₂.symm⟩
    · rw [hc, hd, List.append_assoc] at h
      have hunit := (unicodeEscape_append (by omega) hlt' h).1
      have := toNat_range (c := d)
      omega
    · rw [hc, hd, List.append_assoc, List.append_assoc] at h
      obtain ⟨hhigh, h⟩ := unicodeEscape_append (by omega) (by omega) h
      obtain ⟨hlow, hst⟩ := unicodeEscape_append (by omega) (by omega) h
      exact ⟨Char.toNat_inj.mp (by omega), hst⟩

end Escapes

theorem jsonString_selfDelimiting (x y : String) : SelfDelimiting jsonString x y :=
  quoted_selfDelimiting escape_head escape_selfDelimiting x y

section Integers

variable {i j : Int} {c : Char}

theorem jsonInt_eq : jsonInt i =
    if 0 ≤ i then Nat.toDigits 10 i.toNat else '-' :: Nat.toDigits 10 (-i).toNat := by
  rw [jsonInt, Int.repr_eq_if]
  split
  · exact Nat.toList_repr
  · rw [String.toList_append, Nat.toList_repr]
    rfl

theorem isDigit_of_mem {n : Nat} (h : c ∈ Nat.toDigits 10 n) : c.isDigit = true :=
  Nat.isDigit_of_mem_toDigits (by decide) (by decide) h

/-- An integer is written with digits and a sign. -/
theorem mem_jsonInt (h : c ∈ jsonInt i) : c.isDigit = true ∨ c = '-' := by
  rw [jsonInt_eq] at h
  split at h
  · exact .inl (isDigit_of_mem h)
  · rcases List.mem_cons.mp h with h | h
    · exact .inr h
    · exact .inl (isDigit_of_mem h)

theorem jsonInt_ne_nil : jsonInt i ≠ [] := by
  rw [jsonInt_eq]
  split
  · exact Nat.toDigits_ne_nil
  · simp

theorem toDigits_inj {m n : Nat} (h : Nat.toDigits 10 m = Nat.toDigits 10 n) : m = n := by
  have hm := Nat.ofDigitChars_ten_toDigits (n := m)
  rw [h, Nat.ofDigitChars_ten_toDigits] at hm
  exact hm.symm

theorem minus_ne_toDigits {n : Nat} {s : List Char} : '-' :: s ≠ Nat.toDigits 10 n := by
  intro h
  have hmem : '-' ∈ Nat.toDigits 10 n := by
    rw [← h]
    exact List.mem_cons_self ..
  exact absurd (isDigit_of_mem hmem) (by decide)

theorem jsonInt_inj (h : jsonInt i = jsonInt j) : i = j := by
  rw [jsonInt_eq, jsonInt_eq] at h
  split at h <;> split at h
  · have := toDigits_inj h
    omega
  · exact absurd h.symm minus_ne_toDigits
  · exact absurd h minus_ne_toDigits
  · injection h with _ h
    have := toDigits_inj h
    omega

end Integers

end Writing
