import Mathlib.Data.List.Basic
import Mathlib.Data.List.TakeWhile

/-! Texts that can be told apart whatever they are followed by: single words, words in a row, and
listings of words between brackets. -/
namespace Writing

variable {α β : Type} {stops : Char → Bool} {w : α → List Char} {a b : α} {s t u v : List Char}

/-- A text that is over, or goes on with a character that ends a word. -/
def Ended (stops : Char → Bool) (s : List Char) : Prop := ∀ c ∈ s.head?, stops c = true

/-- Two words are told apart whatever follows them, as long as it ends a word. -/
def ToldApart (stops : Char → Bool) (w : α → List Char) (a b : α) : Prop :=
  ∀ s t, Ended stops s → Ended stops t → w a ++ s = w b ++ t → a = b ∧ s = t

/-- Two words are told apart whatever follows them. -/
def SelfDelimiting (w : α → List Char) (a b : α) : Prop :=
  ∀ s t, w a ++ s = w b ++ t → a = b ∧ s = t

theorem ended_cons {c : Char} (h : stops c = true) : Ended stops (c :: s) := by
  intro d hd
  cases hd
  exact h

theorem SelfDelimiting.toldApart (h : SelfDelimiting w a b) : ToldApart stops w a b :=
  fun s t _ _ he => h s t he

/-- Words that begin differently are told apart. -/
theorem selfDelimiting_of_head (ha : w a ≠ []) (hb : w b ≠ []) (h : (w a).head? ≠ (w b).head?) :
    SelfDelimiting w a b := by
  intro s t he
  have hs : (w a ++ s).head? = (w a).head? := List.head?_append_of_ne_nil _ ha
  have ht : (w b ++ t).head? = (w b).head? := List.head?_append_of_ne_nil _ hb
  rw [he, ht] at hs
  exact absurd hs.symm h

/-- A word without stops reaches as far as the first stop. -/
theorem takeWhile_word (hu : ∀ c ∈ u, stops c = false) (hs : Ended stops s) :
    (u ++ s).takeWhile (fun c => !stops c) = u := by
  induction u with
  | nil =>
    cases s with
    | nil => rfl
    | cons c s => simp [hs c rfl]
  | cons c u ih =>
    have hc := hu c (List.mem_cons_self ..)
    simp [hc, ih fun d hd => hu d (List.mem_cons_of_mem _ hd)]

/-- Words without stops are told apart by their letters. -/
theorem toldApart_of_word (ha : ∀ c ∈ w a, stops c = false) (hb : ∀ c ∈ w b, stops c = false)
    (h : w a = w b → a = b) : ToldApart stops w a b := by
  intro s t hs ht he
  have hw : w a = w b := by
    rw [← takeWhile_word ha hs, he, takeWhile_word hb ht]
  refine ⟨h hw, ?_⟩
  rw [hw] at he
  exact List.append_cancel_left he

/-- Two words in a row, with a character between them. -/
def pair (w : α → List Char) (between : Char) (w' : β → List Char) (p : α × β) : List Char :=
  w p.1 ++ between :: w' p.2

theorem toldApart_pair {w' : β → List Char} {between : Char} {p q : α × β}
    (h : SelfDelimiting w p.1 q.1) (h' : ToldApart stops w' p.2 q.2) :
    ToldApart stops (pair w between w') p q := by
  intro s t hs ht he
  simp only [pair, List.append_assoc, List.cons_append] at he
  obtain ⟨h₁, he⟩ := h _ _ he
  injection he with _ he
  obtain ⟨h₂, hst⟩ := h' s t hs ht he
  exact ⟨Prod.ext h₁ h₂, hst⟩

/-- The words of a list after the first one, and what closes the list. -/
def listed (w : α → List Char) (between close : Char) : List α → List Char
  | [] => [close]
  | a :: as => between :: (w a ++ listed w between close as)

/-- A list in brackets. -/
def bracketed (w : α → List Char) (opening between close : Char) : List α → List Char
  | [] => [opening, close]
  | a :: as => opening :: (w a ++ listed w between close as)

section Lists

variable {opening between close : Char} {as bs : List α}

theorem ended_listed (hb : stops between = true) (hc : stops close = true) :
    Ended stops (listed w between close as ++ s) := by
  cases as <;> exact ended_cons (by assumption)

theorem listed_selfDelimiting (hb : stops between = true) (hc : stops close = true)
    (hne : between ≠ close) (h : ∀ a ∈ as, ∀ b ∈ bs, ToldApart stops w a b) :
    SelfDelimiting (listed w between close) as bs := by
  induction as generalizing bs with
  | nil =>
    intro s t he
    cases bs with
    | nil => exact ⟨rfl, by simpa [listed] using he⟩
    | cons b bs =>
      simp only [listed, List.cons_append] at he
      injection he with hcb _
      exact absurd hcb.symm hne
  | cons a as ih =>
    intro s t he
    cases bs with
    | nil =>
      simp only [listed, List.cons_append] at he
      injection he with hbc _
      exact absurd hbc hne
    | cons b bs =>
      simp only [listed, List.cons_append, List.append_assoc] at he
      injection he with _ he
      obtain ⟨hab, he⟩ := h a (List.mem_cons_self ..) b (List.mem_cons_self ..) _ _
        (ended_listed hb hc) (ended_listed hb hc) he
      obtain ⟨hl, hst⟩ := ih
        (fun a ha b hb => h a (List.mem_cons_of_mem _ ha) b (List.mem_cons_of_mem _ hb)) _ _ he
      exact ⟨by rw [hab, hl], hst⟩

/-- Lists in brackets are told apart if their items are and no item begins like a closing
bracket. -/
theorem bracketed_selfDelimiting (hb : stops between = true) (hc : stops close = true)
    (hne : between ≠ close) (hw : ∀ a, a ∈ as ∨ a ∈ bs → w a ≠ [] ∧ (w a).head? ≠ some close)
    (h : ∀ a ∈ as, ∀ b ∈ bs, ToldApart stops w a b) :
    SelfDelimiting (bracketed w opening between close) as bs := by
  have hhead : ∀ a s, a ∈ as ∨ a ∈ bs → (w a ++ s).head? ≠ some close := by
    intro a s ha
    rw [List.head?_append_of_ne_nil _ (hw a ha).1]
    exact (hw a ha).2
  intro s t he
  cases as with
  | nil =>
    cases bs with
    | nil => exact ⟨rfl, by simpa [bracketed] using he⟩
    | cons b bs =>
      simp only [bracketed, List.cons_append, List.append_assoc] at he
      injection he with _ he
      exact absurd (congrArg List.head? he).symm (hhead b _ (.inr (List.mem_cons_self ..)))
  | cons a as =>
    cases bs with
    | nil =>
      simp only [bracketed, List.cons_append, List.append_assoc] at he
      injection he with _ he
      exact absurd (congrArg List.head? he) (hhead a _ (.inl (List.mem_cons_self ..)))
    | cons b bs =>
      simp only [bracketed, List.cons_append, List.append_assoc] at he
      injection he with _ he
      obtain ⟨hab, he⟩ := h a (List.mem_cons_self ..) b (List.mem_cons_self ..) _ _
        (ended_listed hb hc) (ended_listed hb hc) he
      obtain ⟨hl, hst⟩ := listed_selfDelimiting hb hc hne
        (fun a ha b hb => h a (List.mem_cons_of_mem _ ha) b (List.mem_cons_of_mem _ hb)) _ _ he
      exact ⟨by rw [hab, hl], hst⟩

end Lists

section Quotes

variable {escape : Char → List Char} {quote : Char} {cs ds : List Char}

/-- Letters written one by one up to a quotation mark. -/
theorem flatMap_selfDelimiting (hne : ∀ c, escape c ≠ [] ∧ (escape c).head? ≠ some quote)
    (h : ∀ c d, SelfDelimiting escape c d) (he : cs.flatMap escape ++ quote :: s =
      ds.flatMap escape ++ quote :: t) : cs = ds ∧ s = t := by
  have hhead : ∀ c u, (escape c ++ u).head? ≠ some quote := by
    intro c u
    rw [List.head?_append_of_ne_nil _ (hne c).1]
    exact (hne c).2
  induction cs generalizing ds with
  | nil =>
    cases ds with
    | nil => exact ⟨rfl, by simpa using he⟩
    | cons d ds =>
      simp only [List.flatMap_nil, List.nil_append, List.flatMap_cons, List.append_assoc] at he
      exact absurd (congrArg List.head? he).symm (hhead d _)
  | cons c cs ih =>
    cases ds with
    | nil =>
      simp only [List.flatMap_nil, List.nil_append, List.flatMap_cons, List.append_assoc] at he
      exact absurd (congrArg List.head? he) (hhead c _)
    | cons d ds =>
      simp only [List.flatMap_cons, List.append_assoc] at he
      obtain ⟨hcd, he⟩ := h c d _ _ he
      obtain ⟨hl, hst⟩ := ih he
      exact ⟨by rw [hcd, hl], hst⟩

/-- A string between quotation marks. -/
def quoted (escape : Char → List Char) (quote : Char) (x : String) : List Char :=
  quote :: (x.toList.flatMap escape ++ [quote])

theorem quoted_selfDelimiting (hne : ∀ c, escape c ≠ [] ∧ (escape c).head? ≠ some quote)
    (h : ∀ c d, SelfDelimiting escape c d) (x y : String) :
    SelfDelimiting (quoted escape quote) x y := by
  intro s t he
  simp only [quoted, List.cons_append, List.append_assoc, List.nil_append] at he
  injection he with _ he
  obtain ⟨hl, hst⟩ := flatMap_selfDelimiting hne h he
  exact ⟨String.toList_inj.mp hl, hst⟩

end Quotes

end Writing
