import Mathlib.Data.List.AList

/-! Hashes: finite maps whose entries are set, deleted and counted. -/
namespace Relational

variable {κ ρ : Type} [DecidableEq κ]

abbrev Hash (κ ρ : Type) : Type := AList fun _ : κ => ρ

namespace Hash

/-- The number of entries that satisfy a condition. -/
def count (h : Hash κ ρ) (p : κ → ρ → Bool) : Nat := h.entries.countP fun e => p e.1 e.2

variable {h : Hash κ ρ} {p q : κ → ρ → Bool} {k : κ} {r : ρ}

theorem lookup_insert {l : κ} :
    (h.insert k r).lookup l = if k = l then some r else h.lookup l := by
  by_cases hk : k = l
  · subst hk
    simp
  · simp [hk, AList.lookup_insert_ne (Ne.symm hk)]

theorem lookup_erase {l : κ} : (h.erase k).lookup l = if k = l then none else h.lookup l := by
  by_cases hk : k = l
  · subst hk
    simp
  · simp [hk, AList.lookup_erase_ne (Ne.symm hk)]

theorem mem_entries : (⟨k, r⟩ : Sigma fun _ : κ => ρ) ∈ h.entries ↔ h.lookup k = some r :=
  (List.mem_dlookup_iff h.nodupKeys).symm

theorem not_mem_of_lookup (hk : h.lookup k = none) : k ∉ h := AList.lookup_eq_none.mp hk

theorem count_insert (hk : h.lookup k = none) :
    count (h.insert k r) p = count h p + if p k r then 1 else 0 := by
  rw [count, AList.entries_insert_of_notMem (not_mem_of_lookup hk), List.countP_cons]
  rfl

theorem count_erase (hk : h.lookup k = some r) :
    count (h.erase k) p + (if p k r then 1 else 0) = count h p := by
  have hmem : k ∈ h.entries.keys := AList.lookup_isSome.mp (by simp [hk])
  obtain ⟨r', l₁, l₂, -, hl, hk'⟩ := List.exists_of_kerase hmem
  have hr : (⟨k, r'⟩ : Sigma fun _ : κ => ρ) ∈ h.entries := by simp [hl]
  have hrr : r' = r := by
    have := mem_entries.mp hr
    rw [hk] at this
    exact (Option.some.inj this).symm
  subst hrr
  change (List.kerase k h.entries).countP _ + _ = h.entries.countP _
  rw [hk', hl, List.countP_append, List.countP_append, List.countP_cons]
  dsimp only
  omega

theorem erase_of_lookup (hk : h.lookup k = none) : h.erase k = h :=
  AList.ext (List.kerase_of_notMem_keys (not_mem_of_lookup hk))

theorem count_congr (hpq : ∀ k r, h.lookup k = some r → p k r = q k r) : count h p = count h q := by
  refine List.countP_congr ?_
  intro e he
  rw [hpq e.1 e.2 (mem_entries.mp he)]

theorem count_le (hpq : ∀ k r, h.lookup k = some r → p k r = true → q k r = true) :
    count h p ≤ count h q := by
  refine List.countP_mono_left ?_
  intro e he hp
  exact hpq e.1 e.2 (mem_entries.mp he) hp

theorem count_pos (hk : h.lookup k = some r) (hp : p k r = true) : 0 < count h p := by
  refine List.countP_pos_iff.mpr ⟨⟨k, r⟩, mem_entries.mpr hk, hp⟩

theorem count_ext {g : Hash κ ρ} (hgh : ∀ k, g.lookup k = h.lookup k) : count g p = count h p := by
  refine (List.lookup_ext g.nodupKeys h.nodupKeys ?_).countP_eq _
  intro k r
  exact iff_of_eq (congrArg (r ∈ ·) (hgh k))

section Both

variable {τ : Type} {h' : Hash κ τ} {u : τ} {p : ρ → Bool}

/-- The number of entries whose key another hash has as well. -/
def both (h : Hash κ ρ) (h' : Hash κ τ) (p : ρ → Bool) : Nat :=
  count h fun k r => p r && (h'.lookup k).isSome

/-- The counted keys are among any keys that satisfy what the counted ones do. -/
theorem both_le {ks : List κ} {f : κ → Bool}
    (hks : ∀ k r, h.lookup k = some r → p r = true → (h'.lookup k).isSome = true → k ∈ ks ∧ f k = true) :
    both h h' p ≤ ks.countP f := by
  have hnodup : ((h.entries.filter fun e => p e.2 && (h'.lookup e.1).isSome).map Sigma.fst).Nodup := by
    refine (List.Sublist.map _ List.filter_sublist).nodup ?_
    exact h.nodupKeys
  have hsub : (h.entries.filter fun e => p e.2 && (h'.lookup e.1).isSome).map Sigma.fst ⊆
      ks.filter f := by
    intro k hk
    obtain ⟨⟨k, r⟩, hmem, rfl⟩ := List.mem_map.mp hk
    obtain ⟨he, hp⟩ := List.mem_filter.mp hmem
    obtain ⟨hp, hk'⟩ := Bool.and_eq_true_iff.mp hp
    obtain ⟨hin, hf⟩ := hks k r (mem_entries.mp he) hp hk'
    exact List.mem_filter.mpr ⟨hin, hf⟩
  have hlen := (List.subperm_of_subset hnodup hsub).length_le
  simpa [both, count, List.countP_eq_length_filter] using hlen

theorem both_insert (hk : h.lookup k = none) :
    both (h.insert k r) (h'.insert k u) p = both h h' p + if p r then 1 else 0 := by
  have hcongr : count h (fun j r => p r && ((h'.insert k u).lookup j).isSome) = both h h' p := by
    refine count_congr ?_
    intro j q hj
    have hne : k ≠ j := by
      rintro rfl
      simp [hk] at hj
    simp [lookup_insert, hne]
  rw [both, count_insert hk, hcongr]
  simp

/-- Away from one key, only the entries at the other keys count. -/
theorem both_erase (h : Hash κ ρ) (h' : Hash κ τ) (p : ρ → Bool) (k : κ) : both (h.erase k) h' p +
    (if (h.lookup k).any p && (h'.lookup k).isSome then 1 else 0) = both h h' p := by
  cases hk : h.lookup k with
  | none => simp [erase_of_lookup hk]
  | some r => simpa [both] using count_erase (p := fun k r => p r && (h'.lookup k).isSome) hk

theorem both_drop {g : Hash κ ρ} {g' : Hash κ τ} (hg : ∀ j, j ≠ k → g.lookup j = h.lookup j)
    (hg' : ∀ j, j ≠ k → g'.lookup j = h'.lookup j) (hgone : g.lookup k = none ∨ g'.lookup k = none) :
    both g g' p + (if (h.lookup k).any p && (h'.lookup k).isSome then 1 else 0) = both h h' p := by
  have herase : both (g.erase k) g' p = both (h.erase k) h' p := by
    calc both (g.erase k) g' p
        = both (g.erase k) h' p := by
          refine count_congr ?_
          intro j r hj
          have hne : j ≠ k := by
            rintro rfl
            simp at hj
          rw [hg' j hne]
      _ = both (h.erase k) h' p := by
          refine count_ext ?_
          intro j
          rw [lookup_erase, lookup_erase]
          split
          · rfl
          · rename_i hne
            exact hg j (Ne.symm hne)
  have hsame := both_erase g g' p k
  have hnone : ((g.lookup k).any p && (g'.lookup k).isSome) = false := by
    rcases hgone with he | he <;> simp [he]
  rw [hnone] at hsame
  have hfull := both_erase h h' p k
  simp only [Bool.false_eq_true, if_false, Nat.add_zero] at hsame
  omega

end Both

end Hash

end Relational
