import Pybus.Settlement

/-! How a flush of the batch buffers moves the ledger of a claim: of one it takes itself, and of any
other one. -/
namespace Pybus

open Value Texts Interaction Listener

variable {Obj : Type} [Texts] {R : Registry Obj} {A : Assumption Obj} {c : Nat}
  {g g' g₁ : Ledger Obj} {s s' s₁ : ListenerState} {k : Claim} {e : MessageEnvelope}
  {L : Listener Obj} {idly : Exc → Prop} {x : Option Exc} {ns : List Nat}

/-- A claim that came from no channel; if its copy was refused, its receipt is unacked and the
worker is about to stop. -/
def Quiet (g : Ledger Obj) (x : Option Exc) : Prop :=
  g.message = none ∧
    (g.refused = true → g.acks = 0 ∧ ∃ exc, x = some exc ∧ exc.stopsWorker = true)

/-- The claims with the numbers `ns` are fresh before and quiet afterwards, the others untouched. -/
def Within (c : Nat) (ns : List Nat) (g g' : Ledger Obj) (x : Option Exc) : Prop :=
  if c ∈ ns then Quiet g' x else g' = g

omit [Texts] in
theorem quiet_blank : Quiet ({} : Ledger Obj) x := ⟨rfl, by rintro ⟨⟩⟩

theorem Settled.quiet (h : Settled A c e k idly {} g' x) (hk : k.number = c) : Quiet g' x := by
  cases h with
  | idle hw => exact quiet_blank
  | undumped hd hs => exact quiet_blank
  | refused hf hs =>
    rw [Ledger.on_own hk]
    exact ⟨rfl, fun _ => ⟨rfl, _, rfl, Exc.stopsWorker_of_indeterminate hs⟩⟩
  | unacked hf hr hs =>
    rw [Ledger.on_own hk]
    exact ⟨rfl, by rintro ⟨⟩⟩
  | settled hx =>
    rw [Ledger.on_own hk, Ledger.settled]
    split
    · exact ⟨rfl, by rintro ⟨⟩⟩
    · exact ⟨rfl, by rintro ⟨⟩⟩

omit [Texts] in
/-- A claim that is quiet without an exception is so with any, as no copy of it was refused. -/
theorem Quiet.of_none (h : Quiet g none) : Quiet g x := by
  refine ⟨h.1, fun hr => ?_⟩
  obtain ⟨-, exc, hx, -⟩ := h.2 hr
  cases hx

omit [Texts] in
theorem Within.refl (h : c ∈ ns → g = {}) : Within c ns g g x := by
  unfold Within
  split
  · rename_i hc
    rw [h hc]
    exact quiet_blank
  · rfl

/-- One claim is settled, then the remaining ones are taken care of. -/
theorem Within.cons {n : Nat} (hn : n ∉ ns) (hfresh : c ∈ n :: ns → g = {})
    (h₁ : Settled A c e k idly g g₁ none) (hk : k.number = n)
    (h : Within c ns g₁ g' x) : Within c (n :: ns) g g' x := by
  unfold Within at h ⊢
  by_cases hcn : c = n
  · subst hcn
    rw [if_neg hn] at h
    rw [if_pos List.mem_cons_self, h]
    have hg : g = {} := hfresh List.mem_cons_self
    subst hg
    exact (h₁.quiet hk).of_none
  · have hg : g₁ = g := h₁.other fun he => hcn (by omega)
    by_cases hc : c ∈ ns
    · rw [if_pos (List.mem_cons_of_mem n hc)]
      rw [if_pos hc] at h
      exact h
    · rw [if_neg (by simp [hcn, hc])]
      rw [if_neg hc] at h
      rw [h, hg]

omit [Texts] in
/-- One claim is left alone, then the remaining ones are taken care of. -/
theorem Within.skip {n : Nat} (hn : n ∉ ns) (hfresh : c ∈ n :: ns → g = {})
    (h : Within c ns g g' x) : Within c (n :: ns) g g' x := by
  unfold Within at h ⊢
  by_cases hcn : c = n
  · subst hcn
    rw [if_neg hn] at h
    rw [if_pos List.mem_cons_self, h, hfresh List.mem_cons_self]
    exact quiet_blank
  · simp only [List.mem_cons, hcn, false_or]
    exact h

/-- One claim could not be settled. -/
theorem Within.head {n : Nat} (hfresh : c ∈ n :: ns → g = {})
    (h : Settled A c e k idly g g' x) (hk : k.number = n) : Within c (n :: ns) g g' x := by
  unfold Within
  by_cases hcn : c = n
  · subst hcn
    rw [if_pos List.mem_cons_self]
    have hg : g = {} := hfresh List.mem_cons_self
    subst hg
    exact h.quiet hk
  · have hg : g' = g := h.other fun he => hcn (by omega)
    split
    · rename_i hc
      rw [hg, hfresh hc]
      exact quiet_blank
    · exact hg

/-- What can be decoded can be looked up. -/
theorem hashable_of_decode {D : Dispatcher Obj} {m : Message Obj} (h : D.decode e = .ok m) :
    e.Hashable := by
  by_contra hn
  have := Registry.lookupKey_unhashable D.registry.messageClasses hn
  simp [Dispatcher.decode, Registry.messageClassFor, this, bind, Except.bind] at h

theorem decodeBatch_meets {buffer : String} (l : List (RawMessage × Nat))
    (hl : (l.map (·.2)).Nodup) (hfresh : c ∈ l.map (·.2) → g = {}) :
    (L.decodeBatch buffer l).Meets (accounting R A c) (fun g' s' r => s' = s ∧
      Within c (l.map (·.2)) g g' (raised r) ∧
      match r with
      | .ok batch => (batch.map (·.2.2.number)).Sublist (l.map (·.2)) ∧
          (∀ m ∈ batch, m.1.Valid ∧ m.1.Hashable) ∧
          (c ∈ batch.map (·.2.2.number) → g' = {})
      | .error exc => exc.stopsWorker = true) g s := by
  induction l generalizing g with
  | nil => exact ⟨rfl, rfl, List.Sublist.refl _, by simp, by simp⟩
  | cons m l ih =>
    obtain ⟨message, n⟩ := m
    rw [List.map_cons, List.nodup_cons] at hl
    obtain ⟨hn, hl⟩ := hl
    refine Action.meets_now_bind.mpr ⟨trivial, fun now _ => ?_⟩
    cases hd : ((MessageEnvelope.read now message.bytes).bind fun e =>
        (L.dispatcher.decode e).map fun event => (e, event)) with
    | ok m =>
      obtain ⟨e, event⟩ := m
      have hread : e.Valid ∧ e.Hashable := by
        cases hr : MessageEnvelope.read now message.bytes with
        | error exc => simp [hr, Except.bind] at hd
        | ok e₀ =>
          cases he : L.dispatcher.decode e₀ with
          | error exc => simp [hr, he, Except.bind, Except.map] at hd
          | ok event₀ =>
            simp only [hr, he, Except.bind, Except.map, Except.ok.injEq, Prod.mk.injEq] at hd
            rw [← hd.1]
            exact ⟨MessageEnvelope.read_valid hr, hashable_of_decode he⟩
      refine (ih hl fun hc => hfresh (List.mem_cons_of_mem n hc)).bind ?_ ?_
      · rintro g' s' batch ⟨rfl, hw, hsub, hall, hblank⟩
        refine ⟨rfl, Within.skip hn hfresh hw, hsub.cons_cons n, ?_, ?_⟩
        · rintro m (_ | ⟨_, hm⟩)
          · exact hread
          · exact hall m hm
        · intro hc
          rcases List.mem_cons.mp hc with rfl | hc
          · rw [Within, if_neg hn] at hw
            rw [hw]
            exact hfresh List.mem_cons_self
          · exact hblank hc
      · rintro g' s' exc ⟨rfl, hw, hexc⟩
        exact ⟨rfl, Within.skip hn hfresh hw, hexc⟩
    | error exc =>
      refine deadLetterUndecodable_meets.bind ?_ ?_
      · rintro g₁ s₁ ⟨⟩ ⟨rfl, poison, -, hs⟩
        have hfresh' : c ∈ l.map (·.2) → g₁ = {} := fun hc => by
          rw [hs.other fun he => hn (by rw [show n = c from he]; exact hc)]
          exact hfresh (List.mem_cons_of_mem n hc)
        refine (ih hl hfresh').mono ?_
        rintro g' s' r ⟨rfl, hw, hr⟩
        refine ⟨rfl, Within.cons hn hfresh hs rfl hw, ?_⟩
        cases r with
        | ok batch => exact ⟨hr.1.trans (List.sublist_cons_self n _), hr.2⟩
        | error exc => exact hr
      · rintro g' s' exc' ⟨rfl, poison, -, hs⟩
        exact ⟨rfl, Within.head hfresh hs rfl, hs.stops.resolve_right id⟩

theorem requeueBatch_meets {buffer : String} {maxRetries : Nat}
    (l : List (MessageEnvelope × Claim)) (hl : (l.map (·.2.number)).Nodup)
    (hread : ∀ m ∈ l, m.1.Valid ∧ m.1.Hashable) (hfresh : c ∈ l.map (·.2.number) → g = {}) :
    (L.requeueBatch buffer maxRetries l).Meets (accounting R A c) (fun g' s' r => s' = s ∧
      Within c (l.map (·.2.number)) g g' (raised r) ∧
      ∀ exc, raised r = some exc → exc.stopsWorker = true ∨ A.Sleepless) g s := by
  induction l generalizing g with
  | nil => exact ⟨rfl, rfl, by rintro _ ⟨⟩⟩
  | cons m l ih =>
    obtain ⟨e, k⟩ := m
    rw [List.map_cons, List.nodup_cons] at hl
    obtain ⟨hn, hl⟩ := hl
    obtain ⟨hv, hh⟩ := hread _ List.mem_cons_self
    have hrest : ∀ {g₁ : Ledger Obj} {idly : Exc → Prop}, Settled A c e k idly g g₁ none →
        (L.requeueBatch buffer maxRetries l).Meets (accounting R A c) (fun g' s' r => s' = s ∧
          Within c (k.number :: l.map (·.2.number)) g g' (raised r) ∧
          ∀ exc, raised r = some exc → exc.stopsWorker = true ∨ A.Sleepless) g₁ s := by
      intro g₁ idly hs
      refine (ih hl (fun m hm => hread m (List.mem_cons_of_mem _ hm)) fun hc => ?_).mono ?_
      · rw [hs.other fun he => hn (he ▸ hc)]
        exact hfresh (List.mem_cons_of_mem _ hc)
      · rintro g' s' r ⟨rfl, hw, hr⟩
        exact ⟨rfl, Within.cons hn hfresh hs rfl hw, hr⟩
    obtain ⟨n, hretries⟩ := retryCount_ok (L := L) hh
    refine Action.meets_lift_bind hretries (Routine.meets_ite.mpr ?_)
    split
    · refine (requeue_meets hv hh).bind ?_ ?_
      · rintro g₁ s₁ ⟨⟩ ⟨rfl, hs⟩
        refine (hrest hs).bind ?_ ?_
        · exact fun g' s' b h => ⟨h.1, h.2.1, by rintro _ ⟨⟩⟩
        · exact fun g' s' exc h => h
      · rintro g' s' exc ⟨rfl, hs⟩
        refine ⟨rfl, Within.head hfresh hs rfl, ?_⟩
        rintro _ ⟨⟩
        exact hs.stops
    · refine (deadLetter_meets (fun _ => A.Sleepless) hv hh).bind ?_ ?_
      · rintro g₁ s₁ ⟨⟩ ⟨rfl, hs⟩
        exact hrest hs
      · rintro g' s' exc ⟨rfl, hs⟩
        refine ⟨rfl, Within.head hfresh hs rfl, ?_⟩
        rintro _ ⟨⟩
        exact hs.stops

/-- A claim whose batch handler returned. -/
def Excused (R : Registry Obj) (g : Ledger Obj) : Prop :=
  g.BatchDone R ∧ g.message = none ∧ g.refused = false

omit [Texts] in
theorem Excused.confirmed {receipt : Option String} (ok : Bool) (h : Excused R g) :
    Excused R (if receipt.isSome then g.confirmed ok else g) := by
  split
  · exact h
  · exact h

omit [Texts] in
theorem Excused.quiet (h : Excused R g) : Quiet g x :=
  ⟨h.2.1, fun hr => by rw [h.2.2] at hr; cases hr⟩

/-- A batch whose handler returned excuses the acks of all its receipts. -/
theorem ackAll_meets (ks : List Claim) (hg : c ∈ ks.map (·.number) → Excused R g) :
    (ackAll ks).Meets (accounting R A c) (fun g' s' r => s' = s ∧
      (if c ∈ ks.map (·.number) then Excused R g' else g' = g) ∧
      ∀ exc, raised r = some exc → exc.stopsWorker = true) g s := by
  induction ks generalizing g with
  | nil => exact ⟨rfl, rfl, by rintro _ ⟨⟩⟩
  | cons k ks ih =>
    have hkeep : ∀ ok, (if c ∈ (k :: ks).map (·.number) then
        Excused R (g.on c k fun g => if k.receipt.isSome then g.confirmed ok else g)
        else g.on c k (fun g => if k.receipt.isSome then g.confirmed ok else g) = g) := by
      intro ok
      split
      · rename_i hc
        by_cases hk : k.number = c
        · rw [Ledger.on_own hk]
          exact (hg hc).confirmed ok
        · rw [Ledger.on_other hk]
          exact hg hc
      · rename_i hc
        exact Ledger.on_other fun hk => hc (by simp [hk])
    refine (ackClaim_meets fun hk => .inr (.inr (.inl (hg (by simp [hk])).1))).bind ?_ ?_
    · rintro g₁ s₁ ⟨⟩ ⟨rfl, rfl⟩
      have hk := hkeep true
      by_cases hc : c ∈ (k :: ks).map (·.number)
      · rw [if_pos hc] at hk
        refine (ih fun _ => hk).mono ?_
        rintro g' s' r ⟨rfl, h, hr⟩
        refine ⟨rfl, ?_, hr⟩
        rw [if_pos hc]
        split at h
        · exact h
        · rw [h]
          exact hk
      · rw [if_neg hc] at hk
        have hc' : c ∉ ks.map (·.number) := fun h => hc (by simp [h])
        refine (ih fun h => absurd h hc').mono ?_
        rintro g' s' r ⟨rfl, h, hr⟩
        rw [if_neg hc'] at h
        refine ⟨rfl, ?_, hr⟩
        rw [if_neg hc, h, hk]
    · rintro g' s' exc ⟨rfl, hi, -, hs, rfl⟩
      refine ⟨rfl, ?_, ?_⟩
      · have := hkeep false
        simp only [hs, if_true] at this
        exact this
      · rintro _ ⟨⟩
        exact Exc.stopsWorker_of_indeterminate hi

/-- What may escape a batch. -/
def Undue (A : Assumption Obj) (x : Option Exc) : Prop :=
  ∀ exc, x = some exc → exc.stopsWorker = true ∨ A.Sleepless

theorem flushFailed_meets {messageType : String} {h : Handler}
    (l : List (MessageEnvelope × Claim)) (hl : (l.map (·.2.number)).Nodup)
    (hread : ∀ m ∈ l, m.1.Valid ∧ m.1.Hashable) (hfresh : c ∈ l.map (·.2.number) → g = {}) :
    (L.flushFailed messageType h l).Meets (accounting R A c) (fun g' s' r =>
      s'.claims = s.claims ∧ Within c (l.map (·.2.number)) g g' (raised r) ∧
      Undue A (raised r)) g s := by
  refine (requeueBatch_meets l hl hread hfresh).bind ?_ ?_
  · rintro g' s' requeued ⟨rfl, hw, -⟩
    rw [Routine.meets_ite]
    split
    · exact ⟨trivial, fun now _ => ⟨rfl, hw, by rintro _ ⟨⟩⟩⟩
    · exact ⟨rfl, hw, by rintro _ ⟨⟩⟩
  · rintro g' s' exc ⟨rfl, hw, hr⟩
    exact ⟨rfl, hw, hr⟩

theorem flushEvents_meets {messageType t : String} {h : Handler}
    (batch : List (MessageEnvelope × Message Obj × Claim))
    (halone : R.handlersFor (.str "event") (.str t) = .ok [h])
    (hl : (batch.map (·.2.2.number)).Nodup) (hread : ∀ m ∈ batch, m.1.Valid ∧ m.1.Hashable)
    (hfresh : c ∈ batch.map (·.2.2.number) → g = {}) :
    (L.flushEvents messageType h batch).Meets (accounting R A c) (fun g' s' r =>
      s'.claims = s.claims ∧ Within c (batch.map (·.2.2.number)) g g' (raised r) ∧
      Undue A (raised r)) g s := by
  have hnumbers : (batch.map fun m => (m.1, m.2.2)).map (·.2.number) =
      batch.map (·.2.2.number) := by simp
  have hclaims : (batch.map (·.2.2)).map (·.number) = batch.map (·.2.2.number) := by simp
  refine Action.meets_failed_bind.mpr (Action.meets_attempt.mpr ⟨trivial, fun r _ => ?_⟩)
  dsimp only [id]
  cases r with
  | error exc =>
    have hfailed : (L.flushFailed messageType h (batch.map fun m => (m.1, m.2.2))).Meets
        (accounting R A c) _ g s := flushFailed_meets _ (by rwa [hnumbers])
      (fun m hm => by
        obtain ⟨m', hm', rfl⟩ := List.mem_map.mp hm
        exact hread m' hm') (by rwa [hnumbers])
    rwa [hnumbers] at hfailed
  | ok u =>
    have hg : (accounting R A c).next g (.batchHandler h (batch.map (·.2.1)) (batch.map (·.2.2)))
        (.ok u) = if c ∈ batch.map (·.2.2.number) then { g with batch := some h } else g := by
      rw [← hclaims]
      rfl
    simp only [raised_ok, Option.isSome_none, Bool.false_eq_true, if_false]
    refine (ackAll_meets _ ?_).bind ?_ ?_
    · intro hc
      rw [hclaims] at hc
      rw [hg, if_pos hc, hfresh hc]
      exact ⟨⟨h, t, rfl, halone⟩, rfl, rfl⟩
    · rintro g' s' ⟨⟩ ⟨rfl, hw, -⟩
      refine ⟨rfl, ?_, by rintro _ ⟨⟩⟩
      rw [hclaims, hg] at hw
      unfold Within
      split
      · rename_i hc
        rw [if_pos hc] at hw
        exact hw.quiet
      · rename_i hc
        rw [if_neg hc, if_neg hc] at hw
        exact hw
    · rintro g' s' exc ⟨rfl, hw, hr⟩
      refine ⟨rfl, ?_, fun exc' hexc => .inl (hr exc' hexc)⟩
      rw [hclaims, hg] at hw
      unfold Within
      split
      · rename_i hc
        rw [if_pos hc] at hw
        exact hw.quiet
      · rename_i hc
        rw [if_neg hc, if_neg hc] at hw
        exact hw

/-- What a flush does to the ledger of a claim. A claim that the flush did not take itself notices
nothing but a buffer that could not be looked into. -/
structure Flushed (A : Assumption Obj) (c : Nat) (g : Ledger Obj) (s : ListenerState)
    (g' : Ledger Obj) (s' : ListenerState) (x : Option Exc) : Prop where
  claims_le : s.claims ≤ s'.claims
  other : c < s.claims ∨ s'.claims ≤ c →
    g' = g ∧ Undue A x ∨ A.Shut ∧ ∃ exc, x = some exc ∧ g' = g.disturb exc
  batch : s.claims ≤ c → c < s'.claims → g = {} → Quiet g' x
  raises : Undue A x ∨ A.Shut

omit [Texts] in
theorem Flushed.refl : Flushed A c g s g s none where
  claims_le := Nat.le_refl _
  other _ := .inl ⟨rfl, by rintro _ ⟨⟩⟩
  batch h h' := absurd h' (Nat.not_lt.mpr h)
  raises := .inl (by rintro _ ⟨⟩)

omit [Texts] in
/-- Another listener state with as many claims does as well. -/
theorem Flushed.congr {t t' : ListenerState} (h : Flushed A c g s g' s' x)
    (ht : t.claims = s.claims) (ht' : t'.claims = s'.claims) : Flushed A c g t g' t' x where
  claims_le := by rw [ht, ht']; exact h.claims_le
  other := by rw [ht, ht']; exact h.other
  batch := by rw [ht, ht']; exact h.batch
  raises := h.raises

omit [Texts] in
theorem Flushed.trans (h₁ : Flushed A c g s g₁ s₁ none) (h₂ : Flushed A c g₁ s₁ g' s' x) :
    Flushed A c g s g' s' x where
  claims_le := h₁.claims_le.trans h₂.claims_le
  other hc := by
    have hsame : c < s.claims ∨ s₁.claims ≤ c → g₁ = g := fun h => by
      rcases h₁.other h with ⟨hg, -⟩ | ⟨-, exc, hx, -⟩
      · exact hg
      · cases hx
    have hle₁ := h₁.claims_le
    have hle₂ := h₂.claims_le
    rw [← hsame (by omega)]
    exact h₂.other (by omega)
  batch hc hc' hg := by
    by_cases hlt : c < s₁.claims
    · have hq := h₁.batch hc hlt hg
      rcases h₂.other (.inl hlt) with ⟨rfl, -⟩ | ⟨-, exc, rfl, rfl⟩
      · exact hq.of_none
      · exact hq.of_none
    · have hle : s₁.claims ≤ c := by omega
      refine h₂.batch hle hc' ?_
      rcases h₁.other (.inr hle) with ⟨hg₁, -⟩ | ⟨-, exc, hx, -⟩
      · rw [hg₁, hg]
      · cases hx
  raises := h₂.raises

omit [Texts] in
theorem Flushed.shut {exc : Exc} (h : A.Shut) : Flushed A c g s (g.disturb exc) s (some exc) where
  claims_le := Nat.le_refl _
  other _ := .inr ⟨h, exc, rfl, rfl⟩
  batch h h' := absurd h' (Nat.not_lt.mpr h)
  raises := .inr h

theorem flushBatch_meets {messageType : String} {h : Handler}
    (halone : R.handlersFor (.str "event") (.str messageType) = .ok [h])
    (hfresh : s.claims ≤ c → g = {}) :
    (L.flushBatch messageType h).Meets (accounting R A c)
      (fun g' s' r => Flushed A c g s g' s' (raised r)) g s := by
  refine Action.meets_own_bind.mpr ?_
  refine Action.meets_attempt_bind trivial ?_ ?_
  · rintro _ messages - rfl
    have hnumbers : (messages.zipIdx s.claims).map (·.2) =
        List.range' s.claims messages.length := List.zipIdx_map_snd _ _
    have hmem : c ∈ (messages.zipIdx s.claims).map (·.2) ↔
        s.claims ≤ c ∧ c < s.claims + messages.length := by
      rw [hnumbers, List.mem_range'_1]
    have hnodup : ((messages.zipIdx s.claims).map (·.2)).Nodup := by
      rw [hnumbers]
      exact List.nodup_range'
    -- every way out of the batch is one of these two
    have hend : ∀ {g' : Ledger Obj} {s' : ListenerState} {x : Option Exc} {ns : List Nat},
        s'.claims = (s.claimed messages.length).claims → ns = (messages.zipIdx s.claims).map (·.2) →
        Within c ns g g' x → Undue A x → Flushed A c g s g' s' x := by
      rintro g' s' x ns hs rfl hw hx
      have hs' : s'.claims = s.claims + messages.length := hs
      refine ⟨by omega, fun hc => .inl ⟨?_, hx⟩, fun hc hc' _ => ?_, .inl hx⟩
      · rw [Within, if_neg (by rw [hmem]; omega)] at hw
        exact hw
      · rw [Within, if_pos (hmem.mpr ⟨hc, by omega⟩)] at hw
        exact hw
    have hblank : c ∈ (messages.zipIdx s.claims).map (·.2) → g = {} := fun hc =>
      hfresh (hmem.mp hc).1
    refine Action.meets_update_bind.mpr ?_
    rw [Routine.meets_ite]
    split
    · refine hend rfl rfl ?_ (by rintro _ ⟨⟩)
      exact Within.refl hblank
    · refine (decodeBatch_meets _ hnodup hblank).bind ?_ ?_
      · rintro g' s' batch ⟨rfl, hw, hsub, hread, hbatch⟩
        rw [Routine.meets_ite]
        split
        · exact hend rfl rfl hw (by rintro _ ⟨⟩)
        · refine (flushEvents_meets batch halone (hnodup.sublist hsub) hread hbatch).mono ?_
          rintro g₂ s₂ r ⟨hs, hw₂, hx⟩
          refine hend hs rfl ?_ hx
          unfold Within at hw hw₂ ⊢
          by_cases hc : c ∈ (messages.zipIdx s.claims).map (·.2)
          · rw [if_pos hc] at hw ⊢
            split at hw₂
            · exact hw₂
            · rw [hw₂]
              exact hw.of_none
          · rw [if_neg hc] at hw ⊢
            rw [if_neg fun h => hc (hsub.subset h)] at hw₂
            rw [hw₂, hw]
      · rintro g' s' exc ⟨rfl, hw, hexc⟩
        refine hend rfl rfl hw ?_
        rintro _ ⟨⟩
        exact .inl hexc
  · rintro _ exc hr rfl
    exact Flushed.shut (.inr ⟨_, _, _, exc, hr⟩)

theorem batchInBackoff_meets {messageType : String} :
    (batchInBackoff messageType : Action Obj Bool).Meets (accounting R A c)
      (fun g' s' r => s' = s ∧ g' = g ∧ ∃ b, r = .ok b) g s := by
  refine Action.meets_own_bind.mpr ?_
  cases s.batchRetryAfter.lookup messageType with
  | none => exact ⟨rfl, rfl, _, rfl⟩
  | some retryAt => exact Action.meets_now_bind.mpr ⟨trivial, fun now _ => ⟨rfl, rfl, _, rfl⟩⟩

theorem batchReady_meets {spec : HandlerSpec} {size : Nat} {startedAt : Instant} :
    (batchReady spec size startedAt : Action Obj Bool).Meets (accounting R A c)
      (fun g' s' r => s' = s ∧ g' = g ∧ ∃ b, r = .ok b) g s := by
  refine Routine.meets_ite.mpr ?_
  split
  · exact ⟨rfl, rfl, _, rfl⟩
  · exact Action.meets_now_bind.mpr ⟨trivial, fun now _ => ⟨rfl, rfl, _, rfl⟩⟩

theorem flushBuffer_meets {messageType : String} {h : Handler}
    (halone : R.handlersFor (.str "event") (.str messageType) = .ok [h])
    (hfresh : s.claims ≤ c → g = {}) :
    (L.flushBuffer messageType h).Meets (accounting R A c)
      (fun g' s' r => Flushed A c g s g' s' (raised r)) g s := by
  refine Action.meets_attempt_bind trivial ?_ ?_
  · rintro _ size - rfl
    rw [Routine.meets_ite]
    split
    · exact Flushed.refl.congr rfl rfl
    · refine Action.meets_now_bind.mpr ⟨trivial, fun now _ => ?_⟩
      refine Action.meets_own_bind.mpr (Action.meets_update_bind.mpr ?_)
      refine batchReady_meets.looks fun ready => ?_
      rw [Action.meets_when]
      split
      · refine (flushBatch_meets (s := s.started messageType _) halone hfresh).mono ?_
        exact fun g' s' r hf => hf.congr rfl rfl
      · exact Flushed.refl.congr rfl rfl
  · rintro _ exc hr rfl
    exact Flushed.shut (.inl ⟨_, exc, hr⟩)

theorem flushIfReady_meets {messageType : String} {h : Handler}
    (halone : h.spec.isBatched = true →
      R.handlersFor (.str "event") (.str messageType) = .ok [h])
    (hfresh : s.claims ≤ c → g = {}) :
    (L.flushIfReady messageType h).Meets (accounting R A c)
      (fun g' s' r => Flushed A c g s g' s' (raised r)) g s := by
  rw [flushIfReady, Action.meets_when]
  split
  · rename_i hb
    refine batchInBackoff_meets.looks fun backoff => ?_
    rw [Action.meets_when]
    split
    · exact flushBuffer_meets (halone hb) hfresh
    · exact Flushed.refl
  · exact Flushed.refl

omit [Texts] in
/-- A claim that is fresh before a flush is so after it, unless the flush took it. -/
theorem Flushed.fresh (h : Flushed A c g s g' s' none) (hfresh : s.claims ≤ c → g = {}) :
    s'.claims ≤ c → g' = {} := by
  intro hc
  rcases h.other (.inr hc) with ⟨rfl, -⟩ | ⟨-, exc, hx, -⟩
  · exact hfresh (h.claims_le.trans hc)
  · cases hx

omit [Texts] in
/-- A flush leaves a quiet claim quiet. -/
theorem Flushed.quiet (h : Flushed A c g s g' s' x) (hq : Quiet g none)
    (hfresh : s.claims ≤ c → g = {}) : Quiet g' x := by
  have hother : c < s.claims ∨ s'.claims ≤ c → Quiet g' x := by
    intro hc
    rcases h.other hc with ⟨rfl, -⟩ | ⟨-, exc, -, rfl⟩
    · exact hq.of_none
    · exact hq.of_none
  rcases Nat.lt_or_ge c s.claims with hc | hc
  · exact hother (.inl hc)
  · rcases Nat.lt_or_ge c s'.claims with hc' | hc'
    · exact h.batch hc hc' (hfresh hc)
    · exact hother (.inr hc')

theorem flushHandlers_meets {messageType : String} (hs : List Handler)
    (halone : ∀ h ∈ hs, h.spec.isBatched = true →
      R.handlersFor (.str "event") (.str messageType) = .ok [h])
    (hfresh : s.claims ≤ c → g = {}) :
    (L.flushHandlers messageType hs).Meets (accounting R A c)
      (fun g' s' r => Flushed A c g s g' s' (raised r)) g s := by
  induction hs generalizing g s with
  | nil => exact Flushed.refl
  | cons h hs ih =>
    refine (flushIfReady_meets (halone h List.mem_cons_self) hfresh).bind ?_ ?_
    · intro g₁ s₁ _ h₁
      refine (ih (fun h hh => halone h (List.mem_cons_of_mem _ hh)) (h₁.fresh hfresh)).mono ?_
      exact fun g' s' r h₂ => h₁.trans h₂
    · exact fun g' s' exc h => h

theorem flushItems_meets (items : List (MessageKey × List Handler))
    (hitems : ∀ item ∈ items, item ∈ R.items) (hfresh : s.claims ≤ c → g = {}) :
    (L.flushItems items).Meets (accounting R A c)
      (fun g' s' r => Flushed A c g s g' s' (raised r)) g s := by
  induction items generalizing g s with
  | nil => exact Flushed.refl
  | cons item items ih =>
    obtain ⟨⟨kind, messageType⟩, hs⟩ := item
    refine Routine.Meets.bind (Q := fun g' s' r => Flushed A c g s g' s' (raised r)) ?_ ?_ ?_
    · rw [Action.meets_when]
      split
      · rename_i hkind
        obtain rfl := of_decide_eq_true hkind
        have hitem := hitems _ List.mem_cons_self
        refine flushHandlers_meets hs (fun h hh hb => ?_) hfresh
        rw [Registry.handlersFor_of_mem hitem, Registry.eq_singleton_of_batched hitem hh hb]
      · exact Flushed.refl
    · intro g₁ s₁ _ h₁
      refine (ih (fun item h => hitems item (List.mem_cons_of_mem _ h)) (h₁.fresh hfresh)).mono ?_
      exact fun g' s' r h₂ => h₁.trans h₂
    · exact fun g' s' exc h => h

theorem flushReadyBatches_meets (hfresh : s.claims ≤ c → g = {}) :
    L.flushReadyBatches.Meets (accounting L.dispatcher.registry A c)
      (fun g' s' r => Flushed A c g s g' s' (raised r)) g s := by
  rw [flushReadyBatches, Action.meets_when]
  split
  · exact flushItems_meets _ (fun _ h => h) hfresh
  · exact Flushed.refl

end Pybus
