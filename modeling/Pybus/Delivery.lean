import Pybus.Batches

/-! How a delivery moves the ledger of its claim, from the first handler to the last ack. -/
namespace Pybus

open Value Texts Interaction Listener

variable {Obj : Type} [Texts] {R : Registry Obj} {A : Assumption Obj} {c : Nat}
  {g g' g₁ : Ledger Obj} {s s' s₁ : ListenerState} {k : Claim} {e : MessageEnvelope}
  {L : Listener Obj} {channel : String} {durable : Bool} {x : Option Exc} {h : Handler}
  {hs : List Handler} {message : Message Obj}

namespace Ledger

/-- Several handlers returned. -/
def collected (g : Ledger Obj) (e : MessageEnvelope) (l : List (Handler × HandlerResult Obj)) :
    Ledger Obj :=
  { g with returned := g.returned ++ l.map fun x => (x.1, e, x.2) }

def success (g : Ledger Obj) : Ledger Obj := { g with recorded := true }

def kept (g : Ledger Obj) : Ledger Obj := { g with unreleased := true }

def drop (g : Ledger Obj) : Ledger Obj := { g with dropped := true }

omit [Texts] in
theorem collected_nil : g.collected e [] = g := by simp [collected]

omit [Texts] in
theorem handled_collected {result : HandlerResult Obj} {l : List (Handler × HandlerResult Obj)} :
    (g.handled h e result).collected e l = g.collected e ((h, result) :: l) := by
  simp [collected, handled]

end Ledger

/-- A result that the loop over the handlers collects. -/
def Accepted (e : MessageEnvelope) (durable : Bool) (result : HandlerResult Obj) : Prop :=
  result.isPlain = true ∨ result.isRecurrence = true ∧ e.messageKind = .str "command" ∧
    durable = true

/-- A loop over handlers that was left before all of them returned plainly. -/
def Interrupted (hs : List Handler) (l : List (Handler × HandlerResult Obj)) : Prop :=
  l.length ≤ hs.length ∧ (l.length = hs.length → ∃ y ∈ l, y.2.isPlain = false)

/-- The exceptions that leave a claim to be settled by `listen_once`. -/
def Ordinary (A : Assumption Obj) (exc : Exc) : Prop := exc.stopsWorker = true → A.Sleepless

theorem shouldDelay_meets {spec : HandlerSpec} (hh : e.Hashable) :
    (L.shouldDelay e spec).Meets (accounting R A c)
      (fun g' s' r => s' = s ∧ g' = g ∧ ∃ b, r = .ok b) g s := by
  obtain ⟨typed, ht⟩ := isTyped_ok (L := L) hh
  unfold shouldDelay
  split
  · exact ⟨rfl, rfl, _, rfl⟩
  · refine Action.meets_lift_bind ht ?_
    split
    · exact ⟨rfl, rfl, _, rfl⟩
    · exact Action.meets_now_bind.mpr ⟨trivial, fun now _ => ⟨rfl, rfl, _, rfl⟩⟩

/-- The ledger when a handler has been called: its result is entered, if it returned. -/
def Tried (c : Nat) (e : MessageEnvelope) (k : Claim) (h : Handler) (g g₁ : Ledger Obj) : Prop :=
  g₁ = g ∨ ∃ result, result.isPlain = false ∧ g₁ = g.on c k (·.handled h e result)

theorem callHandler_meets : (callHandler h message e k).Meets (accounting R A c)
    (fun g' s' r => s' = s ∧
      ((r = .ok none ∧ g' = g) ∨
        ∃ result, r = .ok (some result) ∧ g' = g.on c k (·.handled h e result))) g s := by
  rw [callHandler, Routine.meets_tryCatch]
  refine Action.meets_attempt_bind trivial ?_ ?_
  · rintro _ result - rfl
    exact ⟨rfl, .inr ⟨result, rfl, rfl⟩⟩
  · rintro _ exc - rfl
    exact ⟨rfl, .inl ⟨rfl, rfl⟩⟩

/-- What one round of the loop over the handlers leaves: a collected result, or a claim that had
to be settled. -/
def Ran (A : Assumption Obj) (c : Nat) (e : MessageEnvelope) (durable : Bool) (k : Claim)
    (h : Handler) (g g' : Ledger Obj) (r : Except Exc (Option (HandlerResult Obj))) : Prop :=
  (∃ result, r = .ok (some result) ∧ Accepted e durable result ∧
    g' = g.on c k (·.handled h e result)) ∨
  (∀ y, r ≠ .ok (some y)) ∧
    ∃ g₁, Tried c e k h g g₁ ∧ Settled A c e k (Ordinary A) g₁ g' (raised r)

theorem runHandler_meets (hv : e.Valid) (hh : e.Hashable) :
    (L.runHandler channel e message durable k h).Meets (accounting R A c)
      (fun g' s' r => s' = s ∧ Ran A c e durable k h g g' r) g s := by
  have hfailed : ∀ g₁, Tried c e k h g g₁ → ((do
      L.handleFailedDelivery channel e h.spec k
      return none : Action Obj (Option (HandlerResult Obj)))).Meets (accounting R A c)
      (fun g' s' r => s' = s ∧ Ran A c e durable k h g g' r) g₁ s := by
    intro g₁ ht
    refine (handleFailedDelivery_meets hv hh).bind ?_ ?_
    · rintro g' s' ⟨⟩ ⟨rfl, hs⟩
      exact ⟨rfl, .inr ⟨by rintro y ⟨⟩, g₁, ht, hs.mono fun exc h _ => h⟩⟩
    · rintro g' s' exc ⟨rfl, hs⟩
      exact ⟨rfl, .inr ⟨by rintro y ⟨⟩, g₁, ht, hs.mono fun exc h _ => h⟩⟩
  have hcollected : ∀ result : HandlerResult Obj, (result.isPlain || result.isRecurrence) = true →
      (if misplaced result e durable then do
          L.handleFailedDelivery channel e h.spec k
          return none
        else return some result : Action Obj (Option (HandlerResult Obj))).Meets
        (accounting R A c) (fun g' s' r => s' = s ∧ Ran A c e durable k h g g' r)
        (g.on c k (·.handled h e result)) s := by
    intro result hresult
    rw [Routine.meets_ite]
    split
    · rename_i hm
      refine hfailed _ (.inr ⟨result, ?_, rfl⟩)
      cases result <;> first | rfl | cases hm
    · rename_i hm
      refine ⟨rfl, .inl ⟨result, rfl, ?_, rfl⟩⟩
      rcases Bool.or_eq_true_iff.mp hresult with hp | hr
      · exact .inl hp
      · refine .inr ⟨hr, ?_⟩
        simpa [misplaced, hr] using hm
  refine (shouldDelay_meets hh).looks fun delayed => ?_
  refine Routine.Meets.looks ?_ fun _ => ?_
  · rw [Action.meets_when]
    split
    · exact ⟨trivial, fun r _ => ⟨rfl, rfl, _, rfl⟩⟩
    · exact ⟨rfl, rfl, _, rfl⟩
  · refine callHandler_meets.bind ?_ ?_
    · rintro g' s' answer ⟨rfl, ⟨hr, rfl⟩ | ⟨result, hr, rfl⟩⟩
      · cases hr
        exact hfailed _ (.inl rfl)
      · cases hr
        cases result with
        | continueProcessing continuation =>
          have ht : Tried c e k h g (g.on c k (·.handled h e (.continueProcessing continuation))) :=
            .inr ⟨_, rfl, rfl⟩
          refine (continueProcessing_meets hv hh).bind ?_ ?_
          · rintro g' s' ⟨⟩ ⟨rfl, hs⟩
            exact ⟨rfl, .inr ⟨by rintro y ⟨⟩, _, ht, hs⟩⟩
          · rintro g' s' exc ⟨rfl, hs⟩
            exact ⟨rfl, .inr ⟨by rintro y ⟨⟩, _, ht, hs⟩⟩
        | _ => exact hcollected _ rfl
    · rintro g' s' exc ⟨-, ⟨hr, -⟩ | ⟨result, hr, -⟩⟩
      · cases hr
      · cases hr

/-- What the loop over the handlers leaves: all their results, or a claim that had to be settled
before all of them returned plainly. -/
def RanAll (A : Assumption Obj) (c : Nat) (e : MessageEnvelope) (durable : Bool) (k : Claim)
    (hs : List Handler) (g g' : Ledger Obj)
    (r : Except Exc (Option (List (HandlerResult Obj)))) : Prop :=
  (∃ results, r = .ok (some results) ∧ results.length = hs.length ∧
    (∀ result ∈ results, Accepted e durable result) ∧
    g' = g.on c k (·.collected e (hs.zip results))) ∨
  (∀ y, r ≠ .ok (some y)) ∧
    ∃ l, Interrupted hs l ∧
      Settled A c e k (Ordinary A) (g.on c k (·.collected e l)) g' (raised r)

omit [Texts] in
theorem Interrupted.cons {l : List (Handler × HandlerResult Obj)} (hl : Interrupted hs l)
    (y : Handler × HandlerResult Obj) : Interrupted (h :: hs) (y :: l) := by
  refine ⟨Nat.succ_le_succ hl.1, fun hlen => ?_⟩
  obtain ⟨z, hz, hp⟩ := hl.2 (by simpa using hlen)
  exact ⟨z, List.mem_cons_of_mem y hz, hp⟩

omit [Texts] in
/-- The loop stops at the first handler whose round does not collect a result. -/
theorem Tried.interrupted (ht : Tried c e k h g g₁) (hs : List Handler) :
    ∃ l, Interrupted (h :: hs) l ∧ g₁ = g.on c k (·.collected e l) := by
  rcases ht with rfl | ⟨result, hp, rfl⟩
  · refine ⟨[], ⟨Nat.zero_le _, ?_⟩, (Ledger.on_id fun _ => Ledger.collected_nil).symm⟩
    rintro ⟨⟩
  · refine ⟨[(h, result)], ⟨?_, fun _ => ⟨_, List.mem_cons_self, hp⟩⟩, rfl⟩
    simp

theorem runHandlers_meets (hv : e.Valid) (hh : e.Hashable) (hs : List Handler) :
    (L.runHandlers channel e message durable k hs).Meets (accounting R A c)
      (fun g' s' r => s' = s ∧ RanAll A c e durable k hs g g' r) g s := by
  induction hs generalizing g with
  | nil =>
    refine ⟨rfl, .inl ⟨[], rfl, rfl, by simp, ?_⟩⟩
    exact (Ledger.on_id fun _ => Ledger.collected_nil).symm
  | cons h hs ih =>
    refine (runHandler_meets hv hh).bind ?_ ?_
    · rintro g₁ s₁ answer ⟨rfl, ⟨result, hr, hacc, rfl⟩ | ⟨hr, g₂, ht, hsettled⟩⟩
      · cases hr
        have hcons : ∀ l : List (Handler × HandlerResult Obj),
            (g.on c k (·.handled h e result)).on c k (·.collected e l) =
              g.on c k (·.collected e ((h, result) :: l)) := by
          intro l
          rw [Ledger.on_on]
          simp only [Ledger.handled_collected]
        refine ih.bind ?_ ?_
        · rintro g' s' rest ⟨rfl, ⟨results, hr, hlen, hall, rfl⟩ | ⟨hr, l, hl, hsettled⟩⟩
          · cases hr
            refine ⟨rfl, .inl ⟨result :: results, rfl, by simp [hlen], ?_, hcons _⟩⟩
            rintro y (_ | ⟨_, hy⟩)
            · exact hacc
            · exact hall y hy
          · cases rest with
            | some results => exact absurd rfl (hr results)
            | none =>
              rw [hcons] at hsettled
              exact ⟨rfl, .inr ⟨by rintro y ⟨⟩, _, hl.cons _, hsettled⟩⟩
        · rintro g' s' exc ⟨rfl, ⟨results, hr, -⟩ | ⟨-, l, hl, hsettled⟩⟩
          · cases hr
          · rw [hcons] at hsettled
            exact ⟨rfl, .inr ⟨by rintro y ⟨⟩, _, hl.cons _, hsettled⟩⟩
      · cases answer with
        | some result => exact absurd rfl (hr result)
        | none =>
          obtain ⟨l, hl, rfl⟩ := ht.interrupted hs
          exact ⟨rfl, .inr ⟨by rintro y ⟨⟩, l, hl, hsettled⟩⟩
    · rintro g' s' exc ⟨rfl, ⟨result, hr, -⟩ | ⟨-, g₂, ht, hsettled⟩⟩
      · cases hr
      · obtain ⟨l, hl, rfl⟩ := ht.interrupted hs
        exact ⟨rfl, .inr ⟨by rintro y ⟨⟩, l, hl, hsettled⟩⟩

/-- An admission that could not be released. -/
def Unreleased (c : Nat) (k : Claim) (g g' : Ledger Obj) (x : Option Exc) : Prop :=
  g' = g.on c k (·.kept) ∧ ∃ exc, x = some exc ∧ exc.isIndeterminate = true

theorem release_meets {conf : DurableConfiguration} (hid : ∃ i, DurableJobController.identity e = .ok (some i)) :
    (release conf e k).Meets (accounting R A c) (fun g' s' r => s' = s ∧
      match r with
      | .ok _ => g' = g
      | .error _ => g' = g.on c k (·.kept)) g s := by
  obtain ⟨⟨recordId, generation⟩, hid⟩ := hid
  refine Action.meets_lift_bind hid ?_
  refine Action.meets_now_bind.mpr ⟨trivial, fun now _ => ⟨trivial, fun r _ => ?_⟩⟩
  cases r with
  | ok u => exact ⟨rfl, next_store fun _ => rfl⟩
  | error exc => exact ⟨rfl, rfl⟩

theorem giveBack_meets (hv : e.Valid)
    (hid : durable = true → ∃ i, DurableJobController.identity e = .ok (some i)) :
    (L.giveBack channel e durable k).Meets (accounting R A c) (fun g' s' r => s' = s ∧
      ∃ exc, r = .error exc ∧
        (Settled A c e k Never g g' (some exc) ∨ Unreleased c k g g' (some exc))) g s := by
  have hrestore : (restoreClaimedCommandAndAbort channel e
      "command delivery start observation failed" .deliveryObservation k : Action Obj Unit).Meets
      (accounting R A c) (fun g' s' r => s' = s ∧ ∃ exc, r = .error exc ∧
        (Settled A c e k Never g g' (some exc) ∨ Unreleased c k g g' (some exc))) g s := by
    refine (restore_meets _ hv fun _ => rfl).mono ?_
    rintro g' s' r ⟨rfl, exc, rfl, hs⟩
    exact ⟨rfl, exc, rfl, .inl hs⟩
  unfold giveBack
  split
  · rename_i conf hdurable _
    refine Routine.Meets.bind (Q := fun g' s' r => s' = s ∧
      match r with
      | .ok _ => g' = g
      | .error exc => g' = g.on c k (·.kept) ∧ exc.isIndeterminate = true) ?_ ?_ ?_
    · refine (release_meets (hid rfl)).tryCatch ?_ ?_
      · exact fun g' s' u h => h
      · rintro g' s' exc ⟨rfl, rfl⟩
        exact ⟨rfl, rfl, rfl⟩
    · rintro g' s' ⟨⟩ ⟨rfl, rfl⟩
      exact hrestore
    · rintro g' s' exc ⟨rfl, hg, hi⟩
      exact ⟨rfl, exc, rfl, .inr ⟨hg, exc, rfl, hi⟩⟩
  · exact hrestore

theorem announceStart_meets {maxRetries : Nat} (hv : e.Valid) (hh : e.Hashable)
    (hid : durable = true → ∃ i, DurableJobController.identity e = .ok (some i)) :
    (L.announceStart channel e hs durable maxRetries k).Meets (accounting R A c)
      (fun g' s' r => s' = s ∧
        match r with
        | .ok _ => g' = g
        | .error exc =>
          Settled A c e k Never g g' (some exc) ∨ Unreleased c k g g' (some exc)) g s := by
  obtain ⟨n, hn⟩ := retryCount_ok (L := L) hh
  rw [announceStart, Routine.meets_ite]
  split
  · refine (restore_meets _ hv fun _ => rfl).mono ?_
    rintro g' s' r ⟨rfl, exc, rfl, hs⟩
    exact ⟨rfl, .inl hs⟩
  · refine Action.meets_lift_bind hn ?_
    refine (notify_meets (.inl (by decide))).tryCatch ?_ ?_
    · rintro g' s' ⟨⟩ ⟨rfl, -, rfl⟩
      refine ⟨rfl, ?_⟩
      simp only [Ledger.observed_started]
      rw [Ledger.on_id fun _ => rfl, ite_self]
    · rintro g' s' exc ⟨rfl, hexc, rfl⟩
      obtain ⟨m, rfl⟩ := hexc exc rfl
      simp only [Ledger.observed_started]
      rw [Ledger.on_id fun _ => rfl, ite_self]
      refine (giveBack_meets hv hid).mono ?_
      rintro g' s' r ⟨rfl, exc, rfl, hg⟩
      exact ⟨rfl, hg⟩

/-- The outcome of a durable success that the store took over. -/
theorem applySuccess_meets {conf : DurableConfiguration} {outcome : CommandDeliveryOutcome}
    (hs : outcome.status = .succeeded) (hid : outcome.durableRecordId.isSome = true) :
    (applyOutcome conf outcome k).Meets (accounting R A c) (fun g' s' r => s' = s ∧
      match r with
      | .ok _ => g' = g.on c k (·.success)
      | .error _ => g' = g) g s := by
  rw [applyOutcome, Action.meets_when, if_pos hid]
  refine Action.meets_now_bind.mpr ⟨trivial, fun now _ => ⟨trivial, fun r _ => ?_⟩⟩
  cases r with
  | ok u =>
    refine ⟨rfl, ?_⟩
    have hf : ∀ g : Ledger Obj, g.answered (.applyOutcome outcome
        (now + conf.policy.reconciliationDelay)) (.ok u) = g.success := by
      intro g
      simp [Ledger.answered, Ledger.success, hs]
    change g.on c k (·.answered _ _) = _
    simp only [hf]
  | error exc => exact ⟨rfl, next_store fun _ => rfl⟩

theorem completeSuccess_meets {conf : DurableConfiguration} {outcome : CommandDeliveryOutcome}
    {result : HandlerResult Obj} {completedAt : Instant} (hs : outcome.status = .succeeded)
    (hid : outcome.durableRecordId.isSome = true) :
    (completeSuccess conf outcome result completedAt k).Meets (accounting R A c)
      (fun g' s' r => s' = s ∧
        match r with
        | .ok _ => g' = g.on c k (·.success)
        | .error _ => g' = g) g s := by
  have hsingle : (completeSingle conf outcome result k).Meets (accounting R A c)
      (fun g' s' r => s' = s ∧
        match r with
        | .ok _ => g' = g.on c k (·.success)
        | .error _ => g' = g) g s := by
    rw [completeSingle, Routine.meets_ite]
    split
    · exact ⟨rfl, rfl⟩
    · exact applySuccess_meets hs hid
  rw [completeSuccess, Routine.meets_ite]
  split
  · refine Action.meets_attempt_bind trivial ?_ ?_
    · rintro r handled - hr
      obtain rfl : r = .ok handled := hr
      rw [Routine.meets_ite]
      cases handled with
      | true => exact ⟨rfl, rfl⟩
      | false =>
        have hg : (accounting R A c).next g (.store (.completeRecurringSuccess outcome
            result.forget completedAt) (some k)) (.ok false) = g := next_store fun _ => rfl
        rw [hg]
        exact hsingle
    · rintro r exc - hr
      obtain rfl : r = .error exc := hr
      exact ⟨rfl, next_store fun _ => rfl⟩
  · exact hsingle

theorem recordSuccess_meets {conf : DurableConfiguration} {result : HandlerResult Obj}
    {maxRetries : Nat} (hv : e.Valid) (hh : e.Hashable)
    (hid : ∃ i, DurableJobController.identity e = .ok (some i)) :
    (L.recordSuccess channel e h result maxRetries k conf).Meets (accounting R A c)
      (fun g' s' r => s' = s ∧
        match r with
        | .ok true => g' = g.on c k (·.success)
        | .ok false => Settled A c e k (Ordinary A) g g' none
        | .error exc => (g' = g ∧ ∃ m, exc = .deliveryObservation m) ∨
            Settled A c e k (Ordinary A) g g' (some exc)) g s := by
  obtain ⟨n, hn⟩ := retryCount_ok (L := L) hh
  obtain ⟨⟨recordId, generation⟩, hid⟩ := hid
  have hrec := (DurableJobController.identity_eq_some hid).1
  refine Action.meets_lift_bind hn ?_
  refine Action.meets_now_bind.mpr ⟨trivial, fun now _ => ?_⟩
  refine Routine.Meets.bind (Q := fun g' s' r => s' = s ∧
      match r with
      | .ok true => g' = g.on c k (·.success)
      | .ok false => g' = g
      | .error exc => g' = g ∧ ∃ m, exc = .deliveryObservation m) ?_ ?_ ?_
  · refine Routine.Meets.tryCatch (Q := fun g' s' r => s' = s ∧
      match r with
      | .ok b => b = true ∧ g' = g.on c k (·.success)
      | .error _ => g' = g) ?_ ?_ ?_
    · refine (completeSuccess_meets rfl ?_).bind ?_ ?_
      · simp [commandDeliveryOutcome, hrec]
      · exact fun g' s' u h => ⟨h.1, rfl, h.2⟩
      · exact fun g' s' exc h => h
    · rintro g' s' b ⟨rfl, rfl, rfl⟩
      exact ⟨rfl, rfl⟩
    · rintro g' s' exc ⟨rfl, rfl⟩
      cases exc <;> first | exact ⟨rfl, rfl⟩ | exact ⟨rfl, rfl, _, rfl⟩
  · rintro g' s' recorded ⟨rfl, hg⟩
    rw [Routine.meets_ite]
    cases recorded with
    | true => exact ⟨rfl, hg⟩
    | false =>
      obtain rfl := hg
      rw [if_neg Bool.false_ne_true]
      refine (handleFailedDelivery_meets hv hh).bind ?_ ?_
      · exact fun g' s' u h => ⟨h.1, h.2.mono fun exc hx _ => hx⟩
      · exact fun g' s' exc h => ⟨h.1, .inr (h.2.mono fun exc hx _ => hx)⟩
  · exact fun g' s' exc h => ⟨h.1, .inl h.2⟩

/-- The ledger once the observers have been told of a success. -/
def succeeded (L : Listener Obj) (e : MessageEnvelope) (c : Nat) (k : Claim) (g : Ledger Obj) :
    Ledger Obj :=
  if L.Observes e then g.on c k (·.observed .succeeded k.receipt) else g

theorem announceSuccess_meets {maxRetries : Nat} {results : List (HandlerResult Obj)}
    (hh : e.Hashable) (hnd : durable = false → DurableJobController.identity e = .ok none) :
    (L.announceSuccess channel e durable maxRetries k results).Meets (accounting R A c)
      (fun g' s' r => s' = s ∧ g' = succeeded L e c k g ∧
        (r = .ok (.results results) ∨ ∃ m, r = .error (.deliveryObservation m))) g s := by
  obtain ⟨n, hn⟩ := retryCount_ok (L := L) hh
  refine Action.meets_lift_bind hn ?_
  refine (notify_meets ?_).bind ?_ ?_
  · right
    cases durable with
    | true => exact .inl rfl
    | false => exact .inr (hnd rfl)
  · rintro g' s' ⟨⟩ ⟨rfl, -, rfl⟩
    exact ⟨rfl, rfl, .inl rfl⟩
  · rintro g' s' exc ⟨rfl, hexc, rfl⟩
    obtain ⟨m, rfl⟩ := hexc exc rfl
    exact ⟨rfl, rfl, .inr ⟨m, rfl⟩⟩

/-- The ledger of a message whose handlers all returned, once its observers were told. -/
def completion (L : Listener Obj) (e : MessageEnvelope) (c : Nat) (k : Claim) (durable : Bool)
    (l : List (Handler × HandlerResult Obj)) (g : Ledger Obj) : Ledger Obj :=
  succeeded L e c k (g.on c k fun g =>
    if durable then (g.collected e l).success else g.collected e l)

/-- What `_dispatch` leaves once the handlers are about to be called. -/
inductive Processed (L : Listener Obj) (A : Assumption Obj) (c : Nat) (e : MessageEnvelope)
    (durable : Bool) (k : Claim) (hs : List Handler) (g : Ledger Obj) :
    Ledger Obj → Except Exc (DispatchResult Obj) → Prop
  | interrupted {l : List (Handler × HandlerResult Obj)} {g' : Ledger Obj}
      {r : Except Exc (DispatchResult Obj)} :
      Interrupted hs l ∨ durable = true →
      Settled A c e k (Ordinary A) (g.on c k (·.collected e l)) g' (raised r) →
      (∀ d, r = .ok d → d = .claimSettled) → Processed L A c e durable k hs g g' r
  | completed {results : List (HandlerResult Obj)} {r : Except Exc (DispatchResult Obj)} :
      results.length = hs.length → (∀ result ∈ results, Accepted e durable result) →
      (r = .ok (.results results) ∨ ∃ m, r = .error (.deliveryObservation m)) →
      Processed L A c e durable k hs g (completion L e c k durable (hs.zip results) g) r
  | unrecorded {results : List (HandlerResult Obj)} {m : String} :
      results.length = hs.length → durable = true →
      Processed L A c e durable k hs g (g.on c k (·.collected e (hs.zip results)))
        (.error (.deliveryObservation m))
  | unreleased {g' : Ledger Obj} {exc : Exc} : Unreleased c k g g' (some exc) →
      Processed L A c e durable k hs g g' (.error exc)

theorem conclude_meets {maxRetries : Nat} {results : List (HandlerResult Obj)}
    {i : Option (String × Nat)} (hv : e.Valid) (hh : e.Hashable) (hne : hs ≠ [])
    (hi : DurableJobController.identity e = .ok i)
    (hver : i.isSome = true → L.durableJobController.isSome = true)
    (hlen : results.length = hs.length) (hacc : ∀ result ∈ results, Accepted e i.isSome result) :
    (L.conclude channel e hs i.isSome maxRetries k results).Meets (accounting R A c)
      (fun g' s' r => s' = s ∧ Processed L A c e i.isSome k hs g g' r)
      (g.on c k (·.collected e (hs.zip results))) s := by
  have hnd : i.isSome = false → DurableJobController.identity e = .ok none := fun h => by
    have hnone : i = none := by simpa using h
    rw [hi, hnone]
  cases i with
  | none =>
    refine (announceSuccess_meets hh hnd).mono ?_
    rintro g' s' r ⟨rfl, rfl, hr⟩
    exact ⟨rfl, .completed hlen hacc hr⟩
  | some i =>
    obtain ⟨conf, hconf⟩ := Option.isSome_iff_exists.mp (hver rfl)
    obtain ⟨h, hs, rfl⟩ := List.exists_cons_of_ne_nil hne
    obtain ⟨result, results, rfl⟩ := List.exists_cons_of_ne_nil (l := results) (by
      rintro rfl
      cases hlen)
    simp only [conclude, hconf, Option.isSome_some]
    refine (recordSuccess_meets hv hh ⟨i, hi⟩).bind ?_ ?_
    · rintro g' s' recorded ⟨rfl, hg⟩
      cases recorded with
      | true =>
        obtain rfl := hg
        refine (announceSuccess_meets hh hnd).mono ?_
        rintro g' s' r ⟨rfl, rfl, hr⟩
        rw [Ledger.on_on]
        exact ⟨rfl, .completed hlen hacc hr⟩
      | false =>
        exact ⟨rfl, .interrupted (.inr rfl) hg fun d hd => by cases hd; rfl⟩
    · rintro g' s' exc ⟨rfl, ⟨rfl, m, rfl⟩ | hg⟩
      · exact ⟨rfl, .unrecorded hlen rfl⟩
      · exact ⟨rfl, .interrupted (.inr rfl) hg fun d hd => by cases hd⟩

theorem process_meets {i : Option (String × Nat)} (hv : e.Valid) (hh : e.Hashable) (hne : hs ≠ [])
    (hi : DurableJobController.identity e = .ok i)
    (hver : i.isSome = true →
      L.durableJobController.isSome = true ∧ e.messageKind = .str "command") :
    (L.process channel e hs message i.isSome k).Meets (accounting R A c)
      (fun g' s' r => s' = s ∧ Processed L A c e i.isSome k hs g g' r) g s := by
  have hstart : Interrupted hs ([] : List (Handler × HandlerResult Obj)) :=
    ⟨Nat.zero_le _, fun hlen => absurd (List.length_eq_zero_iff.mp hlen.symm) hne⟩
  have hnil : g.on c k (·.collected e []) = g := Ledger.on_id fun _ => Ledger.collected_nil
  refine Routine.Meets.bind (Q := fun g' s' r => s' = s ∧
      match r with
      | .ok _ => g' = g
      | .error exc =>
        Settled A c e k Never g g' (some exc) ∨ Unreleased c k g g' (some exc)) ?_ ?_ ?_
  · rw [Action.meets_when]
    split
    · refine announceStart_meets hv hh fun hd => ?_
      obtain ⟨j, rfl⟩ := Option.isSome_iff_exists.mp hd
      exact ⟨j, hi⟩
    · exact ⟨rfl, rfl⟩
  · rintro g' s' ⟨⟩ ⟨rfl, rfl⟩
    refine (runHandlers_meets hv hh hs).bind ?_ ?_
    · rintro g₁ s₁ answer ⟨rfl, ⟨results, hr, hlen, hacc, rfl⟩ | ⟨hr, l, hl, hs⟩⟩
      · cases hr
        dsimp only
        rw [Routine.meets_ite]
        split
        · exact conclude_meets hv hh hne hi (fun hd => (hver hd).1) hlen hacc
        · rename_i hobs
          have hdur : i.isSome = false := by
            cases hd : i.isSome with
            | false => rfl
            | true => simp [(hver hd).2, hd] at hobs
          have hno : ¬ L.Observes e := fun h => by simp [h.1, h.2] at hobs
          refine ⟨rfl, ?_⟩
          have := Processed.completed (L := L) (A := A) (c := c) (k := k) (g := g') hlen hacc
            (.inl rfl)
          simpa only [completion, succeeded, hno, if_false, hdur, Bool.false_eq_true] using this
      · cases answer with
        | some results => exact absurd rfl (hr results)
        | none => exact ⟨rfl, .interrupted (.inl hl) hs fun d hd => by cases hd; rfl⟩
    · rintro g₁ s₁ exc ⟨rfl, ⟨results, hr, -⟩ | ⟨-, l, hl, hs⟩⟩
      · cases hr
      · exact ⟨rfl, .interrupted (.inl hl) hs fun d hd => by cases hd⟩
  · rintro g' s' exc ⟨rfl, hs | hu⟩
    · refine ⟨rfl, .interrupted (.inl hstart) ?_ fun d hd => by cases hd⟩
      rw [hnil]
      exact hs.mono fun _ => False.elim
    · exact ⟨rfl, .unreleased hu⟩

theorem admitEnvelope_meets {conf : DurableConfiguration} {retries maxRetries : Nat} :
    (admitEnvelope conf e channel retries maxRetries k : Action Obj _).Meets (accounting R A c)
      (fun g' s' r => s' = s ∧ g' = if r = .ok (some .drop) then g.on c k (·.drop) else g) g s := by
  refine Action.meets_now_bind.mpr ⟨trivial, fun now _ => ?_⟩
  cases ha : DurableJobController.admission conf.policy e now channel retries maxRetries with
  | error exc => exact Action.meets_lift_bind_error rfl ⟨rfl, rfl⟩
  | ok admission =>
    refine Action.meets_lift_bind rfl ?_
    cases admission with
    | none => exact ⟨rfl, rfl⟩
    | some admission =>
      refine Action.meets_attempt_bind trivial ?_ ?_
      · rintro r decision - hr
        obtain rfl : r = .ok decision := hr
        refine ⟨rfl, ?_⟩
        cases decision with
        | drop => rfl
        | _ => exact next_store fun _ => rfl
      · rintro r exc - hr
        obtain rfl : r = .error exc := hr
        exact ⟨rfl, next_store fun _ => rfl⟩

/-- What an admission leaves: the delivery goes on, is to be dropped, or was given back. -/
def Admitted (A : Assumption Obj) (c : Nat) (e : MessageEnvelope) (k : Claim) (g g' : Ledger Obj) :
    Except Exc Bool → Prop
  | .ok true => g' = g
  | .ok false => g' = g.on c k (·.drop)
  | .error exc => Settled A c e k Never g g' (some exc)

theorem admitDurableDelivery_meets {maxRetries : Nat} (hv : e.Valid) (hh : e.Hashable) :
    (L.admitDurableDelivery channel e maxRetries k).Meets (accounting R A c)
      (fun g' s' r => s' = s ∧ Admitted A c e k g g' r) g s := by
  have hrestore : ∀ reason, (restoreClaimedCommandAndAbort channel e reason .workerAbort k :
      Action Obj Bool).Meets (accounting R A c)
      (fun g' s' r => s' = s ∧ Admitted A c e k g g' r) g s := by
    intro reason
    refine (restore_meets _ hv fun _ => rfl).mono ?_
    rintro g' s' r ⟨rfl, exc, rfl, hs⟩
    exact ⟨rfl, hs⟩
  obtain ⟨n, hn⟩ := retryCount_ok (L := L) hh
  unfold admitDurableDelivery
  split
  · exact ⟨rfl, rfl⟩
  · refine Routine.Meets.bind (Q := fun g' s' r => s' = s ∧
      match r with
      | .ok d => g' = if d = some .drop then g.on c k (·.drop) else g
      | .error exc => Settled A c e k Never g g' (some exc)) ?_ ?_ ?_
    · refine Routine.Meets.tryCatch (Action.meets_lift_bind hn admitEnvelope_meets) ?_ ?_
      · rintro g' s' d ⟨rfl, rfl⟩
        exact ⟨rfl, by simp only [Except.ok.injEq]⟩
      · rintro g' s' exc ⟨rfl, rfl⟩
        refine (restore_meets _ hv fun _ => rfl).mono ?_
        rintro g' s' r ⟨rfl, exc, rfl, hs⟩
        exact ⟨rfl, hs⟩
    · rintro g' s' decision ⟨rfl, rfl⟩
      cases decision with
      | none => exact ⟨rfl, rfl⟩
      | some decision =>
        cases decision with
        | proceed => exact ⟨rfl, rfl⟩
        | drop => exact ⟨rfl, rfl⟩
        | abort => exact hrestore _
    · exact fun g' s' exc h => h

theorem mayProceed_meets {i : Option (String × Nat)} (hv : e.Valid) (hh : e.Hashable) :
    (L.mayProceed channel e hs i.isSome k).Meets (accounting R A c)
      (fun g' s' r => s' = s ∧ Admitted A c e k g g' r) g s := by
  rw [mayProceed, Routine.meets_ite]
  split
  · rw [Routine.meets_ite]
    split
    · refine (restore_meets _ hv fun _ => rfl).mono ?_
      rintro g' s' r ⟨rfl, exc, rfl, hs⟩
      exact ⟨rfl, hs⟩
    · exact admitDurableDelivery_meets hv hh
  · exact ⟨rfl, rfl⟩

/-- What `_dispatch` leaves. -/
inductive Dispatched (L : Listener Obj) (A : Assumption Obj) (c : Nat) (e : MessageEnvelope)
    (k : Claim) (g : Ledger Obj) (s : ListenerState) :
    Ledger Obj → Except Exc (DispatchResult Obj) → Prop
  | unknown : ¬ e.Hashable → Dispatched L A c e k g s g (.error (.typeError "unhashable type"))
  | dropped : Dispatched L A c e k g s (g.on c k (·.drop)) (.ok .dropped)
  | withheld {g' : Ledger Obj} {exc : Exc} : e.Hashable →
      Settled A c e k Never g g' (some exc) → Dispatched L A c e k g s g' (.error exc)
  | unhandled {m : String} : e.Hashable → Dispatched L A c e k g s g (.error (.handlerNotFound m))
  | unread {exc : Exc} : e.Hashable → L.dispatcher.decode e = .error exc →
      Dispatched L A c e k g s g (.error exc)
  | lost {hs : List Handler} :
      L.dispatcher.registry.handlersFor e.messageKind e.messageType = .ok hs →
      hs.any (·.spec.isBatched) = true → L.hasSize = false →
      Dispatched L A c e k g s g (.ok .claimSettled)
  | shut {exc : Exc} : e.Hashable → A.Shut → Dispatched L A c e k g s (g.disturb exc) (.error exc)
  | buffered {g' : Ledger Obj} {s' : ListenerState} {r : Except Exc (DispatchResult Obj)} :
      e.Hashable → e.Dumpable → Flushed A c (g.on c k (·.settled k.receipt)) s g' s' (raised r) →
      (∀ d, r = .ok d → d = .claimSettled) → Dispatched L A c e k g s g' r
  | processed {hs : List Handler} {i : Option (String × Nat)} {g' : Ledger Obj}
      {r : Except Exc (DispatchResult Obj)} : e.Hashable →
      L.dispatcher.registry.handlersFor e.messageKind e.messageType = .ok hs → hs ≠ [] →
      DurableJobController.identity e = .ok i → Processed L A c e i.isSome k hs g g' r →
      Dispatched L A c e k g s g' r

theorem startBatch_meets {messageType : String} :
    (startBatch messageType : Action Obj Unit).Meets (accounting R A c)
      (fun g' s' r => s'.claims = s.claims ∧
        match r with
        | .ok _ => g' = g
        | .error exc => A.Shut ∧ g' = g.disturb exc) g s := by
  refine Action.meets_attempt_bind trivial ?_ ?_
  · rintro _ size - rfl
    rw [Action.meets_when]
    split
    · exact ⟨trivial, fun now _ => ⟨rfl, rfl⟩⟩
    · exact ⟨rfl, rfl⟩
  · rintro _ exc hr rfl
    exact ⟨rfl, .inl ⟨_, exc, hr⟩, rfl⟩

/-- What buffering leaves: the message is in the buffer, or still with its claim. -/
theorem bufferBatchedMessage_meets {messageType : String} (hv : e.Valid) :
    (L.bufferBatchedMessage messageType e k).Meets (accounting R A c)
      (fun g' s' r => s'.claims = s.claims ∧
        match r with
        | .ok _ => L.hasSize = false ∧ g' = g ∨
            e.Dumpable ∧ g' = g.on c k (·.settled k.receipt)
        | .error exc => A.Shut ∧ g' = g.disturb exc ∨ Settled A c e k Never g g' (some exc)) g s := by
  rw [bufferBatchedMessage, Action.meets_when]
  split
  · refine startBatch_meets.bind ?_ ?_
    · rintro g₁ s₁ ⟨⟩ ⟨hs, rfl⟩
      refine (publish_meets _ hv).bind ?_ ?_
      · rintro g₂ s₂ ⟨⟩ ⟨rfl, hg⟩
        cases hg with
        | sent hd =>
          refine (ack_settles e Never).mono ?_
          rintro g' s' (exc | u) ⟨rfl, hset⟩
          · exact ⟨hs, .inr hset⟩
          · exact ⟨hs, .inr ⟨hd, hset.eq⟩⟩
      · rintro g' s' exc ⟨rfl, hg⟩
        refine ⟨hs, .inr ?_⟩
        cases hg with
        | undumped hd hi => exact .undumped hd hi
        | refused hr hi => exact .refused hr hi
    · exact fun g' s' exc h => ⟨h.1, .inl h.2⟩
  · rename_i hsize
    exact ⟨rfl, .inl ⟨by simpa using hsize, rfl⟩⟩

/-- Without the optional methods of the transport nothing is flushed. -/
theorem flushReadyBatches_skipped (hsize : L.hasSize = false) :
    (L.flushReadyBatches : Action Obj Unit) = pure () := by
  simp [flushReadyBatches, Action.when, hsize]

theorem deliver_meets {i : Option (String × Nat)} (hv : e.Valid) (hh : e.Hashable)
    (hf : L.dispatcher.registry.handlersFor e.messageKind e.messageType = .ok hs)
    (hi : DurableJobController.identity e = .ok i)
    (hver : i.isSome = true →
      L.durableJobController.isSome = true ∧ e.messageKind = .str "command")
    (hk : k.number < s.claims) (hfresh : s.claims ≤ c → g = {}) :
    (L.deliver channel e hs i.isSome k).Meets (accounting L.dispatcher.registry A c)
      (fun g' _ r => Dispatched L A c e k g s g' r) g s := by
  rw [deliver, Routine.meets_ite]
  split
  · exact .unhandled hh
  · rename_i hne
    cases hd : L.dispatcher.decode e with
    | error exc => exact Action.meets_lift_bind_error rfl (.unread hh hd)
    | ok message =>
      refine Action.meets_lift_bind rfl ?_
      rw [Routine.meets_ite]
      split
      · rename_i hb
        refine (bufferBatchedMessage_meets hv).bind ?_ ?_
        · rintro g₁ s₁ ⟨⟩ ⟨hs₁, ⟨hsize, rfl⟩ | ⟨hdump, rfl⟩⟩
          · rw [flushReadyBatches_skipped hsize]
            exact .lost hf hb hsize
          · have hfresh' : s₁.claims ≤ c → g.on c k (·.settled k.receipt) = {} := by
              intro hc
              rw [Ledger.on_other (by omega)]
              exact hfresh (by omega)
            refine (flushReadyBatches_meets hfresh').bind ?_ ?_
            · rintro g' s' ⟨⟩ hflush
              exact .buffered hh hdump (hflush.congr hs₁.symm rfl) fun d hd => by cases hd; rfl
            · rintro g' s' exc hflush
              exact .buffered hh hdump (hflush.congr hs₁.symm rfl) fun d hd => by cases hd
        · rintro g' s' exc ⟨-, ⟨hshut, rfl⟩ | hs⟩
          · exact .shut hh hshut
          · exact .withheld hh hs
      · refine (process_meets hv hh (by simpa using hne) hi hver).mono ?_
        rintro g' s' r ⟨-, hp⟩
        exact .processed hh hf (by simpa using hne) hi hp

theorem dispatch_meets {i : Option (String × Nat)} (hv : e.Valid)
    (hi : DurableJobController.identity e = .ok i)
    (hver : i.isSome = true →
      L.durableJobController.isSome = true ∧ e.messageKind = .str "command")
    (hk : k.number < s.claims) (hfresh : s.claims ≤ c → g = {}) :
    (L.dispatch channel e k).Meets (accounting L.dispatcher.registry A c)
      (fun g' _ r => Dispatched L A c e k g s g' r) g s := by
  by_cases hh : e.Hashable
  · obtain ⟨hs, hf⟩ := Registry.handlersFor_hashable (R := L.dispatcher.registry) hh
    refine Action.meets_lift_bind hf (Action.meets_lift_bind hi ?_)
    refine (mayProceed_meets hv hh).bind ?_ ?_
    · rintro g' s' admitted ⟨rfl, ha⟩
      cases admitted with
      | true =>
        obtain rfl := ha
        exact deliver_meets hv hh hf hi hver hk hfresh
      | false =>
        obtain rfl := ha
        exact .dropped
    · rintro g' s' exc ⟨rfl, ha⟩
      exact .withheld hh ha
  · exact Action.meets_lift_bind_error (Registry.handlersFor_unhashable hh) (.unknown hh)

end Pybus
