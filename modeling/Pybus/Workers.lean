import Pybus.Custody

/-! Listeners and runners keep to the custody: whatever they are answered, they settle only what
they hold. -/
namespace Pybus

open Value Texts Interaction Listener

variable {Obj : Type} [Texts] {L : Listener Obj} {k : Claim} {e : MessageEnvelope}
  {channel : String} {g : Custody} {s : ListenerState} {maxRetries : Nat} {h : Handler}
  {hs : List Handler} {message : Message Obj} {durable : Bool}

/-- The retry count of an admitted delivery is the admitted one. -/
theorem AdmissionOf.count {a : DurableDeliveryAdmission} {n : Nat} (ha : AdmissionOf L e a)
    (h : L.retryCount e = .ok n) : n = a.retryCount := by
  rw [ha.retryCount] at h
  cases h
  rfl

namespace Custody

/-- A part that settles the message may follow one that changes nothing. -/
theorem Settling.after {α β : Type} {p : Action Obj α} {f : α → Action Obj β} (hp : Calm Any p)
    (hf : Fit L e g) (h : ∀ a s, (f a).Meets (custody Obj) (fun g' _ r => Settling L e g g' r) g s) :
    (p >>= f).Meets (custody Obj) (fun g' _ r => Settling L e g g' r) g s := by
  refine Routine.Meets.bind (hp g s) ?_ ?_
  · intro g' s' a hq
    obtain ⟨rfl, -⟩ := hq
    exact h a s'
  · intro g' s' exc hq
    obtain ⟨rfl, -⟩ := hq
    exact ⟨fun _ => rfl, fun _ _ => .inr hf⟩

theorem requeue_meets (hf : Fit L e g) (hm : ∀ n, L.retryCount e = .ok n → n < maxRetries) :
    (L.requeue channel e maxRetries k).Meets (custody Obj)
      (fun g' _ r => Settling L e g g' r) g s := by
  cases hn : L.retryCount e with
  | error exc => exact Action.meets_lift_bind_error hn ⟨fun _ => rfl, fun _ _ => .inr hf⟩
  | ok retries =>
    refine Action.meets_lift_bind hn ?_
    refine Settling.after ?_ hf fun _ s => ?_
    · apply Calm.when
      · intro _
        exact Calm.attempt trivial fun _ => trivial
      · intro _
        trivial
    refine Settling.after (Calm.ask trivial fun _ => trivial) hf fun now s => ?_
    refine Settling.after (Calm.lift trivial) hf fun typed s => ?_
    refine (checkpointDurableSettlement_meets hf ?_).bind ?_ ?_
    · intro a ha
      obtain rfl := ha.count hn
      exact ⟨rfl, hm _ hn⟩
    · intro g' s' u hq
      exact settled_meets (by decide) (hq.2.2 rfl)
    · intro g' s' exc hq
      refine .stops hq.1 ?_
      intro exc' he
      cases he
      exact hq.2.1 exc rfl

theorem deadLetter_meets (hf : Fit L e g) :
    (L.deadLetter channel e maxRetries k).Meets (custody Obj)
      (fun g' _ r => Settling L e g g' r) g s := by
  cases hn : L.retryCount e with
  | error exc => exact Action.meets_lift_bind_error hn ⟨fun _ => rfl, fun _ _ => .inr hf⟩
  | ok retries =>
    refine Action.meets_lift_bind hn ?_
    refine (checkpointDurableSettlement_meets hf ?_).bind ?_ ?_
    · intro a ha
      exact ha.count hn
    · intro g' s' u hq
      exact settled_meets (by decide) (hq.2.2 rfl)
    · intro g' s' exc hq
      refine .stops hq.1 ?_
      intro exc' he
      cases he
      exact hq.2.1 exc rfl

theorem handleFailedDelivery_meets {spec : HandlerSpec} (hf : Fit L e g) :
    (L.handleFailedDelivery channel e spec k).Meets (custody Obj)
      (fun g' _ r => Settling L e g g' r) g s := by
  cases hn : L.retryCount e with
  | error exc => exact Action.meets_lift_bind_error hn ⟨fun _ => rfl, fun _ _ => .inr hf⟩
  | ok retries =>
    refine Action.meets_lift_bind hn ?_
    rw [Routine.meets_ite]
    split
    · rename_i hlt
      refine Settling.after ?_ hf fun _ s => requeue_meets hf ?_
      · apply Calm.when
        · intro _
          exact Calm.ask trivial fun _ => trivial
        · intro _
          trivial
      · intro n h'
        rw [hn] at h'
        cases h'
        exact hlt
    · exact deadLetter_meets hf

theorem continueProcessing_meets {continuation : ContinueProcessing} (hf : Fit L e g) :
    (L.continueProcessing channel e continuation maxRetries k).Meets (custody Obj)
      (fun g' _ r => Settling L e g g' r) g s := by
  have hcheck : ∀ {b : Bool} {exc : Exc}, Calm Any (.when b (throw exc) : Action Obj Unit) := by
    intro b exc
    apply Calm.when
    · intro _
      exact Calm.raise trivial
    · intro _
      trivial
  refine Settling.after hcheck hf fun _ s => ?_
  refine Settling.after hcheck hf fun _ s => ?_
  refine Settling.after ?_ hf fun _ s => ?_
  · apply Calm.when
    · intro _
      refine Calm.tryCatch (R := Any) (Calm.attempt trivial fun _ => trivial) (fun _ _ => trivial) ?_
      intro exc _
      exact Calm.raise trivial
    · intro _
      trivial
  cases hn : L.retryCount e with
  | error exc => exact Action.meets_lift_bind_error rfl ⟨fun _ => rfl, fun _ _ => .inr hf⟩
  | ok retries =>
    refine Action.meets_lift_bind rfl ?_
    refine (checkpointDurableSettlement_meets hf ?_).bind ?_ ?_
    · intro a ha
      exact ha.count hn
    · intro g' s' u hq
      exact settled_meets (by decide) (hq.2.2 rfl)
    · intro g' s' exc hq
      refine .stops hq.1 ?_
      intro exc' he
      cases he
      exact hq.2.1 exc rfl

/-- A routine whose silent calls are followed by the custody's own. -/
theorem Calm.of_plain {α : Type} {p : Action Obj α} (hp : Plain e)
    (h : ∀ g s, p.Meets (custody Obj) (fun g' _ r => Settling L e g g' r) g s) : Calm Any p := by
  intro g s
  apply (h g s).mono
  intro g' s' r hr
  exact ⟨hr.1 hp, trivial⟩

theorem requeueBatch_calm {buffer : String} {batch : List (MessageEnvelope × Claim)}
    (h : ∀ m ∈ batch, Plain m.1) : Calm Any (L.requeueBatch buffer maxRetries batch) := by
  induction batch with
  | nil => exact Calm.pure trivial
  | cons m batch ih =>
    obtain ⟨e, k⟩ := m
    have hp : Plain e := h _ List.mem_cons_self
    have hrest := ih fun m hm => h m (List.mem_cons_of_mem _ hm)
    intro g s
    cases hn : L.retryCount e with
    | error exc => exact Action.meets_lift_bind_error hn ⟨rfl, trivial⟩
    | ok retries =>
      refine Action.meets_lift_bind hn ?_
      rw [Routine.meets_ite]
      split
      · rename_i hlt
        have hq : Calm Any (L.requeue buffer e maxRetries k) := by
          refine Calm.of_plain hp fun g s => requeue_meets (.inl hp) ?_
          intro n h'
          rw [hn] at h'
          cases h'
          exact hlt
        have hall : Calm Any (do
            L.requeue buffer e maxRetries k
            let _ ← L.requeueBatch buffer maxRetries batch
            return true : Action Obj Bool) := by
          apply Calm.any_bind hq
          intro _
          apply Calm.any_bind hrest
          intro _
          exact Calm.pure trivial
        exact hall g s
      · have hq : Calm Any (L.deadLetter buffer e maxRetries k) :=
          Calm.of_plain hp fun g s => deadLetter_meets (.inl hp)
        exact Calm.any_bind hq (fun _ => hrest) g s

theorem ackAll_calm {ks : List Claim} : Calm Any (ackAll ks : Action Obj Unit) := by
  induction ks with
  | nil => exact Calm.pure trivial
  | cons k ks ih => exact Calm.any_bind ackClaim_calm.any fun _ => ih

/-- What can be read of a batch that holds no durable delivery. -/
theorem decodeBatch_calm {buffer : String} {messages : List (RawMessage × Nat)}
    (h : ∀ m ∈ messages, m.1.Undurable) :
    Calm (fun r => ∀ batch, r = .ok batch → ∀ m ∈ batch, Plain m.1)
      (L.decodeBatch buffer messages) := by
  induction messages with
  | nil =>
    apply Calm.pure
    intro batch hb
    cases hb
    intro m hm
    cases hm
  | cons m messages ih =>
    obtain ⟨m, number⟩ := m
    have hm : m.Undurable := h _ List.mem_cons_self
    have hrest := ih fun m hm => h m (List.mem_cons_of_mem _ hm)
    refine Calm.ask_bind trivial fun now => ?_
    dsimp only
    split
    · rename_i e event hd
      apply hrest.bind
      · intro batch hb
        apply Calm.pure
        intro batch' he
        cases he
        intro x hx
        rcases List.mem_cons.mp hx with rfl | hx
        · cases hr : MessageEnvelope.read now m.bytes with
          | error exc => simp [hr, Except.bind] at hd
          | ok e' =>
            rw [hr, Except.bind] at hd
            cases hdec : L.dispatcher.decode e' with
            | error exc => simp [hdec, Except.map] at hd
            | ok event' =>
              simp only [hdec, Except.map, Except.ok.injEq, Prod.mk.injEq] at hd
              obtain ⟨rfl, rfl⟩ := hd
              exact hm now e' hr
        · exact hb batch rfl x hx
      · intro exc _ batch hb
        cases hb
    · rename_i exc hd
      apply deadLetterUndecodable_calm.bind
      · intro _ _
        exact hrest
      · intro exc' _ batch hb
        cases hb

theorem flushFailed_calm {messageType : String} {batch : List (MessageEnvelope × Claim)}
    (hb : ∀ m ∈ batch, Plain m.1) : Calm Any (L.flushFailed messageType h batch) := by
  apply Calm.any_bind (requeueBatch_calm hb)
  intro requeued
  split
  · refine Calm.ask_bind trivial fun now => ?_
    exact Calm.update trivial
  · exact Calm.update trivial

theorem flushEvents_calm {messageType : String}
    {batch : List (MessageEnvelope × Message Obj × Claim)} (hb : ∀ m ∈ batch, Plain m.1) :
    Calm Any (L.flushEvents messageType h batch) := by
  apply Calm.any_bind
  · refine Calm.tryCatch (R := Any) ?_ (fun _ _ => trivial) ?_
    · refine Calm.any_bind (Calm.attempt trivial fun _ => trivial) ?_
      intro _
      exact Calm.pure trivial
    · intro exc _
      exact Calm.pure trivial
  · intro failed
    split
    · apply flushFailed_calm
      intro m hm
      obtain ⟨m', hm', rfl⟩ := List.mem_map.mp hm
      exact hb m' hm'
    · apply Calm.any_bind ackAll_calm
      intro _
      exact Calm.update trivial

theorem flushBatch_calm {messageType : String} : Calm Any (L.flushBatch messageType h) := by
  intro g s
  unfold flushBatch
  rw [Action.meets_own_bind]
  refine Action.meets_attempt_bind trivial ?_ ?_
  · intro r messages hr hok
    cases hok
    rw [Action.meets_update_bind]
    have hmessages : ∀ m ∈ messages.zipIdx s.claims, m.1.Undurable := by
      intro m hm
      exact hr m.1 (List.fst_mem_of_mem_zipIdx hm)
    rw [Routine.meets_ite]
    split
    · exact ⟨rfl, trivial⟩
    · refine Routine.Meets.bind (decodeBatch_calm hmessages g _) ?_ ?_
      · intro g' s' batch hq
        obtain ⟨rfl, hq⟩ := hq
        rw [Routine.meets_ite]
        split
        · exact ⟨rfl, trivial⟩
        · exact flushEvents_calm (hq batch rfl) g' s'
      · intro g' s' exc hq
        obtain ⟨rfl, -⟩ := hq
        exact ⟨rfl, trivial⟩
  · intro r exc _ _
    exact ⟨rfl, trivial⟩

theorem flushBuffer_calm {messageType : String} : Calm Any (L.flushBuffer messageType h) := by
  refine Calm.any_bind (Calm.attempt trivial fun _ => trivial) ?_
  intro size
  split
  · exact Calm.update trivial
  · refine Calm.ask_bind trivial fun now => ?_
    refine Calm.own_bind fun state => ?_
    refine Calm.update_bind ?_
    apply Calm.any_bind
    · unfold batchReady
      split
      · exact Calm.pure trivial
      · refine Calm.ask_bind trivial fun now => ?_
        exact Calm.pure trivial
    · intro ready
      apply Calm.when
      · intro _
        exact flushBatch_calm
      · intro _
        trivial

theorem flushIfReady_calm {messageType : String} : Calm Any (L.flushIfReady messageType h) := by
  apply Calm.when
  · intro _
    apply Calm.any_bind
    · refine Calm.own_bind fun state => ?_
      split
      · exact Calm.pure trivial
      · refine Calm.ask_bind trivial fun now => ?_
        exact Calm.pure trivial
    · intro backoff
      apply Calm.when
      · intro _
        exact flushBuffer_calm
      · intro _
        trivial
  · intro _
    trivial

theorem flushHandlers_calm {messageType : String} :
    Calm Any (L.flushHandlers messageType hs) := by
  induction hs with
  | nil => exact Calm.pure trivial
  | cons h hs ih => exact Calm.any_bind flushIfReady_calm fun _ => ih

theorem flushItems_calm {items : List (MessageKey × List Handler)} :
    Calm Any (L.flushItems items) := by
  induction items with
  | nil => exact Calm.pure trivial
  | cons item items ih =>
    obtain ⟨⟨kind, messageType⟩, hs⟩ := item
    apply Calm.any_bind
    · apply Calm.when
      · intro _
        exact flushHandlers_calm
      · intro _
        trivial
    · intro _
      exact ih

theorem flushReadyBatches_calm : Calm Any L.flushReadyBatches := by
  apply Calm.when
  · intro _
    exact flushItems_calm
  · intro _
    trivial

theorem consumeEnvelope_calm {timeout : Nat} {channels : List String} :
    Calm Any (L.consumeEnvelope timeout channels) := by
  induction channels with
  | nil => exact Calm.pure trivial
  | cons channel channels ih =>
    refine Calm.own_bind fun state => ?_
    refine Calm.any_bind (Calm.attempt trivial fun _ => trivial) ?_
    intro message
    split
    · exact ih
    · refine Calm.update_bind ?_
      refine Calm.ask_bind trivial fun now => ?_
      split
      · exact Calm.pure trivial
      · apply Calm.any_bind deadLetterUndecodable_calm.any
        intro _
        exact Calm.pure trivial

theorem callHandler_meets (hr : Ready L e g) : (callHandler h message e k).Meets (custody Obj)
    (fun g' _ r => g' = g ∧ ∃ x, r = .ok x) g s := by
  refine Routine.Meets.tryCatch (Q := fun g' _ _ => g' = g) ?_ ?_ ?_
  · refine Action.meets_attempt_bind ?_ (fun _ _ _ _ => rfl) fun _ _ _ _ => rfl
    intro recordId generation hid
    rcases hr with hp | ⟨a, ha, hg⟩
    · rw [show DurableJobController.identity e = .ok none from hp] at hid
      cases hid
    · rw [ha.identity] at hid
      cases hid
      exact ⟨a, hg, rfl, rfl⟩
  · intro g' s' x hq
    exact ⟨hq, x, rfl⟩
  · intro g' s' exc hq
    exact ⟨hq, none, rfl⟩

/-- How a round of the loop over the handlers ends: a result is collected and nothing has changed,
or the message has been settled. -/
def Round (L : Listener Obj) (e : MessageEnvelope) (g g' : Custody) {α : Type}
    (r : Except Exc (Option α)) : Prop :=
  Settling L e g g' r ∧ ∀ x, r = .ok (some x) → g' = g

theorem runHandler_meets (hr : Ready L e g) :
    (L.runHandler channel e message durable k h).Meets (custody Obj)
      (fun g' _ r => Round L e g g' r) g s := by
  have hfailed : ∀ s, (do
      L.handleFailedDelivery channel e h.spec k
      return none : Action Obj (Option (HandlerResult Obj))).Meets (custody Obj)
      (fun g' _ r => Round L e g g' r) g s := by
    intro s
    refine (handleFailedDelivery_meets hr.fit).bind ?_ ?_
    · intro g' s' u hq
      exact ⟨⟨hq.1, fun exc he => by cases he⟩, fun x he => by cases he⟩
    · intro g' s' exc hq
      exact ⟨⟨hq.1, fun exc' he => by cases he; exact hq.2 exc rfl⟩, fun x he => by cases he⟩
  have hcontinued : ∀ continuation s, (do
      L.continueProcessing channel e continuation (L.maxRetriesOf h.spec) k
      return none : Action Obj (Option (HandlerResult Obj))).Meets (custody Obj)
      (fun g' _ r => Round L e g g' r) g s := by
    intro continuation s
    refine (continueProcessing_meets hr.fit).bind ?_ ?_
    · intro g' s' u hq
      exact ⟨⟨hq.1, fun exc he => by cases he⟩, fun x he => by cases he⟩
    · intro g' s' exc hq
      exact ⟨⟨hq.1, fun exc' he => by cases he; exact hq.2 exc rfl⟩, fun x he => by cases he⟩
  have hresult : ∀ (result : HandlerResult Obj) s, (if misplaced result e durable then do
        L.handleFailedDelivery channel e h.spec k
        return none
      else return some result : Action Obj (Option (HandlerResult Obj))).Meets (custody Obj)
      (fun g' _ r => Round L e g g' r) g s := by
    intro result s
    rw [Routine.meets_ite]
    split
    · exact hfailed s
    · exact ⟨⟨fun _ => rfl, fun exc he => by cases he⟩, fun x _ => rfl⟩
  have hraise : ∀ exc, Round L e g g (.error exc : Except Exc (Option (HandlerResult Obj))) :=
    fun exc => ⟨⟨fun _ => rfl, fun _ _ => .inr hr.fit⟩, fun x he => by cases he⟩
  refine Routine.Meets.bind (shouldDelay_calm g s) ?_ ?_
  · intro g' s' delayed hq
    obtain ⟨rfl, -⟩ := hq
    refine Routine.Meets.bind (Q := fun g₁ _ r => g₁ = g' ∧ ∃ a, r = .ok a) ?_ ?_ ?_
    · rw [Action.meets_when]
      split
      · exact ⟨trivial, fun r _ => ⟨rfl, _, rfl⟩⟩
      · exact ⟨rfl, _, rfl⟩
    · intro g₁ s₁ u hq
      obtain ⟨rfl, -⟩ := hq
      refine (callHandler_meets hr).bind ?_ ?_
      · intro g₂ s₂ x hq
        obtain ⟨rfl, -⟩ := hq
        cases x with
        | none => exact hfailed s₂
        | some result =>
          cases result with
          | continueProcessing continuation => exact hcontinued continuation s₂
          | _ => exact hresult _ s₂
      · intro g₂ s₂ exc hq
        obtain ⟨-, x, hx⟩ := hq
        cases hx
    · intro g₁ s₁ exc hq
      obtain ⟨-, a, ha⟩ := hq
      cases ha
  · intro g' s' exc hq
    obtain ⟨rfl, -⟩ := hq
    exact hraise exc

theorem runHandlers_meets (hr : Ready L e g) :
    (L.runHandlers channel e message durable k hs).Meets (custody Obj)
      (fun g' _ r => Round L e g g' r) g s := by
  induction hs generalizing s with
  | nil => exact ⟨⟨fun _ => rfl, fun exc he => by cases he⟩, fun x _ => rfl⟩
  | cons h hs ih =>
    refine (runHandler_meets hr).bind ?_ ?_
    · intro g' s' x hq
      cases x with
      | none => exact ⟨⟨hq.1.1, fun exc he => by cases he⟩, fun x he => by cases he⟩
      | some result =>
        obtain rfl := hq.2 result rfl
        refine ih.bind ?_ ?_
        · intro g'' s'' y hy
          refine ⟨⟨hy.1.1, fun exc he => by cases he⟩, ?_⟩
          intro x he
          cases y with
          | none => cases he
          | some results => exact hy.2 results rfl
        · intro g'' s'' exc hy
          exact ⟨⟨hy.1.1, fun exc' he => by cases he; exact hy.1.2 exc rfl⟩, fun x he => by cases he⟩
    · intro g' s' exc hq
      exact ⟨⟨hq.1.1, fun exc' he => by cases he; exact hq.1.2 exc rfl⟩, fun x he => by cases he⟩

theorem giveBack_meets (hr : Ready L e g) :
    (L.giveBack channel e durable k).Meets (custody Obj) (fun _ _ r => Aborts r) g s := by
  have habort : ∀ g s, (restoreClaimedCommandAndAbort channel e
      "command delivery start observation failed" .deliveryObservation k : Action Obj Unit).Meets
      (custody Obj) (fun _ _ r => Aborts r) g s := by
    intro g s
    apply (restoreClaimedCommandAndAbort_calm (fun _ => rfl) g s).mono
    intro g' s' r hq
    exact hq.2
  unfold giveBack
  split
  · rename_i c _
    refine Routine.Meets.bind (Q := fun _ _ r => Stops r) ?_ ?_ ?_
    · refine Routine.Meets.tryCatch (Q := fun _ _ _ => True) ?_ ?_ ?_
      · rcases hr with hp | ⟨a, ha, rfl⟩
        · exact Action.meets_lift_bind hp trivial
        · refine Action.meets_lift_bind ha.identity ?_
          rw [Action.meets_now_bind]
          exact ⟨trivial, fun now _ => ⟨⟨a, .inl rfl, rfl, rfl⟩, fun r _ => trivial⟩⟩
      · intro g' s' u _
        exact stops_ok
      · intro g' s' exc _ exc' he
        cases he
        rfl
    · intro g' s' u _
      exact habort g' s'
    · intro g' s' exc hq
      exact ⟨exc, rfl, hq exc rfl⟩
  · exact habort g s

/-- How an announcement ends: what it raises stops the worker or has changed nothing. -/
theorem announceStart_meets (hr : Ready L e g) :
    (L.announceStart channel e hs durable maxRetries k).Meets (custody Obj)
      (fun g' _ r => g' = g ∨ Aborts r) g s := by
  unfold announceStart
  rw [Routine.meets_ite]
  split
  · apply (restoreClaimedCommandAndAbort_calm (fun _ => rfl) g s).mono
    intro g' s' r hq
    exact .inl hq.1
  · refine Routine.Meets.bind (Calm.lift (R := Any) trivial g s) ?_ ?_
    · intro g' s' retries hq
      obtain ⟨rfl, -⟩ := hq
      refine (notifyCommandOutcome_meets fun _ _ due => .inl rfl).tryCatch ?_ ?_
      · intro g'' s'' u hq
        exact .inl (hq.2 (.inl rfl))
      · intro g'' s'' exc hq
        obtain rfl := hq.2 (.inl rfl)
        cases exc with
        | deliveryObservation m =>
          apply (giveBack_meets hr).mono
          intro g₂ s₂ r ha
          exact .inr ha
        | _ => exact .inl rfl
    · intro g' s' exc hq
      exact .inl hq.1

/-- Recording the success of a held delivery: it is recorded, refused while the delivery is still
held, or the worker stops. -/
theorem completeSuccess_meets {c : DurableConfiguration} {a : DurableDeliveryAdmission}
    {o : CommandDeliveryOutcome} {result : HandlerResult Obj} {completedAt : Instant}
    (hc : c.jobSeriesStore = true) (hn : Names o a) (hst : o.status = .succeeded) :
    (completeSuccess c o result completedAt k).Meets (custody Obj) (fun g' _ r =>
      ∀ m, r = .error (.invalidMessageDefinition m) → g'.Holds a) (.held a) s := by
  simp only [completeSuccess, hc, if_true]
  refine Action.meets_attempt_bind ⟨a, rfl, hn, hst⟩ ?_ ?_
  · intro r handled _ hok
    cases hok
    cases handled with
    | true =>
      intro m he
      cases he
    | false =>
      have hg : (custody Obj).next (.held a)
          (.store (.completeRecurringSuccess o result.forget completedAt) (some k)) (.ok false)
          = .single a o := rfl
      rw [hg]
      simp only [Bool.false_eq_true, if_false, completeSingle]
      rw [Routine.meets_ite]
      split
      · exact fun m _ => .inr ⟨o, rfl⟩
      · rw [applyOutcome, Action.meets_when]
        split
        · rw [Action.meets_now_bind]
          refine ⟨trivial, fun now _ => ⟨.inr (.inl ⟨a, rfl, hn, hst⟩), fun r hr m he => ?_⟩⟩
          cases r with
          | ok u => cases he
          | error exc =>
            obtain rfl : exc = .invalidMessageDefinition m := by simpa using he
            exact absurd hr id
        · exact fun m he => by cases he
  · intro r exc _ he m he'
    cases he
    cases he'
    exact .inl rfl

theorem recordSuccess_meets {c : DurableConfiguration} {a : DurableDeliveryAdmission}
    {result : HandlerResult Obj} (hc : c.jobSeriesStore = true) (ha : AdmissionOf L e a) :
    (L.recordSuccess channel e h result maxRetries k c).Meets (custody Obj)
      (fun g' _ r => ∀ exc, r = .error exc → exc.stopsWorker = true ∨ Fit L e g') (.held a) s := by
  refine Action.meets_lift_bind ha.retryCount ?_
  rw [Action.meets_now_bind]
  refine ⟨trivial, fun completedAt _ => ?_⟩
  refine Routine.Meets.bind (Q := fun g' _ r => (r = .ok false → g'.Holds a) ∧ Stops r) ?_ ?_ ?_
  · refine Routine.Meets.tryCatch (Q := fun g' _ r => (∀ b, r = .ok b → b = true) ∧
      ∀ m, r = .error (.invalidMessageDefinition m) → g'.Holds a) ?_ ?_ ?_
    · refine (completeSuccess_meets hc ha.names rfl).bind ?_ ?_
      · intro g' s' u _
        refine ⟨fun b hb => ?_, fun m he => ?_⟩
        · cases hb
          rfl
        · cases he
      · intro g' s' exc hq
        refine ⟨fun b hb => ?_, fun m he => ?_⟩
        · cases hb
        · cases he
          exact hq m rfl
    · intro g' s' b hq
      obtain rfl := hq.1 b rfl
      refine ⟨fun he => ?_, stops_ok⟩
      cases he
    · intro g' s' exc hq
      cases exc with
      | invalidMessageDefinition m => exact ⟨fun _ => hq.2 m rfl, stops_ok⟩
      | _ =>
        refine ⟨fun he => ?_, fun exc he => ?_⟩
        · cases he
        · cases he
          rfl
  · intro g' s' recorded hq
    rw [Routine.meets_ite]
    split
    · exact fun exc he => by cases he
    · rename_i hrec
      have hf : Fit L e g' := .inr ⟨a, ha, hq.1 (by simpa using hrec)⟩
      refine (handleFailedDelivery_meets hf).bind ?_ ?_
      · intro g'' s'' u _ exc he
        cases he
      · intro g'' s'' exc hs exc' he
        cases he
        exact hs.2 exc rfl
  · intro g' s' exc hq exc' he
    cases he
    exact .inl (hq.2 exc rfl)

/-- What a part of `_dispatch` raises stops the worker or leaves the message to be settled. -/
def Recoverable {α : Type} (L : Listener Obj) (e : MessageEnvelope) (g' : Custody)
    (r : Except Exc α) : Prop := ∀ exc, r = .error exc → exc.stopsWorker = true ∨ Fit L e g'

theorem announceSuccess_meets {results : List (HandlerResult Obj)} {g₀ : Custody}
    (hf : Fit L e g₀) (hd : durable = false → Plain e) :
    (L.announceSuccess channel e durable maxRetries k results).Meets (custody Obj)
      (fun g' _ r => Recoverable L e g' r) g s := by
  have hraise : ∀ exc, L.retryCount e = .error exc → Plain e := by
    intro exc hn
    rcases hf with hp | ⟨a, ha, -⟩
    · exact hp
    · rw [ha.retryCount] at hn
      cases hn
  cases hn : L.retryCount e with
  | error exc => exact Action.meets_lift_bind_error hn fun _ _ => .inr (.inl (hraise exc hn))
  | ok retries =>
    refine Action.meets_lift_bind hn ?_
    refine (notifyCommandOutcome_meets ?_).bind ?_ ?_
    · intro happly hsome
      have hp : Plain e := hd (by simpa using happly)
      rw [outcome_of_plain hp] at hsome
      cases hsome
    · intro g' s' u _ exc he
      cases he
    · intro g' s' exc hq exc' he
      cases he
      exact .inl (hq.1 exc rfl)

variable {x : Option (String × Nat)}
  (hseries : ∀ c, L.durableJobController = some c → c.jobSeriesStore = true)
include hseries

theorem conclude_meets {results : List (HandlerResult Obj)} (hr : Ready L e g)
    (hid : DurableJobController.identity e = .ok x) :
    (L.conclude channel e hs x.isSome maxRetries k results).Meets (custody Obj)
      (fun g' _ r => Recoverable L e g' r) g s := by
  have hplain : x.isSome = false → Plain e := by
    intro hx
    rw [Plain, hid, Option.isSome_eq_false_iff.mp hx |> Option.isNone_iff_eq_none.mp]
  unfold conclude
  split
  · rename_i c h hs' result results' hx hc
    rcases hr with hp | ⟨a, ha, rfl⟩
    · rw [show DurableJobController.identity e = .ok none from hp] at hid
      cases hid
      cases hx
    · refine (recordSuccess_meets (hseries c hc) ha).bind ?_ ?_
      · intro g' s' recorded _
        rw [Routine.meets_ite]
        split
        · exact announceSuccess_meets (Ready.fit (.inr ⟨a, ha, rfl⟩)) hplain
        · exact fun exc he => by cases he
      · intro g' s' exc hq exc' he
        cases he
        exact hq exc rfl
  · exact announceSuccess_meets hr.fit hplain

theorem process_meets (hr : Ready L e g) (hid : DurableJobController.identity e = .ok x) :
    (L.process channel e hs message x.isSome k).Meets (custody Obj)
      (fun g' _ r => Recoverable L e g' r) g s := by
  refine Routine.Meets.bind (Q := fun g' _ r => g' = g ∨ Aborts r) ?_ ?_ ?_
  · rw [Action.meets_when]
    split
    · exact announceStart_meets hr
    · exact .inl rfl
  · intro g' s' u hq
    obtain rfl : g' = g := by
      rcases hq with hq | ⟨exc, he, -⟩
      · exact hq
      · cases he
    refine (runHandlers_meets hr).bind ?_ ?_
    · intro g'' s'' y hq
      cases y with
      | none => exact fun exc he => by cases he
      | some results =>
        obtain rfl := hq.2 results rfl
        dsimp only
        rw [Routine.meets_ite]
        split
        · exact conclude_meets hseries hr hid
        · exact fun exc he => by cases he
    · intro g'' s'' exc hq exc' he
      cases he
      exact hq.1.2 exc rfl
  · intro g' s' exc hq exc' he
    cases he
    rcases hq with rfl | ⟨exc', he', hs⟩
    · exact .inr hr.fit
    · cases he'
      exact .inl hs

theorem deliver_meets (hr : Ready L e g) (hid : DurableJobController.identity e = .ok x) :
    (L.deliver channel e hs x.isSome k).Meets (custody Obj)
      (fun g' _ r => Recoverable L e g' r) g s := by
  have hquiet : ∀ {p : Action Obj (DispatchResult Obj)}, Calm Any p →
      p.Meets (custody Obj) (fun g' _ r => Recoverable L e g' r) g s := by
    intro p hp
    apply (hp g s).mono
    intro g' s' r hq exc _
    rw [hq.1]
    exact .inr hr.fit
  unfold deliver
  rw [Routine.meets_ite]
  split
  · exact fun exc _ => .inr hr.fit
  · cases hd : L.dispatcher.decode e with
    | error exc => exact Action.meets_lift_bind_error rfl fun exc _ => .inr hr.fit
    | ok message =>
      refine Action.meets_lift_bind rfl ?_
      rw [Routine.meets_ite]
      split
      · apply hquiet
        apply Calm.any_bind bufferBatchedMessage_calm
        intro _
        apply Calm.any_bind flushReadyBatches_calm
        intro _
        exact Calm.pure trivial
      · exact process_meets hseries hr hid

omit hseries in
/-- A message whose handlers cannot be looked up has no retry count either. -/
theorem uncounted {exc : Exc}
    (h : L.dispatcher.registry.handlersFor e.messageKind e.messageType = .error exc) :
    ∃ exc', L.retryCount e = .error exc' := by
  have hh : ¬ e.Hashable := by
    intro hh
    obtain ⟨r, hr⟩ := Registry.lookupKey_hashable L.dispatcher.registry.handlers hh
    simp [Registry.handlersFor, hr, bind, Except.bind, pure, Except.pure] at h
  have hlookup : ∃ exc', L.dispatcher.registry.messageClassFor e.messageKind e.messageType
      = .error exc' := by
    refine ⟨.typeError "unhashable type", ?_⟩
    unfold Registry.messageClassFor Registry.lookupKey
    rw [if_pos]
    simpa [MessageEnvelope.Hashable, Bool.or_eq_true, or_iff_not_imp_left] using hh
  obtain ⟨exc', he⟩ := hlookup
  exact ⟨exc', by simp [Listener.retryCount, Listener.isTyped, he, bind, Except.bind]⟩

/-- What `_verify_durable_configuration` lets through. -/
def Verified (L : Listener Obj) (e : MessageEnvelope) : Prop :=
  Plain e ∨ (L.durableJobController.isSome = true ∧ e.messageKind = .str "command" ∧
    ∃ y, DurableJobController.identity e = .ok (some y))

omit hseries in
theorem verifyDurableConfiguration_calm :
    Calm (fun r => Stops r ∧ (r = .ok () → Verified L e))
      (L.verifyDurableConfiguration channel e k) := by
  have habort : ∀ reason, Calm (fun r => Stops r ∧ (r = .ok () → Verified L e))
      (restoreClaimedCommandAndAbort channel e reason .workerAbort k : Action Obj Unit) := by
    intro reason
    apply (restoreClaimedCommandAndAbort_calm fun _ => rfl).mono
    intro r hr
    refine ⟨hr.stops, fun hok => ?_⟩
    obtain ⟨exc, he, -⟩ := hr
    rw [hok] at he
    cases he
  unfold verifyDurableConfiguration
  split
  · exact habort _
  · rename_i hid
    exact Calm.pure ⟨stops_ok, fun _ => .inl hid⟩
  · rename_i y hid
    split
    · exact habort _
    · rename_i hc
      split
      · exact habort _
      · rename_i hk
        refine Calm.pure ⟨stops_ok, fun _ => .inr ⟨?_, not_not.mp hk, y, hid⟩⟩
        cases h : L.durableJobController <;> simp_all

omit hseries in
/-- What an admission says of its envelope. -/
theorem admission_eq_some {policy : DurableJobPolicy} {now : Instant} {sourceQueue : String}
    {n m : Nat} {a : DurableDeliveryAdmission}
    (h : DurableJobController.admission policy e now sourceQueue n m = .ok (some a)) :
    DurableJobController.identity e = .ok (some (a.recordId, a.generation)) ∧ a.retryCount = n ∧
      a.messageId = e.messageId ∧ a.messageType = e.messageType ∧ a.version = e.version ∧
      a.reconciliationDueAt.isSome = true := by
  simp only [DurableJobController.admission, bind, Except.bind, pure, Except.pure, throw, throwThe,
    MonadExceptOf.throw] at h
  split at h
  · cases h
  rename_i x hx
  split at h
  · cases h
  rename_i recordId generation
  split at h
  · cases h
  split at h
  · cases h
  · cases h
    exact ⟨hx, rfl, rfl, rfl, rfl, rfl⟩

omit hseries in
theorem admission_eq_none {policy : DurableJobPolicy} {now : Instant} {sourceQueue : String}
    {n m : Nat} (h : DurableJobController.admission policy e now sourceQueue n m = .ok none) :
    Plain e := by
  simp only [DurableJobController.admission, bind, Except.bind, pure, Except.pure, throw, throwThe,
    MonadExceptOf.throw] at h
  split at h
  · cases h
  rename_i x hx
  split at h
  · exact hx
  split at h
  · cases h
  split at h <;> cases h

omit hseries in
theorem admitDurableDelivery_meets (hc : L.durableJobController.isSome = true) :
    (L.admitDurableDelivery channel e maxRetries k).Meets (custody Obj)
      (fun g' _ r => Stops r ∧ (r = .ok true → Ready L e g')) .idle s := by
  have habort : ∀ {α : Type} reason g s, (restoreClaimedCommandAndAbort channel e reason
      .workerAbort k : Action Obj α).Meets (custody Obj) (fun _ _ r => Aborts r) g s := by
    intro α reason g s
    apply (restoreClaimedCommandAndAbort_calm (fun _ => rfl) g s).mono
    intro g' s' r hq
    exact hq.2
  have hnever : ∀ {α : Type} {r : Except Exc α} {P : Prop} (a : α), Aborts r → r = .ok a → P := by
    intro α r P a ha hok
    obtain ⟨exc, he, -⟩ := ha
    rw [hok] at he
    cases he
  obtain ⟨c, hc'⟩ := Option.isSome_iff_exists.mp hc
  unfold admitDurableDelivery
  simp only [hc']
  refine Routine.Meets.bind (Q := fun g' _ r => Stops r ∧
    ∀ d, r = .ok d → d = none ∨ d = some .proceed → Ready L e g') ?_ ?_ ?_
  · refine Routine.Meets.tryCatch (Q := fun g' _ r =>
      ∀ d, r = .ok d → d = none ∨ d = some .proceed → Ready L e g') ?_ ?_ ?_
    · cases hn : L.retryCount e with
      | error exc => exact Action.meets_lift_bind_error rfl fun d he => by cases he
      | ok n =>
        refine Action.meets_lift_bind rfl ?_
        unfold admitEnvelope
        rw [Action.meets_now_bind]
        refine ⟨trivial, fun now _ => ?_⟩
        cases ha : DurableJobController.admission c.policy e now channel n maxRetries with
        | error exc => exact Action.meets_lift_bind_error rfl fun d he => by cases he
        | ok x =>
          refine Action.meets_lift_bind rfl ?_
          cases x with
          | none => exact fun d _ _ => .inl (admission_eq_none ha)
          | some a =>
            obtain ⟨hid, hcount, hm, ht, hv, hdue⟩ := admission_eq_some ha
            have hadm : AdmissionOf L e a := ⟨hc, hid, by rw [hn, hcount], hm, ht, hv⟩
            refine Action.meets_attempt_bind ⟨rfl, hdue⟩ ?_ ?_
            · intro r d _ hr d' he hd
              cases hr
              cases he
              rcases hd with hd | hd
              · cases hd
              · cases hd
                exact .inr ⟨a, hadm, rfl⟩
            · intro r exc _ _ d he
              cases he
    · intro g' s' d hq
      exact ⟨stops_ok, hq⟩
    · intro g' s' exc _
      apply (habort _ g' s').mono
      intro g'' s'' r ha
      exact ⟨ha.stops, fun d hok => hnever d ha hok⟩
  · intro g' s' d hq
    cases d with
    | none => exact ⟨stops_ok, fun _ => hq.2 none rfl (.inl rfl)⟩
    | some d =>
      cases d with
      | proceed => exact ⟨stops_ok, fun _ => hq.2 _ rfl (.inr rfl)⟩
      | drop => exact ⟨stops_ok, fun he => by cases he⟩
      | abort =>
        apply (habort _ g' s').mono
        intro g'' s'' r ha
        exact ⟨ha.stops, fun hok => hnever _ ha hok⟩
  · intro g' s' exc hq
    exact ⟨fun exc' he => by cases he; exact hq.1 exc rfl, fun he => by cases he⟩

omit hseries in
theorem mayProceed_meets (hv : Verified L e) (hid : DurableJobController.identity e = .ok x) :
    (L.mayProceed channel e hs x.isSome k).Meets (custody Obj)
      (fun g' _ r => Stops r ∧ (r = .ok true → Ready L e g')) .idle s := by
  unfold mayProceed
  rw [Routine.meets_ite]
  split
  · rename_i hd
    rw [Routine.meets_ite]
    split
    · apply (restoreClaimedCommandAndAbort_calm (fun _ => rfl) .idle s).mono
      intro g' s' r hq
      refine ⟨hq.2.stops, fun hok => ?_⟩
      obtain ⟨-, exc, he, -⟩ := hq
      rw [hok] at he
      cases he
    · rcases hv with hp | ⟨hc, -⟩
      · rw [show DurableJobController.identity e = .ok none from hp] at hid
        cases hid
        simp at hd
      · exact admitDurableDelivery_meets hc
  · rename_i hd
    refine ⟨stops_ok, fun _ => .inl ?_⟩
    rcases hv with hp | ⟨-, hk, -⟩
    · exact hp
    · cases x with
      | none => exact hid
      | some y => simp [hk] at hd

/-- How `_dispatch` ends for a message that has been verified: what it raises stops the worker,
or the message can be settled, or it cannot even be counted. -/
theorem dispatch_meets (hv : Verified L e) :
    (L.dispatch channel e k).Meets (custody Obj) (fun g' _ r => ∀ exc, r = .error exc →
      exc.stopsWorker = true ∨ Fit L e g' ∨ ∃ exc', L.retryCount e = .error exc') .idle s := by
  unfold dispatch
  cases hh : L.dispatcher.registry.handlersFor e.messageKind e.messageType with
  | error exc => exact Action.meets_lift_bind_error rfl fun _ _ => .inr (.inr (uncounted hh))
  | ok hs =>
    refine Action.meets_lift_bind rfl ?_
    cases hid : DurableJobController.identity e with
    | error exc =>
      rcases hv with hp | ⟨-, -, y, hy⟩
      · rw [show DurableJobController.identity e = .ok none from hp] at hid
        cases hid
      · rw [hy] at hid
        cases hid
    | ok x =>
      refine Action.meets_lift_bind rfl ?_
      refine (mayProceed_meets hv hid).bind ?_ ?_
      · intro g' s' b hq
        cases b with
        | false => exact fun exc he => by cases he
        | true =>
          apply (deliver_meets hseries (hq.2 rfl) hid).mono
          intro g'' s'' r hr exc he
          rcases hr exc he with hs | hf
          · exact .inl hs
          · exact .inr (.inl hf)
      · intro g' s' exc hq exc' he
        cases he
        exact .inl (hq.1 exc rfl)

omit hseries in
theorem recover_meets {exc : Exc} (h : exc.stopsWorker = true ∨ Fit L e g ∨
    ∃ exc', L.retryCount e = .error exc') :
    (L.recover channel e exc k).Meets (custody Obj) (fun _ _ _ => True) g s := by
  unfold recover
  rw [Routine.meets_ite]
  split
  · trivial
  rename_i hstop
  have huncounted : (∃ exc', L.retryCount e = .error exc') → ∀ m, Calm Any (L.deadLetter channel e m k) := by
    intro hn m
    obtain ⟨exc', hn⟩ := hn
    intro g s
    exact Action.meets_lift_bind_error hn ⟨rfl, trivial⟩
  have hdead : ∀ m, (L.deadLetter channel e m k).Meets (custody Obj) (fun _ _ _ => True) g s := by
    intro m
    rcases h with hs | hf | hn
    · exact absurd hs hstop
    · exact (deadLetter_meets hf).mono fun _ _ _ _ => trivial
    · exact (huncounted hn m g s).mono fun _ _ _ _ => trivial
  have hretry : (do
      if ← .lift (L.shouldRetry e) then L.requeue channel e L.retryPolicy.maxRetries k
      else L.deadLetter channel e L.retryPolicy.maxRetries k : Action Obj Unit).Meets (custody Obj)
      (fun _ _ _ => True) g s := by
    cases hn : L.retryCount e with
    | error exc' =>
      have hraise : L.shouldRetry e = .error exc' := by
        simp [Listener.shouldRetry, hn, bind, Except.bind]
      exact Action.meets_lift_bind_error hraise trivial
    | ok n =>
      refine Action.meets_lift_bind (a := L.retryPolicy.shouldRetry n) ?_ ?_
      · simp [Listener.shouldRetry, hn, bind, Except.bind, pure, Except.pure]
      · rw [Routine.meets_ite]
        split
        · rename_i hr
          rcases h with hs | hf | ⟨exc', hn'⟩
          · exact absurd hs hstop
          · refine (requeue_meets hf ?_).mono fun _ _ _ _ => trivial
            intro n' hn'
            rw [hn] at hn'
            cases hn'
            simpa [RetryPolicy.shouldRetry] using hr
          · rw [hn] at hn'
            cases hn'
        · exact hdead _
  cases exc with
  | handlerNotFound m => exact hdead _
  | _ => exact hretry

omit hseries in
theorem finish_calm {result : DispatchResult Obj} : Calm Any (L.finish e k result) := by
  cases result with
  | claimSettled => exact Calm.pure trivial
  | dropped =>
    apply Calm.any_bind ackClaim_calm.any
    intro _
    exact Calm.pure trivial
  | results results =>
    have hreturn : ∀ {p : Action Obj Unit}, Calm Any p → Calm Any (do p; return some results :
        Action Obj (Option (List (HandlerResult Obj)))) := by
      intro p hp
      apply Calm.any_bind hp
      intro _
      exact Calm.pure trivial
    unfold finish
    dsimp only
    split
    · split
      · exact hreturn publishResponse_calm
      · exact hreturn ackClaim_calm.any
    · exact hreturn ackClaim_calm.any

theorem settle_meets :
    (L.settle channel e k).Meets (custody Obj) (fun _ _ _ => True) .idle s := by
  refine Routine.Meets.bind (verifyDurableConfiguration_calm .idle s) ?_ fun _ _ _ _ => trivial
  intro g' s' u hq
  obtain ⟨rfl, -, hv⟩ := hq
  refine Routine.Meets.bind (Q := fun _ _ _ => True) ?_ ?_ fun _ _ _ _ => trivial
  · refine (dispatch_meets hseries (hv rfl)).tryCatch (fun _ _ _ _ => trivial) ?_
    intro g'' s'' exc hq
    refine (recover_meets (hq exc rfl)).bind ?_ fun _ _ _ _ => trivial
    intro g₂ s₂ u _
    trivial
  · intro g'' s'' result _
    exact (finish_calm g'' s'').mono fun _ _ _ _ => trivial

/-- A call of `listen_once` keeps to the custody, whatever it is answered. -/
theorem listenOnce_meets {channels : List String} :
    (L.listenOnce channels).Meets (custody Obj) (fun _ _ _ => True) .idle s := by
  refine Routine.Meets.bind (flushReadyBatches_calm .idle s) ?_ fun _ _ _ _ => trivial
  intro g' s' u hq
  obtain ⟨rfl, -⟩ := hq
  dsimp only
  rw [Routine.meets_ite]
  split
  · trivial
  · refine Routine.Meets.bind (consumeEnvelope_calm .idle s') ?_ fun _ _ _ _ => trivial
    intro g'' s'' x hq
    obtain ⟨rfl, -⟩ := hq
    cases x with
    | none => trivial
    | some x => exact settle_meets hseries

omit hseries in
/-- A call of `run_once` keeps to the custody. -/
theorem runOnce_meets {R : DurableJobRunner} :
    (R.runOnce : Action Obj _).Meets (custody Obj) (fun _ _ _ => True) .idle s := by
  unfold DurableJobRunner.runOnce
  rw [Action.meets_now_bind]
  refine ⟨trivial, fun now _ => ?_⟩
  refine Action.meets_attempt_bind trivial ?_ fun _ _ _ _ => trivial
  intro r claimed _ hr
  cases hr
  cases claimed with
  | none => trivial
  | some c =>
    have hpublish : Calm Any (DurableJobRunner.publish c : Action Obj Unit) := by
      have hcall : ∀ fresh, Calm Any
          (.attempt (.publisher (c.deliveryEnvelope fresh) c.queue) id : Action Obj Unit) :=
        fun fresh => Calm.attempt trivial fun _ => trivial
      unfold DurableJobRunner.publish
      dsimp only
      split
      · have hfresh : Calm Any (do return uuidText (← .ask .uuid4) : Action Obj String) :=
          Calm.ask_bind trivial fun u => Calm.pure trivial
        exact Calm.any_bind hfresh hcall
      · exact Calm.any_bind (Calm.pure trivial) hcall
    have hrecord : ∀ s, (R.recordIndeterminate c now : Action Obj Unit).Meets (custody Obj)
        (fun _ _ r => Aborts r) (.claimed c) s := by
      intro s
      unfold DurableJobRunner.recordIndeterminate
      rw [Action.meets_now_bind]
      refine ⟨trivial, fun failedAt _ => ?_⟩
      refine Routine.Meets.bind (Q := fun _ _ r => Stops r) ?_ ?_ ?_
      · refine Routine.Meets.tryCatch (Q := fun _ _ _ => True) ?_ ?_ ?_
        · exact ⟨rfl, fun _ _ => trivial⟩
        · intro g' s' u _
          exact stops_ok
        · intro g' s' exc _ exc' he
          cases he
          rfl
      · intro g' s' u _
        exact ⟨_, rfl, rfl⟩
      · intro g' s' exc hq
        exact ⟨exc, rfl, hq exc rfl⟩
    refine Routine.Meets.bind (Q := fun g' _ r => r = .ok () → g' = .claimed c) ?_ ?_
      fun _ _ _ _ => trivial
    · refine Routine.Meets.tryCatch (hpublish (.claimed c) s) ?_ ?_
      · intro g' s' u hq _
        exact hq.1
      · intro g' s' exc hq
        obtain ⟨rfl, -⟩ := hq
        apply (hrecord s').mono
        intro g'' s'' r ha hok
        obtain ⟨exc', he, -⟩ := ha
        rw [hok] at he
        cases he
    · intro g' s' u hq
      obtain rfl := hq rfl
      refine Routine.Meets.bind (Q := fun _ _ _ => True) ?_ (fun _ _ _ _ => trivial)
        fun _ _ _ _ => trivial
      unfold DurableJobRunner.recordPublished
      rw [Action.meets_now_bind]
      refine ⟨trivial, fun publishedAt _ => ?_⟩
      refine Routine.Meets.tryCatch (Q := fun _ _ _ => True) ?_ ?_ ?_
      · exact ⟨rfl, fun _ _ => trivial⟩
      · intro g' s' u _
        trivial
      · intro g' s' exc _
        trivial

end Custody

end Pybus
