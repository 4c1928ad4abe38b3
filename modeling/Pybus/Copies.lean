import Pybus.Flushing

/-! What a part of the listener may publish, whatever the surroundings answer. -/
namespace Pybus

open Value Texts Interaction Listener Action

variable {Obj α β : Type} {P P' : String → Raw → Claim → Prop}

/-- The monitor that permits certain publications, and every other call. -/
def allowing (P : String → Raw → Claim → Prop) : Monitor (Calls Obj) Unit where
  permits _ o :=
    match o with
    | .publish channel message k => P channel message k
    | _ => True
  assumes _ _ _ := True
  next _ _ _ := ()

/-- Whatever it is answered, the part publishes nothing else. -/
def Allows (P : String → Raw → Claim → Prop) (p : Action Obj α) : Prop :=
  ∀ s, p.Meets (allowing P) (fun _ _ _ => True) () s

variable {p : Action Obj α}

/-- What a run published is what its part may publish. -/
theorem Allows.published (h : Allows P p) {s : ListenerState} {tr : Trace Obj}
    {x : Except Exc α × ListenerState} (hrun : (p s).Runs tr x) {channel : String} {message : Raw}
    {k : Claim} (hp : .published channel message k ∈ journal tr) : P channel message k := by
  obtain ⟨⟨o, r⟩, hmem, ho⟩ := List.mem_flatMap.mp hp
  obtain ⟨pre, post, rfl⟩ := List.append_of_mem hmem
  have hanswered : (allowing P).Answered () (pre ++ ⟨o, r⟩ :: post) :=
    (Monitor.answered_iff (A := fun _ _ => True) fun _ _ _ => Iff.rfl).mpr fun _ _ => trivial
  obtain ⟨hpermitted, -⟩ := (h s).runs hrun hanswered
  have hat := hpermitted.at
  cases o with
  | publish c m k' =>
    simp only [Entry.ofCall, Option.toList_some, List.mem_singleton, Entry.published.injEq] at ho
    obtain ⟨rfl, rfl, rfl⟩ := ho
    exact hat
  | _ => simp [Entry.ofCall] at ho

theorem Allows.bind {f : α → Action Obj β} (h : Allows P p) (hf : ∀ a, Allows P (f a)) :
    Allows P (p >>= f) := by
  intro s
  refine Routine.Meets.bind (h s) ?_ ?_
  · exact fun _ s' a _ => hf a s'
  · exact fun _ _ _ _ => trivial

theorem Allows.tryCatch {f : Exc → Action Obj α} (h : Allows P p) (hf : ∀ exc, Allows P (f exc)) :
    Allows P (MonadExcept.tryCatch p f) := by
  intro s
  refine Routine.Meets.tryCatch (h s) ?_ ?_
  · exact fun _ _ _ _ => trivial
  · exact fun _ s' exc _ => hf exc s'

theorem allows_pure {a : α} : Allows P (pure a : Action Obj α) := fun _ => trivial

theorem allows_throw {exc : Exc} : Allows P (throw exc : Action Obj α) := fun _ => trivial

theorem allows_lift_bind {r : Except Exc α} {f : α → Action Obj β}
    (h : ∀ a, r = .ok a → Allows P (f a)) : Allows P (lift r >>= f) := by
  intro s
  cases r with
  | ok a => exact h a rfl s
  | error exc => exact trivial

theorem allows_ite {c : Prop} [Decidable c] {q : Action Obj α} (hp : c → Allows P p)
    (hq : ¬ c → Allows P q) : Allows P (if c then p else q) := by
  split
  · exact hp ‹_›
  · exact hq ‹_›

theorem allows_when {b : Bool} {q : Action Obj Unit} (h : Allows P q) : Allows P (.when b q) := by
  cases b with
  | true => exact h
  | false => exact allows_pure

theorem allows_failed {q : Action Obj Unit} (h : Allows P q) : Allows P (.failed q) :=
  .tryCatch (h.bind fun _ => allows_pure) fun _ => allows_pure

theorem allows_now : Allows P (ask .now : Action Obj Instant) := fun _ => ⟨trivial, fun _ _ => trivial⟩

theorem allows_uuid4 : Allows P (ask .uuid4 : Action Obj Uuid) :=
  fun _ => ⟨trivial, fun _ _ => trivial⟩

theorem allows_sleep {seconds : Nat} : Allows P (ask (.sleep seconds) : Action Obj Unit) :=
  fun _ => ⟨trivial, fun _ _ => trivial⟩

theorem allows_sleepFn {seconds : Rat} : Allows P (attempt (.sleepFn seconds) id : Action Obj Unit) :=
  fun _ => ⟨trivial, fun _ _ => trivial⟩

theorem allows_observer {i : Nat} {outcome : CommandDeliveryOutcome} {k : Claim} :
    Allows P (attempt (.observer i outcome k) id : Action Obj Unit) :=
  fun _ => ⟨trivial, fun _ _ => trivial⟩

theorem allows_ackClaim {k : Claim} : Allows P (ackClaim k : Action Obj Unit) := by
  unfold ackClaim
  cases k.receipt with
  | none => exact allows_pure
  | some receipt =>
    refine .tryCatch (fun _ => ⟨trivial, fun _ _ => trivial⟩) fun exc => ?_
    exact allows_ite (fun _ => allows_throw) fun _ => allows_throw

theorem allows_settleAfterClaim {action : String} {q : Action Obj Unit} (h : Allows P q) :
    Allows P (settleAfterClaim action q) :=
  h.tryCatch fun _ => allows_ite (fun _ => allows_throw) fun _ => allows_throw

variable [Texts] {L : Listener Obj} {e : MessageEnvelope} {channel : String} {k : Claim}

theorem allows_publishEnvelope (h : ∀ raw, e.dump = .ok raw → P channel raw k) :
    Allows P (publishEnvelope channel e k : Action Obj Unit) :=
  allows_lift_bind fun raw hd _ => ⟨h raw hd, fun _ _ => trivial⟩

theorem allows_publish {action : String} (h : ∀ raw, e.dump = .ok raw → P channel raw k) :
    Allows P (settleAfterClaim action (publishEnvelope channel e k) : Action Obj Unit) :=
  allows_settleAfterClaim (allows_publishEnvelope h)

/-- What is restored is the message itself. -/
theorem allows_restore {reason : String} {errorType : String → Exc}
    (h : ∀ raw, e.dump = .ok raw → P channel raw k) :
    Allows P (restoreClaimedCommandAndAbort channel e reason errorType k : Action Obj α) :=
  (allows_publish h).bind fun _ => allows_ackClaim.bind fun _ => allows_throw

/-- Only a durable delivery is ever restored for want of its checkpoint. -/
theorem allows_checkpoint {source : String}
    (h : DurableJobController.identity e ≠ .ok none → ∀ raw, e.dump = .ok raw → P source raw k)
    {status : CommandDeliveryStatus} {destination : Option String} {retries maxRetries : Nat}
    {lastAttemptAt : Option Instant} :
    Allows P (L.checkpointDurableSettlement e status source destination retries maxRetries
      lastAttemptAt k) := by
  unfold checkpointDurableSettlement
  split
  · exact allows_pure
  · rename_i conf _
    by_cases hi : DurableJobController.identity e = .ok none
    · intro s
      refine Routine.meets_tryCatch.mpr (Action.meets_now_bind.mpr ⟨trivial, fun now _ => ?_⟩)
      refine Action.meets_lift_bind (a := none) ?_ trivial
      rw [DurableJobController.settlement, hi]
      rfl
    · refine .tryCatch ?_ fun _ => allows_restore (h hi)
      refine allows_now.bind fun now => allows_lift_bind fun settlement _ => ?_
      cases settlement with
      | none => exact allows_pure
      | some _ => exact fun _ => ⟨trivial, fun _ _ => trivial⟩

omit [Texts] in
theorem allows_observe {outcome : CommandDeliveryOutcome} (is : List Nat) :
    Allows P (observe outcome k is : Action Obj Bool) := by
  induction is with
  | nil => exact allows_pure
  | cons i is ih =>
    exact (allows_failed allows_observer).bind fun _ => ih.bind fun _ => allows_pure

omit [Texts] in
theorem allows_notify {status : CommandDeliveryStatus} {source : String}
    {destination : Option String} {retries maxRetries : Nat} {applyDurable : Bool} :
    Allows P (L.notifyCommandOutcome e status source destination retries maxRetries applyDurable
      k) := by
  refine allows_when (Allows.bind ?_ fun _ => (allows_observe _).bind fun _ =>
    allows_when allows_throw)
  unfold storeFailed
  split
  · refine allows_ite (fun _ => allows_failed (allows_when ?_)) fun _ => allows_pure
    exact allows_now.bind fun _ _ => ⟨trivial, fun _ _ => trivial⟩
  · exact allows_pure

/-- A retry publishes a copy with one more retry, and nothing else. -/
theorem allows_requeue {maxRetries : Nat}
    (hrest : DurableJobController.identity e ≠ .ok none → ∀ raw, e.dump = .ok raw →
      P channel raw k)
    (h : ∀ typed now n raw, L.isTyped e = .ok typed → L.retryCount e = .ok n →
      (e.retried typed now n).dump = .ok raw → P channel raw k) :
    Allows P (L.requeue channel e maxRetries k) := by
  refine allows_lift_bind fun n hn => (allows_when allows_sleepFn).bind fun _ => ?_
  refine allows_now.bind fun now => allows_lift_bind fun typed htyped => ?_
  refine (allows_checkpoint hrest).bind fun _ => ?_
  refine Allows.bind (allows_publish fun raw hd => h typed now n raw htyped hn hd) fun _ => ?_
  exact allows_ackClaim.bind fun _ => allows_notify

/-- A dead letter is published on the dead-letter channel, and nothing else. -/
theorem allows_deadLetter {maxRetries : Nat}
    (hrest : DurableJobController.identity e ≠ .ok none → ∀ raw, e.dump = .ok raw →
      P channel raw k)
    (h : ∀ raw, (e.buried channel).dump = .ok raw → P L.deadLetterChannel raw k) :
    Allows P (L.deadLetter channel e maxRetries k) := by
  refine allows_lift_bind fun n _ => (allows_checkpoint hrest).bind fun _ => ?_
  refine Allows.bind (allows_publish fun raw hd => h raw hd) fun _ => ?_
  exact allows_ackClaim.bind fun _ => allows_notify

/-- What a failed delivery may publish under a limit: a retry while one is left, or a dead letter. -/
def FailureCopy (L : Listener Obj) (channel : String) (e : MessageEnvelope) (limit : Nat)
    (target : String) (raw : Raw) : Prop :=
  (∃ typed now n, L.isTyped e = .ok typed ∧ L.retryCount e = .ok n ∧ n < limit ∧
    target = channel ∧ (e.retried typed now n).dump = .ok raw) ∨
  target = L.deadLetterChannel ∧ (e.buried channel).dump = .ok raw

theorem allows_handleFailedDelivery (hi : DurableJobController.identity e = .ok none)
    {spec : HandlerSpec} :
    Allows (fun target raw _ => FailureCopy L channel e (L.maxRetriesOf spec) target raw)
      (L.handleFailedDelivery channel e spec k) := by
  refine allows_lift_bind fun n hn => allows_ite (fun hlt => ?_) fun _ => ?_
  · refine (allows_when allows_sleep).bind fun _ => allows_requeue (absurd hi) ?_
    intro typed now n' raw htyped hn' hd
    rw [hn] at hn'
    cases hn'
    exact .inl ⟨typed, now, n, htyped, hn, hlt, rfl, hd⟩
  · exact allows_deadLetter (absurd hi) fun raw hd => .inr ⟨rfl, hd⟩

theorem allows_recover (hi : DurableJobController.identity e = .ok none) {exc : Exc} :
    Allows (fun target raw _ => FailureCopy L channel e L.retryPolicy.maxRetries target raw)
      (L.recover channel e exc k) := by
  have hbury : Allows (fun target raw _ =>
      FailureCopy L channel e L.retryPolicy.maxRetries target raw)
      (L.deadLetter channel e L.retryPolicy.maxRetries k) :=
    allows_deadLetter (absurd hi) fun raw hd => .inr ⟨rfl, hd⟩
  refine allows_ite (fun _ => allows_throw) fun _ => ?_
  split
  · exact hbury
  · refine allows_lift_bind fun retry hretry => allows_ite (fun hr => ?_) fun _ => hbury
    refine allows_requeue (absurd hi) ?_
    intro typed now n raw htyped hn hd
    refine .inl ⟨typed, now, n, htyped, hn, ?_, rfl, hd⟩
    rw [shouldRetry, hn] at hretry
    cases hretry
    exact of_decide_eq_true hr

/-- The messages of a failed batch: each claim publishes copies of its own message. -/
theorem allows_requeueBatch {buffer : String} {maxRetries : Nat}
    (l : List (MessageEnvelope × Claim)) :
    Allows (fun target raw k => ∃ m ∈ l, m.2 = k ∧ (DurableJobController.identity m.1 = .ok none →
      FailureCopy L buffer m.1 maxRetries target raw)) (L.requeueBatch buffer maxRetries l) := by
  have hall : ∀ l', (∀ m ∈ l', m ∈ l) → Allows (fun target raw k =>
      ∃ m ∈ l, m.2 = k ∧ (DurableJobController.identity m.1 = .ok none →
        FailureCopy L buffer m.1 maxRetries target raw)) (L.requeueBatch buffer maxRetries l') := by
    intro l' hsub
    induction l' with
    | nil => exact allows_pure
    | cons m l' ih =>
      obtain ⟨e, k⟩ := m
      have hm : (e, k) ∈ l := hsub _ List.mem_cons_self
      have hrest := ih fun m hm => hsub m (List.mem_cons_of_mem _ hm)
      refine allows_lift_bind fun n hn => allows_ite (fun hlt => ?_) fun _ => ?_
      · refine Allows.bind (allows_requeue (fun hd _ _ => ⟨_, hm, rfl, fun hi => absurd hi hd⟩) ?_)
          fun _ => hrest.bind fun _ => allows_pure
        intro typed now n' raw htyped hn' hd
        rw [hn] at hn'
        cases hn'
        exact ⟨_, hm, rfl, fun _ => .inl ⟨typed, now, n, htyped, hn, hlt, rfl, hd⟩⟩
      · refine Allows.bind (allows_deadLetter (fun hd _ _ => ⟨_, hm, rfl, fun hi => absurd hi hd⟩)
          fun raw hd => ?_) fun _ => hrest
        exact ⟨_, hm, rfl, fun _ => .inr ⟨rfl, hd⟩⟩
  exact hall l fun _ h => h

/-- A continuation publishes the message as it is, never to the dead-letter channel. -/
theorem allows_continueProcessing (hi : DurableJobController.identity e = .ok none)
    {continuation : ContinueProcessing} {maxRetries : Nat} :
    Allows (fun target raw _ => target ≠ L.deadLetterChannel ∧ e.dump = .ok raw)
      (L.continueProcessing channel e continuation maxRetries k) := by
  intro s
  refine Action.meets_check_bind (fun _ => trivial) fun hdead => ?_
  have htarget : continuation.queue.getD channel ≠ L.deadLetterChannel := of_decide_eq_false hdead
  refine Action.meets_check_bind (fun _ => trivial) fun _ => ?_
  refine Allows.bind (allows_when (allows_sleepFn.tryCatch fun _ => allows_throw)) (fun _ => ?_) s
  refine allows_lift_bind fun n _ => (allows_checkpoint (absurd hi)).bind fun _ => ?_
  refine Allows.bind (allows_publish fun raw hd => ⟨htarget, hd⟩) fun _ => ?_
  exact allows_ackClaim.bind fun _ => allows_notify

/-- A message that waits for its batch is published as it is. -/
theorem allows_bufferBatchedMessage {messageType : String} :
    Allows (fun _ raw _ => e.dump = .ok raw) (L.bufferBatchedMessage messageType e k) := by
  refine allows_when (Allows.bind ?_ fun _ => (allows_publish fun _ hd => hd).bind fun _ =>
    allows_ackClaim)
  refine Allows.bind (fun _ => ⟨trivial, fun _ _ => trivial⟩) fun _ => allows_when ?_
  exact allows_now.bind fun _ _ => trivial

end Pybus
