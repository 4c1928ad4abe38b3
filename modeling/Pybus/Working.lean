import Pybus.Settlement

/-! What the listener does when everything it calls works, but for its handlers. The statements are
about every monitor that expects no other answers. -/
namespace Pybus

open Value Texts Interaction Listener

variable {Obj α β G : Type}

/-- The calls that move no message and ask no handler. -/
def Call.silent : Call Obj → Bool
  | .observer _ _ _ | .sleepFn _ | .sleep _ | .now | .uuid4 => true
  | _ => false

/-- A monitor of surroundings that take every copy and every ack, and where nothing but a message
that moves or a handler that is called changes the monitor's state. -/
structure Works (M : Monitor (Calls Obj) G) : Prop where
  permits : ∀ g o, M.permits g o
  publish : ∀ g channel message k r, M.assumes g (.publish channel message k) r → r = .ok ()
  ack : ∀ g receipt k r, M.assumes g (.ack receipt k) r → r = .ok ()
  sleepFn : ∀ g seconds r, M.assumes g (.sleepFn seconds) r → r = .ok ()
  observer : ∀ g i outcome k r, M.assumes g (.observer i outcome k) r → r = .ok ()
  silent : ∀ g o r, o.silent = true → M.next g o r = g

namespace Action

variable {M : Monitor (Calls Obj) G} {g : G} {s : ListenerState} {p : Action Obj α}
  {P P' : G → α → Prop}

/-- The part returns a value and leaves the listener's state alone. -/
def Does (M : Monitor (Calls Obj) G) (P : G → α → Prop) (g : G) (s : ListenerState)
    (p : Action Obj α) : Prop :=
  p.Meets M (fun g' s' r => s' = s ∧ ∃ a, r = .ok a ∧ P g' a) g s

theorem Does.bind {f : α → Action Obj β} {Q : G → ListenerState → Except Exc β → Prop}
    (h : p.Does M P g s) (hf : ∀ g' a, P g' a → (f a).Meets M Q g' s) :
    (p >>= f).Meets M Q g s := by
  refine Routine.Meets.bind h ?_ ?_
  · rintro g' s' a ⟨rfl, a', ha, hP⟩
    cases ha
    exact hf g' a hP
  · rintro g' s' exc ⟨-, _, hr, -⟩
    cases hr

theorem Does.mono (h : p.Does M P g s) (hP : ∀ g' a, P g' a → P' g' a) : p.Does M P' g s :=
  Routine.Meets.mono h fun g' _ _ hr => by
    obtain ⟨hs, a, ha, hp⟩ := hr
    exact ⟨hs, a, ha, hP g' a hp⟩

theorem does_pure {a : α} (h : P g a) : (pure a : Action Obj α).Does M P g s := ⟨rfl, a, rfl, h⟩

theorem does_lift {a : α} {r : Except Exc α} (hr : r = .ok a) (h : P g a) :
    (lift r : Action Obj α).Does M P g s := by
  subst hr
  exact ⟨rfl, a, rfl, h⟩

end Action

open Action

section Quiet

variable {M : Monitor (Calls Obj) G} {g : G} {s : ListenerState}
  {R : G → ListenerState → Except Exc β → Prop}

/-- Whatever the clock says, the monitor does not notice. -/
theorem Works.now_bind (hw : Works M) {f : Instant → Action Obj β}
    (h : ∀ t, (f t).Meets M R g s) : (ask .now >>= f).Meets M R g s := by
  refine Action.meets_now_bind.mpr ⟨hw.permits _ _, fun t _ => ?_⟩
  rw [hw.silent g .now t rfl]
  exact h t

theorem Works.uuid4_bind (hw : Works M) {f : Uuid → Action Obj β}
    (h : ∀ u, (f u).Meets M R g s) : (ask .uuid4 >>= f).Meets M R g s := by
  refine Action.meets_uuid4_bind.mpr ⟨hw.permits _ _, fun u _ => ?_⟩
  rw [hw.silent g .uuid4 u rfl]
  exact h u

/-- A sleep that the injected clock measures. -/
theorem Works.sleepFn_does (hw : Works M) {seconds : Rat} :
    (attempt (.sleepFn seconds) id : Action Obj Unit).Does M (fun g' _ => g' = g) g s := by
  refine Action.meets_attempt.mpr ⟨hw.permits _ _, fun r hr => ?_⟩
  obtain rfl := hw.sleepFn _ _ _ hr
  exact ⟨rfl, (), rfl, hw.silent g (.sleepFn seconds) _ rfl⟩

end Quiet

variable {M : Monitor (Calls Obj) G} {g : G} {s : ListenerState} {k : Claim}

/-- The state of the monitor when the receipt of a claim has been acked, if it has one. -/
def acked (M : Monitor (Calls Obj) G) (k : Claim) (g : G) : G :=
  match k.receipt with
  | none => g
  | some receipt => M.next g (.ack receipt k) (.ok ())

/-- The state of the monitor when a copy has been sent. -/
def sent (M : Monitor (Calls Obj) G) (channel : String) (message : Raw) (k : Claim) (g : G) : G :=
  M.next g (.publish channel message k) (.ok ())

theorem ackClaim_works (hw : Works M) : (ackClaim k).Does M (fun g' _ => g' = acked M k g) g s := by
  unfold ackClaim acked
  cases k.receipt with
  | none => exact ⟨rfl, (), rfl, rfl⟩
  | some receipt =>
    refine (Routine.meets_tryCatch).mpr (Action.meets_attempt.mpr ⟨hw.permits _ _, fun r hr => ?_⟩)
    obtain rfl := hw.ack _ _ _ _ hr
    exact ⟨rfl, (), rfl, rfl⟩

theorem ackAll_works (hw : Works M) (ks : List Claim) :
    (ackAll ks).Does M (fun g' _ => g' = ks.foldl (fun g k => acked M k g) g) g s := by
  induction ks generalizing g with
  | nil => exact does_pure rfl
  | cons k ks ih =>
    refine (ackClaim_works hw).bind ?_
    intro g' _ hg
    subst hg
    exact ih

variable [Texts] {L : Listener Obj} {e : MessageEnvelope} {channel : String} {raw : Raw}

theorem publish_works (hw : Works M) (action : String) (hd : e.dump = .ok raw) :
    (settleAfterClaim action (publishEnvelope channel e k)).Does M
      (fun g' _ => g' = sent M channel raw k g) g s := by
  refine settleAfterClaim_meets action
    (Q := fun g' s' r => s' = s ∧ r = .ok () ∧ g' = sent M channel raw k g) ?_ ?_ ?_
  · refine Action.meets_lift_bind hd ⟨hw.permits _ _, fun r hr => ?_⟩
    obtain rfl := hw.publish _ _ _ _ _ hr
    exact ⟨rfl, rfl, rfl⟩
  · rintro g' s' ⟨rfl, -, hg⟩
    exact ⟨rfl, (), rfl, hg⟩
  · rintro g' s' exc exc' ⟨-, hr, -⟩
    cases hr

/-- What is published and then acked. -/
theorem settled_works (hw : Works M) (action : String) (hd : e.dump = .ok raw) :
    (do
      settleAfterClaim action (publishEnvelope channel e k)
      ackClaim k : Action Obj Unit).Does M
      (fun g' _ => g' = acked M k (sent M channel raw k g)) g s := by
  refine (publish_works hw action hd).bind ?_
  intro g' _ hg
  subst hg
  exact ackClaim_works hw

theorem deadLetterUndecodable_works (hw : Works M) {message : Raw} {exc : Exc} :
    (L.deadLetterUndecodable channel message exc k).Does M (fun g' _ => ∃ u now raw,
      (poison channel message exc u now).dump = .ok raw ∧
      g' = acked M k (sent M L.deadLetterChannel raw k g)) g s := by
  refine hw.uuid4_bind fun u => hw.now_bind fun now => ?_
  obtain ⟨d, -, hd⟩ := MessageEnvelope.dump_of_dumpable
    (poison_valid channel message exc u now)
    poison_dumpable
  refine (settled_works hw _ hd).mono ?_
  intro g' _ hg
  exact ⟨u, now, _, hd, hg⟩

/-- A delivery that is not durable has no settlement to record. -/
theorem checkpoint_works (hw : Works M) (hi : DurableJobController.identity e = .ok none)
    {status : CommandDeliveryStatus} {source : String} {destination : Option String}
    {retries maxRetries : Nat} {lastAttemptAt : Option Instant} :
    (L.checkpointDurableSettlement e status source destination retries maxRetries lastAttemptAt
      k).Does M (fun g' _ => g' = g) g s := by
  unfold checkpointDurableSettlement
  split
  · exact does_pure rfl
  · rename_i conf _
    refine Routine.meets_tryCatch.mpr (hw.now_bind fun now => ?_)
    refine Action.meets_lift_bind (a := none) ?_ ⟨rfl, (), rfl, rfl⟩
    rw [DurableJobController.settlement, hi]
    rfl

omit [Texts] in
theorem observe_works (hw : Works M) {outcome : CommandDeliveryOutcome} (is : List Nat) :
    (observe outcome k is).Does M (fun g' failed => g' = g ∧ failed = false) g s := by
  induction is with
  | nil => exact does_pure ⟨rfl, rfl⟩
  | cons i is ih =>
    refine Action.meets_failed_bind.mpr (Action.meets_attempt.mpr ⟨hw.permits _ _, fun r hr => ?_⟩)
    obtain rfl := hw.observer _ _ _ _ _ hr
    rw [hw.silent g (.observer i outcome k) _ rfl]
    refine ih.bind ?_
    rintro g' failed ⟨rfl, rfl⟩
    exact ⟨rfl, _, rfl, rfl, rfl⟩

omit [Texts] in
/-- The observers of a delivery that is not durable, and nobody else, are told of its outcome. -/
theorem notify_works (hw : Works M) (hi : DurableJobController.identity e = .ok none)
    {status : CommandDeliveryStatus} {source : String} {destination : Option String}
    {retries maxRetries : Nat} {applyDurable : Bool} :
    (L.notifyCommandOutcome e status source destination retries maxRetries applyDurable k).Does M
      (fun g' _ => g' = g) g s := by
  unfold notifyCommandOutcome
  unfold Does
  rw [Action.meets_when]
  split
  · have hstore : (L.storeFailed (commandDeliveryOutcome e status source destination retries
        maxRetries) applyDurable k).Does M (fun g' failed => g' = g ∧ failed = false) g s := by
      obtain ⟨hrec, -⟩ := DurableJobController.identity_eq_none hi
      unfold storeFailed
      split
      · unfold Does
        rw [Routine.meets_ite]
        split
        · rw [Action.meets_failed, applyOutcome, Action.meets_when]
          simp [commandDeliveryOutcome, hrec]
        · exact does_pure ⟨rfl, rfl⟩
      · exact does_pure ⟨rfl, rfl⟩
    refine hstore.bind ?_
    rintro g' failed ⟨rfl, rfl⟩
    refine (observe_works hw _).bind ?_
    rintro g' failed ⟨rfl, rfl⟩
    exact does_pure rfl
  · exact ⟨rfl, (), rfl, rfl⟩

namespace MessageEnvelope

/-- The copy of a message that `_requeue` makes. -/
def retried (e : MessageEnvelope) (typed : Bool) (now : Instant) (retries : Nat) :
    MessageEnvelope :=
  { e with
    payload := retryPayload e typed now retries
    headers := set (set e.headers "retries" (.int (retries + 1))) "last_attempt"
      (.str (datetimeIsoformat (.utc now))) }

omit [Texts] in
/-- The copy of a message that `_dead_letter` makes. -/
def buried (e : MessageEnvelope) (channel : String) : MessageEnvelope :=
  { e with headers := set e.headers "dead_lettered_from" (.str channel) }

end MessageEnvelope

/-- A copy of a message that can be dumped can be dumped if its timestamps are the same. -/
theorem dump_copy (e' : MessageEnvelope) (hv : e.Valid) (hd : e.Dumpable)
    (hid : e'.messageId = e.messageId) (htype : e'.messageType = e.messageType)
    (hkind : e'.messageKind = e.messageKind) (hversion : e'.version = e.version)
    (hc : e'.createdAt = e.createdAt) (hx : e'.expiresAt = e.expiresAt) :
    ∃ raw, e'.dump = .ok raw := by
  have hv' : e'.Valid := by
    rw [MessageEnvelope.Valid, hid, htype, hkind, hversion]
    exact hv
  have hd' : e'.Dumpable := by
    rw [MessageEnvelope.Dumpable, hc, hx]
    exact hd
  obtain ⟨d, -, hdump⟩ := MessageEnvelope.dump_of_dumpable hv' hd'
  exact ⟨_, hdump⟩

/-- A message whose copies can be sent: it is not durable, and its timestamps can be written. -/
structure Sendable (e : MessageEnvelope) : Prop where
  valid : e.Valid
  dumpable : e.Dumpable
  hashable : e.Hashable
  identity : DurableJobController.identity e = .ok none

/-- A retry publishes one copy with one more retry and acks the claim. -/
theorem requeue_works (hw : Works M) (he : Sendable e) {n maxRetries : Nat}
    (hn : L.retryCount e = .ok n) :
    (L.requeue channel e maxRetries k).Does M (fun g' _ => ∃ typed now raw,
      L.isTyped e = .ok typed ∧ (e.retried typed now n).dump = .ok raw ∧
      g' = acked M k (sent M channel raw k g)) g s := by
  obtain ⟨typed, htyped⟩ := isTyped_ok (L := L) he.hashable
  refine Action.meets_lift_bind hn ?_
  have hsleep : (Action.when (0 < L.retryPolicy.nextDelay n)
      (.attempt (.sleepFn (L.retryPolicy.nextDelay n)) id)).Does M (fun g' _ => g' = g) g s := by
    unfold Does
    rw [Action.meets_when]
    split
    · exact hw.sleepFn_does
    · exact ⟨rfl, (), rfl, rfl⟩
  refine hsleep.bind ?_
  intro g' _ hg
  subst hg
  refine hw.now_bind fun now => ?_
  refine Action.meets_lift_bind htyped ?_
  obtain ⟨raw, hd⟩ := dump_copy (e.retried typed now n) he.valid he.dumpable
    rfl rfl rfl rfl rfl rfl
  refine (checkpoint_works hw he.identity).bind ?_
  intro g₁ _ hg
  subst hg
  refine (publish_works hw _ hd).bind ?_
  intro g₂ _ hg
  subst hg
  refine (ackClaim_works hw).bind ?_
  intro g₃ _ hg
  subst hg
  refine (notify_works hw he.identity).mono ?_
  intro g₄ _ hg
  exact ⟨typed, now, raw, htyped, hd, hg⟩

/-- A dead letter is one copy on the dead-letter channel, and an ack. -/
theorem deadLetter_works (hw : Works M) (he : Sendable e) {maxRetries : Nat} :
    (L.deadLetter channel e maxRetries k).Does M (fun g' _ => ∃ raw,
      (e.buried channel).dump = .ok raw ∧
      g' = acked M k (sent M L.deadLetterChannel raw k g)) g s := by
  obtain ⟨n, hn⟩ := retryCount_ok (L := L) he.hashable
  refine Action.meets_lift_bind hn ?_
  obtain ⟨raw, hd⟩ := dump_copy (e.buried channel) he.valid he.dumpable
    rfl rfl rfl rfl rfl rfl
  refine (checkpoint_works hw he.identity).bind ?_
  intro g₁ _ hg
  subst hg
  refine (publish_works hw _ hd).bind ?_
  intro g₂ _ hg
  subst hg
  refine (ackClaim_works hw).bind ?_
  intro g₃ _ hg
  subst hg
  refine (notify_works hw he.identity).mono ?_
  intro g₄ _ hg
  exact ⟨raw, hd, hg⟩

end Pybus
