import Pybus.Listener
import Pybus.Runner
import Pybus.Settlement

/-! What a worker holds of a durable job: the calls it makes to the store and to handlers, and in
which order. -/
namespace Pybus

open Value Texts Interaction Listener

/-- What the calls of one worker say it holds: nothing, a claim, a delivery it may process, one
whose job turned out to have no series, a recorded settlement, or nothing any more. -/
inductive Custody
  | idle
  | claimed (c : DurableJobClaim)
  | held (a : DurableDeliveryAdmission)
  | single (a : DurableDeliveryAdmission) (o : CommandDeliveryOutcome)
  | settled (a : DurableDeliveryAdmission) (s : DurableSettlement)
  | ended

namespace Custody

/-- The delivery may still be settled. -/
def Holds (g : Custody) (a : DurableDeliveryAdmission) : Prop := g = held a ∨ ∃ o, g = single a o

/-- An outcome names the delivery that was admitted. -/
structure Names (o : CommandDeliveryOutcome) (a : DurableDeliveryAdmission) : Prop where
  record : o.durableRecordId = some a.recordId
  generation : o.durableGeneration = some (a.generation : Int)
  messageId : o.messageId = a.messageId
  messageType : o.messageType = a.messageType
  version : o.version = a.version

/-- The retry count that a settlement may record: for a retry the next one if it is within the
limit, otherwise the admitted one. -/
def Counts (a : DurableDeliveryAdmission) (status : CommandDeliveryStatus)
    (retryCount maxRetries : Nat) : Prop :=
  if status = .retryScheduled then retryCount = a.retryCount + 1 ∧ retryCount ≤ maxRetries
  else retryCount = a.retryCount

/-- The store operations a worker may call. -/
def Allows (g : Custody) : StoreOp → Prop
  | .markPublished c _ _ | .markPublishIndeterminate c _ _ => g = claimed c
  | .admitDelivery a => g = idle ∧ a.reconciliationDueAt.isSome
  | .checkpointSettlement s =>
    ∃ a, g.Holds a ∧ s.recordId = a.recordId ∧ s.generation = a.generation ∧
      Counts a s.status s.retryCount s.maxRetries
  | .releaseDelivery recordId generation _ =>
    ∃ a, g.Holds a ∧ recordId = a.recordId ∧ generation = a.generation
  | .completeRecurringSuccess o _ _ => ∃ a, g = held a ∧ Names o a ∧ o.status = .succeeded
  | .applyOutcome o _ => o.status = .started ∨ (∃ a, g = single a o ∧ Names o a ∧ o.status = .succeeded) ∨
      ∃ a s, g = settled a s ∧ Names o a ∧ o.status = s.status ∧ o.retryCount = s.retryCount ∧
        o.status ≠ .succeeded
  | _ => True

/-- The delivery a custody is about, while it may be settled. -/
def admission : Custody → Option DurableDeliveryAdmission
  | held a | single a _ => some a
  | _ => none

/-- The custody after a store operation. -/
def after (g : Custody) (op : StoreOp) (r : Except Exc op.Result) : Custody :=
  match op, r with
  | .claim _ _ _, .ok (some c) => claimed c
  | .admitDelivery a, .ok .proceed => held a
  | .checkpointSettlement s, .ok _ =>
    match g.admission with
    | some a => settled a s
    | none => ended
  | .checkpointSettlement _, .error _ | .releaseDelivery _ _ _, _ => ended
  | .completeRecurringSuccess o _ _, .ok false =>
    match g.admission with
    | some a => single a o
    | none => ended
  | .completeRecurringSuccess _ _ _, .error (.invalidMessageDefinition _) => g
  | .completeRecurringSuccess _ _ _, _ => ended
  | .applyOutcome o _, _ => if o.status = .started then g else ended
  | _, _ => g

theorem holds_of_admission {g : Custody} {a : DurableDeliveryAdmission}
    (h : g.admission = some a) : g.Holds a := by
  cases g <;> simp_all [admission, Holds]

/-- The operations after which a delivery is no longer held, whatever they answer. -/
def Settles : StoreOp → Prop
  | .checkpointSettlement _ | .releaseDelivery _ _ _ => True
  | .applyOutcome o _ => o.status ≠ .started
  | _ => False

/-- The ways a store operation changes the custody. -/
inductive After (g : Custody) : (op : StoreOp) → Except Exc op.Result → Custody → Prop
  | same {op : StoreOp} {x : Except Exc op.Result} : ¬ Settles op → After g op x g
  | ended {op : StoreOp} {x : Except Exc op.Result} : After g op x ended
  | claimed {workerId : String} {now lease : Instant} {c : DurableJobClaim} :
      After g (.claim workerId now lease) (.ok (some c)) (claimed c)
  | held {a : DurableDeliveryAdmission} : After g (.admitDelivery a) (.ok .proceed) (held a)
  | settled {a : DurableDeliveryAdmission} {s : DurableSettlement} {u : Unit} :
      g.Holds a → After g (.checkpointSettlement s) (.ok u) (settled a s)
  | single {a : DurableDeliveryAdmission} {o : CommandDeliveryOutcome} {result : HandlerResult Unit}
      {completedAt : Instant} : g.Holds a →
      After g (.completeRecurringSuccess o result completedAt) (.ok false) (single a o)

theorem after_spec (g : Custody) (op : StoreOp) (x : Except Exc op.Result) :
    After g op x (g.after op x) := by
  unfold after
  split
  · exact .claimed
  · exact .held
  · split
    · rename_i ha
      exact .settled (holds_of_admission ha)
    · exact .ended
  · exact .ended
  · exact .ended
  · split
    · rename_i ha
      exact .single (holds_of_admission ha)
    · exact .ended
  · exact .same id
  · exact .ended
  · split
    · rename_i hst
      exact .same (not_not.mpr hst)
    · exact .ended
  · rename_i hc hok herror hrel hfalse hinv hcomp happly
    cases op with
    | checkpointSettlement s =>
      cases x with
      | ok u => exact absurd HEq.rfl (hok s u rfl)
      | error exc => exact absurd HEq.rfl (herror s exc rfl)
    | releaseDelivery recordId generation due => exact absurd HEq.rfl (hrel _ _ _ x rfl)
    | applyOutcome o due => exact absurd HEq.rfl (happly _ _ x rfl)
    | _ => exact .same id

end Custody

variable {Obj α β : Type} [Texts]

/-- A message of a batch buffer: no durable delivery. Only what `_verify_durable_configuration`
lets through for a batched event handler is ever put there. -/
def RawMessage.Undurable (m : RawMessage) : Prop :=
  ∀ now e, MessageEnvelope.read now m.bytes = .ok e → DurableJobController.identity e = .ok none

/-- The monitor of a worker's custody. A handler is given a durable command only while the worker
holds that delivery. -/
def custody (Obj : Type) : Monitor (Calls Obj) Custody where
  permits g o :=
    match o with
    | .store op _ => g.Allows op
    | .handler _ _ e _ => ∀ recordId generation,
        DurableJobController.identity e = .ok (some (recordId, generation)) →
        ∃ a, g = .held a ∧ recordId = a.recordId ∧ generation = a.generation
    | _ => True
  assumes _ o r :=
    match o, r with
    | .store (.applyOutcome _ _) _, .error (.invalidMessageDefinition _) => False
    | .consumeMany _ _ _, .ok messages => ∀ m ∈ messages, m.Undurable
    | _, _ => True
  next g o r :=
    match o, r with
    | .store op _, r => g.after op r
    | _, _ => g

/-- A call that has nothing to do with the custody. -/
def Call.Silent : Call Obj → Prop
  | .store _ _ | .handler _ _ _ _ => False
  | _ => True

/-- A routine that makes silent calls only and ends in `R`. -/
def Calm (R : Except Exc α → Prop) (p : Action Obj α) : Prop :=
  ∀ g s, p.Meets (custody Obj) (fun g' _ r => g' = g ∧ R r) g s

/-- Whatever is raised stops the worker. -/
def Stops (r : Except Exc α) : Prop := ∀ exc, r = .error exc → exc.stopsWorker = true

def Any (_ : Except Exc α) : Prop := True

/-- An exception that stops the worker is raised. -/
def Aborts (r : Except Exc α) : Prop := ∃ exc, r = .error exc ∧ exc.stopsWorker = true

namespace Calm

variable {R R' : Except Exc α → Prop} {T : Except Exc β → Prop} {p : Action Obj α}

theorem mono (h : Calm R p) (hR : ∀ r, R r → R' r) : Calm R' p := by
  intro g s
  apply (h g s).mono
  intro g' s' r hr
  exact ⟨hr.1, hR r hr.2⟩

theorem any (h : Calm R p) : Calm Any p := h.mono fun _ _ => trivial

theorem pure {a : α} (h : R (.ok a)) : Calm R (pure a : Action Obj α) := fun _ _ => ⟨rfl, h⟩

theorem raise {exc : Exc} (h : R (.error exc)) : Calm R (throw exc : Action Obj α) :=
  fun _ _ => ⟨rfl, h⟩

theorem lift {r : Except Exc α} (h : R r) : Calm R (.lift r : Action Obj α) := by
  intro g s
  rw [Action.meets_lift]
  exact ⟨rfl, h⟩

theorem own {R : Except Exc ListenerState → Prop} (h : ∀ s, R (.ok s)) :
    Calm R (.own : Action Obj ListenerState) := fun _ s => ⟨rfl, h s⟩

theorem update {f : ListenerState → ListenerState} {R : Except Exc Unit → Prop} (h : R (.ok ())) :
    Calm R (.update f : Action Obj Unit) := fun _ _ => ⟨rfl, h⟩

theorem attempt {c : Call Obj} {f : c.Answer → Except Exc α} (hc : c.Silent) (h : ∀ r, R (f r)) :
    Calm R (.attempt c f : Action Obj α) := by
  intro g s
  cases c <;> first | exact absurd hc id | exact ⟨trivial, fun r _ => ⟨rfl, h r⟩⟩

theorem ask {c : Call Obj} {R : Except Exc c.Answer → Prop} (hc : c.Silent) (h : ∀ r, R (.ok r)) :
    Calm R (.ask c : Action Obj c.Answer) := by
  intro g s
  cases c <;> first | exact absurd hc id | exact ⟨trivial, fun r _ => ⟨rfl, h r⟩⟩

theorem bind {f : α → Action Obj β} (h : Calm R p) (ok : ∀ a, R (.ok a) → Calm T (f a))
    (error : ∀ exc, R (.error exc) → T (.error exc)) : Calm T (p >>= f) := by
  intro g s
  refine Routine.Meets.bind (h g s) ?_ ?_
  · intro g' s' a hr
    obtain ⟨rfl, hr⟩ := hr
    exact ok a hr g' s'
  · intro g' s' exc hr
    exact ⟨hr.1, error exc hr.2⟩

theorem tryCatch {f : Exc → Action Obj α} (h : Calm R p) (ok : ∀ a, R (.ok a) → R' (.ok a))
    (error : ∀ exc, R (.error exc) → Calm R' (f exc)) :
    Calm R' (MonadExcept.tryCatch p f) := by
  intro g s
  refine Routine.Meets.tryCatch (h g s) ?_ ?_
  · intro g' s' a hr
    exact ⟨hr.1, ok a hr.2⟩
  · intro g' s' exc hr
    obtain ⟨rfl, hr⟩ := hr
    exact error exc hr g' s'

theorem when {b : Bool} {p : Action Obj Unit} {R : Except Exc Unit → Prop}
    (h : b = true → Calm R p) (hn : b = false → R (.ok ())) : Calm R (.when b p) := by
  cases b with
  | false => exact fun _ _ => ⟨rfl, hn rfl⟩
  | true => exact h rfl

/-- A first part that cannot fail leaves everything to the second. -/
theorem ask_bind {c : Call Obj} {f : c.Answer → Action Obj β} (hc : c.Silent)
    (hf : ∀ a, Calm T (f a)) : Calm T (.ask c >>= f) := by
  refine Calm.bind (R := fun r => ∃ a, r = .ok a) (Calm.ask hc fun a => ⟨a, rfl⟩) ?_ ?_
  · intro a _
    exact hf a
  · intro exc h
    obtain ⟨a, ha⟩ := h
    cases ha

theorem own_bind {f : ListenerState → Action Obj β} (hf : ∀ s, Calm T (f s)) :
    Calm T (.own >>= f) := fun g s => hf s g s

theorem update_bind {h : ListenerState → ListenerState} {f : Unit → Action Obj β}
    (hf : Calm T (f ())) : Calm T (.update h >>= f) := fun g s => hf g (h s)

/-- Nothing is asked of either part. -/
theorem any_bind {f : α → Action Obj β} (h : Calm Any p) (hf : ∀ a, Calm Any (f a)) :
    Calm Any (p >>= f) := h.bind (fun a _ => hf a) fun _ _ => trivial

end Calm

section Calmly

variable {k : Claim} {e : MessageEnvelope} {channel : String}

omit [Texts] in
theorem stops_ok {a : α} : Stops (.ok a : Except Exc α) := by
  intro exc h
  cases h

omit [Texts] in
theorem Aborts.stops {r : Except Exc α} (h : Aborts r) : Stops r := by
  intro exc he
  obtain ⟨exc', hr, hs⟩ := h
  rw [he] at hr
  injection hr with hr
  rw [hr]
  exact hs

theorem settleAfterClaim_calm {action : String} {operation : Action Obj Unit}
    (h : Calm Any operation) : Calm Stops (settleAfterClaim action operation) := by
  apply h.tryCatch
  · intro a _
    exact stops_ok
  · intro exc _
    split
    · rename_i hi
      apply Calm.raise
      intro exc' he
      cases he
      exact Exc.stopsWorker_of_indeterminate hi
    · apply Calm.raise
      intro exc' he
      cases he
      rfl

theorem publishEnvelope_calm : Calm Any (publishEnvelope channel e k : Action Obj Unit) := by
  apply Calm.any_bind (Calm.lift trivial)
  intro message
  exact Calm.attempt trivial fun _ => trivial

theorem ackClaim_calm : Calm Stops (ackClaim k : Action Obj Unit) := by
  unfold ackClaim
  split
  · exact Calm.pure stops_ok
  · refine Calm.tryCatch (R := Any) (Calm.attempt trivial fun _ => trivial) ?_ ?_
    · intro a _
      exact stops_ok
    · intro exc _
      split
      · rename_i hi
        apply Calm.raise
        intro exc' he
        cases he
        exact Exc.stopsWorker_of_indeterminate hi
      · apply Calm.raise
        intro exc' he
        cases he
        rfl

/-- Two parts of which each stops the worker if it raises. -/
theorem Calm.stops_bind {p : Action Obj α} {f : α → Action Obj β} (h : Calm Stops p)
    (hf : ∀ a, Calm Stops (f a)) : Calm Stops (p >>= f) := by
  apply h.bind
  · intro a _
    exact hf a
  · intro exc he exc' h'
    cases h'
    exact he exc rfl

theorem restoreClaimedCommandAndAbort_calm {reason : String} {errorType : String → Exc}
    (h : ∀ message, (errorType message).stopsWorker = true) :
    Calm Aborts (restoreClaimedCommandAndAbort channel e reason errorType k : Action Obj α) := by
  refine (settleAfterClaim_calm publishEnvelope_calm).bind ?_ ?_
  · intro _ _
    refine ackClaim_calm.bind ?_ ?_
    · intro _ _
      exact Calm.raise ⟨_, rfl, h _⟩
    · intro exc he
      exact ⟨exc, rfl, he exc rfl⟩
  · intro exc he
    exact ⟨exc, rfl, he exc rfl⟩

variable {L : Listener Obj}

theorem deadLetterUndecodable_calm {message : Raw} {exc : Exc} :
    Calm Stops (L.deadLetterUndecodable channel message exc k) := by
  refine Calm.ask_bind trivial fun messageId => ?_
  refine Calm.ask_bind trivial fun now => ?_
  apply Calm.stops_bind (settleAfterClaim_calm publishEnvelope_calm)
  intro _
  exact ackClaim_calm

theorem observe_calm {outcome : CommandDeliveryOutcome} {is : List Nat} :
    Calm (fun r => ∃ b, r = .ok b) (observe outcome k is : Action Obj Bool) := by
  induction is with
  | nil => exact Calm.pure ⟨_, rfl⟩
  | cons i is ih =>
    have hcall : Calm (fun r => ∃ b, r = .ok b)
        (.failed (.attempt (.observer i outcome k) id) : Action Obj Bool) := by
      refine Calm.tryCatch (R := fun r => ∀ b, r = .ok b → b = false) ?_ ?_ ?_
      · refine Calm.bind (R := Any) (Calm.attempt trivial fun _ => trivial) ?_ ?_
        · intro _ _
          exact Calm.pure fun b hb => by cases hb; rfl
        · intro exc _ b hb
          cases hb
      · intro b _
        exact ⟨b, rfl⟩
      · intro exc _
        exact Calm.pure ⟨_, rfl⟩
    apply hcall.bind
    · intro failed _
      apply ih.bind
      · intro others _
        exact Calm.pure ⟨_, rfl⟩
      · intro exc h
        obtain ⟨b, hb⟩ := h
        cases hb
    · intro exc h
      obtain ⟨b, hb⟩ := h
      cases hb

theorem startBatch_calm {messageType : String} :
    Calm Any (startBatch messageType : Action Obj Unit) := by
  refine Calm.any_bind (Calm.attempt trivial fun _ => trivial) ?_
  intro size
  apply Calm.when
  · intro _
    refine Calm.ask_bind trivial fun now => ?_
    exact Calm.update trivial
  · intro _
    trivial

theorem bufferBatchedMessage_calm {messageType : String} :
    Calm Any (L.bufferBatchedMessage messageType e k) := by
  apply Calm.when
  · intro _
    apply Calm.any_bind startBatch_calm
    intro _
    apply Calm.any_bind (settleAfterClaim_calm publishEnvelope_calm).any
    intro _
    exact ackClaim_calm.any
  · intro _
    trivial

theorem publishResponse_calm {response : ResponseMessage Obj} :
    Calm Any (L.publishResponse e response k) := by
  apply Calm.any_bind
  · apply Calm.any
    apply settleAfterClaim_calm
    dsimp only
    apply Calm.any_bind (Calm.lift trivial)
    intro headers
    apply Calm.any_bind (Calm.lift trivial)
    intro payload
    refine Calm.ask_bind trivial fun createdAt => ?_
    refine Calm.ask_bind trivial fun messageId => ?_
    split
    · exact publishEnvelope_calm
    · exact Calm.raise trivial
  · intro _
    exact ackClaim_calm.any

theorem shouldDelay_calm {spec : HandlerSpec} : Calm Any (L.shouldDelay e spec) := by
  unfold shouldDelay
  split
  · exact Calm.pure trivial
  · apply Calm.any_bind (Calm.lift trivial)
    intro typed
    split
    · exact Calm.pure trivial
    · refine Calm.ask_bind trivial fun now => ?_
      exact Calm.pure trivial

end Calmly

/-- The admission that a listener makes for an envelope. -/
structure AdmissionOf (L : Listener Obj) (e : MessageEnvelope) (a : DurableDeliveryAdmission) :
    Prop where
  controller : L.durableJobController.isSome = true
  identity : DurableJobController.identity e = .ok (some (a.recordId, a.generation))
  retryCount : L.retryCount e = .ok a.retryCount
  messageId : a.messageId = e.messageId
  messageType : a.messageType = e.messageType
  version : a.version = e.version

/-- Not a durable delivery. -/
def Plain (e : MessageEnvelope) : Prop := DurableJobController.identity e = .ok none

/-- A listener may process the message: it is not durable, or its delivery is held. -/
def Ready (L : Listener Obj) (e : MessageEnvelope) (g : Custody) : Prop :=
  Plain e ∨ ∃ a, AdmissionOf L e a ∧ g = .held a

/-- A listener may settle the message: it is not durable, or its delivery is still held. -/
def Fit (L : Listener Obj) (e : MessageEnvelope) (g : Custody) : Prop :=
  Plain e ∨ ∃ a, AdmissionOf L e a ∧ g.Holds a

/-- How an attempt to settle a message ends: it leaves a message that is not durable alone, and
what it raises stops the worker or leaves the message to be settled. -/
def Settling (L : Listener Obj) (e : MessageEnvelope) (g g' : Custody) (r : Except Exc α) : Prop :=
  (Plain e → g' = g) ∧ ∀ exc, r = .error exc → exc.stopsWorker = true ∨ Fit L e g'

/-- What a checkpoint leaves: nothing has changed for a message that is not durable, and any other
delivery is settled. -/
def Checkpointed (L : Listener Obj) (e : MessageEnvelope) (status : CommandDeliveryStatus)
    (retryCount : Nat) (g g' : Custody) : Prop :=
  (Plain e ∧ g' = g) ∨ ∃ a s, AdmissionOf L e a ∧ g' = .settled a s ∧ s.status = status ∧
    s.retryCount = retryCount

section Settlements

variable {L : Listener Obj} {k : Claim} {e : MessageEnvelope} {channel : String} {g : Custody}
  {s : ListenerState} {status : CommandDeliveryStatus} {destination : Option String}
  {retries maxRetries : Nat} {at_ : Option Instant}

theorem Ready.fit (h : Ready L e g) : Fit L e g := by
  rcases h with h | ⟨a, ha, rfl⟩
  · exact .inl h
  · exact .inr ⟨a, ha, .inl rfl⟩

/-- A calm attempt. -/
theorem Calm.settling {p : Action Obj α} (h : Calm Any p) (hf : Fit L e g) :
    p.Meets (custody Obj) (fun g' _ r => Settling L e g g' r) g s := by
  apply (h g s).mono
  intro g' s' r hr
  obtain ⟨rfl, -⟩ := hr
  exact ⟨fun _ => rfl, fun exc _ => .inr hf⟩

/-- An attempt that stops the worker. -/
theorem Settling.stops {g' : Custody} {r : Except Exc α} (hp : Plain e → g' = g) (hr : Stops r) :
    Settling L e g g' r := ⟨hp, fun exc h => .inl (hr exc h)⟩

omit [Texts] in
/-- What `_command_delivery_outcome` reads from a message that is not durable. -/
theorem outcome_of_plain (h : Plain e) :
    (commandDeliveryOutcome e status channel destination retries maxRetries).durableRecordId
      = none := by
  simp [commandDeliveryOutcome, (DurableJobController.identity_eq_none h).1]

theorem AdmissionOf.names {a : DurableDeliveryAdmission} (h : AdmissionOf L e a) :
    Custody.Names (commandDeliveryOutcome e status channel destination retries maxRetries) a := by
  obtain ⟨hr, hg, -⟩ := DurableJobController.identity_eq_some h.identity
  exact ⟨by simp [commandDeliveryOutcome, hr], by simp [commandDeliveryOutcome, hg],
    h.messageId.symm, h.messageType.symm, h.version.symm⟩

namespace Custody

theorem checkpointDurableSettlement_meets (hf : Fit L e g)
    (hcount : ∀ a, AdmissionOf L e a → Counts a status retries maxRetries) :
    (L.checkpointDurableSettlement e status channel destination retries maxRetries at_ k).Meets
      (custody Obj) (fun g' _ r => (Plain e → g' = g) ∧ Stops r ∧
        (r = .ok () → Checkpointed L e status retries g g')) g s := by
  unfold checkpointDurableSettlement
  split
  · rename_i hc
    rcases hf with hp | ⟨a, ha, -⟩
    · exact ⟨fun _ => rfl, stops_ok, fun _ => .inl ⟨hp, rfl⟩⟩
    · have := ha.controller
      simp [hc] at this
  · rename_i c hc
    have habort : ∀ g' s', (Plain e → g' = g) →
        (restoreClaimedCommandAndAbort channel e "durable job settlement checkpoint failed"
          .workerAbort k : Action Obj Unit).Meets (custody Obj) (fun g' _ r =>
            (Plain e → g' = g) ∧ Stops r ∧
              (r = .ok () → Checkpointed L e status retries g g')) g' s' := by
      intro g' s' hp
      apply (restoreClaimedCommandAndAbort_calm (fun _ => rfl) g' s').mono
      intro g'' s'' r hr
      obtain ⟨rfl, hr⟩ := hr
      refine ⟨hp, hr.stops, ?_⟩
      intro hok
      obtain ⟨exc, he, -⟩ := hr
      rw [hok] at he
      cases he
    refine Routine.Meets.tryCatch (Q := fun g' _ r => (Plain e → g' = g) ∧
      (r = .ok () → Checkpointed L e status retries g g')) ?_ ?_ ?_
    · unfold checkpoint
      rw [Action.meets_now_bind]
      refine ⟨trivial, fun now _ => ?_⟩
      rcases hf with hp | ⟨a, ha, hg⟩
      · have hs : DurableJobController.settlement c.policy e now status channel destination retries
            maxRetries at_ = .ok none := by
          simp only [DurableJobController.settlement, show DurableJobController.identity e =
            .ok none from hp, bind, Except.bind, pure, Except.pure]
        exact Action.meets_lift_bind hs ⟨fun _ => rfl, fun _ => .inl ⟨hp, rfl⟩⟩
      · have hnp : ¬ Plain e := by
          intro hp
          have := ha.identity
          rw [show DurableJobController.identity e = .ok none from hp] at this
          cases this
        let d : DurableSettlement :=
          { recordId := a.recordId, generation := a.generation, status, sourceQueue := channel
            destinationQueue := destination, retryCount := retries, maxRetries
            reconciliationDueAt := now + c.policy.reconciliationDelay, lastAttemptAt := at_ }
        have hs : DurableJobController.settlement c.policy e now status channel destination retries
            maxRetries at_ = .ok (some d) := by
          simp only [DurableJobController.settlement, ha.identity, bind, Except.bind, pure,
            Except.pure]
          rfl
        refine Action.meets_lift_bind hs ?_
        have hadm : g.admission = some a := by
          rcases hg with rfl | ⟨o, rfl⟩ <;> rfl
        refine ⟨⟨a, hg, rfl, rfl, hcount a ha⟩, fun r _ => ?_⟩
        cases r with
        | ok u =>
          refine ⟨fun hp => absurd hp hnp, fun _ => .inr ⟨a, d, ha, ?_, rfl, rfl⟩⟩
          simp [custody, Custody.after, hadm]
        | error exc =>
          refine ⟨fun hp => absurd hp hnp, ?_⟩
          intro h
          cases h
    · intro g' s' u hq
      exact ⟨hq.1, stops_ok, hq.2⟩
    · intro g' s' exc hq
      exact habort g' s' hq.1

/-- The store is told of an outcome that the custody allows it to be told of. -/
theorem storeFailed_meets {o : CommandDeliveryOutcome} {applyDurable : Bool}
    (h : applyDurable = true → o.durableRecordId.isSome = true →
      ∀ due, g.Allows (.applyOutcome o due)) :
    (L.storeFailed o applyDurable k).Meets (custody Obj) (fun g' _ r => (∃ b, r = .ok b) ∧
      (o.status = .started ∨ o.durableRecordId = none ∨ applyDurable = false → g' = g)) g s := by
  have hidle : (pure false : Action Obj Bool).Meets (custody Obj) (fun g' _ r =>
      (∃ b, r = .ok b) ∧
      (o.status = .started ∨ o.durableRecordId = none ∨ applyDurable = false → g' = g)) g s :=
    ⟨⟨_, rfl⟩, fun _ => rfl⟩
  unfold storeFailed
  split
  · rename_i c hc
    split
    · rename_i ha
      rw [Action.meets_failed, applyOutcome, Action.meets_when]
      split
      · rename_i hr
        rw [Action.meets_now_bind]
        refine ⟨trivial, fun now _ => ⟨h ha hr (now + c.policy.reconciliationDelay),
          fun r _ => ⟨⟨_, rfl⟩, ?_⟩⟩⟩
        intro hcase
        rcases hcase with hst | hn | hf
        · simp [custody, Custody.after, hst]
        · simp [hn] at hr
        · rw [ha] at hf
          cases hf
      · exact ⟨⟨_, rfl⟩, fun _ => rfl⟩
    · exact hidle
  · exact hidle

theorem notifyCommandOutcome_meets {applyDurable : Bool}
    (h : applyDurable = true → (commandDeliveryOutcome e status channel destination retries
      maxRetries).durableRecordId.isSome = true → ∀ due, g.Allows (.applyOutcome
        (commandDeliveryOutcome e status channel destination retries maxRetries) due)) :
    (L.notifyCommandOutcome e status channel destination retries maxRetries applyDurable k).Meets
      (custody Obj) (fun g' _ r => Stops r ∧
        (status = .started ∨ Plain e ∨ applyDurable = false → g' = g)) g s := by
  unfold notifyCommandOutcome
  rw [Action.meets_when]
  split
  · refine (storeFailed_meets h).bind ?_ ?_
    · intro g' s' failed hq
      have hsame : status = .started ∨ Plain e ∨ applyDurable = false → g' = g := by
        intro hcase
        apply hq.2
        rcases hcase with hst | hp | hf
        · exact .inl hst
        · exact .inr (.inl (outcome_of_plain hp))
        · exact .inr (.inr hf)
      refine Routine.Meets.bind (observe_calm g' s') ?_ ?_
      · intro g'' s'' others hq'
        obtain ⟨rfl, -⟩ := hq'
        rw [Action.meets_when]
        split
        · refine ⟨?_, hsame⟩
          intro exc he
          cases he
          rfl
        · exact ⟨stops_ok, hsame⟩
      · intro g'' s'' exc hq'
        obtain ⟨-, b, hb⟩ := hq'
        cases hb
    · intro g' s' exc hq
      obtain ⟨⟨b, hb⟩, -⟩ := hq
      cases hb
  · exact ⟨stops_ok, fun _ => rfl⟩

/-- What follows a checkpoint: the copy is published, the receipt acked and the outcome told. -/
theorem settled_meets {action : String} {target : String} {copy : MessageEnvelope}
    {g₁ : Custody} (hne : status ≠ .succeeded) (h : Checkpointed L e status retries g g₁) :
    (do settleAfterClaim action (publishEnvelope target copy k)
        ackClaim k
        L.notifyCommandOutcome e status channel destination retries maxRetries true k).Meets
      (custody Obj) (fun g' _ r => Settling L e g g' r) g₁ s := by
  have hplain : Plain e → g₁ = g := by
    intro hp
    rcases h with ⟨-, rfl⟩ | ⟨a, d, ha, -⟩
    · rfl
    · have := ha.identity
      rw [show DurableJobController.identity e = .ok none from hp] at this
      cases this
  refine Routine.Meets.bind (settleAfterClaim_calm publishEnvelope_calm g₁ s) ?_ ?_
  · intro g' s' u hq
    obtain ⟨rfl, -⟩ := hq
    refine Routine.Meets.bind (ackClaim_calm g' s') ?_ ?_
    · intro g'' s'' u' hq'
      obtain ⟨rfl, -⟩ := hq'
      refine (notifyCommandOutcome_meets ?_).mono ?_
      · intro _ hsome due
        rcases h with ⟨hp, -⟩ | ⟨a, d, ha, rfl, hst, hn⟩
        · rw [outcome_of_plain hp] at hsome
          cases hsome
        · exact .inr (.inr ⟨a, d, rfl, ha.names, hst.symm, hn.symm, hne⟩)
      · intro g₂ s₂ r hr
        exact .stops (fun hp => (hr.2 (.inr (.inl hp))).trans (hplain hp)) hr.1
    · intro g'' s'' exc hq'
      obtain ⟨rfl, hs⟩ := hq'
      exact .stops hplain hs
  · intro g' s' exc hq
    obtain ⟨rfl, hs⟩ := hq
    exact .stops hplain hs

end Custody

end Settlements

end Pybus
