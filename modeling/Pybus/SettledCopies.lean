import Pybus.ScheduledDeliveries
import Pybus.System

/-! The copies that a listener publishes of the durable deliveries it settles: the store takes such
a copy for as long as the job waits for it, unless the retry has been written into the payload. -/
namespace Pybus

open Value Texts Relational MessageEnvelope Interaction DjangoDurableJobStore

section Documents

variable [Texts] {d : Dict} {v : Value} {k : String}

mutual
/-- Naive datetimes are written as ones in UTC. -/
theorem encodeValue_inUtc : (v : Value) → encodeValue (inUtc v) = encodeValue v
  | .datetime d => by simp [inUtc, encodeValue, encodeDatetime]
  | .list items => by rw [inUtc, encodeValue, encodeValue, encodeItems_inUtcItems items]
  | .dict entries => by rw [inUtc, encodeValue, encodeValue, encodeEntries_inUtcEntries entries]
  | .null | .bool _ | .int _ | .float _ | .str _ | .date _ | .time _ | .uuid _ => rfl

theorem encodeItems_inUtcItems : (vs : List Value) → encodeItems (inUtcItems vs) = encodeItems vs
  | [] => rfl
  | v :: vs => by
    rw [inUtcItems, encodeItems, encodeItems, encodeValue_inUtc v, encodeItems_inUtcItems vs]

theorem encodeEntries_inUtcEntries : (d : Dict) →
    encodeEntries (inUtcEntries d) = encodeEntries d
  | [] => rfl
  | (_, v) :: d => by
    rw [inUtcEntries, encodeEntries, encodeEntries, encodeValue_inUtc v,
      encodeEntries_inUtcEntries d]
end

/-- What is read of a document is written as that document again. -/
theorem dumps_settled : JsonSerializer.dumps v.settled = JsonSerializer.dumps v := by
  rw [JsonSerializer.dumps, JsonSerializer.dumps, Value.settled, ← sortKeys_encodeValue,
    sortKeys_sortKeys, encodeValue_inUtc]

omit [Texts] in
theorem keyOrder_trans {a b c : String × Value} (hab : keyOrder a b = true)
    (hbc : keyOrder b c = true) : keyOrder a c = true := by
  simp only [keyOrder, decide_eq_true_eq] at hab hbc ⊢
  exact String.le_trans hab hbc

omit [Texts] in
theorem orderedInsert_of_first {e : String × Value} (h : ∀ f ∈ d, keyOrder e f = true) :
    d.orderedInsert (fun a b => keyOrder a b) e = e :: d := by
  cases d with
  | nil => rfl
  | cons f d => exact List.orderedInsert_cons_of_le _ d (h f (List.mem_cons_self ..))

omit [Texts] in
theorem filter_orderedInsert {p : String × Value → Bool} {e : String × Value}
    (hd : d.Pairwise fun a b => keyOrder a b = true) :
    (d.orderedInsert (fun a b => keyOrder a b) e).filter p =
      if p e then (d.filter p).orderedInsert (fun a b => keyOrder a b) e else d.filter p := by
  induction d with
  | nil => cases hp : p e <;> simp [hp]
  | cons f d ih =>
    obtain ⟨hf, hd⟩ := List.pairwise_cons.mp hd
    rw [List.orderedInsert_cons]
    by_cases hef : keyOrder e f = true
    · have hfirst : ∀ g ∈ f :: d, keyOrder e g = true := by
        intro g hg
        rcases List.mem_cons.mp hg with rfl | hg
        · exact hef
        · exact keyOrder_trans hef (hf g hg)
      rw [if_pos hef, List.filter_cons, orderedInsert_of_first fun g hg =>
        hfirst g (List.mem_of_mem_filter hg)]
    · rw [if_neg hef, List.filter_cons, ih hd]
      cases hp : p f with
      | false => simp [hp]
      | true =>
        rw [if_pos rfl, List.filter_cons_of_pos hp, List.orderedInsert_cons, if_neg hef]
        split <;> rfl

omit [Texts] in
/-- Entries can be left out before or after the others are brought in order. -/
theorem filter_sorted {p : String × Value → Bool} : (sorted d).filter p = sorted (d.filter p) := by
  induction d with
  | nil => rfl
  | cons e d ih =>
    have hcons : sorted (e :: d) = (sorted d).orderedInsert (fun a b => keyOrder a b) e := rfl
    rw [hcons, filter_orderedInsert pairwise_sorted, ih, List.filter_cons]
    split <;> rfl

omit [Texts] in
theorem filter_set {p : String × Value → Bool} (hp : ∀ w, p (k, w) = false) :
    (Value.set d k v).filter p = d.filter p := by
  induction d with
  | nil => rw [Value.set, List.filter_cons_of_neg (by simp [hp])]
  | cons e d ih =>
    obtain ⟨l, w⟩ := e
    unfold Value.set
    split
    · rename_i hl
      subst hl
      rw [List.filter_cons_of_neg (by simp [hp]), List.filter_cons_of_neg (by simp [hp])]
    · rw [List.filter_cons, List.filter_cons, ih]

namespace DurableJobController

omit [Texts] in
theorem applicationHeaders_settled :
    applicationHeaders (settledEntries d) = settledEntries (applicationHeaders d) := by
  rw [applicationHeaders, settledEntries_eq_map, filter_sorted, List.filter_map,
    settledEntries_eq_map]
  rfl

omit [Texts] in
/-- A header of the framework is none of the application. -/
theorem applicationHeaders_set (hk : [durableRecordHeader, durableGenerationHeader,
    "dead_lettered_from", "last_attempt", "retries"].contains k = true) :
    applicationHeaders (Value.set d k v) = applicationHeaders d :=
  filter_set fun w => by rw [hk, Bool.not_true]

/-- The application's headers are written alike when they have gone over the wire. -/
theorem dumps_applicationHeaders :
    JsonSerializer.dumps (.dict (applicationHeaders (settledEntries d))) =
      JsonSerializer.dumps (.dict (applicationHeaders d)) := by
  rw [applicationHeaders_settled, ← settled_dict, dumps_settled]

theorem lastAttempt_settled {t : Option Instant} (h : lastAttempt d = .ok t) :
    lastAttempt (settledEntries d) = .ok t := by
  unfold lastAttempt at h ⊢
  rw [get_settledEntries]
  split at h
  · rename_i hn
    rw [hn, settled_null]
    exact h
  · rename_i hs
    rw [hs, settled_str]
    exact h
  · cases h

end DurableJobController

end Documents

section Runs

variable {Obj α : Type} {P : DurableSettlement → String → Raw → Prop}
  {g : DurableSettlement → Prop} {s : ListenerState} {p : Action Obj Unit}

/-- The settlement that the store has confirmed. -/
def confirmed : Event (Calls Obj) → Option DurableSettlement
  | ⟨.store (.checkpointSettlement st) _, .ok _⟩ => some st
  | _ => none

/-- The monitor that remembers the confirmed settlements, and permits only copies that go with all
of them. -/
def confirming (P : DurableSettlement → String → Raw → Prop) :
    Monitor (Calls Obj) (DurableSettlement → Prop) where
  permits g o :=
    match o with
    | .publish channel message _ => ∀ st, g st → P st channel message
    | _ => True
  assumes _ _ _ := True
  next g o r st := g st ∨ confirmed ⟨o, r⟩ = some st

theorem confirmed_after {tr : List (Event (Calls Obj))} {st : DurableSettlement} (h : g st) :
    (confirming P).after g tr st := by
  induction tr generalizing g with
  | nil => exact h
  | cons e tr ih => exact ih (.inl h)

/-- What a part publishes once a settlement is confirmed goes with it. -/
theorem confirmed_published (h : p.Meets (confirming P) (fun _ _ _ => True) g s)
    {pre post : Trace Obj} {e : Event (Calls Obj)} {st : DurableSettlement}
    {x : Except Exc Unit × ListenerState} (hrun : (p s).Runs (pre ++ e :: post) x)
    (he : confirmed e = some st) {channel : String} {message : Raw} {k : Claim}
    (hp : .published channel message k ∈ journal post) : P st channel message := by
  obtain ⟨⟨o, r⟩, hmem, ho⟩ := List.mem_flatMap.mp hp
  obtain ⟨mid, rest, rfl⟩ := List.append_of_mem hmem
  have hanswered : (confirming P).Answered g (pre ++ e :: (mid ++ ⟨o, r⟩ :: rest)) :=
    (Monitor.answered_iff (A := fun _ _ => True) fun _ _ _ => Iff.rfl).mpr fun _ _ => trivial
  obtain ⟨hpermitted, -⟩ := Prog.Meets.runs h hrun hanswered
  rw [← List.cons_append, ← List.append_assoc] at hpermitted
  have hat := hpermitted.at
  cases o with
  | publish c m k' =>
    simp only [Entry.ofCall, Option.toList_some, List.mem_singleton, Entry.published.injEq] at ho
    obtain ⟨rfl, rfl, rfl⟩ := ho
    refine hat st ?_
    rw [Monitor.after_append, Monitor.after_cons]
    exact confirmed_after (.inr he)
  | _ => simp [Entry.ofCall] at ho

/-- A part that publishes nothing goes with anything. -/
theorem Allows.confirming {p : Action Obj α} (h : Allows (fun _ _ _ => False) p)
    (g : DurableSettlement → Prop) (s : ListenerState) :
    p.Meets (confirming P) (fun _ _ _ => True) g s := by
  have transfer : ∀ q : Prog (Calls Obj) (Except Exc α × ListenerState),
      q.Meets (allowing fun _ _ _ => False) (fun _ _ => True) () →
        ∀ g, q.Meets (Pybus.confirming P) (fun _ _ => True) g := by
    intro q
    induction q with
    | done a => exact fun _ _ => trivial
    | call o k ih =>
      intro hq g
      refine ⟨?_, fun r _ => ih r (hq.2 r trivial) _⟩
      cases o with
      | publish c m k' => exact hq.1.elim
      | _ => trivial
  exact transfer _ (h s) g

/-- A call that confirms no settlement leaves the monitor as it is. -/
theorem unconfirmed_next {o : Call Obj} {r : o.Answer} (hnone : ∀ st, ¬ g st)
    (h : confirmed ⟨o, r⟩ = none) (st : DurableSettlement) :
    ¬ (confirming P).next g o r st := by
  rintro (hg | hr)
  · exact hnone st hg
  · rw [h] at hr
    cases hr

theorem confirming_lift {r : Except Exc α} {f : α → Action Obj Unit}
    (h : ∀ a, r = .ok a → (f a).Meets (confirming P) (fun _ _ _ => True) g s) :
    (Action.lift r >>= f).Meets (confirming P) (fun _ _ _ => True) g s := by
  cases r with
  | ok a => exact h a rfl
  | error exc => exact trivial

variable [Texts] {L : Listener Obj} {c : DurableConfiguration} {e : MessageEnvelope}
  {channel : String} {k : Claim} {maxRetries : Nat}

/-- What the listener publishes for a settlement, and where: a retry counts one more attempt, and a
continuation is the message itself. -/
inductive Listener.Resends (L : Listener Obj) (c : DurableConfiguration) (channel : String)
    (e : MessageEnvelope) (maxRetries : Nat) :
    DurableSettlement → String → MessageEnvelope → Prop
  | retried {typed : Bool} {now now' : Instant} {n : Nat} {st : DurableSettlement} :
      L.isTyped e = .ok typed → L.retryCount e = .ok n →
      DurableJobController.settlement c.policy e now' .retryScheduled channel (some channel) (n + 1)
        maxRetries (some now) = .ok (some st) →
      L.Resends c channel e maxRetries st channel (e.retried typed now n)
  | continued {target : String} {now' : Instant} {n : Nat} {st : DurableSettlement} :
      L.retryCount e = .ok n → destinationOrSource (some target) channel = target →
      DurableJobController.settlement c.policy e now' .continued channel (some target) n maxRetries
        none = .ok (some st) →
      L.Resends c channel e maxRetries st target e

/-- The parts of the listener that settle a delivery and publish a copy in its place. -/
inductive Listener.Settles (L : Listener Obj) (channel : String) (e : MessageEnvelope)
    (maxRetries : Nat) (k : Claim) : Action Obj Unit → Prop
  | requeue : L.Settles channel e maxRetries k (L.requeue channel e maxRetries k)
  | continueProcessing (continuation : ContinueProcessing) :
      L.Settles channel e maxRetries k
        (L.continueProcessing channel e continuation maxRetries k)

omit [Texts] in
/-- A continuation goes to the queue it names. -/
theorem ContinueProcessing.destination_eq (continuation : ContinueProcessing) :
    destinationOrSource (some (continuation.queue.getD channel)) channel =
      continuation.queue.getD channel := by
  cases hq : continuation.queue with
  | none =>
    simp only [destinationOrSource, Option.getD_none]
    split <;> rename_i h <;> simp [h]
  | some q =>
    have hne : q ≠ "" := by
      rintro rfl
      exact continuation.queue_nonempty "" hq (by simp)
    simp [destinationOrSource, hne]

theorem confirming_publish {β : Type} {action : String} {f : Unit → Action Obj β}
    {R : Except Exc β → Prop} (h : ∀ raw, e.dump = .ok raw → ∀ st, g st → P st channel raw)
    (hf : ∀ g' s', (f ()).Meets (confirming P) (fun _ _ r => R r) g' s')
    (hraise : ∀ exc, R (.error exc)) :
    (Listener.settleAfterClaim action (Listener.publishEnvelope channel e k) >>= f).Meets
      (confirming P) (fun _ _ r => R r) g s := by
  refine Routine.Meets.bind (Q := fun _ _ _ => True) ?_ (fun g' s' _ _ => hf g' s')
    fun _ _ exc _ => hraise exc
  refine Routine.Meets.tryCatch (Q := fun _ _ _ => True) ?_ (fun _ _ _ _ => trivial) ?_
  · exact confirming_lift fun raw hraw => ⟨h raw hraw, fun _ _ => trivial⟩
  · intro g' s' exc _
    exact (allows_ite (fun _ => allows_throw) fun _ => allows_throw).confirming g' s'

/-- What is restored goes with no settlement, and the listener stops. -/
theorem confirming_restore {α : Type} {reason : String} {errorType : String → Exc}
    (hnone : ∀ st, ¬ g st) :
    (Listener.restoreClaimedCommandAndAbort channel e reason errorType k : Action Obj α).Meets
      (confirming P) (fun _ _ r => ∃ exc, r = .error exc) g s := by
  refine confirming_publish (R := fun r => ∃ exc, r = .error exc)
    (fun _ _ st h => absurd h (hnone st)) (fun g' s' => ?_) fun exc => ⟨exc, rfl⟩
  exact Routine.Meets.bind (allows_ackClaim.confirming g' s') (fun _ _ _ _ => ⟨_, rfl⟩)
    fun _ _ exc _ => ⟨exc, rfl⟩

/-- After a checkpoint at most its own settlement is confirmed, and none if it raised. -/
theorem confirming_checkpoint (hc : L.durableJobController = some c) (hnone : ∀ st, ¬ g st)
    {source : String}
    {status : CommandDeliveryStatus} {destination : Option String} {retries : Nat}
    {lastAttemptAt : Option Instant} {f : Unit → Action Obj Unit}
    (hf : ∀ g' s', (∀ st, g' st → ∃ now', DurableJobController.settlement c.policy e now' status
      source destination retries maxRetries lastAttemptAt = .ok (some st)) →
      (f ()).Meets (confirming P) (fun _ _ _ => True) g' s') :
    (L.checkpointDurableSettlement e status source destination retries maxRetries lastAttemptAt k
      >>= f).Meets (confirming P) (fun _ _ _ => True) g s := by
  unfold Listener.checkpointDurableSettlement
  rw [hc]
  refine Routine.Meets.bind (Q := fun g' _ r => r = .ok () → ∀ st, g' st → ∃ now',
    DurableJobController.settlement c.policy e now' status source destination retries maxRetries
      lastAttemptAt = .ok (some st)) ?_ (fun g' s' _ hg => hf g' s' (hg rfl))
    fun _ _ _ _ => trivial
  refine Routine.Meets.tryCatch (Q := fun g' _ r => (∀ st, g' st → ∃ now',
    DurableJobController.settlement c.policy e now' status source destination retries maxRetries
      lastAttemptAt = .ok (some st)) ∧ ∀ exc, r = .error exc → ∀ st, ¬ g' st) ?_ ?_ ?_
  · refine Action.meets_now_bind.mpr ⟨trivial, fun now _ => ?_⟩
    have hnow := unconfirmed_next (P := P) (o := (.now : Call Obj)) (r := now) hnone rfl
    generalize (confirming P).next g (.now : Call Obj) now = g₁ at hnow
    cases hx : DurableJobController.settlement c.policy e now status source destination retries
        maxRetries lastAttemptAt with
    | error exc =>
      exact Action.meets_lift_bind_error rfl
        ⟨fun st h => absurd h (hnow st), fun _ _ => hnow⟩
    | ok x =>
      refine Action.meets_lift_bind rfl ?_
      cases x with
      | none => exact ⟨fun st h => absurd h (hnow st), fun _ _ => hnow⟩
      | some st =>
        refine Action.meets_attempt.mpr ⟨trivial, fun r _ => ⟨?_, ?_⟩⟩
        · rintro st' (h | h)
          · exact absurd h (hnow st')
          · cases r with
            | error exc => cases h
            | ok _ =>
              cases h
              exact ⟨now, hx⟩
        · rintro exc hr st' (h | h)
          · exact hnow st' h
          · subst hr
            cases h
  · exact fun _ _ _ hg _ => hg.1
  · rintro g' s' exc ⟨-, hnone⟩
    refine (confirming_restore (hnone exc rfl)).mono ?_
    rintro g'' s'' r ⟨exc', rfl⟩ hr
    cases hr

/-- The last part of a settlement publishes the copy that goes with what is confirmed. -/
theorem confirming_send {action target : String} {copy : MessageEnvelope}
    {status : CommandDeliveryStatus} {destination : Option String} {n : Nat}
    (h : ∀ st, g st → L.Resends c channel e maxRetries st target copy) :
    (Listener.settleAfterClaim action (Listener.publishEnvelope target copy k) >>= fun _ =>
      Listener.ackClaim k >>= fun _ => L.notifyCommandOutcome e status channel destination n
        maxRetries true k).Meets (confirming fun st target raw => ∃ copy,
          L.Resends c channel e maxRetries st target copy ∧ copy.dump = .ok raw)
        (fun _ _ _ => True) g s := by
  refine confirming_publish (R := fun _ => True)
    (fun raw hraw st hst => ⟨copy, h st hst, hraw⟩) (fun g' s' => ?_) fun _ => trivial
  exact (allows_ackClaim.bind fun _ => allows_notify).confirming g' s'

/-- What a listener publishes once the store has confirmed a settlement is the copy that goes with
it. -/
theorem confirming_settles (hc : L.durableJobController = some c)
    (h : L.Settles channel e maxRetries k p) (hnone : ∀ st, ¬ g st) :
    p.Meets (confirming fun st target raw => ∃ copy, L.Resends c channel e maxRetries st target copy
      ∧ copy.dump = .ok raw) (fun _ _ _ => True) g s := by
  cases h with
  | requeue =>
    refine confirming_lift fun n hn => ?_
    refine Routine.Meets.bind (Q := fun g' _ _ => ∀ st, ¬ g' st) ?_ (fun g' s' _ hg => ?_)
      fun _ _ _ _ => trivial
    · rw [Action.meets_when]
      split
      · exact ⟨trivial, fun r _ => unconfirmed_next hnone rfl⟩
      · exact hnone
    refine Action.meets_now_bind.mpr ⟨trivial, fun now _ => confirming_lift fun typed htyped => ?_⟩
    refine confirming_checkpoint hc (unconfirmed_next hg rfl) fun g'' s'' hconfirmed => ?_
    refine confirming_send fun st hst => ?_
    obtain ⟨now', hsettlement⟩ := hconfirmed st hst
    exact .retried htyped hn hsettlement
  | continueProcessing continuation =>
    refine Action.meets_check_bind (fun _ => trivial) fun _ => ?_
    refine Action.meets_check_bind (fun _ => trivial) fun _ => ?_
    refine Routine.Meets.bind (Q := fun g' _ _ => ∀ st, ¬ g' st) ?_ (fun g' s' _ hg => ?_)
      fun _ _ _ _ => trivial
    · rw [Action.meets_when]
      split
      · refine Routine.Meets.tryCatch (Q := fun g' _ _ => ∀ st : DurableSettlement, ¬ g' st) ?_
          (fun _ _ _ hg => hg) ?_
        · exact ⟨trivial, fun r _ => unconfirmed_next hnone rfl⟩
        · intro g' s' exc hg
          exact hg
      · exact hnone
    refine confirming_lift fun n hn => ?_
    refine confirming_checkpoint hc hg fun g'' s'' hconfirmed => ?_
    refine confirming_send fun st hst => ?_
    obtain ⟨now', hsettlement⟩ := hconfirmed st hst
    exact .continued hn continuation.destination_eq hsettlement

end Runs

section Envelopes

variable {Obj : Type} [Texts] {L : Listener Obj} {c : DurableConfiguration}
  {e e' copy : MessageEnvelope} {channel target : String} {maxRetries n m : Nat}
  {st : DurableSettlement} {policy : DurableJobPolicy} {now : Instant} {raw : Raw}
  {a : DurableDeliveryAdmission} {r q : DurableJob}

/-- The message is the delivery that the row waits for, wherever it was read. -/
structure Describes (e : MessageEnvelope) (r : DurableJob) : Prop where
  messageId : Value.str r.messageId = e.messageId
  messageType : Value.str r.messageType = e.messageType
  version : r.version = e.version
  payload : JsonSerializer.dumps r.payload = JsonSerializer.dumps e.payload
  headers : JsonSerializer.dumps (.dict r.headers) =
    JsonSerializer.dumps (.dict (DurableJobController.applicationHeaders e.headers))
  lastAttempt : DurableJobController.lastAttempt e.headers = .ok r.lastAttemptAt

/-- What an admission says of its message. -/
theorem admitted_eq {sourceQueue : String}
    (h : DurableJobController.admission policy e now sourceQueue n m = .ok (some a)) :
    DurableJobController.identity e = .ok (some (a.recordId, a.generation)) ∧
      e.messageKind = .str "command" ∧
      ∀ r : DurableJob, r.matchesAdmission a = true ↔ Describes e r ∧ r.queue = sourceQueue := by
  simp only [DurableJobController.admission, bind, Except.bind, pure, Except.pure, throw, throwThe,
    MonadExceptOf.throw] at h
  split at h
  · cases h
  rename_i x hx
  split at h
  · cases h
  split at h
  · cases h
  rename_i hk
  split at h
  · cases h
  rename_i t ht
  cases h
  refine ⟨hx, not_not.mp hk, fun r => ?_⟩
  simp only [DurableJob.matchesAdmission, Bool.and_eq_true, decide_eq_true_eq]
  constructor
  · rintro ⟨⟨⟨⟨⟨⟨hid, htype⟩, hversion⟩, hpayload⟩, hheaders⟩, hqueue⟩, hlast⟩
    exact ⟨⟨hid, htype, hversion, hpayload, hheaders, hlast ▸ ht⟩, hqueue⟩
  · rintro ⟨⟨hid, htype, hversion, hpayload, hheaders, hlast⟩, hqueue⟩
    rw [ht, Except.ok.injEq] at hlast
    exact ⟨⟨⟨⟨⟨⟨hid, htype⟩, hversion⟩, hpayload⟩, hheaders⟩, hqueue⟩, hlast.symm⟩

omit [Texts] in
/-- What a delivery belongs to is read as it is written. -/
theorem identity_read {x : String × Nat} (hheaders : e'.headers = settledEntries e.headers)
    (h : DurableJobController.identity e = .ok (some x)) :
    DurableJobController.identity e' = .ok (some x) := by
  obtain ⟨hrecord, hgeneration, -⟩ := DurableJobController.identity_eq_some h
  rw [DurableJobController.identity, hrecord, hgeneration] at h
  rw [DurableJobController.identity, hheaders, get_settledEntries, get_settledEntries, hrecord,
    hgeneration, settled_str, settled_int]
  exact h

omit [Texts] in
/-- What a settlement says of its message. -/
theorem settlement_eq {status : CommandDeliveryStatus} {sourceQueue : String}
    {destination : Option String} {t : Option Instant}
    (h : DurableJobController.settlement policy e now status sourceQueue destination n m t =
      .ok (some st)) :
    DurableJobController.identity e = .ok (some (st.recordId, st.generation)) ∧
      st.sourceQueue = sourceQueue ∧ st.destinationQueue = destination ∧ st.retryCount = n ∧
      st.maxRetries = m ∧ st.lastAttemptAt = t := by
  simp only [DurableJobController.settlement, bind, Except.bind, pure, Except.pure] at h
  split at h
  · cases h
  rename_i x hx
  split at h
  · cases h
  · cases h
    exact ⟨hx, rfl, rfl, rfl, rfl, rfl⟩

/-- What a listener publishes for a settlement says the same of its job, but for the retry. -/
structure Follows (L : Listener Obj) (e : MessageEnvelope) (st : DurableSettlement)
    (target : String) (copy : MessageEnvelope) : Prop where
  settled : DurableJobController.identity e = .ok (some (st.recordId, st.generation))
  identity : DurableJobController.identity copy = .ok (some (st.recordId, st.generation))
  queue : destinationOrSource st.destinationQueue st.sourceQueue = target
  valid : e.Valid → copy.Valid
  plain : e.Plain → copy.Plain
  message : copy = { e with payload := copy.payload, headers := copy.headers }
  headers : DurableJobController.applicationHeaders copy.headers =
    DurableJobController.applicationHeaders e.headers
  lastAttempt : ∀ t, DurableJobController.lastAttempt e.headers = .ok t →
    DurableJobController.lastAttempt copy.headers =
      .ok (if st.lastAttemptAt.isSome then st.lastAttemptAt else t)
  retryCount : L.retryCount copy = .ok st.retryCount

theorem Listener.Resends.follows [RoundTexts]
    (h : L.Resends c channel e maxRetries st target copy) :
    Follows L e st target copy ∧ st.maxRetries = maxRetries := by
  cases h with
  | @retried typed now now' n st htyped hn hsettlement =>
    obtain ⟨hid, hsource, hdestination, hretries, hmax, hlast⟩ := settlement_eq hsettlement
    refine ⟨⟨hid, identity_retried_eq.trans hid, ?_, id, retried_plain, rfl, ?_, ?_, ?_⟩, hmax⟩
    · rw [hdestination, hsource, destinationOrSource]
      split <;> rename_i hempty <;> simp [hempty]
    · rw [MessageEnvelope.retried, DurableJobController.applicationHeaders_set rfl,
        DurableJobController.applicationHeaders_set rfl]
    · intro t _
      rw [DurableJobController.lastAttempt, lastAttempt_retried, hlast]
      simp [RoundTexts.datetime_round, Datetime.instant, Datetime.utc]
    · have htyped' : L.isTyped (e.retried typed now n) = .ok typed := htyped
      simp only [Listener.retryCount, htyped', bind, Except.bind, pure, Except.pure, hretries,
        resolveRetryCount, retries_retried]
  | continued hn hqueue hsettlement =>
    obtain ⟨hid, hsource, hdestination, hretries, hmax, hlast⟩ := settlement_eq hsettlement
    refine ⟨⟨hid, hid, ?_, id, id, rfl, rfl, ?_, hretries ▸ hn⟩, hmax⟩
    · rw [hdestination, hsource, hqueue]
    · intro t ht
      rw [hlast]
      exact ht

/-- No count is lost or won on the wire, wherever it is carried. -/
theorem resolveRetryCount_payload {v : Value} {d : Dict} :
    resolveRetryCount (some v.settled) (settledEntries d) = resolveRetryCount (some v) d := by
  simp only [resolveRetryCount, get_settledEntries, validRetryCount_settled]
  cases v with
  | dict p => simp only [settled_dict, get_settledEntries, validRetryCount_settled]
  | _ => simp [Value.settled, inUtc, sortKeys]

theorem retryCount_settled (hkind : e'.messageKind = e.messageKind.settled)
    (htype : e'.messageType = e.messageType.settled)
    (hheaders : e'.headers = settledEntries e.headers) (hpayload : e'.payload = e.payload.settled) :
    L.retryCount e' = L.retryCount e := by
  rw [Listener.retryCount, Listener.retryCount, isTyped_settled hkind htype, hheaders, hpayload]
  cases L.isTyped e with
  | error exc => rfl
  | ok typed =>
    refine congrArg Except.ok ?_
    cases typed with
    | true => exact resolveRetryCount_settled
    | false => exact resolveRetryCount_payload

/-- A copy that is read is admitted as the delivery that its settlement announced. -/
theorem Follows.admitted (h : Follows L e st target copy)
    (hkind : e'.messageKind = copy.messageKind.settled)
    (hheaders : e'.headers = settledEntries copy.headers)
    (hcommand : e.messageKind = .str "command") {t : Option Instant}
    (hlast : DurableJobController.lastAttempt e.headers = .ok t) :
    ∃ a, DurableJobController.admission policy e' now target n m = .ok (some a) ∧
      a.recordId = st.recordId ∧ a.generation = st.generation ∧ a.retryCount = n ∧
      a.maxRetries = m := by
  have hidentity := identity_read hheaders h.identity
  have hkind' : e'.messageKind = .str "command" := by rw [hkind, h.message, hcommand, settled_str]
  have hlast' := DurableJobController.lastAttempt_settled (h.lastAttempt t hlast)
  rw [← hheaders] at hlast'
  exact ⟨_, DurableJobController.admission_eq hidentity hkind' hlast' policy now target n m,
    rfl, rfl, rfl, rfl⟩

/-- A copy that is read describes the row its settlement leaves, unless its payload has become
another. -/
theorem Follows.describes [RoundTexts] (h : Follows L e st target copy) (hv : e.Valid)
    (hp : e.Plain) (hd : copy.dump = .ok raw) (hr : read now raw = .ok e') (he : Describes e r)
    (hid : q.messageId = r.messageId) (hcolumns : q.columns = r.columns)
    (hlast : q.lastAttemptAt = (r.checkpoint st).lastAttemptAt) :
    Describes e' q ↔ JsonSerializer.dumps copy.payload = JsonSerializer.dumps e.payload := by
  obtain ⟨hheaders, hkind, htype⟩ := read_copy (h.valid hv) (h.plain hp) hd hr
  obtain ⟨hmessage, hversion, hpayload⟩ := read_copy_message (h.valid hv) (h.plain hp) hd hr
  simp only [DurableJob.columns, MessageColumns.mk.injEq] at hcolumns
  obtain ⟨hqtype, hqversion, hqpayload, hqheaders⟩ := hcolumns
  have hcopy := h.message
  have hwritten : JsonSerializer.dumps e'.payload = JsonSerializer.dumps copy.payload := by
    rw [hpayload, dumps_settled]
  constructor
  · intro hq
    rw [← hwritten, ← hq.payload, hqpayload, he.payload]
  · intro hsame
    refine ⟨?_, ?_, ?_, ?_, ?_, ?_⟩
    · rw [hid, hmessage, hcopy, ← he.messageId, settled_str]
    · rw [hqtype, htype, hcopy, ← he.messageType, settled_str]
    · rw [hqversion, hversion, hcopy, he.version]
    · rw [hqpayload, hwritten, hsame, he.payload]
    · rw [hqheaders, hheaders, DurableJobController.dumps_applicationHeaders, h.headers, he.headers]
    · rw [hheaders, hlast]
      exact DurableJobController.lastAttempt_settled (h.lastAttempt _ he.lastAttempt)

end Envelopes

section Rows

variable [Texts] {e : MessageEnvelope} {id : Uuid} {r r' : DurableJob} {db db' : Database}
  {op : StoreOp} {env : Surroundings} {st : DurableSettlement}

/-- The event is a checkpoint of that generation of the job. -/
def StoreEvent.Checkpoints (ev : StoreEvent) (id : Uuid) (g : Nat) : Prop :=
  ∃ st, ev.op = .checkpointSettlement st ∧ uuidFromText st.recordId = some id ∧ st.generation = g

/-- Within a generation only a checkpoint changes the time of the last attempt. -/
theorem JobChange.lastAttempt (h : JobChange db env op id r r')
    (hg : r'.generation = r.generation) :
    r'.lastAttemptAt = r.lastAttemptAt ∨ ∃ st, op = .checkpointSettlement st ∧
      uuidFromText st.recordId = some id ∧ st.generation = r.generation := by
  cases h with
  | checkpointed hid hst _ _ _ _ => exact .inr ⟨_, rfl, hid, hst.symm⟩
  | claimed _ _ => simp [DurableJob.claim] at hg
  | published _ _ _ _ =>
    left
    unfold DurableJob.publish
    split <;> rfl
  | _ => exact .inl rfl

theorem Describes.congr (h : Describes e r) (hid : r'.messageId = r.messageId)
    (hcolumns : r'.columns = r.columns) (hlast : r'.lastAttemptAt = r.lastAttemptAt) :
    Describes e r' := by
  simp only [DurableJob.columns, MessageColumns.mk.injEq] at hcolumns
  obtain ⟨htype, hversion, hpayload, hheaders⟩ := hcolumns
  exact ⟨hid ▸ h.messageId, htype ▸ h.messageType, hversion ▸ h.version, hpayload ▸ h.payload,
    hheaders ▸ h.headers, hlast ▸ h.lastAttempt⟩

/-- The checkpoint of a settlement is the running row's, or ends it with its series. -/
theorem checkpointSettlement_spec (h : checkpointSettlement st env db = .ok ((), db')) :
    ∃ id r, uuidFromText st.recordId = some id ∧ db.jobs.row id = some r ∧
      r.generation = st.generation ∧ r.maxRetries = some st.maxRetries ∧
      (db' = db.setJob id (r.checkpoint st) ∨ db' = db.setJob id (r.cancel env.now)) := by
  unfold checkpointSettlement at h
  obtain ⟨⟨n, db₁⟩, hx, h⟩ := bind_eq_ok h
  dsimp only at h
  split at h
  · cases h
  rename_i hn
  cases h
  rcases guardedSeriesUpdate_spec hx with ⟨rfl, -⟩ | ⟨id, r, -, hid, hr, hp, -, hend⟩
  · exact absurd (by simp) hn
  · simp only [Bool.and_eq_true, decide_eq_true_eq] at hp
    exact ⟨id, r, hid, hr, hp.1.1, hp.2, hend.imp And.right And.right⟩

variable [Calendar] {ev : StoreEvent} {es : List StoreEvent} {g : Nat}

/-- A message describes its row until that is settled or claimed again. -/
theorem describes_step (h : StoreStep db ev db') (hn : ¬ ev.Checkpoints id g)
    (hr : db.jobs.row id = some r) (hle : g ≤ r.generation)
    (hd : r.generation = g → Describes e r) :
    ∃ r', db'.jobs.row id = some r' ∧ g ≤ r'.generation ∧ (r'.generation = g → Describes e r') := by
  obtain ⟨r', hr', rfl | hc⟩ := h.changes.job id r hr
  · exact ⟨r', hr', hle, hd⟩
  have hsame := h.changes.grows.job_eq hr hr'
  have hgen := hc.generation_le
  refine ⟨r', hr', hle.trans hgen, fun hg => ?_⟩
  have hrg : r.generation = g := by omega
  rcases hc.lastAttempt (hg.trans hrg.symm) with hlast | ⟨st, hop, hid, hst⟩
  · exact (hd hrg).congr hsame.message hsame.columns hlast
  · exact absurd ⟨st, hop, hid, hst.trans hrg⟩ hn

theorem describes_run (h : Path StoreStep db es db') (hn : ∀ ev ∈ es, ¬ ev.Checkpoints id g)
    (hr : db.jobs.row id = some r) (hle : g ≤ r.generation)
    (hd : r.generation = g → Describes e r) :
    ∃ r', db'.jobs.row id = some r' ∧ g ≤ r'.generation ∧ (r'.generation = g → Describes e r') := by
  induction h generalizing r with
  | refl => exact ⟨r, hr, hle, hd⟩
  | head hs _ ih =>
    obtain ⟨r₁, hr₁, hle₁, hd₁⟩ := describes_step hs (hn _ (List.mem_cons_self ..)) hr hle hd
    exact ih (fun ev hev => hn ev (List.mem_cons_of_mem _ hev)) hr₁ hle₁ hd₁

/-- A limit that a job is known under stays. -/
theorem maxRetries_path {m : Nat} (h : Path StoreStep db es db') (hr : db.jobs.row id = some r)
    (hm : r.maxRetries = some m) : ∃ r', db'.jobs.row id = some r' ∧ r'.maxRetries = some m := by
  induction h generalizing r with
  | refl => exact ⟨r, hr, hm⟩
  | head hs _ ih =>
    obtain ⟨r₁, hr₁, rfl | hc⟩ := hs.changes.job id r hr
    · exact ih hr₁ hm
    · exact ih hr₁ ((hc.continues.maxRetries (by simp [hm])).trans hm)

end Rows

section Settled

variable {Obj : Type} [Texts] [Calendar] {L : Listener Obj} {c : DurableConfiguration}
  {e e' copy : MessageEnvelope} {channel target : String} {maxRetries n : Nat} {k : Claim}
  {p : Action Obj Unit} {s : ListenerState} {pre post : Trace Obj}
  {x : Except Exc Unit × ListenerState} {st : DurableSettlement} {k' : Claim}
  {message raw : Raw} {now time time' : Instant} {a : DurableDeliveryAdmission} {id : Uuid}
  {env env' : Surroundings} {es₀ es₁ : List StoreEvent} {db₀ db₁ db₂ db₃ : Database}

/-- The checkpoint of an admitted delivery leaves a row that waits for its copy, or has ended. -/
theorem checkpoint_undelivered (hproceed : admitDelivery a env db₀ = .ok (.proceed, db₁))
    (hadmission : DurableJobController.admission c.policy e time channel n maxRetries =
      .ok (some a))
    (hpath : Path StoreStep db₁ es₁ db₂) (hid : uuidFromText a.recordId = some id)
    (hsole : ∀ ev ∈ es₁, ¬ ev.Checkpoints id a.generation)
    (hrecord : st.recordId = a.recordId) (hgeneration : st.generation = a.generation)
    (hcheckpoint : checkpointSettlement st env' db₂ = .ok ((), db₃)) :
    ∃ r, r.generation = a.generation ∧ Describes e r ∧
      Undelivered ((r.checkpoint st).toClaim id) id db₃ ∧
      ∃ q, db₃.jobs.row id = some q ∧ q.maxRetries = some st.maxRetries := by
  obtain ⟨-, -, hmatches⟩ := admitted_eq hadmission
  obtain ⟨i, r₀, -, hi, hr₀, hg₀, -, hdecide, rfl⟩ | ⟨_, _, hd, -⟩ | ⟨hd, -⟩ :=
    admitDelivery_spec hproceed
  · obtain ⟨j, r, hj, hr, hg, hmax, hend⟩ := checkpointSettlement_spec hcheckpoint
    obtain rfl : id = i := Option.some.inj (hid.symm.trans hi)
    obtain rfl : id = j := Option.some.inj (hid.symm.trans (hrecord ▸ hj))
    have hdescribes₀ := ((hmatches r₀).mp (decideAdmission_proceed hdecide).2.2.1).1
    have hrow₁ : (db₀.setJob id (r₀.admitted a env.now)).jobs.row id =
        some (r₀.admitted a env.now) := Database.setJob_row hr₀
    obtain ⟨r', hr', -, hdescribes⟩ := describes_run hpath hsole hrow₁ hg₀.ge
      fun _ => hdescribes₀.congr rfl rfl rfl
    rw [hr] at hr'
    cases hr'
    have hgen : r.generation = a.generation := hg.trans hgeneration
    refine ⟨r, hgen, hdescribes hgen, ?_⟩
    rcases hend with rfl | rfl
    · exact ⟨⟨_, Database.setJob_row hr, le_rfl, .inr (.inr ⟨rfl, .inl (by
        simp [DurableJob.checkpoint])⟩)⟩, _, Database.setJob_row hr, hmax⟩
    · exact ⟨⟨_, Database.setJob_row hr, le_rfl, .inr (.inl rfl)⟩, _, Database.setJob_row hr, hmax⟩
  · cases hd
  · exact absurd rfl hd

omit [Calendar] in
/-- What a row that waits for the copy has in common with the row that was settled. -/
theorem Expects.checkpointed {r q : DurableJob}
    (h : Expects ((r.checkpoint st).toClaim id) id q) :
    q.messageId = r.messageId ∧ q.columns = r.columns ∧
      q.queue = destinationOrSource st.destinationQueue st.sourceQueue ∧
      q.lastAttemptAt = (r.checkpoint st).lastAttemptAt := by
  have hq := h.claim
  refine ⟨congrArg DurableJobClaim.messageId hq, ?_, congrArg DurableJobClaim.queue hq,
    congrArg DurableJobClaim.lastAttemptAt hq⟩
  exact congrArg DurableJobClaim.columns hq

/-- The copy that a listener publishes of an admitted delivery, once the store has confirmed its
settlement, carries the retries that were settled wherever it is read, and is answered by the store
as long as nobody takes it or brings another outcome: a worker is told to proceed with it if and
only if the job is still at that generation, not ended and in an open series, and the payload was
published as it had been admitted. For any other payload the worker is told to abort. -/
theorem settled_copy_admitted [RoundTexts] (hreach : Path StoreStep .empty es₀ db₀)
    (hread : MessageEnvelope.read now message = .ok e)
    (hcontroller : L.durableJobController = some c)
    (hadmission : DurableJobController.admission c.policy e time channel n maxRetries =
      .ok (some a))
    (hproceed : admitDelivery a env db₀ = .ok (.proceed, db₁)) (hpath : Path StoreStep db₁ es₁ db₂)
    (hid : uuidFromText a.recordId = some id)
    (hsole : ∀ ev ∈ es₁, ¬ ev.Checkpoints id a.generation)
    (hsettles : L.Settles channel e maxRetries k p)
    (hrun : (p s).Runs (pre ++ ⟨.store (.checkpointSettlement st) (some k), .ok ()⟩ :: post) x)
    (hcheckpoint : checkpointSettlement st env' db₂ = .ok ((), db₃))
    (hpublished : .published target raw k' ∈ journal post)
    (hcopy : MessageEnvelope.read time' raw = .ok e') :
    L.retryCount e' = .ok st.retryCount ∧ ∃ copy,
      L.Resends c channel e maxRetries st target copy ∧ copy.dump = .ok raw ∧
      ∀ (policy : DurableJobPolicy) (time'' : Instant), ∃ a',
        DurableJobController.admission policy e' time'' target st.retryCount maxRetries =
          .ok (some a') ∧
        ∀ es db env'', Path StoreStep db₃ es db →
          (∀ ev ∈ es, ¬ ev.Delivers id a.generation target st.retryCount) →
          ∃ q decision db', db.jobs.row id = some q ∧
            admitDelivery a' env'' db = .ok (decision, db') ∧
            (decision = .proceed ↔ q.generation = a.generation ∧ q.state.terminal = false ∧
              seriesOpen db q = true ∧
              JsonSerializer.dumps copy.payload = JsonSerializer.dumps e.payload) ∧
            (decision = .abort ↔ q.generation = a.generation ∧ q.state.terminal = false ∧
              seriesOpen db q = true ∧
              JsonSerializer.dumps copy.payload ≠ JsonSerializer.dumps e.payload) := by
  have hconfirms := confirming_settles (g := fun _ => False) (s := s) hcontroller hsettles
    fun _ h => h
  obtain ⟨copy, hresends, hdump⟩ := confirmed_published hconfirms hrun rfl hpublished
  obtain ⟨hfollows, hmax⟩ := hresends.follows
  obtain ⟨hheaders, hkind, htype⟩ := read_copy (hfollows.valid (read_valid hread))
    (hfollows.plain (read_plain hread)) hdump hcopy
  obtain ⟨-, -, hpayload⟩ := read_copy_message (hfollows.valid (read_valid hread))
    (hfollows.plain (read_plain hread)) hdump hcopy
  obtain ⟨hidentity, hcommand, -⟩ := admitted_eq hadmission
  obtain ⟨hrecord, hgeneration⟩ : st.recordId = a.recordId ∧ st.generation = a.generation := by
    have hsame := hfollows.settled.symm.trans hidentity
    simpa only [Except.ok.injEq, Option.some.injEq, Prod.mk.injEq] using hsame
  obtain ⟨r, hgen, hdescribes, hwaits, q₃, hq₃, hmax₃⟩ :=
    checkpoint_undelivered hproceed hadmission hpath hid hsole hrecord hgeneration hcheckpoint
  refine ⟨(retryCount_settled hkind htype hheaders hpayload).trans hfollows.retryCount, copy,
    hresends, hdump, fun policy time'' => ?_⟩
  obtain ⟨a', hadmitted, harecord, hageneration, haretries, hamax⟩ : ∃ a',
      DurableJobController.admission policy e' time'' target st.retryCount maxRetries =
        .ok (some a') ∧ a'.recordId = st.recordId ∧ a'.generation = st.generation ∧
        a'.retryCount = st.retryCount ∧ a'.maxRetries = maxRetries :=
    hfollows.admitted hkind hheaders hcommand hdescribes.lastAttempt
  obtain ⟨-, -, hmatches⟩ := admitted_eq hadmitted
  refine ⟨a', hadmitted, fun es db env'' hlater hnone => ?_⟩
  rw [← hgen, ← hfollows.queue] at hnone
  obtain ⟨q, hq, hle, hcase⟩ := undelivered_run hlater hnone hwaits
  obtain ⟨q', hq', hlimit⟩ := maxRetries_path hlater hq₃ hmax₃
  rw [hq] at hq'
  cases hq'
  have hexist : SeriesExist db := by
    have hadmit : StoreStep db₀ ⟨.admitDelivery a, env, .ok .proceed⟩ db₁ := .ok hproceed
    have hsettled : StoreStep db₂ ⟨.checkpointSettlement st, env', .ok ()⟩ db₃ := .ok hcheckpoint
    refine hlater.invariant (fun _ _ _ => seriesExist_step) (seriesExist_step hsettled ?_)
    refine hpath.invariant (fun _ _ _ => seriesExist_step) (seriesExist_step hadmit ?_)
    exact seriesExist_run hreach
  have haid : uuidFromText a'.recordId = some id := by rw [harecord, hrecord, hid]
  obtain ⟨db', hanswer⟩ : ∃ db', admitDelivery a' env'' db = .ok (verdict db a' q, db') :=
    admitDelivery_answers hexist haid hq
  have htakes : q.Takes a'.maxRetries := .inr (by rw [hlimit, hmax, hamax])
  have hverdict := Expects.verdict_iff db
    (JsonSerializer.dumps copy.payload = JsonSerializer.dumps e.payload) hle hcase
    (hageneration.trans (hgeneration.trans hgen.symm)) haretries fun q hexpects => ?_
  · simp only [htakes, and_true] at hverdict
    exact ⟨q, _, db', hq, hanswer, hgen ▸ hverdict⟩
  · obtain ⟨hmessage, hcolumns, hqueue, hlast⟩ := hexpects.checkpointed
    rw [hmatches, hqueue, hfollows.queue, and_iff_left rfl]
    exact hfollows.describes (read_valid hread) (read_plain hread) hdump hcopy hdescribes hmessage
      hcolumns hlast

end Settled

section Sample

local instance settledTexts : Texts := .lawful
local instance settledRounds : RoundTexts := roundTexts_lawful
local instance settledCalendar : Calendar := .daily

/-- Surroundings that take every settlement and every copy. -/
def settlingAnswer : Unit → (o : Call Unit) → o.Answer × Unit
  | (), .store (.checkpointSettlement _) _ => (.ok (), ())
  | (), .store (.applyOutcome _ _) _ => (.ok (), ())
  | (), o => ((queueAnswer [] o).1, ())

/-- The job of a delivery that a worker has been told to proceed with. -/
def claimedJob : Database :=
  (runAll [(.schedule sampleDraft, sampleSurroundings),
    (.claim "w" 0 30000000, sampleSurroundings)] .empty).2

def stalledAdmission : DurableDeliveryAdmission where
  recordId := uuidText 1
  generation := 1
  sourceQueue := "pybus.jobs"
  retryCount := 0
  maxRetries := 10
  messageId := .str "m1"
  messageType := .str "invoice.send"
  version := 1
  payload := .dict []
  applicationHeaders := []
  admittedAt := some 0
  reconciliationDueAt := some 300000000

def settlementOf (status : CommandDeliveryStatus) (n : Nat) (t : Option Instant) :
    DurableSettlement where
  recordId := uuidText 1
  generation := 1
  status := status
  sourceQueue := "pybus.jobs"
  destinationQueue := some "pybus.jobs"
  retryCount := n
  maxRetries := 10
  reconciliationDueAt := 300000000
  lastAttemptAt := t

theorem settled_rows : ∃ db₁, admitDelivery stalledAdmission sampleSurroundings claimedJob =
    .ok (.proceed, db₁) ∧ ∀ status n t, ∃ db₂ q,
      checkpointSettlement (settlementOf status n t) sampleSurroundings db₁ = .ok ((), db₂) ∧
      db₂.jobs.row 1 = some q ∧ q.generation = 1 ∧ q.state = .settling ∧ q.seriesId = none := by
  have hid : uuidFromText (uuidText 1) = some 1 := uuid_round 1
  have hproceed : ∃ db₁, admitDelivery stalledAdmission sampleSurroundings claimedJob =
      .ok (.proceed, db₁) ∧ (db₁.jobs.row 1).any (fun r => r.generation = 1 && r.state = .running &&
        r.retryCount = 0 && r.maxRetries = some 10 && r.seriesId = none) = true := by
    unfold admitDelivery
    simp only [stalledAdmission, hid]
    exact ⟨_, rfl, rfl⟩
  obtain ⟨db₁, hadmitted, hrow⟩ := hproceed
  refine ⟨db₁, hadmitted, fun status n t => ?_⟩
  obtain ⟨r, hr, hfacts⟩ := (Option.any_eq_true _ _).mp hrow
  simp only [Bool.and_eq_true, decide_eq_true_eq] at hfacts
  obtain ⟨⟨⟨⟨hgen, hstate⟩, hretries⟩, hmax⟩, hseries⟩ := hfacts
  refine ⟨db₁.setJob 1 (r.checkpoint (settlementOf status n t)), _, ?_, Database.setJob_row hr,
    hgen, rfl, hseries⟩
  simp [checkpointSettlement, guardedSeriesUpdate, settlementOf, hid, hr, hgen, hstate, hretries,
    hmax, lockSeries, hseries, bind, Except.bind, pure, Except.pure]

/-- What the worker does when its handler asks to continue, and when it fails. -/
def settlingPlay (p : Action Unit Unit) : Trace Unit × Except Exc Unit × ListenerState :=
  (p {}).play settlingAnswer ()

theorem settled_copy_admitted_continued : ∃ raw e' a' db db',
    .published "pybus.jobs" raw ⟨some "r1", 0⟩ ∈ journal (settlingPlay
      (sampleListener.continueProcessing "pybus.jobs" stalledEnvelope {} 10 ⟨some "r1", 0⟩)).1 ∧
    MessageEnvelope.read 0 raw = .ok e' ∧
    DurableJobController.admission {} e' 0 "pybus.jobs" 0 10 = .ok (some a') ∧
    admitDelivery a' sampleSurroundings db = .ok (.proceed, db') := by
  obtain ⟨db₁, hproceed, hrows⟩ := settled_rows
  obtain ⟨db₂, q, hcheckpoint, hq, hgen, hstate, hseries⟩ := hrows .continued 0 none
  obtain ⟨post, raw, e', htrace, hpublished, hcopy⟩ : ∃ post raw e', (settlingPlay
      (sampleListener.continueProcessing "pybus.jobs" stalledEnvelope {} 10 ⟨some "r1", 0⟩)).1 =
        [⟨.now, (0 : Instant)⟩] ++ ⟨.store (.checkpointSettlement (settlementOf .continued 0 none))
          (some ⟨some "r1", 0⟩), .ok ()⟩ :: post ∧
        .published "pybus.jobs" raw ⟨some "r1", 0⟩ ∈ journal post ∧
        MessageEnvelope.read 0 raw = .ok e' := ⟨_, _, _, rfl, List.mem_cons_self .., rfl⟩
  have hrun : (sampleListener.continueProcessing "pybus.jobs" stalledEnvelope {} 10 ⟨some "r1", 0⟩
      {}).Runs _ _ := htrace ▸ Prog.play_runs
  have hread : MessageEnvelope.read 0 stalled.bytes = .ok stalledEnvelope := by decide
  have hadmission : DurableJobController.admission ({} : DurableConfiguration).policy
      stalledEnvelope 0 "pybus.jobs" 0 10 = .ok (some stalledAdmission) := rfl
  obtain ⟨-, copy, hresends, -, hadmits⟩ := settled_copy_admitted (runAll_path _ _) hread rfl
    hadmission hproceed (.refl _) (uuid_round 1) (by simp) (.continueProcessing {}) hrun hcheckpoint
    hpublished hcopy
  obtain ⟨a', ha', hanswers⟩ := hadmits {} 0
  obtain ⟨q', decision, db', hq', hanswer, hdecision, -⟩ :=
    hanswers [] db₂ sampleSurroundings (.refl _) (by simp)
  rw [hq] at hq'
  cases hq'
  have hsame : JsonSerializer.dumps copy.payload =
      JsonSerializer.dumps stalledEnvelope.payload := by
    cases hresends with
    | retried _ _ hsettlement =>
      obtain ⟨-, -, -, -, -, hlast⟩ := settlement_eq hsettlement
      cases hlast
    | continued _ _ _ => rfl
  have hproceeds : decision = .proceed :=
    hdecision.mpr ⟨hgen, by rw [hstate]; rfl, by simp [seriesOpen, hseries], hsame⟩
  exact ⟨raw, e', a', db₂, db', htrace ▸ List.mem_append_right _ hpublished, hcopy, ha',
    hproceeds ▸ hanswer⟩

end Sample

end Pybus
