import Pybus.Working
import Pybus.Guarantees

/-! What becomes of the messages of a batch: each is settled once, by a call about its own claim. -/
namespace Pybus

open Value Texts Interaction Listener Action

variable {Obj : Type}

/-- A call that moves a message or lets go of one. -/
inductive Entry
  | published (channel : String) (message : Raw) (claim : Claim)
  | acked (receipt : String) (claim : Claim)
  deriving DecidableEq

/-- What a call enters in the journal. -/
def Entry.ofCall : Call Obj → Option Entry
  | .publish channel message k => some (.published channel message k)
  | .ack receipt k => some (.acked receipt k)
  | _ => none

/-- The messages a run published and the receipts it acked, in order. -/
def journal (tr : Trace Obj) : List Entry := tr.flatMap fun e => (Entry.ofCall e.op).toList

/-- The handler of a batch raised. -/
def batchRaises (o : Call Obj) (r : o.Answer) : Bool :=
  match o, r with
  | .batchHandler _ _ _, .error _ => true
  | _, _ => false

def HandlerRaised (tr : Trace Obj) : Bool := tr.any fun e => batchRaises e.op e.answer

/-- The claims of the messages that a batch handler was called with. -/
def handed (tr : Trace Obj) : List Claim :=
  tr.flatMap fun e =>
    match e.op with
    | .batchHandler _ _ ks => ks
    | _ => []

/-- The messages that a call took, each with the number of its claim. -/
def takes (o : Call Obj) (r : o.Answer) : List (RawMessage × Nat) :=
  match o, r with
  | .consume _ _ n, .ok (some m) => [(m, n)]
  | .consumeMany _ _ n, .ok messages => messages.zipIdx n
  | _, _ => []

def Takes (tr : Trace Obj) : List (RawMessage × Nat) := tr.flatMap fun e => takes e.op e.answer

/-- A transport that works: it hands over messages and takes every copy and every ack. Sleeps and
observers return. -/
def Obliging (o : Call Obj) (r : o.Answer) : Prop :=
  match o, r with
  | .consume _ _ _, r => ∃ m, r = .ok m
  | .consumeMany _ _ _, r => ∃ messages, r = .ok messages
  | .size _, r => ∃ n, r = .ok n
  | .publish _ _ _, r => r = .ok ()
  | .ack _ _, r => r = .ok ()
  | .sleepFn _, r => r = .ok ()
  | .observer _ _ _, r => r = .ok ()
  | _, _ => True

/-- The monitor that records every call that is not silent. -/
def recording (A : Assumption Obj) : Monitor (Calls Obj) (Trace Obj) where
  permits _ _ := True
  assumes _ o r := A o r
  next g o r := if o.silent then g else g ++ [⟨o, r⟩]

section Recording

variable {A : Assumption Obj} {g tr tr' : Trace Obj} {k : Claim} {channel : String} {raw : Raw}

/-- The calls of a trace that are not silent. -/
def loud (tr : Trace Obj) : Trace Obj := tr.filter fun e => !e.op.silent

theorem after_recording : (recording A).after g tr = g ++ loud tr := by
  induction tr generalizing g with
  | nil => simp [loud]
  | cons e tr ih =>
    rw [Monitor.after_cons, ih]
    cases h : e.op.silent <;> simp [recording, loud, h]

/-- Silent calls leave no mark in what is read off a trace. -/
theorem flatMap_loud {β : Type} {f : Event (Calls Obj) → List β}
    (hf : ∀ e, e.op.silent = true → f e = []) : (loud tr).flatMap f = tr.flatMap f := by
  induction tr with
  | nil => rfl
  | cons e tr ih =>
    rw [List.flatMap_cons, ← ih]
    cases h : e.op.silent with
    | true => simp [loud, h, hf e h]
    | false => simp [loud, h]

theorem journal_loud : journal (loud tr) = journal tr := by
  refine flatMap_loud fun e h => ?_
  obtain ⟨o, r⟩ := e
  cases o <;> first | rfl | cases h

theorem handed_loud : handed (loud tr) = handed tr := by
  refine flatMap_loud fun e h => ?_
  obtain ⟨o, r⟩ := e
  cases o <;> first | rfl | cases h

theorem takes_loud : Takes (loud tr) = Takes tr := by
  refine flatMap_loud fun e h => ?_
  obtain ⟨o, r⟩ := e
  cases o <;> first | rfl | cases h

theorem recording_works (hA : ∀ o r, A o r → Obliging o r) : Works (recording A) where
  permits _ _ := trivial
  publish _ channel message k r h := hA (.publish channel message k) r h
  ack _ receipt k r h := hA (.ack receipt k) r h
  sleepFn _ seconds r h := hA (.sleepFn seconds) r h
  observer _ i outcome k r h := hA (.observer i outcome k) r h
  silent _ _ _ h := if_pos h

theorem journal_append : journal (tr ++ tr') = journal tr ++ journal tr' := by simp [journal]

theorem handed_append : handed (tr ++ tr') = handed tr ++ handed tr' := by simp [handed]

theorem takes_append : Takes (tr ++ tr') = Takes tr ++ Takes tr' := by simp [Takes]

theorem handlerRaised_append :
    HandlerRaised (tr ++ tr') = (HandlerRaised tr || HandlerRaised tr') := by
  simp [HandlerRaised]

/-- The ack of a claim: of its own receipt, if it has one. -/
def acks (k : Claim) : List Entry := k.receipt.toList.map fun receipt => .acked receipt k

/-- The calls that an entry stands for, as a transport that works answers them. -/
def Entry.event : Entry → Event (Calls Obj)
  | .published channel message k => ⟨.publish channel message k, .ok ()⟩
  | .acked receipt k => ⟨.ack receipt k, .ok ()⟩

def events (es : List Entry) : Trace Obj := es.map Entry.event

theorem events_append {es es' : List Entry} :
    (events (es ++ es') : Trace Obj) = events es ++ events es' := by simp [events]

@[simp] theorem journal_events {es : List Entry} : journal (events es : Trace Obj) = es := by
  induction es with
  | nil => rfl
  | cons x es ih => cases x <;> simpa [journal, events, Entry.event, Entry.ofCall] using ih

@[simp] theorem handed_events {es : List Entry} : handed (events es : Trace Obj) = [] := by
  simp only [handed, events, List.flatMap_eq_nil_iff, List.mem_map]
  rintro _ ⟨x, -, rfl⟩
  cases x <;> rfl

@[simp] theorem takes_events {es : List Entry} : Takes (events es : Trace Obj) = [] := by
  simp only [Takes, events, List.flatMap_eq_nil_iff, List.mem_map]
  rintro _ ⟨x, -, rfl⟩
  cases x <;> rfl

@[simp] theorem handlerRaised_events {es : List Entry} :
    HandlerRaised (events es : Trace Obj) = false := by
  simp only [HandlerRaised, events, List.any_eq_false, List.mem_map]
  rintro _ ⟨x, -, rfl⟩
  cases x <;> simp [Entry.event, batchRaises]

theorem acked_recording : acked (recording A) k g = g ++ events (acks k) := by
  unfold acked acks
  cases k.receipt <;> simp [recording, events, Entry.event, Call.silent]

theorem sent_recording : sent (recording A) channel raw k g =
    g ++ events [.published channel raw k] := by
  simp [sent, recording, events, Entry.event, Call.silent]

theorem settled_recording : acked (recording A) k (sent (recording A) channel raw k g) =
    g ++ events (.published channel raw k :: acks k) := by
  rw [sent_recording, acked_recording, List.append_assoc, ← events_append]
  rfl

end Recording

section Batch

variable [Texts] {L : Listener Obj}

namespace Listener

/-- A message of a batch, read and decoded. -/
def decoded (L : Listener Obj) (now : Instant) (message : Raw) :
    Except Exc (MessageEnvelope × Message Obj) :=
  (MessageEnvelope.read now message).bind fun e =>
    (L.dispatcher.decode e).map fun event => (e, event)

/-- How a message that could be decoded is settled: acked if the handler returned; if it raised,
sent again with one more retry as long as it has one left, else dead-lettered. -/
inductive Decided (L : Listener Obj) (buffer : String) (maxRetries : Nat) (raised : Bool)
    (e : MessageEnvelope) (k : Claim) : List Entry → Prop
  | acked : raised = false → Decided L buffer maxRetries raised e k (acks k)
  | requeued {typed : Bool} {now : Instant} {n : Nat} {raw : Raw} : raised = true →
      L.retryCount e = .ok n → n < maxRetries → L.isTyped e = .ok typed →
      (e.retried typed now n).dump = .ok raw →
      L.retryCount (e.retried typed now n) = .ok (n + 1) →
      Decided L buffer maxRetries raised e k (.published buffer raw k :: acks k)
  | deadLettered {n : Nat} {raw : Raw} : raised = true → L.retryCount e = .ok n →
      maxRetries ≤ n → (e.buried buffer).dump = .ok raw →
      Decided L buffer maxRetries raised e k (.published L.deadLetterChannel raw k :: acks k)

/-- How a message of a batch is settled, whose handler was called with the claims `ks`. What cannot
be decoded leaves a poison record. -/
inductive Outcome (L : Listener Obj) (buffer : String) (maxRetries : Nat) (raised : Bool)
    (ks : List Claim) : RawMessage × Nat → List Entry → Prop
  | undecodable {m : RawMessage} {n : Nat} {now now' : Instant} {u : Uuid} {exc : Exc} {raw : Raw} :
      L.decoded now m.bytes = .error exc → (poison buffer m.bytes exc u now').dump = .ok raw →
      Outcome L buffer maxRetries raised ks (m, n)
        (.published L.deadLetterChannel raw ⟨m.receipt, n⟩ :: acks ⟨m.receipt, n⟩)
  | decoded {m : RawMessage} {n : Nat} {now : Instant} {e : MessageEnvelope} {event : Message Obj}
      {es : List Entry} : L.decoded now m.bytes = .ok (e, event) → ⟨m.receipt, n⟩ ∈ ks →
      L.Decided buffer maxRetries raised e ⟨m.receipt, n⟩ es →
      Outcome L buffer maxRetries raised ks (m, n) es

end Listener

/-- The copy of a message that is sent for a retry carries one more retry than the message. -/
theorem retryCount_retried {e : MessageEnvelope} {typed : Bool} {now : Instant} {n : Nat}
    (hh : e.Hashable) : L.retryCount (e.retried typed now n) = .ok (n + 1) := by
  have hcopy : (e.retried typed now n).Hashable := hh
  obtain ⟨b, hb⟩ := isTyped_ok (L := L) hcopy
  have hget : get (e.retried typed now n).headers "retries" = .int (n + 1) := by
    rw [Value.get, MessageEnvelope.retried, lookup_set_ne (by decide), lookup_set]
    rfl
  have hcount : validRetryCount (.int (n + 1)) = some (n + 1) := by
    have hpos : ¬ ((n : Int) + 1 < 0) := by omega
    have hnat : ((n : Int) + 1).toNat = n + 1 := by omega
    rw [validRetryCount, if_neg hpos, hnat]
  rw [retryCount, hb]
  simp only [resolveRetryCount, hget, hcount, bind, Except.bind, pure, Except.pure]

/-- A message that, once it is decoded, is one whose copies can be sent. -/
def Copyable (L : Listener Obj) (m : RawMessage) : Prop :=
  ∀ now e event, L.decoded now m.bytes = .ok (e, event) →
    e.Dumpable ∧ DurableJobController.identity e = .ok none

theorem decoded_eq_ok {now : Instant} {message : Raw} {e : MessageEnvelope} {event : Message Obj}
    (h : L.decoded now message = .ok (e, event)) :
    MessageEnvelope.read now message = .ok e ∧ L.dispatcher.decode e = .ok event := by
  unfold decoded at h
  cases hr : MessageEnvelope.read now message with
  | error exc => simp [hr, Except.bind] at h
  | ok e' =>
    cases hdec : L.dispatcher.decode e' with
    | error exc => simp [hr, hdec, Except.bind, Except.map] at h
    | ok event' =>
      simp only [hr, hdec, Except.bind, Except.map, Except.ok.injEq, Prod.mk.injEq] at h
      obtain ⟨rfl, rfl⟩ := h
      exact ⟨rfl, hdec⟩

theorem Copyable.sendable {m : RawMessage} {now : Instant} {e : MessageEnvelope}
    {event : Message Obj} (hm : Copyable L m) (hd : L.decoded now m.bytes = .ok (e, event)) :
    Sendable e := by
  obtain ⟨hdump, hi⟩ := hm now e event hd
  obtain ⟨hr, hdec⟩ := decoded_eq_ok hd
  exact ⟨MessageEnvelope.read_valid hr, hdump, hashable_of_decode hdec, hi⟩

section Runs

variable {A : Assumption Obj} {g : Trace Obj} {s : ListenerState} {buffer : String}
  {maxRetries : Nat}

omit [Texts] in
theorem ackAll_recording (hw : Works (recording A)) (ks : List Claim) :
    (ackAll ks).Does (recording A) (fun g' _ => g' = g ++ events (ks.map acks).flatten) g s := by
  have hfold : ∀ g : Trace Obj, ks.foldl (fun g k => acked (recording A) k g) g =
      g ++ events (ks.map acks).flatten := by
    induction ks with
    | nil => exact fun g => (List.append_nil g).symm
    | cons k ks ih =>
      intro g
      rw [List.foldl_cons, ih, acked_recording, List.append_assoc, ← events_append]
      rfl
  refine (ackAll_works hw ks).mono ?_
  intro g' _ hg
  rw [hg, hfold]

theorem poison_recording (hw : Works (recording A)) {channel : String} {message : Raw} {exc : Exc}
    {k : Claim} : (L.deadLetterUndecodable channel message exc k).Does (recording A) (fun g' _ =>
      ∃ u now raw, (poison channel message exc u now).dump = .ok raw ∧
        g' = g ++ events (.published L.deadLetterChannel raw k :: acks k)) g s := by
  refine (deadLetterUndecodable_works hw).mono ?_
  rintro g' _ ⟨u, now, raw, hd, hg⟩
  exact ⟨u, now, raw, hd, hg.trans settled_recording⟩

/-- What settles the decoded part of a batch completes the settlement of the whole batch. -/
def Completes (L : Listener Obj) (buffer : String) (maxRetries : Nat) (l : List (RawMessage × Nat))
    (batch : List (MessageEnvelope × Message Obj × Claim)) (es : List Entry) : Prop :=
  ∀ raised ks rest, (∀ m ∈ batch, m.2.2 ∈ ks) →
    List.Forall₂ (fun m es => L.Decided buffer maxRetries raised m.1 m.2.2 es) batch rest →
    ∃ outcomes, List.Forall₂ (L.Outcome buffer maxRetries raised ks) l outcomes ∧
      (es ++ rest.flatten).Perm outcomes.flatten

theorem decodeBatch_recording (maxRetries : Nat) (hw : Works (recording A)) (l : List (RawMessage × Nat))
    (hl : ∀ m ∈ l, Copyable L m.1) :
    (L.decodeBatch buffer l).Does (recording A) (fun g' batch => (∀ m ∈ batch, Sendable m.1) ∧
      ∃ es, g' = g ++ events es ∧ Completes L buffer maxRetries l batch es) g s := by
  induction l generalizing g with
  | nil =>
    refine does_pure ⟨by simp, [], (List.append_nil g).symm, ?_⟩
    intro raised ks rest _ hrest
    cases hrest
    exact ⟨[], .nil, .refl _⟩
  | cons m l ih =>
    obtain ⟨m, n⟩ := m
    have hm : Copyable L m := hl _ List.mem_cons_self
    have ih' : ∀ {g : Trace Obj}, (L.decodeBatch buffer l).Does (recording A) _ g s :=
      ih fun m hm => hl m (List.mem_cons_of_mem _ hm)
    refine hw.now_bind fun now => ?_
    have hdecoded : ((MessageEnvelope.read now m.bytes).bind fun e =>
        (L.dispatcher.decode e).map fun event => (e, event)) = L.decoded now m.bytes := rfl
    simp only [hdecoded]
    cases hd : L.decoded now m.bytes with
    | ok x =>
      obtain ⟨e, event⟩ := x
      refine ih'.bind ?_
      rintro g' batch ⟨hbatch, es, rfl, hcompletes⟩
      refine does_pure ⟨?_, es, rfl, ?_⟩
      · intro x hx
        rcases List.mem_cons.mp hx with rfl | hx
        · exact hm.sendable hd
        · exact hbatch x hx
      · intro raised ks rest hks hrest
        cases hrest with
        | cons hown hrest =>
          rename_i own rest
          obtain ⟨outcomes, hall, hperm⟩ := hcompletes raised ks rest
            (fun x hx => hks x (List.mem_cons_of_mem _ hx)) hrest
          refine ⟨own :: outcomes, .cons (.decoded hd (hks _ List.mem_cons_self) hown) hall, ?_⟩
          rw [List.flatten_cons, List.flatten_cons]
          -- the message's own entries come after the poison records of the others
          have hmove : (es ++ (own ++ rest.flatten)).Perm (own ++ (es ++ rest.flatten)) := by
            rw [← List.append_assoc, ← List.append_assoc]
            exact List.perm_append_comm.append_right _
          exact hmove.trans (hperm.append_left own)
    | error exc =>
      refine (poison_recording hw).bind ?_
      rintro g₁ _ ⟨u, now', raw, hdump, rfl⟩
      refine ih'.mono ?_
      rintro g' batch ⟨hbatch, es, rfl, hcompletes⟩
      refine ⟨hbatch, _, by rw [List.append_assoc, ← events_append], ?_⟩
      intro raised ks rest hks hrest
      obtain ⟨outcomes, hall, hperm⟩ := hcompletes raised ks rest hks hrest
      refine ⟨_ :: outcomes, .cons (.undecodable hd hdump) hall, ?_⟩
      rw [List.flatten_cons, List.append_assoc]
      exact hperm.append_left _

theorem requeueBatch_recording (hw : Works (recording A)) (l : List (MessageEnvelope × Claim))
    (hl : ∀ m ∈ l, Sendable m.1) :
    (L.requeueBatch buffer maxRetries l).Does (recording A) (fun g' _ =>
      ∃ rest, List.Forall₂ (fun m es => L.Decided buffer maxRetries true m.1 m.2 es) l rest ∧
        g' = g ++ events rest.flatten) g s := by
  induction l generalizing g with
  | nil => exact does_pure ⟨[], .nil, (List.append_nil g).symm⟩
  | cons m l ih =>
    obtain ⟨e, k⟩ := m
    have he : Sendable e := hl _ List.mem_cons_self
    have hrest : ∀ {own : List Entry}, L.Decided buffer maxRetries true e k own →
        (L.requeueBatch buffer maxRetries l).Does (recording A) (fun g' _ =>
          ∃ rest, List.Forall₂ (fun m es => L.Decided buffer maxRetries true m.1 m.2 es)
            ((e, k) :: l) rest ∧ g' = g ++ events rest.flatten) (g ++ events own) s := by
      intro own hown
      refine (ih fun m hm => hl m (List.mem_cons_of_mem _ hm)).mono ?_
      rintro g' _ ⟨rest, hall, rfl⟩
      refine ⟨own :: rest, .cons hown hall, ?_⟩
      rw [List.append_assoc, ← events_append, List.flatten_cons]
    obtain ⟨n, hn⟩ := retryCount_ok (L := L) he.hashable
    refine Action.meets_lift_bind hn ?_
    rw [Routine.meets_ite]
    split
    · rename_i hlt
      refine (requeue_works hw he hn).bind ?_
      rintro g₁ _ ⟨typed, now, raw, htyped, hd, rfl⟩
      rw [settled_recording]
      refine (hrest (.requeued rfl hn hlt htyped hd (retryCount_retried he.hashable))).bind ?_
      intro g' _ hg
      exact does_pure hg
    · rename_i hge
      refine (deadLetter_works hw he).bind ?_
      rintro g₁ _ ⟨raw, hd, rfl⟩
      rw [settled_recording]
      exact hrest (.deadLettered rfl hn (by omega) hd)

/-- The calls that settle a decoded batch, the call of its handler among them. -/
def Flushes (L : Listener Obj) (messageType : String) (h : Handler)
    (batch : List (MessageEnvelope × Message Obj × Claim)) (own : Trace Obj) : Prop :=
  (∀ m ∈ batch, m.2.2 ∈ handed own) ∧ Takes own = [] ∧
    ∃ rest, List.Forall₂ (fun m es => L.Decided (batchedBufferKey messageType)
      (L.maxRetriesOf h.spec) (HandlerRaised own) m.1 m.2.2 es) batch rest ∧
      journal own = rest.flatten

theorem flushEvents_recording (hw : Works (recording A)) {messageType : String} {h : Handler}
    (batch : List (MessageEnvelope × Message Obj × Claim)) (hbatch : ∀ m ∈ batch, Sendable m.1) :
    (L.flushEvents messageType h batch).Meets (recording A) (fun g' s' r => r = .ok () ∧
      s'.claims = s.claims ∧ ∃ own, g' = g ++ own ∧ Flushes L messageType h batch own) g s := by
  refine Action.meets_failed_bind.mpr (Action.meets_attempt.mpr ⟨trivial, fun r _ => ?_⟩)
  have hnext : (recording A).next g
      (.batchHandler h (batch.map (·.2.1)) (batch.map (·.2.2))) r =
      g ++ [⟨.batchHandler h (batch.map (·.2.1)) (batch.map (·.2.2)), r⟩] := rfl
  rw [hnext]
  -- the handler's call and what settles the batch make up the calls of the flush
  have hflushes : ∀ rest, List.Forall₂ (fun m es => L.Decided (batchedBufferKey messageType)
      (L.maxRetriesOf h.spec) (raised r).isSome m.1 m.2.2 es) batch rest →
      ∃ own, (g ++ [⟨.batchHandler h (batch.map (·.2.1)) (batch.map (·.2.2)), r⟩]) ++
        events rest.flatten = g ++ own ∧ Flushes L messageType h batch own := by
    intro rest hrest
    refine ⟨_, List.append_assoc _ _ _, ?_, ?_, rest, ?_, ?_⟩
    · intro m hm
      rw [handed_append, handed_events, List.append_nil]
      simp only [handed, List.flatMap_cons, List.flatMap_nil, List.append_nil, List.mem_map]
      exact ⟨m, hm, rfl⟩
    · rw [takes_append, takes_events]
      rfl
    · rw [handlerRaised_append, handlerRaised_events, Bool.or_false]
      cases r <;> exact hrest
    · rw [journal_append, journal_events]
      rfl
  dsimp only [id]
  cases r with
  | error exc =>
    change (L.flushFailed messageType h _).Meets (recording A) _ _ s
    refine (requeueBatch_recording hw _ ?_).bind ?_
    · intro m hm
      obtain ⟨m', hm', rfl⟩ := List.mem_map.mp hm
      exact hbatch m' hm'
    · rintro g' requeued ⟨rest, hall, rfl⟩
      obtain ⟨own, hown, hflush⟩ := hflushes rest (List.forall₂_map_left_iff.mp hall)
      rw [hown, Routine.meets_ite]
      split
      · exact hw.now_bind fun now => ⟨rfl, rfl, own, rfl, hflush⟩
      · exact ⟨rfl, rfl, own, rfl, hflush⟩
  | ok u =>
    simp only [raised_ok, Option.isSome_none, Bool.false_eq_true, if_false]
    refine (ackAll_recording hw _).bind ?_
    rintro g' _ rfl
    obtain ⟨own, hown, hflush⟩ := hflushes (batch.map fun m => acks m.2.2)
      (List.forall₂_map_right_iff.mpr (List.forall₂_same.mpr fun m _ => .acked rfl))
    refine ⟨rfl, rfl, own, ?_, hflush⟩
    rw [← hown, List.map_map]
    rfl

/-- The calls that take the messages of a buffer and settle them. -/
def FlushesBuffer (L : Listener Obj) (messageType : String) (h : Handler) (own : Trace Obj) :
    Prop :=
  ∃ outcomes, List.Forall₂ (L.Outcome (batchedBufferKey messageType) (L.maxRetriesOf h.spec)
    (HandlerRaised own) (handed own)) (Takes own) outcomes ∧ (journal own).Perm outcomes.flatten

theorem flushBatch_recording (messageType : String) {h : Handler} (hA : ∀ o r, A o r → Obliging o r)
    (hall : ∀ channel limit n messages, A (.consumeMany channel limit n) (.ok messages) →
      ∀ m ∈ messages, Copyable L m) :
    (L.flushBatch messageType h).Meets (recording A) (fun g' s' r => r = .ok () ∧
      ∃ (own : Trace Obj) (messages : List RawMessage), g' = g ++ own ∧
        Takes own = messages.zipIdx s.claims ∧
        s'.claims = s.claims + messages.length ∧ FlushesBuffer L messageType h own) g s := by
  have hw : Works (recording A) := recording_works hA
  refine Action.meets_own_bind.mpr (Action.meets_attempt_bind trivial ?_ ?_)
  · rintro _ messages hmessages rfl
    let take : Event (Calls Obj) :=
      ⟨.consumeMany (batchedBufferKey messageType) h.spec.batchSize s.claims, .ok messages⟩
    have hnext : (recording A).next g take.op take.answer = g ++ [take] := rfl
    rw [hnext]
    have htaken : ∀ own, Takes own = [] → Takes (take :: own) = messages.zipIdx s.claims := by
      intro own hown
      change messages.zipIdx s.claims ++ Takes own = _
      rw [hown, List.append_nil]
    have hraised : ∀ own, HandlerRaised (take :: own) = HandlerRaised own := fun _ => rfl
    have hhanded : ∀ own, handed (take :: own) = handed own := fun _ => rfl
    have hjournal : ∀ own, journal (take :: own) = journal own := fun _ => rfl
    refine Action.meets_update_bind.mpr ?_
    rw [Routine.meets_ite]
    split
    · rename_i hempty
      obtain rfl := List.isEmpty_iff.mp hempty
      exact ⟨rfl, [take], [], rfl, rfl, rfl, [], .nil, .refl _⟩
    · refine (decodeBatch_recording (L.maxRetriesOf h.spec) hw
        (messages.zipIdx s.claims) fun m hm => ?_).bind ?_
      · exact hall _ _ _ _ hmessages _ (List.fst_mem_of_mem_zipIdx hm)
      · rintro g' batch ⟨hbatch, es, rfl, hcompletes⟩
        rw [Routine.meets_ite]
        split
        · rename_i hempty
          obtain rfl := List.isEmpty_iff.mp hempty
          obtain ⟨outcomes, hout, hperm⟩ := hcompletes false [] [] (by simp) .nil
          refine ⟨rfl, take :: events es, messages, by simp, htaken _ takes_events, rfl, outcomes,
            ?_, ?_⟩
          · rw [htaken _ takes_events, hraised, hhanded, handlerRaised_events, handed_events]
            exact hout
          · rw [hjournal, journal_events]
            simpa using hperm
        · refine (flushEvents_recording hw batch hbatch).mono ?_
          rintro g₂ s₂ r ⟨rfl, hs, own, rfl, hks, hnone, rest, hrest, hown⟩
          obtain ⟨outcomes, hout, hperm⟩ :=
            hcompletes (HandlerRaised own) (handed own) rest hks hrest
          have hnone' : Takes (events es ++ own) = [] := by
            rw [takes_append, takes_events, hnone]
            rfl
          refine ⟨rfl, take :: (events es ++ own), messages, by simp, htaken _ hnone', hs, outcomes,
            ?_, ?_⟩
          · rw [htaken _ hnone', hraised, hhanded, handlerRaised_append, handlerRaised_events,
              handed_append, handed_events]
            exact hout
          · rw [hjournal, journal_append, journal_events, hown]
            exact hperm
  · rintro _ exc hr rfl
    obtain ⟨_, h⟩ := hA _ _ hr
    cases h

end Runs

end Batch

section Sample

local instance sampleFlushTexts : Texts := .sample

/-- A transport that works, by what is left in its one queue, and a handler that does not. -/
def queueAnswer : List RawMessage → (o : Call Unit) → o.Answer × List RawMessage
  | q, .consume _ _ _ => (.ok q.head?, q.tail)
  | q, .consumeMany _ _ _ => (.ok q, [])
  | q, .size _ => (.ok 0, q)
  | q, .publish _ _ _ => (.ok (), q)
  | q, .ack _ _ => (.ok (), q)
  | q, .handler _ _ _ _ => (.error (.runtimeError "handler"), q)
  | q, .batchHandler _ _ _ => (.error (.runtimeError "handler"), q)
  | q, .observer _ _ _ => (.ok (), q)
  | q, .store _ _ => (.error (.runtimeError "no such call"), q)
  | q, .publisher _ _ => (.ok (), q)
  | q, .sleepFn _ => (.ok (), q)
  | q, .sleep _ => ((), q)
  | q, .now => (0, q)
  | q, .uuid4 => (1, q)

theorem queueAnswer_obliging (q : List RawMessage) (o : Call Unit) :
    Obliging o (queueAnswer q o).1 := by
  cases o <;> first | exact ⟨_, rfl⟩ | trivial

end Sample

end Pybus
