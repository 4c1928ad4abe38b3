import Pybus.Flushing

/-! What becomes of the events of a batched handler, whatever optional methods the transport has. -/
namespace Pybus

open Value Texts Interaction Listener Action

section Events

variable {Obj α β : Type} [Texts]

/-- The bytes carry the message: a copy of it under its id, or a record of its own bytes. -/
def Carries (message copy : Raw) : Prop :=
  (∃ now e, ∃ e' : MessageEnvelope,
    MessageEnvelope.read now message = .ok e ∧ e'.messageId = e.messageId ∧
    e'.messageKind = e.messageKind ∧ e'.messageType = e.messageType ∧ e'.dump = .ok copy) ∨
  ∃ channel exc u now, (poison channel message exc u now).dump = .ok copy

/-- A message taken under a claim has not disappeared: it was published again to a queue, be it the
dead-letter channel, it was handed to a batch handler, or its receipt has not been acked. -/
inductive Survives (tr : Trace Obj) (m : RawMessage) (c : Nat) : Prop
  | stored {channel : String} {copy : Raw} {k : Claim} :
      .published channel copy k ∈ journal tr → k.number = c → Carries m.bytes copy →
      Survives tr m c
  | handed {k : Claim} : k ∈ handed tr → k.number = c → Survives tr m c
  | claimed : m.receipt.isSome = true →
      (∀ receipt k, .acked receipt k ∈ journal tr → k.number ≠ c) → Survives tr m c

/-- A part of a run that starts when `n` messages have been claimed and ends when `n'` have. It acks
its own claims only, and what it takes survives it. -/
structure Segment (own : Trace Obj) (n n' : Nat) : Prop where
  le : n ≤ n'
  acks : ∀ receipt k, .acked receipt k ∈ journal own → n ≤ k.number ∧ k.number < n'
  takes : ∀ m c, (m, c) ∈ Takes own → n ≤ c ∧ c < n' ∧ Survives own m c

section Segments

variable {own own' : Trace Obj} {n n' n'' c : Nat} {m : RawMessage}

theorem Survives.append_left (h : Survives own m c)
    (hacks : ∀ receipt k, .acked receipt k ∈ journal own' → k.number ≠ c) :
    Survives (own ++ own') m c := by
  cases h with
  | stored hp hk hc => exact .stored (by rw [journal_append]; exact List.mem_append_left _ hp) hk hc
  | handed hh hk => exact .handed (by rw [handed_append]; exact List.mem_append_left _ hh) hk
  | claimed hr hown =>
    refine .claimed hr fun receipt k hk => ?_
    rw [journal_append] at hk
    rcases List.mem_append.mp hk with hk | hk
    · exact hown receipt k hk
    · exact hacks receipt k hk

theorem Survives.append_right (h : Survives own' m c)
    (hacks : ∀ receipt k, .acked receipt k ∈ journal own → k.number ≠ c) :
    Survives (own ++ own') m c := by
  cases h with
  | stored hp hk hc => exact .stored (by rw [journal_append]; exact List.mem_append_right _ hp) hk hc
  | handed hh hk => exact .handed (by rw [handed_append]; exact List.mem_append_right _ hh) hk
  | claimed hr hown =>
    refine .claimed hr fun receipt k hk => ?_
    rw [journal_append] at hk
    rcases List.mem_append.mp hk with hk | hk
    · exact hacks receipt k hk
    · exact hown receipt k hk

theorem Segment.nil : Segment ([] : Trace Obj) n n where
  le := Nat.le_refl n
  acks _ _ h := by simp [journal] at h
  takes _ _ h := by simp [Takes] at h

/-- A call that neither takes nor acks. -/
theorem Segment.of_blank (hj : journal own = []) (ht : Takes own = []) : Segment own n n where
  le := Nat.le_refl n
  acks _ _ h := by simp [hj] at h
  takes _ _ h := by simp [ht] at h

theorem Segment.append (h : Segment own n n') (h' : Segment own' n' n'') :
    Segment (own ++ own') n n'' where
  le := h.le.trans h'.le
  acks receipt k hk := by
    have hle := h.le
    have hle' := h'.le
    rw [journal_append] at hk
    rcases List.mem_append.mp hk with hk | hk
    · have := h.acks receipt k hk
      omega
    · have := h'.acks receipt k hk
      omega
  takes m c hm := by
    have hle := h.le
    have hle' := h'.le
    rw [takes_append] at hm
    rcases List.mem_append.mp hm with hm | hm
    · obtain ⟨hn, hc, hs⟩ := h.takes m c hm
      refine ⟨hn, by omega, hs.append_left fun receipt k hk => ?_⟩
      have := h'.acks receipt k hk
      omega
    · obtain ⟨hn, hc, hs⟩ := h'.takes m c hm
      refine ⟨by omega, hc, hs.append_right fun receipt k hk => ?_⟩
      have := h.acks receipt k hk
      omega

end Segments

/-- The part of a run that follows the taking of a message under the claim numbered `c`: the message
survives it, and so does what it takes besides. -/
structure Closes (own : Trace Obj) (m : RawMessage) (c n n' : Nat) : Prop where
  lt : c < n
  le : n ≤ n'
  acks : ∀ receipt k, .acked receipt k ∈ journal own →
    k.number = c ∨ n ≤ k.number ∧ k.number < n'
  takes : ∀ m' c', (m', c') ∈ Takes own → n ≤ c' ∧ c' < n' ∧ Survives own m' c'
  survives : Survives own m c

section Settling

variable {own own' : Trace Obj} {n n' c : Nat} {m : RawMessage}

/-- A message that survives its own settlement survives what follows it. -/
theorem Closes.of_append (hs : Survives own m c) (hlt : c < n)
    (hacks : ∀ receipt k, .acked receipt k ∈ journal own → k.number = c) (ht : Takes own = [])
    (h : Segment own' n n') : Closes (own ++ own') m c n n' where
  lt := hlt
  le := h.le
  acks receipt k hk := by
    rw [journal_append] at hk
    rcases List.mem_append.mp hk with hk | hk
    · exact .inl (hacks receipt k hk)
    · exact .inr (h.acks receipt k hk)
  takes m' c' hm := by
    rw [takes_append, ht, List.nil_append] at hm
    obtain ⟨hn, hc, hs'⟩ := h.takes m' c' hm
    refine ⟨hn, hc, hs'.append_right fun receipt k hk => ?_⟩
    have := hacks receipt k hk
    omega
  survives := hs.append_left fun receipt k hk => by
    have := h.acks receipt k hk
    omega

/-- The taking of a message and its settlement make a segment. -/
theorem Closes.segment (take : Event (Calls Obj)) (h : Closes own m n (n + 1) n')
    (ht : Pybus.takes take.op take.answer = [(m, n)]) (hj : Entry.ofCall take.op = none) :
    Segment (take :: own) n n' := by
  have hjournal : journal (take :: own) = journal own := by simp [journal, hj]
  have htakes : Takes (take :: own) = (m, n) :: Takes own := by simp [Takes, ht]
  have hsurvives : ∀ {m c}, Survives own m c → Survives (take :: own) m c := fun hs =>
    (show Survives ([take] ++ own) _ _ from
      Survives.append_right hs fun receipt k hk => by simp [journal, hj] at hk)
  have hle := h.le
  refine ⟨by omega, fun receipt k hk => ?_, fun m' c' hm => ?_⟩
  · rw [hjournal] at hk
    have := h.acks receipt k hk
    omega
  · rw [htakes] at hm
    rcases List.mem_cons.mp hm with he | hm
    · cases he
      exact ⟨Nat.le_refl n, by omega, hsurvives h.survives⟩
    · obtain ⟨hn, hc, hs⟩ := h.takes m' c' hm
      exact ⟨by omega, hc, hsurvives hs⟩

end Settling

/-- A part of a run on its own, which never raises. -/
def Retains (A : Assumption Obj) (g : Trace Obj) (s : ListenerState) (p : Action Obj α) : Prop :=
  p.Meets (recording A) (fun g' s' r => (∃ a, r = .ok a) ∧
    ∃ own, g' = g ++ own ∧ Segment own s.claims s'.claims) g s

variable {A : Assumption Obj} {g : Trace Obj} {s : ListenerState} {p : Action Obj α}

theorem Retains.bind {f : α → Action Obj β} (h : Retains A g s p)
    (hf : ∀ g' s' a, Retains A g' s' (f a)) : Retains A g s (p >>= f) := by
  refine Routine.Meets.bind h ?_ ?_
  · rintro g' s' a ⟨-, own, rfl, hown⟩
    refine (hf _ s' a).mono ?_
    rintro g₂ s₂ r ⟨hr, own', rfl, hown'⟩
    exact ⟨hr, own ++ own', List.append_assoc _ _ _, hown.append hown'⟩
  · rintro g' s' exc ⟨⟨_, hr⟩, -⟩
    cases hr

theorem retains_pure {a : α} : Retains A g s (pure a : Action Obj α) :=
  ⟨⟨a, rfl⟩, [], (List.append_nil g).symm, .nil⟩

theorem retains_update {f : ListenerState → ListenerState} (h : ∀ s, (f s).claims = s.claims) :
    Retains A g s (update f : Action Obj Unit) := by
  refine ⟨⟨(), rfl⟩, [], (List.append_nil g).symm, ?_⟩
  rw [h s]
  exact .nil

theorem retains_own_bind {f : ListenerState → Action Obj β} (h : Retains A g s (f s)) :
    Retains A g s (own >>= f) := h

theorem retains_ite {c : Prop} [Decidable c] {q : Action Obj α} (hp : c → Retains A g s p)
    (hq : ¬ c → Retains A g s q) : Retains A g s (if c then p else q) := by
  split
  · exact hp ‹_›
  · exact hq ‹_›

theorem retains_when {b : Bool} {q : Action Obj Unit} (hq : b = true → Retains A g s q) :
    Retains A g s (.when b q) := by
  cases b with
  | true => exact hq rfl
  | false => exact retains_pure

/-- A part that leaves the record alone. -/
theorem retains_of_does {P : α → Prop} (h : p.Does (recording A) (fun g' a => g' = g ∧ P a) g s) :
    Retains A g s p := by
  refine Routine.Meets.mono h ?_
  rintro g' s' r ⟨rfl, a, rfl, rfl, -⟩
  exact ⟨⟨a, rfl⟩, [], (List.append_nil _).symm, .nil⟩

variable {L : Listener Obj}

/-- How an outcome bears on its message. -/
theorem Listener.Outcome.claims {buffer : String} {maxRetries : Nat} {raised : Bool} {ks : List Claim}
    {m : RawMessage × Nat} {es : List Entry} (h : L.Outcome buffer maxRetries raised ks m es) :
    ∀ receipt k, .acked receipt k ∈ es → k.number = m.2 := by
  have hacks : ∀ k₀ : Claim, ∀ receipt k, .acked receipt k ∈ acks k₀ → k.number = k₀.number := by
    intro k₀ receipt k hk
    obtain ⟨_, -, he⟩ := List.mem_map.mp hk
    cases he
    rfl
  intro receipt k hk
  cases h with
  | undecodable hd hdump =>
    rcases List.mem_cons.mp hk with he | hk
    · cases he
    · exact hacks _ receipt k hk
  | decoded hd hks hdec =>
    cases hdec with
    | acked hr => exact hacks _ receipt k hk
    | requeued | deadLettered =>
      rcases List.mem_cons.mp hk with he | hk
      · cases he
      · exact hacks _ receipt k hk

omit [Texts] in
/-- Related lists: each member has its partner. -/
theorem forall₂_partner {γ δ : Type} {R : γ → δ → Prop} {l : List γ} {l' : List δ}
    (h : List.Forall₂ R l l') {a : γ} (ha : a ∈ l) : ∃ b ∈ l', R a b := by
  induction h with
  | nil => cases ha
  | @cons x y l l' hxy h ih =>
    rcases List.mem_cons.mp ha with rfl | ha
    · exact ⟨y, List.mem_cons_self, hxy⟩
    · obtain ⟨b, hb, hr⟩ := ih ha
      exact ⟨b, List.mem_cons_of_mem _ hb, hr⟩

/-- A batch that was flushed survives: what could be decoded was handed to the handler, and of the
rest there are records. -/
theorem FlushesBuffer.segment {messageType : String} {h : Handler} {own : Trace Obj}
    {messages : List RawMessage} {n : Nat} (hf : FlushesBuffer L messageType h own)
    (ht : Takes own = messages.zipIdx n) : Segment own n (n + messages.length) := by
  obtain ⟨outcomes, hout, hperm⟩ := hf
  have hrange : ∀ m c, (m, c) ∈ Takes own → n ≤ c ∧ c < n + messages.length := by
    intro m c hm
    rw [ht] at hm
    obtain ⟨hle, hi⟩ := List.mk_mem_zipIdx_iff_le_and_getElem?_sub.mp hm
    obtain ⟨hlt, -⟩ := List.getElem?_eq_some_iff.mp hi
    omega
  refine ⟨Nat.le_add_right n _, fun receipt k hk => ?_, fun m c hm => ?_⟩
  · obtain ⟨es, hes, hk⟩ := List.mem_flatten.mp (hperm.subset hk)
    obtain ⟨m, hm, hout⟩ := forall₂_partner (List.Forall₂.flip hout) hes
    have hout : L.Outcome _ _ _ _ m es := hout
    rw [hout.claims receipt k hk]
    exact hrange m.1 m.2 hm
  · obtain ⟨hn, hc⟩ := hrange m c hm
    refine ⟨hn, hc, ?_⟩
    obtain ⟨es, hes, hout⟩ := forall₂_partner hout hm
    cases hout with
    | undecodable hd hdump =>
      have hmem : .published L.deadLetterChannel _ ⟨m.receipt, c⟩ ∈ journal own :=
        hperm.symm.subset (List.mem_flatten.mpr ⟨_, hes, List.mem_cons_self⟩)
      exact .stored hmem rfl (.inr ⟨_, _, _, _, hdump⟩)
    | decoded hd hks hdec => exact .handed hks rfl

section Listening

variable (hA : ∀ o r, A o r → Obliging o r)
  (hbuffers : ∀ channel limit n messages, A (.consumeMany channel limit n) (.ok messages) →
    ∀ m ∈ messages, Copyable L m)

include hA

theorem retains_now_bind {f : Instant → Action Obj β} (h : ∀ t, Retains A g s (f t)) :
    Retains A g s (ask .now >>= f) := (recording_works hA).now_bind h

/-- A look at the size of a buffer. -/
theorem retains_size {channel : String} : Retains A g s (attempt (.size channel) id) := by
  refine Action.meets_attempt.mpr ⟨trivial, fun r hr => ?_⟩
  obtain ⟨n, rfl⟩ := hA _ _ hr
  exact ⟨⟨n, rfl⟩, [⟨.size channel, .ok n⟩], rfl, Segment.of_blank rfl rfl⟩

theorem retains_batchInBackoff {messageType : String} :
    Retains A g s (batchInBackoff messageType : Action Obj Bool) := by
  refine Action.meets_own_bind.mpr ?_
  cases s.batchRetryAfter.lookup messageType with
  | none => exact retains_pure
  | some retryAt => exact retains_now_bind hA fun _ => retains_pure

theorem retains_batchReady {spec : HandlerSpec} {size : Nat} {startedAt : Instant} :
    Retains A g s (batchReady spec size startedAt : Action Obj Bool) :=
  retains_ite (fun _ => retains_pure) fun _ => retains_now_bind hA fun _ => retains_pure

include hbuffers

theorem retains_flushBatch {messageType : String} {h : Handler} :
    Retains A g s (L.flushBatch messageType h) := by
  refine (flushBatch_recording _ hA hbuffers).mono ?_
  rintro g' s' r ⟨rfl, own, messages, rfl, ht, hs, hf⟩
  refine ⟨⟨(), rfl⟩, own, rfl, ?_⟩
  rw [hs]
  exact hf.segment ht

theorem retains_flushBuffer {messageType : String} {h : Handler} :
    Retains A g s (L.flushBuffer messageType h) := by
  refine (retains_size hA).bind fun g' s' size => ?_
  refine retains_ite (fun _ => retains_update fun _ => rfl) fun _ => ?_
  refine retains_now_bind hA fun now => ?_
  refine retains_own_bind (Retains.bind (retains_update fun _ => rfl) fun g' s' _ => ?_)
  refine (retains_batchReady hA).bind fun g' s' ready => ?_
  exact retains_when fun _ => retains_flushBatch hA hbuffers

theorem retains_flushHandlers {messageType : String} (hs : List Handler) :
    Retains A g s (L.flushHandlers messageType hs) := by
  induction hs generalizing g s with
  | nil => exact retains_pure
  | cons h hs ih =>
    refine Retains.bind (retains_when fun _ => ?_) fun g' s' _ => ih
    refine (retains_batchInBackoff hA).bind fun g' s' backoff => ?_
    exact retains_when fun _ => retains_flushBuffer hA hbuffers

theorem retains_flushItems (items : List (MessageKey × List Handler)) :
    Retains A g s (L.flushItems items) := by
  induction items generalizing g s with
  | nil => exact retains_pure
  | cons item items ih =>
    exact Retains.bind (retains_when fun _ => retains_flushHandlers hA hbuffers _) fun g' s' _ => ih

theorem retains_flushReadyBatches : Retains A g s L.flushReadyBatches :=
  retains_when fun _ => retains_flushItems hA hbuffers _

end Listening

/-- An event of a batched handler that can be sent again: its timestamps can be written, it is not
durable, and no exception of its decoding stops the worker. -/
structure BatchedEvent (L : Listener Obj) (e : MessageEnvelope) : Prop where
  dumpable : e.Dumpable
  identity : DurableJobController.identity e = .ok none
  batched : ∃ hs, L.dispatcher.registry.handlersFor e.messageKind e.messageType = .ok hs ∧
    hs.any (·.spec.isBatched) = true
  decodes : ∀ exc, L.dispatcher.decode e = .error exc → exc.stopsWorker = false

section Settlement

variable {e : MessageEnvelope} {m : RawMessage} {k : Claim} {now : Instant} {channel : String}

theorem BatchedEvent.sendable (he : BatchedEvent L e)
    (hr : MessageEnvelope.read now m.bytes = .ok e) : Sendable e where
  valid := MessageEnvelope.read_valid hr
  dumpable := he.dumpable
  hashable := by
    by_contra hn
    obtain ⟨hs, hf, -⟩ := he.batched
    rw [Registry.handlersFor_unhashable hn] at hf
    cases hf
  identity := he.identity

/-- The calls that settle a claim for good: the publication of a copy, and the ack. -/
def Republishes (m : RawMessage) (k : Claim) (own : Trace Obj) : Prop :=
  ∃ target copy, own = events (.published target copy k :: acks k) ∧ Carries m.bytes copy

theorem Republishes.survives {own : Trace Obj} (h : Republishes m k own) :
    Survives own m k.number := by
  obtain ⟨target, copy, rfl, hc⟩ := h
  have hmem : .published target copy k ∈
      journal (events (.published target copy k :: acks k) : Trace Obj) := by
    rw [journal_events]
    exact List.mem_cons_self
  exact .stored hmem rfl hc

theorem Republishes.acks {own : Trace Obj} (h : Republishes m k own) :
    ∀ receipt k', .acked receipt k' ∈ journal own → k'.number = k.number := by
  obtain ⟨target, copy, rfl, -⟩ := h
  intro receipt k' hk
  rw [journal_events] at hk
  rcases List.mem_cons.mp hk with he | hk
  · cases he
  · obtain ⟨_, -, he⟩ := List.mem_map.mp hk
    cases he
    rfl

theorem Republishes.takes {own : Trace Obj} (h : Republishes m k own) : Takes own = [] := by
  obtain ⟨target, copy, rfl, -⟩ := h
  exact takes_events

theorem carries_copy (e' : MessageEnvelope) {copy : Raw}
    (hr : MessageEnvelope.read now m.bytes = .ok e) (hid : e'.messageId = e.messageId)
    (hkind : e'.messageKind = e.messageKind) (htype : e'.messageType = e.messageType)
    (hd : e'.dump = .ok copy) : Carries m.bytes copy :=
  .inl ⟨now, e, e', hr, hid, hkind, htype, hd⟩

variable (hw : Works (recording A))

include hw

/-- An event whose decoding raised is sent again or dead-lettered. -/
theorem recover_recording {exc : Exc} (he : Sendable e)
    (hr : MessageEnvelope.read now m.bytes = .ok e) (hexc : exc.stopsWorker = false) :
    (L.recover channel e exc k).Does (recording A)
      (fun g' _ => ∃ own, g' = g ++ own ∧ Republishes m k own) g s := by
  obtain ⟨n, hn⟩ := retryCount_ok (L := L) he.hashable
  have hbury : (L.deadLetter channel e L.retryPolicy.maxRetries k).Does (recording A)
      (fun g' _ => ∃ own, g' = g ++ own ∧ Republishes m k own) g s := by
    refine (deadLetter_works hw he).mono ?_
    rintro g' _ ⟨raw, hd, rfl⟩
    exact ⟨_, settled_recording, _, raw, rfl, carries_copy (e.buried channel) hr rfl rfl rfl hd⟩
  have hretry : (do
      if ← lift (L.shouldRetry e) then L.requeue channel e L.retryPolicy.maxRetries k
      else L.deadLetter channel e L.retryPolicy.maxRetries k : Action Obj Unit).Does (recording A)
      (fun g' _ => ∃ own, g' = g ++ own ∧ Republishes m k own) g s := by
    have hshould : L.shouldRetry e = .ok (L.retryPolicy.shouldRetry n) := by
      rw [shouldRetry, hn]
      rfl
    refine Action.meets_lift_bind hshould ?_
    rw [Routine.meets_ite]
    split
    · refine (requeue_works hw he hn).mono ?_
      rintro g' _ ⟨typed, at_, raw, -, hd, rfl⟩
      exact ⟨_, settled_recording, _, raw, rfl,
        carries_copy (e.retried typed at_ n) hr rfl rfl rfl hd⟩
    · exact hbury
  unfold recover
  rw [hexc]
  cases exc with
  | handlerNotFound => exact hbury
  | _ => exact hretry

omit hw

variable (hA : ∀ o r, A o r → Obliging o r)
  (hbuffers : ∀ channel limit n messages, A (.consumeMany channel limit n) (.ok messages) →
    ∀ m ∈ messages, Copyable L m)

include hA

omit [Texts] in
theorem startBatch_recording {messageType : String} :
    (startBatch messageType : Action Obj Unit).Meets (recording A) (fun g' s' r => r = .ok () ∧
      s'.claims = s.claims ∧ ∃ look, g' = g ++ [look] ∧ journal [look] = [] ∧ Takes [look] = [])
      g s := by
  refine Action.meets_attempt_bind trivial ?_ ?_
  · rintro _ size hr rfl
    rw [Action.meets_when]
    split
    · exact Works.now_bind (recording_works hA) fun now => ⟨rfl, rfl, _, rfl, rfl, rfl⟩
    · exact ⟨rfl, rfl, _, rfl, rfl, rfl⟩
  · rintro _ exc hr rfl
    obtain ⟨_, h⟩ := hA _ _ hr
    cases h

/-- With `size` an event is put into its buffer; without it nothing at all happens, and the event
is left to its receipt. -/
theorem bufferBatchedMessage_recording {messageType : String} (he : Sendable e)
    (hr : MessageEnvelope.read now m.bytes = .ok e)
    (hkept : L.hasSize = true ∨ m.receipt.isSome = true) :
    (L.bufferBatchedMessage messageType e k).Meets (recording A) (fun g' s' r => r = .ok () ∧
      s'.claims = s.claims ∧ ∃ own, g' = g ++ own ∧ Takes own = [] ∧
        (∀ receipt k', .acked receipt k' ∈ journal own → k'.number = k.number) ∧
        Survives own m k.number) g s := by
  rw [bufferBatchedMessage, Action.meets_when]
  split
  · obtain ⟨d, -, hd⟩ := MessageEnvelope.dump_of_dumpable he.valid he.dumpable
    refine (startBatch_recording hA).bind ?_ ?_
    · rintro g₁ s₁ ⟨⟩ ⟨-, hs, look, rfl, hj, ht⟩
      refine Routine.Meets.mono (settled_works (recording_works hA) _ hd) ?_
      rintro g' s₂ r ⟨rfl, _, rfl, hg⟩
      rw [settled_recording, List.append_assoc] at hg
      have hrep : Republishes m k (events (.published (batchedBufferKey messageType)
          (.json (JsonSerializer.dumps d)) k :: acks k) : Trace Obj) :=
        ⟨_, _, rfl, carries_copy _ hr rfl rfl rfl hd⟩
      refine ⟨rfl, hs, _, hg, ?_, ?_, ?_⟩
      · rw [takes_append, ht, hrep.takes]
        rfl
      · intro receipt k' hk
        rw [journal_append, hj, List.nil_append] at hk
        exact hrep.acks receipt k' hk
      · refine hrep.survives.append_right fun receipt k' hk => ?_
        rw [hj] at hk
        cases hk
    · rintro g' s' exc ⟨hr, -⟩
      cases hr
  · rename_i hsize
    have hreceipt := hkept.resolve_left hsize
    exact ⟨rfl, rfl, [], (List.append_nil g).symm, rfl, fun _ _ h => by simp [journal] at h,
      .claimed hreceipt fun _ _ h => by simp [journal] at h⟩

include hbuffers

/-- What `listen_once` does with an event that it has claimed and read keeps the event. -/
theorem settle_recording (he : BatchedEvent L e) (hr : MessageEnvelope.read now m.bytes = .ok e)
    (hkept : L.hasSize = true ∨ m.receipt.isSome = true) (hk : k.number < s.claims) :
    (L.settle channel e k).Meets (recording A) (fun g' s' r => (∃ a, r = .ok a) ∧
      ∃ own, g' = g ++ own ∧ Closes own m k.number s.claims s'.claims) g s := by
  have hw : Works (recording A) := recording_works hA
  have hsend := he.sendable hr
  obtain ⟨hs, hf, hb⟩ := he.batched
  have hverify : L.verifyDurableConfiguration channel e k = pure () := by
    rw [verifyDurableConfiguration, he.identity]
  have hproceed : L.mayProceed channel e hs false k = pure true := by simp [mayProceed]
  have hne : hs.isEmpty = false := by
    cases hs with
    | nil => cases hb
    | cons h hs => rfl
  -- the delivery either fails to be decoded or is buffered
  have hdispatch : (L.dispatch channel e k).Meets (recording A) (fun g' s' r =>
      (r = .ok .claimSettled ∧ ∃ own, g' = g ++ own ∧
        Closes own m k.number s.claims s'.claims) ∨
      (s' = s ∧ g' = g ∧ ∃ exc, r = .error exc ∧ exc.stopsWorker = false)) g s := by
    refine Action.meets_lift_bind hf (Action.meets_lift_bind he.identity ?_)
    rw [Option.isSome_none, hproceed]
    change (L.deliver channel e hs false k).Meets (recording A) _ g s
    rw [deliver, hne]
    cases hd : L.dispatcher.decode e with
    | error exc =>
      exact Action.meets_lift_bind_error rfl (.inr ⟨rfl, rfl, exc, rfl, he.decodes exc hd⟩)
    | ok message =>
      refine Action.meets_lift_bind rfl ?_
      rw [Routine.meets_ite, if_pos hb]
      refine (bufferBatchedMessage_recording hA hsend hr hkept).bind ?_ ?_
      · rintro g₁ s₁ ⟨⟩ ⟨-, hs₁, own, rfl, ht, hacks, hsurvives⟩
        refine Routine.Meets.bind (retains_flushReadyBatches hA hbuffers) ?_ ?_
        · rintro g' s' _ ⟨-, own', rfl, hown'⟩
          rw [hs₁] at hown'
          exact .inl ⟨rfl, own ++ own', List.append_assoc _ _ _,
            .of_append hsurvives hk hacks ht hown'⟩
        · rintro g' s' exc ⟨⟨_, hr⟩, -⟩
          cases hr
      · rintro g' s' exc ⟨hr, -⟩
        cases hr
  rw [settle, hverify]
  refine Routine.Meets.bind (Q := fun g' (s' : ListenerState)
    (r : Except Exc (DispatchResult Obj)) => r = .ok .claimSettled ∧ ∃ own, g' = g ++ own ∧
    Closes own m k.number s.claims s'.claims) ?_ ?_ ?_
  · refine hdispatch.tryCatch ?_ ?_
    · rintro g' s' d (h | ⟨-, -, exc, hr, -⟩)
      · exact h
      · cases hr
    · rintro g' s' exc (⟨hr, -⟩ | ⟨rfl, rfl, _, hexc, hstop⟩)
      · cases hr
      · cases hexc
        refine (recover_recording hw hsend hr hstop).bind ?_
        rintro g₁ _ ⟨own, rfl, hown⟩
        refine ⟨rfl, own ++ [], by simp, ?_⟩
        exact .of_append hown.survives hk hown.acks hown.takes .nil
  · rintro g' s' d ⟨hd, hown⟩
    cases hd
    exact ⟨⟨_, rfl⟩, hown⟩
  · rintro g' s' exc ⟨hr, -⟩
    cases hr

end Settlement

/-- A transport that works: it hands over events of batched handlers, and from the buffers what can
be sent again. -/
structure Delivers (L : Listener Obj) (A : Assumption Obj) : Prop where
  obliging : ∀ o r, A o r → Obliging o r
  events : ∀ channel timeout n m, A (.consume channel timeout n) (.ok (some m)) →
    ∀ now e, MessageEnvelope.read now m.bytes = .ok e → BatchedEvent L e
  buffers : ∀ channel limit n messages, A (.consumeMany channel limit n) (.ok messages) →
    ∀ m ∈ messages, Copyable L m

/-- An event is kept by a transport that has `size`, or by its receipt. -/
def Kept (L : Listener Obj) (A : Assumption Obj) : Prop :=
  ∀ channel timeout n m, A (.consume channel timeout n) (.ok (some m)) →
    L.hasSize = true ∨ m.receipt.isSome = true

section Calls

variable (hL : Delivers L A) (hkept : Kept L A)

include hL hkept

/-- `_consume_envelope` returns a message that it took just before, or nothing. -/
theorem consumeEnvelope_recording {timeout : Nat} (channels : List String) :
    (L.consumeEnvelope timeout channels).Meets (recording A) (fun g' s' r =>
      (r = .ok none ∧ ∃ own, g' = g ++ own ∧ Segment own s.claims s'.claims) ∨
      ∃ channel e m now own take, r = .ok (some (channel, e, ⟨m.receipt, s.claims⟩)) ∧
        MessageEnvelope.read now m.bytes = .ok e ∧ BatchedEvent L e ∧
        (L.hasSize = true ∨ m.receipt.isSome = true) ∧ g' = g ++ own ++ [take] ∧
        Segment own s.claims s.claims ∧ Pybus.takes take.op take.answer = [(m, s.claims)] ∧ Entry.ofCall take.op = none ∧
        s'.claims = s.claims + 1) g s := by
  have hw : Works (recording A) := recording_works hL.obliging
  induction channels generalizing g with
  | nil => exact .inl ⟨rfl, [], (List.append_nil g).symm, .nil⟩
  | cons channel channels ih =>
    refine Action.meets_own_bind.mpr (Action.meets_attempt_bind trivial ?_ ?_)
    · rintro _ answer hA rfl
      let take : Event (Calls Obj) := ⟨.consume channel timeout s.claims, .ok answer⟩
      have hnext : (recording A).next g take.op take.answer = g ++ [take] := rfl
      rw [hnext]
      cases answer with
      | none =>
        have hblank : Segment [take] s.claims s.claims := .of_blank rfl rfl
        refine Routine.Meets.mono ih ?_
        rintro g' s' r (⟨hr, own, rfl, hown⟩ |
          ⟨channel, e, m, now, own, take', hr, hread, he, hm, rfl, hown, h⟩)
        · exact .inl ⟨hr, _, List.append_assoc _ _ _, hblank.append hown⟩
        · exact .inr ⟨channel, e, m, now, [take] ++ own, take', hr, hread, he, hm,
            by simp only [List.append_assoc], hblank.append hown, h⟩
      | some m =>
        refine Action.meets_update_bind.mpr (hw.now_bind fun now => ?_)
        cases hread : MessageEnvelope.read now m.bytes with
        | ok e =>
          refine .inr ⟨channel, e, m, now, [], take, rfl, hread, hL.events _ _ _ m hA now e hread,
            hkept _ _ _ m hA, by simp, .nil, rfl, rfl, rfl⟩
        | error exc =>
          refine (poison_recording hw).bind ?_
          rintro g' _ ⟨u, now', raw, hd, rfl⟩
          have hrep : Republishes m ⟨m.receipt, s.claims⟩ (events (.published L.deadLetterChannel
              raw ⟨m.receipt, s.claims⟩ :: acks ⟨m.receipt, s.claims⟩) : Trace Obj) :=
            ⟨_, _, rfl, .inr ⟨_, _, _, _, hd⟩⟩
          have hcloses := Closes.of_append hrep.survives (Nat.lt_succ_self s.claims) hrep.acks
            hrep.takes .nil
          rw [List.append_nil] at hcloses
          exact .inl ⟨rfl, _, List.append_assoc _ _ _, hcloses.segment take rfl rfl⟩
    · rintro _ exc hr rfl
      obtain ⟨_, h⟩ := hL.obliging _ _ hr
      cases h

/-- One call of `listen_once` keeps what it takes. -/
theorem retains_listenOnce {channels : List String} : Retains A g s (L.listenOnce channels) := by
  refine (retains_flushReadyBatches hL.obliging hL.buffers).bind fun g s _ => ?_
  refine retains_ite (fun _ => retains_pure) fun _ => ?_
  refine (consumeEnvelope_recording hL hkept _).bind ?_ ?_
  · rintro g₁ s₁ answer (⟨hr, own, rfl, hown⟩ |
      ⟨channel, e, m, now, own₀, take, hr, hread, he, hm, rfl, hown₀, ht, hj, hs⟩)
    · cases hr
      exact ⟨⟨_, rfl⟩, own, rfl, hown⟩
    · cases hr
      refine (settle_recording (m := m) hL.obliging hL.buffers he hread hm
        (by simp [hs])).mono ?_
      rintro g' s' r ⟨hr, own, rfl, hown⟩
      rw [hs] at hown
      refine ⟨hr, own₀ ++ (take :: own), by simp, hown₀.append (hown.segment take ht hj)⟩
  · rintro g' s' exc (⟨hr, -⟩ | ⟨_, _, _, _, _, _, hr, -⟩)
    · cases hr
    · cases hr

end Calls

/-- A history of calls of `listen_once`, with everything that was called on the way. -/
inductive Listener.Listens (L : Listener Obj) :
    ListenerState → Trace Obj → ListenerState → Prop
  | start (s : ListenerState) : Listens L s [] s
  | call {s s' s'' : ListenerState} {channels : List String} {tr tr' : Trace Obj}
      {r : Except Exc (Option (List (HandlerResult Obj)))} :
      (L.listenOnce channels s).Runs tr (r, s') → Listens L s' tr' s'' → Listens L s (tr ++ tr') s''

/-- By induction on the calls: each keeps what it takes, and leaves what earlier ones took alone. -/
theorem Segment.of_listens {s s' : ListenerState} {tr : Trace Obj} (h : L.Listens s tr s')
    (hL : Delivers L A) (hkept : Kept L A) (htr : ∀ x ∈ tr, A x.op x.answer) :
    Segment (loud tr) s.claims s'.claims := by
  induction h with
  | start s => exact .nil
  | call hrun _ ih =>
    have hanswered : (recording A).Answered [] _ :=
      (Monitor.answered_iff fun _ _ _ => Iff.rfl).mpr
        fun x hx => htr x (List.mem_append_left _ hx)
    obtain ⟨-, -, own, hown, hsegment⟩ := (retains_listenOnce hL hkept).runs hrun hanswered
    rw [after_recording, List.nil_append, List.nil_append] at hown
    rw [← hown] at hsegment
    have hrest := ih fun x hx => htr x (List.mem_append_right _ hx)
    rw [loud, List.filter_append]
    exact hsegment.append hrest

/-- In every history of `listen_once` over a transport that works, with or without `size`,
`consume_many` and receipts, no event of a batched handler disappears that a transport with `size`
hands over, or that has a receipt. -/
theorem batched_events_survive {s s' : ListenerState} {tr : Trace Obj} (hrun : L.Listens s tr s')
    (hL : Delivers L (Seen tr)) (hkept : Kept L (Seen tr)) :
    ∀ m c, (m, c) ∈ Takes tr → Survives tr m c := by
  intro m c hm
  have hsegment := Segment.of_listens hrun hL hkept fun x hx => hx
  rw [← takes_loud] at hm
  obtain ⟨-, -, hsurvives⟩ := hsegment.takes m c hm
  cases hsurvives with
  | stored hp hk hc =>
    rw [journal_loud] at hp
    exact .stored hp hk hc
  | handed hh hk =>
    rw [handed_loud] at hh
    exact .handed hh hk
  | claimed hr hacks =>
    refine .claimed hr fun receipt k hk => hacks receipt k ?_
    rw [journal_loud]
    exact hk

end Events

section Sample

local instance sampleSurvivalTexts : Texts := .sample

/-- A listener whose transport has none of the optional methods. -/
def bareListener : Listener Unit := { sampleListener with hasSize := false, hasConsumeMany := false }

/-- What the bare listener does with one message. -/
def barePlay (m : RawMessage) : Trace Unit × Except Exc (Option (List (HandlerResult Unit))) ×
    ListenerState := (bareListener.listenOnce ["pybus.jobs"] {}).play queueAnswer [m]

theorem barePlay_listens (m : RawMessage) :
    bareListener.Listens {} (barePlay m).1 (barePlay m).2.2 := by
  have hrun : (bareListener.listenOnce ["pybus.jobs"] {}).Runs (barePlay m).1
    ((barePlay m).2.1, (barePlay m).2.2) := Prog.play_runs
  have h := Listener.Listens.call hrun (.start _)
  rwa [List.append_nil] at h

theorem sampleEvent_batched {now : Instant} {e : MessageEnvelope}
    (h : MessageEnvelope.read now sampleEvent.bytes = .ok e) : BatchedEvent bareListener e := by
  have hf : bareListener.dispatcher.registry.handlersFor (.str "event") (.str "invoice.sent") =
      .ok [sampleBatchedHandler] := by decide
  cases h
  refine ⟨⟨rfl, fun h => by cases h⟩, rfl, ⟨[sampleBatchedHandler], hf, rfl⟩, ?_⟩
  intro exc hexc
  cases hexc

/-- A run that took the sample event and nothing else. -/
theorem barePlay_delivers {m : RawMessage} (hm : m.bytes = sampleEvent.bytes)
    (ht : ∀ x ∈ (barePlay m).1, ∀ p ∈ takes x.op x.answer, p.1 = m) :
    Delivers bareListener (Seen (barePlay m).1) where
  obliging o r ho := by
    have hmem : ⟨o, r⟩ ∈ (barePlay m).1 := ho
    exact Prog.play_answers queueAnswer_obliging _ hmem
  events channel timeout n m' hseen now e hread := by
    obtain rfl : m' = m := ht _ hseen (m', n) List.mem_cons_self
    rw [hm] at hread
    exact sampleEvent_batched hread
  buffers channel limit n messages hseen m' hm' now e event hd := by
    obtain ⟨i, hi⟩ := List.mem_iff_getElem?.mp hm'
    obtain rfl : m' = m :=
      ht _ hseen (m', n + i) (List.mk_add_mem_zipIdx_iff_getElem?.mpr hi)
    obtain ⟨hread, -⟩ := decoded_eq_ok hd
    rw [hm] at hread
    have he := sampleEvent_batched hread
    exact ⟨he.dumpable, he.identity⟩

/-- Without `size` and without a receipt an event is gone as soon as it has been consumed. -/
theorem unbuffered_event_lost : ∃ tr s', bareListener.Listens {} tr s' ∧
    Delivers bareListener (Seen tr) ∧ ∃ m c, (m, c) ∈ Takes tr ∧ ¬ Survives tr m c := by
  let m : RawMessage := { sampleEvent with receipt := none }
  refine ⟨_, _, barePlay_listens m, barePlay_delivers rfl (by decide), m, 0,
    by decide, fun h => ?_⟩
  have hj : journal (barePlay m).1 = [] := by decide
  have hh : handed (barePlay m).1 = [] := by decide
  cases h with
  | stored hp =>
    rw [hj] at hp
    cases hp
  | handed hk =>
    rw [hh] at hk
    cases hk
  | claimed hr => cases hr

theorem batched_events_survive_receipt :
    (sampleEvent, 0) ∈ Takes (barePlay sampleEvent).1 ∧
    Survives (barePlay sampleEvent).1 sampleEvent 0 := by
  have ht : (sampleEvent, 0) ∈ Takes (barePlay sampleEvent).1 := by decide
  have hone : ∀ x ∈ (barePlay sampleEvent).1, ∀ p ∈ takes x.op x.answer, p.1 = sampleEvent := by
    decide
  refine ⟨ht, batched_events_survive (barePlay_listens sampleEvent) (barePlay_delivers rfl hone)
    (fun channel timeout n m hseen => .inr ?_) sampleEvent 0 ht⟩
  obtain rfl : m = sampleEvent := hone _ hseen (m, n) List.mem_cons_self
  rfl

end Sample

end Pybus
