import Pybus.Reaper

/-! Chains of copies: how often the listener and the reaper together redeliver one message. -/
namespace Pybus

open Value Texts MessageEnvelope Interaction Listener

section Chains

variable {Obj : Type} [Texts]

section Steps

variable (L : Listener Obj) (R : Redis.RedisReaperRunner) (limit : Nat)

/-- A failed delivery of a message, or a stale claim on it, makes the listener or the reaper publish
a copy on a target. The dead-letter channel is that of the one who publishes. -/
inductive Redelivers : Raw → String → String → Raw → Prop
  | failed {now : Instant} {message copy : Raw} {e : MessageEnvelope} {channel target : String}
      {spec : HandlerSpec} {k k' : Claim} {s : ListenerState} {tr : Trace Obj}
      {x : Except Exc Unit × ListenerState} :
      read now message = .ok e → L.maxRetriesOf spec ≤ limit →
      (L.handleFailedDelivery channel e spec k s).Runs tr x →
      .published target copy k' ∈ journal tr → Redelivers message L.deadLetterChannel target copy
  | recovered {now : Instant} {message copy : Raw} {e : MessageEnvelope} {channel target : String}
      {exc : Exc} {k k' : Claim} {s : ListenerState} {tr : Trace Obj}
      {x : Except Exc Unit × ListenerState} :
      read now message = .ok e → L.retryPolicy.maxRetries ≤ limit →
      (L.recover channel e exc k s).Runs tr x →
      .published target copy k' ∈ journal tr → Redelivers message L.deadLetterChannel target copy
  | flushed {now : Instant} {message copy : Raw} {e : MessageEnvelope} {buffer target : String}
      {maxRetries : Nat} {l : List (MessageEnvelope × Claim)} {k : Claim} {s : ListenerState}
      {tr : Trace Obj} {x : Except Exc Bool × ListenerState} :
      read now message = .ok e → maxRetries ≤ limit → (∀ m ∈ l, m.2 = k → m.1 = e) →
      (L.requeueBatch buffer maxRetries l s).Runs tr x →
      .published target copy k ∈ journal tr → Redelivers message L.deadLetterChannel target copy
  | reclaimed {now : Instant} {message copy : Raw} {e : MessageEnvelope} {channel target : String}
      {k k' : Claim} {s : ListenerState} {tr : Trace Obj} {x : Except Exc Unit × ListenerState} :
      read now message = .ok e → (R.reclaim channel message k s : Prog _ _).Runs tr x →
      .published target copy k' ∈ journal tr → Redelivers message R.deadLetterChannel target copy

/-- A message is passed on with no failure of its handler: it is continued, buffered for its batch,
or given back before it is handled. -/
inductive PassesOn : Raw → Raw → Prop
  | continued {now : Instant} {message copy : Raw} {e : MessageEnvelope} {channel target : String}
      {continuation : ContinueProcessing} {maxRetries : Nat} {k k' : Claim} {s : ListenerState}
      {tr : Trace Obj} {x : Except Exc Unit × ListenerState} :
      read now message = .ok e →
      (L.continueProcessing channel e continuation maxRetries k s).Runs tr x →
      .published target copy k' ∈ journal tr → PassesOn message copy
  | buffered {now : Instant} {message copy : Raw} {e : MessageEnvelope} {messageType target : String}
      {k k' : Claim} {s : ListenerState} {tr : Trace Obj} {x : Except Exc Unit × ListenerState} :
      read now message = .ok e → (L.bufferBatchedMessage messageType e k s).Runs tr x →
      .published target copy k' ∈ journal tr → PassesOn message copy
  | restored {now : Instant} {message copy : Raw} {e : MessageEnvelope}
      {channel reason target : String} {errorType : String → Exc} {k k' : Claim}
      {s : ListenerState} {tr : Trace Obj} {x : Except Exc Unit × ListenerState} :
      read now message = .ok e →
      (restoreClaimedCommandAndAbort channel e reason errorType k s : Prog _ _).Runs tr x →
      .published target copy k' ∈ journal tr → PassesOn message copy

/-- A copy at the end of a chain of copies, with the number of redeliveries in the chain. -/
inductive Chain (message : Raw) : Nat → Raw → Prop
  | start : Chain message 0 message
  | redelivered {i : Nat} {copy copy' : Raw} {dead target : String} : Chain message i copy →
      Redelivers L R limit copy dead target copy' → target ≠ dead → Chain message (i + 1) copy'
  | passedOn {i : Nat} {copy copy' : Raw} : Chain message i copy → PassesOn L copy copy' →
      Chain message i copy'

end Steps

/-- Whoever reads the message reads a delivery that is not durable and has that many retries. -/
def Carrying (L : Listener Obj) (message : Raw) (n : Nat) : Prop :=
  ∀ now e, read now message = .ok e → DurableJobController.identity e = .ok none ∧
    L.CarriesCount e ∧ e.headerCount = n

variable {L : Listener Obj} {R : Redis.RedisReaperRunner} {limit n : Nat} {e : MessageEnvelope}
  {now : Instant} {message copy raw : Raw} {dead target : String}

theorem carrying_of_read (hr : read now message = .ok e)
    (hi : DurableJobController.identity e = .ok none) (hc : L.CarriesCount e) :
    Carrying L message e.headerCount := by
  intro now' e' hr'
  obtain ⟨hkind, htype, hheaders⟩ := read_again hr hr'
  refine ⟨?_, ?_, ?_⟩
  · rw [DurableJobController.identity, hheaders]
    exact hi
  · rw [CarriesCount, isTyped, hkind, htype, hheaders]
    exact hc
  · rw [headerCount, hheaders]
    rfl

/-- A written message carries over the wire what it carried before. -/
theorem carrying_of_dump [RoundTexts] (hv : e.Valid) (hp : e.Plain) (hd : e.dump = .ok raw)
    (hi : DurableJobController.identity e = .ok none) (hc : L.CarriesCount e) :
    Carrying L raw e.headerCount := by
  intro now' e' hr
  obtain ⟨hheaders, hkind, htype⟩ := read_copy hv hp hd hr
  exact ⟨identity_settled hi hheaders, hc.settled hkind htype hheaders,
    headerCount_settled hheaders⟩

/-- A retry carries one more retry than the message. -/
theorem carrying_retried [RoundTexts] (hr : read now message = .ok e)
    (hi : DurableJobController.identity e = .ok none) {typed : Bool} {t : Instant}
    (hd : (e.retried typed t n).dump = .ok raw) : Carrying L raw (n + 1) := by
  have hc : L.CarriesCount (e.retried typed t n) := by
    refine .inr ?_
    rw [retries_retried]
    rfl
  have hvalid : e.Valid := read_valid hr
  have hcarry := carrying_of_dump (e := e.retried typed t n) hvalid (retried_plain (read_plain hr)) hd
    (identity_retried hi) hc
  rw [headerCount_retried] at hcarry
  exact hcarry

/-- What a failed delivery publishes is a dead letter, or counts one retry more. -/
theorem failureCopy_carrying [RoundTexts] {channel : String} {own : Nat}
    (hr : read now message = .ok e) (hm : Carrying L message n)
    (h : FailureCopy L channel e own target copy) :
    target = L.deadLetterChannel ∨ n < own ∧ Carrying L copy (n + 1) := by
  obtain ⟨hi, hc, hn⟩ := hm now e hr
  rcases h with ⟨typed, t, retries, -, hretries, hlt, -, hd⟩ | ⟨hdead, -⟩
  · have hcount : retries = n := (hc.retryCount hretries).trans hn
    subst hcount
    exact .inr ⟨hlt, carrying_retried hr hi hd⟩
  · exact .inl hdead

theorem reclaimCopy_carrying [RoundTexts] {channel : String} (hr : read now message = .ok e)
    (hm : Carrying L message n) (h : R.ReclaimCopy channel e target copy) :
    target = R.deadLetterChannel ∨ n < R.policy.maxReclaimAttempts ∧ Carrying L copy (n + 1) := by
  obtain ⟨hi, -, hn⟩ := hm now e hr
  rcases h with ⟨t, hlt, -, hd⟩ | ⟨hdead, -⟩
  · rw [hn] at hlt hd
    exact .inr ⟨hlt, carrying_retried hr hi hd⟩
  · exact .inl hdead

/-- One redelivery: a dead letter, or one retry more and a limit that was not reached. -/
theorem redelivers_step [RoundTexts] (hm : Carrying L message n)
    (h : Redelivers L R limit message dead target copy) :
    target = dead ∨ n < max limit R.policy.maxReclaimAttempts ∧ Carrying L copy (n + 1) := by
  cases h with
  | failed hr hlimit hrun hpub =>
    have hcopy := (allows_handleFailedDelivery (hm _ _ hr).1).published hrun hpub
    rcases failureCopy_carrying hr hm hcopy with hdead | ⟨hlt, hcarry⟩
    · exact .inl hdead
    · exact .inr ⟨by omega, hcarry⟩
  | recovered hr hlimit hrun hpub =>
    have hcopy := (allows_recover (hm _ _ hr).1).published hrun hpub
    rcases failureCopy_carrying hr hm hcopy with hdead | ⟨hlt, hcarry⟩
    · exact .inl hdead
    · exact .inr ⟨by omega, hcarry⟩
  | flushed hr hlimit hown hrun hpub =>
    obtain ⟨m, hmem, hk, hcopy⟩ := (allows_requeueBatch _).published hrun hpub
    rw [hown m hmem hk] at hcopy
    rcases failureCopy_carrying hr hm (hcopy (hm _ _ hr).1) with hdead | ⟨hlt, hcarry⟩
    · exact .inl hdead
    · exact .inr ⟨by omega, hcarry⟩
  | reclaimed hr hrun hpub =>
    obtain ⟨now', e', hr', hcopy⟩ :=
      (Redis.RedisReaperRunner.allows_reclaim ⟨_, _, hr⟩).published hrun hpub
    rcases reclaimCopy_carrying hr' hm hcopy with hdead | ⟨hlt, hcarry⟩
    · exact .inl hdead
    · exact .inr ⟨by omega, hcarry⟩

/-- A message that is passed on keeps its retry count. -/
theorem passesOn_step [RoundTexts] (hm : Carrying L message n) (h : PassesOn L message copy) :
    Carrying L copy n := by
  have hunchanged : ∃ now e, read now message = .ok e ∧ e.dump = .ok copy := by
    cases h with
    | continued hr hrun hpub =>
      exact ⟨_, _, hr, ((allows_continueProcessing (hm _ _ hr).1).published hrun hpub).2⟩
    | buffered hr hrun hpub => exact ⟨_, _, hr, allows_bufferBatchedMessage.published hrun hpub⟩
    | restored hr hrun hpub =>
      exact ⟨_, _, hr, (allows_restore (P := fun _ raw _ => dump _ = .ok raw)
        fun _ hd => hd).published hrun hpub⟩
  obtain ⟨now, e, hr, hd⟩ := hunchanged
  obtain ⟨hi, hc, hn⟩ := hm now e hr
  rw [← hn]
  exact carrying_of_dump (read_valid hr) (read_plain hr) hd hi hc

/-- Every redelivery of a chain counts, and nothing else does. -/
theorem chain_carrying [RoundTexts] {i : Nat} (hm : Carrying L message n)
    (h : Chain L R limit message i copy) :
    Carrying L copy (n + i) ∧ (i = 0 ∨ n + i ≤ max limit R.policy.maxReclaimAttempts) := by
  induction h with
  | start => exact ⟨hm, .inl rfl⟩
  | redelivered _ hstep htarget ih =>
    rcases redelivers_step ih.1 hstep with hdead | ⟨hlt, hcarry⟩
    · exact absurd hdead htarget
    · exact ⟨hcarry, .inr hlt⟩
  | passedOn _ hstep ih => exact ⟨passesOn_step ih.1 hstep, ih.2⟩

/-- Redelivery is bounded across the listener and the reaper: along every chain of copies the retry
count is the first one and the number of redeliveries, of which there are no more than the limits
allow, and where the limits are reached the next failure or reclaim publishes a dead letter. -/
theorem redelivery_is_bounded [RoundTexts] {i : Nat} (hr : read now message = .ok e)
    (hi : DurableJobController.identity e = .ok none) (hc : L.CarriesCount e)
    (h : Chain L R limit message i copy) :
    (∀ now' e', read now' copy = .ok e' →
      resolveRetryCount none e'.headers = resolveRetryCount none e.headers + i ∧
      ∀ n, L.retryCount e' = .ok n → n = resolveRetryCount none e.headers + i) ∧
    i ≤ max limit R.policy.maxReclaimAttempts - resolveRetryCount none e.headers ∧
    ∀ copy' dead target, Redelivers L R limit copy dead target copy' → target ≠ dead →
      (∀ now' e', read now' copy' = .ok e' → resolveRetryCount none e'.headers =
        resolveRetryCount none e.headers + i + 1) ∧
      resolveRetryCount none e.headers + i < max limit R.policy.maxReclaimAttempts := by
  obtain ⟨hcarry, hbound⟩ := chain_carrying (carrying_of_read hr hi hc) h
  unfold headerCount at hcarry hbound
  refine ⟨?_, by omega, ?_⟩
  · intro now' e' hr'
    obtain ⟨-, hc', hn⟩ := hcarry now' e' hr'
    exact ⟨hn, fun n hn' => (hc'.retryCount hn').trans hn⟩
  · intro copy' dead target hstep htarget
    rcases redelivers_step hcarry hstep with hdead | ⟨hlt, hcarry'⟩
    · exact absurd hdead htarget
    · exact ⟨fun now' e' hr' => (hcarry' now' e' hr').2.2, hlt⟩

end Chains

section Sample

local instance chainTexts : Texts := .lawful

local instance chainRounds : RoundTexts := roundTexts_lawful

/-- A command whose last retry is left. -/
def lastRetry : RawMessage := sampleMessage (.str "command") (.str "invoice.send") [("retries", .int 9)]

def lastRetryEnvelope : MessageEnvelope where
  messageId := .str "m1"
  messageType := .str "invoice.send"
  messageKind := .str "command"
  version := 1
  payload := .dict []
  headers := [("retries", .int 9)]
  createdAt := .datetime (.utc 0)

def chainReaper : Redis.RedisReaperRunner where
  channels := ["pybus.jobs"]
  deadLetterChannel := "pybus.jobs.failed"
  channels_ne_nil := by decide
  deadLetterChannel_terminal := by decide

/-- The handler of the command fails. -/
def chainPlay : Trace Unit × Except Exc Unit × ListenerState :=
  (sampleListener.handleFailedDelivery "pybus.jobs" lastRetryEnvelope {} ⟨some "r1", 0⟩ {}).play
    queueAnswer []

/-- What is published then. -/
def lastRetryCopy : Raw :=
  match journal chainPlay.1 with
  | .published _ copy _ :: _ => copy
  | _ => lastRetry.bytes

theorem redelivery_is_bounded_once :
    Chain sampleListener chainReaper 10 lastRetry.bytes 1 lastRetryCopy ∧ 1 ≤ max 10 5 - 9 ∧
      ∀ now e', read now lastRetryCopy = .ok e' → resolveRetryCount none e'.headers = 10 := by
  have hread : read 0 lastRetry.bytes = .ok lastRetryEnvelope := by decide
  have hpub : .published "pybus.jobs" lastRetryCopy ⟨some "r1", 0⟩ ∈ journal chainPlay.1 := by
    decide +kernel
  have hstep : Redelivers sampleListener chainReaper 10 lastRetry.bytes "pybus.jobs.failed"
      "pybus.jobs" lastRetryCopy := .failed hread le_rfl Prog.play_runs hpub
  have hchain : Chain sampleListener chainReaper 10 lastRetry.bytes 1 lastRetryCopy :=
    .redelivered .start hstep (by decide)
  obtain ⟨hcounts, hbound, -⟩ := redelivery_is_bounded hread rfl (.inr rfl) hchain
  exact ⟨hchain, hbound, fun now e' hr' => (hcounts now e' hr').1⟩

end Sample

end Pybus
