import Pybus.Redelivery
import Pybus.StoreRuns

/-! Durable deliveries that a reaper gives back: their last attempt is the reaper's, which no job
knows of, so that no worker is ever told to proceed with them. -/
namespace Pybus

open Value Texts Relational MessageEnvelope Interaction Listener DjangoDurableJobStore

section Admissions

variable [Texts] {db db' : Database} {a : DurableDeliveryAdmission} {d : DurableDeliveryDecision}
  {env : Surroundings} {id : Uuid} {r : DurableJob}

/-- The row may be waiting for a delivery of its generation. -/
def DurableJob.Awaits (r : DurableJob) : Prop :=
  r.state.terminal = false ∧ r.state ≠ .running ∧
    (r.state = .indeterminate → r.indeterminateReason = some .publicationAcknowledgement)

omit [Texts] in
theorem DurableJob.awaits_of_open (hn : r.state.terminal = false) (hrun : r.state ≠ .running)
    (hi : ¬ (r.state = .indeterminate ∧ r.indeterminateReason ≠ some .publicationAcknowledgement)) :
    r.Awaits := ⟨hn, hrun, fun hs => not_not.mp fun hne => hi ⟨hs, hne⟩⟩

/-- A row of another attempt takes no delivery. -/
theorem decideAdmission_unmatched (hne : r.lastAttemptAt ≠ a.lastAttemptAt) :
    decideAdmission a r =
      if r.state = .indeterminate ∧ r.indeterminateReason ≠ some .publicationAcknowledgement then
        .drop
      else .abort := by
  have hm : r.matchesAdmission a = false := by
    simp [DurableJob.matchesAdmission, hne]
  unfold decideAdmission
  split
  · rename_i hs
    split
    · rename_i hi
      rw [hi.1] at hs
      simp at hs
    · rfl
  · simp [hm]

/-- How a delivery is answered, read off the row of its job. -/
def verdict (db : Database) (a : DurableDeliveryAdmission) (r : DurableJob) :
    DurableDeliveryDecision :=
  if r.generation < a.generation then .abort
  else if a.generation < r.generation ∨ r.state.terminal = true ∨ r.state = .running ∨
      seriesOpen db r = false then .drop
  else decideAdmission a r

theorem admitDelivery_verdict (hid : uuidFromText a.recordId = some id)
    (hr : db.jobs.row id = some r) (h : admitDelivery a env db = .ok (d, db')) :
    d = verdict db a r := by
  unfold admitDelivery at h
  simp only [hid, hr] at h
  obtain ⟨series, hl, h⟩ := bind_eq_ok h
  unfold verdict
  split at h
  · rename_i hlt
    cases h
    rw [if_pos hlt]
  rename_i hle
  rw [if_neg hle]
  split at h
  · rename_i hstop
    cases h
    rw [if_pos]
    exact hstop.imp_right fun hs => hs.imp_right .inl
  rename_i hgo
  simp only [not_or] at hgo
  obtain ⟨hge, hn, hrun⟩ := hgo
  -- what is left once the series is known to be open
  have rest : seriesOpen db r = true → (if decideAdmission a r = .proceed then
        (Except.ok (.proceed, db.setJob id (r.admitted a env.now)) : Except Exc _)
      else .ok (decideAdmission a r, db)) = .ok (d, db') →
      d = if a.generation < r.generation ∨ r.state.terminal = true ∨ r.state = .running ∨
        seriesOpen db r = false then .drop else decideAdmission a r := by
    intro ho h
    rw [if_neg (by simp [hge, hn, hrun, ho])]
    split at h
    · rename_i hd
      cases h
      exact hd.symm
    · cases h
      rfl
  rcases series with _ | ⟨sid, s⟩
  · exact rest (seriesOpen_of_lock hl (by simp)) h
  · have hstate := seriesState_of_lock hl
    obtain ⟨hsid, -⟩ := lockSeries_eq_some hl
    have closed : s.state ≠ .active → seriesOpen db r = false := by
      intro hs
      simp [seriesOpen, hsid, hstate, hs]
    dsimp only at h
    split at h
    · rename_i hs
      cases h
      rw [if_pos (.inr (.inr (.inr (closed (by simp [hs])))))]
    split at h
    · rename_i hs
      cases h
      rw [if_pos (.inr (.inr (.inr (closed hs))))]
    · rename_i hs
      exact rest (seriesOpen_of_lock hl (by simpa using hs)) h

/-- A delivery of a job that is there is answered. -/
theorem admitDelivery_answers (hexist : SeriesExist db) (hid : uuidFromText a.recordId = some id)
    (hr : db.jobs.row id = some r) :
    ∃ db', admitDelivery a env db = .ok (verdict db a r, db') := by
  have answered : ∃ d db', admitDelivery a env db = .ok (d, db') := by
    unfold admitDelivery
    simp only [hid, hr]
    have hlock : ∃ x, lockSeries db r.seriesId = .ok x := by
      unfold lockSeries
      split
      · exact ⟨_, rfl⟩
      · rename_i sid hsid
        obtain ⟨s, hs⟩ := hexist id r sid hr hsid
        exact ⟨some (sid, s), by rw [hs]⟩
    obtain ⟨x, hx⟩ := hlock
    simp only [hx, bind, Except.bind, pure, Except.pure]
    repeat' split
    all_goals exact ⟨_, _, rfl⟩
  obtain ⟨d, db', h⟩ := answered
  exact ⟨db', admitDelivery_verdict hid hr h ▸ h⟩

/-- A delivery of another attempt than the row's is aborted while the row waits for one, or knows of
no such generation yet, and is dropped otherwise. -/
theorem verdict_unmatched (hne : r.lastAttemptAt ≠ a.lastAttemptAt) :
    verdict db a r ≠ .proceed ∧ (verdict db a r = .abort ↔ r.generation < a.generation ∨
      r.generation = a.generation ∧ r.Awaits ∧ seriesOpen db r = true) := by
  unfold verdict
  split
  · rename_i hlt
    exact ⟨by simp, by simp [hlt]⟩
  rename_i hle
  split
  · rename_i hstop
    refine ⟨by simp, by simp, ?_⟩
    rintro (hlt | ⟨hgen, ⟨hn, hrun, -⟩, ho⟩)
    · exact absurd hlt hle
    · rcases hstop with hlt | ht | hst | hc
      · omega
      · rw [hn] at ht
        cases ht
      · exact absurd hst hrun
      · rw [ho] at hc
        cases hc
  rename_i hgo
  simp only [not_or, Bool.not_eq_true, Bool.not_eq_false] at hgo
  obtain ⟨hge, hn, hrun, ho⟩ := hgo
  have hgen : r.generation = a.generation := by omega
  rw [decideAdmission_unmatched hne]
  split
  · rename_i hi
    refine ⟨by simp, by simp, ?_⟩
    rintro (hlt | ⟨-, ⟨-, -, hreason⟩, -⟩)
    · exact absurd hlt hle
    · exact absurd (hreason hi.1) hi.2
  · rename_i hi
    exact ⟨by simp, fun _ => .inr ⟨hgen, DurableJob.awaits_of_open hn hrun hi, ho⟩, fun _ => rfl⟩

end Admissions

/-- What is put to the store for a durable delivery of a command. -/
theorem DurableJobController.admission_eq [Texts] {e : MessageEnvelope} {recordId : String}
    {g : Nat} {t : Option Instant} (hi : identity e = .ok (some (recordId, g)))
    (hk : e.messageKind = .str "command") (hl : lastAttempt e.headers = .ok t)
    (policy : DurableJobPolicy) (now : Instant) (sourceQueue : String)
    (retryCount maxRetries : Nat) :
    admission policy e now sourceQueue retryCount maxRetries = .ok (some {
      recordId, generation := g, sourceQueue, retryCount, maxRetries
      messageId := e.messageId
      messageType := e.messageType
      version := e.version
      payload := e.payload
      applicationHeaders := applicationHeaders e.headers
      lastAttemptAt := t
      admittedAt := some now
      reconciliationDueAt := some (now + policy.reconciliationDelay) }) := by
  simp only [admission, hi, hk, hl, bind, Except.bind, pure, Except.pure, ne_eq, not_true_eq_false,
    if_false]

section Copies

variable {Obj : Type} [Texts] {R : Redis.RedisReaperRunner} {channel target recordId : String}
  {message copy raw : Raw} {e e' : MessageEnvelope} {now now' t : Instant} {g : Nat}

/-- How a reaper settles the claim on a message it has read. -/
def settleOutcome (R : Redis.RedisReaperRunner) (channel : String) (e : MessageEnvelope)
    (t : Instant) (k : Claim) : Action Obj Unit := do
  Redis.RedisReaperRunner.settleAfterClaim "stale-claim reclaim"
    (publishEnvelope (R.outcome channel e t).1 (R.outcome channel e t).2 k)
  Redis.RedisReaperRunner.ackClaim k

theorem allows_settleOutcome {k : Claim} :
    Allows (fun target raw _ => (R.outcome channel e t).1 = target ∧
      (R.outcome channel e t).2.dump = .ok raw) (settleOutcome R channel e t k : Action Obj Unit) :=
  Allows.bind (Redis.RedisReaperRunner.allows_publish fun _ hd => ⟨rfl, hd⟩) fun _ =>
    Redis.RedisReaperRunner.allows_ackClaim

/-- What the run of a reaper publishes in the place of a message is the outcome at a time that it
reads. -/
theorem reclaim_outcome {k k' : Claim} {s : ListenerState} {tr : Trace Obj}
    {x : Except Exc Unit × ListenerState} (hr : read now message = .ok e)
    (hrun : (R.reclaim channel message k s : Prog _ _).Runs tr x)
    (hpub : .published target copy k' ∈ journal tr) :
    ∃ now' e' t, read now' message = .ok e' ∧ ⟨.now, t⟩ ∈ tr ∧
      (R.outcome channel e' t).1 = target ∧ (R.outcome channel e' t).2.dump = .ok copy := by
  unfold Redis.RedisReaperRunner.reclaim at hrun
  cases hrun with
  | @call _ _ now' tr₁ _ hrun =>
    cases hread : read now' message with
    | error exc =>
      rw [read_error hread] at hr
      cases hr
    | ok e' =>
      dsimp only [bind, Routine.bind, Action.ask, Routine.ask, Prog.bind] at hrun
      rw [hread] at hrun
      cases hrun with
      | @call _ _ t tr₂ _ hrun =>
        have hsettle : (settleOutcome R channel e' t k s).Runs tr₂ x := hrun
        have hrest : .published target copy k' ∈ journal tr₂ := hpub
        exact ⟨now', e', t, hread, by simp, allows_settleOutcome.published hsettle hrest⟩

variable (Obj R) in
/-- A copy of a message that a reaper made at that time and gave back to the channel, or that a
listener restored when it stopped at such a copy. -/
inductive GivenBack (message : Raw) : Instant → Raw → Prop
  | reaped {now t : Instant} {e : MessageEnvelope} {channel : String} {copy : Raw} :
      read now message = .ok e → (R.outcome channel e t).1 ≠ R.deadLetterChannel →
      (R.outcome channel e t).2.dump = .ok copy → GivenBack message t copy
  | reapedAgain {now t t' : Instant} {e : MessageEnvelope} {channel : String} {copy copy' : Raw} :
      GivenBack message t copy → read now copy = .ok e →
      (R.outcome channel e t').1 ≠ R.deadLetterChannel →
      (R.outcome channel e t').2.dump = .ok copy' → GivenBack message t' copy'
  | restored {now t : Instant} {e : MessageEnvelope} {channel reason target : String}
      {errorType : String → Exc} {copy copy' : Raw} {k k' : Claim} {s : ListenerState}
      {tr : Trace Obj} {x : Except Exc Unit × ListenerState} :
      GivenBack message t copy → read now copy = .ok e →
      (restoreClaimedCommandAndAbort channel e reason errorType k s : Prog _ _).Runs tr x →
      .published target copy' k' ∈ journal tr → GivenBack message t copy'

/-- Every copy that the run of a reaper puts on a channel for workers is given back. -/
theorem reclaim_givenBack {channel target : String} {k k' : Claim} {s : ListenerState}
    {tr : Trace Obj} {x : Except Exc Unit × ListenerState} (hr : read now message = .ok e)
    (hrun : (R.reclaim channel message k s : Prog _ _).Runs tr x)
    (hpub : .published target copy k' ∈ journal tr) (ht : target ≠ R.deadLetterChannel) :
    ∃ t, ⟨.now, t⟩ ∈ tr ∧ GivenBack Obj R message t copy := by
  obtain ⟨now', e', t, hr', hmem, htarget, hd⟩ := reclaim_outcome hr hrun hpub
  exact ⟨t, hmem, .reaped hr' (by rw [htarget]; exact ht) hd⟩

/-- Everybody reads the durable delivery of a record and a generation whose last attempt was at that
time. -/
def Attempted (recordId : String) (g : Nat) (t : Instant) (raw : Raw) : Prop :=
  ∀ now e, read now raw = .ok e →
    DurableJobController.identity e = .ok (some (recordId, g)) ∧ e.messageKind = .str "command" ∧
      Value.get e.headers "last_attempt" = .str (datetimeIsoformat (.utc t))

/-- The headers that tell what a delivery is are read as they are written. -/
theorem attempted_of_dump [RoundTexts] (hv : e.Valid) (hp : e.Plain) (hd : e.dump = .ok raw)
    (hi : DurableJobController.identity e = .ok (some (recordId, g)))
    (hk : e.messageKind = .str "command")
    (ht : Value.get e.headers "last_attempt" = .str (datetimeIsoformat (.utc t))) :
    Attempted recordId g t raw := by
  intro now e' hr
  obtain ⟨hheaders, hkind, -⟩ := read_copy hv hp hd hr
  obtain ⟨hrec, hgen, -⟩ := DurableJobController.identity_eq_some hi
  refine ⟨?_, ?_, ?_⟩
  · rw [DurableJobController.identity, hrec, hgen] at hi
    rw [DurableJobController.identity, hheaders, get_settledEntries, get_settledEntries, hrec, hgen,
      settled_str, settled_int]
    exact hi
  · rw [hkind, hk, settled_str]
  · rw [hheaders, get_settledEntries, ht, settled_str]

/-- The headers of the record and the generation stay on a retry. -/
theorem identity_retried_eq {typed : Bool} {n : Nat} :
    DurableJobController.identity (e.retried typed t n) = DurableJobController.identity e := by
  unfold DurableJobController.identity
  rw [get_retried (by decide) (by decide), get_retried (by decide) (by decide)]

theorem lastAttempt_retried {typed : Bool} {n : Nat} :
    Value.get (e.retried typed t n).headers "last_attempt" =
      .str (datetimeIsoformat (.utc t)) := by
  rw [Value.get, retried, lookup_set]
  rfl

/-- What a reaper gives back was last attempted when the reaper did so. -/
theorem attempted_reaped [RoundTexts] (hr : read now message = .ok e)
    (hi : DurableJobController.identity e = .ok (some (recordId, g)))
    (hk : e.messageKind = .str "command")
    (htarget : (R.outcome channel e t).1 ≠ R.deadLetterChannel)
    (hd : (R.outcome channel e t).2.dump = .ok copy) : Attempted recordId g t copy := by
  unfold Redis.RedisReaperRunner.outcome at htarget hd
  dsimp only at htarget hd
  split at htarget
  · exact absurd rfl htarget
  · rename_i hlt
    rw [if_neg hlt] at hd
    have hvalid : e.Valid := read_valid hr
    exact attempted_of_dump (e := e.retried true t _) hvalid (retried_plain (read_plain hr)) hd
      (identity_retried_eq.trans hi) hk lastAttempt_retried

/-- Every copy that was given back at some time is one of a delivery last attempted then. -/
theorem attempted_givenBack [RoundTexts] (hr : read now message = .ok e)
    (hi : DurableJobController.identity e = .ok (some (recordId, g)))
    (hk : e.messageKind = .str "command") (h : GivenBack Obj R message t copy) :
    Attempted recordId g t copy := by
  induction h with
  | reaped hr' htarget hd =>
    obtain ⟨hkind, -, hheaders⟩ := read_again hr hr'
    refine attempted_reaped hr' ?_ (hkind.trans hk) htarget hd
    rw [DurableJobController.identity, hheaders]
    exact hi
  | reapedAgain _ hr' htarget hd ih =>
    obtain ⟨hi', hk', -⟩ := ih _ _ hr'
    exact attempted_reaped hr' hi' hk' htarget hd
  | restored _ hr' hrun hpub ih =>
    obtain ⟨hi', hk', ht'⟩ := ih _ _ hr'
    have hd := (allows_restore (P := fun _ raw _ => dump _ = .ok raw) fun _ hd => hd).published
      hrun hpub
    exact attempted_of_dump (read_valid hr') (read_plain hr') hd hi' hk' ht'

/-- A durable delivery that a reaper has given back is never admitted while its job does not know of
the reaper's attempt: every worker that consumes it aborts as long as the job waits for a delivery
of that generation, and drops it from then on. -/
theorem reaped_delivery_refused [RoundTexts] (hr : read now message = .ok e)
    (hi : DurableJobController.identity e = .ok (some (recordId, g)))
    (hk : e.messageKind = .str "command") (hg : GivenBack Obj R message t copy)
    (hr' : read now' copy = .ok e') (policy : DurableJobPolicy) (sourceQueue : String)
    (retryCount maxRetries : Nat) (time : Instant) :
    ∃ a, DurableJobController.admission policy e' time sourceQueue retryCount maxRetries =
        .ok (some a) ∧
      ∀ db db' d env id r, uuidFromText recordId = some id → db.jobs.row id = some r →
        r.lastAttemptAt ≠ some t → admitDelivery a env db = .ok (d, db') →
          d ≠ .proceed ∧ (d = .abort ↔ r.generation < g ∨
            r.generation = g ∧ r.Awaits ∧ seriesOpen db r = true) := by
  obtain ⟨hi', hk', ht'⟩ := attempted_givenBack hr hi hk hg now' e' hr'
  have hlast : DurableJobController.lastAttempt e'.headers = .ok (some t) := by
    simp [DurableJobController.lastAttempt, ht', RoundTexts.datetime_round, Datetime.instant,
      Datetime.utc]
  refine ⟨_, DurableJobController.admission_eq hi' hk' hlast policy time sourceQueue retryCount
    maxRetries, ?_⟩
  intro db db' d env id r hid hrow hne h
  rw [admitDelivery_verdict hid hrow h]
  exact verdict_unmatched hne

end Copies

section Sample

local instance reapedTexts : Texts := .lawful
local instance reapedRounds : RoundTexts := roundTexts_lawful

def stalledHeaders : Dict :=
  [(durableRecordHeader, .str (uuidText 1)), (durableGenerationHeader, .int 1)]

/-- A delivery whose worker stalled before it was admitted. -/
def stalled : RawMessage :=
  sampleMessage (.str "command") (.str "invoice.send") stalledHeaders

def stalledEnvelope : MessageEnvelope :=
  { lastRetryEnvelope with headers := stalledHeaders }

/-- The job of that delivery, published and waiting. -/
def stalledJob : Database :=
  { Database.empty with jobs := Database.empty.jobs.insert 1 {
      messageId := "m1"
      messageType := "invoice.send"
      version := 1
      payload := .dict []
      headers := []
      createdAt := 0
      availableAt := 0
      queue := "pybus.jobs"
      fingerprint := ""
      idempotencyKey := none
      state := .published
      generation := 1 } }

theorem reaped_delivery_refused_waiting : ∃ copy e' a,
    GivenBack Unit chainReaper stalled.bytes 0 copy ∧ read 0 copy = .ok e' ∧
      DurableJobController.admission {} e' 0 "pybus.jobs" 1 3 = .ok (some a) ∧
      ∀ db d, admitDelivery a sampleSurroundings stalledJob = .ok (d, db) → d = .abort := by
  have hread : read 0 stalled.bytes = .ok stalledEnvelope := by decide
  obtain ⟨copy, e', hdump, hread'⟩ : ∃ copy e',
      (chainReaper.outcome "pybus.jobs" stalledEnvelope 0).2.dump = .ok copy ∧
        read 0 copy = .ok e' := ⟨_, _, rfl, rfl⟩
  have hgiven : GivenBack Unit chainReaper stalled.bytes 0 copy :=
    .reaped hread (by decide) hdump
  obtain ⟨a, ha, hrefused⟩ :=
    reaped_delivery_refused hread rfl rfl hgiven hread' {} "pybus.jobs" 1 3 0
  refine ⟨copy, e', a, hgiven, hread', ha, fun db d hd => ?_⟩
  obtain ⟨-, hiff⟩ := hrefused stalledJob db d sampleSurroundings 1 _ (uuid_round 1)
    Table.row_insert_self (by simp) hd
  exact hiff.mpr (.inr ⟨rfl, ⟨rfl, by simp, by simp⟩, rfl⟩)

end Sample

end Pybus
