import Pybus.Cancellation
import Pybus.Idempotency
import Pybus.ReapedDeliveries

/-! From a call of `schedule_command` to its workers: what the runner publishes for its jobs is read
as the command that was scheduled, and is admitted for as long as the job waits for it. -/
namespace Pybus

open Value Texts Relational MessageEnvelope Interaction DjangoDurableJobStore

namespace ScheduleCommand

variable {Cls : Type} {c : ScheduleCommand Cls} {x : CallSurroundings} {d : DurableJobDraft}
  {db db' : Database} {id sid : Uuid} {r : DurableJob} {s : JobSeries}

/-- The jobs of a call: the one it stored, and the later occurrences of its series. -/
def Descends (c : ScheduleCommand Cls) (x : CallSurroundings) (id : Uuid) (r : DurableJob) : Prop :=
  id = x.jobId ∨ c.recurrence.isSome ∧ r.seriesId = some x.seriesId

/-- The jobs of a call are made of its draft. -/
structure Lineage (c : ScheduleCommand Cls) (x : CallSurroundings) (d : DurableJobDraft)
    (db : Database) : Prop where
  job : ∃ r, db.jobs.row x.jobId = some r
  series : c.recurrence.isSome → ∃ s, db.series.row x.seriesId = some s ∧ s.columns = d.columns
  columns : ∀ id r, db.jobs.row id = some r → c.Descends x id r →
    r.columns = d.columns ∧ r.messageId ≠ ""

section Steps

variable [Texts] [Calendar] {e : StoreEvent} {es : List StoreEvent}

/-- A new job in a series that is already there has the message of that series. -/
theorem created_columns {op : StoreOp} {env : Surroundings} {a : op.Result}
    (h : op.run env db = .ok (a, db')) (hn : db.jobs.row id = none)
    (hr : db'.jobs.row id = some r) (hsid : r.seriesId = some sid)
    (hs : db.series.row sid = some s) : r.columns = s.columns ∧ r.messageId ≠ "" := by
  have others : SchedulingOp.others op = true → r.columns = s.columns ∧ r.messageId ≠ "" := by
    intro hop
    obtain ⟨-, hmessage, hseries⟩ := (Advances.of_run hop h).created id r hn hr
    obtain ⟨s', hs', hcolumns⟩ := hseries sid hsid
    rw [hs] at hs'
    cases hs'
    exact ⟨hcolumns, hmessage⟩
  cases op with
  | schedule d =>
    rcases schedule_spec h with rfl | ⟨q, hq, -, rfl⟩
    · rw [hn] at hr
      cases hr
    · rcases Changes.insert_cases hr with ⟨-, rfl⟩ | hold
      · rw [hq] at hsid
        cases hsid
      · rw [hn] at hold
        cases hold
  | scheduleRecurring d =>
    rcases scheduleRecurring_spec h with rfl | ⟨q, hsn, -, ht, hq, -⟩
    · rw [hn] at hr
      cases hr
    · by_cases hi : id = env.fresh
      · subst hi
        rw [ht.job] at hr
        cases hr
        rw [hq] at hsid
        cases hsid
        rw [hsn] at hs
        cases hs
      · rw [ht.job_ne id hi, hn] at hr
        cases hr
  | _ => exact others rfl

theorem lineage_step (h : StoreStep db e db') (hl : c.Lineage x d db) : c.Lineage x d db' := by
  cases h with
  | error _ => exact hl
  | @ok _ op env a h =>
    have hg := (Changes.of_run h).grows
    refine ⟨?_, fun hrec => ?_, ?_⟩
    · obtain ⟨r, hr⟩ := hl.job
      obtain ⟨r', hr', -⟩ := hg.job _ r hr
      exact ⟨r', hr'⟩
    · obtain ⟨s, hs, hcolumns⟩ := hl.series hrec
      obtain ⟨s', hs', hsame⟩ := hg.series _ s hs
      exact ⟨s', hs', hsame.columns.trans hcolumns⟩
    · intro id r' hr' hd
      cases hr : db.jobs.row id with
      | none =>
        rcases hd with rfl | ⟨hrec, hsid⟩
        · obtain ⟨r, hjob⟩ := hl.job
          rw [hr] at hjob
          cases hjob
        · obtain ⟨s, hs, hcolumns⟩ := hl.series hrec
          obtain ⟨hsame, hmessage⟩ := created_columns h hr hr' hsid hs
          exact ⟨hsame.trans hcolumns, hmessage⟩
      | some r =>
        have hsame := hg.job_eq hr hr'
        have hdr : c.Descends x id r := hd.imp_right fun hrec => ⟨hrec.1, hsame.series ▸ hrec.2⟩
        obtain ⟨hcolumns, hmessage⟩ := hl.columns id r hr hdr
        exact ⟨hsame.columns.trans hcolumns, hsame.message ▸ hmessage⟩

theorem lineage_run (h : Path StoreStep db es db') (hl : c.Lineage x d db) : c.Lineage x d db' :=
  h.invariant (fun _ _ _ => lineage_step) hl

omit [Texts] [Calendar] in
/-- The jobs of a call are made of its draft once it is stored. -/
theorem Inserted.lineage (h : c.Inserted x d db db') (hexist : SeriesExist db)
    (hm : d.messageId ≠ "") : c.Lineage x d db' := by
  obtain ⟨hn, hjobs, hseries⟩ := h.adds
  have hstored : (c.stored x d).columns = d.columns ∧ (c.stored x d).messageId = d.messageId := by
    unfold stored
    split <;> exact ⟨rfl, rfl⟩
  refine ⟨⟨c.stored x d, by rw [hjobs]; exact Table.row_insert_self⟩, fun hrec => ?_, ?_⟩
  · obtain ⟨r, hr⟩ := Option.isSome_iff_exists.mp hrec
    rw [hr] at hseries
    exact ⟨_, by rw [hseries.2]; exact Table.row_insert_self, rfl⟩
  · intro id r hr hd
    rw [hjobs] at hr
    rcases Changes.insert_cases hr with ⟨-, rfl⟩ | hold
    · exact ⟨hstored.1, hstored.2 ▸ hm⟩
    · rcases hd with rfl | ⟨hrec, hsid⟩
      · rw [hn] at hold
        cases hold
      · obtain ⟨q, hq⟩ := Option.isSome_iff_exists.mp hrec
        obtain ⟨s, hs⟩ := hexist id r _ hold hsid
        rw [hq] at hseries
        rw [hseries.1] at hs
        cases hs

omit [Texts] [Calendar] in
theorem Inserted.seriesExist (h : c.Inserted x d db db') (hexist : SeriesExist db) :
    SeriesExist db' := by
  intro id r sid hr hsid
  rcases h.stems hr with hold | hstems
  · obtain ⟨s, hs⟩ := hexist id r sid hold hsid
    obtain ⟨s', hs', -⟩ := h.grows.series sid s hs
    exact ⟨s', hs'⟩
  · obtain ⟨q, hq, rfl⟩ := Option.map_eq_some_iff.mp (hstems.series.symm.trans hsid)
    have hseries := h.adds.series
    rw [hq] at hseries
    exact ⟨_, by rw [hseries.2]; exact Table.row_insert_self⟩

end Steps

end ScheduleCommand

section Waiting

variable [Texts] {k : DurableJobClaim} {id : Uuid} {r : DurableJob} {db db' : Database}

/-- The row is as it was claimed, except that the publication may have been recorded. -/
structure Expects (k : DurableJobClaim) (id : Uuid) (r : DurableJob) : Prop where
  claim : { r.toClaim id with
    settlementStatus := k.settlementStatus, settlementSource := k.settlementSource } = k
  waits : r.state ∈ [.claimed, .published, .settling] ∨
    r.state = .indeterminate ∧ r.indeterminateReason = some .publicationAcknowledgement

/-- The job has gone on without the delivery of a claim, or waits for it. -/
def Undelivered (k : DurableJobClaim) (id : Uuid) (db : Database) : Prop :=
  ∃ r, db.jobs.row id = some r ∧ k.generation ≤ r.generation ∧
    (k.generation < r.generation ∨ r.state.terminal = true ∨ Expects k id r)

/-- The outcome confirms a copy with that retry count on that queue. -/
def CommandDeliveryOutcome.Confirms (o : CommandDeliveryOutcome) (queue : String)
    (retryCount : Nat) : Prop :=
  o.status ∈ [.retryScheduled, .continued] ∧
    destinationOrSource o.destinationQueue o.sourceQueue = queue ∧ o.retryCount = retryCount

/-- The event admits a delivery of that generation of the job, or brings the outcome of another copy
than the one that waits on the queue. -/
def StoreEvent.Delivers (e : StoreEvent) (id : Uuid) (g : Nat) (queue : String)
    (retryCount : Nat) : Prop :=
  (∃ a, e.proceeded = some a ∧ uuidFromText a.recordId = some id ∧ a.generation = g) ∨
  ∃ o due recordId, e.op = .applyOutcome o due ∧ o.durableRecordId = some recordId ∧
    uuidFromText recordId = some id ∧ o.durableGeneration = some (g : Int) ∧
    ¬ o.Confirms queue retryCount

theorem Expects.not_running (h : Expects k id r) : r.state ≠ .running := by
  rcases h.waits with hw | ⟨hw, -⟩
  · intro hr
    simp [hr] at hw
  · simp [hw]

theorem Expects.generation (h : Expects k id r) : r.generation = k.generation :=
  congrArg DurableJobClaim.generation h.claim

theorem Expects.publish (h : Expects k id r) (c : DurableJobClaim) (due : Instant) :
    Expects k id (r.publish c due) := by
  refine ⟨?_, .inl (by simp)⟩
  unfold DurableJob.publish
  split <;> exact h.claim

theorem Expects.publishIndeterminate (h : Expects k id r) (c : DurableJobClaim) (due : Instant) :
    Expects k id (r.publishIndeterminate c due) := by
  refine ⟨h.claim, ?_⟩
  unfold DurableJob.publishIndeterminate
  by_cases hc : c.settlementStatus = none
  · right
    simp [hc]
  · left
    simp [hc]

theorem Expects.resume (h : Expects k id r) {o : CommandDeliveryOutcome}
    (ho : o.Confirms k.queue k.retryCount) (due : Instant) : Expects k id (r.resume o due) := by
  obtain ⟨-, hqueue, hretries⟩ := ho
  refine ⟨?_, .inl (by simp [DurableJob.resume])⟩
  have hclaim := h.claim
  have hrow : r.queue = k.queue := congrArg DurableJobClaim.queue hclaim
  have hcount : r.retryCount = k.retryCount := congrArg DurableJobClaim.retryCount hclaim
  rw [← hclaim]
  simp [DurableJob.resume, DurableJob.toClaim, hqueue, hretries, hrow, hcount]

theorem durableGeneration_of_matches {o : CommandDeliveryOutcome}
    (h : r.matchesOutcome o = true) : o.durableGeneration = some (r.generation : Int) := by
  simp only [DurableJob.matchesOutcome, Bool.and_eq_true, decide_eq_true_eq] at h
  exact h.1.1.1.1.1

/-- A row that a delivery does not reach goes on waiting, ends or is claimed again. -/
theorem JobChange.expects {env : Surroundings} {op : StoreOp} {r' : DurableJob}
    (h : JobChange db env op id r r') (he : Expects k id r)
    (ha : ∀ a, op = .admitDelivery a → r'.state ≠ .running)
    (ho : ∀ o due recordId, op = .applyOutcome o due → o.durableRecordId = some recordId →
      uuidFromText recordId = some id → o.durableGeneration = some (k.generation : Int) →
      o.Confirms k.queue k.retryCount) :
    k.generation < r'.generation ∨ r'.state.terminal = true ∨ Expects k id r' := by
  have hrun := he.not_running
  have hgen := he.generation
  cases h with
  | claimed _ _ =>
    left
    rw [DurableJob.claim, ← hgen]
    exact Nat.lt_succ_self _
  | parked hp =>
    simp only [parkable, Bool.and_eq_true, decide_eq_true_eq] at hp
    exact absurd hp.1.1.2 hrun
  | published _ _ _ _ => exact .inr (.inr (he.publish _ _))
  | publishUnknown _ _ _ => exact .inr (.inr (he.publishIndeterminate _ _))
  | admitted _ _ _ _ => exact absurd rfl (ha _ rfl)
  | checkpointed _ _ _ _ hr _
  | checkpointCancelled _ _ hr _
  | released _ _ hr _
  | releaseCancelled _ _ hr _
  | succeeded _ _ _ _ hr
  | completed _ _ _ hr _ => exact absurd hr hrun
  | resumed hrec hid _ hm _ _ =>
    have hconfirms := ho _ _ _ rfl hrec hid (hgen ▸ durableGeneration_of_matches hm)
    exact .inr (.inr (he.resume hconfirms _))
  | deadLetteredByOutcome hrec hid hs hm _ =>
    obtain ⟨hstatus, -⟩ := ho _ _ _ rfl hrec hid (hgen ▸ durableGeneration_of_matches hm)
    simp [hs] at hstatus
  | resumeCancelled _ _ _ _ _ _
  | cancelled _ _ _ _ _ _
  | swept _
  | deadLetteredByClaim _ _ _ _
  | admissionCancelled _ _ _ _ _ => exact .inr (.inl rfl)

variable [Calendar] {e : StoreEvent} {es : List StoreEvent}

/-- An admission lets a job run only if it is answered `PROCEED`. -/
theorem proceeded_of_running {a : DurableDeliveryAdmission} {env : Surroundings}
    {result : Except Exc DurableDeliveryDecision} {r' : DurableJob}
    (h : StoreStep db ⟨.admitDelivery a, env, result⟩ db') (hr : db.jobs.row id = some r)
    (hn : r.state ≠ .running) (hr' : db'.jobs.row id = some r') (hrun : r'.state = .running) :
    result = .ok .proceed := by
  have kept : db' ≠ db := by
    rintro rfl
    rw [hr] at hr'
    cases hr'
    exact hn hrun
  cases h with
  | error _ => exact absurd rfl kept
  | ok h =>
    rcases admitDelivery_spec h with ⟨-, -, rfl, -⟩ | ⟨i, q, -, -, hq, -, -, -, -, rfl⟩ | ⟨-, he⟩
    · rfl
    · by_cases hi : id = i
      · subst hi
        rw [Database.setJob_row hr] at hr'
        cases hr'
        cases hrun
      · rw [Database.setJob_row_ne hi, hr] at hr'
        cases hr'
        exact absurd hrun hn
    · exact absurd he kept

theorem undelivered_step (h : StoreStep db e db')
    (hn : ¬ e.Delivers id k.generation k.queue k.retryCount)
    (hu : Undelivered k id db) : Undelivered k id db' := by
  obtain ⟨r, hr, hle, hcase⟩ := hu
  obtain ⟨r', hr', hgen, hend⟩ := settles_step h hr
  refine ⟨r', hr', hle.trans hgen, ?_⟩
  rcases hcase with hnew | hterminal | hexpects
  · exact .inl (hnew.trans_le hgen)
  · exact .inr (.inl (by rw [(hend hterminal).1, hterminal]))
  · obtain ⟨q, hq, hc⟩ := h.changes.job id r hr
    rw [hr'] at hq
    cases hq
    rcases hc with rfl | hc
    · exact .inr (.inr hexpects)
    refine hc.expects hexpects ?_ fun o due recordId ho hrec hid hg =>
      not_not.mp fun hother => hn (.inr ⟨o, due, recordId, ho, hrec, hid, hg, hother⟩)
    intro a ha hrun
    obtain ⟨op, env, result⟩ := e
    subst ha
    obtain rfl := proceeded_of_running h hr hexpects.not_running hr' hrun
    -- the admission was of this job and this generation
    cases hc with
    | admitted hid hg _ _ => exact hn (.inl ⟨a, rfl, hid, hg.symm.trans hexpects.generation⟩)
    | admissionCancelled _ _ _ _ _ => cases hrun

theorem undelivered_run (h : Path StoreStep db es db')
    (hn : ∀ e ∈ es, ¬ e.Delivers id k.generation k.queue k.retryCount) (hu : Undelivered k id db) :
    Undelivered k id db' := by
  induction h with
  | refl => exact hu
  | head hs _ ih =>
    exact ih (fun e he => hn e (List.mem_cons_of_mem _ he))
      (undelivered_step hs (hn _ (List.mem_cons_self ..)) hu)

end Waiting

namespace DurableJobClaim

variable [Texts] {k : DurableJobClaim} {id : Uuid} {r : DurableJob} {db db' : Database}
  {env : Surroundings}

def columns (k : DurableJobClaim) : MessageColumns :=
  ⟨k.messageType, k.version, k.payload, k.headers⟩

/-- A claim hands out what its row holds, which from then on waits for the delivery. -/
theorem claimed {workerId : String} {now lease : Instant}
    (h : claim workerId now lease env db = .ok (some k, db')) :
    ∃ id r, k.id = uuidText id ∧ db.jobs.row id = some r ∧ 1 ≤ k.generation ∧
      k.columns = r.columns ∧ k.messageId = r.messageId ∧ Undelivered k id db' := by
  rcases claim_spec h with ⟨hk, -⟩ | ⟨id, r, hk, hr, -, -, hrow, rfl⟩
  · cases hk
  · cases hk
    exact ⟨id, r, rfl, hr, Nat.le_add_left .., rfl, rfl, r.claim workerId now lease,
      Database.setJob_row hrow, le_rfl, .inr (.inr ⟨rfl, .inl (by simp [DurableJob.claim])⟩)⟩

/-- The headers of the delivery of a command without headers of its own. -/
def deliveryHeaders (k : DurableJobClaim) : Dict :=
  (if k.retryCount = 0 then [] else [("retries", .int k.retryCount)]) ++
  (match k.lastAttemptAt with
    | some t => [("last_attempt", .str (datetimeIsoformat (.utc t)))]
    | none => []) ++
  [(durableRecordHeader, .str k.id), (durableGenerationHeader, .int k.generation)]

theorem deliveryEnvelope_headers (hh : k.headers = [])
    (hd : k.settlementStatus ≠ some .deadLettered) (fresh : String) :
    (k.deliveryEnvelope fresh).headers = k.deliveryHeaders := by
  unfold deliveryEnvelope deliveryHeaders
  dsimp only
  rw [hh, if_neg hd]
  cases k.lastAttemptAt <;> by_cases hzero : k.retryCount = 0 <;>
    simp [hzero, Value.set, durableRecordHeader, durableGenerationHeader]

theorem encodeEntries_deliveryHeaders : encodeEntries k.deliveryHeaders = k.deliveryHeaders := by
  unfold deliveryHeaders
  split <;> cases k.lastAttemptAt <;> simp [encodeEntries, encodeValue]

theorem plain_deliveryHeaders : (Value.dict k.deliveryHeaders).plain = true := by
  unfold deliveryHeaders
  split <;> cases k.lastAttemptAt <;>
    simp [plain, plainEntries, isMarker, List.lookup_cons, durableRecordHeader,
      durableGenerationHeader]

theorem get_deliveryHeaders :
    Value.get k.deliveryHeaders durableRecordHeader = .str k.id ∧
    Value.get k.deliveryHeaders durableGenerationHeader = .int k.generation ∧
    Value.get k.deliveryHeaders "retries" =
      (if k.retryCount = 0 then .null else .int k.retryCount) ∧
    Value.get k.deliveryHeaders "last_attempt" =
      (k.lastAttemptAt.map fun t => Value.str (datetimeIsoformat (.utc t))).getD .null := by
  unfold deliveryHeaders
  split <;> cases k.lastAttemptAt <;>
    simp_all [Value.get, List.lookup_cons, durableRecordHeader, durableGenerationHeader]

theorem retryCount_deliveryHeaders : resolveRetryCount none k.deliveryHeaders = k.retryCount := by
  obtain ⟨-, -, hretries, -⟩ := k.get_deliveryHeaders
  unfold resolveRetryCount
  rw [hretries]
  by_cases hzero : k.retryCount = 0
  · rw [if_pos hzero, hzero]
    rfl
  · rw [if_neg hzero, validRetryCount, if_neg (Int.not_lt.mpr (Int.natCast_nonneg _)),
      Int.toNat_natCast]

/-- All headers of the delivery are the framework's own. -/
theorem applicationHeaders_deliveryHeaders :
    DurableJobController.applicationHeaders (settledEntries k.deliveryHeaders) = [] := by
  have hkeys : ∀ e ∈ k.deliveryHeaders, e.1 ∈ [durableRecordHeader, durableGenerationHeader,
      "dead_lettered_from", "last_attempt", "retries"] := by
    unfold deliveryHeaders
    split <;> cases k.lastAttemptAt <;> simp
  rw [DurableJobController.applicationHeaders, List.filter_eq_nil_iff]
  intro e he
  rw [settledEntries_eq_map, sorted, List.mem_insertionSort, List.mem_map] at he
  obtain ⟨e', he', rfl⟩ := he
  have hcontains := List.contains_iff_mem.mpr (hkeys e' he')
  simp only [hcontains, Bool.not_true, Bool.false_eq_true, not_false_eq_true]

end DurableJobClaim

section Delivered

variable {Cls : Type} [DecidableEq Cls] [Dataclasses Cls] [Texts] [DecimalTexts]
  {B : SchedulingBus Cls} {c : ScheduleCommand Cls} {x : CallSurroundings} {d : DurableJobDraft}
  {k : DurableJobClaim} {id : Uuid} {r : DurableJob} {db : Database} {p : Dict}
  {a : DurableDeliveryAdmission}

/-- What a call hands to the store is its message. -/
theorem ScheduleCommand.draft_message [FloatTexts] (h : c.draft B x = .ok d) :
    c.command.messageClass.messageKind = "command" ∧
      d.messageType = c.command.messageClass.messageType ∧
      d.version = c.command.messageClass.version ∧
      PythonPayloadCodec.encode B.typeRegistry (.dict c.command.fields) = .ok d.payload ∧
      d.headers = [] := by
  unfold draft at h
  obtain ⟨-, -, h⟩ := bind_eq_ok h
  obtain ⟨runAt, -, h⟩ := bind_eq_ok h
  obtain ⟨e, he, h⟩ := bind_eq_ok h
  obtain ⟨queue, -, h⟩ := bind_eq_ok h
  obtain ⟨-, htype, hversion, hpayload, hheaders, hkind⟩ := prepareMessage_eq_ok he
  dsimp only at h
  split at h
  · cases h
  cases h
  exact ⟨hkind, by simp [htype, Value.text], hversion, hpayload, hheaders⟩

/-- What the runner publishes for a claim is the envelope of the command that was scheduled. -/
theorem deliveryEnvelope_eq [FloatTexts] (hd : c.draft B x = .ok d) (hk : k.columns = d.columns)
    (hm : k.messageId ≠ "") (hdead : k.settlementStatus ≠ some .deadLettered)
    (hp : PythonPayloadCodec.Travels B.typeRegistry (.dict c.command.fields) (.dict p))
    (fresh : String) : k.deliveryEnvelope fresh = Bus.envelopeOf c.command.messageClass k.messageId
      (encodeValue (.dict p)) (encodeEntries k.deliveryHeaders) k.createdAt := by
  obtain ⟨hkind, htype, hversion, hpayload, hheaders⟩ := ScheduleCommand.draft_message hd
  rw [hp.encoded, Except.ok.injEq] at hpayload
  simp only [DurableJobClaim.columns, DurableJobDraft.columns, MessageColumns.mk.injEq] at hk
  obtain ⟨hktype, hkversion, hkpayload, hkheaders⟩ := hk
  have hwritten := DurableJobClaim.deliveryEnvelope_headers (hkheaders.trans hheaders) hdead fresh
  have hfields : k.deliveryEnvelope fresh = {
      messageId := .str (if k.messageId = "" then fresh else k.messageId)
      messageType := .str k.messageType
      messageKind := .str "command"
      version := k.version
      payload := k.payload
      headers := (k.deliveryEnvelope fresh).headers
      createdAt := .datetime (.utc k.createdAt) } := rfl
  rw [hfields, hwritten, if_neg hm, hktype, htype, hkversion, hversion, hkpayload, ← hpayload,
    DurableJobClaim.encodeEntries_deliveryHeaders, Bus.envelopeOf, hkind]

/-- Texts and numbers travel as they are. -/
theorem travelEntries_texts {R : PayloadTypeRegistry Cls} {q : Dict}
    (h : ∀ e ∈ q, (∃ s, e.2 = .str s) ∨ ∃ i, e.2 = .int i) :
    PythonPayloadCodec.TravelEntries R (q.map fun e => (e.1, Obj.ofValue e.2)) q := by
  induction q with
  | nil => exact ⟨rfl, rfl, rfl, rfl, rfl⟩
  | cons e q ih =>
    obtain ⟨l, v⟩ := e
    have hv : PythonPayloadCodec.Travels R (Obj.ofValue v) v := by
      rcases h _ (List.mem_cons_self ..) with ⟨s, rfl⟩ | ⟨i, rfl⟩
      · exact PythonPayloadCodec.travels_scalar (v := ⟨.str s, rfl⟩) rfl
      · exact PythonPayloadCodec.travels_scalar (v := ⟨.int i, rfl⟩) rfl
    obtain ⟨hplain, hutc, hencoded, hdecoded⟩ := hv
    obtain ⟨hkeys, hplains, hutcs, hencodeds, hdecodeds⟩ :=
      ih fun e he => h e (List.mem_cons_of_mem _ he)
    refine ⟨?_, ?_, ?_, ?_, ?_⟩
    · rw [List.map_cons, List.map_cons, List.map_cons, hkeys]
    · rw [plainEntries, hplain, hplains]
      rfl
    · rw [inUtcEntries, hutc, hutcs]
    · rw [List.map_cons, PythonPayloadCodec.encodeEntries, hencoded, hencodeds]
      rfl
    · rw [sortEntries, List.map_cons]
      exact PythonPayloadCodec.decodeEntries_cons hdecoded hdecodeds

theorem travels_deliveryHeaders {R : PayloadTypeRegistry Cls} :
    ∃ hs, PythonPayloadCodec.Travels R (.dict hs) (.dict k.deliveryHeaders) := by
  have htexts : ∀ e ∈ k.deliveryHeaders, (∃ s, e.2 = .str s) ∨ ∃ i, e.2 = .int i := by
    unfold DurableJobClaim.deliveryHeaders
    split <;> cases k.lastAttemptAt <;> simp
  have hkeys : ∀ e ∈ k.deliveryHeaders,
      e.1 ≠ "__pybus_type__" ∧ e.1 ≠ PythonPayloadCodec.codecKey := by
    unfold DurableJobClaim.deliveryHeaders
    split <;> cases k.lastAttemptAt <;>
      simp [durableRecordHeader, durableGenerationHeader, PythonPayloadCodec.codecKey]
  refine ⟨_, PythonPayloadCodec.travels_unwrapped ?_ ?_ (travelEntries_texts htexts)⟩
  · rw [List.map_map]
    intro hmem
    obtain ⟨e, he, hkey⟩ := List.mem_map.mp hmem
    exact (hkeys e he).1 hkey
  · rw [List.lookup_eq_none_iff]
    intro e he
    obtain ⟨e', he', rfl⟩ := List.mem_map.mp he
    simpa using (hkeys e' he').2.symm

omit [DecimalTexts] in
/-- A document that is encoded is written as one whose keys are in order. -/
theorem dumps_encodeValue_eq {v : Value} :
    JsonSerializer.dumps (encodeValue v) = JsonSerializer.dumps (sortKeys v) := by
  rw [JsonSerializer.dumps, JsonSerializer.dumps, encodeValue_encodeValue, sortKeys_encodeValue,
    sortKeys_encodeValue, sortKeys_sortKeys]

omit [DecimalTexts] in
/-- The row that waits for a delivery takes it if it matches, unless it knows of another limit. -/
theorem Expects.decides (h : Expects k id r) (hn : a.retryCount = k.retryCount) :
    decideAdmission a r = if !r.matchesAdmission a then .abort
      else if r.maxRetries.isSome ∧ r.maxRetries ≠ some a.maxRetries then .abort else .proceed := by
  have hcount : r.retryCount = a.retryCount :=
    (congrArg DurableJobClaim.retryCount h.claim).trans hn.symm
  have hstate : r.state ∈ [.claimed, .published, .settling, .indeterminate] := by
    rcases h.waits with hw | ⟨hw, -⟩
    · simp only [List.mem_cons, List.not_mem_nil, or_false] at hw ⊢
      tauto
    · simp [hw]
  have hreason : ¬ (r.state = .indeterminate ∧
      r.indeterminateReason ≠ some .publicationAcknowledgement) := by
    rintro ⟨hi, hne⟩
    rcases h.waits with hw | ⟨-, hw⟩
    · simp [hi] at hw
    · exact hne hw
  unfold decideAdmission
  rw [if_neg (not_not.mpr hstate), if_neg hreason]
  split
  · rfl
  · rw [if_neg (by omega), if_neg (by omega)]

omit [DecidableEq Cls] [Dataclasses Cls] [DecimalTexts] in
/-- The delivery of a claim as its consumers put it to the store. -/
theorem admission_delivered [RoundTexts] {cls : TypedClass Cls}
    (hkind : cls.messageKind = "command") (hg : 1 ≤ k.generation) (hid : k.id = uuidText id)
    (hh : k.headers = [])
    (hktype : k.messageType = cls.messageType) (hkversion : k.version = cls.version)
    (hkpayload : k.payload = encodeValue (.dict p)) (policy : DurableJobPolicy) (time : Instant)
    (maxRetries : Nat) :
    ∃ a, DurableJobController.admission policy (Bus.envelopeOf cls k.messageId
        (sortKeys (.dict p)) (settledEntries k.deliveryHeaders) k.createdAt) time k.queue
        k.retryCount maxRetries = .ok (some a) ∧
      a.recordId = k.id ∧ a.generation = k.generation ∧ a.retryCount = k.retryCount ∧
      a.maxRetries = maxRetries ∧ ∀ r, Expects k id r → r.matchesAdmission a = true := by
  obtain ⟨hrecord, hgeneration, -, hlast⟩ := k.get_deliveryHeaders
  have hne : k.id ≠ "" := hid ▸ uuidText_ne_empty id
  have hidentity : DurableJobController.identity (Bus.envelopeOf cls k.messageId
      (sortKeys (.dict p)) (settledEntries k.deliveryHeaders) k.createdAt) =
        .ok (some (k.id, k.generation)) := by
    rw [DurableJobController.identity, Bus.envelopeOf, get_settledEntries, get_settledEntries,
      hrecord, hgeneration, settled_str, settled_int]
    dsimp only
    rw [if_neg (by simp only [hne, false_or]; omega), Int.toNat_natCast]
  have hattempt : DurableJobController.lastAttempt (settledEntries k.deliveryHeaders) =
      .ok k.lastAttemptAt := by
    rw [DurableJobController.lastAttempt, get_settledEntries, hlast]
    cases k.lastAttemptAt with
    | none => rfl
    | some t =>
      rw [Option.map_some, Option.getD_some, settled_str]
      simp [RoundTexts.datetime_round, Datetime.instant, Datetime.utc]
  refine ⟨_, DurableJobController.admission_eq hidentity (congrArg Value.str hkind) hattempt policy
    time k.queue k.retryCount maxRetries, rfl, rfl, rfl, rfl, fun r he => ?_⟩
  have hr := he.claim
  have hmessage : r.messageId = k.messageId := congrArg DurableJobClaim.messageId hr
  have htype : r.messageType = cls.messageType :=
    (congrArg DurableJobClaim.messageType hr).trans hktype
  have hversion : r.version = cls.version := (congrArg DurableJobClaim.version hr).trans hkversion
  have hpayload : r.payload = encodeValue (.dict p) :=
    (congrArg DurableJobClaim.payload hr).trans hkpayload
  have hheaders : r.headers = [] := (congrArg DurableJobClaim.headers hr).trans hh
  have hqueue : r.queue = k.queue := congrArg DurableJobClaim.queue hr
  have hlastAttempt : r.lastAttemptAt = k.lastAttemptAt :=
    congrArg DurableJobClaim.lastAttemptAt hr
  have hdumps : JsonSerializer.dumps r.payload = JsonSerializer.dumps (sortKeys (.dict p)) := by
    rw [hpayload, dumps_encodeValue_eq]
  simp [DurableJob.matchesAdmission, Bus.envelopeOf, hmessage, htype, hversion, hdumps, hheaders,
    hqueue, hlastAttempt, DurableJobClaim.applicationHeaders_deliveryHeaders]

/-- A worker may take a job that nobody has taken yet, or that was taken under its own limit. -/
def DurableJob.Takes (r : DurableJob) (maxRetries : Nat) : Prop :=
  r.maxRetries = none ∨ r.maxRetries = some maxRetries

omit [DecimalTexts] in
/-- A delivery that was not taken yet is answered by the generation, the state and the series of its
job, by whether it matches, and by the limit the job is known under. -/
theorem Expects.verdict_iff (db : Database) (m : Prop) (hle : k.generation ≤ r.generation)
    (hr : k.generation < r.generation ∨ r.state.terminal = true ∨ Expects k id r)
    (hg : a.generation = k.generation) (hn : a.retryCount = k.retryCount)
    (hm : ∀ q, Expects k id q → (q.matchesAdmission a = true ↔ m)) :
    (verdict db a r = .proceed ↔ r.generation = k.generation ∧ r.state.terminal = false ∧
      seriesOpen db r = true ∧ m ∧ r.Takes a.maxRetries) ∧
    (verdict db a r = .abort ↔ r.generation = k.generation ∧ r.state.terminal = false ∧
      seriesOpen db r = true ∧ ¬ (m ∧ r.Takes a.maxRetries)) := by
  unfold verdict
  rw [hg, if_neg (by omega)]
  split
  · rename_i hstop
    refine ⟨⟨by simp, ?_⟩, ⟨by simp, ?_⟩⟩
    all_goals
      rintro ⟨hgen, hn, ho, -⟩
      rcases hstop with hlt | ht | hrun | hc
      · omega
      · rw [hn] at ht
        cases ht
      · rcases hr with hlt | ht | he
        · omega
        · rw [hn] at ht
          cases ht
        · exact absurd hrun he.not_running
      · rw [ho] at hc
        cases hc
  rename_i hgo
  simp only [not_or, Bool.not_eq_true, Bool.not_eq_false] at hgo
  obtain ⟨hge, ht, hrun, ho⟩ := hgo
  have he : Expects k id r := by
    rcases hr with hlt | hterminal | he
    · exact absurd hlt hge
    · rw [ht] at hterminal
      cases hterminal
    · exact he
  rw [he.decides hn]
  have hlimit : (r.maxRetries.isSome = true ∧ r.maxRetries ≠ some a.maxRetries) ↔
      ¬ r.Takes a.maxRetries := by
    unfold DurableJob.Takes
    cases r.maxRetries <;> simp
  by_cases hmatches : r.matchesAdmission a = true
  · have hsame := (hm r he).mp hmatches
    rw [if_neg (by simp [hmatches])]
    by_cases htakes : r.Takes a.maxRetries
    · rw [if_neg fun h => hlimit.mp h htakes]
      simp [he.generation, ht, ho, hsame, htakes]
    · rw [if_pos (hlimit.mpr htakes)]
      simp [he.generation, ht, ho, htakes]
  · have hother : ¬ m := fun h => hmatches ((hm r he).mpr h)
    rw [if_pos (by simp [hmatches])]
    simp [he.generation, ht, ho, hother]

/-- Every claim of a job of a call is published as the command that was scheduled: what is read of
it anywhere is decoded to a command alike, and a worker that puts it to the store while nobody else
has taken that delivery is told to proceed if and only if the job is at that generation, has not
ended and is in an open series. It is told to abort only if the job is known under another limit. -/
theorem scheduled_delivery_admitted [FloatTexts] [Calendar] [RoundTexts] [RoundDecimals]
    {L : Listener (Obj Cls)} {es₀ es₁ : List StoreEvent} {db₀ db₁ db₂ db₃ : Database}
    {workerId : String} {now lease : Instant} {env : Surroundings}
    (hreach : Path StoreStep .empty es₀ db₀) (hd : c.draft B x = .ok d)
    (hins : c.Inserted x d db₀ db₁) (hpath : Path StoreStep db₁ es₁ db₂)
    (hclaim : claim workerId now lease env db₂ = .ok (some k, db₃)) (hid : k.id = uuidText id)
    (hjob : db₂.jobs.row id = some r) (hdescends : c.Descends x id r)
    (hdead : k.settlementStatus ≠ some .deadLettered)
    (hpayload : Obj.Payload B.typeRegistry (.dict c.command.fields))
    (hstores : Obj.StoresFields c.command.messageClass.cls (c.command.fields.map (·.1)))
    (hcodec : L.dispatcher.payloadCodec = PythonPayloadCodec.codec B.typeRegistry)
    (hbinds : L.dispatcher.registry.messageClassFor (.str c.command.messageClass.messageKind)
      (.str c.command.messageClass.messageType) =
        .ok (some c.command.messageClass.toMessageClass)) (fresh : String) :
    ∃ raw e message, (k.deliveryEnvelope fresh).dump = .ok raw ∧
      (∀ time, MessageEnvelope.read time raw = .ok e) ∧ L.dispatcher.decode e = .ok message ∧
      Obj.Alike message.content c.command.toObj ∧ L.retryCount e = .ok k.retryCount ∧
      ∀ (policy : DurableJobPolicy) (time : Instant) (maxRetries : Nat), ∃ a,
        DurableJobController.admission policy e time k.queue k.retryCount maxRetries =
          .ok (some a) ∧
        ∀ es db env', Path StoreStep db₃ es db →
          (∀ ev ∈ es, ¬ ev.Delivers id k.generation k.queue k.retryCount) →
          ∃ q decision db', db.jobs.row id = some q ∧
            admitDelivery a env' db = .ok (decision, db') ∧
            (decision = .proceed ↔ q.generation = k.generation ∧ q.state.terminal = false ∧
              seriesOpen db q = true ∧ q.Takes maxRetries) ∧
            (decision = .abort ↔ q.generation = k.generation ∧ q.state.terminal = false ∧
              seriesOpen db q = true ∧ ¬ q.Takes maxRetries) := by
  have hlineage : c.Lineage x d db₂ := by
    refine ScheduleCommand.lineage_run hpath (hins.lineage (seriesExist_run hreach) ?_)
    rw [(ScheduleCommand.drafted hd).messageId]
    exact uuidText_ne_empty _
  have hexist : SeriesExist db₂ := hpath.invariant (fun _ _ _ => seriesExist_step)
    (hins.seriesExist (seriesExist_run hreach))
  obtain ⟨i, r', hi, hr', hg, hcolumns, hmessage, hwaits⟩ := DurableJobClaim.claimed hclaim
  obtain rfl : id = i := uuidText_injective (hid.symm.trans hi)
  rw [hjob] at hr'
  cases hr'
  obtain ⟨hmade, hne⟩ := hlineage.columns id r hjob hdescends
  have hk : k.columns = d.columns := hcolumns.trans hmade
  obtain ⟨hkind, htype, hversion, hencoded, hheaders⟩ := ScheduleCommand.draft_message hd
  obtain ⟨p, hp⟩ := PythonPayloadCodec.travels_mapping hpayload
  have henvelope := deliveryEnvelope_eq hd hk (hmessage ▸ hne) hdead hp fresh
  obtain ⟨raw, hdump, hread⟩ := Bus.read_envelopeOf (c := c.command.messageClass) k.createdAt
    (hmessage ▸ hne) hp.plain hp.inUtc k.plain_deliveryHeaders
  obtain ⟨hs, hq⟩ := travels_deliveryHeaders (R := B.typeRegistry) (k := k)
  have hdecoded : L.dispatcher.decode (Bus.envelopeOf c.command.messageClass k.messageId
      (sortKeys (.dict p)) (settledEntries k.deliveryHeaders) k.createdAt) = .ok _ :=
    Bus.decode_envelopeOf hcodec hbinds hstores hp hq
  refine ⟨raw, _, _, henvelope ▸ hdump, hread, hdecoded,
    Obj.canonical_canonical c.command.toObj, ?_, ?_⟩
  · -- the class is bound, so that the count is the header's
    have htyped : L.isTyped (Bus.envelopeOf c.command.messageClass k.messageId
        (sortKeys (.dict p)) (settledEntries k.deliveryHeaders) k.createdAt) = .ok true := by
      simp [Listener.isTyped, Bus.envelopeOf, hbinds, bind, Except.bind, pure, Except.pure]
    simp only [Listener.retryCount, htyped, bind, Except.bind, pure, Except.pure, if_true]
    rw [Bus.envelopeOf, resolveRetryCount_settled, k.retryCount_deliveryHeaders]
  intro policy time maxRetries
  simp only [DurableJobClaim.columns, DurableJobDraft.columns, MessageColumns.mk.injEq] at hk
  obtain ⟨hktype, hkversion, hkpayload, hkheaders⟩ := hk
  rw [hp.encoded, Except.ok.injEq] at hencoded
  obtain ⟨a, ha, harecord, hageneration, haretries, hamax, hmatches⟩ :=
    admission_delivered hkind hg hid (hkheaders.trans hheaders) (hktype.trans htype)
      (hkversion.trans hversion) (hkpayload.trans hencoded.symm) policy time maxRetries
  refine ⟨a, ha, fun es db env' hlater hnone => ?_⟩
  obtain ⟨q, hq, hle, hcase⟩ := undelivered_run hlater hnone hwaits
  have hclaimed : StoreStep db₂ ⟨.claim workerId now lease, env, .ok (some k)⟩ db₃ := .ok hclaim
  have hseries : SeriesExist db := hlater.invariant (fun _ _ _ => seriesExist_step)
    (seriesExist_step hclaimed hexist)
  have haid : uuidFromText a.recordId = some id := by rw [harecord, hid, uuid_round]
  obtain ⟨db', hanswer⟩ : ∃ db', admitDelivery a env' db = .ok (verdict db a q, db') :=
    admitDelivery_answers hseries haid hq
  have hverdict := Expects.verdict_iff db True hle hcase hageneration haretries
    fun q hq => iff_of_true (hmatches q hq) trivial
  simp only [true_and, hamax] at hverdict
  exact ⟨q, _, db', hq, hanswer, hverdict⟩

end Delivered

section Sample

local instance scheduledTexts : Texts := .lawful
local instance scheduledRounds : RoundTexts := roundTexts_lawful
local instance scheduledDecimals : DecimalTexts := .lawful
local instance scheduledDecimalRounds : RoundDecimals := roundDecimals_lawful
local instance scheduledFloats : FloatTexts := .sample
local instance scheduledInvoices : Dataclasses Invoice := invoices
local instance scheduledCalendar : Calendar := .daily

def scheduledBus : SchedulingBus Invoice where
  typeRegistry := invoiceTypes
  messageClassFor _ _ := some sendInvoice
  declaredQueue _ := none
  topology := {}

def scheduledCall : ScheduleCommand Invoice where
  command := invoiceMessage

def invoiceListener : Listener (Obj Invoice) where
  dispatcher := invoiceDispatcher

theorem scheduled_claim : ∃ d db₁ k db₃, scheduledCall.draft scheduledBus ⟨0, 1, 1, 1⟩ = .ok d ∧
    scheduledCall.Inserted ⟨0, 1, 1, 1⟩ d .empty db₁ ∧
    claim "worker" 0 30000000 sampleSurroundings db₁ = .ok (some k, db₃) ∧
    k.id = uuidText 1 ∧ k.settlementStatus = none ∧ (db₁.jobs.row 1).isSome = true ∧
    (db₃.jobs.row 1).any (fun q => q.generation = k.generation ∧ q.state = .claimed ∧
      q.seriesId = none ∧ q.maxRetries = none) = true := by
  exact ⟨_, _, _, _, rfl, rfl, rfl, rfl, rfl, rfl, rfl⟩

theorem scheduled_delivery_admitted_invoice : ∃ (k : DurableJobClaim) (db : Database) (raw : Raw)
    (e : MessageEnvelope) (message : Message (Obj Invoice)) (a : DurableDeliveryAdmission)
    (db' : Database),
    (k.deliveryEnvelope "").dump = .ok raw ∧ MessageEnvelope.read 0 raw = .ok e ∧
      invoiceDispatcher.decode e = .ok message ∧
      Obj.Alike message.content invoiceMessage.toObj ∧
      DurableJobController.admission {} e 0 k.queue k.retryCount 3 = .ok (some a) ∧
      admitDelivery a sampleSurroundings db = .ok (.proceed, db') := by
  obtain ⟨d, db₁, k, db₃, hd, hins, hclaim, hid, hstatus, hjob, hrow⟩ := scheduled_claim
  obtain ⟨r, hr⟩ := Option.isSome_iff_exists.mp hjob
  obtain ⟨raw, e, message, hdump, hread, hdecoded, halike, -, hadmits⟩ :=
    scheduled_delivery_admitted (L := invoiceListener) (.refl _) hd hins (.refl _)
      hclaim hid hr (.inl rfl) (by simp [hstatus])
      (by simp [Obj.Payload, Obj.PayloadEntries, Obj.PayloadItems, scheduledCall, invoiceMessage,
        PyDecimal.isFinite, Obj.awareScalar, Datetime.utc])
      storesFields_invoice rfl rfl ""
  obtain ⟨a, ha, hanswers⟩ := hadmits {} 0 3
  obtain ⟨q, decision, db', hq, hadmit, hproceed, -⟩ :=
    hanswers [] db₃ sampleSurroundings (.refl _) (by simp)
  rw [hq] at hrow
  simp only [Option.any_some, decide_eq_true_eq] at hrow
  obtain ⟨hgen, hstate, hseries, hmax⟩ := hrow
  have hdecision : decision = .proceed :=
    hproceed.mpr ⟨hgen, by rw [hstate]; rfl, by simp [seriesOpen, hseries], .inl hmax⟩
  exact ⟨k, db₃, raw, e, message, a, db', hdump, hread 0, hdecoded, halike, ha,
    hdecision ▸ hadmit⟩

end Sample

end Pybus
