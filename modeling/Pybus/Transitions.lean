import Pybus.Store

/-! What one store operation can do to a row. Every invariant of the store is read off these
transitions, and no later proof looks into an operation again. -/
namespace Pybus

open Texts Relational DjangoDurableJobStore

variable [Texts]

/-- The changes of an existing job row, each with the guards it is made under. -/
inductive JobChange (db : Database) (env : Surroundings) :
    StoreOp → Uuid → DurableJob → DurableJob → Prop
  | cancelled {seriesId : String} {cancelledAt : Instant} {id sid : Uuid} {r : DurableJob}
      {s : JobSeries} :
      uuidFromText seriesId = some sid → db.series.row sid = some s → s.state = .active →
      r.seriesId = some sid → r.occurrenceNumber = some s.latestOccurrenceNumber →
      r.state ∈ [.pending, .claimed, .published, .settling, .indeterminate] →
      JobChange db env (.cancelRecurring seriesId cancelledAt) id r (r.cancel cancelledAt)
  | swept {workerId : String} {now lease : Instant} {id : Uuid} {r : DurableJob} :
      cancelledReclaimable db now r = true →
      JobChange db env (.claim workerId now lease) id r (r.cancel now)
  | parked {workerId : String} {now lease : Instant} {id : Uuid} {r : DurableJob} :
      parkable db now r = true →
      JobChange db env (.claim workerId now lease) id r r.park
  | claimed {workerId : String} {now lease : Instant} {id : Uuid} {r : DurableJob} :
      claimable db now r = true → parkable db now r = false →
      JobChange db env (.claim workerId now lease) id r (r.claim workerId now lease)
  | published {c : DurableJobClaim} {now due : Instant} {id : Uuid} {r : DurableJob} :
      uuidFromText c.id = some id → c.settlementStatus ≠ some .deadLettered →
      r.generation = c.generation → r.state = .claimed →
      JobChange db env (.markPublished c now due) id r (r.publish c due)
  | deadLetteredByClaim {c : DurableJobClaim} {now due : Instant} {id : Uuid} {r : DurableJob} :
      uuidFromText c.id = some id → c.settlementStatus = some .deadLettered →
      r.generation = c.generation → r.state = .claimed →
      JobChange db env (.markPublished c now due) id r (r.deadLetterFromClaim now)
  | publishUnknown {c : DurableJobClaim} {now due : Instant} {id : Uuid} {r : DurableJob} :
      uuidFromText c.id = some id → r.generation = c.generation → r.state = .claimed →
      JobChange db env (.markPublishIndeterminate c now due) id r (r.publishIndeterminate c due)
  | admitted {a : DurableDeliveryAdmission} {id : Uuid} {r : DurableJob} :
      uuidFromText a.recordId = some id → r.generation = a.generation → seriesOpen db r = true →
      decideAdmission a r = .proceed →
      JobChange db env (.admitDelivery a) id r (r.admitted a env.now)
  | admissionCancelled {a : DurableDeliveryAdmission} {id : Uuid} {r : DurableJob} :
      uuidFromText a.recordId = some id → r.generation = a.generation →
      r.state.terminal = false → r.state ≠ .running → seriesState db r = some .cancelled →
      JobChange db env (.admitDelivery a) id r (r.cancel env.now)
  | checkpointed {s : DurableSettlement} {id : Uuid} {r : DurableJob} :
      uuidFromText s.recordId = some id → r.generation = s.generation →
      r.retryCount ≤ s.retryCount → r.maxRetries = some s.maxRetries → r.state = .running →
      seriesOpen db r = true →
      JobChange db env (.checkpointSettlement s) id r (r.checkpoint s)
  | checkpointCancelled {s : DurableSettlement} {id : Uuid} {r : DurableJob} :
      uuidFromText s.recordId = some id → r.generation = s.generation → r.state = .running →
      seriesState db r = some .cancelled →
      JobChange db env (.checkpointSettlement s) id r (r.cancel env.now)
  | released {recordId : String} {generation : Nat} {due : Instant} {id : Uuid} {r : DurableJob} :
      uuidFromText recordId = some id → r.generation = generation → r.state = .running →
      seriesOpen db r = true →
      JobChange db env (.releaseDelivery recordId generation due) id r (r.release due)
  | releaseCancelled {recordId : String} {generation : Nat} {due : Instant} {id : Uuid}
      {r : DurableJob} :
      uuidFromText recordId = some id → r.generation = generation → r.state = .running →
      seriesState db r = some .cancelled →
      JobChange db env (.releaseDelivery recordId generation due) id r (r.cancel env.now)
  | succeeded {o : CommandDeliveryOutcome} {due : Instant} {recordId : String} {id : Uuid}
      {r : DurableJob} :
      o.durableRecordId = some recordId → uuidFromText recordId = some id →
      o.status = .succeeded → r.matchesOutcome o = true → r.state = .running →
      JobChange db env (.applyOutcome o due) id r (r.succeed env.now)
  | deadLetteredByOutcome {o : CommandDeliveryOutcome} {due : Instant} {recordId : String}
      {id : Uuid} {r : DurableJob} :
      o.durableRecordId = some recordId → uuidFromText recordId = some id →
      o.status = .deadLettered → r.matchesOutcome o = true → r.state = .settling →
      JobChange db env (.applyOutcome o due) id r (r.deadLetterFromOutcome o env.now)
  | resumed {o : CommandDeliveryOutcome} {due : Instant} {recordId : String} {id : Uuid}
      {r : DurableJob} :
      o.durableRecordId = some recordId → uuidFromText recordId = some id →
      o.status ∈ [.retryScheduled, .continued] → r.matchesOutcome o = true →
      r.state = .settling → seriesOpen db r = true →
      JobChange db env (.applyOutcome o due) id r (r.resume o due)
  | resumeCancelled {o : CommandDeliveryOutcome} {due : Instant} {recordId : String} {id : Uuid}
      {r : DurableJob} :
      o.durableRecordId = some recordId → uuidFromText recordId = some id →
      o.status ∈ [.retryScheduled, .continued] → r.matchesOutcome o = true →
      r.state = .settling → seriesState db r = some .cancelled →
      JobChange db env (.applyOutcome o due) id r (r.cancel env.now)
  | completed {o : CommandDeliveryOutcome} {result : HandlerResult Unit} {completedAt : Instant}
      {recordId : String} {id sid : Uuid} {r : DurableJob} :
      o.durableRecordId = some recordId → uuidFromText recordId = some id →
      r.matchesOutcome o = true → r.state = .running → r.seriesId = some sid →
      JobChange db env (.completeRecurringSuccess o result completedAt) id r
        (r.succeed completedAt)

/-- The changes of an existing series row. A series that fails or completes does so together with
the job that was its open occurrence. -/
inductive SeriesChange (db db' : Database) : StoreOp → Uuid → JobSeries → JobSeries → Prop
  | cancelled {seriesId : String} {cancelledAt : Instant} {sid id : Uuid} {s : JobSeries}
      {r r' : DurableJob} :
      uuidFromText seriesId = some sid → s.state = .active → db.jobs.row id = some r →
      r.seriesId = some sid → r.occurrenceNumber = some s.latestOccurrenceNumber →
      db'.jobs.row id = some r' → r'.state.terminal = true ∨ r'.state = .running →
      SeriesChange db db' (.cancelRecurring seriesId cancelledAt) sid s
        (s.finish .cancelled cancelledAt)
  | finished {op : StoreOp} {state : JobSeriesState} {finishedAt : Instant} {sid id : Uuid}
      {s : JobSeries} {r r' : DurableJob} :
      state = .completed ∨ state = .failed → s.state = .active → db.jobs.row id = some r →
      r.seriesId = some sid → r.state.terminal = false → db'.jobs.row id = some r' →
      r'.state.terminal = true →
      SeriesChange db db' op sid s (s.finish state finishedAt)
  | advanced {o : CommandDeliveryOutcome} {result : HandlerResult Unit} {completedAt : Instant}
      {sid : Uuid} {s : JobSeries} :
      s.state = .active →
      (∀ id r, db'.jobs.row id = some r → r.seriesId = some sid → r.state.terminal = false →
        r.occurrenceNumber = some (s.latestOccurrenceNumber + 1)) →
      SeriesChange db db' (.completeRecurringSuccess o result completedAt) sid s
        { s with latestOccurrenceNumber := s.latestOccurrenceNumber + 1 }

/-- A row that an operation inserts: it is pending, satisfies the constraints, and is the latest
occurrence of an active series unless it has none. -/
structure JobCreated (db db' : Database) (r : DurableJob) : Prop where
  pending : r.state = .pending
  generation : r.generation = 0
  untried : r.retryCount = 0 ∧ r.maxRetries = none
  distinct : ∀ i r', db.jobs.row i = some r' → r.seriesId.isSome → r'.seriesId = r.seriesId →
    r'.occurrenceNumber ≠ r.occurrenceNumber
  latest : ∀ sid, r.seriesId = some sid → ∃ s, db'.series.row sid = some s ∧
    s.state = .active ∧ r.occurrenceNumber = some s.latestOccurrenceNumber

/-- All that one successful operation does to the database. -/
structure Changes (db : Database) (env : Surroundings) (op : StoreOp) (db' : Database) : Prop where
  job : ∀ id r, db.jobs.row id = some r →
    ∃ r', db'.jobs.row id = some r' ∧ (r' = r ∨ JobChange db env op id r r')
  created : ∀ id r, db.jobs.row id = none → db'.jobs.row id = some r → JobCreated db db' r
  unique : ∀ i j r r', db.jobs.row i = none → db.jobs.row j = none →
    db'.jobs.row i = some r → db'.jobs.row j = some r' → i = j
  series : ∀ sid s, db.series.row sid = some s →
    ∃ s', db'.series.row sid = some s' ∧ (s' = s ∨ SeriesChange db db' op sid s s')

namespace DjangoDurableJobStore

open Database

variable {db db' : Database} {env : Surroundings}

/-- A guarded update finds its row in the expected state, and either makes its change or cancels
the occurrence of a cancelled series. -/
theorem guardedSeriesUpdate_spec {recordId : String} {p : DurableJob → Bool}
    {st : DurableJobState} {f : DurableJob → DurableJob} {cancelledAt : Instant} {n : Nat}
    (h : guardedSeriesUpdate recordId p st f cancelledAt db = .ok (n, db')) :
    (n = 0 ∧ db' = db) ∨ ∃ id r, n = 1 ∧ uuidFromText recordId = some id ∧
      db.jobs.row id = some r ∧ p r = true ∧ r.state = st ∧
      ((seriesOpen db r = true ∧ db' = db.setJob id (f r)) ∨
        (seriesState db r = some .cancelled ∧ db' = db.setJob id (r.cancel cancelledAt))) := by
  unfold guardedSeriesUpdate at h
  split at h
  · cases h
  rename_i id hid
  split at h
  · cases h
    exact .inl ⟨rfl, rfl⟩
  rename_i r hr
  simp only [bind, Except.bind, pure, Except.pure] at h
  split at h
  · cases h
    exact .inl ⟨rfl, rfl⟩
  rename_i hp
  split at h
  · cases h
  rename_i x hx
  have hp' : p r = true := by simpa using hp
  split at h
  · split at h
    · rename_i hst
      cases h
      exact .inr ⟨id, r, rfl, hid, hr, hp', hst,
        .inl ⟨seriesOpen_of_lock hx (by simp), rfl⟩⟩
    · cases h
      exact .inl ⟨rfl, rfl⟩
  · rename_i sid s
    split at h
    · cases h
      exact .inl ⟨rfl, rfl⟩
    rename_i hst
    have hst' : r.state = st := by simpa using hst
    split at h
    · rename_i hc
      cases h
      refine .inr ⟨id, r, rfl, hid, hr, hp', hst', .inr ⟨?_, rfl⟩⟩
      simp [seriesState_of_lock hx, hc]
    split at h
    · cases h
      exact .inl ⟨rfl, rfl⟩
    rename_i ha
    cases h
    refine .inr ⟨id, r, rfl, hid, hr, hp', hst', .inl ⟨seriesOpen_of_lock hx ?_, rfl⟩⟩
    rintro _ _ ⟨⟩
    simpa using ha

omit [Texts] in
/-- The series of a row in an open series is locked, and it is active. -/
theorem lockSeries_open {r : DurableJob} (ho : seriesOpen db r = true) :
    ∃ x, lockSeries db r.seriesId = .ok x ∧ ∀ sid s, x = some (sid, s) → s.state = .active := by
  cases hs : r.seriesId with
  | none => exact ⟨none, rfl, by simp⟩
  | some sid =>
    cases hrow : db.series.row sid with
    | none => simp [seriesOpen, seriesState, hs, hrow] at ho
    | some s =>
      refine ⟨some (sid, s), by simp [lockSeries, hrow], ?_⟩
      intro sid' s' he
      cases he
      simpa [seriesOpen, seriesState, hs, hrow] using ho

/-- A guarded update makes its change to a row of an open series. -/
theorem guardedSeriesUpdate_open {id : Uuid} {r : DurableJob} {recordId : String}
    {p : DurableJob → Bool} {f : DurableJob → DurableJob} {cancelledAt : Instant}
    (hid : uuidFromText recordId = some id) (hr : db.jobs.row id = some r) (hp : p r = true)
    (ho : seriesOpen db r = true) :
    guardedSeriesUpdate recordId p r.state f cancelledAt db = .ok (1, db.setJob id (f r)) := by
  obtain ⟨x, hx, ha⟩ := lockSeries_open ho
  cases x with
  | none =>
    simp [guardedSeriesUpdate, hid, hr, hp, hx, bind, Except.bind, pure, Except.pure]
  | some e =>
    have := ha e.1 e.2 rfl
    simp [guardedSeriesUpdate, hid, hr, hp, hx, this, bind, Except.bind, pure, Except.pure]

/-- A delivery that the row in an open series takes is admitted. -/
theorem admitDelivery_open {id : Uuid} {r : DurableJob} {a : DurableDeliveryAdmission}
    (hid : uuidFromText a.recordId = some id) (hr : db.jobs.row id = some r)
    (hgen : r.generation = a.generation) (ho : seriesOpen db r = true)
    (hst : r.state.terminal = false ∧ r.state ≠ .running) (hd : decideAdmission a r = .proceed) :
    admitDelivery a env db = .ok (.proceed, db.setJob id (r.admitted a env.now)) := by
  obtain ⟨x, hx, ha⟩ := lockSeries_open ho
  cases x with
  | none =>
    simp [admitDelivery, hid, hr, hgen, hx, hst, hd, bind, Except.bind, pure, Except.pure]
  | some e =>
    have := ha e.1 e.2 rfl
    simp [admitDelivery, hid, hr, hgen, hx, hst, hd, this, bind, Except.bind, pure, Except.pure]

theorem outcomeRow_eq_some {o : CommandDeliveryOutcome} {recordId : String} {id : Uuid}
    {r : DurableJob} (h : outcomeRow db o recordId = .ok (some (id, r))) :
    uuidFromText recordId = some id ∧ db.jobs.row id = some r ∧ r.matchesOutcome o = true := by
  unfold outcomeRow at h
  split at h
  · cases h
  rename_i i hi
  split at h
  · cases h
  rename_i q hq
  by_cases hm : q.matchesOutcome o = true
  · simp only [hm, if_true, Except.ok.injEq, Option.some.injEq, Prod.mk.injEq] at h
    obtain ⟨rfl, rfl⟩ := h
    exact ⟨hi, hq, hm⟩
  · simp [hm] at h

theorem claimedRow_eq_some {c : DurableJobClaim} {id : Uuid} {r : DurableJob}
    (h : claimedRow db c = .ok (some (id, r))) :
    uuidFromText c.id = some id ∧ db.jobs.row id = some r ∧ r.generation = c.generation ∧
      r.state = .claimed := by
  unfold claimedRow at h
  split at h
  · cases h
  rename_i i hi
  split at h
  · cases h
  rename_i q hq
  split at h
  · rename_i hc
    simp only [Except.ok.injEq, Option.some.injEq, Prod.mk.injEq] at h
    obtain ⟨rfl, rfl⟩ := h
    exact ⟨hi, hq, hc⟩
  · cases h

/-- An admission proceeds on a row of its own generation in an open series, cancels the occurrence
of a cancelled series, or changes nothing. -/
theorem admitDelivery_spec {a : DurableDeliveryAdmission} {d : DurableDeliveryDecision}
    (h : admitDelivery a env db = .ok (d, db')) :
    (∃ id r, d = .proceed ∧ uuidFromText a.recordId = some id ∧ db.jobs.row id = some r ∧
      r.generation = a.generation ∧ seriesOpen db r = true ∧ decideAdmission a r = .proceed ∧
      db' = db.setJob id (r.admitted a env.now)) ∨
    (∃ id r, d = .drop ∧ uuidFromText a.recordId = some id ∧ db.jobs.row id = some r ∧
      r.generation = a.generation ∧ r.state.terminal = false ∧ r.state ≠ .running ∧
      seriesState db r = some .cancelled ∧ db' = db.setJob id (r.cancel env.now)) ∨
    (d ≠ .proceed ∧ db' = db) := by
  unfold admitDelivery at h
  split at h
  · cases h
    exact .inr (.inr ⟨by simp, rfl⟩)
  rename_i id hid
  split at h
  · cases h
    exact .inr (.inr ⟨by simp, rfl⟩)
  rename_i r hr
  simp only [bind, Except.bind, pure, Except.pure] at h
  split at h
  · cases h
  rename_i x hx
  split at h
  · cases h
    exact .inr (.inr ⟨by simp, rfl⟩)
  rename_i hlt
  split at h
  · cases h
    exact .inr (.inr ⟨by simp, rfl⟩)
  rename_i hd
  push Not at hd
  have hgen : r.generation = a.generation := by omega
  have hnt : r.state.terminal = false := by simpa using hd.2.1
  split at h
  · rename_i sid s
    split at h
    · rename_i hc
      cases h
      exact .inr (.inl ⟨id, r, rfl, hid, hr, hgen, hnt, hd.2.2,
        by simp [seriesState_of_lock hx, hc], rfl⟩)
    split at h
    · cases h
      exact .inr (.inr ⟨by simp, rfl⟩)
    rename_i ha
    have hopen : seriesOpen db r = true := by
      apply seriesOpen_of_lock hx
      rintro _ _ ⟨⟩
      simpa using ha
    split at h
    · rename_i hp
      cases h
      exact .inl ⟨id, r, rfl, hid, hr, hgen, hopen, hp, rfl⟩
    · rename_i hp
      cases h
      exact .inr (.inr ⟨hp, rfl⟩)
  · have hopen : seriesOpen db r = true := seriesOpen_of_lock hx (by simp)
    split at h
    · rename_i hp
      cases h
      exact .inl ⟨id, r, rfl, hid, hr, hgen, hopen, hp, rfl⟩
    · rename_i hp
      cases h
      exact .inr (.inr ⟨hp, rfl⟩)

variable {id : Uuid} {r : DurableJob} {now : Instant}

omit [Texts] in
/-- A row the sweep has changed cannot be claimed. -/
theorem sweep_claimable {r' : DurableJob} (h : db.jobs.row id = some r)
    (h' : (sweep db now).jobs.row id = some r') (hc : claimable db now r' = true) :
    r' = r ∧ cancelledReclaimable db now r = false ∧ parkable db now r = false := by
  rw [sweep_row h, Option.some.injEq] at h'
  by_cases hcr : cancelledReclaimable db now r = true
  · simp only [hcr, if_true] at h'
    simp [← h', claimable, DurableJob.cancel, DurableJob.elapsed] at hc
  · by_cases hp : parkable db now r = true
    · simp only [hcr, hp, if_true] at h'
      simp [← h', claimable, DurableJob.park, DurableJob.elapsed] at hc
    · simp_all

theorem claim_spec {workerId : String} {lease : Instant} {x : Option DurableJobClaim}
    (h : claim workerId now lease env db = .ok (x, db')) :
    (x = none ∧ db' = sweep db now) ∨
    ∃ id r, x = some ((r.claim workerId now lease).toClaim id) ∧ db.jobs.row id = some r ∧
      claimable db now r = true ∧ parkable db now r = false ∧
      (sweep db now).jobs.row id = some r ∧
      db' = (sweep db now).setJob id (r.claim workerId now lease) := by
  unfold claim at h
  split at h
  · cases h
  dsimp only at h
  split at h
  · cases h
    exact .inl ⟨rfl, rfl⟩
  · rename_i id r hf
    obtain ⟨hrow, hc⟩ := Table.first_eq_some hf
    simp only [Bool.and_eq_true] at hc
    cases h
    cases hr : db.jobs.row id with
    | none => simp [sweep_row_none hr] at hrow
    | some q =>
      obtain ⟨rfl, -, hp⟩ := sweep_claimable hr hrow hc.1
      exact .inr ⟨id, r, rfl, hr, hc.1, hp, hrow, rfl⟩

variable [Calendar]

theorem advanceSeries_spec {sid : Uuid} {s : JobSeries} {result : HandlerResult Unit}
    {completedAt : Instant} (h : advanceSeries db sid s result completedAt env = .ok db') :
    db' = db.setSeries sid (s.finish .completed completedAt) ∨
    ∃ r db₁, db.createJob env.fresh r = .ok db₁ ∧ r.state = .pending ∧ r.generation = 0 ∧
      (r.retryCount = 0 ∧ r.maxRetries = none) ∧ r.seriesId = some sid ∧ r.occurrenceNumber = some (s.latestOccurrenceNumber + 1) ∧
      db' = db₁.setSeries sid { s with latestOccurrenceNumber := s.latestOccurrenceNumber + 1 } := by
  have next : ∀ t, createNextOccurrence db sid s completedAt t env = .ok db' →
      ∃ r db₁, db.createJob env.fresh r = .ok db₁ ∧ r.state = .pending ∧ r.generation = 0 ∧
        (r.retryCount = 0 ∧ r.maxRetries = none) ∧ r.seriesId = some sid ∧ r.occurrenceNumber = some (s.latestOccurrenceNumber + 1) ∧
        db' = db₁.setSeries sid
          { s with latestOccurrenceNumber := s.latestOccurrenceNumber + 1 } := by
    intro t ht
    simp only [createNextOccurrence, bind, Except.bind, pure, Except.pure] at ht
    split at ht
    · cases ht
    rename_i db₁ hdb₁
    cases ht
    exact ⟨_, db₁, hdb₁, rfl, rfl, ⟨rfl, rfl⟩, rfl, rfl, rfl⟩
  unfold advanceSeries at h
  dsimp only at h
  split at h
  · cases h
    exact .inl rfl
  · split at h
    · cases h
    split at h
    · cases h
      exact .inl rfl
    · exact .inr (next _ h)
  · split at h
    · cases h
    · cases h
      exact .inl rfl
    · exact .inr (next _ h)

/-- A recorded completion finds its row running under an existing series and goes on to the series
if that is still active. -/
theorem completeRecurringSuccess_spec {o : CommandDeliveryOutcome} {result : HandlerResult Unit}
    {completedAt : Instant} {b : Bool}
    (h : completeRecurringSuccess o result completedAt env db = .ok (b, db')) :
    db' = db ∨ ∃ recordId id sid r s, b = true ∧ o.durableRecordId = some recordId ∧
      uuidFromText recordId = some id ∧ db.jobs.row id = some r ∧ r.matchesOutcome o = true ∧
      r.state = .running ∧ r.seriesId = some sid ∧ db.series.row sid = some s ∧
      ((s.state ≠ .active ∧ db' = db.setJob id (r.succeed completedAt)) ∨
        (s.state = .active ∧ advanceSeries (db.setJob id (r.succeed completedAt)) sid s result
          completedAt env = .ok db')) := by
  unfold completeRecurringSuccess at h
  simp only [bind, Except.bind, pure, Except.pure, throw, throwThe, MonadExceptOf.throw] at h
  split at h
  · rename_i recordId generation hrec hgen
    split at h
    · cases h
    rename_i x hx
    split at h
    · cases h
      exact .inl rfl
    rename_i id r
    obtain ⟨hid, hr, hm⟩ := outcomeRow_eq_some hx
    split at h
    · cases h
    rename_i y hy
    split at h
    · cases h
      exact .inl rfl
    rename_i sid s
    obtain ⟨hsid, hs⟩ := lockSeries_eq_some hy
    split at h
    · cases h
      exact .inl rfl
    rename_i hrun
    have hrun' : r.state = .running := by simpa using hrun
    split at h
    · cases h
    split at h
    · rename_i ha
      cases h
      exact .inr ⟨recordId, id, sid, r, s, rfl, hrec, hid, hr, hm, hrun', hsid, hs,
        .inl ⟨ha, rfl⟩⟩
    · rename_i ha
      split at h
      · cases h
      rename_i v hv
      cases h
      exact .inr ⟨recordId, id, sid, r, s, rfl, hrec, hid, hr, hm, hrun', hsid, hs,
        .inr ⟨by simpa using ha, hv⟩⟩
  · cases h
    exact .inl rfl

end DjangoDurableJobStore

namespace Changes

open Database

variable {db db' : Database} {env : Surroundings} {op : StoreOp} {id sid : Uuid}
  {r r' : DurableJob} {s s' : JobSeries}

theorem refl : Changes db env op db where
  job _ r h := ⟨r, h, .inl rfl⟩
  created _ _ h h' := by simp [h] at h'
  unique _ _ _ _ h _ h' := by simp [h] at h'
  series _ s h := ⟨s, h, .inl rfl⟩

/-- An operation that rewrites one job row. -/
theorem setJob (h : db.jobs.row id = some r) (hc : JobChange db env op id r r') :
    Changes db env op (db.setJob id r') where
  job i q hq := by
    by_cases hi : i = id
    · subst hi
      obtain rfl : r = q := by simpa [h] using hq
      exact ⟨r', setJob_row h, .inr hc⟩
    · exact ⟨q, by rw [setJob_row_ne hi, hq], .inl rfl⟩
  created i q hn hq := by
    have hi : i ≠ id := by
      rintro rfl
      simp [h] at hn
    simp [setJob_row_ne hi, hn] at hq
  unique i j q q' hn _ hq := by
    have hi : i ≠ id := by
      rintro rfl
      simp [h] at hn
    simp [setJob_row_ne hi, hn] at hq
  series _ s hs := ⟨s, hs, .inl rfl⟩

/-- A change of one series row on top of changes of jobs. -/
theorem setSeries (h : Changes db env op db') (hk : db'.series = db.series)
    (hs : db.series.row sid = some s)
    (hc : SeriesChange db (db'.setSeries sid s') op sid s s')
    (hn : ∀ id, db.jobs.row id = none → db'.jobs.row id = none) :
    Changes db env op (db'.setSeries sid s') where
  job := h.job
  created i q h₁ h₂ := by
    simp [hn i h₁] at h₂
  unique i j q q' h₁ _ h₂ := by
    simp [hn i h₁] at h₂
  series i q hq := by
    by_cases hi : i = sid
    · subst hi
      obtain rfl : s = q := by simpa [hs] using hq
      exact ⟨s', setSeries_row (by rw [hk, hs]), .inr hc⟩
    · exact ⟨q, by rw [setSeries_row_ne hi, hk, hq], .inl rfl⟩

omit [Texts] in
theorem setJob_none (h : db.jobs.row id = some r) (i : Uuid) (hn : db.jobs.row i = none) :
    (db.setJob id r').jobs.row i = none := by
  have hi : i ≠ id := by
    rintro rfl
    simp [h] at hn
  rw [setJob_row_ne hi, hn]

/-- A dead letter fails its series, if it has one that is still active. -/
theorem failActiveSeries {series : Option (Uuid × JobSeries)} {finishedAt : Instant}
    (h : db.jobs.row id = some r) (hl : lockSeries db r.seriesId = .ok series)
    (hc : JobChange db env op id r r') (hn : r.state.terminal = false)
    (ht : r'.state.terminal = true) :
    Changes db env op (failActiveSeries (db.setJob id r') series finishedAt) := by
  unfold DjangoDurableJobStore.failActiveSeries
  have hjob := Changes.setJob h hc
  split
  · rename_i sid s
    obtain ⟨hs, hrow⟩ := lockSeries_eq_some hl
    split
    · rename_i ha
      refine hjob.setSeries rfl hrow ?_ (setJob_none h)
      exact .finished (.inr rfl) ha h hs hn (setJob_row h) ht
    · exact hjob
  · exact hjob

theorem cancelRecurring {seriesId : String} {cancelledAt : Instant} {x : SeriesRecord}
    (h : DjangoDurableJobStore.cancelRecurring seriesId cancelledAt db = .ok (x, db')) :
    Changes db env (.cancelRecurring seriesId cancelledAt) db' := by
  unfold DjangoDurableJobStore.cancelRecurring at h
  split at h
  · cases h
  rename_i sid hsid
  split at h
  · cases h
  rename_i s hs
  split at h
  · cases h
  rename_i id r hr
  obtain ⟨hrow, hcols⟩ := Table.find_eq_some hr
  simp only [Bool.and_eq_true, decide_eq_true_eq] at hcols
  obtain ⟨hsr, hnum⟩ := hcols
  split at h
  · rename_i ha
    split at h
    · rename_i hst
      cases h
      have hj : Changes db env (.cancelRecurring seriesId cancelledAt)
          (db.setJob id (r.cancel cancelledAt)) :=
        Changes.setJob hrow (.cancelled hsid hs ha hsr hnum hst)
      refine hj.setSeries rfl hs ?_ (setJob_none hrow)
      exact .cancelled hsid ha hrow hsr hnum (setJob_row hrow) (.inl rfl)
    · rename_i hst
      cases h
      refine Changes.refl.setSeries rfl hs ?_ fun _ h => h
      refine .cancelled hsid ha hrow hsr hnum hrow ?_
      cases hr : r.state <;> simp_all [DurableJobState.terminal]
  · cases h
    exact .refl


theorem sweep {workerId : String} {now lease : Instant} :
    Changes db env (.claim workerId now lease) (sweep db now) where
  job i q hq := by
    refine ⟨_, sweep_row hq, ?_⟩
    by_cases hc : cancelledReclaimable db now q = true
    · simp only [hc, if_true]
      exact .inr (.swept hc)
    · by_cases hp : parkable db now q = true
      · simp only [hc, hp, if_true]
        exact .inr (.parked hp)
      · simp [hc, hp]
  created i q hn hq := by simp [sweep_row_none hn] at hq
  unique i j q q' hn _ hq := by simp [sweep_row_none hn] at hq
  series _ s hs := ⟨s, hs, .inl rfl⟩

theorem claim {workerId : String} {now lease : Instant} {x : Option DurableJobClaim}
    (h : DjangoDurableJobStore.claim workerId now lease env db = .ok (x, db')) :
    Changes db env (.claim workerId now lease) db' := by
  obtain ⟨-, rfl⟩ | ⟨id, r, -, hr, hc, hp, hs, rfl⟩ := claim_spec h
  · exact sweep
  · refine ⟨?_, ?_, ?_, fun _ s hs => ⟨s, hs, .inl rfl⟩⟩
    · intro i q hq
      by_cases hi : i = id
      · subst hi
        obtain rfl : r = q := by simpa [hr] using hq
        exact ⟨_, setJob_row hs, .inr (.claimed hc hp)⟩
      · rw [setJob_row_ne hi]
        exact sweep.job i q hq
    · intro i q hn hq
      simp [setJob_none hs i (sweep_row_none hn)] at hq
    · intro i j q q' hn _ hq
      simp [setJob_none hs i (sweep_row_none hn)] at hq

theorem markPublished {c : DurableJobClaim} {now due : Instant}
    (h : DjangoDurableJobStore.markPublished c now due db = .ok ((), db')) :
    Changes db env (.markPublished c now due) db' := by
  unfold DjangoDurableJobStore.markPublished finishDeadLetterFromClaim at h
  simp only [bind, Except.bind, pure, Except.pure, throw, throwThe, MonadExceptOf.throw] at h
  split at h
  · rename_i hdl
    split at h
    · cases h
    rename_i id hid
    split at h
    · cases h
      exact .refl
    rename_i r hr
    split at h
    · cases h
    rename_i x hx
    split at h
    · rename_i hg
      cases h
      have hn : r.state.terminal = false := by simp [hg.2, DurableJobState.terminal]
      exact .failActiveSeries hr hx (.deadLetteredByClaim hid hdl hg.1 hg.2) hn rfl
    · cases h
      exact .refl
  · rename_i hdl
    split at h
    · cases h
    rename_i x hx
    split at h
    · cases h
      exact .refl
    · cases h
      obtain ⟨hid, hr, hg, hst⟩ := claimedRow_eq_some hx
      exact .setJob hr (.published hid hdl hg hst)

theorem markPublishIndeterminate {c : DurableJobClaim} {now due : Instant}
    (h : DjangoDurableJobStore.markPublishIndeterminate c due db = .ok ((), db')) :
    Changes db env (.markPublishIndeterminate c now due) db' := by
  unfold DjangoDurableJobStore.markPublishIndeterminate at h
  simp only [bind, Except.bind, pure, Except.pure] at h
  split at h
  · cases h
  rename_i x hx
  split at h
  · cases h
    exact .refl
  · cases h
    obtain ⟨hid, hr, hg, hst⟩ := claimedRow_eq_some hx
    exact .setJob hr (.publishUnknown hid hg hst)

theorem admitDelivery {a : DurableDeliveryAdmission} {d : DurableDeliveryDecision}
    (h : DjangoDurableJobStore.admitDelivery a env db = .ok (d, db')) :
    Changes db env (.admitDelivery a) db' := by
  obtain ⟨id, r, -, hid, hr, hg, ho, hd, rfl⟩ | ⟨id, r, -, hid, hr, hg, hn, hrun, hs, rfl⟩ |
    ⟨-, rfl⟩ := admitDelivery_spec h
  · exact .setJob hr (.admitted hid hg ho hd)
  · exact .setJob hr (.admissionCancelled hid hg hn hrun hs)
  · exact .refl

theorem checkpointSettlement {s : DurableSettlement}
    (h : DjangoDurableJobStore.checkpointSettlement s env db = .ok ((), db')) :
    Changes db env (.checkpointSettlement s) db' := by
  unfold DjangoDurableJobStore.checkpointSettlement at h
  simp only [bind, Except.bind, pure, Except.pure, throw, throwThe, MonadExceptOf.throw] at h
  split at h
  · cases h
  rename_i x hx
  split at h
  · cases h
  cases h
  obtain ⟨-, hdb⟩ | ⟨id, r, -, hid, hr, hp, hst, ⟨ho, hdb⟩ | ⟨hc, hdb⟩⟩ :=
    guardedSeriesUpdate_spec hx
  · rw [hdb]
    exact .refl
  all_goals simp only [Bool.and_eq_true, decide_eq_true_eq] at hp
  · rw [hdb]
    exact .setJob hr (.checkpointed hid hp.1.1 hp.1.2 hp.2 hst ho)
  · rw [hdb]
    exact .setJob hr (.checkpointCancelled hid hp.1.1 hst hc)

theorem releaseDelivery {recordId : String} {generation : Nat} {due : Instant}
    (h : DjangoDurableJobStore.releaseDelivery recordId generation due env db = .ok ((), db')) :
    Changes db env (.releaseDelivery recordId generation due) db' := by
  unfold DjangoDurableJobStore.releaseDelivery at h
  simp only [bind, Except.bind, pure, Except.pure, throw, throwThe, MonadExceptOf.throw] at h
  split at h
  · cases h
  rename_i x hx
  split at h
  · cases h
  cases h
  obtain ⟨-, hdb⟩ | ⟨id, r, -, hid, hr, hp, hst, ⟨ho, hdb⟩ | ⟨hc, hdb⟩⟩ :=
    guardedSeriesUpdate_spec hx
  · rw [hdb]
    exact .refl
  all_goals simp only [decide_eq_true_eq] at hp
  · rw [hdb]
    exact .setJob hr (.released hid hp hst ho)
  · rw [hdb]
    exact .setJob hr (.releaseCancelled hid hp hst hc)

theorem applyOutcome {o : CommandDeliveryOutcome} {due : Instant}
    (h : DjangoDurableJobStore.applyOutcome o due env db = .ok ((), db')) :
    Changes db env (.applyOutcome o due) db' := by
  unfold DjangoDurableJobStore.applyOutcome finishDeadLetterFromOutcome at h
  simp only [bind, Except.bind, pure, Except.pure] at h
  split at h
  · rename_i recordId generation hrec hgen
    split at h
    · cases h
    split at h
    · cases h
      exact .refl
    · rename_i hst
      split at h
      · cases h
      rename_i x hx
      split at h
      · cases h
        exact .refl
      · obtain ⟨hid, hr, hm⟩ := outcomeRow_eq_some hx
        split at h
        · rename_i hrun
          cases h
          exact .setJob hr (.succeeded hrec hid hst hm hrun)
        · cases h
          exact .refl
    · rename_i hst
      split at h
      · cases h
      rename_i x hx
      split at h
      · cases h
        exact .refl
      · rename_i id r
        obtain ⟨hid, hr, hm⟩ := outcomeRow_eq_some hx
        split at h
        · cases h
        rename_i y hy
        split at h
        · cases h
          exact .refl
        · rename_i hset
          cases h
          have hset' : r.state = .settling := by simpa using hset
          have hn : r.state.terminal = false := by simp [hset', DurableJobState.terminal]
          exact .failActiveSeries hr hy (.deadLetteredByOutcome hrec hid hst hm hset') hn rfl
    all_goals
      rename_i hst
      split at h
      · cases h
      rename_i x hx
      cases h
      have hmem : o.status ∈ [.retryScheduled, .continued] := by simp [hst]
      obtain ⟨-, hdb⟩ | ⟨id, r, -, hid, hr, hm, hset, ⟨ho, hdb⟩ | ⟨hc, hdb⟩⟩ :=
        guardedSeriesUpdate_spec hx
      · rw [hdb]
        exact .refl
      · rw [hdb]
        exact .setJob hr (.resumed hrec hid hmem hm hset ho)
      · rw [hdb]
        exact .setJob hr (.resumeCancelled hrec hid hmem hm hset hc)
  · cases h
    exact .refl

omit [Texts] in
/-- What the rows of a table are after an insertion. -/
theorem insert_cases {i : Uuid} {q : DurableJob}
    (hq : (db.jobs.insert id r).row i = some q) : (i = id ∧ q = r) ∨ db.jobs.row i = some q := by
  rw [Table.row_insert] at hq
  split at hq
  · rename_i hi
    injection hq with hq
    exact .inl ⟨hi, hq.symm⟩
  · exact .inr hq

theorem schedule {d : DurableJobDraft} {x : Uuid × DurableJob}
    (h : DjangoDurableJobStore.schedule d env db = .ok (x, db')) :
    Changes db env (.schedule d) db' := by
  unfold DjangoDurableJobStore.schedule at h
  split at h
  · rename_i db₁ hc
    cases h
    obtain ⟨rfl, hn, hrows, -⟩ := createJob_eq_ok hc
    refine ⟨?_, ?_, ?_, fun _ s hs => ⟨s, hs, .inl rfl⟩⟩
    · intro i q hq
      have hi : i ≠ env.fresh := by
        rintro rfl
        simp [hn] at hq
      exact ⟨q, by rw [← hq]; exact Table.row_insert_ne hi, .inl rfl⟩
    · intro i q hi hq
      obtain ⟨rfl, rfl⟩ | hq := insert_cases hq
      · exact ⟨rfl, rfl, ⟨rfl, rfl⟩, by simp [DurableJob.ofDraft], by simp [DurableJob.ofDraft]⟩
      · simp [hi] at hq
    · intro i j q q' hi hj hq hq'
      obtain ⟨rfl, -⟩ | hq := insert_cases hq
      · obtain ⟨rfl, -⟩ | hq' := insert_cases hq'
        · rfl
        · simp [hj] at hq'
      · simp [hi] at hq
  · split at h
    · cases h
    · split at h
      · cases h
      · split at h
        · cases h
        · cases h
          exact .refl

theorem scheduleRecurring {d : JobSeriesDraft} {x : SeriesRecord}
    (h : DjangoDurableJobStore.scheduleRecurring d env db = .ok (x, db')) :
    Changes db env (.scheduleRecurring d) db' := by
  unfold DjangoDurableJobStore.scheduleRecurring at h
  dsimp only at h
  split at h
  · rename_i db₂ hc
    cases h
    cases hs : db.createSeries env.freshOther (.ofDraft d) with
    | error exc => simp [hs, Except.bind] at hc
    | ok db₁ =>
      rw [hs, Except.bind] at hc
      obtain ⟨rfl, hsn⟩ := createSeries_eq_ok hs
      obtain ⟨rfl, hn, hrows, -⟩ := createJob_eq_ok hc
      have hn : db.jobs.row env.fresh = none := hn
      refine ⟨?_, ?_, ?_, ?_⟩
      · intro i q hq
        have hi : i ≠ env.fresh := by
          rintro rfl
          simp [hn] at hq
        exact ⟨q, by rw [← hq]; exact Table.row_insert_ne hi, .inl rfl⟩
      · intro i q hi hq
        obtain ⟨rfl, rfl⟩ | hq := insert_cases hq
        · refine ⟨rfl, rfl, ⟨rfl, rfl⟩, ?_, ?_⟩
          · intro j q' hq' hsome hser
            exact (hrows j q' hq' hsome hser).1 rfl
          · rintro sid ⟨⟩
            exact ⟨.ofDraft d, Table.row_insert_self, rfl, rfl⟩
        · simp [hi] at hq
      · intro i j q q' hi hj hq hq'
        obtain ⟨rfl, -⟩ | hq := insert_cases hq
        · obtain ⟨rfl, -⟩ | hq' := insert_cases hq'
          · rfl
          · simp [hj] at hq'
        · simp [hi] at hq
      · intro sid s hrow
        have hi : sid ≠ env.freshOther := by
          rintro rfl
          simp [hsn] at hrow
        exact ⟨s, by rw [← hrow]; exact Table.row_insert_ne hi, .inl rfl⟩
  · split at h
    · cases h
    · split at h
      · cases h
      · split at h
        · cases h
        · split at h
          · cases h
          · cases h
            exact .refl

theorem completeRecurringSuccess [Calendar] {o : CommandDeliveryOutcome}
    {result : HandlerResult Unit} {completedAt : Instant} {b : Bool}
    (h : DjangoDurableJobStore.completeRecurringSuccess o result completedAt env db
      = .ok (b, db')) :
    Changes db env (.completeRecurringSuccess o result completedAt) db' := by
  obtain rfl | ⟨recordId, id, sid, r, s, -, hrec, hid, hr, hm, hrun, hsr, hs, hrest⟩ :=
    completeRecurringSuccess_spec h
  · exact .refl
  have hjob : Changes db env (.completeRecurringSuccess o result completedAt)
      (db.setJob id (r.succeed completedAt)) :=
    .setJob hr (.completed hrec hid hm hrun hsr)
  have hnt : r.state.terminal = false := by simp [hrun, DurableJobState.terminal]
  obtain ⟨-, rfl⟩ | ⟨ha, hadv⟩ := hrest
  · exact hjob
  obtain rfl | ⟨q, db₁, hc, hpend, hgen, huntried, hqs, hnum, rfl⟩ := advanceSeries_spec hadv
  · refine hjob.setSeries rfl hs ?_ (setJob_none hr)
    exact .finished (.inl rfl) ha hr hsr hnt (setJob_row hr) rfl
  obtain ⟨rfl, hn, hrows, -⟩ := createJob_eq_ok hc
  have hne : env.fresh ≠ id := by
    intro he
    rw [he, setJob_row hr] at hn
    cases hn
  -- the rows of the new database that are not the new one
  have old : ∀ i q', (db.setJob id (r.succeed completedAt)).jobs.row i = some q' →
      q'.seriesId = some sid → q'.occurrenceNumber ≠ some (s.latestOccurrenceNumber + 1) ∧
        q'.state.terminal = true := by
    intro i q' hq' hser
    have := hrows i q' hq' (by simp [hqs]) (by rw [hser, hqs])
    rw [hnum] at this
    exact ⟨this.1 rfl, this.2 (by simp [hpend, DurableJobState.terminal])⟩
  refine ⟨?_, ?_, ?_, ?_⟩
  · intro i p hp
    obtain ⟨p', hp', hchange⟩ := hjob.job i p hp
    have hi : i ≠ env.fresh := by
      rintro rfl
      simp [hn] at hp'
    exact ⟨p', by rw [← hp']; exact Table.row_insert_ne hi, hchange⟩
  · intro i p hi hp
    obtain ⟨rfl, rfl⟩ | hp := insert_cases hp
    · refine ⟨hpend, hgen, huntried, ?_, ?_⟩
      · intro j q' hq' hsome hser
        rw [hnum]
        rw [hqs] at hser
        by_cases hj : j = id
        · subst hj
          obtain rfl : r = q' := by simpa [hr] using hq'
          exact (old j _ (setJob_row hr) hser).1
        · exact (old j q' (by rw [setJob_row_ne hj, hq']) hser).1
      · intro sid' hsid'
        obtain rfl : sid = sid' := by simpa [hqs] using hsid'
        exact ⟨_, setSeries_row hs, ha, hnum⟩
    · simp [setJob_none hr i hi] at hp
  · intro i j p p' hi hj hp hp'
    obtain ⟨rfl, -⟩ | hp := insert_cases hp
    · obtain ⟨rfl, -⟩ | hp' := insert_cases hp'
      · rfl
      · simp [setJob_none hr j hj] at hp'
    · simp [setJob_none hr i hi] at hp
  · intro i p hp
    by_cases hi : i = sid
    · subst hi
      obtain rfl : s = p := by simpa [hs] using hp
      refine ⟨_, setSeries_row hs, .inr (.advanced ha ?_)⟩
      intro j q' hq' hser ht
      obtain ⟨-, rfl⟩ | hq' := insert_cases hq'
      · exact hnum
      · simp [(old j q' hq' hser).2] at ht
    · exact ⟨p, by rw [setSeries_row_ne hi]; exact hp, .inl rfl⟩

/-- Whatever a successful operation does to the database, it does by the listed changes. -/
theorem of_run [Calendar] {op : StoreOp} {a : op.Result} (h : op.run env db = .ok (a, db')) :
    Changes db env op db' := by
  cases op with
  | schedule draft => exact schedule h
  | scheduleRecurring draft => exact scheduleRecurring h
  | cancelRecurring seriesId cancelledAt => exact cancelRecurring h
  | claim workerId now lease => exact claim h
  | markPublished c now due => exact markPublished h
  | markPublishIndeterminate c now due => exact markPublishIndeterminate h
  | admitDelivery a => exact admitDelivery h
  | checkpointSettlement s => exact checkpointSettlement h
  | releaseDelivery recordId generation due => exact releaseDelivery h
  | applyOutcome o due => exact applyOutcome h
  | completeRecurringSuccess o result completedAt => exact completeRecurringSuccess h

end Changes

omit [Texts] in
theorem DurableJob.elapsed_nonterminal {r : DurableJob} {now : Instant}
    (h : r.elapsed now = true) : r.state.terminal = false := by
  cases hs : r.state <;> simp_all [DurableJob.elapsed, DurableJobState.terminal]

/-- What it takes to be admitted. -/
theorem DjangoDurableJobStore.decideAdmission_proceed {a : DurableDeliveryAdmission}
    {r : DurableJob} (h : decideAdmission a r = .proceed) :
    r.state ∈ [.claimed, .published, .settling, .indeterminate] ∧
    (r.state = .indeterminate → r.indeterminateReason = some .publicationAcknowledgement) ∧
    r.matchesAdmission a = true ∧ a.retryCount = r.retryCount ∧
    (r.maxRetries.isSome → r.maxRetries = some a.maxRetries) := by
  unfold decideAdmission at h
  split at h
  · cases h
  rename_i hst
  split at h
  · cases h
  rename_i hreason
  split at h
  · cases h
  rename_i hm
  split at h
  · cases h
  rename_i hlt
  split at h
  · cases h
  rename_i hgt
  split at h
  · cases h
  rename_i hmax
  refine ⟨not_not.mp hst, ?_, by simpa using hm, by omega, ?_⟩
  · intro hi
    by_contra hne
    exact hreason ⟨hi, hne⟩
  · intro hs
    by_contra hne
    exact hmax ⟨hs, hne⟩

namespace JobChange

variable {db : Database} {env : Surroundings} {op : StoreOp} {id : Uuid} {r r' : DurableJob}

/-- No operation changes a row in a terminal state. -/
theorem nonterminal (h : JobChange db env op id r r') : r.state.terminal = false := by
  cases h with
  | cancelled _ _ _ _ _ hst =>
    cases hs : r.state <;> simp_all [DurableJobState.terminal]
  | swept hc =>
    simp only [cancelledReclaimable, Bool.and_eq_true] at hc
    exact DurableJob.elapsed_nonterminal hc.1
  | parked hp =>
    simp only [parkable, Bool.and_eq_true] at hp
    exact DurableJob.elapsed_nonterminal hp.1.2
  | claimed hc _ =>
    simp only [claimable, Bool.and_eq_true, Bool.or_eq_true, decide_eq_true_eq] at hc
    obtain hp | he := hc.1.1
    · simp [hp, DurableJobState.terminal]
    · exact DurableJob.elapsed_nonterminal he
  | admitted _ _ _ hd =>
    have hst := (decideAdmission_proceed hd).1
    cases hs : r.state <;> simp_all [DurableJobState.terminal]
  | admissionCancelled _ _ hn _ _ => exact hn
  | published _ _ _ hst | deadLetteredByClaim _ _ _ hst | publishUnknown _ _ hst
  | checkpointed _ _ _ _ hst _ | checkpointCancelled _ _ hst _ | released _ _ hst _
  | releaseCancelled _ _ hst _ | succeeded _ _ _ _ hst | deadLetteredByOutcome _ _ _ _ hst
  | resumed _ _ _ _ hst _ | resumeCancelled _ _ _ _ hst _ | completed _ _ _ hst _ =>
    simp [hst, DurableJobState.terminal]

/-- The columns that say what a job is never change. -/
theorem identity (h : JobChange db env op id r r') :
    r'.seriesId = r.seriesId ∧ r'.occurrenceNumber = r.occurrenceNumber ∧
      r'.messageId = r.messageId ∧ r'.availableAt = r.availableAt := by
  cases h with
  | published _ _ _ _ =>
    unfold DurableJob.publish
    split <;> exact ⟨rfl, rfl, rfl, rfl⟩
  | _ => exact ⟨rfl, rfl, rfl, rfl⟩

/-- Only a claim changes the generation, and it takes the next one. -/
theorem generation (h : JobChange db env op id r r') :
    (r'.generation = r.generation ∧ r'.state ≠ .claimed) ∨
    (∃ w now lease, op = .claim w now lease ∧ r' = r.claim w now lease) := by
  cases h with
  | claimed _ _ => exact .inr ⟨_, _, _, rfl, rfl⟩
  | published _ _ _ _ =>
    left
    unfold DurableJob.publish
    split <;> exact ⟨rfl, by simp⟩
  | publishUnknown _ _ _ =>
    left
    refine ⟨rfl, ?_⟩
    unfold DurableJob.publishIndeterminate
    dsimp only
    split <;> simp
  | _ => exact .inl ⟨rfl, by simp [DurableJob.cancel, DurableJob.park, DurableJob.deadLetterFromClaim,
      DurableJob.admitted, DurableJob.checkpoint, DurableJob.release, DurableJob.succeed,
      DurableJob.deadLetterFromOutcome, DurableJob.resume]⟩

theorem generation_le (h : JobChange db env op id r r') : r.generation ≤ r'.generation := by
  obtain ⟨hg, -⟩ | ⟨w, now, lease, -, rfl⟩ := h.generation
  · omega
  · simp [DurableJob.claim]

end JobChange

/-- Only an active series changes. -/
theorem SeriesChange.active {db db' : Database} {op : StoreOp} {sid : Uuid} {s s' : JobSeries}
    (h : SeriesChange db db' op sid s s') : s.state = .active := by
  cases h with
  | cancelled _ ha _ _ _ _ _ => exact ha
  | finished _ ha _ _ _ _ _ => exact ha
  | advanced ha _ => exact ha

end Pybus
