import Pybus.StoreInvariants

/-! What one store operation does to a series and its occurrences: nothing that matters to the
series, or one of the few changes that open, end or advance it. -/
namespace Pybus

open Texts Relational DjangoDurableJobStore Database

/-- The state a finished series leaves its latest occurrence in. -/
def JobSeriesState.Fits : JobSeriesState → DurableJobState → Prop
  | .active, st => st.terminal = false
  | .completed, st => st = .succeeded
  | .failed, st => st = .deadLettered
  | .cancelled, st => st.terminal = true ∨ st = .running

/-- Job rows may be rewritten, but no row is added and the series stay as they are. -/
structure Rewrites (db db' : Database) : Prop where
  series : db'.series = db.series
  jobs : ∀ id, db.jobs.row id = none → db'.jobs.row id = none

/-- One series and one of its occurrences change; every other row stays. -/
structure Touches (db db' : Database) (sid : Uuid) (s' : JobSeries) (id : Uuid) (r' : DurableJob) :
    Prop where
  series : db'.series.row sid = some s'
  series_ne : ∀ i, i ≠ sid → db'.series.row i = db.series.row i
  job : db'.jobs.row id = some r'
  job_ne : ∀ i, i ≠ id → db'.jobs.row i = db.jobs.row i

/-- The next occurrence of a series that a success at `completedAt` brings about. -/
structure Successor (sid : Uuid) (s : JobSeries) (completedAt : Instant) (q : DurableJob) : Prop where
  series : q.seriesId = some sid
  number : q.occurrenceNumber = some (s.latestOccurrenceNumber + 1)
  pending : q.state = .pending
  after : completedAt < q.availableAt
  before : ∀ e, s.recurrence.endsAt = some e → q.availableAt < e

/-- What an operation does to the series. -/
inductive SeriesStep (db : Database) (op : StoreOp) (db' : Database) : Prop
  | kept : db'.series = db.series →
      (∀ id r, db.jobs.row id = none → db'.jobs.row id = some r → r.seriesId = none) →
      (∀ id r r', db.jobs.row id = some r → db'.jobs.row id = some r' →
        seriesState db r = some .active → r.state.terminal = false → r'.state.terminal = false) →
      SeriesStep db op db'
  | opened {sid id : Uuid} {s : JobSeries} {r : DurableJob} : db.series.row sid = none →
      db.jobs.row id = none → Touches db db' sid s id r → s.state = .active →
      s.latestOccurrenceNumber = 1 → r.seriesId = some sid → r.occurrenceNumber = some 1 →
      r.state = .pending → SeriesStep db op db'
  | ended {sid id : Uuid} {s : JobSeries} {r r' : DurableJob} {state : JobSeriesState}
      {finishedAt : Instant} : db.series.row sid = some s → s.state = .active →
      db.jobs.row id = some r → r.seriesId = some sid →
      r.occurrenceNumber = some s.latestOccurrenceNumber ∨ r.state.terminal = false →
      Touches db db' sid (s.finish state finishedAt) id r' → state ≠ .active →
      state.Fits r'.state → SeriesStep db op db'
  | advanced {sid id fresh : Uuid} {s : JobSeries} {r q : DurableJob} {completedAt : Instant} :
      db.series.row sid = some s → s.state = .active → db.jobs.row id = some r →
      r.seriesId = some sid → r.state = .running → db.jobs.row fresh = none →
      db'.series.row sid = some { s with latestOccurrenceNumber := s.latestOccurrenceNumber + 1 } →
      (∀ i, i ≠ sid → db'.series.row i = db.series.row i) →
      db'.jobs.row id = some (r.succeed completedAt) → db'.jobs.row fresh = some q →
      (∀ i, i ≠ id → i ≠ fresh → db'.jobs.row i = db.jobs.row i) →
      Successor sid s completedAt q → SeriesStep db op db'

variable {db db' : Database} {env : Surroundings} {op : StoreOp} {id sid : Uuid}
  {r r' : DurableJob} {s s' : JobSeries}

namespace Rewrites

theorem refl : Rewrites db db := ⟨rfl, fun _ h => h⟩

theorem setJob (h : db.jobs.row id = some r) : Rewrites db (db.setJob id r') :=
  ⟨rfl, Changes.setJob_none h⟩

theorem sweep {now : Instant} : Rewrites db (sweep db now) := ⟨rfl, fun _ h => sweep_row_none h⟩

theorem trans {db'' : Database} (h : Rewrites db db') (h' : Rewrites db' db'') :
    Rewrites db db'' :=
  ⟨h'.series.trans h.series, fun id hn => h'.jobs id (h.jobs id hn)⟩

end Rewrites

/-- A series and its occurrence, both rewritten. -/
theorem Touches.set (hs : db.series.row sid = some s) (hr : db.jobs.row id = some r) :
    Touches db ((db.setJob id r').setSeries sid s') sid s' id r' where
  series := setSeries_row hs
  series_ne _ h := setSeries_row_ne h
  job := setJob_row hr
  job_ne _ h := setJob_row_ne h

/-- The operations that may end an occurrence of an active series. -/
def StoreOp.mayEnd : StoreOp → Bool
  | .cancelRecurring _ _ | .completeRecurringSuccess _ _ _ => true
  | .markPublished c _ _ => c.settlementStatus = some .deadLettered
  | .applyOutcome o _ => o.status = .succeeded || o.status = .deadLettered
  | _ => false

variable [Texts]

/-- Every other operation leaves the occurrences of an active series open. -/
theorem JobChange.stays_open (h : JobChange db env op id r r')
    (hs : seriesState db r = some .active) (hop : op.mayEnd = false) :
    r'.state.terminal = false := by
  cases h with
  | cancelled _ _ _ _ _ _ => cases hop
  | swept hc => simp [cancelledReclaimable, hs] at hc
  | deadLetteredByClaim _ hdl _ _ => simp [StoreOp.mayEnd, hdl] at hop
  | admissionCancelled _ _ _ _ hc => simp [hs] at hc
  | checkpointCancelled _ _ _ hc => simp [hs] at hc
  | releaseCancelled _ _ _ hc => simp [hs] at hc
  | succeeded _ _ hst _ _ => simp [StoreOp.mayEnd, hst] at hop
  | deadLetteredByOutcome _ _ hst _ _ => simp [StoreOp.mayEnd, hst] at hop
  | resumeCancelled _ _ _ _ _ hc => simp [hs] at hc
  | completed _ _ _ _ _ => cases hop
  | published _ _ _ _ =>
    unfold DurableJob.publish
    split <;> rfl
  | @publishUnknown c _ _ _ _ _ _ _ =>
    unfold DurableJob.publishIndeterminate
    by_cases hn : c.settlementStatus = none <;> simp [hn, DurableJobState.terminal]
  | parked _ | claimed _ _ | admitted _ _ _ _ | checkpointed _ _ _ _ _ _ | released _ _ _ _
  | resumed _ _ _ _ _ _ => rfl

theorem guardedSeriesUpdate_rewrites {recordId : String} {p : DurableJob → Bool}
    {st : DurableJobState} {f : DurableJob → DurableJob} {cancelledAt : Instant} {n : Nat}
    (h : guardedSeriesUpdate recordId p st f cancelledAt db = .ok (n, db')) : Rewrites db db' := by
  rcases guardedSeriesUpdate_spec h with
    ⟨-, rfl⟩ | ⟨id, r, -, -, hr, -, -, ⟨-, rfl⟩ | ⟨-, rfl⟩⟩
  · exact .refl
  · exact .setJob hr
  · exact .setJob hr

/-- A published claim is recorded, or its dead letter. -/
theorem markPublished_spec {c : DurableJobClaim} {now due : Instant}
    (h : markPublished c now due db = .ok ((), db')) :
    (Rewrites db db' ∧ c.settlementStatus ≠ some .deadLettered) ∨ db' = db ∨
    ∃ id r series, db.jobs.row id = some r ∧ lockSeries db r.seriesId = .ok series ∧
      r.state = .claimed ∧
      db' = failActiveSeries (db.setJob id (r.deadLetterFromClaim now)) series now := by
  unfold markPublished finishDeadLetterFromClaim at h
  simp only [bind, Except.bind, pure, Except.pure, throw, throwThe, MonadExceptOf.throw] at h
  split at h
  · split at h
    · cases h
    rename_i id hid
    split at h
    · cases h
      exact .inr (.inl rfl)
    rename_i r hr
    split at h
    · cases h
    rename_i series hl
    split at h
    · rename_i hg
      cases h
      exact .inr (.inr ⟨id, r, series, hr, hl, hg.2, rfl⟩)
    · cases h
      exact .inr (.inl rfl)
  · rename_i hdl
    split at h
    · cases h
    rename_i x hx
    split at h
    · cases h
      exact .inr (.inl rfl)
    · cases h
      exact .inl ⟨.setJob (claimedRow_eq_some hx).2.1, hdl⟩

/-- An outcome is confirmed: of a job that is finished with it, of one that is resumed, or of one
whose dead letter fails its series. -/
theorem applyOutcome_spec {o : CommandDeliveryOutcome} {due : Instant}
    (h : applyOutcome o due env db = .ok ((), db')) :
    db' = db ∨
    (∃ recordId id r, o.status = .succeeded ∧ o.durableRecordId = some recordId ∧
      uuidFromText recordId = some id ∧ db.jobs.row id = some r ∧ r.matchesOutcome o = true ∧
      r.state = .running ∧ db' = db.setJob id (r.succeed env.now)) ∨
    (o.status ∈ [.retryScheduled, .continued] ∧ Rewrites db db') ∨
    ∃ id r series, db.jobs.row id = some r ∧ lockSeries db r.seriesId = .ok series ∧
      r.state = .settling ∧
      db' = failActiveSeries (db.setJob id (r.deadLetterFromOutcome o env.now)) series env.now := by
  unfold applyOutcome finishDeadLetterFromOutcome at h
  simp only [bind, Except.bind, pure, Except.pure] at h
  split at h
  · rename_i recordId generation hrec hgen
    split at h
    · cases h
    split at h
    · cases h
      exact .inl rfl
    · rename_i hst
      split at h
      · cases h
      rename_i x hx
      split at h
      · cases h
        exact .inl rfl
      · rename_i id r
        obtain ⟨hid, hr, hm⟩ := outcomeRow_eq_some hx
        split at h
        · rename_i hrun
          cases h
          exact .inr (.inl ⟨recordId, id, r, hst, hrec, hid, hr, hm, hrun, rfl⟩)
        · cases h
          exact .inl rfl
    · split at h
      · cases h
      rename_i x hx
      split at h
      · cases h
        exact .inl rfl
      · rename_i id r
        obtain ⟨hid, hr, hm⟩ := outcomeRow_eq_some hx
        split at h
        · cases h
        rename_i series hl
        split at h
        · cases h
          exact .inl rfl
        · rename_i hset
          cases h
          exact .inr (.inr (.inr ⟨id, r, series, hr, hl, by simpa using hset, rfl⟩))
    all_goals
      rename_i hst
      split at h
      · cases h
      rename_i x hx
      cases h
      exact .inr (.inr (.inl ⟨by simp [hst], guardedSeriesUpdate_rewrites hx⟩))
  · cases h
    exact .inl rfl

/-- A cancellation ends an active series; its latest occurrence is cancelled unless it runs or has
ended. -/
theorem cancelRecurring_spec {seriesId : String} {cancelledAt : Instant} {x : SeriesRecord}
    (h : cancelRecurring seriesId cancelledAt db = .ok (x, db')) :
    db' = db ∨ ∃ sid s id r r', db.series.row sid = some s ∧ s.state = .active ∧
      db.jobs.row id = some r ∧ r.seriesId = some sid ∧
      r.occurrenceNumber = some s.latestOccurrenceNumber ∧
      Touches db db' sid (s.finish .cancelled cancelledAt) id r' ∧
      JobSeriesState.cancelled.Fits r'.state := by
  unfold cancelRecurring at h
  split at h
  · cases h
  rename_i sid hsid
  split at h
  · cases h
  rename_i s hs
  split at h
  · cases h
  rename_i id r hr
  obtain ⟨hrow, hcols⟩ := Table.find_eq_some hr
  simp only [Bool.and_eq_true, decide_eq_true_eq] at hcols
  split at h
  · rename_i ha
    right
    split at h
    · cases h
      exact ⟨sid, s, id, r, _, hs, ha, hrow, hcols.1, hcols.2,
        ⟨setSeries_row hs, fun _ hi => setSeries_row_ne hi, setJob_row hrow,
          fun _ hi => setJob_row_ne hi⟩, .inl rfl⟩
    · rename_i hst
      cases h
      refine ⟨sid, s, id, r, r, hs, ha, hrow, hcols.1, hcols.2,
        ⟨setSeries_row hs, fun _ hi => setSeries_row_ne hi, hrow, fun _ _ => rfl⟩, ?_⟩
      cases hr : r.state <;> simp_all [JobSeriesState.Fits, DurableJobState.terminal]
  · cases h
    exact .inl rfl

omit [Texts] in
/-- A call of `schedule_recurring` inserts a series with its first occurrence, or finds them. -/
theorem scheduleRecurring_spec {d : JobSeriesDraft} {x : SeriesRecord}
    (h : scheduleRecurring d env db = .ok (x, db')) :
    db' = db ∨ ∃ r, db.series.row env.freshOther = none ∧ db.jobs.row env.fresh = none ∧
      Touches db db' env.freshOther (.ofDraft d) env.fresh r ∧
      r.seriesId = some env.freshOther ∧ r.occurrenceNumber = some 1 ∧ r.state = .pending := by
  unfold scheduleRecurring at h
  dsimp only at h
  split at h
  · rename_i db₂ hc
    cases h
    cases hs : db.createSeries env.freshOther (.ofDraft d) with
    | error exc => simp [hs, Except.bind] at hc
    | ok db₁ =>
      rw [hs, Except.bind] at hc
      obtain ⟨rfl, hsn⟩ := createSeries_eq_ok hs
      obtain ⟨rfl, hn, -, -⟩ := createJob_eq_ok hc
      exact .inr ⟨_, hsn, hn, ⟨Table.row_insert_self, fun _ hi => Table.row_insert_ne hi,
        Table.row_insert_self, fun _ hi => Table.row_insert_ne hi⟩, rfl, rfl, rfl⟩
  · split at h
    · cases h
    split at h
    · cases h
    split at h
    · cases h
    split at h
    · cases h
    · cases h
      exact .inl rfl

omit [Texts] in
/-- A call of `schedule` inserts a job without a series, or finds one. -/
theorem schedule_spec {d : DurableJobDraft} {x : Uuid × DurableJob}
    (h : schedule d env db = .ok (x, db')) :
    db' = db ∨ ∃ r, r.seriesId = none ∧ r.occurrenceNumber = none ∧
      db' = { db with jobs := db.jobs.insert env.fresh r } := by
  unfold schedule at h
  split at h
  · rename_i db₁ hc
    cases h
    exact .inr ⟨_, rfl, rfl, (createJob_eq_ok hc).1⟩
  · split at h
    · cases h
    split at h
    · cases h
    split at h
    · cases h
    · cases h
      exact .inl rfl

/-- The calendar goes forward and keeps to the end of a recurrence. -/
def Calendar.Forward [Calendar] : Prop :=
  ∀ r startsAt after t, Calendar.nextCadenceAt r startsAt after = .ok (some t) →
    after < t ∧ ∀ e, r.endsAt = some e → t < e

variable [Calendar] {result : HandlerResult Unit} {completedAt : Instant}

/-- An active series that goes on is completed or gets its next occurrence. -/
theorem advanceSeries_successor (hcal : Calendar.Forward)
    (h : advanceSeries db sid s result completedAt env = .ok db') :
    db' = db.setSeries sid (s.finish .completed completedAt) ∨
    ∃ q, db.jobs.row env.fresh = none ∧ Successor sid s completedAt q ∧
      db' = { db with jobs := db.jobs.insert env.fresh q }.setSeries sid
        { s with latestOccurrenceNumber := s.latestOccurrenceNumber + 1 } := by
  have next : ∀ t, createNextOccurrence db sid s completedAt t env = .ok db' →
      completedAt < t → (∀ e, s.recurrence.endsAt = some e → t < e) →
      ∃ q, db.jobs.row env.fresh = none ∧ Successor sid s completedAt q ∧
        db' = { db with jobs := db.jobs.insert env.fresh q }.setSeries sid
          { s with latestOccurrenceNumber := s.latestOccurrenceNumber + 1 } := by
    intro t ht hlt hends
    simp only [createNextOccurrence, bind, Except.bind, pure, Except.pure] at ht
    split at ht
    · cases ht
    rename_i db₁ hdb₁
    cases ht
    obtain ⟨rfl, hn, -, -⟩ := createJob_eq_ok hdb₁
    exact ⟨_, hn, ⟨rfl, rfl, rfl, hlt, hends⟩, rfl⟩
  unfold advanceSeries at h
  dsimp only at h
  split at h
  · cases h
    exact .inl rfl
  · rename_i t
    split at h
    · cases h
    rename_i hlt
    split at h
    · cases h
      exact .inl rfl
    · rename_i hends
      refine .inr (next t h (not_le.mp hlt) fun e he => ?_)
      simpa [he] using hends
  · split at h
    · cases h
    · cases h
      exact .inl rfl
    · rename_i t ht
      obtain ⟨hlt, hends⟩ := hcal _ _ _ _ ht
      exact .inr (next t h hlt hends)

/-- No success of a recurring job is confirmed by `apply_outcome`. -/
def StoreOp.Apart (db : Database) (op : StoreOp) : Prop :=
  ∀ o due recordId id r, op = .applyOutcome o due → o.status = .succeeded →
    o.durableRecordId = some recordId → uuidFromText recordId = some id →
    db.jobs.row id = some r → r.matchesOutcome o = true → r.state = .running → r.seriesId = none

omit [Texts] [Calendar] in
/-- A dead letter fails its series if that is active. -/
theorem SeriesStep.failed {series : Option (Uuid × JobSeries)} {finishedAt : Instant}
    (hr : db.jobs.row id = some r) (hl : lockSeries db r.seriesId = .ok series)
    (hn : r.state.terminal = false) (ht : r'.state = .deadLettered) :
    SeriesStep db op (failActiveSeries (db.setJob id r') series finishedAt) := by
  have hrows : Rewrites db (db.setJob id r') := .setJob hr
  have hkept : seriesState db r ≠ some .active → SeriesStep db op (db.setJob id r') := by
    intro hne
    refine .kept rfl (fun i q hi hq => by simp [hrows.jobs i hi] at hq) ?_
    intro i q q' hq hq' hs hqn
    by_cases hi : i = id
    · subst hi
      obtain rfl : q = r := by simpa [hq] using hr
      exact absurd hs hne
    · rw [setJob_row_ne hi, hq] at hq'
      obtain rfl : q = q' := by simpa using hq'
      exact hqn
  unfold failActiveSeries
  split
  · rename_i sid s
    obtain ⟨hsid, hs⟩ := lockSeries_eq_some hl
    split
    · rename_i ha
      exact .ended hs ha hr hsid (.inr hn) (.set hs hr) (by decide) ht
    · rename_i ha
      apply hkept
      rw [seriesState_of_lock hl]
      simpa using ha
  · apply hkept
    rw [seriesState_of_lock hl]
    simp

/-- What an operation does to the series, as long as it confirms no success of a recurring job. -/
theorem SeriesStep.of_run {a : op.Result} (hcal : Calendar.Forward) (hop : op.Apart db)
    (h : op.run env db = .ok (a, db')) : SeriesStep db op db' := by
  have hchanges := Changes.of_run h
  have hrefl : db' = db → SeriesStep db op db' := by
    intro he
    refine .kept (by rw [he]) (fun i q hi hq => by simp [he, hi] at hq) ?_
    intro i q q' hq hq' _ hn
    rw [he, hq] at hq'
    cases hq'
    exact hn
  -- the operations that rewrite rows and end nothing
  have hquiet : Rewrites db db' → op.mayEnd = false → SeriesStep db op db' := by
    intro hrw hend
    refine .kept hrw.series (fun i q hi hq => by simp [hrw.jobs i hi] at hq) ?_
    intro i q q' hq hq' hs hn
    obtain ⟨p, hp, hcase⟩ := hchanges.job i q hq
    obtain rfl : p = q' := by simpa [hp] using hq'
    rcases hcase with rfl | hc
    · exact hn
    · exact hc.stays_open hs hend
  cases op with
  | schedule d =>
    rcases schedule_spec h with he | ⟨r, hr, -, rfl⟩
    · exact hrefl he
    · refine .kept rfl ?_ ?_
      · intro i q hi hq
        rcases Changes.insert_cases hq with ⟨-, rfl⟩ | hq
        · exact hr
        · simp [hi] at hq
      · intro i q q' hq hq' hs hn
        obtain ⟨p, hp, hcase⟩ := hchanges.job i q hq
        obtain rfl : p = q' := Option.some.inj (hp.symm.trans hq')
        rcases hcase with rfl | hc
        · exact hn
        · exact hc.stays_open hs rfl
  | scheduleRecurring d =>
    rcases scheduleRecurring_spec h with he | ⟨r, hs, hn, ht, hsid, hnum, hp⟩
    · exact hrefl he
    · exact .opened hs hn ht rfl rfl hsid hnum hp
  | cancelRecurring seriesId cancelledAt =>
    rcases cancelRecurring_spec h with he | ⟨sid, s, id, r, r', hs, ha, hr, hsid, hnum, ht, hf⟩
    · exact hrefl he
    · exact .ended hs ha hr hsid (.inl hnum) ht (by decide) hf
  | claim workerId now lease =>
    refine hquiet ?_ rfl
    rcases claim_spec h with ⟨-, rfl⟩ | ⟨id, r, -, hr, -, -, hrow, rfl⟩
    · exact .sweep
    · exact Rewrites.sweep.trans (.setJob hrow)
  | markPublished c now due =>
    rcases markPublished_spec h with ⟨hrw, hne⟩ | he | ⟨id, r, series, hr, hl, hst, rfl⟩
    · exact hquiet hrw (by simpa [StoreOp.mayEnd] using hne)
    · exact hrefl he
    · exact .failed hr hl (by simp [hst, DurableJobState.terminal]) rfl
  | markPublishIndeterminate c now due =>
    refine hquiet ?_ rfl
    simp only [StoreOp.run, markPublishIndeterminate, bind, Except.bind, pure, Except.pure] at h
    split at h
    · cases h
    rename_i x hx
    split at h
    · cases h
      exact .refl
    · cases h
      exact .setJob (claimedRow_eq_some hx).2.1
  | admitDelivery a =>
    refine hquiet ?_ rfl
    rcases admitDelivery_spec h with ⟨id, r, -, -, hr, -, -, -, rfl⟩ |
      ⟨id, r, -, -, hr, -, -, -, -, rfl⟩ | ⟨-, rfl⟩
    · exact .setJob hr
    · exact .setJob hr
    · exact .refl
  | checkpointSettlement s =>
    refine hquiet ?_ rfl
    simp only [StoreOp.run, checkpointSettlement, bind, Except.bind, pure, Except.pure, throw,
      throwThe, MonadExceptOf.throw] at h
    split at h
    · cases h
    rename_i x hx
    split at h
    · cases h
    cases h
    exact guardedSeriesUpdate_rewrites hx
  | releaseDelivery recordId generation due =>
    refine hquiet ?_ rfl
    simp only [StoreOp.run, releaseDelivery, bind, Except.bind, pure, Except.pure, throw,
      throwThe, MonadExceptOf.throw] at h
    split at h
    · cases h
    rename_i x hx
    split at h
    · cases h
    cases h
    exact guardedSeriesUpdate_rewrites hx
  | applyOutcome o due =>
    rcases applyOutcome_spec h with he | ⟨recordId, id, r, hst, hrec, hid, hr, hm, hrun, rfl⟩ |
      ⟨hst, hrw⟩ | ⟨id, r, series, hr, hl, hst, rfl⟩
    · exact hrefl he
    · have hnone := hop o due recordId id r rfl hst hrec hid hr hm hrun
      have hrows : Rewrites db (db.setJob id (r.succeed env.now)) := .setJob hr
      refine .kept rfl (fun i q hi hq => by simp [hrows.jobs i hi] at hq) ?_
      intro i q q' hq hq' hs hn
      by_cases hi : i = id
      · subst hi
        obtain rfl : q = r := by simpa [hq] using hr
        simp [seriesState, hnone] at hs
      · rw [setJob_row_ne hi, hq] at hq'
        cases hq'
        exact hn
    · refine hquiet hrw ?_
      simp only [List.mem_cons, List.not_mem_nil, or_false] at hst
      rcases hst with hst | hst <;> simp [StoreOp.mayEnd, hst]
    · exact .failed hr hl (by simp [hst, DurableJobState.terminal]) rfl
  | completeRecurringSuccess o result completedAt =>
    rcases completeRecurringSuccess_spec h with he |
      ⟨recordId, id, sid, r, s, -, hrec, hid, hr, hm, hrun, hsid, hs, hrest⟩
    · exact hrefl he
    have hn : r.state.terminal = false := by simp [hrun, DurableJobState.terminal]
    rcases hrest with ⟨hne, rfl⟩ | ⟨ha, hadv⟩
    · have hrows : Rewrites db (db.setJob id (r.succeed completedAt)) := .setJob hr
      refine .kept rfl (fun i q hi hq => by simp [hrows.jobs i hi] at hq) ?_
      intro i q q' hq hq' hst hqn
      by_cases hi : i = id
      · subst hi
        obtain rfl : q = r := by simpa [hq] using hr
        simp [seriesState, hsid, hs, hne] at hst
      · rw [setJob_row_ne hi, hq] at hq'
        cases hq'
        exact hqn
    · rcases advanceSeries_successor hcal hadv with rfl | ⟨q, hfresh, hq, rfl⟩
      · exact .ended hs ha hr hsid (.inr hn) (.set hs hr) (by decide) rfl
      · have hne : env.fresh ≠ id := by
          intro he
          rw [he, setJob_row hr] at hfresh
          cases hfresh
        have hnone : db.jobs.row env.fresh = none := by rwa [setJob_row_ne hne] at hfresh
        refine .advanced hs ha hr hsid hrun hnone (setSeries_row hs) (fun i hi => setSeries_row_ne hi)
          ?_ Table.row_insert_self ?_ hq
        · exact (Table.row_insert_ne hne.symm).trans (setJob_row hr)
        · intro i hi hf
          exact (Table.row_insert_ne hf).trans (setJob_row_ne hi)

end Pybus
