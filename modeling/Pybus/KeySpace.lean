import Pybus.ScheduleCalls
import Pybus.Series
import Pybus.StoreInvariants

/-! The idempotency keys in the store: no two jobs and no two series have the same one, and a series
has it together with its first occurrence. -/
namespace Pybus

open Texts Relational DjangoDurableJobStore Database

/-- The columns that the message of a job is made of. -/
structure MessageColumns where
  messageType : String
  version : Int
  payload : Value
  headers : Dict
  deriving DecidableEq

def DurableJobDraft.columns (d : DurableJobDraft) : MessageColumns :=
  ⟨d.messageType, d.version, d.payload, d.headers⟩

def DurableJob.columns (r : DurableJob) : MessageColumns :=
  ⟨r.messageType, r.version, r.payload, r.headers⟩

def JobSeries.columns (s : JobSeries) : MessageColumns :=
  ⟨s.messageType, s.version, s.payload, s.headers⟩

/-- The columns of a job that say what it is. -/
structure SameJob (r r' : DurableJob) : Prop where
  series : r'.seriesId = r.seriesId
  number : r'.occurrenceNumber = r.occurrenceNumber
  message : r'.messageId = r.messageId
  key : r'.idempotencyKey = r.idempotencyKey
  fingerprint : r'.fingerprint = r.fingerprint
  columns : r'.columns = r.columns

/-- The columns of a series that say what it is; its occurrences get more. -/
structure SameSeries (s s' : JobSeries) : Prop where
  key : s'.idempotencyKey = s.idempotencyKey
  fingerprint : s'.fingerprint = s.fingerprint
  columns : s'.columns = s.columns
  latest : s.latestOccurrenceNumber ≤ s'.latestOccurrenceNumber

/-- No row is lost or becomes another one. -/
structure Grows (db db' : Database) : Prop where
  job : ∀ id r, db.jobs.row id = some r → ∃ r', db'.jobs.row id = some r' ∧ SameJob r r'
  series : ∀ sid s, db.series.row sid = some s → ∃ s', db'.series.row sid = some s' ∧ SameSeries s s'

/-- Which rows have which key. -/
structure KeySpace (db : Database) : Prop where
  job : ∀ i j r r' k, db.jobs.row i = some r → db.jobs.row j = some r' →
    r.idempotencyKey = some k → r'.idempotencyKey = some k → i = j
  series : ∀ i j s s' k, db.series.row i = some s → db.series.row j = some s' →
    s.idempotencyKey = some k → s'.idempotencyKey = some k → i = j
  first : ∀ sid s, db.series.row sid = some s → ∃ id r, db.jobs.row id = some r ∧
    r.seriesId = some sid ∧ r.occurrenceNumber = some 1 ∧
    r.idempotencyKey = s.idempotencyKey ∧ r.fingerprint = s.fingerprint
  latest : ∀ sid s, db.series.row sid = some s → ∃ id r, db.jobs.row id = some r ∧
    r.seriesId = some sid ∧ r.occurrenceNumber = some s.latestOccurrenceNumber
  owner : ∀ id r sid, db.jobs.row id = some r → r.seriesId = some sid → ∃ s,
    db.series.row sid = some s ∧ (r.idempotencyKey.isSome → r.occurrenceNumber = some 1 ∧
      s.idempotencyKey = r.idempotencyKey)

/-- What the operations other than scheduling do: a new job has no key and is the latest occurrence
of a series that is already there, with the message of that series. -/
structure Advances (db db' : Database) : Prop where
  grows : Grows db db'
  created : ∀ id r, db.jobs.row id = none → db'.jobs.row id = some r → r.idempotencyKey = none ∧
    r.messageId ≠ "" ∧ ∀ sid, r.seriesId = some sid →
      ∃ s, db.series.row sid = some s ∧ r.columns = s.columns
  opened : ∀ sid, db.series.row sid = none → db'.series.row sid = none
  latest : ∀ sid s s', db.series.row sid = some s → db'.series.row sid = some s' →
    s'.latestOccurrenceNumber = s.latestOccurrenceNumber ∨ ∃ id r, db'.jobs.row id = some r ∧
      r.seriesId = some sid ∧ r.occurrenceNumber = some s'.latestOccurrenceNumber

variable {db db' db'' : Database} {id sid : Uuid} {r r' r'' : DurableJob} {s s' s'' : JobSeries}

theorem SameJob.refl (r : DurableJob) : SameJob r r := ⟨rfl, rfl, rfl, rfl, rfl, rfl⟩

theorem SameJob.trans (h : SameJob r r') (h' : SameJob r' r'') : SameJob r r'' where
  series := h'.series.trans h.series
  number := h'.number.trans h.number
  message := h'.message.trans h.message
  key := h'.key.trans h.key
  fingerprint := h'.fingerprint.trans h.fingerprint
  columns := h'.columns.trans h.columns

theorem SameSeries.refl (s : JobSeries) : SameSeries s s := ⟨rfl, rfl, rfl, le_rfl⟩

theorem SameSeries.trans (h : SameSeries s s') (h' : SameSeries s' s'') : SameSeries s s'' where
  key := h'.key.trans h.key
  fingerprint := h'.fingerprint.trans h.fingerprint
  columns := h'.columns.trans h.columns
  latest := h.latest.trans h'.latest

namespace Grows

theorem refl (db : Database) : Grows db db :=
  ⟨fun _ r h => ⟨r, h, .refl r⟩, fun _ s h => ⟨s, h, .refl s⟩⟩

theorem trans (h : Grows db db') (h' : Grows db' db'') : Grows db db'' where
  job := by
    intro id r hr
    obtain ⟨r₁, hr₁, h₁⟩ := h.job id r hr
    obtain ⟨r₂, hr₂, h₂⟩ := h'.job id r₁ hr₁
    exact ⟨r₂, hr₂, h₁.trans h₂⟩
  series := by
    intro sid s hs
    obtain ⟨s₁, hs₁, h₁⟩ := h.series sid s hs
    obtain ⟨s₂, hs₂, h₂⟩ := h'.series sid s₁ hs₁
    exact ⟨s₂, hs₂, h₁.trans h₂⟩

/-- A row that was there is the row that is there. -/
theorem job_eq (h : Grows db db') (hr : db.jobs.row id = some r)
    (hr' : db'.jobs.row id = some r') : SameJob r r' := by
  obtain ⟨q, hq, hsame⟩ := h.job id r hr
  rw [hr'] at hq
  cases hq
  exact hsame

end Grows

theorem Advances.refl (db : Database) : Advances db db where
  grows := .refl db
  created := by
    intro id r hn hr
    rw [hn] at hr
    cases hr
  opened := fun _ h => h
  latest := by
    intro sid s s' hs hs'
    rw [hs] at hs'
    cases hs'
    exact .inl rfl

/-- What has a key: a job of its own, or a series. -/
def Database.Holds (db : Database) (key : String) : Uuid ⊕ Uuid → Prop
  | .inl id => ∃ r, db.jobs.row id = some r ∧ r.seriesId = none ∧ r.idempotencyKey = some key
  | .inr sid => ∃ s, db.series.row sid = some s ∧ s.idempotencyKey = some key

theorem Grows.holds (h : Grows db db') {key : String} {a : Uuid ⊕ Uuid} (ha : db.Holds key a) :
    db'.Holds key a := by
  cases a with
  | inl id =>
    obtain ⟨r, hr, hs, hk⟩ := ha
    obtain ⟨r', hr', hsame⟩ := h.job id r hr
    exact ⟨r', hr', hsame.series.trans hs, hsame.key.trans hk⟩
  | inr sid =>
    obtain ⟨s, hs, hk⟩ := ha
    obtain ⟨s', hs', hsame⟩ := h.series sid s hs
    exact ⟨s', hs', hsame.key.trans hk⟩

namespace KeySpace

theorem empty : KeySpace .empty where
  job := by
    intro i j r r' k hr
    cases hr
  series := by
    intro i j s s' k hs
    cases hs
  first := by
    intro sid s hs
    cases hs
  latest := by
    intro sid s hs
    cases hs
  owner := by
    intro id r sid hr
    cases hr

end KeySpace

section Insertions

/-- An insertion violates no constraint on keys. -/
theorem createJob_key {k : String} (h : db.createJob id r = .ok db') (hk : r.idempotencyKey = some k)
    {i : Uuid} {q : DurableJob} (hq : db.jobs.row i = some q) : q.idempotencyKey ≠ some k := by
  unfold createJob at h
  split at h
  · cases h
  rename_i hc
  simp only [jobConflicts, Bool.or_eq_true, not_or, Bool.not_eq_true, Table.any_eq_false] at hc
  have hrow := hc.1 i q hq
  intro hqk
  simp [sameColumn, hk, hqk] at hrow

end Insertions

namespace Grows

theorem insertJob (hn : db.jobs.row id = none) :
    Grows db { db with jobs := db.jobs.insert id r } where
  job := by
    intro i q hq
    have hi : i ≠ id := by
      rintro rfl
      rw [hn] at hq
      cases hq
    exact ⟨q, (Table.row_insert_ne hi).trans hq, .refl q⟩
  series := fun sid s hs => ⟨s, hs, .refl s⟩

theorem insertSeries (hn : db.series.row sid = none) :
    Grows db { db with series := db.series.insert sid s } where
  job := fun id r hr => ⟨r, hr, .refl r⟩
  series := by
    intro i q hq
    have hi : i ≠ sid := by
      rintro rfl
      rw [hn] at hq
      cases hq
    exact ⟨q, (Table.row_insert_ne hi).trans hq, .refl q⟩

end Grows

namespace KeySpace

/-- A job without a series is added. -/
theorem insertJob (h : KeySpace db) (hc : db.createJob id r = .ok db')
    (hs : r.seriesId = none) : KeySpace db' := by
  obtain ⟨rfl, hn, -, -⟩ := createJob_eq_ok hc
  have hg : Grows db { db with jobs := db.jobs.insert id r } := .insertJob hn
  refine ⟨?_, h.series, ?_, ?_, ?_⟩
  · intro i j p q k hp hq hpk hqk
    rcases Changes.insert_cases hp with ⟨rfl, rfl⟩ | hold
    · rcases Changes.insert_cases hq with ⟨rfl, -⟩ | hold'
      · rfl
      · exact absurd hqk (createJob_key hc hpk hold')
    · rcases Changes.insert_cases hq with ⟨rfl, rfl⟩ | hold'
      · exact absurd hpk (createJob_key hc hqk hold)
      · exact h.job i j p q k hold hold' hpk hqk
  · intro sid s hrow
    obtain ⟨i, q, hq, hsid, hnum, hkey, hf⟩ := h.first sid s hrow
    obtain ⟨q', hq', hj⟩ := hg.job i q hq
    exact ⟨i, q', hq', hj.series.trans hsid, hj.number.trans hnum, hj.key.trans hkey,
      hj.fingerprint.trans hf⟩
  · intro sid s hrow
    obtain ⟨i, q, hq, hsid, hnum⟩ := h.latest sid s hrow
    obtain ⟨q', hq', hj⟩ := hg.job i q hq
    exact ⟨i, q', hq', hj.series.trans hsid, hj.number.trans hnum⟩
  · intro i q sid hq hsid
    rcases Changes.insert_cases hq with ⟨-, rfl⟩ | hq
    · rw [hs] at hsid
      cases hsid
    · exact h.owner i q sid hq hsid

end KeySpace

section Others

variable [Texts] {env : Surroundings} {op : StoreOp}

/-- The columns that say what a job is never change. -/
theorem JobChange.same (h : JobChange db env op id r r') : SameJob r r' := by
  obtain ⟨hseries, hnumber, hmessage, -⟩ := h.identity
  refine ⟨hseries, hnumber, hmessage, ?_, ?_, ?_⟩
  all_goals
    cases h with
    | published _ _ _ _ =>
      unfold DurableJob.publish
      split <;> rfl
    | _ => rfl

theorem SeriesChange.same (h : SeriesChange db db' op sid s s') : SameSeries s s' := by
  cases h with
  | advanced _ _ => exact ⟨rfl, rfl, rfl, Nat.le_succ _⟩
  | _ => exact ⟨rfl, rfl, rfl, le_rfl⟩

theorem Changes.grows (h : Changes db env op db') : Grows db db' where
  job := by
    intro id r hr
    obtain ⟨r', hr', rfl | hc⟩ := h.job id r hr
    · exact ⟨r', hr', .refl r'⟩
    · exact ⟨r', hr', hc.same⟩
  series := by
    intro sid s hs
    obtain ⟨s', hs', rfl | hc⟩ := h.series sid s hs
    · exact ⟨s', hs', .refl s'⟩
    · exact ⟨s', hs', hc.same⟩

namespace Advances

/-- No rows are added and no series gets another occurrence. -/
theorem of_quiet (h : Changes db env op db')
    (hjobs : ∀ id, db.jobs.row id = none → db'.jobs.row id = none)
    (hseries : ∀ sid, db.series.row sid = none → db'.series.row sid = none)
    (hlatest : ∀ sid s s', db.series.row sid = some s → db'.series.row sid = some s' →
      s'.latestOccurrenceNumber = s.latestOccurrenceNumber) : Advances db db' where
  grows := h.grows
  created := by
    intro id r hn hr
    rw [hjobs id hn] at hr
    cases hr
  opened := hseries
  latest := fun sid s s' hs hs' => .inl (hlatest sid s s' hs hs')

theorem of_rewrites (h : Changes db env op db') (hrw : Rewrites db db') : Advances db db' := by
  refine of_quiet h hrw.jobs ?_ ?_
  · intro sid hn
    rw [hrw.series, hn]
  · intro sid s s' hs hs'
    rw [hrw.series, hs] at hs'
    cases hs'
    rfl

/-- A series ends, and one of its occurrences changes. -/
theorem of_touches {state : JobSeriesState} {finishedAt : Instant} (h : Changes db env op db')
    (hs : db.series.row sid = some s) (hr : db.jobs.row id = some r)
    (ht : Touches db db' sid (s.finish state finishedAt) id r') : Advances db db' := by
  refine of_quiet h ?_ ?_ ?_
  · intro i hn
    have hi : i ≠ id := by
      rintro rfl
      rw [hr] at hn
      cases hn
    rw [ht.job_ne i hi, hn]
  · intro i hn
    have hi : i ≠ sid := by
      rintro rfl
      rw [hs] at hn
      cases hn
    rw [ht.series_ne i hi, hn]
  · intro i q q' hq hq'
    by_cases hi : i = sid
    · subst hi
      rw [hs] at hq
      rw [ht.series] at hq'
      cases hq
      cases hq'
      rfl
    · rw [ht.series_ne i hi, hq] at hq'
      cases hq'
      rfl

theorem of_failed {series : Option (Uuid × JobSeries)} {finishedAt : Instant}
    (h : Changes db env op (failActiveSeries (db.setJob id r') series finishedAt))
    (hr : db.jobs.row id = some r) (hl : lockSeries db r.seriesId = .ok series) :
    Advances db (failActiveSeries (db.setJob id r') series finishedAt) := by
  unfold failActiveSeries at h ⊢
  split at h
  · rename_i sid s
    obtain ⟨-, hs⟩ := lockSeries_eq_some hl
    split at h
    · rename_i ha
      simp only [ha, if_true]
      exact of_touches h hs hr (.set hs hr)
    · rename_i ha
      simp only [ha, if_false]
      exact of_rewrites h (.setJob hr)
  · exact of_rewrites h (.setJob hr)

variable [Calendar] {result : HandlerResult Unit} {completedAt : Instant}

/-- An active series that goes on ends or gets its next occurrence, which has no key. -/
theorem advanceSeries_created
    (h : advanceSeries db sid s result completedAt env = .ok db') :
    db' = db.setSeries sid (s.finish .completed completedAt) ∨
    ∃ q, db.jobs.row env.fresh = none ∧ q.idempotencyKey = none ∧ q.messageId ≠ "" ∧
      q.columns = s.columns ∧ q.seriesId = some sid ∧
      q.occurrenceNumber = some (s.latestOccurrenceNumber + 1) ∧
      db' = { db with jobs := db.jobs.insert env.fresh q }.setSeries sid
        { s with latestOccurrenceNumber := s.latestOccurrenceNumber + 1 } := by
  have next : ∀ t, createNextOccurrence db sid s completedAt t env = .ok db' →
      ∃ q, db.jobs.row env.fresh = none ∧ q.idempotencyKey = none ∧ q.messageId ≠ "" ∧
        q.columns = s.columns ∧ q.seriesId = some sid ∧
        q.occurrenceNumber = some (s.latestOccurrenceNumber + 1) ∧
        db' = { db with jobs := db.jobs.insert env.fresh q }.setSeries sid
          { s with latestOccurrenceNumber := s.latestOccurrenceNumber + 1 } := by
    intro t ht
    obtain ⟨db₁, hdb₁, ht⟩ := MessageEnvelope.bind_eq_ok ht
    cases ht
    obtain ⟨rfl, hn, -, -⟩ := createJob_eq_ok hdb₁
    exact ⟨_, hn, rfl, uuidText_ne_empty _, rfl, rfl, rfl, rfl⟩
  unfold advanceSeries at h
  dsimp only at h
  split at h
  · cases h
    exact .inl rfl
  · split at h
    · cases h
    split at h
    · cases h
      exact .inl rfl
    · exact .inr (next _ h)
  · split at h
    · cases h
    · cases h
      exact .inl rfl
    · exact .inr (next _ h)

/-- An occurrence succeeds and its active series goes on. -/
theorem of_advanced (h : Changes db env op db') (hs : db.series.row sid = some s)
    (hr : db.jobs.row id = some r)
    (hadv : advanceSeries (db.setJob id r') sid s result completedAt env = .ok db') :
    Advances db db' := by
  rcases advanceSeries_created hadv with
    rfl | ⟨q, hfresh, hkey, hmessage, hcolumns, hsid, hnum, rfl⟩
  · exact of_touches h hs hr (.set hs hr)
  have hne : env.fresh ≠ id := by
    intro he
    rw [he, setJob_row hr] at hfresh
    cases hfresh
  have hseries : ∀ {db₁ : Database} {s'}, db₁.series = db.series →
      (db₁.setSeries sid s').series.row sid = some s' := by
    intro db₁ s' he
    exact setSeries_row (he ▸ hs)
  refine ⟨h.grows, ?_, ?_, ?_⟩
  · intro i p hn hp
    rcases Changes.insert_cases hp with ⟨-, rfl⟩ | hold
    · refine ⟨hkey, hmessage, fun sid' hsid' => ?_⟩
      rw [hsid] at hsid'
      cases hsid'
      exact ⟨s, hs, hcolumns⟩
    · have hi : i ≠ id := by
        rintro rfl
        rw [hr] at hn
        cases hn
      rw [setJob_row_ne hi, hn] at hold
      cases hold
  · intro i hn
    have hi : i ≠ sid := by
      rintro rfl
      rw [hs] at hn
      cases hn
    rw [setSeries_row_ne hi]
    exact hn
  · intro i p p' hp hp'
    by_cases hi : i = sid
    · subst hi
      obtain rfl := Option.some.inj ((hseries rfl).symm.trans hp')
      exact .inr ⟨env.fresh, q, Table.row_insert_self, hsid, hnum⟩
    · rw [setSeries_row_ne hi] at hp'
      left
      change db.series.row i = some p' at hp'
      rw [hp] at hp'
      cases hp'
      rfl

/-- What the operations other than scheduling do. -/
theorem of_run {a : op.Result} (hop : SchedulingOp.others op = true)
    (h : op.run env db = .ok (a, db')) : Advances db db' := by
  have hc := Changes.of_run h
  have hkept : db' = db → Advances db db' := by
    rintro rfl
    exact of_rewrites hc .refl
  cases op with
  | schedule d => cases hop
  | scheduleRecurring d => cases hop
  | cancelRecurring seriesId cancelledAt =>
    rcases cancelRecurring_spec h with he | ⟨sid, s, id, r, r', hs, -, hr, -, -, ht, -⟩
    · exact hkept he
    · exact of_touches hc hs hr ht
  | claim workerId now lease =>
    apply of_rewrites hc
    rcases claim_spec h with ⟨-, rfl⟩ | ⟨id, r, -, hr, -, -, hrow, rfl⟩
    · exact .sweep
    · exact Rewrites.sweep.trans (.setJob hrow)
  | markPublished c now due =>
    rcases markPublished_spec h with ⟨hrw, -⟩ | he | ⟨id, r, series, hr, hl, -, rfl⟩
    · exact of_rewrites hc hrw
    · exact hkept he
    · exact of_failed hc hr hl
  | markPublishIndeterminate c now due =>
    apply of_rewrites hc
    simp only [StoreOp.run, markPublishIndeterminate, bind, Except.bind, pure, Except.pure] at h
    split at h
    · cases h
    rename_i x hx
    split at h
    · cases h
      exact .refl
    · cases h
      exact .setJob (claimedRow_eq_some hx).2.1
  | admitDelivery a =>
    apply of_rewrites hc
    rcases admitDelivery_spec h with ⟨id, r, -, -, hr, -, -, -, rfl⟩ |
      ⟨id, r, -, -, hr, -, -, -, -, rfl⟩ | ⟨-, rfl⟩
    · exact .setJob hr
    · exact .setJob hr
    · exact .refl
  | checkpointSettlement s =>
    apply of_rewrites hc
    simp only [StoreOp.run, checkpointSettlement, bind, Except.bind, pure, Except.pure, throw,
      throwThe, MonadExceptOf.throw] at h
    split at h
    · cases h
    rename_i x hx
    split at h
    · cases h
    cases h
    exact guardedSeriesUpdate_rewrites hx
  | releaseDelivery recordId generation due =>
    apply of_rewrites hc
    simp only [StoreOp.run, releaseDelivery, bind, Except.bind, pure, Except.pure, throw,
      throwThe, MonadExceptOf.throw] at h
    split at h
    · cases h
    rename_i x hx
    split at h
    · cases h
    cases h
    exact guardedSeriesUpdate_rewrites hx
  | applyOutcome o due =>
    rcases applyOutcome_spec h with he | ⟨recordId, id, r, -, -, -, hr, -, -, rfl⟩ |
      ⟨-, hrw⟩ | ⟨id, r, series, hr, hl, -, rfl⟩
    · exact hkept he
    · exact of_rewrites hc (.setJob hr)
    · exact of_rewrites hc hrw
    · exact of_failed hc hr hl
  | completeRecurringSuccess o result completedAt =>
    rcases completeRecurringSuccess_spec h with he |
      ⟨recordId, id, sid, r, s, -, -, -, hr, -, -, -, hs, ⟨-, rfl⟩ | ⟨-, hadv⟩⟩
    · exact hkept he
    · exact of_rewrites hc (.setJob hr)
    · exact of_advanced hc hs hr hadv

end Advances

end Others

end Pybus
