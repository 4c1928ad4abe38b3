import Pybus.StoreRuns

/-! The release of an admitted delivery, which undoes its admission as far as the row had not been
started before. -/
namespace Pybus

open Texts Interaction DjangoDurableJobStore

section Releases

variable [Texts]

/-- Two puttings of one delivery to the store, at two times. -/
def SameDelivery (a a' : DurableDeliveryAdmission) : Prop :=
  a' = { a with admittedAt := a'.admittedAt, reconciliationDueAt := a'.reconciliationDueAt }

/-- A row as it was before an admission, waiting for the delivery again. -/
structure Restored (r r' : DurableJob) : Prop where
  retryCount : r'.retryCount = r.retryCount
  queue : r'.queue = r.queue
  lastAttemptAt : r'.lastAttemptAt = r.lastAttemptAt
  startedAt : r'.startedAt = r.startedAt

/-- Whoever puts the delivery to the store again is told to proceed. -/
def Redeliverable (a : DurableDeliveryAdmission) (id : Uuid) (r : DurableJob) : Prop :=
  r.state = .published ∧ r.reconciliationDueAt.isSome ∧
    ∀ a' db env, SameDelivery a a' → db.jobs.row id = some r → seriesOpen db r = true →
      ∃ db', admitDelivery a' env db = .ok (.proceed, db')

/-- A release gives the row back. -/
def Undoes (a : DurableDeliveryAdmission) (id : Uuid) (r : DurableJob) (db : Database)
    (due : Instant) (env : Surroundings) : Prop :=
  ∃ db' r', releaseDelivery a.recordId a.generation due env db = .ok ((), db') ∧
    db'.jobs.row id = some r' ∧ Restored r r' ∧ Redeliverable a id r'

variable {db db₁ db₂ : Database} {a a' : DurableDeliveryAdmission} {id : Uuid} {r : DurableJob}
  {now due : Instant} {env env' : Surroundings}

/-- The row that an admission leaves. -/
theorem admitDelivery_row (hid : uuidFromText a.recordId = some id) (hr : db.jobs.row id = some r)
    (hproceeds : admitDelivery a env db = .ok (.proceed, db₁)) :
    r.generation = a.generation ∧ decideAdmission a r = .proceed ∧
      db₁.jobs.row id = some (r.admitted a env.now) := by
  obtain ⟨i, q, -, hi, hq, hgen, -, hd, rfl⟩ | ⟨_, _, hdrop, -⟩ | ⟨hne, -⟩ :=
    admitDelivery_spec hproceeds
  · obtain rfl : i = id := Option.some.inj (hi.symm.trans hid)
    obtain rfl : q = r := Option.some.inj (hq.symm.trans hr)
    exact ⟨hgen, hd, Database.setJob_row hr⟩
  · cases hdrop
  · exact absurd rfl hne

/-- The release of an admitted row. -/
theorem releaseDelivery_admitted (hid : uuidFromText a.recordId = some id)
    (hr : db.jobs.row id = some (r.admitted a now)) (hgen : r.generation = a.generation)
    (ho : seriesOpen db (r.admitted a now) = true) :
    releaseDelivery a.recordId a.generation due env db =
      .ok ((), db.setJob id ((r.admitted a now).release due)) := by
  have hp : decide ((r.admitted a now).generation = a.generation) = true := decide_eq_true hgen
  have hupdate : guardedSeriesUpdate a.recordId (fun r => r.generation = a.generation) .running
      (·.release due) env.now db = .ok (1, db.setJob id ((r.admitted a now).release due)) :=
    guardedSeriesUpdate_open hid hr hp ho
  rw [releaseDelivery, hupdate]
  rfl

/-- The released row takes the delivery as the row before it did. -/
theorem decideAdmission_released (hd : decideAdmission a r = .proceed) (hs : SameDelivery a a') :
    decideAdmission a' ((r.admitted a now).release due) = .proceed := by
  obtain ⟨-, -, hm, -, hmax⟩ := decideAdmission_proceed hd
  have hsame : { r with queue := a.sourceQueue } = r := by
    simp only [DurableJob.matchesAdmission, Bool.and_eq_true, decide_eq_true_eq] at hm
    rw [← hm.1.2]
  have hlimit : r.maxRetries.getD a.maxRetries = a.maxRetries := by
    cases hs : r.maxRetries with
    | none => rfl
    | some m => simpa [hs] using hmax (by simp [hs])
  unfold SameDelivery at hs
  generalize a'.admittedAt = admittedAt at hs
  generalize a'.reconciliationDueAt = dueAt at hs
  subst hs
  have hmatch : ((r.admitted a now).release due).matchesAdmission { a with
      admittedAt := admittedAt, reconciliationDueAt := dueAt } = true := by
    -- The columns compared are those of the row before, but for the queue, which is the same.
    change DurableJob.matchesAdmission { r with queue := a.sourceQueue } a = true
    rw [hsame]
    exact hm
  have hcount : ((r.admitted a now).release due).retryCount = a.retryCount := rfl
  have hmax' : ((r.admitted a now).release due).maxRetries = some a.maxRetries :=
    congrArg some hlimit
  have hstate : ((r.admitted a now).release due).state = .published := rfl
  simp [decideAdmission, hstate, hmatch, hcount, hmax']

theorem redeliverable_released (hid : uuidFromText a.recordId = some id)
    (hgen : r.generation = a.generation) (hd : decideAdmission a r = .proceed) :
    Redeliverable a id ((r.admitted a now).release due) := by
  refine ⟨rfl, rfl, ?_⟩
  intro a' db env hs hr ho
  have hid' : uuidFromText a'.recordId = some id := by
    rw [hs]
    exact hid
  have hgen' : ((r.admitted a now).release due).generation = a'.generation := by
    rw [hs]
    exact hgen
  exact ⟨_, admitDelivery_open hid' hr hgen' ho ⟨rfl, by simp [DurableJob.release]⟩
    (decideAdmission_released hd hs)⟩

/-- A released row was never started. -/
theorem startedAt_of_undoes (hid : uuidFromText a.recordId = some id)
    (hr : db.jobs.row id = some (r.admitted a now)) (hgen : r.generation = a.generation)
    (ho : seriesOpen db (r.admitted a now) = true) (h : Undoes a id r db due env) :
    r.startedAt = none := by
  obtain ⟨db', r', hdb, hr', hrestored, -⟩ := h
  have hsame := (releaseDelivery_admitted hid hr hgen ho).symm.trans hdb
  cases hsame
  rw [Database.setJob_row hr] at hr'
  obtain rfl := Option.some.inj hr'
  exact hrestored.startedAt.symm

theorem undoes_of_unstarted (hid : uuidFromText a.recordId = some id)
    (hr : db.jobs.row id = some (r.admitted a now)) (hgen : r.generation = a.generation)
    (ho : seriesOpen db (r.admitted a now) = true) (hd : decideAdmission a r = .proceed)
    (hnone : r.startedAt = none) : Undoes a id r db due env := by
  obtain ⟨-, -, hm, hcount, -⟩ := decideAdmission_proceed hd
  simp only [DurableJob.matchesAdmission, Bool.and_eq_true, decide_eq_true_eq] at hm
  exact ⟨_, _, releaseDelivery_admitted hid hr hgen ho, Database.setJob_row hr,
    ⟨hcount, hm.1.2.symm, rfl, hnone.symm⟩, redeliverable_released hid hgen hd⟩

/-- The release of an admitted delivery gives the row back exactly when no earlier attempt had
started it: a release forgets when that was. -/
theorem release_undoes_admission_iff (hid : uuidFromText a.recordId = some id)
    (hr : db.jobs.row id = some r) (hproceeds : admitDelivery a env db = .ok (.proceed, db₁))
    (hkept : db₂.jobs.row id = db₁.jobs.row id) (ho : seriesOpen db₂ r = true) :
    Undoes a id r db₂ due env' ↔ r.startedAt = none := by
  obtain ⟨hgen, hd, hrow⟩ := admitDelivery_row hid hr hproceeds
  rw [hrow] at hkept
  constructor
  · exact startedAt_of_undoes hid hkept hgen ho
  · exact undoes_of_unstarted hid hkept hgen ho hd

end Releases

section Sample

local instance releaseTexts : Texts := .sample
local instance releaseCalendar : Calendar := .daily

/-- A first attempt that is retried. -/
def sampleRetried : List (StoreOp × Surroundings) :=
  [(.schedule sampleDraft, sampleSurroundings), (.claim "w" 0 30000000, sampleSurroundings),
    (.admitDelivery sampleAdmission, sampleSurroundings),
    (.checkpointSettlement
      { recordId := sampleAdmission.recordId, generation := 1, status := .retryScheduled
        sourceQueue := "pybus.jobs", destinationQueue := some "pybus.jobs", retryCount := 1
        maxRetries := 1, reconciliationDueAt := 300000000, lastAttemptAt := some 0 },
      sampleSurroundings),
    (.applyOutcome (sampleOutcome .retryScheduled 1) 300000000, sampleSurroundings)]

/-- The delivery of the retry. -/
def sampleSecondAdmission : DurableDeliveryAdmission :=
  { sampleAdmission with retryCount := 1, lastAttemptAt := some 0 }

theorem release_undoes_admission_iff_first :
    ∃ r db, (runAll (sampleRetried.take 2) .empty).2.jobs.row 1 = some r ∧
      (Undoes sampleAdmission 1 r db 300000000 sampleSurroundings ↔ r.startedAt = none) := by
  obtain ⟨⟨decision, db⟩, hproceeds, hrow⟩ := exists_ok (show
    (admitDelivery sampleAdmission sampleSurroundings
      (runAll (sampleRetried.take 2) .empty).2).toOption.any (fun x => x.1 = .proceed &&
        ((runAll (sampleRetried.take 2) .empty).2.jobs.row 1).any (fun r => r.seriesId = none)) =
      true by decide)
  simp only [Bool.and_eq_true, decide_eq_true_eq, Option.any_eq_true] at hrow
  obtain ⟨rfl, r, hr, hs⟩ := hrow
  exact ⟨r, db, hr, release_undoes_admission_iff (by decide) hr hproceeds rfl
    (by simp [seriesOpen, hs])⟩

/-- The second attempt of a job is released without the time of its first. -/
theorem release_forgets_start :
    ∃ r db, Path StoreStep .empty (runAll sampleRetried .empty).1 (runAll sampleRetried .empty).2 ∧
      (runAll sampleRetried .empty).2.jobs.row 1 = some r ∧ r.startedAt = some 0 ∧
      r.seriesId = none ∧
      admitDelivery sampleSecondAdmission sampleSurroundings (runAll sampleRetried .empty).2 =
        .ok (.proceed, db) ∧
      ¬ Undoes sampleSecondAdmission 1 r db 300000000 sampleSurroundings := by
  obtain ⟨⟨decision, db⟩, hproceeds, hrow⟩ := exists_ok (show
    (admitDelivery sampleSecondAdmission sampleSurroundings
      (runAll sampleRetried .empty).2).toOption.any (fun x => x.1 = .proceed &&
        ((runAll sampleRetried .empty).2.jobs.row 1).any (fun r =>
          r.seriesId = none && r.startedAt = some 0)) = true by decide)
  simp only [Bool.and_eq_true, decide_eq_true_eq, Option.any_eq_true] at hrow
  obtain ⟨rfl, r, hr, hs, hstarted⟩ := hrow
  have hid : uuidFromText sampleSecondAdmission.recordId = some 1 := by decide
  obtain ⟨hgen, -, hadmitted⟩ := admitDelivery_row hid hr hproceeds
  refine ⟨r, db, runAll_path sampleRetried .empty, hr, hstarted, hs, hproceeds, ?_⟩
  intro h
  have hnone := startedAt_of_undoes hid hadmitted hgen
    (by simp [seriesOpen, DurableJob.admitted, hs]) h
  simp [hstarted] at hnone

end Sample

end Pybus
