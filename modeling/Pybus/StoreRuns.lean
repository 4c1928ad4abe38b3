import Pybus.Interaction.Paths
import Pybus.Transitions

/-! Runs of the store: any operations with any arguments, in any order, from an empty database. -/
namespace Pybus

open Texts Interaction DjangoDurableJobStore

/-- One operation, what it found around it, and how it ended. -/
structure StoreEvent where
  op : StoreOp
  env : Surroundings
  result : Except Exc op.Result

/-- An operation runs as one transaction: when it raises it leaves the database as it was. -/
inductive StoreStep [Texts] [Calendar] : Database → StoreEvent → Database → Prop
  | ok {db db' : Database} {op : StoreOp} {env : Surroundings} {a : op.Result} :
      op.run env db = .ok (a, db') → StoreStep db ⟨op, env, .ok a⟩ db'
  | error {db : Database} {op : StoreOp} {env : Surroundings} {exc : Exc} :
      op.run env db = .error exc → StoreStep db ⟨op, env, .error exc⟩ db

/-- The claim an event returned, if it is a successful `claim`. -/
def StoreEvent.claimed (e : StoreEvent) : Option DurableJobClaim :=
  match e with
  | ⟨.claim _ _ _, _, .ok (some c)⟩ => some c
  | _ => none

/-- The pairs of job and generation that the claims of a run returned. -/
def claimedGenerations (es : List StoreEvent) : List (String × Nat) :=
  es.filterMap fun e => e.claimed.map fun c => (c.id, c.generation)

/-- What later operations keep of a row: the generation never falls, and a terminal row is
finished. -/
def Settles (r r' : DurableJob) : Prop :=
  r.generation ≤ r'.generation ∧
  (r.state.terminal = true → r'.state = r.state ∧ r'.generation = r.generation ∧
    r'.retryCount = r.retryCount ∧ r'.queue = r.queue ∧ r'.finishedAt = r.finishedAt)

theorem Settles.refl (r : DurableJob) : Settles r r := ⟨le_rfl, fun _ => ⟨rfl, rfl, rfl, rfl, rfl⟩⟩

theorem Settles.trans {r r' r'' : DurableJob} (h : Settles r r') (h' : Settles r' r'') :
    Settles r r'' := by
  refine ⟨h.1.trans h'.1, fun ht => ?_⟩
  obtain ⟨h₁, h₂, h₃, h₄, h₅⟩ := h.2 ht
  have ht' : r'.state.terminal = true := by rw [h₁, ht]
  obtain ⟨k₁, k₂, k₃, k₄, k₅⟩ := h'.2 ht'
  exact ⟨k₁.trans h₁, k₂.trans h₂, k₃.trans h₃, k₄.trans h₄, k₅.trans h₅⟩

/-- What later operations keep of a series: once it has left `ACTIVE` it is finished. -/
def SeriesSettles (s s' : JobSeries) : Prop :=
  s.state ≠ .active →
    s'.state = s.state ∧ s'.latestOccurrenceNumber = s.latestOccurrenceNumber

section Runs

variable [Texts] [Calendar] {db db' : Database} {e : StoreEvent} {es es' : List StoreEvent}
  {id sid : Uuid} {r : DurableJob} {s : JobSeries}

/-- The run that a list of operations makes, with its final database. -/
def runAll : List (StoreOp × Surroundings) → Database → List StoreEvent × Database
  | [], db => ([], db)
  | (op, env) :: ops, db =>
    match op.run env db with
    | .ok (a, db') => (⟨op, env, .ok a⟩ :: (runAll ops db').1, (runAll ops db').2)
    | .error exc => (⟨op, env, .error exc⟩ :: (runAll ops db).1, (runAll ops db).2)

/-- Every list of operations can be run: an operation that raises is a step as well. -/
theorem runAll_path (ops : List (StoreOp × Surroundings)) (db : Database) :
    Path StoreStep db (runAll ops db).1 (runAll ops db).2 := by
  induction ops generalizing db with
  | nil => exact .refl db
  | cons o ops ih =>
    obtain ⟨op, env⟩ := o
    unfold runAll
    split
    · rename_i h
      exact .head (.ok h) (ih _)
    · rename_i h
      exact .head (.error h) (ih _)

theorem StoreStep.changes (h : StoreStep db e db') : Changes db e.env e.op db' := by
  cases h with
  | ok h => exact Changes.of_run h
  | error _ => exact Changes.refl

theorem settles_step (h : StoreStep db e db') (hr : db.jobs.row id = some r) :
    ∃ r', db'.jobs.row id = some r' ∧ Settles r r' := by
  obtain ⟨r', hr', rfl | hc⟩ := h.changes.job id r hr
  · exact ⟨r', hr', .refl r'⟩
  · refine ⟨r', hr', hc.generation_le, fun ht => ?_⟩
    simp [hc.nonterminal] at ht

theorem seriesSettles_step (h : StoreStep db e db') (hs : db.series.row sid = some s) :
    ∃ s', db'.series.row sid = some s' ∧ SeriesSettles s s' := by
  obtain ⟨s', hs', rfl | hc⟩ := h.changes.series sid s hs
  · exact ⟨s', hs', fun _ => ⟨rfl, rfl⟩⟩
  · exact ⟨s', hs', fun hn => absurd hc.active hn⟩

theorem settles_run (h : Path StoreStep db es db') (hr : db.jobs.row id = some r) :
    ∃ r', db'.jobs.row id = some r' ∧ Settles r r' := by
  induction h generalizing r with
  | refl => exact ⟨r, hr, .refl r⟩
  | head hs _ ih =>
    obtain ⟨r₁, hr₁, h₁⟩ := settles_step hs hr
    obtain ⟨r₂, hr₂, h₂⟩ := ih hr₁
    exact ⟨r₂, hr₂, h₁.trans h₂⟩

theorem seriesSettles_run (h : Path StoreStep db es db') (hs : db.series.row sid = some s) :
    ∃ s', db'.series.row sid = some s' ∧ SeriesSettles s s' := by
  induction h generalizing s with
  | refl => exact ⟨s, hs, fun _ => ⟨rfl, rfl⟩⟩
  | head hst _ ih =>
    obtain ⟨s₁, hs₁, h₁⟩ := seriesSettles_step hst hs
    obtain ⟨s₂, hs₂, h₂⟩ := ih hs₁
    refine ⟨s₂, hs₂, fun hn => ?_⟩
    have hn₁ : s₁.state ≠ .active := by rw [(h₁ hn).1]; exact hn
    exact ⟨(h₂ hn₁).1.trans (h₁ hn).1, (h₂ hn₁).2.trans (h₁ hn).2⟩

/-- A claim hands out the generation it has just given to its row. -/
theorem claimed_step {c : DurableJobClaim} (h : StoreStep db e db') (hc : e.claimed = some c) :
    ∃ id r r', c.id = uuidText id ∧ db.jobs.row id = some r ∧ db'.jobs.row id = some r' ∧
      c.generation = r.generation + 1 ∧ r'.generation = c.generation := by
  cases h with
  | @ok _ op env a h =>
    cases op with
    | claim workerId now lease =>
      cases a with
      | none => simp [StoreEvent.claimed] at hc
      | some c' =>
        obtain rfl : c' = c := by simpa [StoreEvent.claimed] using hc
        obtain ⟨hx, -⟩ | ⟨id, r, hx, hr, -, -, hs, rfl⟩ := claim_spec h
        · cases hx
        · injection hx with hx
          subst hx
          exact ⟨id, r, _, rfl, hr, Database.setJob_row hs, rfl, rfl⟩
    | _ => simp [StoreEvent.claimed] at hc
  | @error op env exc h =>
    cases op <;> simp [StoreEvent.claimed] at hc

/-- Every claim of a run is for a generation above the one its job had at the start. -/
theorem claimed_above {g : Nat} (h : Path StoreStep db es db') (hr : db.jobs.row id = some r)
    (hm : (uuidText id, g) ∈ claimedGenerations es) : r.generation < g := by
  induction h generalizing r with
  | refl => simp [claimedGenerations] at hm
  | @head _ _ _ e es hs hp ih =>
    obtain ⟨r₁, hr₁, hset⟩ := settles_step hs hr
    simp only [claimedGenerations, List.filterMap_cons] at hm
    cases hc : e.claimed with
    | none =>
      simp only [hc, Option.map_none] at hm
      have := ih hr₁ hm
      have := hset.1
      omega
    | some c =>
      simp only [hc, Option.map_some, List.mem_cons, Prod.mk.injEq] at hm
      obtain ⟨hid, rfl⟩ | hm := hm
      · obtain ⟨i, q, q', hi, hq, hq', hg, -⟩ := claimed_step hs hc
        obtain rfl : id = i := uuidText_injective (hid.trans hi)
        obtain rfl : r = q := by simpa [hr] using hq
        omega
      · have := ih hr₁ hm
        have := hset.1
        omega

/-- No two claims of a run return the same job and generation. -/
theorem claimedGenerations_nodup (h : Path StoreStep db es db') :
    (claimedGenerations es).Nodup := by
  induction h with
  | refl => exact List.nodup_nil
  | @head _ _ _ e es hs hp ih =>
    simp only [claimedGenerations, List.filterMap_cons]
    cases hc : e.claimed with
    | none => exact ih
    | some c =>
      refine List.nodup_cons.mpr ⟨?_, ih⟩
      intro hm
      obtain ⟨i, q, q', hi, hq, hq', -, hg⟩ := claimed_step hs hc
      have hm' : (uuidText i, c.generation) ∈ claimedGenerations es := hi ▸ hm
      have := claimed_above hp hq' hm'
      omega

/-- Terminal jobs and finished series stay as they are in every run, generations never fall, and
no generation of a job is handed out twice. -/
theorem terminal_states_absorb (hreach : Path StoreStep .empty es db)
    (h : Path StoreStep db es' db') :
    (∀ id r, db.jobs.row id = some r → ∃ r', db'.jobs.row id = some r' ∧
      r.generation ≤ r'.generation ∧
      (r.state ∈ [.succeeded, .deadLettered, .cancelled] →
        r'.state = r.state ∧ r'.generation = r.generation ∧ r'.retryCount = r.retryCount ∧
          r'.queue = r.queue ∧ r'.finishedAt = r.finishedAt)) ∧
    (∀ sid s, db.series.row sid = some s → ∃ s', db'.series.row sid = some s' ∧
      (s.state ≠ .active →
        s'.state = s.state ∧ s'.latestOccurrenceNumber = s.latestOccurrenceNumber)) ∧
    (claimedGenerations (es ++ es')).Nodup := by
  refine ⟨?_, ?_, claimedGenerations_nodup (hreach.append h)⟩
  · intro id r hr
    obtain ⟨r', hr', hg, hset⟩ := settles_run h hr
    refine ⟨r', hr', hg, fun hst => hset ?_⟩
    cases hs : r.state <;> simp_all [DurableJobState.terminal]
  · intro sid s hs
    exact seriesSettles_run h hs

end Runs

section Sample

local instance : Texts := .sample
local instance : Calendar := .daily

def sampleDraft : DurableJobDraft where
  messageId := "m1"
  messageType := "invoice.send"
  version := 1
  payload := .dict []
  headers := []
  createdAt := 0
  availableAt := 0
  queue := "pybus.jobs"
  fingerprint := "f"

def sampleAdmission : DurableDeliveryAdmission where
  recordId := "00000000-0000-0000-0000-000000000001"
  generation := 1
  sourceQueue := "pybus.jobs"
  retryCount := 0
  maxRetries := 1
  messageId := .str "m1"
  messageType := .str "invoice.send"
  version := 1
  payload := .dict []
  applicationHeaders := []
  admittedAt := some 0
  reconciliationDueAt := some 300000000

def sampleOutcome (status : CommandDeliveryStatus) (retryCount : Nat) : CommandDeliveryOutcome where
  status := status
  messageId := .str "m1"
  messageType := .str "invoice.send"
  version := 1
  sourceQueue := "pybus.jobs"
  destinationQueue := some "pybus.jobs"
  retryCount := retryCount
  maxRetries := 1
  durableRecordId := some "00000000-0000-0000-0000-000000000001"
  durableGeneration := some 1

def sampleSurroundings : Surroundings := ⟨0, 1, 2, false, []⟩

/-- A job is scheduled, claimed, admitted and succeeds. -/
def sampleSuccess : List (StoreOp × Surroundings) :=
  [(.schedule sampleDraft, sampleSurroundings), (.claim "w" 0 30000000, sampleSurroundings),
    (.admitDelivery sampleAdmission, sampleSurroundings),
    (.applyOutcome (sampleOutcome .succeeded 0) 300000000, sampleSurroundings)]

/-- Everything that comes too late for it. -/
def sampleLate : List (StoreOp × Surroundings) :=
  [(.claim "w" 400000000 430000000, sampleSurroundings),
    (.admitDelivery sampleAdmission, sampleSurroundings),
    (.applyOutcome (sampleOutcome .retryScheduled 1) 300000000, sampleSurroundings)]

theorem terminal_states_absorb_late :
    ∃ r, (runAll sampleLate (runAll sampleSuccess .empty).2).2.jobs.row 1 = some r ∧
      r.state = .succeeded ∧ r.generation = 1 := by
  have h := terminal_states_absorb (runAll_path sampleSuccess .empty)
    (runAll_path sampleLate (runAll sampleSuccess .empty).2)
  obtain ⟨r, hr, hp⟩ := (Option.any_eq_true _ _).mp (show
    ((runAll sampleSuccess .empty).2.jobs.row 1).any
      (fun r => r.state = .succeeded && r.generation = 1) = true by decide)
  simp only [Bool.and_eq_true, decide_eq_true_eq] at hp
  obtain ⟨r', hr', -, hk⟩ := h.1 1 r hr
  obtain ⟨hs, hg, -⟩ := hk (by simp [hp.1])
  exact ⟨r', hr', hs.trans hp.1, hg.trans hp.2⟩

end Sample

section Fencing

variable [Texts] [Calendar] {db db' : Database} {e : StoreEvent} {es : List StoreEvent}
  {id : Uuid} {r : DurableJob}

/-- The record and the generation that an operation names, as far as it carries a generation. -/
def StoreOp.fence : StoreOp → Option (String × Int)
  | .markPublished c _ _ | .markPublishIndeterminate c _ _ => some (c.id, c.generation)
  | .admitDelivery a => some (a.recordId, a.generation)
  | .checkpointSettlement s => some (s.recordId, s.generation)
  | .releaseDelivery recordId generation _ => some (recordId, generation)
  | .applyOutcome o _ | .completeRecurringSuccess o _ _ =>
    match o.durableRecordId, o.durableGeneration with
    | some recordId, some generation => some (recordId, generation)
    | _, _ => none
  | _ => none

/-- The foreign key: a job names a series that exists. -/
def SeriesExist (db : Database) : Prop :=
  ∀ id r sid, db.jobs.row id = some r → r.seriesId = some sid → ∃ s, db.series.row sid = some s

theorem seriesExist_step (h : StoreStep db e db') (hi : SeriesExist db) : SeriesExist db' := by
  intro id r' sid hr' hsid
  cases hr : db.jobs.row id with
  | none =>
    obtain ⟨s, hs, -⟩ := (h.changes.created id r' hr hr').latest sid hsid
    exact ⟨s, hs⟩
  | some r =>
    obtain ⟨q, hq, hcase⟩ := h.changes.job id r hr
    obtain rfl : q = r' := by simpa [hq] using hr'
    have hser : r.seriesId = some sid := by
      obtain rfl | hc := hcase
      · exact hsid
      · rw [← hc.identity.1, hsid]
    obtain ⟨s, hs⟩ := hi id r sid hr hser
    obtain ⟨s', hs', -⟩ := h.changes.series sid s hs
    exact ⟨s', hs'⟩

theorem seriesExist_run (h : Path StoreStep .empty es db) : SeriesExist db :=
  h.invariant (fun _ _ _ => seriesExist_step) (by intro id r sid hr; simp [Database.empty] at hr)

section Operations

omit [Calendar]

variable {recordId : String} {generation : Nat} {g : Int} {c : DurableJobClaim}
  {a : DurableDeliveryAdmission} {o : CommandDeliveryOutcome} (env : Surroundings)

/-- A guarded update whose filters the row does not pass. -/
theorem guardedSeriesUpdate_filtered {p : DurableJob → Bool} {st : DurableJobState}
    {f : DurableJob → DurableJob} {cancelledAt : Instant} (hid : uuidFromText recordId = some id)
    (hr : db.jobs.row id = some r) (hp : p r = false) :
    guardedSeriesUpdate recordId p st f cancelledAt db = .ok (0, db) := by
  simp [guardedSeriesUpdate, hid, hr, hp, pure, Except.pure]

theorem claimedRow_fenced (hid : uuidFromText c.id = some id) (hr : db.jobs.row id = some r)
    (hne : r.generation ≠ c.generation) : claimedRow db c = .ok none := by
  simp [claimedRow, hid, hr, hne]

theorem outcomeRow_fenced (hid : uuidFromText recordId = some id) (hr : db.jobs.row id = some r)
    (hg : o.durableGeneration = some g) (hne : (r.generation : Int) ≠ g) :
    outcomeRow db o recordId = .ok none := by
  have hm : r.matchesOutcome o = false := by
    have : ¬ g = (r.generation : Int) := fun h => hne h.symm
    simp [DurableJob.matchesOutcome, hg, this]
  simp [outcomeRow, hid, hr, hm]

theorem markPublished_fenced {now due : Instant} (hid : uuidFromText c.id = some id)
    (hr : db.jobs.row id = some r) (hne : r.generation ≠ c.generation)
    (h : markPublished c now due db = .ok ((), db')) : db' = db := by
  unfold markPublished at h
  split at h
  · simp only [finishDeadLetterFromClaim, hid, hr, hne, bind, Except.bind, pure, Except.pure] at h
    split at h
    · cases h
    · simpa using h.symm
  · simpa [claimedRow_fenced hid hr hne, bind, Except.bind, pure, Except.pure] using h.symm

theorem markPublishIndeterminate_fenced (due : Instant) (hid : uuidFromText c.id = some id)
    (hr : db.jobs.row id = some r) (hne : r.generation ≠ c.generation) :
    markPublishIndeterminate c due db = .ok ((), db) := by
  simp [markPublishIndeterminate, claimedRow_fenced hid hr hne, bind, Except.bind, pure,
    Except.pure]

/-- A delivery of another generation is not looked at any further. -/
theorem admitDelivery_fenced (hexist : SeriesExist db) (hid : uuidFromText a.recordId = some id)
    (hr : db.jobs.row id = some r) :
    (a.generation < r.generation → admitDelivery a env db = .ok (.drop, db)) ∧
    (r.generation < a.generation → admitDelivery a env db = .ok (.abort, db)) := by
  have hlock : ∃ x, lockSeries db r.seriesId = .ok x := by
    unfold lockSeries
    split
    · exact ⟨_, rfl⟩
    · rename_i sid hsid
      obtain ⟨s, hs⟩ := hexist id r sid hr hsid
      exact ⟨some (sid, s), by rw [hs]⟩
  obtain ⟨x, hx⟩ := hlock
  constructor
  · intro hlt
    have hnlt : ¬ r.generation < a.generation := by omega
    simp [admitDelivery, hid, hr, hx, hnlt, hlt, bind, Except.bind, pure, Except.pure]
  · intro hlt
    simp [admitDelivery, hid, hr, hx, hlt, bind, Except.bind, pure, Except.pure]

theorem checkpointSettlement_fenced {s : DurableSettlement}
    (hid : uuidFromText s.recordId = some id) (hr : db.jobs.row id = some r)
    (hne : r.generation ≠ s.generation) :
    checkpointSettlement s env db =
      .error (.runtimeError "durable settlement no longer owns the active generation") := by
  rw [checkpointSettlement, guardedSeriesUpdate_filtered hid hr (by simp [hne])]
  rfl

theorem releaseDelivery_fenced (due : Instant) (hid : uuidFromText recordId = some id)
    (hr : db.jobs.row id = some r) (hne : r.generation ≠ generation) :
    releaseDelivery recordId generation due env db =
      .error (.runtimeError "durable delivery admission could not be released") := by
  rw [releaseDelivery, guardedSeriesUpdate_filtered hid hr (by simp [hne])]
  rfl

theorem applyOutcome_fenced (due : Instant) (hrec : o.durableRecordId = some recordId)
    (hid : uuidFromText recordId = some id) (hr : db.jobs.row id = some r)
    (hg : o.durableGeneration = some g) (hne : (r.generation : Int) ≠ g) :
    applyOutcome o due env db = .ok ((), db) := by
  have hm : r.matchesOutcome o = false := by
    have : ¬ g = (r.generation : Int) := fun h => hne h.symm
    simp [DurableJob.matchesOutcome, hg, this]
  have hrow := outcomeRow_fenced hid hr hg hne
  unfold applyOutcome
  simp only [hrec, hg, hid, Option.isNone_some, Bool.false_eq_true, if_false]
  split
  · rfl
  · simp [hrow, bind, Except.bind, pure, Except.pure]
  · simp [finishDeadLetterFromOutcome, hrow, bind, Except.bind, pure, Except.pure]
  · rw [guardedSeriesUpdate_filtered hid hr hm]
    rfl
  · rw [guardedSeriesUpdate_filtered hid hr hm]
    rfl

end Operations

theorem completeRecurringSuccess_fenced {recordId : String} {g : Int} {o : CommandDeliveryOutcome}
    (env : Surroundings) (result : HandlerResult Unit) (completedAt : Instant) (hrec : o.durableRecordId = some recordId)
    (hid : uuidFromText recordId = some id) (hr : db.jobs.row id = some r)
    (hg : o.durableGeneration = some g) (hne : (r.generation : Int) ≠ g) :
    completeRecurringSuccess o result completedAt env db = .ok (false, db) := by
  simp [completeRecurringSuccess, hrec, hg, outcomeRow_fenced hid hr hg hne, bind, Except.bind,
    pure, Except.pure]

/-- An operation of another generation than the row's own changes nothing at all. -/
theorem fenced_step {recordId : String} {g : Int} (h : StoreStep db e db')
    (hf : e.op.fence = some (recordId, g)) (hid : uuidFromText recordId = some id)
    (hr : db.jobs.row id = some r) (hne : (r.generation : Int) ≠ g) (hexist : SeriesExist db) :
    db' = db := by
  cases h with
  | error _ => rfl
  | @ok _ op env answer h =>
    cases op with
    | markPublished c now due =>
      simp only [StoreOp.fence, Option.some.injEq, Prod.mk.injEq] at hf
      obtain ⟨rfl, rfl⟩ := hf
      exact markPublished_fenced hid hr (by omega) h
    | markPublishIndeterminate c now due =>
      simp only [StoreOp.fence, Option.some.injEq, Prod.mk.injEq] at hf
      obtain ⟨rfl, rfl⟩ := hf
      have := (markPublishIndeterminate_fenced due hid hr (by omega)).symm.trans h
      cases this
      rfl
    | admitDelivery a =>
      simp only [StoreOp.fence, Option.some.injEq, Prod.mk.injEq] at hf
      obtain ⟨rfl, rfl⟩ := hf
      obtain ⟨hdrop, habort⟩ := admitDelivery_fenced env hexist hid hr
      obtain hlt | hlt : a.generation < r.generation ∨ r.generation < a.generation := by omega
      · cases (hdrop hlt).symm.trans h
        rfl
      · cases (habort hlt).symm.trans h
        rfl
    | checkpointSettlement s =>
      simp only [StoreOp.fence, Option.some.injEq, Prod.mk.injEq] at hf
      obtain ⟨rfl, rfl⟩ := hf
      cases (checkpointSettlement_fenced env hid hr (by omega)).symm.trans h
    | releaseDelivery recordId generation due =>
      simp only [StoreOp.fence, Option.some.injEq, Prod.mk.injEq] at hf
      obtain ⟨rfl, rfl⟩ := hf
      cases (releaseDelivery_fenced env due hid hr (by omega)).symm.trans h
    | applyOutcome o due =>
      simp only [StoreOp.fence] at hf
      split at hf
      · rename_i hrec hg
        cases hf
        cases (applyOutcome_fenced env due hrec hid hr hg hne).symm.trans h
        rfl
      · cases hf
    | completeRecurringSuccess o result completedAt =>
      simp only [StoreOp.fence] at hf
      split at hf
      · rename_i hrec hg
        cases hf
        cases (completeRecurringSuccess_fenced env result completedAt hrec hid hr hg hne).symm.trans h
        rfl
      · cases hf
    | _ => cases hf

/-- Generation fencing: an operation that names another generation than the job's own leaves the
database as it was, an admission says why, and a checkpoint or release raises. -/
theorem generation_fencing (hreach : Path StoreStep .empty es db) {op : StoreOp}
    (env : Surroundings) {recordId : String} {g : Int} (hf : op.fence = some (recordId, g))
    (hid : uuidFromText recordId = some id) (hr : db.jobs.row id = some r)
    (hne : (r.generation : Int) ≠ g) :
    (∀ result db', StoreStep db ⟨op, env, result⟩ db' → db' = db) ∧
    (∀ a, op = .admitDelivery a →
      (g < r.generation → admitDelivery a env db = .ok (.drop, db)) ∧
      (r.generation < g → admitDelivery a env db = .ok (.abort, db))) ∧
    (∀ s, op = .checkpointSettlement s → ∃ exc, checkpointSettlement s env db = .error exc) ∧
    (∀ recordId generation due, op = .releaseDelivery recordId generation due →
      ∃ exc, releaseDelivery recordId generation due env db = .error exc) := by
  have hexist := seriesExist_run hreach
  refine ⟨fun result db' h => fenced_step h hf hid hr hne hexist, ?_, ?_, ?_⟩
  · rintro a rfl
    simp only [StoreOp.fence, Option.some.injEq, Prod.mk.injEq] at hf
    obtain ⟨rfl, rfl⟩ := hf
    obtain ⟨hdrop, habort⟩ := admitDelivery_fenced env hexist hid hr
    exact ⟨fun hlt => hdrop (by omega), fun hlt => habort (by omega)⟩
  · rintro s rfl
    simp only [StoreOp.fence, Option.some.injEq, Prod.mk.injEq] at hf
    obtain ⟨rfl, rfl⟩ := hf
    exact ⟨_, checkpointSettlement_fenced env hid hr (by omega)⟩
  · rintro recordId generation due rfl
    simp only [StoreOp.fence, Option.some.injEq, Prod.mk.injEq] at hf
    obtain ⟨rfl, rfl⟩ := hf
    exact ⟨_, releaseDelivery_fenced env due hid hr (by omega)⟩

end Fencing

section Sample

local instance : Texts := .sample
local instance : Calendar := .daily

/-- A job that is claimed twice, so that a delivery of the first generation is stale. -/
def sampleReclaim : List (StoreOp × Surroundings) :=
  [(.schedule sampleDraft, sampleSurroundings), (.claim "w" 0 30000000, sampleSurroundings),
    (.claim "w" 30000001 60000001, sampleSurroundings)]

theorem generation_fencing_stale_admission :
    admitDelivery sampleAdmission sampleSurroundings (runAll sampleReclaim .empty).2 =
      .ok (.drop, (runAll sampleReclaim .empty).2) := by
  obtain ⟨r, hr, hg⟩ := (Option.any_eq_true _ _).mp (show
    ((runAll sampleReclaim .empty).2.jobs.row 1).any (fun r => r.generation = 2) = true by
      decide)
  have hg' : r.generation = 2 := by simpa using hg
  have hid : uuidFromText sampleAdmission.recordId = some 1 := by decide
  have hf : (StoreOp.admitDelivery sampleAdmission).fence = some (sampleAdmission.recordId, 1) := rfl
  have h := generation_fencing (runAll_path sampleReclaim .empty) sampleSurroundings hf hid hr
    (by simp [hg'])
  exact (h.2.1 sampleAdmission rfl).1 (by simp [hg'])

end Sample

end Pybus
