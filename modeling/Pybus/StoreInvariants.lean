import Pybus.StoreRuns

/-! What every reachable store satisfies: occurrences belong to their series, and somebody or some
clock attends to every job that is not finished. -/
namespace Pybus

open Texts Interaction DjangoDurableJobStore

/-- `max_retries` is known and the retry count has reached it. -/
theorem DurableJob.exhausted_iff {r : DurableJob} :
    r.exhausted = true ↔ ∃ m, r.maxRetries = some m ∧ m ≤ r.retryCount := by
  unfold exhausted
  cases r.maxRetries <;> simp

/-- A row that recovery can find, or that waits for a decision about its unknown outcome. -/
def Attended (r : DurableJob) : Prop :=
  match r.state with
  | .claimed => r.leaseExpiresAt.isSome
  | .published | .running | .settling => r.reconciliationDueAt.isSome
  | .indeterminate => r.reconciliationDueAt.isSome ∨
      (r.indeterminateReason = some .handlerOutcome ∧ r.exhausted = true)
  | _ => True

/-- The occurrences of each series: numbered without duplicates, with at most the latest one open,
and none open once the series has ended, except one that was running when it was cancelled. -/
structure Occurrences (db : Database) : Prop where
  exist : SeriesExist db
  unique : ∀ i j r r', db.jobs.row i = some r → db.jobs.row j = some r' → r.seriesId.isSome →
    r.seriesId = r'.seriesId → r.occurrenceNumber = r'.occurrenceNumber → i = j
  latest : ∀ id r sid s, db.jobs.row id = some r → r.seriesId = some sid →
    db.series.row sid = some s → r.state.terminal = false →
    r.occurrenceNumber = some s.latestOccurrenceNumber
  closed : ∀ id r sid s, db.jobs.row id = some r → r.seriesId = some sid →
    db.series.row sid = some s → r.state.terminal = false →
    s.state = .active ∨ (s.state = .cancelled ∧ r.state = .running)

section Invariants

variable [Texts]

namespace JobChange

variable {db : Database} {env : Surroundings} {op : StoreOp} {id : Uuid} {r r' : DurableJob}

/-- A running occurrence of a cancelled series can only end. -/
theorem of_running_cancelled (h : JobChange db env op id r r') (hrun : r.state = .running)
    (hs : seriesState db r = some .cancelled) : r'.state.terminal = true := by
  have hopen := seriesOpen_of_cancelled hs
  cases h with
  | parked hp => simp [parkable, hopen] at hp
  | claimed hc _ => simp [claimable, hopen] at hc
  | published _ _ _ hst => simp [hrun] at hst
  | publishUnknown _ _ hst => simp [hrun] at hst
  | admitted _ _ ho _ => simp [hopen] at ho
  | checkpointed _ _ _ _ _ ho => simp [hopen] at ho
  | released _ _ _ ho => simp [hopen] at ho
  | resumed _ _ _ _ hst _ => simp [hrun] at hst
  | _ => rfl

/-- Every change sets the time that the new state is attended by. -/
theorem attended (h : JobChange db env op id r r')
    (hop : ∀ a, op = .admitDelivery a → a.reconciliationDueAt.isSome) : Attended r' := by
  cases h with
  | parked hp =>
    simp only [parkable, Bool.and_eq_true] at hp
    exact .inr ⟨rfl, hp.2⟩
  | published _ _ _ _ =>
    unfold DurableJob.publish
    split <;> rfl
  | @publishUnknown c _ _ _ _ _ _ _ =>
    by_cases hs : c.settlementStatus = none
    · simp [Attended, DurableJob.publishIndeterminate, hs]
    · simp [Attended, DurableJob.publishIndeterminate, hs]
  | admitted _ _ _ _ => exact hop _ rfl
  | claimed _ _ | checkpointed _ _ _ _ _ _ | released _ _ _ _ | resumed _ _ _ _ _ _ => rfl
  | _ => trivial

end JobChange

/-- The operations as the controller, the runner and the bus make them: an admission carries the
time until which its delivery may run. -/
def StoreOp.Controlled (op : StoreOp) : Prop :=
  ∀ a, op = .admitDelivery a → a.reconciliationDueAt.isSome

/-- `admit` gives every admission a time. -/
theorem DurableJobController.admission_controlled {policy : DurableJobPolicy}
    {e : MessageEnvelope} {now : Instant} {sourceQueue : String} {retryCount maxRetries : Nat}
    {a : DurableDeliveryAdmission}
    (h : admission policy e now sourceQueue retryCount maxRetries = .ok (some a)) :
    (StoreOp.admitDelivery a).Controlled := by
  rintro a' ⟨⟩
  simp only [admission, bind, Except.bind, pure, Except.pure, throw, throwThe,
    MonadExceptOf.throw] at h
  split at h
  · cases h
  split at h
  · cases h
  split at h
  · cases h
  split at h
  · cases h
  · injection h with h
    injection h with h
    rw [← h]
    rfl

variable [Calendar]

def ControlledStep (db : Database) (e : StoreEvent) (db' : Database) : Prop :=
  StoreStep db e db' ∧ e.op.Controlled

variable {db db' : Database} {e : StoreEvent} {es : List StoreEvent} {id sid : Uuid}
  {r r' : DurableJob} {s : JobSeries}

/-- What was open after a step was open before it. -/
theorem StoreStep.open_before (h : StoreStep db e db') (hr : db.jobs.row id = some r)
    (hr' : db'.jobs.row id = some r') (hn : r'.state.terminal = false) :
    r.state.terminal = false := by
  obtain ⟨q, hq, hset⟩ := settles_step h hr
  obtain rfl : q = r' := by simpa [hq] using hr'
  cases ht : r.state.terminal with
  | false => rfl
  | true => rw [(hset.2 ht).1, ht] at hn; cases hn

theorem StoreStep.identity (h : StoreStep db e db') (hr : db.jobs.row id = some r)
    (hr' : db'.jobs.row id = some r') :
    r'.seriesId = r.seriesId ∧ r'.occurrenceNumber = r.occurrenceNumber := by
  obtain ⟨q, hq, hcase⟩ := h.changes.job id r hr
  obtain rfl : q = r' := by simpa [hq] using hr'
  obtain rfl | hc := hcase
  · exact ⟨rfl, rfl⟩
  · exact ⟨hc.identity.1, hc.identity.2.1⟩

theorem unique_step (h : StoreStep db e db') (hi : Occurrences db) :
    ∀ i j r r', db'.jobs.row i = some r → db'.jobs.row j = some r' → r.seriesId.isSome →
      r.seriesId = r'.seriesId → r.occurrenceNumber = r'.occurrenceNumber → i = j := by
  intro i j r r' hr hr' hsome hser hnum
  have hc := h.changes
  cases hi' : db.jobs.row i with
  | none =>
    cases hj' : db.jobs.row j with
    | none => exact hc.unique i j r r' hi' hj' hr hr'
    | some q =>
      obtain ⟨hs, hn⟩ := h.identity hj' hr'
      exact absurd (hn.symm.trans hnum.symm)
        ((hc.created i r hi' hr).distinct j q hj' hsome (hs.symm.trans hser.symm))
  | some p =>
    obtain ⟨hs, hn⟩ := h.identity hi' hr
    cases hj' : db.jobs.row j with
    | none =>
      exact absurd (hn.symm.trans hnum)
        ((hc.created j r' hj' hr').distinct i p hi' (by rw [← hser]; exact hsome)
          (hs.symm.trans hser))
    | some q =>
      obtain ⟨hs', hn'⟩ := h.identity hj' hr'
      refine hi.unique i j p q hi' hj' (by rw [← hs]; exact hsome) ?_ ?_
      · rw [← hs, hser, hs']
      · rw [← hn, hnum, hn']

theorem latest_step (h : StoreStep db e db') (hi : Occurrences db) :
    ∀ id r sid s, db'.jobs.row id = some r → r.seriesId = some sid →
      db'.series.row sid = some s → r.state.terminal = false →
      r.occurrenceNumber = some s.latestOccurrenceNumber := by
  intro id r' sid s' hr' hsid hs' hn
  cases hr : db.jobs.row id with
  | none =>
    obtain ⟨q, hq, -, hnum⟩ := (h.changes.created id r' hr hr').latest sid hsid
    obtain rfl : q = s' := by simpa [hq] using hs'
    exact hnum
  | some r =>
    obtain ⟨hser, hnum⟩ := h.identity hr hr'
    have hsid' : r.seriesId = some sid := by rw [← hser, hsid]
    obtain ⟨s, hs⟩ := hi.exist id r sid hr hsid'
    have hold := hi.latest id r sid s hr hsid' hs (h.open_before hr hr' hn)
    obtain ⟨q, hq, hcase⟩ := h.changes.series sid s hs
    obtain rfl : q = s' := by simpa [hq] using hs'
    obtain rfl | hc := hcase
    · rw [hnum, hold]
    · generalize e.op = op at hc
      cases hc with
      | cancelled _ _ _ _ _ _ _ => rw [hnum, hold]; rfl
      | finished _ _ _ _ _ _ _ => rw [hnum, hold]; rfl
      | advanced _ hall => exact hall id r' hr' hsid hn

theorem closed_step (h : StoreStep db e db') (hi : Occurrences db) :
    ∀ id r sid s, db'.jobs.row id = some r → r.seriesId = some sid →
      db'.series.row sid = some s → r.state.terminal = false →
      s.state = .active ∨ (s.state = .cancelled ∧ r.state = .running) := by
  intro id r' sid s' hr' hsid hs' hn
  cases hr : db.jobs.row id with
  | none =>
    obtain ⟨q, hq, ha, -⟩ := (h.changes.created id r' hr hr').latest sid hsid
    obtain rfl : q = s' := by simpa [hq] using hs'
    exact .inl ha
  | some r =>
    have hsid' : r.seriesId = some sid := by rw [← (h.identity hr hr').1, hsid]
    obtain ⟨s, hs⟩ := hi.exist id r sid hr hsid'
    have hopen := h.open_before hr hr' hn
    have hlast := hi.latest id r sid s hr hsid' hs hopen
    -- the open occurrence is the one a change of its series is about
    have same : ∀ i q, db.jobs.row i = some q → q.seriesId = some sid →
        q.occurrenceNumber = some s.latestOccurrenceNumber → i = id := by
      intro i q hq hqs hqn
      exact hi.unique i id q r hq hr (by simp [hqs]) (hqs.trans hsid'.symm) (hqn.trans hlast.symm)
    obtain ⟨q, hq, hcase⟩ := h.changes.series sid s hs
    obtain rfl : q = s' := by simpa [hq] using hs'
    obtain rfl | hc := hcase
    · obtain ha | ⟨hcan, hrun⟩ := hi.closed id r sid q hr hsid' hs hopen
      · exact .inl ha
      · right
        refine ⟨hcan, ?_⟩
        obtain ⟨p, hp, hpcase⟩ := h.changes.job id r hr
        obtain rfl : p = r' := by simpa [hp] using hr'
        obtain rfl | hj := hpcase
        · exact hrun
        · have hstate : seriesState db r = some .cancelled := by
            simp [seriesState, hsid', hs, hcan]
          simp [hj.of_running_cancelled hrun hstate] at hn
    · generalize e.op = op at hc
      cases hc with
      | cancelled _ _ hp hps hpn hp' hend =>
        obtain rfl := same _ _ hp hps hpn
        right
        refine ⟨rfl, ?_⟩
        obtain rfl := Option.some.inj (hp'.symm.trans hr')
        obtain ht | hrun := hend
        · simp [ht] at hn
        · exact hrun
      | finished _ _ hp hps hpn hp' hend =>
        obtain rfl := same _ _ hp hps (hi.latest _ _ sid s hp hps hs hpn)
        obtain rfl := Option.some.inj (hp'.symm.trans hr')
        simp [hend] at hn
      | advanced ha _ => exact .inl ha

theorem occurrences_step (h : StoreStep db e db') (hi : Occurrences db) : Occurrences db' where
  exist := seriesExist_step h hi.exist
  unique := unique_step h hi
  latest := latest_step h hi
  closed := closed_step h hi

omit [Texts] [Calendar] in
theorem occurrences_empty : Occurrences .empty where
  exist := by intro id r sid h; simp [Database.empty] at h
  unique := by intro i j r r' h; simp [Database.empty] at h
  latest := by intro id r sid s h; simp [Database.empty] at h
  closed := by intro id r sid s h; simp [Database.empty] at h

theorem occurrences_run (h : Path StoreStep .empty es db) : Occurrences db :=
  h.invariant (fun _ _ _ => occurrences_step) occurrences_empty

def AllAttended (db : Database) : Prop := ∀ id r, db.jobs.row id = some r → Attended r

theorem attended_step (h : ControlledStep db e db') (hi : AllAttended db) : AllAttended db' := by
  intro id r' hr'
  cases hr : db.jobs.row id with
  | none =>
    have := (h.1.changes.created id r' hr hr').pending
    simp [Attended, this]
  | some r =>
    obtain ⟨q, hq, hcase⟩ := h.1.changes.job id r hr
    obtain rfl : q = r' := by simpa [hq] using hr'
    obtain rfl | hc := hcase
    · exact hi id q hr
    · exact hc.attended h.2

theorem attended_run (h : Path ControlledStep .empty es db) : AllAttended db :=
  h.invariant (fun _ _ _ => attended_step) (by intro id r hr; simp [Database.empty] at hr)

/-- A job whose time has come: it is available, and its lease or due time has passed. -/
def Overdue (r : DurableJob) (now : Instant) : Prop :=
  r.availableAt ≤ now ∧
  match r.state with
  | .pending => True
  | .claimed => ∃ t, r.leaseExpiresAt = some t ∧ t < now
  | .published | .indeterminate | .running | .settling =>
    ∃ t, r.reconciliationDueAt = some t ∧ t ≤ now
  | _ => False

omit [Texts] [Calendar] in
theorem overdue_elapsed {now : Instant} (h : Overdue r now) :
    (decide (r.state = .pending) || r.elapsed now) = true := by
  obtain ⟨-, h⟩ := h
  cases hs : r.state <;> simp_all [DurableJob.elapsed, Option.any_eq_true_iff_get] <;>
    (obtain ⟨t, ht, hlt⟩ := h; simp [ht, hlt])

omit [Calendar] in
/-- An overdue job of an open series that has retries left makes a claim succeed. -/
theorem claim_of_overdue {workerId : String} {now lease : Instant} {env : Surroundings}
    (hr : db.jobs.row id = some r) (hopen : seriesOpen db r = true) (hdue : Overdue r now)
    (hrun : ¬ (r.state = .running ∧ r.exhausted = true)) (hat : env.inAtomicBlock = false)
    (hlocked : env.locked = []) :
    ∃ c db', claim workerId now lease env db = .ok (some c, db') := by
  have hc : claimable db now r = true := by
    simp [claimable, hopen, hdue.1, overdue_elapsed hdue]
  have hcan : cancelledReclaimable db now r = false := by
    by_contra hne
    simp only [cancelledReclaimable, Bool.not_eq_false, Bool.and_eq_true, decide_eq_true_eq] at hne
    have hser : r.seriesId ≠ none := by
      intro hn
      simp [seriesState, hn] at hne
    simp [seriesOpen, hne.2, hser] at hopen
  have hpark : parkable db now r = false := by
    by_contra hne
    simp only [parkable, Bool.not_eq_false, Bool.and_eq_true, decide_eq_true_eq] at hne
    exact hrun ⟨hne.1.1.2, hne.2⟩
  have hc' : claimable (sweep db now) now r = true := hc
  have hrow : (sweep db now).jobs.row id = some r := by
    rw [sweep_row hr]
    simp [hcan, hpark]
  have hsome : ((sweep db now).jobs.first (fun id r => claimable (sweep db now) now r &&
      !env.locked.contains id) older).isSome :=
    Relational.Table.first_isSome hrow (by simp [hlocked, hc'])
  obtain ⟨⟨i, q⟩, hq⟩ := Option.isSome_iff_exists.mp hsome
  unfold claim
  simp only [hat, Bool.false_eq_true, if_false, hq]
  exact ⟨_, _, rfl⟩

/-- No durable job is stranded: in every state reachable through controlled operations each job
that is not finished has the time set by which recovery finds it, or is an exhausted one whose
outcome is unknown, and its series lets it go on. An overdue job is claimed. -/
theorem no_job_stranded (h : Path ControlledStep .empty es db) :
    (∀ id r, db.jobs.row id = some r → r.state ∉ [.succeeded, .deadLettered, .cancelled] →
      (r.state = .pending ∨
        (r.state = .claimed ∧ r.leaseExpiresAt.isSome) ∨
        (r.state ∈ [.published, .running, .settling] ∧ r.reconciliationDueAt.isSome) ∨
        (r.state = .indeterminate ∧ r.reconciliationDueAt.isSome) ∨
        (r.state = .indeterminate ∧ r.indeterminateReason = some .handlerOutcome ∧
          ∃ m, r.maxRetries = some m ∧ m ≤ r.retryCount)) ∧
      (∀ sid, r.seriesId = some sid → ∃ s, db.series.row sid = some s ∧
        (s.state = .active ∨ (s.state = .cancelled ∧ r.state = .running)))) ∧
    (∀ now workerId lease env, env.inAtomicBlock = false → env.locked = [] →
      (∃ id r, db.jobs.row id = some r ∧
        (r.seriesId = none ∨ ∃ sid s, r.seriesId = some sid ∧ db.series.row sid = some s ∧
          s.state = .active) ∧
        ¬ (r.state = .indeterminate ∧ r.indeterminateReason = some .handlerOutcome) ∧
        ¬ (r.state = .running ∧ ∃ m, r.maxRetries = some m ∧ m ≤ r.retryCount) ∧
        Overdue r now) →
      ∃ c db', claim workerId now lease env db = .ok (some c, db')) := by
  have hocc := occurrences_run (h.mono fun _ _ _ hs => hs.1)
  have hatt := attended_run h
  refine ⟨?_, ?_⟩
  · intro id r hr hst
    have hn : r.state.terminal = false := by
      cases hs : r.state <;> simp_all [DurableJobState.terminal]
    have ha := hatt id r hr
    refine ⟨?_, ?_⟩
    · cases hs : r.state <;>
        simp_all [Attended, DurableJobState.terminal, ← DurableJob.exhausted_iff]
    · intro sid hsid
      obtain ⟨s, hs⟩ := hocc.exist id r sid hr hsid
      exact ⟨s, hs, hocc.closed id r sid s hr hsid hs hn⟩
  · rintro now workerId lease env hat hlocked ⟨id, r, hr, hser, -, hrun, hdue⟩
    refine claim_of_overdue hr ?_ hdue ?_ hat hlocked
    · obtain hn | ⟨sid, s, hsid, hs, ha⟩ := hser
      · simp [seriesOpen, hn]
      · simp [seriesOpen, seriesState, hsid, hs, ha]
    · rwa [DurableJob.exhausted_iff]

theorem runAll_controlled (ops : List (StoreOp × Surroundings)) (db : Database)
    (h : ∀ o ∈ ops, o.1.Controlled) : Path ControlledStep db (runAll ops db).1 (runAll ops db).2 := by
  induction ops generalizing db with
  | nil => exact .refl db
  | cons o ops ih =>
    obtain ⟨op, env⟩ := o
    have hop : op.Controlled := h _ List.mem_cons_self
    have hops : ∀ o ∈ ops, o.1.Controlled := fun o ho => h o (List.mem_cons_of_mem _ ho)
    unfold runAll
    split
    · rename_i hrun
      exact .head ⟨.ok hrun, hop⟩ (ih _ hops)
    · rename_i hrun
      exact .head ⟨.error hrun, hop⟩ (ih _ hops)

end Invariants

section Sample

local instance : Texts := .sample
local instance : Calendar := .daily

/-- A stale admission after the second claim. -/
def sampleReadmitted : List (StoreOp × Surroundings) :=
  sampleReclaim ++ [(.admitDelivery sampleAdmission, sampleSurroundings)]

theorem no_job_stranded_overdue :
    ∃ c db', claim "w" 400000000 430000000 ⟨400000000, 0, 0, false, []⟩
      (runAll sampleReadmitted .empty).2 = .ok (some c, db') := by
  have hc : ∀ o ∈ sampleReadmitted, o.1.Controlled := by
    intro o ho
    simp only [sampleReadmitted, sampleReclaim, List.cons_append, List.nil_append, List.mem_cons,
      List.not_mem_nil, or_false] at ho
    rcases ho with rfl | rfl | rfl | rfl <;> intro a ha <;> cases ha
    rfl
  obtain ⟨r, hr, hp⟩ := (Option.any_eq_true _ _).mp (show
    ((runAll sampleReadmitted .empty).2.jobs.row 1).any (fun r => r.seriesId = none &&
      r.state = .claimed && r.availableAt = 0 && r.leaseExpiresAt = some 60000001) = true by
      decide)
  simp only [Bool.and_eq_true, decide_eq_true_eq] at hp
  obtain ⟨⟨⟨hser, hst⟩, hav⟩, hlease⟩ := hp
  refine (no_job_stranded (runAll_controlled _ .empty hc)).2 _ _ _ _ rfl rfl ⟨1, r, hr, .inl hser, ?_⟩
  refine ⟨by simp [hst], by simp [hst], by simp [hav], ?_⟩
  simp [hst, hlease]

end Sample

end Pybus
