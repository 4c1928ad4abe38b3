import Pybus.SeriesSystem

/-! The retry budget: once a job knows its limit, neither the retries that listeners record nor the
crashes that runners recover from take its count past it, and a job that has used it up is parked. -/
namespace Pybus

open Texts Interaction DjangoDurableJobStore

/-- A row within its retry budget. Before the first admission there is no limit and no retry. -/
structure Budgeted (r : DurableJob) : Prop where
  unknown : r.maxRetries = none → r.retryCount = 0 ∧ r.state ≠ .running
  known : ∀ m, r.maxRetries = some m → r.retryCount ≤ m

/-- A job that waits for a decision about the unknown outcome of its handler. -/
def Parked (r : DurableJob) : Prop :=
  r.state = .indeterminate ∧ r.indeterminateReason = some .handlerOutcome

/-- No clock runs for a parked row. -/
def ParkedIdle (db : Database) : Prop :=
  ∀ id r, db.jobs.row id = some r → Parked r → r.reconciliationDueAt = none

theorem ParkedIdle.empty : ParkedIdle .empty := by
  intro id r h
  simp [Database.empty] at h

/-- Every row is within its budget, and no clock runs for a parked one. -/
structure WithinBudget (db : Database) : Prop where
  budgeted : ∀ id r, db.jobs.row id = some r → Budgeted r
  parked : ParkedIdle db

theorem WithinBudget.empty : WithinBudget .empty where
  budgeted := by
    intro id r h
    simp [Database.empty] at h
  parked := .empty

section Workers

variable {Obj : Type} [Texts]

/-- The counts that a worker holds are within the budget of their row. -/
def Counted (db : Database) : Custody → Prop
  | .held a | .single a _ => Stands db a fun r => ∃ m, r.maxRetries = some m ∧ a.retryCount ≤ m
  | .settled a s => Stands db a fun r => ∃ m, r.maxRetries = some m ∧ s.retryCount ≤ m
  | _ => True

theorem Counted.holds {db : Database} {g : Custody} {a : DurableDeliveryAdmission}
    (h : Counted db g) (hg : g.Holds a) :
    Stands db a fun r => ∃ m, r.maxRetries = some m ∧ a.retryCount ≤ m := by
  rcases hg with rfl | ⟨o, rfl⟩ <;> exact h

section Rows

variable {db : Database} {env : Surroundings} {op : StoreOp} {id : Uuid} {r r' : DurableJob}
  {g : Custody} {a : DurableDeliveryAdmission} {s : DurableSettlement}

/-- The row that stands is the row of its identifier. -/
theorem Stands.row {p : DurableJob → Prop} (h : Stands db a p)
    (hid : uuidFromText a.recordId = some id) (hr : db.jobs.row id = some r) :
    a.generation ≤ r.generation ∧ p r := by
  obtain ⟨i, q, hi, hq, hg, hp⟩ := h
  rw [hid] at hi
  cases hi
  rw [hr] at hq
  cases hq
  exact ⟨hg, hp⟩

/-- A settlement that a worker may record stays within the budget. -/
theorem Counted.settlement (h : Counted db g) (hp : g.Allows (.checkpointSettlement s))
    (hid : uuidFromText s.recordId = some id) (hr : db.jobs.row id = some r)
    (hm : r.maxRetries = some s.maxRetries) : s.retryCount ≤ s.maxRetries := by
  obtain ⟨a, hg, hrec, -, hcount⟩ := hp
  rw [hrec] at hid
  obtain ⟨-, m, hm', hle⟩ := (h.holds hg).row hid hr
  obtain rfl : s.maxRetries = m := by
    rw [hm] at hm'
    exact Option.some.inj hm'
  unfold Custody.Counts at hcount
  split at hcount
  · exact hcount.2
  · omega

omit [Texts] in
/-- A running row that a claim takes has retries left. -/
theorem claimed_running {now : Instant} (hc : claimable db now r = true)
    (hp : parkable db now r = false) (hrun : r.state = .running) (hb : Budgeted r) :
    ∃ m, r.maxRetries = some m ∧ r.retryCount + 1 ≤ m := by
  simp only [claimable, hrun, Bool.and_eq_true, Bool.or_eq_true, decide_eq_true_eq, reduceCtorEq,
    false_or] at hc
  simp only [parkable, hc.1.1, hc.1.2, hrun, decide_true, Bool.true_and] at hp
  cases hm : r.maxRetries with
  | none => exact absurd hrun (hb.unknown hm).2
  | some m =>
    refine ⟨m, rfl, ?_⟩
    simp only [DurableJob.exhausted, hm, Option.any_some, decide_eq_false_iff_not] at hp
    omega

/-- Every change that a worker may make keeps a row within its budget. -/
theorem JobChange.budgeted (h : JobChange db env op id r r') (hr : db.jobs.row id = some r)
    (hp : g.Allows op) (hk : Counted db g) (hb : Budgeted r) : Budgeted r' := by
  have keep : r'.retryCount = r.retryCount → r'.maxRetries = r.maxRetries →
      r'.state ≠ .running → Budgeted r' := by
    intro hc hm hs
    constructor
    · intro hn
      rw [hc]
      exact ⟨(hb.unknown (hm ▸ hn)).1, hs⟩
    · intro m h
      rw [hc]
      exact hb.known m (hm ▸ h)
  cases h with
  | cancelled _ _ _ _ _ _ | swept _ | parked _ | deadLetteredByClaim _ _ _ _
  | admissionCancelled _ _ _ _ _ | checkpointCancelled _ _ _ _ | released _ _ _ _
  | releaseCancelled _ _ _ _ | succeeded _ _ _ _ _ | deadLetteredByOutcome _ _ _ _ _
  | resumeCancelled _ _ _ _ _ _ | completed _ _ _ _ _ =>
    exact keep rfl rfl (by intro he; cases he)
  | published _ _ _ _ => exact keep (by simp) (by simp) (by simp)
  | @publishUnknown c now due _ _ _ _ _ =>
    refine keep rfl rfl ?_
    unfold DurableJob.publishIndeterminate
    dsimp only
    split <;> intro he <;> cases he
  | claimed hc hpark =>
    by_cases hrun : r.state = .running
    · obtain ⟨m, hm, hle⟩ := claimed_running hc hpark hrun hb
      constructor
      · intro hn
        exact absurd (hn.symm.trans hm) (by simp)
      · intro m' hm'
        obtain rfl : m' = m := Option.some.inj (hm'.symm.trans hm)
        simp only [DurableJob.claim, hrun, if_true]
        omega
    · exact keep (by simp [DurableJob.claim, hrun]) rfl (by simp [DurableJob.claim])
  | @admitted a _ _ _ _ _ hd =>
    obtain ⟨-, -, -, hcount, hmax⟩ := decideAdmission_proceed hd
    constructor
    · intro hn
      cases hn
    · intro m hm
      simp only [DurableJob.admitted, Option.some.injEq] at hm ⊢
      cases hq : r.maxRetries with
      | none =>
        rw [hcount, (hb.unknown hq).1]
        omega
      | some n =>
        have := hb.known n hq
        simp only [hq, Option.getD_some] at hm
        omega
  | checkpointed hid _ _ hm _ _ =>
    have hle := hk.settlement hp hid hr hm
    constructor
    · intro hn
      exact absurd (hn.symm.trans hm) (by simp)
    · intro m hm'
      obtain rfl := Option.some.inj (hm'.symm.trans hm)
      exact hle
  | @resumed o due recordId _ _ hrec hid hst _ _ _ =>
    rcases hp with he | ⟨a, -, -, he⟩ | ⟨a, s, rfl, hn, -, hcount, -⟩
    · simp [he] at hst
    · simp [he] at hst
    · rw [hn.record] at hrec
      cases hrec
      obtain ⟨-, m, hm, hle⟩ := Stands.row hk hid hr
      constructor
      · intro hnone
        exact absurd (hnone.symm.trans hm) (by simp)
      · intro m' hm'
        obtain rfl := Option.some.inj (hm'.symm.trans hm)
        change o.retryCount ≤ m'
        omega

/-- A row that is parked has just been parked or was parked before. -/
theorem JobChange.parked_after (h : JobChange db env op id r r') (hk : Parked r') :
    r'.reconciliationDueAt = none := by
  obtain ⟨hs, hr⟩ := hk
  cases h with
  | parked _ => rfl
  | published _ _ _ _ =>
    rw [DurableJob.publish_state] at hs
    cases hs
  | @publishUnknown c now due _ _ _ _ _ =>
    unfold DurableJob.publishIndeterminate at hs hr
    dsimp only at hs hr
    split at hs
    · rename_i hn
      simp [hn] at hr
    · cases hs
  | _ => cases hs

/-- A parked row is left alone, or cancelled with its series. -/
theorem JobChange.of_parked (h : JobChange db env op id r r') (hk : Parked r)
    (hdue : r.reconciliationDueAt = none) : r'.state = .cancelled := by
  obtain ⟨hs, hr⟩ := hk
  have helapsed : ∀ now, r.elapsed now = false := by
    intro now
    simp [DurableJob.elapsed, hs, hdue]
  cases h with
  | cancelled _ _ _ _ _ _ | swept _ | admissionCancelled _ _ _ _ _ => rfl
  | parked hp => simp [parkable, hs] at hp
  | claimed hc _ => simp [claimable, hs, helapsed] at hc
  | admitted _ _ _ hd =>
    have := (decideAdmission_proceed hd).2.1 hs
    rw [hr] at this
    cases this
  | published _ _ _ hst | deadLetteredByClaim _ _ _ hst | publishUnknown _ _ hst
  | checkpointed _ _ _ _ hst _ | checkpointCancelled _ _ hst _ | released _ _ hst _
  | releaseCancelled _ _ hst _ | succeeded _ _ _ _ hst | deadLetteredByOutcome _ _ _ _ hst
  | resumed _ _ _ _ hst _ | resumeCancelled _ _ _ _ hst _ | completed _ _ _ hst _ =>
    rw [hs] at hst
    cases hst

end Rows

section Steps

variable [Calendar] {db db' : Database} {g : Custody} {o : Call Obj} {x : o.Answer} {id : Uuid}
  {r : DurableJob}

theorem ParkedIdle.step {e : StoreEvent} (h : StoreStep db e db') (hi : ParkedIdle db) :
    ParkedIdle db' := by
  have hc := h.changes
  intro id r' hr' hparked
  cases hr : db.jobs.row id with
  | none =>
    have hst := (hc.created id r' hr hr').pending
    rw [hparked.1] at hst
    cases hst
  | some r =>
    obtain ⟨q, hq, hcase⟩ := hc.job id r hr
    obtain rfl : q = r' := Option.some.inj (hq.symm.trans hr')
    rcases hcase with rfl | hj
    · exact hi id q hr hparked
    · exact hj.parked_after hparked

theorem WithinBudget.step {e : StoreEvent} (h : StoreStep db e db') (hp : g.Allows e.op)
    (hk : Counted db g) (hi : WithinBudget db) : WithinBudget db' := by
  have hc := h.changes
  constructor
  · intro id r' hr'
    cases hr : db.jobs.row id with
    | none =>
      obtain ⟨hn, hm⟩ := (hc.created id r' hr hr').untried
      have hst := (hc.created id r' hr hr').pending
      constructor
      · intro _
        exact ⟨hn, by simp [hst]⟩
      · intro m hm'
        rw [hm] at hm'
        cases hm'
    | some r =>
      obtain ⟨q, hq, hcase⟩ := hc.job id r hr
      obtain rfl : q = r' := Option.some.inj (hq.symm.trans hr')
      rcases hcase with rfl | hj
      · exact hi.budgeted id q hr
      · exact hj.budgeted hr hp hk (hi.budgeted id r hr)
  · exact hi.parked.step h

theorem Counted.after (h : Answers db o x db') (hk : Counted db g) : Counted db' g := by
  have keep : ∀ a n, (Stands db a fun r => ∃ m, r.maxRetries = some m ∧ n ≤ m) →
      Stands db' a fun r => ∃ m, r.maxRetries = some m ∧ n ≤ m := by
    intro a n hs
    refine hs.after h fun r r' _ hc hm => ?_
    obtain ⟨m, hm, hle⟩ := hm
    exact ⟨m, (hc.maxRetries (by simp [hm])).trans hm, hle⟩
  cases g with
  | held a | single a o => exact keep a _ hk
  | settled a s => exact keep a _ hk
  | _ => trivial

/-- What a worker is told makes it hold only counts within the budget. -/
theorem Counted.own (h : Answers db o x db') (hp : (custody Obj).permits g o) (hi : WithinBudget db)
    (hk : Counted db g) : Counted db' ((custody Obj).next g o x) := by
  have hk' := hk.after h
  cases o with
  | store op k =>
    have hspec := Custody.after_spec g op x
    change Counted db' (g.after op x)
    generalize g.after op x = g' at hspec
    cases hspec with
    | same _ => exact hk'
    | ended | claimed => trivial
    | @held a =>
      obtain ⟨id, r, now, hid, hr, hg, -, hd, rfl⟩ := h.proceeded
      refine ⟨id, _, hid, Database.setJob_row hr, by simp [DurableJob.admitted, hg], ?_⟩
      obtain ⟨-, -, -, hcount, hmax⟩ := decideAdmission_proceed hd
      refine ⟨_, rfl, ?_⟩
      cases hq : r.maxRetries with
      | none =>
        rw [hcount, ((hi.budgeted id r hr).unknown hq).1]
        omega
      | some n =>
        rw [hcount]
        exact (hi.budgeted id r hr).known n hq
    | @settled a s u hholds =>
      obtain ⟨b, hb, hrec, hgen, hcount⟩ := hp
      obtain rfl : b = a := by
        rcases hb with rfl | ⟨o, rfl⟩ <;> rcases hholds with he | ⟨o', he⟩ <;> cases he <;> rfl
      obtain ⟨env, hrun⟩ := h.of_ok
      obtain ⟨id, r, hid, hr, hg, m, hm, hle⟩ := hk.holds hb
      have hkeep : Stands db b fun r => ∃ m, r.maxRetries = some m ∧ s.retryCount ≤ m := by
        refine ⟨id, r, hid, hr, hg, m, hm, ?_⟩
        simp only [StoreOp.run, checkpointSettlement, bind, Except.bind, pure, Except.pure, throw,
          throwThe, MonadExceptOf.throw] at hrun
        split at hrun
        · cases hrun
        rename_i y hy
        split at hrun
        · cases hrun
        rename_i hone
        rcases guardedSeriesUpdate_spec hy with ⟨hz, -⟩ | ⟨i, q, -, hi', hq, hfilter, -, -⟩
        · simp [hz] at hone
        · rw [hrec, hid] at hi'
          cases hi'
          rw [hr] at hq
          cases hq
          simp only [Bool.and_eq_true, decide_eq_true_eq] at hfilter
          have hlimit : s.retryCount ≤ s.maxRetries :=
            hk.settlement ⟨b, hb, hrec, hgen, hcount⟩ (hrec ▸ hid) hr hfilter.2
          have := hm.symm.trans hfilter.2
          injection this with this
          omega
      exact Counted.after (g := .settled b s) h hkeep
    | @single a out result completedAt hholds =>
      rcases hholds with rfl | ⟨o', rfl⟩ <;> exact hk'
  | _ => exact hk'

theorem budget_local : (watch Obj).Local WithinBudget Counted fun _ _ => True where
  symm _ _ _ := trivial
  start _ _ := trivial
  alone _ := trivial
  shared := by
    intro db o x db' g hi ha hp hk
    cases o with
    | store op k =>
      rcases ha.step with rfl | ⟨env, result, hstep⟩
      · exact hi
      · exact hi.step hstep hp hk
    | _ =>
      rw [ha.same (by intro op k he; cases he)]
      exact hi
  own _ _ _ _ _ hi ha hp hk := hk.own ha hp hi
  other _ _ _ _ _ _ _ ha _ _ hk _ := hk.after ha
  apart _ _ _ _ _ _ _ _ _ _ _ _ := trivial

/-- What an answer leaves of a parked row. -/
theorem Answers.of_parked (h : Answers db o x db') (hr : db.jobs.row id = some r) (hk : Parked r)
    (hdue : r.reconciliationDueAt = none) :
    ∃ r', db'.jobs.row id = some r' ∧ (r' = r ∨ r'.state = .cancelled) := by
  obtain ⟨r', hr', hcase⟩ := h.change hr
  refine ⟨r', hr', hcase.imp_right ?_⟩
  rintro ⟨env, op, k, -, hj⟩
  exact hj.of_parked hk hdue

/-- A finished row is left alone. -/
theorem Answers.of_terminal (h : Answers db o x db') (hr : db.jobs.row id = some r)
    (ht : r.state.terminal = true) : db'.jobs.row id = some r := by
  obtain ⟨r', hr', rfl | ⟨env, op, k, -, hj⟩⟩ := h.change hr
  · exact hr'
  · simp [hj.nonterminal] at ht

omit [Calendar] in
/-- A claim parks a running job that is overdue and has used up its retries; one of a cancelled
series is cancelled. -/
theorem claim_parks {workerId : String} {now lease : Instant} {env : Surroundings}
    {y : Option DurableJobClaim} (h : claim workerId now lease env db = .ok (y, db'))
    (hocc : Occurrences db) (hr : db.jobs.row id = some r) (hrun : r.state = .running)
    (hx : r.exhausted = true) (hdue : r.elapsed now = true) :
    db'.jobs.row id = some r.park ∨
      (seriesState db r = some .cancelled ∧ db'.jobs.row id = some (r.cancel now)) := by
  have hstate : seriesOpen db r = true ∨ seriesState db r = some .cancelled := by
    cases hs : r.seriesId with
    | none => exact .inl (by simp [seriesOpen, hs])
    | some sid =>
      obtain ⟨s, hrow⟩ := hocc.exist id r sid hr hs
      rcases hocc.closed id r sid s hr hs hrow (by simp [hrun, DurableJobState.terminal]) with
        ha | ⟨hc, -⟩
      · exact .inl (by simp [seriesOpen, seriesState, hs, hrow, ha])
      · exact .inr (by simp [seriesState, hs, hrow, hc])
  have hsweep : (sweep db now).jobs.row id = some r.park ∨
      (seriesState db r = some .cancelled ∧
        (sweep db now).jobs.row id = some (r.cancel now)) := by
    rw [sweep_row hr]
    by_cases hc : seriesState db r = some .cancelled
    · exact .inr ⟨hc, by simp [cancelledReclaimable, hdue, hc]⟩
    · have hopen := hstate.resolve_right hc
      exact .inl (by simp [cancelledReclaimable, parkable, hdue, hc, hopen, hrun, hx])
  rcases claim_spec h with ⟨-, rfl⟩ | ⟨i, q, -, hq, hcl, hp, hrow, rfl⟩
  · exact hsweep
  · have hne : id ≠ i := by
      rintro rfl
      rw [hr] at hq
      cases hq
      rcases hstate with ho | hc
      · simp [parkable, ho, hrun, hdue, hx] at hp
      · simp [claimable, seriesOpen_of_cancelled hc] at hcl
    rw [Database.setJob_row_ne hne]
    exact hsweep

end Steps

section System

variable [Zones] {P P' Q : Pool (Calls Obj) Database Unit} {ms : List (Move (Calls Obj) Unit)}
  {m : Move (Calls Obj) Unit} {id : Uuid} {r : DurableJob}

theorem budget_reached (h : Reached P) : (watch Obj).Invariant WithinBudget Counted
    (fun _ _ => True) P := Watch.invariant_reachable budget_local .empty h

/-- What a move leaves of a row. -/
theorem move_row (h : (system Obj).Step P m P') (hr : P.shared.jobs.row id = some r) :
    P'.shared.jobs.row id = some r ∨
      ∃ (o : Call Obj) (x : o.Answer), Answers P.shared o x P'.shared := by
  rcases h.shared with ⟨p, -, hs⟩ | ⟨i, log, o, k, x, -, -, ha⟩
  · exact .inl (hs ▸ hr)
  · exact .inr ⟨o, x, ha⟩

/-- A limit that is recorded stays. -/
theorem maxRetries_run {n : Nat} (h : Path (system Obj).Step P ms P')
    (hr : P.shared.jobs.row id = some r) (hn : r.maxRetries = some n) :
    ∃ r', P'.shared.jobs.row id = some r' ∧ r'.maxRetries = some n := by
  induction h generalizing r with
  | refl => exact ⟨r, hr, hn⟩
  | head hs _ ih =>
    rcases move_row hs hr with hr' | ⟨o, x, ha⟩
    · exact ih hr' hn
    · obtain ⟨r', hr', hc⟩ := ha.continues hr
      exact ih hr' ((hc.maxRetries (by simp [hn])).trans hn)

/-- A parked row stays as it is until it is cancelled. -/
def Retired (db : Database) (id : Uuid) (r : DurableJob) : Prop :=
  db.jobs.row id = some r ∨ ∃ r', db.jobs.row id = some r' ∧ r'.state = .cancelled

theorem retired_run (h : Path (system Obj).Step P ms P') (hk : Parked r)
    (hdue : r.reconciliationDueAt = none) (hr : Retired P.shared id r) : Retired P'.shared id r := by
  refine h.invariant (I := fun Q => Retired Q.shared id r) ?_ hr
  intro Q m Q' hm hq
  rcases hq with hq | ⟨r', hq, hc⟩
  · rcases move_row hm hq with hq' | ⟨o, x, ha⟩
    · exact .inl hq'
    · obtain ⟨r', hr', rfl | hc⟩ := ha.of_parked hq hk hdue
      · exact .inl hr'
      · exact .inr ⟨r', hr', hc⟩
  · rcases move_row hm hq with hq' | ⟨o, x, ha⟩
    · exact .inr ⟨r', hq', hc⟩
    · exact .inr ⟨r', ha.of_terminal hq (by simp [hc, DurableJobState.terminal]), hc⟩

/-- Nobody claims a retired row. -/
theorem Retired.not_claimed {db db' : Database} {workerId : String} {now lease : Instant}
    {k : Option Claim} {c : DurableJobClaim} (h : Retired db id r) (hk : Parked r)
    (hdue : r.reconciliationDueAt = none)
    (ha : Answers db (.store (.claim workerId now lease) k : Call Obj) (.ok (some c)) db') :
    uuidFromText c.id ≠ some id := by
  obtain ⟨env, hrun⟩ := ha.of_ok
  rcases claim_spec hrun with ⟨hx, -⟩ | ⟨i, q, hx, hq, hc, -, -, -⟩
  · cases hx
  · cases hx
    simp only [DurableJob.toClaim, uuid_round]
    intro he
    cases he
    rcases h with hr | ⟨r', hr, hs⟩
    · rw [hr] at hq
      cases hq
      simp [claimable, hk.1, DurableJob.elapsed, hdue] at hc
    · rw [hr] at hq
      cases hq
      simp [claimable, hs, DurableJob.elapsed] at hc

/-- Nobody is admitted to a retired row. -/
theorem Retired.not_admitted {db db' : Database} {k : Option Claim} {a : DurableDeliveryAdmission}
    (h : Retired db id r) (hk : Parked r)
    (ha : Answers db (.store (.admitDelivery a) k : Call Obj) (.ok .proceed) db') :
    uuidFromText a.recordId ≠ some id := by
  obtain ⟨i, q, now, hi, hq, -, -, hd, -⟩ := ha.proceeded
  intro he
  rw [hi] at he
  cases he
  obtain ⟨hst, hreason, -⟩ := decideAdmission_proceed hd
  rcases h with hr | ⟨r', hr, hs⟩
  · rw [hr] at hq
    cases hq
    have := hreason hk.1
    rw [hk.2] at this
    cases this
  · rw [hr] at hq
    cases hq
    simp [hs] at hst

/-- The retry budget in every state that the workers reach: a recorded limit never changes and no
count exceeds it; listeners record a retry only below it; a running job that is overdue with its
retries used up is parked by the next claim; and a parked job is never claimed or admitted again. -/
theorem retry_budget (h : Reached P) :
    (∀ id r n, P.shared.jobs.row id = some r → r.maxRetries = some n → r.retryCount ≤ n) ∧
    (∀ ms P', Path (system Obj).Step P ms P' → ∀ id r n, P.shared.jobs.row id = some r →
      r.maxRetries = some n → ∃ r', P'.shared.jobs.row id = some r' ∧ r'.maxRetries = some n) ∧
    (∀ (i : Nat) log s k next, P.threads[i]? = some ⟨log, .call (.store (.checkpointSettlement s) k) next⟩ →
      s.status = .retryScheduled → ∃ n, s.retryCount = n + 1 ∧ n < s.maxRetries) ∧
    (∀ id r n workerId now lease env x db', P.shared.jobs.row id = some r → r.state = .running →
      r.maxRetries = some n → n ≤ r.retryCount →
      (∃ t, r.reconciliationDueAt = some t ∧ t ≤ now) →
      claim workerId now lease env P.shared = .ok (x, db') →
      (∃ r', db'.jobs.row id = some r' ∧ Parked r') ∨
        (seriesState P.shared r = some .cancelled ∧ db'.jobs.row id = some (r.cancel now))) ∧
    ∀ ms P', Path (system Obj).Step P ms P' → ∀ id r, P.shared.jobs.row id = some r → Parked r →
      Retired P'.shared id r ∧
      ∀ i k, (∀ workerId now lease c, .call i ⟨.store (.claim workerId now lease) k, .ok (some c)⟩ ∈ ms →
          uuidFromText c.id ≠ some id) ∧
        ∀ a, .call i ⟨.store (.admitDelivery a) k, .ok .proceed⟩ ∈ ms →
          uuidFromText a.recordId ≠ some id := by
  have hinv := budget_reached h
  refine ⟨?_, ?_, ?_, ?_, ?_⟩
  · intro id r n hr hn
    exact (hinv.shared.budgeted id r hr).known n hn
  · intro ms P' hpath id r n hr hn
    exact maxRetries_run hpath hr hn
  · intro i log s k next hi hst
    obtain ⟨a, -, -, -, hcount⟩ := hinv.follows.permits hi
    simp only [Custody.Counts, hst, if_true] at hcount
    exact ⟨a.retryCount, hcount.1, by omega⟩
  · intro id r n workerId now lease env x db' hr hrun hn hle hdue hclaim
    have hx : r.exhausted = true := DurableJob.exhausted_iff.mpr ⟨n, hn, hle⟩
    have helapsed : r.elapsed now = true := by
      obtain ⟨t, ht, hlt⟩ := hdue
      simp [DurableJob.elapsed, hrun, ht, hlt]
    rcases claim_parks hclaim (seriesAgree_reached h).occurrences hr hrun hx helapsed with hp | hc
    · exact .inl ⟨r.park, hp, rfl, rfl⟩
    · exact .inr hc
  · intro ms P' hpath id r hr hk
    have hdue := hinv.shared.parked id r hr hk
    refine ⟨retired_run hpath hk hdue (.inl hr), ?_⟩
    have at_ : ∀ m ∈ ms, ∃ Q Q', (system Obj).Step Q m Q' ∧ Retired Q.shared id r := by
      intro m hm
      obtain ⟨pre, post, rfl⟩ := List.append_of_mem hm
      obtain ⟨Q, hpre, hpost⟩ := hpath.split
      cases hpost with
      | head hs _ => exact ⟨Q, _, hs, retired_run hpre hk hdue (.inl hr)⟩
    intro i k
    constructor
    · intro workerId now lease c hm
      obtain ⟨Q, Q', hs, hq⟩ := at_ _ hm
      cases hs with
      | call _ ha => exact hq.not_claimed hk hdue ha
    · intro a hm
      obtain ⟨Q, Q', hs, hq⟩ := at_ _ hm
      cases hs with
      | call _ ha => exact hq.not_admitted hk ha

end System

end Workers

section Sample

local instance budgetTexts : Texts := .sample
local instance budgetZones : Zones := .utc

/-- A job that a listener without retries is working on. -/
def sampleExhausted (schedule : StoreOp) : Pool (Calls Unit) Database Unit :=
  sampleDelivered schedule 0 5

/-- The occurrence of a series that has been cancelled while it was running. -/
def sampleAbandoned : Pool (Calls Unit) Database Unit :=
  ((sampleExhausted (.scheduleRecurring sampleSeriesDraft)).begin (Worker.client
    (.cancelRecurring "00000000-0000-0000-0000-000000000002" 0)).program).turns [3]
      (sampleAnswer sampleSurroundings sampleDelivery (.ok .none))

/-- The next claim cancels such an occurrence and does not park it. -/
theorem abandoned_job_cancelled : Reached sampleAbandoned ∧
    ∃ r x db', sampleAbandoned.shared.jobs.row 1 = some r ∧ r.state = .running ∧
      r.maxRetries = some 0 ∧ 0 ≤ r.retryCount ∧ r.reconciliationDueAt = some 300000000 ∧
      claim "w" 300000000 330000000 sampleSurroundings sampleAbandoned.shared = .ok (x, db') ∧
      ∃ r', db'.jobs.row 1 = some r' ∧ ¬ Parked r' := by
  have hreach : Reached (sampleExhausted (.scheduleRecurring sampleSeriesDraft)) :=
    sampleDelivered_reached trivial
  refine ⟨(hreach.begin ⟨.client (.cancelRecurring _ 0), trivial, rfl⟩).turns sampleAnswer_answers,
    ?_⟩
  obtain ⟨r, hr, hp⟩ := (Option.any_eq_true _ _).mp (show
    (sampleAbandoned.shared.jobs.row 1).any (fun r => r.state = .running &&
      r.maxRetries = some 0 && r.reconciliationDueAt = some 300000000) = true by decide)
  simp only [Bool.and_eq_true, decide_eq_true_eq] at hp
  obtain ⟨⟨hst, hmax⟩, hdue⟩ := hp
  obtain ⟨⟨x, db'⟩, hok, hrow⟩ := exists_ok (show
    (claim "w" 300000000 330000000 sampleSurroundings sampleAbandoned.shared).toOption.any
      (fun x => (x.2.jobs.row 1).any fun r => r.state = .cancelled) = true by decide)
  obtain ⟨r', hr', hcan⟩ := (Option.any_eq_true _ _).mp hrow
  refine ⟨r, x, db', hr, hst, hmax, Nat.zero_le _, hdue, hok, r', hr', ?_⟩
  intro hk
  simp [hk.1] at hcan

theorem retry_budget_parked : ∃ x db' r',
    claim "w" 300000000 330000000 sampleSurroundings (sampleExhausted (.schedule sampleDraft)).shared
      = .ok (x, db') ∧ db'.jobs.row 1 = some r' ∧ Parked r' := by
  obtain ⟨r, hr, hp⟩ := (Option.any_eq_true _ _).mp (show
    ((sampleExhausted (.schedule sampleDraft)).shared.jobs.row 1).any (fun r =>
      r.state = .running && r.maxRetries = some 0 && r.reconciliationDueAt = some 300000000 &&
      r.seriesId = none) = true by decide)
  simp only [Bool.and_eq_true, decide_eq_true_eq] at hp
  obtain ⟨⟨⟨hst, hmax⟩, hdue⟩, hser⟩ := hp
  obtain ⟨⟨x, db'⟩, hok, -⟩ := exists_ok (p := fun _ => true) (show
    (claim "w" 300000000 330000000 sampleSurroundings
      (sampleExhausted (.schedule sampleDraft)).shared).toOption.any (fun _ => true) = true by
      decide)
  have hreach : Reached (sampleExhausted (.schedule sampleDraft)) := sampleDelivered_reached trivial
  obtain ⟨-, -, -, hpark, -⟩ := retry_budget hreach
  rcases hpark 1 r 0 "w" 300000000 330000000 sampleSurroundings x db' hr hst hmax (Nat.zero_le _)
    ⟨_, hdue, le_rfl⟩ hok with ⟨r', hr', hk⟩ | ⟨hs, -⟩
  · exact ⟨x, db', r', hok, hr', hk⟩
  · simp [seriesState, hser] at hs

end Sample

end Pybus
