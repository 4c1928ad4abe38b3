import Pybus.Cancellation
import Pybus.Recurrence
import Pybus.SeriesRuns
import Pybus.System

/-! The series of the whole system: the workers confirm no success of a recurring job past its
series, so what every store operation keeps of a series holds in every state they reach. -/
namespace Pybus

open Texts Interaction DjangoDurableJobStore

section Workers

variable {Obj : Type} [Texts]

/-- The row of a delivery is there; one whose job was found to have no series has none. -/
def Single (db : Database) : Custody → Prop
  | .held a => Stands db a fun _ => True
  | .single a o => Custody.Names o a ∧
      Stands db a fun r => r.matchesOutcome o = true → r.seriesId = none
  | _ => True

section Steps

variable [Calendar] {db db' : Database} {a : DurableDeliveryAdmission} {g g' : Custody}
  {o : Call Obj} {x : o.Answer}

theorem Single.after (h : Answers db o x db') (hs : Single db g) : Single db' g := by
  cases g with
  | held a => exact Stands.after h hs fun _ _ _ _ hp => hp
  | single a out =>
    refine ⟨hs.1, hs.2.after h fun r r' hg hc hp hm => ?_⟩
    rw [hc.series]
    exact hp (hc.matches hs.1 hg hm)
  | _ => trivial

/-- A completion that finds no recurring job says that there is none. -/
theorem completeRecurringSuccess_false {out : CommandDeliveryOutcome} {recordId : String}
    {g : Int} {result : HandlerResult Unit} {completedAt : Instant} {env : Surroundings} {id : Uuid}
    {r : DurableJob} (h : completeRecurringSuccess out result completedAt env db = .ok (false, db'))
    (hrec : out.durableRecordId = some recordId) (hgen : out.durableGeneration = some g)
    (hid : uuidFromText recordId = some id) (hr : db.jobs.row id = some r)
    (hm : r.matchesOutcome out = true) : r.seriesId = none := by
  have hrow : outcomeRow db out recordId = .ok (some (id, r)) := by
    simp [outcomeRow, hid, hr, hm]
  simp only [completeRecurringSuccess, hrec, hgen, hrow, bind, Except.bind, pure, Except.pure, throw,
    throwThe, MonadExceptOf.throw] at h
  split at h
  · cases h
  rename_i y hy
  split at h
  · exact lockSeries_eq_none hy
  · split at h
    · cases h
    split at h
    · cases h
    split at h
    · cases h
    split at h <;> cases h

/-- What a worker is told makes it hold only what stands. -/
theorem Single.own (h : Answers db o x db') (hp : (custody Obj).permits g o) (hs : Single db g) :
    Single db' ((custody Obj).next g o x) := by
  have hs' := hs.after h
  cases o with
  | store op k =>
    have hspec := Custody.after_spec g op x
    change Single db' (g.after op x)
    generalize g.after op x = g' at hspec
    cases hspec with
    | same _ => exact hs'
    | ended | claimed | settled _ => trivial
    | held =>
      obtain ⟨id, r, now, hid, hr, hg, -, -, rfl⟩ := h.proceeded
      exact ⟨id, _, hid, Database.setJob_row hr, by simp [DurableJob.admitted, hg], trivial⟩
    | @single a out result completedAt hholds =>
      obtain ⟨b, rfl, hn, -⟩ := hp
      obtain rfl : b = a := by
        rcases hholds with he | ⟨o', he⟩
        · exact Custody.held.inj he
        · cases he
      obtain ⟨env, hrun⟩ := h.of_ok
      obtain ⟨id, r, hid, hr, hg, -⟩ := hs
      refine ⟨hn, Stands.after h ⟨id, r, hid, hr, hg, fun hm => ?_⟩ (p := fun r =>
        r.matchesOutcome out = true → r.seriesId = none) fun r r' hg hc hp hm => ?_⟩
      · exact completeRecurringSuccess_false hrun hn.record hn.generation hid hr hm
      · rw [hc.series]
        exact hp (hc.matches hn hg hm)
  | _ => exact hs'

omit [Calendar] in
/-- The workers confirm no success of a recurring job past its series. -/
theorem Single.apart {op : StoreOp} {k : Option Claim} (hs : Single db g)
    (hp : (custody Obj).permits g (.store op k)) : op.Apart db := by
  rintro out due recordId id r rfl hst hrec hid hr hm hrun
  rcases hp with he | ⟨a, rfl, hn, -⟩ | ⟨a, s, -, -, -, -, hne⟩
  · rw [hst] at he
    cases he
  · obtain ⟨-, i, q, hi, hq, -, hnone⟩ := hs
    rw [hn.record] at hrec
    cases hrec
    rw [hi] at hid
    cases hid
    rw [hq] at hr
    cases hr
    exact hnone hm
  · exact absurd hst hne

end Steps

/-- The occurrence of a series with a number. -/
def Occurrence (db : Database) (sid : Uuid) (n : Nat) (id : Uuid) (r : DurableJob) : Prop :=
  db.jobs.row id = some r ∧ r.seriesId = some sid ∧ r.occurrenceNumber = some n

/-- What the state of a series with `latest` occurrences says of the state of the `n`th. -/
def JobSeriesState.Allows (state : JobSeriesState) (n latest : Nat) (st : DurableJobState) : Prop :=
  match state with
  | .active => if n = latest then st.terminal = false else st = .succeeded
  | .completed => st = .succeeded
  | .failed => st = if n = latest then .deadLettered else .succeeded
  | .cancelled => st.terminal = false → n = latest ∧ st = .running

section System

variable [Zones] {P P' : Pool (Calls Obj) Database Unit}

/-- What the workers keep to, and what every store operation does with it. -/
theorem series_local :
    (watch Obj).Local SeriesAgree Single fun _ _ => True where
  symm _ _ _ := trivial
  start _ _ := trivial
  alone _ := trivial
  shared := by
    intro db o x db' g hi ha hp hs
    cases o with
    | store op k =>
      rcases ha.step with rfl | ⟨env, result, hstep⟩
      · exact hi
      · exact seriesAgree_step (fun _ _ _ _ => Recurrence.nextCadenceAt_bounds) hstep
          (hs.apart hp) hi
    | _ =>
      rw [ha.same (by intro op k he; cases he)]
      exact hi
  own _ _ _ _ _ _ ha hp hs := hs.own ha hp
  other _ _ _ _ _ _ _ ha _ _ hs _ := hs.after ha
  apart _ _ _ _ _ _ _ _ _ _ _ _ := trivial

theorem seriesAgree_reached (h : Reached P) : SeriesAgree P.shared :=
  (Watch.invariant_reachable series_local .empty h).shared

/-- What the workers do to the series in one move. -/
theorem seriesStep_reached {m : Move (Calls Obj) Unit} (h : Reached P)
    (hm : (system Obj).Step P m P') :
    P'.shared = P.shared ∨ ∃ op, SeriesStep P.shared op P'.shared := by
  have hinv := Watch.invariant_reachable series_local .empty h
  rcases hm.shared with ⟨p, -, hs⟩ | ⟨i, log, o, k, x, -, hi, ha⟩
  · exact .inl hs
  · cases o with
    | store op c =>
      rcases ha.step with hs | ⟨env, result, hstep⟩
      · exact .inl hs
      · generalize P'.shared = db' at hstep ⊢
        cases hstep with
        | ok hrun =>
          exact .inr ⟨op, .of_run (fun _ _ _ _ => Recurrence.nextCadenceAt_bounds)
            ((hinv.holds i _ hi).apart (hinv.follows.permits hi)) hrun⟩
        | error _ => exact .inl rfl
    | _ => exact .inl (ha.same (by intro op k he; cases he))

end System

section Agreement

omit [Texts]

variable {db : Database} {sid id : Uuid} {s : JobSeries} {r : DurableJob} {n : Nat}

theorem SeriesAgrees.number (h : SeriesAgrees db sid s) (hr : Occurrence db sid n id r) :
    1 ≤ n ∧ n ≤ s.latestOccurrenceNumber := by
  obtain ⟨m, hm, h₁, hle⟩ := h.numbered id r hr.1 hr.2.1
  rw [hr.2.2] at hm
  cases hm
  exact ⟨h₁, hle⟩

/-- The state of a series says what states its occurrences are in. -/
theorem SeriesAgrees.allows (h : SeriesAgrees db sid s) (hr : Occurrence db sid n id r) :
    s.state.Allows n s.latestOccurrenceNumber r.state := by
  obtain ⟨hrow, hs, hn⟩ := hr
  obtain ⟨-, hle⟩ := h.number ⟨hrow, hs, hn⟩
  by_cases he : n = s.latestOccurrenceNumber
  · subst he
    have hf := h.latest id r hrow hs hn
    cases hst : s.state <;> rw [hst] at hf
    · simpa [JobSeriesState.Allows, JobSeriesState.Fits] using hf
    · exact hf
    · simpa [JobSeriesState.Allows, JobSeriesState.Fits] using hf
    · intro ht
      rcases hf with hf | hf
      · rw [hf] at ht
        cases ht
      · exact ⟨rfl, hf⟩
  · have hf := h.earlier id r n hrow hs hn (by omega)
    cases s.state <;> simp [JobSeriesState.Allows, he, hf, DurableJobState.terminal]

/-- A new occurrence follows the one that the same step has completed. -/
theorem SeriesStep.successor {op : StoreOp} {db' : Database} {q : DurableJob}
    (h : SeriesStep db op db') (hi : SeriesAgree db) (hn : db.jobs.row id = none)
    (hq : Occurrence db' sid (n + 1) id q) (h₁ : 1 ≤ n) :
    ∃ s i r t, db.series.row sid = some s ∧ s.state = .active ∧ Occurrence db sid n i r ∧
      r.state = .running ∧ db'.jobs.row i = some (r.succeed t) ∧ t < q.availableAt ∧
      ∀ e, s.recurrence.endsAt = some e → q.availableAt < e := by
  obtain ⟨hrow, hqs, hqn⟩ := hq
  cases h with
  | kept _ hnew _ =>
    rw [hnew id q hn hrow] at hqs
    cases hqs
  | @opened sid₀ i s r _ _ ht _ _ _ hnum _ =>
    by_cases he : id = i
    · subst he
      obtain rfl : q = r := Option.some.inj (hrow.symm.trans ht.job)
      rw [hnum] at hqn
      injection hqn with hqn
      omega
    · rw [ht.job_ne id he, hn] at hrow
      cases hrow
  | @ended sid₀ i s r r' state finishedAt _ _ hr _ _ ht _ _ =>
    by_cases he : id = i
    · subst he
      rw [hn] at hr
      cases hr
    · rw [ht.job_ne id he, hn] at hrow
      cases hrow
  | @advanced sid₀ i fresh s r q' completedAt hs ha hr hrs hrun hfresh _ _ hr' hq' hne hsucc =>
    by_cases hf : id = fresh
    · subst hf
      obtain rfl : q = q' := Option.some.inj (hrow.symm.trans hq')
      obtain rfl : sid₀ = sid := Option.some.inj (hsucc.series.symm.trans hqs)
      have hlast := hi.occurrences.latest i r sid₀ s hr hrs hs
        (by simp [hrun, DurableJobState.terminal])
      obtain rfl : n = s.latestOccurrenceNumber := by
        have := hsucc.number
        rw [hqn] at this
        injection this with this
        omega
      exact ⟨s, i, r, completedAt, hs, ha, ⟨hr, hrs, hlast⟩, hrun, hr', hsucc.after, hsucc.before⟩
    · by_cases hii : id = i
      · subst hii
        rw [hn] at hr
        cases hr
      · rw [hne id hii hf, hn] at hrow
        cases hrow

end Agreement

/-- A handler result that a recurring job cannot take: none of the four kinds, or a next occurrence
that is not after the completion. -/
def Rejected (s : JobSeries) (result : HandlerResult Unit) (completedAt : Instant) : Prop :=
  result.isRecurring = false ∨
    (s.state = .active ∧ ∃ t, result = .scheduleNextOccurrence t ∧ t ≤ completedAt)

theorem completeRecurringSuccess_rejects [Calendar] {db : Database} {o : CommandDeliveryOutcome}
    {result : HandlerResult Unit} {completedAt : Instant} {env : Surroundings} {recordId : String}
    {g : Int} {id sid : Uuid} {r : DurableJob} {s : JobSeries}
    (hrec : o.durableRecordId = some recordId) (hgen : o.durableGeneration = some g)
    (hid : uuidFromText recordId = some id) (hr : db.jobs.row id = some r)
    (hm : r.matchesOutcome o = true) (hrun : r.state = .running) (hsid : r.seriesId = some sid)
    (hs : db.series.row sid = some s) (hrej : Rejected s result completedAt) :
    ∃ message, completeRecurringSuccess o result completedAt env db =
      .error (.invalidMessageDefinition message) := by
  have hrow : outcomeRow db o recordId = .ok (some (id, r)) := by
    simp [outcomeRow, hid, hr, hm]
  have hlock : lockSeries db r.seriesId = .ok (some (sid, s)) := by
    simp [lockSeries, hsid, hs]
  simp only [completeRecurringSuccess, hrec, hgen, hrow, hlock, hrun, bind, Except.bind, pure,
    Except.pure, throw, throwThe, MonadExceptOf.throw]
  rcases hrej with hres | ⟨ha, t, rfl, hle⟩
  · exact ⟨recurringResultMessage, by simp [hres]⟩
  · exact ⟨"next occurrence must be strictly after completion",
      by simp [HandlerResult.isRecurring, ha, advanceSeries, hle]⟩

section System

variable [Zones] {P : Pool (Calls Obj) Database Unit}

/-- The series in every state that the workers reach: the occurrences have the numbers up to the
latest one, each once; their states agree with that of the series; each is available after its
predecessor finished and before the end. A new one comes with the success of its predecessor, and
a rejected completion changes nothing. -/
theorem series_invariant (h : Reached P) :
    (∀ sid s, P.shared.series.row sid = some s →
      (∀ id r, P.shared.jobs.row id = some r → r.seriesId = some sid →
        ∃ n, Occurrence P.shared sid n id r) ∧
      (∀ n, (∃ id r, Occurrence P.shared sid n id r) ↔
        1 ≤ n ∧ n ≤ s.latestOccurrenceNumber) ∧
      (∀ n i j p q, Occurrence P.shared sid n i p → Occurrence P.shared sid n j q → i = j) ∧
      (∀ n id r, Occurrence P.shared sid n id r →
        s.state.Allows n s.latestOccurrenceNumber r.state) ∧
      (∀ n i j p q, Occurrence P.shared sid n i p → Occurrence P.shared sid (n + 1) j q →
        ∃ t, p.finishedAt = some t ∧ t < q.availableAt ∧
          ∀ e, s.recurrence.endsAt = some e → q.availableAt < e)) ∧
    (∀ m P', (system Obj).Step P m P' → ∀ sid n j q, 1 ≤ n → P.shared.jobs.row j = none →
      Occurrence P'.shared sid (n + 1) j q →
      ∃ s i r t, P.shared.series.row sid = some s ∧ s.state = .active ∧
        Occurrence P.shared sid n i r ∧ r.state = .running ∧
        P'.shared.jobs.row i = some (r.succeed t) ∧ t < q.availableAt ∧
        ∀ e, s.recurrence.endsAt = some e → q.availableAt < e) ∧
    (∀ o result completedAt env recordId g id sid r s, o.durableRecordId = some recordId →
      o.durableGeneration = some g → uuidFromText recordId = some id →
      P.shared.jobs.row id = some r → r.matchesOutcome o = true → r.state = .running →
      r.seriesId = some sid → P.shared.series.row sid = some s → Rejected s result completedAt →
      ∃ message, StoreOp.run (.completeRecurringSuccess o result completedAt) env P.shared =
        .error (.invalidMessageDefinition message)) ∧
    ∀ i o result completedAt k message P', (system Obj).Step P (.call i
      ⟨.store (.completeRecurringSuccess o result completedAt) k,
        .error (.invalidMessageDefinition message)⟩) P' → P'.shared = P.shared := by
  have hi := seriesAgree_reached h
  refine ⟨?_, ?_, ?_, ?_⟩
  · intro sid s hs
    have ha := hi.agrees sid s hs
    refine ⟨?_, ?_, ?_, fun n id r hr => ha.allows hr, ?_⟩
    · intro id r hr hsid
      obtain ⟨n, hn, -, -⟩ := ha.numbered id r hr hsid
      exact ⟨n, hr, hsid, hn⟩
    · intro n
      constructor
      · rintro ⟨id, r, hr⟩
        exact ha.number hr
      · rintro ⟨h₁, hle⟩
        exact ha.complete n h₁ hle
    · intro n i j p q hp hq
      exact hi.occurrences.unique i j p q hp.1 hq.1 (by simp [hp.2.1]) (hp.2.1.trans hq.2.1.symm)
        (hp.2.2.trans hq.2.2.symm)
    · intro n i j p q hp hq
      exact ha.successors i j p q n hp.1 hq.1 hp.2.1 hq.2.1 hp.2.2 hq.2.2
  · intro m P' hm sid n j q h₁ hn hq
    rcases seriesStep_reached h hm with he | ⟨op, hstep⟩
    · rw [he] at hq
      rw [hq.1] at hn
      cases hn
    · exact hstep.successor hi hn hq h₁
  · intro o result completedAt env recordId g id sid r s hrec hgen hid hr hm hrun hsid hs hrej
    exact completeRecurringSuccess_rejects hrec hgen hid hr hm hrun hsid hs hrej
  · intro i o result completedAt k message P' hm
    cases hm with
    | call _ ha =>
      cases ha with
      | raised _ => rfl
      | other hs _ => exact absurd rfl (hs _ _)

end System

end Workers

section Sample

local instance seriesTexts : Texts := .sample
local instance seriesZones : Zones := .utc

/-- A recurring job is scheduled, published and delivered, and its handler returns. -/
def sampleRecurring : Pool (Calls Unit) Database Unit :=
  let first := sampleAnswer sampleSurroundings sampleDelivery (.ok .none)
  let later := sampleAnswer ⟨1, 3, 4, false, []⟩ sampleDelivery (.ok .none)
  let P : Pool (Calls Unit) Database Unit := ⟨.empty, []⟩
  let P := (P.begin (Worker.client (.scheduleRecurring sampleSeriesDraft)).program).turns [0] first
  let P := (P.begin (Worker.runner sampleRunner).program).turns (List.replicate 5 1) first
  (P.begin sampleWorker.program).turns (List.replicate 13 2) later

theorem sampleRecurring_reached : Reached sampleRecurring := by
  refine .turns (.begin (.turns (.begin (.turns (.begin reached_empty
    ⟨.client (.scheduleRecurring sampleSeriesDraft), trivial, rfl⟩) sampleAnswer_answers)
    ⟨.runner sampleRunner, trivial, rfl⟩) sampleAnswer_answers) ⟨sampleWorker, ?_, rfl⟩)
    sampleAnswer_answers
  intro c hc
  cases hc
  rfl

theorem series_invariant_second : ∃ s p q, sampleRecurring.shared.series.row 2 = some s ∧
    Occurrence sampleRecurring.shared 2 1 1 p ∧ Occurrence sampleRecurring.shared 2 2 3 q ∧
    s.state.Allows 1 s.latestOccurrenceNumber p.state ∧
    ∃ t, p.finishedAt = some t ∧ t < q.availableAt := by
  obtain ⟨s, hs, -⟩ := (Option.any_eq_true _ _).mp (show
    (sampleRecurring.shared.series.row 2).any (fun _ => true) = true by decide)
  obtain ⟨p, hp, hp'⟩ := (Option.any_eq_true _ _).mp (show
    (sampleRecurring.shared.jobs.row 1).any (fun r => r.seriesId = some 2 &&
      r.occurrenceNumber = some 1) = true by decide)
  obtain ⟨q, hq, hq'⟩ := (Option.any_eq_true _ _).mp (show
    (sampleRecurring.shared.jobs.row 3).any (fun r => r.seriesId = some 2 &&
      r.occurrenceNumber = some 2) = true by decide)
  simp only [Bool.and_eq_true, decide_eq_true_eq] at hp' hq'
  obtain ⟨-, -, -, hallows, hnext⟩ := (series_invariant sampleRecurring_reached).1 2 s hs
  obtain ⟨t, ht, hlt, -⟩ := hnext 1 1 3 p q ⟨hp, hp'⟩ ⟨hq, hq'⟩
  exact ⟨s, p, q, hs, ⟨hp, hp'⟩, ⟨hq, hq'⟩, hallows 1 1 p ⟨hp, hp'⟩, t, ht, hlt⟩

end Sample

end Pybus
