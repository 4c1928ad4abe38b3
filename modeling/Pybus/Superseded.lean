import Pybus.Custody
import Pybus.Cancellation
import Pybus.Guarantees
import Pybus.Working

/-! The success of a delivery whose job went on without it: the job was reclaimed at a newer
generation, or it ended, while the handler was running. -/
namespace Pybus

open Texts Interaction DjangoDurableJobStore Listener

section Store

variable [Texts] {db db' : Database} {env : Surroundings} {op : StoreOp} {id : Uuid}
  {r r' : DurableJob} {a : DurableDeliveryAdmission}

/-- The row holds the message of a delivery, at its generation or a later one. -/
structure Carried (a : DurableDeliveryAdmission) (r : DurableJob) : Prop where
  generation : a.generation ≤ r.generation
  messageId : Value.str r.messageId = a.messageId
  messageType : Value.str r.messageType = a.messageType
  version : r.version = a.version

/-- No operation changes the message of a job. -/
theorem JobChange.message (h : JobChange db env op id r r') :
    r'.messageId = r.messageId ∧ r'.messageType = r.messageType ∧ r'.version = r.version := by
  cases h with
  | published _ _ _ _ =>
    unfold DurableJob.publish
    split <;> exact ⟨rfl, rfl, rfl⟩
  | _ => exact ⟨rfl, rfl, rfl⟩

theorem carried_of_admitted (hd : decideAdmission a r = .proceed) (hgen : r.generation = a.generation)
    {now : Instant} : Carried a (r.admitted a now) := by
  obtain ⟨-, -, hm, -, -⟩ := decideAdmission_proceed hd
  simp only [DurableJob.matchesAdmission, Bool.and_eq_true, decide_eq_true_eq] at hm
  exact ⟨hgen.ge, hm.1.1.1.1.1.1, hm.1.1.1.1.1.2, hm.1.1.1.1.2⟩

variable [Calendar] {e : StoreEvent} {es : List StoreEvent}

/-- The databases that other operations can have made of this one. -/
def Later (db db' : Database) : Prop := ∃ es, Path StoreStep db es db'

theorem carried_step (h : StoreStep db e db') (hr : db.jobs.row id = some r) (hc : Carried a r) :
    ∃ r', db'.jobs.row id = some r' ∧ Carried a r' ∧ r'.seriesId = r.seriesId := by
  obtain ⟨r', hr', rfl | hchange⟩ := h.changes.job id r hr
  · exact ⟨r', hr', hc, rfl⟩
  · obtain ⟨hid, htype, hversion⟩ := hchange.message
    refine ⟨r', hr', ⟨hc.generation.trans hchange.generation_le, ?_, ?_, ?_⟩, hchange.identity.1⟩
    · rw [hid]
      exact hc.messageId
    · rw [htype]
      exact hc.messageType
    · rw [hversion]
      exact hc.version

theorem carried_run (h : Path StoreStep db es db') (hr : db.jobs.row id = some r)
    (hc : Carried a r) :
    ∃ r', db'.jobs.row id = some r' ∧ Carried a r' ∧ r'.seriesId = r.seriesId := by
  induction h generalizing r with
  | refl => exact ⟨r, hr, hc, rfl⟩
  | head hs _ ih =>
    obtain ⟨r₁, hr₁, hc₁, hs₁⟩ := carried_step hs hr hc
    obtain ⟨r₂, hr₂, hc₂, hs₂⟩ := ih hr₁ hc₁
    exact ⟨r₂, hr₂, hc₂, hs₂.trans hs₁⟩

/-- The job has been reclaimed since the delivery, or has ended. -/
def Superseded (a : DurableDeliveryAdmission) (r : DurableJob) : Prop :=
  a.generation < r.generation ∨ r.state.terminal = true

/-- A superseded delivery stays superseded, in the same way. -/
theorem superseded_later (h : Later db db') (hr : db.jobs.row id = some r) (hc : Carried a r)
    (hs : Superseded a r) : ∃ r', db'.jobs.row id = some r' ∧ Carried a r' ∧
      r'.seriesId = r.seriesId ∧ Superseded a r' ∧
      (r'.generation = a.generation ↔ r.generation = a.generation) := by
  obtain ⟨es, hpath⟩ := h
  obtain ⟨r', hr', hc', hseries⟩ := carried_run hpath hr hc
  obtain ⟨q, hq, hle, hkeep⟩ := settles_run hpath hr
  obtain rfl : q = r' := Option.some.inj (hq.symm.trans hr')
  have hgen := hc.generation
  refine ⟨q, hr', hc', hseries, ?_⟩
  rcases hs with hlt | hterminal
  · exact ⟨.inl (by omega), by omega⟩
  · obtain ⟨hstate, hsame, -⟩ := hkeep hterminal
    refine ⟨.inr ?_, ?_⟩
    · rw [hstate]
      exact hterminal
    · rw [hsame]

variable {o : CommandDeliveryOutcome} {result : HandlerResult Unit} {completedAt due : Instant}

omit [Calendar] in
/-- An outcome of the delivery is about the row exactly at the generation of the delivery. -/
theorem matchesOutcome_iff (hc : Carried a r) (hn : Custody.Names o a) :
    r.matchesOutcome o = true ↔ r.generation = a.generation := by
  have hid : o.messageId = .str r.messageId := hn.messageId.trans hc.messageId.symm
  have htype : o.messageType = .str r.messageType := hn.messageType.trans hc.messageType.symm
  have hversion : r.version = o.version := hc.version.trans hn.version.symm
  simp only [DurableJob.matchesOutcome, hn.generation, hid, htype, hversion, Value.text,
    Option.some.injEq, Bool.and_eq_true, decide_eq_true_eq, ne_eq, reduceCtorEq,
    not_false_eq_true, and_true]
  omega

omit [Calendar] in
theorem outcomeRow_carried (hid : uuidFromText a.recordId = some id)
    (hr : db.jobs.row id = some r) (hc : Carried a r) (hn : Custody.Names o a) :
    outcomeRow db o a.recordId =
      .ok (if r.generation = a.generation then some (id, r) else none) := by
  simp only [outcomeRow, hid, hr, matchesOutcome_iff hc hn]

/-- The completion of a superseded delivery changes nothing and knows the series only while the
generation is the same. -/
theorem completeRecurringSuccess_superseded (hexist : SeriesExist db)
    (hid : uuidFromText a.recordId = some id) (hr : db.jobs.row id = some r) (hc : Carried a r)
    (hs : Superseded a r) (hn : Custody.Names o a) :
    completeRecurringSuccess o result completedAt env db =
      .ok (decide (r.generation = a.generation) && r.seriesId.isSome, db) := by
  have hrow := outcomeRow_carried hid hr hc hn
  by_cases hgen : r.generation = a.generation
  · have hterminal : r.state.terminal = true := by
      rcases hs with hlt | hterminal
      · omega
      · exact hterminal
    have hrunning : r.state ≠ .running := by
      intro h
      simp [h, DurableJobState.terminal] at hterminal
    rw [if_pos hgen] at hrow
    cases hseries : r.seriesId with
    | none =>
      simp [completeRecurringSuccess, hn.record, hn.generation, hrow, hseries, lockSeries, bind,
        Except.bind, pure, Except.pure]
    | some sid =>
      obtain ⟨series, hlock⟩ := hexist id r sid hr hseries
      simp [completeRecurringSuccess, hn.record, hn.generation, hrow, hseries, lockSeries, hlock,
        hrunning, hgen, bind, Except.bind, pure, Except.pure]
  · rw [if_neg hgen] at hrow
    simp [completeRecurringSuccess, hn.record, hn.generation, hrow, hgen, bind, Except.bind, pure,
      Except.pure]

omit [Calendar] in
theorem applyOutcome_superseded (hid : uuidFromText a.recordId = some id)
    (hr : db.jobs.row id = some r) (hc : Carried a r) (hs : Superseded a r)
    (hn : Custody.Names o a) (hst : o.status = .succeeded) :
    DjangoDurableJobStore.applyOutcome o due env db = .ok ((), db) := by
  have hrow := outcomeRow_carried hid hr hc hn
  by_cases hgen : r.generation = a.generation
  · have hrunning : r.state ≠ .running := by
      rcases hs with hlt | hterminal
      · omega
      · intro h
        simp [h, DurableJobState.terminal] at hterminal
    rw [if_pos hgen] at hrow
    simp [DjangoDurableJobStore.applyOutcome, hn.record, hn.generation, hid, hst, hrow, hrunning,
      bind, Except.bind, pure, Except.pure]
  · rw [if_neg hgen] at hrow
    simp [DjangoDurableJobStore.applyOutcome, hn.record, hn.generation, hid, hst, hrow, bind,
      Except.bind, pure, Except.pure]

end Store

section Settlement

variable {Obj : Type} [Texts] [Calendar]

/-- What the settlement of a success has done: the operations it called, the copies it published
and the claims it acked. -/
structure Aftermath where
  operations : List StoreOp := []
  published : Nat := 0
  acked : List Claim := []

/-- Surroundings in which everything works, and whose store goes on with other operations. -/
def aftermath (db : Database) : Monitor (Calls Obj) Aftermath where
  permits _ _ := True
  assumes _ o r :=
    match o, r with
    | .store op _, x => ∃ db' env, Later db db' ∧ (op.run env db').map (·.1) = x
    | .publish _ _ _, x => x = .ok ()
    | .ack _ _, x => x = .ok ()
    | .sleepFn _, x => x = .ok ()
    | .observer _ _ _, x => x = .ok ()
    | _, _ => True
  next g o _ :=
    match o with
    | .store op _ => { g with operations := op :: g.operations }
    | .publish _ _ _ => { g with published := g.published + 1 }
    | .ack _ k => { g with acked := g.acked ++ [k] }
    | _ => g

/-- An operation that changes nothing from this database on. -/
def Idle (db : Database) (op : StoreOp) : Prop :=
  ∀ db' env x db'', Later db db' → op.run env db' = .ok (x, db'') → db'' = db'

/-- What `listen_once` does once the handler of a durable command has returned. -/
def Listener.settleSuccess (L : Listener Obj) (channel : String) (e : MessageEnvelope)
    (h : Handler) (maxRetries : Nat) (k : Claim) (result : HandlerResult Obj) :
    Action Obj (Option (List (HandlerResult Obj))) := do
  let dispatched ← tryCatch (L.conclude channel e [h] true maxRetries k [result]) fun exc => do
    L.recover channel e exc k
    return .claimSettled
  L.finish e k dispatched

/-- The settlement acks the copy, publishes nothing, changes nothing and does not raise. -/
def SettlesIdly (L : Listener Obj) (channel : String) (e : MessageEnvelope) (h : Handler)
    (maxRetries : Nat) (k : Claim) (result : HandlerResult Obj) (db : Database) : Prop :=
  ∀ s, (L.settleSuccess channel e h maxRetries k result).Meets (aftermath db) (fun g _ r =>
    (∃ results, r = .ok results) ∧ g.published = 0 ∧ g.acked = (k.receipt.map fun _ => k).toList ∧
      ∀ op ∈ g.operations, Idle db op) {} s

variable {L : Listener Obj} {c : DurableConfiguration} {channel : String} {e : MessageEnvelope}
  {h : Handler} {maxRetries : Nat} {k : Claim} {result : HandlerResult Obj} {db db' : Database}
  {a : DurableDeliveryAdmission} {id : Uuid} {r : DurableJob} {g : Aftermath} {s : ListenerState}
  {o : CommandDeliveryOutcome}

theorem aftermath_works : Works (aftermath db : Monitor (Calls Obj) Aftermath) where
  permits _ _ := trivial
  publish _ _ _ _ _ hr := hr
  ack _ _ _ _ hr := hr
  sleepFn _ _ _ hr := hr
  observer _ _ _ _ _ hr := hr
  silent _ o _ ho := by cases o <;> first | rfl | cases ho

/-- A database in which a delivery is superseded, in a job that has a series or not. -/
structure Behind (a : DurableDeliveryAdmission) (id : Uuid) (r : DurableJob) (db : Database) :
    Prop where
  exist : SeriesExist db
  record : uuidFromText a.recordId = some id
  row : db.jobs.row id = some r
  carried : Carried a r
  superseded : Superseded a r

/-- The answer of the store to the completion, from now on. -/
theorem Behind.completes (hb : Behind a id r db) (hl : Later db db') (hn : Custody.Names o a)
    {result : HandlerResult Unit} {completedAt : Instant} {env : Surroundings} :
    completeRecurringSuccess o result completedAt env db' =
      .ok (decide (r.generation = a.generation) && r.seriesId.isSome, db') := by
  obtain ⟨r', hr', hc, hseries, hs, hgen⟩ := superseded_later hl hb.row hb.carried hb.superseded
  obtain ⟨es, hpath⟩ := hl
  have hexist : SeriesExist db' :=
    hpath.invariant (fun _ _ _ => seriesExist_step) hb.exist
  rw [completeRecurringSuccess_superseded hexist hb.record hr' hc hs hn, hseries]
  simp only [hgen]

theorem Behind.applies (hb : Behind a id r db) (hl : Later db db') (hn : Custody.Names o a)
    (hst : o.status = .succeeded) {due : Instant} {env : Surroundings} :
    DjangoDurableJobStore.applyOutcome o due env db' = .ok ((), db') := by
  obtain ⟨r', hr', hc, -, hs, -⟩ := superseded_later hl hb.row hb.carried hb.superseded
  exact applyOutcome_superseded hb.record hr' hc hs hn hst

theorem Behind.completes_idle (hb : Behind a id r db) (hn : Custody.Names o a)
    {result : HandlerResult Unit} {completedAt : Instant} :
    Idle db (.completeRecurringSuccess o result completedAt) := by
  intro db' env x db'' hl hrun
  cases (hb.completes hl hn).symm.trans hrun
  rfl

theorem Behind.applies_idle (hb : Behind a id r db) (hn : Custody.Names o a)
    (hst : o.status = .succeeded) {due : Instant} : Idle db (.applyOutcome o due) := by
  intro db' env x db'' hl hrun
  cases (hb.applies hl hn hst).symm.trans hrun
  rfl

/-- All that a settlement has done so far left the store alone. -/
def Untouched (db : Database) (g : Aftermath) : Prop :=
  g.published = 0 ∧ g.acked = [] ∧ ∀ op ∈ g.operations, Idle db op

omit [Texts] [Calendar] in
/-- The result may have been about recurrence only if the store still knows the series. -/
theorem isRecurrence_false (hvalid : result = .none ∨ r.seriesId.isSome ∧ result.isRecurrence)
    (hcond : result.isRecurrence = true → r.generation = a.generation)
    (hunknown : (decide (r.generation = a.generation) && r.seriesId.isSome) = false) :
    result.isRecurrence = false := by
  rcases hvalid with rfl | ⟨hseries, hrec⟩
  · rfl
  · simp [hcond hrec, hseries] at hunknown

theorem applyOutcome_idle (hb : Behind a id r db) (hn : Custody.Names o a)
    (hst : o.status = .succeeded) (hq : Untouched db g) :
    (Listener.applyOutcome c o k : Action Obj Unit).Does (aftermath db)
      (fun g' _ => Untouched db g') g s := by
  unfold Listener.applyOutcome Action.Does
  rw [Action.meets_when]
  simp only [hn.record, Option.isSome_some, if_true]
  refine Action.meets_now_bind.mpr ⟨trivial, fun now _ => Action.meets_attempt.mpr ⟨trivial, ?_⟩⟩
  rintro x ⟨db', env, hl, hx⟩
  have hrun : DjangoDurableJobStore.applyOutcome o (now + c.policy.reconciliationDelay) env db' =
      .ok ((), db') := hb.applies hl hn hst
  simp only [StoreOp.run, hrun] at hx
  subst hx
  refine ⟨rfl, (), rfl, hq.1, hq.2.1, ?_⟩
  rintro op (_ | ⟨_, hop⟩)
  · exact hb.applies_idle hn hst
  · exact hq.2.2 op hop

theorem completeSuccess_idle (hb : Behind a id r db) (hn : Custody.Names o a)
    (hst : o.status = .succeeded) (hc : c.jobSeriesStore = true)
    (hvalid : result = .none ∨ r.seriesId.isSome ∧ result.isRecurrence)
    (hcond : result.isRecurrence = true → r.generation = a.generation) (hq : Untouched db g)
    {completedAt : Instant} : (completeSuccess c o result completedAt k).Does (aftermath db)
      (fun g' _ => Untouched db g') g s := by
  have hq' : Untouched db { g with
      operations := .completeRecurringSuccess o result.forget completedAt :: g.operations } := by
    refine ⟨hq.1, hq.2.1, ?_⟩
    rintro op (_ | ⟨_, hop⟩)
    · exact hb.completes_idle hn
    · exact hq.2.2 op hop
  unfold completeSuccess Action.Does
  rw [if_pos hc]
  refine Action.meets_attempt_bind trivial ?_ ?_
  · rintro x handled ⟨db', env, hl, hx⟩ hhandled
    have hrun : completeRecurringSuccess o result.forget completedAt env db' = _ :=
      hb.completes hl hn
    simp only [StoreOp.run, hrun] at hx
    subst hx
    cases hhandled
    rw [Routine.meets_ite]
    split
    · exact ⟨rfl, (), rfl, hq'⟩
    · rename_i hunknown
      rw [completeSingle, isRecurrence_false hvalid hcond (by simpa using hunknown)]
      exact applyOutcome_idle hb hn hst hq'
  · rintro x exc ⟨db', env, hl, hx⟩ hexc
    have hrun : completeRecurringSuccess o result.forget completedAt env db' = _ :=
      hb.completes hl hn
    simp only [StoreOp.run, hrun] at hx
    subst hx
    cases hexc

theorem recordSuccess_idle (hb : Behind a id r db) (ha : AdmissionOf L e a)
    (hc : c.jobSeriesStore = true)
    (hvalid : result = .none ∨ r.seriesId.isSome ∧ result.isRecurrence)
    (hcond : result.isRecurrence = true → r.generation = a.generation) (hq : Untouched db g) :
    (L.recordSuccess channel e h result maxRetries k c).Does (aftermath db)
      (fun g' recorded => Untouched db g' ∧ recorded = true) g s := by
  refine Action.meets_lift_bind ha.retryCount ?_
  refine Action.meets_now_bind.mpr ⟨trivial, fun now _ => ?_⟩
  refine Action.Does.bind (P := fun g' recorded => Untouched db g' ∧ recorded = true) ?_ ?_
  · refine Routine.Meets.tryCatch ((completeSuccess_idle hb ha.names rfl hc hvalid hcond hq).bind
      (Q := fun g' s' r => s' = s ∧ ∃ b, r = .ok b ∧ Untouched db g' ∧ b = true) ?_) ?_ ?_
    · intro g' _ hq'
      exact ⟨rfl, true, rfl, hq', rfl⟩
    · intro g' s' b hb
      exact hb
    · rintro g' s' exc ⟨-, b, hr, -⟩
      cases hr
  · rintro g' recorded ⟨hq', rfl⟩
    exact ⟨rfl, true, rfl, hq', rfl⟩

/-- The success of a durable command is only observed, since the store knows of it. -/
theorem announceSuccess_idle (ha : AdmissionOf L e a) {results : List (HandlerResult Obj)} :
    (L.announceSuccess channel e true maxRetries k results).Does (aftermath db)
      (fun g' dispatched => g' = g ∧ dispatched = .results results) g s := by
  refine Action.meets_lift_bind ha.retryCount ?_
  have hnotify : (L.notifyCommandOutcome e .succeeded channel none a.retryCount maxRetries (!true)
      k).Does (aftermath db) (fun g' _ => g' = g) g s := by
    unfold notifyCommandOutcome Action.Does
    rw [Action.meets_when]
    split
    · have hstore : (L.storeFailed (commandDeliveryOutcome e .succeeded channel none a.retryCount
          maxRetries) (!true) k).Does (aftermath db) (fun g' failed => g' = g ∧ failed = false)
          g s := by
        unfold storeFailed
        split <;> exact Action.does_pure ⟨rfl, rfl⟩
      refine hstore.bind ?_
      rintro g' failed ⟨rfl, rfl⟩
      refine (observe_works aftermath_works _).bind ?_
      rintro g' failed ⟨rfl, rfl⟩
      exact Action.does_pure rfl
    · exact ⟨rfl, (), rfl, rfl⟩
  refine hnotify.bind ?_
  rintro g' _ rfl
  exact ⟨rfl, _, rfl, rfl, rfl⟩

/-- Without a lost recurrence result the settlement of a superseded delivery is idle. -/
theorem settleSuccess_idle (hb : Behind a id r db) (ha : AdmissionOf L e a)
    (hcontroller : L.durableJobController = some c) (hc : c.jobSeriesStore = true)
    (hvalid : result = .none ∨ r.seriesId.isSome ∧ result.isRecurrence)
    (hcond : result.isRecurrence = true → r.generation = a.generation) :
    SettlesIdly L channel e h maxRetries k result db := by
  intro s
  have hquiet : Untouched db {} := ⟨rfl, rfl, by simp⟩
  have hconclude : (L.conclude channel e [h] true maxRetries k [result]).Does (aftermath db)
      (fun g' dispatched => Untouched db g' ∧ dispatched = .results [result]) {} s := by
    unfold conclude
    rw [hcontroller]
    refine (recordSuccess_idle hb ha hc hvalid hcond hquiet).bind ?_
    rintro g' recorded ⟨hq', rfl⟩
    rw [if_pos rfl]
    refine (announceSuccess_idle ha).mono ?_
    rintro g'' dispatched ⟨rfl, rfl⟩
    exact ⟨hq', rfl⟩
  unfold settleSuccess
  refine Routine.Meets.bind (Q := fun g' s' r => s' = s ∧ ∃ dispatched, r = .ok dispatched ∧
    Untouched db g' ∧ dispatched = .results [result]) (Routine.Meets.tryCatch hconclude ?_ ?_) ?_ ?_
  · intro g' s' d hd
    exact hd
  · rintro g' s' exc ⟨-, d, hr, -⟩
    cases hr
  · rintro g' s' dispatched ⟨rfl, d, hd, hq', rfl⟩
    cases hd
    have hfinish : L.finish e k (.results [result]) = (do ackClaim k; return some [result]) := by
      rcases hvalid with rfl | ⟨-, hrec⟩
      · rfl
      · cases result <;> first | rfl | cases hrec
    rw [hfinish]
    refine (ackClaim_works aftermath_works).bind ?_
    rintro g'' _ rfl
    refine ⟨⟨_, rfl⟩, ?_⟩
    unfold acked
    cases k.receipt with
    | none => exact ⟨hq'.1, hq'.2.1, hq'.2.2⟩
    | some receipt =>
      refine ⟨hq'.1, ?_, hq'.2.2⟩
      simp [aftermath, hq'.2.1]
  · rintro g' s' exc ⟨-, d, hr, -⟩
    cases hr

/-- Every run of the part raises what stops the worker. -/
def Aborting {α : Type} (db : Database) (p : Action Obj α) : Prop :=
  ∀ g s, p.Meets (aftermath db) (fun _ _ r => ∃ exc, r = .error exc ∧ exc.stopsWorker = true) g s

theorem Aborting.bind {α β : Type} {p : Action Obj α} {f : α → Action Obj β} (hp : Aborting db p) :
    Aborting db (p >>= f) := by
  intro g s
  refine (hp g s).bind ?_ ?_
  · rintro g' s' x ⟨exc, hr, -⟩
    cases hr
  · rintro g' s' exc ⟨exc', hr, hstops⟩
    cases hr
    exact ⟨exc, rfl, hstops⟩

theorem restore_aborts {α : Type} {reason : String} :
    Aborting db (restoreClaimedCommandAndAbort channel e reason .workerAbort k : Action Obj α) := by
  intro g s
  refine (settleAfterClaim_meets (Q := fun _ _ _ => True) "command claim recovery"
    (T := fun _ _ r => ∀ exc, r = .error exc → exc.stopsWorker = true) ?_ ?_ ?_).bind ?_ ?_
  · unfold publishEnvelope
    cases hd : e.dump with
    | error exc => exact Action.meets_lift_bind_error rfl trivial
    | ok message => exact Action.meets_lift_bind rfl ⟨trivial, fun _ _ => trivial⟩
  · intro g' s' _ exc hr
    cases hr
  · intro g' s' exc exc' _ hi exc'' hr
    cases hr
    exact Exc.stopsWorker_of_indeterminate hi
  · intro g' s' _ _
    refine (ackClaim_works aftermath_works).bind ?_
    intro g'' _ _
    exact ⟨_, rfl, rfl⟩
  · intro g' s' exc hr
    exact ⟨exc, rfl, hr exc rfl⟩

/-- A settlement of the stale generation is refused, and the copy restored. -/
theorem checkpoint_aborts (hb : Behind a id r db) (hstale : r.generation ≠ a.generation)
    (ha : AdmissionOf L e a) (hcontroller : L.durableJobController = some c)
    {status : CommandDeliveryStatus} {destination : Option String} {retries : Nat}
    {at_ : Option Instant} :
    Aborting db (L.checkpointDurableSettlement e status channel destination retries maxRetries at_
      k) := by
  intro g s
  unfold checkpointDurableSettlement
  rw [hcontroller]
  refine Routine.Meets.tryCatch (Q := fun _ _ r => ∃ exc, r = .error exc) ?_ ?_ ?_
  · refine Action.meets_now_bind.mpr ⟨trivial, fun now _ => ?_⟩
    have hsettlement : DurableJobController.settlement c.policy e now status channel destination
        retries maxRetries at_ = .ok (some {
          recordId := a.recordId, generation := a.generation, status, sourceQueue := channel
          destinationQueue := destination, retryCount := retries, maxRetries
          reconciliationDueAt := now + c.policy.reconciliationDelay, lastAttemptAt := at_ }) := by
      rw [DurableJobController.settlement, ha.identity]
      rfl
    refine Action.meets_lift_bind hsettlement (Action.meets_attempt.mpr ⟨trivial, ?_⟩)
    rintro x ⟨db', env, hl, hx⟩
    obtain ⟨r', hr', -, -, -, hgen⟩ := superseded_later hl hb.row hb.carried hb.superseded
    have hrefused := checkpointSettlement_fenced (s := {
      recordId := a.recordId, generation := a.generation, status, sourceQueue := channel
      destinationQueue := destination, retryCount := retries, maxRetries
      reconciliationDueAt := now + c.policy.reconciliationDelay, lastAttemptAt := at_ }) env
      hb.record hr' (fun heq => hstale (hgen.mp heq))
    simp only [StoreOp.run, hrefused] at hx
    subst hx
    exact ⟨_, rfl⟩
  · rintro g' s' x ⟨exc, hr⟩
    cases hr
  · intro g' s' exc _
    exact restore_aborts g' s'

theorem requeue_aborts (hb : Behind a id r db) (hstale : r.generation ≠ a.generation)
    (ha : AdmissionOf L e a) (hcontroller : L.durableJobController = some c) :
    Aborting db (L.requeue channel e maxRetries k) := by
  intro g s
  obtain ⟨typed, htyped⟩ : ∃ typed, L.isTyped e = .ok typed := by
    have hcount := ha.retryCount
    rw [Listener.retryCount] at hcount
    cases ht : L.isTyped e with
    | ok typed => exact ⟨typed, rfl⟩
    | error exc =>
      rw [ht] at hcount
      cases hcount
  refine Action.meets_lift_bind ha.retryCount ?_
  refine Action.Does.bind (P := fun _ _ => True) ?_ ?_
  · unfold Action.Does
    rw [Action.meets_when]
    split
    · exact aftermath_works.sleepFn_does.mono fun _ _ _ => trivial
    · exact ⟨rfl, (), rfl, trivial⟩
  · intro g' _ _
    refine Action.meets_now_bind.mpr ⟨trivial, fun now _ => ?_⟩
    refine Action.meets_lift_bind htyped ?_
    exact (checkpoint_aborts hb hstale ha hcontroller).bind g' s

theorem deadLetter_aborts (hb : Behind a id r db) (hstale : r.generation ≠ a.generation)
    (ha : AdmissionOf L e a) (hcontroller : L.durableJobController = some c) :
    Aborting db (L.deadLetter channel e maxRetries k) := by
  intro g s
  refine Action.meets_lift_bind ha.retryCount ?_
  exact (checkpoint_aborts hb hstale ha hcontroller).bind g s

theorem handleFailedDelivery_aborts (hb : Behind a id r db) (hstale : r.generation ≠ a.generation)
    (ha : AdmissionOf L e a) (hcontroller : L.durableJobController = some c) {spec : HandlerSpec} :
    Aborting db (L.handleFailedDelivery channel e spec k) := by
  intro g s
  refine Action.meets_lift_bind ha.retryCount ?_
  rw [Routine.meets_ite]
  split
  · refine Action.Does.bind (P := fun _ _ => True) ?_ ?_
    · unfold Action.Does
      rw [Action.meets_when]
      split
      · exact Action.meets_sleep.mpr ⟨trivial, fun _ _ => ⟨rfl, (), rfl, trivial⟩⟩
      · exact ⟨rfl, (), rfl, trivial⟩
    · intro g' _ _
      exact requeue_aborts hb hstale ha hcontroller g' s
  · exact deadLetter_aborts hb hstale ha hcontroller g s

/-- A recurrence result of a reclaimed delivery is taken for that of a job without a series. -/
theorem recordSuccess_aborts (hb : Behind a id r db) (hstale : r.generation ≠ a.generation)
    (ha : AdmissionOf L e a) (hcontroller : L.durableJobController = some c)
    (hc : c.jobSeriesStore = true) (hrec : result.isRecurrence = true) :
    Aborting db (L.recordSuccess channel e h result maxRetries k c) := by
  intro g s
  refine Action.meets_lift_bind ha.retryCount ?_
  refine Action.meets_now_bind.mpr ⟨trivial, fun now _ => ?_⟩
  refine Action.Does.bind (P := fun _ recorded => recorded = false) ?_ ?_
  · refine Routine.Meets.tryCatch
      (Q := fun g' s' r => s' = s ∧ ∃ text, r = .error (.invalidMessageDefinition text)) ?_ ?_ ?_
    · refine Routine.Meets.bind (Q := fun g' s' r => s' = s ∧
        ∃ text, r = .error (.invalidMessageDefinition text)) ?_ ?_ ?_
      · unfold completeSuccess
        rw [if_pos hc]
        refine Action.meets_attempt_bind trivial ?_ ?_
        · rintro x handled ⟨db', env, hl, hx⟩ hhandled
          have hrun : completeRecurringSuccess (commandDeliveryOutcome e .succeeded channel none
              a.retryCount maxRetries) result.forget now env db' = _ := hb.completes hl ha.names
          simp only [StoreOp.run, hrun, hstale, decide_false, Bool.false_and] at hx
          subst hx
          cases hhandled
          rw [if_neg Bool.false_ne_true, completeSingle, if_pos hrec]
          exact ⟨rfl, _, rfl⟩
        · rintro x exc ⟨db', env, hl, hx⟩ hexc
          have hrun : completeRecurringSuccess (commandDeliveryOutcome e .succeeded channel none
              a.retryCount maxRetries) result.forget now env db' = _ := hb.completes hl ha.names
          simp only [StoreOp.run, hrun] at hx
          subst hx
          cases hexc
      · rintro g' s' x ⟨-, text, hr⟩
        cases hr
      · rintro g' s' exc ⟨hs, text, hr⟩
        cases hr
        exact ⟨hs, text, rfl⟩
    · rintro g' s' x ⟨-, text, hr⟩
      cases hr
    · rintro g' s' exc ⟨rfl, text, hr⟩
      cases hr
      exact ⟨rfl, false, rfl, rfl⟩
  · rintro g' recorded rfl
    exact (handleFailedDelivery_aborts hb hstale ha hcontroller).bind g' s

theorem settleSuccess_aborts (hb : Behind a id r db) (hstale : r.generation ≠ a.generation)
    (ha : AdmissionOf L e a) (hcontroller : L.durableJobController = some c)
    (hc : c.jobSeriesStore = true) (hrec : result.isRecurrence = true) :
    Aborting db (L.settleSuccess channel e h maxRetries k result) := by
  apply Aborting.bind
  intro g s
  refine Routine.Meets.tryCatch
    (Q := fun _ _ r => ∃ exc, r = .error exc ∧ exc.stopsWorker = true) ?_ ?_ ?_
  · unfold conclude
    rw [hcontroller]
    exact (recordSuccess_aborts hb hstale ha hcontroller hc hrec).bind g s
  · rintro g' s' x ⟨exc, hr, -⟩
    cases hr
  · rintro g' s' exc ⟨exc', hr, hstops⟩
    cases hr
    have hrecover : L.recover channel e exc k = throw exc := by
      unfold Listener.recover
      exact if_pos hstops
    rw [hrecover]
    exact ⟨exc, rfl, hstops⟩

/-- There is always an answer. -/
theorem aftermath_answers (g : Aftermath) (o : Call Obj) :
    ∃ r, (aftermath db).assumes g o r := by
  cases o with
  | store op k => exact ⟨_, db, ⟨0, 1, 2, false, []⟩, ⟨[], .refl db⟩, rfl⟩
  | publish channel message k => exact ⟨.ok (), rfl⟩
  | ack receipt k => exact ⟨.ok (), rfl⟩
  | sleepFn seconds => exact ⟨.ok (), rfl⟩
  | observer i outcome k => exact ⟨.ok (), rfl⟩
  | sleep seconds => exact ⟨(), trivial⟩
  | now => exact ⟨0, trivial⟩
  | uuid4 => exact ⟨0, trivial⟩
  | _ => exact ⟨.error .doesNotExist, trivial⟩

theorem not_settlesIdly (hb : Behind a id r db) (hstale : r.generation ≠ a.generation)
    (ha : AdmissionOf L e a) (hcontroller : L.durableJobController = some c)
    (hc : c.jobSeriesStore = true) (hrec : result.isRecurrence = true) :
    ¬ SettlesIdly L channel e h maxRetries k result db := by
  intro hidle
  have hraises : Aborting db (L.settleSuccess channel e h maxRetries k result) :=
    settleSuccess_aborts hb hstale ha hcontroller hc hrec
  obtain ⟨g', x, ⟨⟨results, hok⟩, -⟩, exc, herror, -⟩ :=
    Prog.Meets.together (hidle {}) (hraises {} {}) aftermath_answers
  rw [hok] at herror
  cases herror

variable {db₀ db₁ : Database} {es₀ es : List StoreEvent} {env : Surroundings}

/-- An admitted delivery and its row after other operations. -/
theorem behind_of_admitted (hreach : Path StoreStep .empty es₀ db₀)
    (hadmitted : StoreStep db₀ ⟨.admitDelivery a, env, .ok .proceed⟩ db₁)
    (hrun : Path StoreStep db₁ es db) (hid : uuidFromText a.recordId = some id)
    (hr : db.jobs.row id = some r) (hs : Superseded a r) : Behind a id r db := by
  have hexist₁ : SeriesExist db₁ := seriesExist_step hadmitted (seriesExist_run hreach)
  have hexist : SeriesExist db := hrun.invariant (fun _ _ _ => seriesExist_step) hexist₁
  cases hadmitted with
  | ok hadmitted =>
    obtain ⟨i, q, -, hi, hq, hgen, -, hd, rfl⟩ | ⟨_, _, hdrop, -⟩ | ⟨hne, -⟩ :=
      admitDelivery_spec hadmitted
    · obtain rfl : i = id := Option.some.inj (hi.symm.trans hid)
      obtain ⟨r', hr', hc, -⟩ := carried_run hrun (Database.setJob_row hq)
        (carried_of_admitted hd hgen)
      obtain rfl : r' = r := Option.some.inj (hr'.symm.trans hr)
      exact ⟨hexist, hid, hr, hc, hs⟩
    · cases hdrop
    · exact absurd rfl hne

/-- The success of a superseded delivery is settled idly exactly when its handler returned nothing
about the recurrence, or the job is still at the generation of the delivery. -/
theorem superseded_success_iff (hreach : Path StoreStep .empty es₀ db₀)
    (hadmitted : StoreStep db₀ ⟨.admitDelivery a, env, .ok .proceed⟩ db₁)
    (hrun : Path StoreStep db₁ es db) (ha : AdmissionOf L e a)
    (hcontroller : L.durableJobController = some c) (hc : c.jobSeriesStore = true)
    (hid : uuidFromText a.recordId = some id) (hr : db.jobs.row id = some r)
    (hs : Superseded a r) (hvalid : result = .none ∨ r.seriesId.isSome ∧ result.isRecurrence) :
    SettlesIdly L channel e h maxRetries k result db ↔
      (result.isRecurrence = true → r.generation = a.generation) := by
  have hb := behind_of_admitted hreach hadmitted hrun hid hr hs
  constructor
  · intro hidle hrec
    by_contra hstale
    exact not_settlesIdly hb hstale ha hcontroller hc hrec hidle
  · exact settleSuccess_idle hb ha hcontroller hc hvalid

end Settlement

section Sample

local instance supersededTexts : Texts := .sample
local instance supersededCalendar : Calendar := .daily

/-- The command of a recurring job, as it is delivered. -/
def recurringDelivery : MessageEnvelope where
  messageId := .str "m1"
  messageType := .str "invoice.send"
  messageKind := .str "command"
  version := 1
  payload := .dict []
  headers := [(durableRecordHeader, .str "00000000-0000-0000-0000-000000000001"),
    (durableGenerationHeader, .int 1)]
  createdAt := .datetime (.utc 0)

theorem recurringDelivery_admitted :
    AdmissionOf sampleListener recurringDelivery sampleAdmission where
  controller := rfl
  identity := by decide
  retryCount := by decide
  messageId := rfl
  messageType := rfl
  version := rfl

/-- The job is reclaimed when its delivery is overdue. -/
def sampleReclaimed : List (StoreOp × Surroundings) :=
  [(.claim "w" 400000000 430000000, sampleSurroundings)]

/-- The admission in the run of the recurring job, the reclaim, and the row in the end. -/
theorem sampleReclaimed_behind : ∃ db₁ r,
    StoreStep (runAll (sampleRunning.take 2) .empty).2
      ⟨.admitDelivery sampleAdmission, sampleSurroundings, .ok .proceed⟩ db₁ ∧
    (runAll sampleReclaimed db₁).2.jobs.row 1 = some r ∧ r.seriesId.isSome = true ∧
      r.generation = 2 := by
  obtain ⟨⟨decision, db₁⟩, hadmitted, hrow⟩ := exists_ok (show
    (admitDelivery sampleAdmission sampleSurroundings
      (runAll (sampleRunning.take 2) .empty).2).toOption.any (fun x => x.1 = .proceed &&
        ((runAll sampleReclaimed x.2).2.jobs.row 1).any (fun r =>
          r.seriesId.isSome && r.generation = 2)) = true by decide)
  simp only [Bool.and_eq_true, decide_eq_true_eq, Option.any_eq_true] at hrow
  obtain ⟨rfl, r, hr, hs, hg⟩ := hrow
  exact ⟨db₁, r, .ok (show StoreOp.run (.admitDelivery _) _ _ = _ from hadmitted), hr, hs, hg⟩

theorem superseded_success_iff_none : ∃ db,
    (SettlesIdly sampleListener "pybus.jobs" recurringDelivery sampleHandler 3 ⟨some "r1", 0⟩ .none
      db ↔ ((HandlerResult.none : HandlerResult Unit).isRecurrence = true → (2 : Nat) = 1)) := by
  obtain ⟨db₁, r, hadmitted, hr, hs, hg⟩ := sampleReclaimed_behind
  have h : SettlesIdly sampleListener "pybus.jobs" recurringDelivery sampleHandler 3 ⟨some "r1", 0⟩
      .none (runAll sampleReclaimed db₁).2 ↔ _ :=
    superseded_success_iff (runAll_path _ _) hadmitted (runAll_path sampleReclaimed db₁)
      recurringDelivery_admitted rfl rfl (by decide) hr (.inl (by rw [hg]; decide))
      (.inl rfl)
  rw [hg] at h
  exact ⟨_, h⟩

/-- The end of a recurrence that a reclaimed delivery asks for stops the worker. -/
theorem superseded_result_refused : ∃ db₁ r,
    StoreStep (runAll (sampleRunning.take 2) .empty).2
      ⟨.admitDelivery sampleAdmission, sampleSurroundings, .ok .proceed⟩ db₁ ∧
    (runAll sampleReclaimed db₁).2.jobs.row 1 = some r ∧ r.seriesId.isSome = true ∧
    Superseded sampleAdmission r ∧
    AdmissionOf sampleListener recurringDelivery sampleAdmission ∧
    ¬ SettlesIdly sampleListener "pybus.jobs" recurringDelivery sampleHandler 3 ⟨some "r1", 0⟩
      .endRecurrence (runAll sampleReclaimed db₁).2 := by
  obtain ⟨db₁, r, hadmitted, hr, hs, hg⟩ := sampleReclaimed_behind
  have hsuperseded : Superseded sampleAdmission r := .inl (by rw [hg]; decide)
  have hb := behind_of_admitted (runAll_path _ _) hadmitted (runAll_path sampleReclaimed db₁)
    (by decide) hr hsuperseded
  refine ⟨db₁, r, hadmitted, hr, hs, hsuperseded, recurringDelivery_admitted, ?_⟩
  exact not_settlesIdly hb (by rw [hg]; decide) recurringDelivery_admitted rfl rfl rfl

end Sample

end Pybus
