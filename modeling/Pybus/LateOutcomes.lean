import Pybus.Exclusion

/-! The late outcome of an earlier delivery: `apply_outcome` asks for the generation and the state of
a row, but not whether a later delivery of the same generation has settled it in the meantime. -/
namespace Pybus

open Texts Interaction DjangoDurableJobStore

section Workers

variable {Obj : Type} [Texts]

/-- A row that the confirmation of a retry or a continuation resumes. -/
def Resumes (db : Database) (op : StoreOp) (id : Uuid) (r : DurableJob)
    (o : CommandDeliveryOutcome) : Prop :=
  ∃ due recordId, op = .applyOutcome o due ∧ o.status ∈ [.retryScheduled, .continued] ∧
    o.durableRecordId = some recordId ∧ uuidFromText recordId = some id ∧
    db.jobs.row id = some r ∧ r.matchesOutcome o = true ∧ r.state = .settling ∧
    seriesOpen db r = true

/-- No retry or continuation is confirmed for a row that has counted further since. -/
def StoreOp.Timely (db : Database) (op : StoreOp) : Prop :=
  ∀ id r o, Resumes db op id r o → r.retryCount ≤ o.retryCount

variable {db db' : Database} {env : Surroundings} {op : StoreOp} {id : Uuid} {r r' : DurableJob}

/-- A timely change never lowers a retry count. -/
theorem JobChange.retryCount_le (h : JobChange db env op id r r') (hr : db.jobs.row id = some r)
    (ht : op.Timely db) : r.retryCount ≤ r'.retryCount := by
  cases h with
  | published _ _ _ _ => simp
  | claimed _ _ =>
    simp only [DurableJob.claim]
    split <;> omega
  | admitted _ _ _ hd =>
    have hcount := (decideAdmission_proceed hd).2.2.2.1
    simp only [DurableJob.admitted]
    omega
  | checkpointed _ _ hle _ _ _ => exact hle
  | resumed hrec hid hst hm hset ho =>
    exact ht id r _ ⟨_, _, rfl, hst, hrec, hid, hr, hm, hset, ho⟩
  | _ => exact le_rfl

/-- What the confirmation of a retry or a continuation leaves. -/
theorem Resumes.run [Calendar] {a : op.Result} {o : CommandDeliveryOutcome}
    (h : Resumes db op id r o) (hrun : op.run env db = .ok (a, db')) :
    ∃ due, db' = db.setJob id (r.resume o due) := by
  obtain ⟨due, recordId, rfl, hst, hrec, hid, hr, hm, hset, ho⟩ := h
  have hgen : o.durableGeneration = some (r.generation : Int) := by
    simp only [DurableJob.matchesOutcome, Bool.and_eq_true, decide_eq_true_eq] at hm
    exact hm.1.1.1.1.1
  have hupdate : guardedSeriesUpdate recordId (·.matchesOutcome o) r.state (·.resume o due) env.now
      db = .ok (1, db.setJob id (r.resume o due)) := guardedSeriesUpdate_open hid hr hm ho
  rw [hset] at hupdate
  refine ⟨due, ?_⟩
  simp only [StoreOp.run, applyOutcome, hrec, hgen, hid, hupdate, bind, Except.bind, pure,
    Except.pure, Option.isNone_some, Bool.false_eq_true, if_false] at hrun
  simp only [List.mem_cons, List.not_mem_nil, or_false] at hst
  rcases hst with hst | hst <;> simp only [hst] at hrun <;> cases hrun <;> rfl

/-- The system of workers, as long as nothing is confirmed too late. -/
def TimelyStep [Calendar] (P : Pool (Calls Obj) Database Unit) (m : Move (Calls Obj) Unit)
    (P' : Pool (Calls Obj) Database Unit) : Prop :=
  (system Obj).Step P m P' ∧
    ∀ i op k x, m = .call i ⟨.store op k, x⟩ → op.Timely P.shared

variable [Calendar] {P P' : Pool (Calls Obj) Database Unit} {m : Move (Calls Obj) Unit}
  {ms : List (Move (Calls Obj) Unit)}

theorem TimelyStep.retryCount_le (h : TimelyStep P m P') (hr : P.shared.jobs.row id = some r) :
    ∃ r', P'.shared.jobs.row id = some r' ∧ r.retryCount ≤ r'.retryCount := by
  obtain ⟨hm, ht⟩ := h
  rcases hm.shared with ⟨p, -, hs⟩ | ⟨i, log, o, k, x, rfl, -, ha⟩
  · exact ⟨r, hs ▸ hr, le_rfl⟩
  · obtain ⟨r', hr', rfl | ⟨env, op, c, rfl, hj⟩⟩ := Answers.change ha hr
    · exact ⟨r', hr', le_rfl⟩
    · exact ⟨r', hr', hj.retryCount_le hr (ht i op c x rfl)⟩

/-- No retry count falls in a run without late confirmations; and an operation that succeeds lowers
no retry count if and only if it is no late confirmation. -/
theorem retry_count_never_falls :
    (∀ (P P' : Pool (Calls Obj) Database Unit) ms, Path TimelyStep P ms P' →
      ∀ id r, P.shared.jobs.row id = some r →
        ∃ r', P'.shared.jobs.row id = some r' ∧ r.retryCount ≤ r'.retryCount) ∧
    ∀ db (op : StoreOp) env a db', op.run env db = .ok (a, db') →
      ((∀ id r r', db.jobs.row id = some r → db'.jobs.row id = some r' →
        r.retryCount ≤ r'.retryCount) ↔ op.Timely db) := by
  constructor
  · intro P P' ms h
    induction h with
    | refl => exact fun id r hr => ⟨r, hr, le_rfl⟩
    | head hs _ ih =>
      intro id r hr
      obtain ⟨r₁, hr₁, h₁⟩ := hs.retryCount_le hr
      obtain ⟨r₂, hr₂, h₂⟩ := ih id r₁ hr₁
      exact ⟨r₂, hr₂, h₁.trans h₂⟩
  · intro db op env a db' hrun
    constructor
    · intro h id r o hres
      obtain ⟨due, rfl⟩ := hres.run hrun
      obtain ⟨-, -, -, -, -, -, hr, -⟩ := hres
      exact h id r _ hr (Database.setJob_row hr)
    · intro ht id r r' hr hr'
      obtain ⟨q, hq, rfl | hj⟩ := (Changes.of_run hrun).job id r hr
      · rw [hq] at hr'
        cases hr'
        exact le_rfl
      · rw [hq] at hr'
        cases hr'
        exact hj.retryCount_le hr ht

/-- A job that is being dead-lettered. -/
def DeadLetterIntent (r : DurableJob) : Prop :=
  (r.state = .settling ∨ r.state = .claimed) ∧ r.settlementStatus = some .deadLettered

/-- A job that is being dead-lettered, or whose dead letter or cancellation is recorded. -/
def Doomed (r : DurableJob) : Prop :=
  DeadLetterIntent r ∨ r.state = .deadLettered ∨ r.state = .cancelled

/-- No retry or continuation is confirmed for a job that is being dead-lettered, and no delivery of
it is taken from its dead-letter queue. -/
def StoreOp.Orderly (db : Database) (op : StoreOp) : Prop :=
  (∀ id r o, Resumes db op id r o → r.settlementStatus ≠ some .deadLettered) ∧
  ∀ a id r, op = .admitDelivery a → uuidFromText a.recordId = some id →
    db.jobs.row id = some r → DeadLetterIntent r → a.sourceQueue ≠ r.queue

/-- A claim knows the settlement of the row it was taken on. -/
def Informed (db : Database) (g : Custody) : Prop :=
  ∀ c, g = .claimed c → ∃ id r, uuidFromText c.id = some id ∧ db.jobs.row id = some r ∧
    c.generation ≤ r.generation ∧
    (r.generation = c.generation → r.state = .claimed → r.settlementStatus = c.settlementStatus)

omit [Calendar] in
theorem Informed.row {g : Custody} {c : DurableJobClaim} (h : Informed db g) (hg : g = .claimed c)
    (hid : uuidFromText c.id = some id) (hr : db.jobs.row id = some r)
    (hgen : r.generation = c.generation) (hst : r.state = .claimed) :
    r.settlementStatus = c.settlementStatus := by
  obtain ⟨i, q, hi, hq, -, hs⟩ := h c hg
  rw [hid] at hi
  cases hi
  rw [hr] at hq
  cases hq
  exact hs hgen hst

omit [Calendar] in
/-- Only a claim brings a row to be claimed. -/
theorem JobChange.claimed_before (h : JobChange db env op id r r') (hst : r'.state = .claimed) :
    r.generation < r'.generation := by
  rcases h.generation with ⟨-, hne⟩ | ⟨w, now, lease, -, rfl⟩
  · exact absurd hst hne
  · simp [DurableJob.claim]

theorem Informed.after {o : Call Obj} {x : o.Answer} {g : Custody} (h : Answers db o x db')
    (hk : Informed db g) : Informed db' g := by
  intro c hg
  obtain ⟨id, r, hid, hr, hle, hs⟩ := hk c hg
  obtain ⟨r', hr', rfl | ⟨env, op, k, -, hj⟩⟩ := h.change hr
  · exact ⟨id, r', hid, hr', hle, hs⟩
  · refine ⟨id, r', hid, hr', hle.trans hj.generation_le, ?_⟩
    intro hgen hst
    have := hj.claimed_before hst
    omega

theorem Informed.own {o : Call Obj} {x : o.Answer} {g : Custody} (h : Answers db o x db')
    (hk : Informed db g) : Informed db' ((custody Obj).next g o x) := by
  have hk' := hk.after h
  cases o with
  | store op k =>
    have hspec := Custody.after_spec g op x
    change Informed db' (g.after op x)
    generalize g.after op x = g' at hspec
    cases hspec with
    | same _ => exact hk'
    | @claimed workerId now lease c =>
      intro c' hc
      cases hc
      obtain ⟨env, hrun⟩ := h.of_ok
      rcases claim_spec hrun with ⟨hx, -⟩ | ⟨id, r, hx, hr, -, -, hrow, rfl⟩
      · cases hx
      · cases hx
        exact ⟨id, _, uuid_round id, Database.setJob_row hrow, le_rfl, fun _ _ => rfl⟩
    | ended | held | settled _ | single _ =>
      intro c hc
      cases hc
  | _ => exact hk'

/-- Nobody is admitted to a job that is being dead-lettered. -/
theorem Doomed.not_admitted {a : DurableDeliveryAdmission} {k : Option Claim} (h : Doomed r)
    (hr : db.jobs.row id = some r) (ho : (StoreOp.admitDelivery a).Orderly db)
    (ha : Answers db (.store (.admitDelivery a) k : Call Obj) (.ok .proceed) db') :
    uuidFromText a.recordId ≠ some id := by
  intro hid
  obtain ⟨i, q, now, hi, hq, -, -, hd, -⟩ := ha.proceeded
  rw [hid] at hi
  cases hi
  rw [hr] at hq
  cases hq
  obtain ⟨hst, -, hm, -⟩ := decideAdmission_proceed hd
  rcases h with hintent | hs | hs
  · simp only [DurableJob.matchesAdmission, Bool.and_eq_true, decide_eq_true_eq] at hm
    exact ho.2 a id r rfl hid hr hintent hm.1.2.symm
  · simp [hs] at hst
  · simp [hs] at hst

end Workers

section Sample

local instance lateTexts : Texts := .sample
local instance lateZones : Zones := .utc

/-- A listener whose command has a class. -/
def sampleTyped (maxRetries : Nat) : Listener Unit :=
  { sampleListener with
    dispatcher := { sampleListener.dispatcher with
      registry := { sampleRegistry with
        messageClasses := [(("command", "invoice.send"), ⟨"SendInvoice", "invoice.send", 1, .ok⟩)] } }
    retryPolicy := { maxRetries } }

/-- The last copy that a worker has published. -/
def sampleCopy (P : Pool (Calls Unit) Database Unit) (i : Nat) : RawMessage where
  bytes := (P.threads[i]?.bind fun T => T.log.reverse.findSome? fun e =>
    match e.op with
    | .publish _ message _ => some message
    | .publisher envelope _ => envelope.dump.toOption
    | _ => none).getD (.json .null)
  receipt := some "r1"

/-- A worker joins the pool and makes some calls; its handler raises. -/
def sampleJoin (P : Pool (Calls Unit) Database Unit) (w : Worker Unit) (inbox : RawMessage)
    (now : Instant) (calls : Nat) : Pool (Calls Unit) Database Unit :=
  (P.begin w.program).turns (List.replicate calls P.threads.length)
    (sampleAnswer ⟨now, 1, 2, false, []⟩ inbox (.error (.runtimeError "handler")))

theorem sampleJoin_reached {P : Pool (Calls Unit) Database Unit} {w : Worker Unit}
    {inbox : RawMessage} {now : Instant} {calls : Nat} (h : Reached P) (hw : w.Sound) :
    Reached (sampleJoin P w inbox now calls) :=
  (h.begin ⟨w, hw, rfl⟩).turns sampleAnswer_answers

theorem sampleTyped_sound {maxRetries : Nat} {channels : List String} :
    (Worker.listener (sampleTyped maxRetries) {} channels).Sound := by
  intro c hc
  cases hc
  rfl

/-- A job is scheduled and published; a first listener retries it and publishes the copy, but has
not told the store; a second one takes the copy and has settled it in turn. -/
def sampleOvertaken (maxRetries calls : Nat) : Pool (Calls Unit) Database Unit :=
  let P : Pool (Calls Unit) Database Unit := ⟨.empty, []⟩
  let P := sampleJoin P (.client (.schedule sampleDraft)) sampleDelivery 0 1
  let P := sampleJoin P (.runner sampleRunner) sampleDelivery 0 5
  let P := sampleJoin P (.listener (sampleTyped maxRetries) {} ["pybus.jobs"]) (sampleCopy P 1) 0 15
  sampleJoin P (.listener (sampleTyped maxRetries) {} ["pybus.jobs"]) (sampleCopy P 2) 0 calls

theorem sampleOvertaken_reached {maxRetries calls : Nat} :
    Reached (sampleOvertaken maxRetries calls) := by
  refine sampleJoin_reached ?_ sampleTyped_sound
  refine sampleJoin_reached ?_ sampleTyped_sound
  refine sampleJoin_reached ?_ trivial
  exact sampleJoin_reached reached_empty trivial

/-- The first listener tells the store of its retry at last. -/
def sampleLateOutcome (P : Pool (Calls Unit) Database Unit) : Pool (Calls Unit) Database Unit :=
  P.turns [2] (sampleAnswer sampleSurroundings sampleDelivery (.ok .none))

theorem sampleLateOutcome_step {P : Pool (Calls Unit) Database Unit} :
    sampleLateOutcome P = P ∨ ∃ m, (system Unit).Step P m (sampleLateOutcome P) :=
  Pool.turn_step (W := system Unit) sampleAnswer_answers

/-- Two listeners have retried the job, and the first one's outcome takes the second retry back. -/
theorem retry_count_falls : ∃ (P P' : Pool (Calls Unit) Database Unit) (m : Move (Calls Unit) Unit)
    (r r' : DurableJob), Reached P ∧ (system Unit).Step P m P' ∧ P.shared.jobs.row 1 = some r ∧
      P'.shared.jobs.row 1 = some r' ∧ r'.retryCount < r.retryCount := by
  obtain ⟨r, hr, hn⟩ := (Option.any_eq_true _ _).mp (show
    ((sampleOvertaken 2 15).shared.jobs.row 1).any (fun r => r.retryCount = 2) = true by
      decide +kernel)
  obtain ⟨r', hr', hn'⟩ := (Option.any_eq_true _ _).mp (show
    ((sampleLateOutcome (sampleOvertaken 2 15)).shared.jobs.row 1).any
      (fun r => r.retryCount = 1) = true by decide +kernel)
  simp only [decide_eq_true_eq] at hn hn'
  rcases sampleLateOutcome_step (P := sampleOvertaken 2 15) with he | ⟨m, hm⟩
  · rw [he, hr] at hr'
    cases hr'
    omega
  · exact ⟨_, _, m, r, r', sampleOvertaken_reached, hm, hr, hr', by omega⟩

/-- A second runner starts, and looks for due jobs: no retry count falls. -/
theorem retry_count_never_falls_twice : ∃ (P P' : Pool (Calls Unit) Database Unit)
    (r r' : DurableJob) (c : Option DurableJobClaim) (db' : Database), Reached P ∧
    Path TimelyStep P [.start (Worker.runner sampleRunner).program] P' ∧
    P.shared.jobs.row 1 = some r ∧ r.retryCount = 2 ∧ P'.shared.jobs.row 1 = some r' ∧
    r.retryCount ≤ r'.retryCount ∧
    claim "w" 300000000 330000000 sampleSurroundings P'.shared = .ok (c, db') ∧
    ∀ r'', db'.jobs.row 1 = some r'' → r'.retryCount ≤ r''.retryCount := by
  obtain ⟨r, hr, hn⟩ := (Option.any_eq_true _ _).mp (show
    ((sampleOvertaken 2 15).shared.jobs.row 1).any (fun r => r.retryCount = 2) = true by
      decide +kernel)
  obtain ⟨⟨c, db'⟩, hok, -⟩ := exists_ok (show (claim "w" 300000000 330000000 sampleSurroundings
    (sampleOvertaken 2 15).shared).toOption.any (fun _ => true) = true by decide +kernel)
  have hreach : Reached (sampleOvertaken 2 15) := sampleOvertaken_reached
  generalize sampleOvertaken 2 15 = P at hr hok hreach
  have hpath : Path TimelyStep P [.start (Worker.runner sampleRunner).program]
      (P.begin (Worker.runner sampleRunner).program) :=
    .head ⟨.start ⟨.runner sampleRunner, trivial, rfl⟩, fun _ _ _ _ h => by cases h⟩ (.refl _)
  obtain ⟨r', hr', hle⟩ := retry_count_never_falls.1 _ _ _ hpath 1 r hr
  refine ⟨P, _, r, r', c, db', hreach, hpath, hr, by simpa using hn, hr', hle, hok, ?_⟩
  intro r'' hr''
  have htimely : (StoreOp.claim "w" 300000000 330000000).Timely P.shared := by
    intro id q o hq
    obtain ⟨_, _, hop, -⟩ := hq
    cases hop
  exact ((@retry_count_never_falls Unit _ _).2 P.shared (.claim _ _ _) sampleSurroundings c db'
    hok).mpr htimely 1 r' r'' hr' hr''

end Sample

end Pybus
