import Pybus.Guarantees
import Pybus.Interaction.Pool
import Pybus.StoreInvariants
import Pybus.Workers

/-! Listeners, runners and clients side by side over one store. Any of them may crash between two
calls, a call of the store may fail or lose its reply, and everything else may answer anything. -/
namespace Pybus

open Texts Interaction DjangoDurableJobStore

variable {Obj : Type} [Texts]

/-- A program of the system: one `listen_once`, one `run_once`, or one call of the bus to its
store. -/
inductive Worker (Obj : Type)
  | listener (L : Listener Obj) (state : ListenerState) (channels : List String)
  | runner (R : DurableJobRunner)
  | client (op : StoreOp)

namespace Worker

def program : Worker Obj → Prog (Calls Obj) Unit
  | listener L state channels => (L.listenOnce channels state).bind fun _ => .done ()
  | runner R => (R.runOnce {}).bind fun _ => .done ()
  | client op => .call (.store op none) fun _ => .done ()

/-- The store of a listener is the Django store, which has the methods of a `JobSeriesStore`;
clients only schedule and cancel. -/
def Sound : Worker Obj → Prop
  | listener L _ _ => ∀ c, L.durableJobController = some c → c.jobSeriesStore = true
  | runner _ => True
  | client op =>
    match op with
    | .schedule _ | .scheduleRecurring _ | .cancelRecurring _ _ => True
    | _ => False

end Worker

/-- How the surroundings answer a call. The connection to the database may be lost before an
operation or after its commit; a batch buffer holds no durable deliveries. -/
inductive Answers [Calendar] : Database → (o : Call Obj) → o.Answer → Database → Prop
  | returned {db db' : Database} {op : StoreOp} {k : Option Claim} {env : Surroundings}
      {a : op.Result} : op.run env db = .ok (a, db') → Answers db (.store op k) (.ok a) db'
  | raised {db : Database} {op : StoreOp} {k : Option Claim} {env : Surroundings} {exc : Exc} :
      op.run env db = .error exc → Answers db (.store op k) (.error exc) db
  | unreached {db : Database} {op : StoreOp} {k : Option Claim} {name : String} :
      Answers db (.store op k) (.error (.other name)) db
  | unreplied {db db' : Database} {op : StoreOp} {k : Option Claim} {env : Surroundings}
      {a : op.Result} {name : String} :
      op.run env db = .ok (a, db') → Answers db (.store op k) (.error (.other name)) db'
  | buffered {db : Database} {channel : String} {limit next : Nat}
      {r : Except Exc (List RawMessage)} :
      (∀ messages, r = .ok messages → ∀ m ∈ messages, m.Undurable) →
      Answers db (.consumeMany channel limit next) r db
  | other {db : Database} {o : Call Obj} {r : o.Answer} :
      (∀ op k, o ≠ .store op k) → (∀ channel limit next, o ≠ .consumeMany channel limit next) →
      Answers db o r db

/-- The system: any number of workers, each started at any time. -/
def system (Obj : Type) [Calendar] : World (Calls Obj) Database Unit where
  starts _ p := ∃ w : Worker Obj, w.Sound ∧ p = w.program
  answers := Answers

/-- The pools the system reaches from an empty database. -/
abbrev Reached [Calendar] (P : Pool (Calls Obj) Database Unit) : Prop :=
  Reachable (system Obj).Step (World.Start .empty) P

variable [Calendar] {db db' : Database} {P P' : Pool (Calls Obj) Database Unit}
  {ms : List (Move (Calls Obj) Unit)} {m : Move (Calls Obj) Unit}

section Errors

omit [Calendar]

/-- The exceptions of a query that finds no row or gets no identifier. -/
def Unfound (exc : Exc) : Prop := exc = validationError ∨ exc = .doesNotExist

theorem outcomeRow_error {o : CommandDeliveryOutcome} {recordId : String} {exc : Exc}
    (h : outcomeRow db o recordId = .error exc) : Unfound exc := by
  unfold outcomeRow at h
  split at h
  · cases h
    exact .inl rfl
  · split at h <;> cases h

omit [Texts] in
theorem lockSeries_error {seriesId : Option Uuid} {exc : Exc}
    (h : lockSeries db seriesId = .error exc) : Unfound exc := by
  unfold lockSeries at h
  split at h
  · cases h
  · split at h <;> cases h
    exact .inr rfl

theorem guardedSeriesUpdate_error {recordId : String} {p : DurableJob → Bool}
    {st : DurableJobState} {f : DurableJob → DurableJob} {cancelledAt : Instant} {exc : Exc}
    (h : guardedSeriesUpdate recordId p st f cancelledAt db = .error exc) : Unfound exc := by
  unfold guardedSeriesUpdate at h
  simp only [bind, Except.bind, pure, Except.pure] at h
  split at h
  · cases h
    exact .inl rfl
  split at h
  · cases h
  split at h
  · cases h
  split at h
  · rename_i hl
    cases h
    exact lockSeries_error hl
  split at h
  · split at h <;> cases h
  · split at h
    · cases h
    split at h
    · cases h
    split at h <;> cases h

theorem finishDeadLetterFromOutcome_error {o : CommandDeliveryOutcome} {recordId : String}
    {env : Surroundings} {exc : Exc}
    (h : finishDeadLetterFromOutcome o recordId env db = .error exc) : Unfound exc := by
  unfold finishDeadLetterFromOutcome at h
  simp only [bind, Except.bind, pure, Except.pure] at h
  split at h
  · rename_i hr
    cases h
    exact outcomeRow_error hr
  split at h
  · cases h
  split at h
  · rename_i hl
    cases h
    exact lockSeries_error hl
  split at h <;> cases h

/-- What `apply_outcome` can raise. -/
theorem applyOutcome_error {o : CommandDeliveryOutcome} {due : Instant} {env : Surroundings}
    {exc : Exc} (h : applyOutcome o due env db = .error exc) : Unfound exc := by
  unfold applyOutcome at h
  simp only [bind, Except.bind, pure, Except.pure] at h
  split at h
  · split at h
    · cases h
      exact .inl rfl
    split at h
    · cases h
    · split at h
      · rename_i hr
        cases h
        exact outcomeRow_error hr
      split at h
      · cases h
      · split at h <;> cases h
    · exact finishDeadLetterFromOutcome_error h
    all_goals
      split at h
      · rename_i hg
        cases h
        exact guardedSeriesUpdate_error hg
      · cases h
  · cases h

end Errors

/-- Every answer is one that the monitor of custody expects. -/
theorem Answers.assumed {o : Call Obj} {r : o.Answer} (h : Answers db o r db') (g : Custody) :
    (custody Obj).assumes g o r := by
  cases h with
  | @raised op k env exc h =>
    cases op with
    | applyOutcome o due =>
      cases exc with
      | invalidMessageDefinition m =>
        rcases applyOutcome_error h with he | he <;> cases he
      | _ => trivial
    | _ => trivial
  | @unreached op k name => cases op <;> trivial
  | @unreplied _ op k env a name h => cases op <;> trivial
  | @returned _ op k env a h => cases op <;> trivial
  | @buffered channel limit next r h =>
    cases r with
    | ok messages => exact h messages rfl
    | error exc => trivial
  | other hs hc =>
    cases o with
    | store op k => exact absurd rfl (hs op k)
    | consumeMany channel limit next => exact absurd rfl (hc channel limit next)
    | _ => trivial

omit [Calendar] in
/-- Every worker keeps to the custody. -/
theorem Worker.meets {w : Worker Obj} (h : w.Sound) :
    w.program.Meets (custody Obj) (fun _ _ => True) .idle := by
  cases w with
  | listener L state channels =>
    exact Prog.meets_bind.mpr ((Custody.listenOnce_meets h (s := state)).mono fun _ _ _ _ => trivial)
  | runner R =>
    exact Prog.meets_bind.mpr ((Custody.runOnce_meets (s := {})).mono fun _ _ _ _ => trivial)
  | client op =>
    refine ⟨?_, fun _ _ => trivial⟩
    cases op <;> trivial

/-- The custody of every worker of the system. -/
def watch (Obj : Type) : Watch (system Obj) Custody where
  monitor := custody Obj
  begin := .idle
  ends _ _ := True
  starts := by
    rintro s p ⟨w, hw, rfl⟩
    exact w.meets hw
  answers _ _ _ _ h g := h.assumed g

/-- An answer of the store comes from one of its operations, or nothing has happened. -/
theorem Answers.step {op : StoreOp} {k : Option Claim} {r : Except Exc op.Result}
    (h : Answers db (.store op k : Call Obj) r db') :
    db' = db ∨ ∃ env result, StoreStep db ⟨op, env, result⟩ db' := by
  cases h with
  | returned h => exact .inr ⟨_, _, .ok h⟩
  | raised _ => exact .inl rfl
  | unreached => exact .inl rfl
  | unreplied h => exact .inr ⟨_, _, .ok h⟩
  | other hs _ => exact absurd rfl (hs op k)

theorem Answers.of_ok {op : StoreOp} {k : Option Claim} {a : op.Result}
    (h : Answers db (.store op k : Call Obj) (.ok a) db') :
    ∃ env, op.run env db = .ok (a, db') := by
  cases h with
  | returned h => exact ⟨_, h⟩
  | other hs _ => exact absurd rfl (hs op k)

/-- A delivery that may proceed was found and admitted. -/
theorem Answers.proceeded {a : DurableDeliveryAdmission} {k : Option Claim}
    (h : Answers db (.store (.admitDelivery a) k : Call Obj) (.ok .proceed) db') :
    ∃ id r now, uuidFromText a.recordId = some id ∧ db.jobs.row id = some r ∧
      r.generation = a.generation ∧ seriesOpen db r = true ∧ decideAdmission a r = .proceed ∧
      db' = db.setJob id (r.admitted a now) := by
  obtain ⟨env, hrun⟩ := h.of_ok
  rcases admitDelivery_spec hrun with ⟨id, r, -, hid, hr, hg, ho, hd, rfl⟩ |
    ⟨id, r, hd, -⟩ | ⟨hne, -⟩
  · exact ⟨id, r, env.now, hid, hr, hg, ho, hd, rfl⟩
  · cases hd
  · exact absurd rfl hne

/-- What later states keep of a row. -/
structure Continues (r r' : DurableJob) : Prop where
  series : r'.seriesId = r.seriesId
  messageId : r'.messageId = r.messageId
  messageType : r'.messageType = r.messageType
  version : r'.version = r.version
  generation : r.generation ≤ r'.generation
  maxRetries : r.maxRetries.isSome → r'.maxRetries = r.maxRetries

omit [Texts] [Calendar] in
theorem Continues.refl (r : DurableJob) : Continues r r := ⟨rfl, rfl, rfl, rfl, le_rfl, fun _ => rfl⟩

omit [Calendar] in
theorem JobChange.continues {env : Surroundings} {op : StoreOp} {id : Uuid} {r r' : DurableJob}
    (h : JobChange db env op id r r') : Continues r r' := by
  have hg := h.generation_le
  cases h with
  | published _ _ _ _ =>
    unfold DurableJob.publish at hg ⊢
    split <;> exact ⟨rfl, rfl, rfl, rfl, le_rfl, fun _ => rfl⟩
  | admitted _ _ _ _ =>
    refine ⟨rfl, rfl, rfl, rfl, hg, fun hs => ?_⟩
    obtain ⟨m, hm⟩ := Option.isSome_iff_exists.mp hs
    simp [DurableJob.admitted, hm]
  | _ => exact ⟨rfl, rfl, rfl, rfl, hg, fun _ => rfl⟩

/-- What an answer leaves of a row: the row itself, or one change of it. -/
theorem Answers.change {o : Call Obj} {x : o.Answer} {id : Uuid} {r : DurableJob}
    (h : Answers db o x db') (hr : db.jobs.row id = some r) :
    ∃ r', db'.jobs.row id = some r' ∧
      (r' = r ∨ ∃ env op k, o = .store op k ∧ JobChange db env op id r r') := by
  cases h with
  | @returned _ op k env a h =>
    obtain ⟨r', hr', hcase⟩ := (Changes.of_run h).job id r hr
    exact ⟨r', hr', hcase.imp_right fun hj => ⟨env, op, k, rfl, hj⟩⟩
  | @unreplied _ op k env a name h =>
    obtain ⟨r', hr', hcase⟩ := (Changes.of_run h).job id r hr
    exact ⟨r', hr', hcase.imp_right fun hj => ⟨env, op, k, rfl, hj⟩⟩
  | raised _ | unreached | buffered _ | other _ _ => exact ⟨r, hr, .inl rfl⟩

theorem Answers.continues {o : Call Obj} {x : o.Answer} {id : Uuid} {r : DurableJob}
    (h : Answers db o x db') (hr : db.jobs.row id = some r) :
    ∃ r', db'.jobs.row id = some r' ∧ Continues r r' := by
  obtain ⟨r', hr', rfl | ⟨env, op, k, -, hj⟩⟩ := h.change hr
  · exact ⟨r', hr', .refl r'⟩
  · exact ⟨r', hr', hj.continues⟩

/-- A row that an admission found and that still stands. -/
def Stands (db : Database) (a : DurableDeliveryAdmission) (p : DurableJob → Prop) : Prop :=
  ∃ id r, uuidFromText a.recordId = some id ∧ db.jobs.row id = some r ∧
    a.generation ≤ r.generation ∧ p r

theorem Stands.after {a : DurableDeliveryAdmission} {o : Call Obj} {x : o.Answer}
    {p q : DurableJob → Prop} (h : Answers db o x db') (hs : Stands db a p)
    (hpq : ∀ r r', a.generation ≤ r.generation → Continues r r' → p r → q r') :
    Stands db' a q := by
  obtain ⟨id, r, hid, hr, hg, hp⟩ := hs
  obtain ⟨r', hr', hc⟩ := h.continues hr
  exact ⟨id, r', hid, hr', hg.trans hc.generation, hpq r r' hg hc hp⟩

omit [Calendar] in
/-- A row that matches an outcome of its admission has matched it ever since. -/
theorem Continues.matches {a : DurableDeliveryAdmission} {out : CommandDeliveryOutcome}
    {r r' : DurableJob} (h : Continues r r') (hn : Custody.Names out a)
    (hg : a.generation ≤ r.generation) (hm : r'.matchesOutcome out = true) : r.matchesOutcome out = true := by
  simp only [DurableJob.matchesOutcome, Bool.and_eq_true, decide_eq_true_eq] at hm ⊢
  obtain ⟨⟨⟨⟨⟨hgen, h₁⟩, h₂⟩, h₃⟩, h₄⟩, h₅⟩ := hm
  rw [h.messageId] at h₂
  rw [h.messageType] at h₄
  rw [h.version] at h₅
  have heq : r.generation = r'.generation := by
    have := h.generation
    rw [hn.generation] at hgen
    injection hgen with hgen
    omega
  exact ⟨⟨⟨⟨⟨by rw [hgen, heq], h₁⟩, h₂⟩, h₃⟩, h₄⟩, h₅⟩

/-- Only the store changes the database. -/
theorem Answers.same {o : Call Obj} {r : o.Answer} (h : Answers db o r db')
    (ho : ∀ op k, o ≠ .store op k) : db' = db := by
  cases h with
  | returned _ | raised _ | unreached | unreplied _ => exact absurd rfl (ho _ _)
  | buffered _ | other _ _ => rfl

section Sample

/-- Surroundings that answer at one time: the store does what it is told, handlers end in one way,
every channel has one message, and nothing else fails. -/
def sampleAnswer (env : Surroundings) (inbox : RawMessage)
    (handled : Except Exc (HandlerResult Unit)) (db : Database) :
    (o : Call Unit) → o.Answer × Database
  | .store op _ =>
    match op.run env db with
    | .ok (a, db') => (.ok a, db')
    | .error exc => (.error exc, db)
  | .consume _ _ _ => (.ok (some inbox), db)
  | .consumeMany _ _ _ => (.ok [], db)
  | .size _ => (.ok 0, db)
  | .handler _ _ _ _ => (handled, db)
  | .publish _ _ _ | .ack _ _ | .batchHandler _ _ _ | .observer _ _ _ | .publisher _ _
  | .sleepFn _ => (.ok (), db)
  | .sleep _ => ((), db)
  | .now => (env.now, db)
  | .uuid4 => (env.fresh, db)

theorem sampleAnswer_answers {env : Surroundings} {inbox : RawMessage}
    {handled : Except Exc (HandlerResult Unit)} (db : Database) (o : Call Unit) :
    Answers db o (sampleAnswer env inbox handled db o).1 (sampleAnswer env inbox handled db o).2 := by
  cases o with
  | store op k =>
    simp only [sampleAnswer]
    split
    · rename_i h
      exact .returned h
    · rename_i h
      exact .raised h
  | consumeMany channel limit next =>
    refine .buffered ?_
    intro messages h m hm
    cases h
    cases hm
  | _ => exact .other (by intro op k h; cases h) (by intro channel limit next h; cases h)

def sampleRunner : DurableJobRunner := { workerId := "w" }

def sampleWorker : Worker Unit := .listener sampleListener {} ["pybus.jobs"]

/-- A job is scheduled and published, and a listener with a retry limit has made some of its calls. -/
def sampleDelivered (schedule : StoreOp) (maxRetries calls : Nat) :
    Pool (Calls Unit) Database Unit :=
  let answer := sampleAnswer sampleSurroundings sampleDelivery (.ok .none)
  let L := { sampleListener with retryPolicy := { maxRetries } }
  let P : Pool (Calls Unit) Database Unit := ⟨.empty, []⟩
  let P := (P.begin (Worker.client schedule).program).turns [0] answer
  let P := (P.begin (Worker.runner sampleRunner).program).turns (List.replicate 5 1) answer
  (P.begin (Worker.listener L {} ["pybus.jobs"]).program).turns (List.replicate calls 2) answer

theorem reached_empty : Reached (⟨.empty, []⟩ : Pool (Calls Unit) Database Unit) :=
  ⟨_, [], ⟨rfl, rfl⟩, .refl _⟩

theorem sampleDelivered_reached {schedule : StoreOp} {maxRetries calls : Nat}
    (h : (Worker.client schedule : Worker Unit).Sound) :
    Reached (sampleDelivered schedule maxRetries calls) := by
  refine .turns (.begin (.turns (.begin (.turns (.begin reached_empty ⟨.client schedule, h, rfl⟩)
    sampleAnswer_answers) ⟨.runner sampleRunner, trivial, rfl⟩) sampleAnswer_answers)
    ⟨.listener { sampleListener with retryPolicy := { maxRetries } } {} ["pybus.jobs"], ?_, rfl⟩)
    sampleAnswer_answers
  intro c hc
  cases hc
  rfl

end Sample

end Pybus
