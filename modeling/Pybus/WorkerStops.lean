import Pybus.WorkerTraces

/-! A worker that is stopped while it runs: what a call to `stop` does to the polls of the thread
that runs it. -/
namespace Pybus

open Interaction

variable {Obj α : Type}

namespace PollingWorker

/-- Where a thread stands with regard to a run and its polls. -/
inductive Stage
  | outside
  | inside
  | admitted
  | polling
  deriving DecidableEq

namespace Stage

/-- The stage a thread is in after a call. -/
def after : WorkerEvent Obj → Stage
  | ⟨.enterRun, running⟩ => if running then outside else inside
  | ⟨.admitPoll, stopped⟩ => if stopped then inside else admitted
  | ⟨.begin .listenOnce, _⟩ => polling
  | ⟨.leaveRun, _⟩ | ⟨.stop, _⟩ => outside
  | _ => inside

/-- The stage in which a call is made. -/
def before : WorkerCall Obj → Stage
  | .enterRun | .stop => outside
  | .begin .listenOnce => admitted
  | .finish .listenOnce => polling
  | _ => inside

end Stage

/-- The stage of a thread that has made some calls. -/
def stage (log : List (WorkerEvent Obj)) : Stage := log.foldl (fun _ e => .after e) .outside

/-- Follows the stage of a thread. -/
def stages (Obj : Type) : Monitor (WorkerCalls Obj) Stage where
  permits g o := g = .before o
  assumes _ _ _ := True
  next _ o r := .after ⟨o, r⟩

/-- A run that has ended is left; one that has been looked at long enough is not. -/
def Ends (g : Stage) (a : Outcome) : Prop := a.1 ≠ .ok false → g = .outside

section Stages

variable {hooks s : List Nat} {g : Stage} {p : WorkerAction Obj α}

/-- A part of a run that does not come to an admission. -/
def Stays (p : WorkerAction Obj α) : Prop :=
  ∀ s, p.Meets (stages Obj) (fun g _ _ => g = .inside) .inside s

theorem stays_pure {a : α} : Stays (pure a : WorkerAction Obj α) := fun _ => rfl

theorem stays_raise {exc : Exc} : Stays (Routine.raise exc : WorkerAction Obj α) := fun _ => rfl

theorem Stays.bind {β : Type} {f : α → WorkerAction Obj β} (h : Stays p) (hf : ∀ a, Stays (f a)) :
    Stays (p >>= f) := by
  intro s
  refine (h s).bind ?_ ?_
  · rintro g' s' a rfl
    exact hf a s'
  · rintro g' s' exc rfl
    rfl

theorem Stays.caught (h : Stays p) : Stays p.caught := fun s => Routine.Meets.caught (h s)

theorem stays_callback {c : Callback Obj} (h : c ≠ .listenOnce) : Stays (callback c) := by
  intro s
  cases c with
  | listenOnce => exact absurd rfl h
  | _ => exact ⟨rfl, fun _ _ => ⟨rfl, fun _ _ => rfl⟩⟩

theorem stays_isSet : Stays (ask .isSet : WorkerAction Obj Bool) := fun _ => ⟨rfl, fun _ _ => rfl⟩

theorem stays_wait : Stays (ask .wait : WorkerAction Obj Unit) := fun _ => ⟨rfl, fun _ _ => rfl⟩

theorem stays_startHooks : Stays (startHooks hooks : WorkerAction Obj Unit) := by
  induction hooks with
  | nil => exact stays_pure
  | cons h hooks ih =>
    refine (stays_callback (by simp)).bind fun _ => ?_
    exact Stays.bind (p := Routine.update _) (fun _ => rfl) fun _ => ih

theorem stays_beforePolls : Stays (beforePolls hooks : WorkerAction Obj Unit) := by
  induction hooks with
  | nil => exact stays_pure
  | cons h hooks ih => exact (stays_callback (by simp)).bind fun _ => ih

theorem stays_afterPolls {result : Option Obj} {cycleError : Option Exc} :
    Stays (afterPolls result cycleError hooks) := by
  induction hooks generalizing cycleError with
  | nil => exact stays_pure
  | cons h hooks ih => exact (stays_callback (by simp)).caught.bind fun _ => ih

theorem stays_reportError {exc : Exc} : Stays (reportError exc hooks : WorkerAction Obj Unit) := by
  induction hooks with
  | nil => exact stays_pure
  | cons h hooks ih => exact (stays_callback (by simp)).caught.bind fun _ => ih

theorem stopHooks_stages : (stopHooks hooks : WorkerAction Obj (List Exc)).Meets (stages Obj)
    (fun g _ r => g = .inside ∧ ∃ stopErrors, r = .ok stopErrors) .inside s := by
  induction hooks generalizing s with
  | nil => exact ⟨rfl, [], rfl⟩
  | cons h hooks ih =>
    refine (Routine.Meets.caught (Q := fun g _ r => g = .inside ∧ ∃ outcome, r = .ok outcome)
      ((stays_callback (c := .onStop h) (by simp) s).mono fun g s r hg => ⟨hg, r, rfl⟩)).bind ?_ ?_
    · rintro g' s' outcome ⟨rfl, -⟩
      refine ih.bind ?_ ?_
      · rintro g'' s'' stopErrors ⟨rfl, -⟩
        exact ⟨rfl, _, rfl⟩
      · rintro g'' s'' exc ⟨-, stopErrors, hr⟩
        cases hr
    · rintro g' s' exc ⟨-, outcome, hr⟩
      cases hr

/-- The poll is the one thing that is done in the stage that its admission leads to. -/
theorem admission_stages : (admission hooks : WorkerAction Obj Bool).Meets (stages Obj)
    (fun g _ r => g = if r = .ok true then .admitted else .inside) .inside s := by
  refine (stays_beforePolls s).bind ?_ ?_
  · rintro g' s' a rfl
    refine ⟨rfl, fun stopped _ => ?_⟩
    cases stopped <;> rfl
  · rintro g' s' exc rfl
    rfl

theorem poll_stages : (callback .listenOnce : WorkerAction Obj (Option Obj)).Meets (stages Obj)
    (fun g _ _ => g = .inside) .admitted s := ⟨rfl, fun _ _ => ⟨rfl, fun _ _ => rfl⟩⟩

theorem stays_runCycle : Stays (runCycle hooks : WorkerAction Obj (Option Exc)) := by
  intro s
  refine (Routine.Meets.caught (Q := fun g _ r => ∃ started, r = .ok started ∧
    g = if started = .ok true then .admitted else .inside)
      (admission_stages.mono fun g s r hg => ⟨r, rfl, hg⟩)).bind ?_ ?_
  · rintro g' s' r ⟨started, hr, rfl⟩
    obtain rfl : r = started := by simpa using hr
    rcases r with exc | _ | _
    · exact stays_pure s'
    · exact stays_pure s'
    · refine (Routine.Meets.caught (Q := fun g _ r => g = .inside ∧ ∃ polled, r = .ok polled)
        (poll_stages.mono fun g s r hg => ⟨hg, r, rfl⟩)).bind ?_ ?_
      · rintro g'' s'' polled ⟨rfl, -⟩
        exact stays_afterPolls s''
      · rintro g'' s'' exc ⟨-, polled, hr⟩
        cases hr
  · rintro g' s' exc ⟨started, hr, -⟩
    cases hr

theorem stays_loop {maxIterations : Option Int} {rounds : Nat} {iterations : Int} :
    Stays (loop hooks maxIterations rounds iterations : WorkerAction Obj Bool) := by
  induction rounds generalizing iterations with
  | zero => exact stays_pure
  | succ rounds ih =>
    refine stays_isSet.bind fun stopped => ?_
    split
    · exact stays_pure
    · refine stays_runCycle.bind fun cycleError => ?_
      cases cycleError with
      | none => exact ih
      | some exc =>
        refine stays_reportError.bind fun _ => ?_
        split
        · exact stays_raise
        · exact stays_wait.bind fun _ => ih

theorem finish_stages {handled : Bool} {body : Except Exc Bool} :
    (finish handled body : WorkerAction Obj Bool).Meets (stages Obj) (fun g _ _ => g = .outside)
      .inside s := by
  refine Routine.Meets.bind (Q := fun g _ r => g = .inside ∧ ∃ started, r = .ok started)
    ⟨rfl, s, rfl⟩ ?_ ?_
  · rintro g' s' started ⟨rfl, -⟩
    refine stopHooks_stages.bind ?_ ?_
    · rintro g'' s'' errors ⟨rfl, -⟩
      refine ⟨rfl, fun _ _ => ?_⟩
      cases body with
      | error exc => exact rfl
      | ok ended =>
        cases errors with
        | nil => exact rfl
        | cons exc errors => cases handled <;> exact rfl
    · rintro g'' s'' exc ⟨-, errors, hr⟩
      cases hr
  · rintro g' s' exc ⟨-, started, hr⟩
    cases hr

theorem run_stages {maxIterations : Option Int} {handled : Bool} {rounds : Nat} :
    ((run hooks maxIterations handled rounds : WorkerAction Obj Bool) s).Meets (stages Obj) Ends
      .outside := by
  change (run hooks maxIterations handled rounds).Meets (stages Obj) (fun g s r => Ends g (r, s))
    .outside s
  unfold run
  split
  · exact fun _ => rfl
  · refine Routine.Meets.bind (Q := fun g _ r => ∃ running, r = .ok running ∧
      g = if running then .outside else .inside) ⟨rfl, fun running _ => ⟨running, rfl, rfl⟩⟩ ?_ ?_
    · rintro g' s' running ⟨running', hr, rfl⟩
      cases hr
      cases running with
      | true => exact fun _ => rfl
      | false =>
        have hbody : Stays (body hooks maxIterations rounds : WorkerAction Obj Bool) :=
          stays_startHooks.bind fun _ => stays_loop
        refine (Routine.Meets.caught (Q := fun g _ r => g = .inside ∧ ∃ body, r = .ok body)
          ((hbody s').mono fun g s r hg => ⟨hg, r, rfl⟩)).bind ?_ ?_
        · rintro g' s' body ⟨rfl, -⟩
          split
          · exact fun h => absurd rfl h
          · exact finish_stages.mono fun g s r hg _ => hg
        · rintro g' s' exc ⟨-, body, hr⟩
          cases hr
    · rintro g' s' exc ⟨running, hr, -⟩
      cases hr

theorem stop_stages : ((stop : WorkerAction Obj Bool) s).Meets (stages Obj) Ends .outside :=
  ⟨rfl, fun _ _ _ => rfl⟩

end Stages

/-- Every thread of a worker is followed. -/
def watch (Obj : Type) (hooks : List Nat) : Watch (world Obj hooks) Stage where
  monitor := stages Obj
  begin := .outside
  ends := Ends
  starts := by
    rintro s p (rfl | ⟨maxIterations, handled, rounds, rfl⟩)
    · exact stop_stages
    · exact run_stages
  answers _ _ _ _ _ _ := trivial

abbrev WorkerPool (Obj : Type) : Type := Pool (WorkerCalls Obj) Flags Outcome

abbrev WorkerMove (Obj : Type) : Type := Move (WorkerCalls Obj) Outcome

section Pools

variable {hooks : List Nat} {P P' : WorkerPool Obj} {m : WorkerMove Obj}
  {ms : List (WorkerMove Obj)}

/-- How many threads are in a stage. -/
def inStage (g : Stage) (P : WorkerPool Obj) : Nat := P.threads.countP (stage ·.log = g)

/-- How many threads are in a run that they have not left. -/
def inRun (P : WorkerPool Obj) : Nat := P.threads.countP (stage ·.log ≠ .outside)

/-- A thread calls `listen_once`. -/
def pollBegins : WorkerMove Obj → Bool
  | .start _ => false
  | .call _ e => isPoll e

/-- A call of a thread changes the flag as it takes the thread into a run or out of it. -/
theorem Answers.running {s s' : Flags} {o : WorkerCall Obj} {r : o.Answer} (h : Answers s o r s')
    (hrun : Stage.before o ≠ .outside → s.running = true) :
    s'.running.toNat + (decide (Stage.before o ≠ .outside)).toNat =
      s.running.toNat + (decide (Stage.after ⟨o, r⟩ ≠ .outside)).toNat := by
  cases h with
  | begin c => cases c <;> rfl
  | finish c r => cases c <;> rfl
  | enterRun => cases hr : s.running <;> rfl
  | admitPoll => cases hs : s.stopped <;> rfl
  | leaveRun =>
    rw [hrun (fun h => by cases h)]
    rfl
  | _ => rfl

theorem Answers.stopped {s s' : Flags} {o : WorkerCall Obj} {r : o.Answer} (h : Answers s o r s')
    (hs : s.stopped = true) : s'.stopped = true := by
  cases h with
  | stop => rfl
  | _ => exact hs

theorem Answers.stop_sets {s s' : Flags} {r : Unit} (h : Answers s (.stop : WorkerCall Obj) r s') :
    s'.stopped = true := by
  cases h
  rfl

theorem Answers.admitPoll_eq {s s' : Flags} {r : Bool}
    (h : Answers s (.admitPoll : WorkerCall Obj) r s') :    r = s.stopped := by
  cases h
  rfl

/-- The flag tells whether a thread is in a run, and there is one at most. -/
structure Followed (hooks : List Nat) (P : WorkerPool Obj) : Prop where
  follows : (watch Obj hooks).Follows P
  running : inRun P = P.shared.running.toNat

theorem followed_step (h : (world Obj hooks).Step P m P') (hP : Followed hooks P) :
    Followed hooks P' := by
  refine ⟨Watch.follows_step h hP.follows, ?_⟩
  have hrunning := hP.running
  cases h with
  | start hp =>
    rw [← hrunning]
    exact Watch.count_start (V := watch Obj hooks) (f := fun g => g ≠ .outside)
  | @call i log o k r s' hi ha =>
    have hcount := (watch Obj hooks).count_call (f := fun g => g ≠ .outside) (r := r) (t := s') hi
    have hle := (watch Obj hooks).le_count (f := fun g => g ≠ .outside) hi
    have hbefore : (watch Obj hooks).ghost ⟨log, .call o k⟩ = .before o := hP.follows.permits hi
    rw [hbefore] at hcount hle
    change inRun _ + _ = inRun P + (decide (Stage.after ⟨o, r⟩ ≠ .outside)).toNat at hcount
    change _ ≤ inRun P at hle
    have hflag := ha.running ?_
    · change inRun _ = s'.running.toNat
      omega
    · intro hinside
      rw [decide_eq_true hinside, hrunning] at hle
      cases hr : P.shared.running with
      | true => rfl
      | false =>
        rw [hr] at hle
        cases hle

theorem followed_path (h : Path (world Obj hooks).Step P ms P') (hP : Followed hooks P) :
    Followed hooks P' := h.invariant (fun _ _ _ => followed_step) hP

theorem followed_start {stopped : Bool} :
    Followed hooks (⟨⟨stopped, false⟩, []⟩ : WorkerPool Obj) :=
  ⟨Watch.follows_start (s := ⟨stopped, false⟩) ⟨rfl, rfl⟩, rfl⟩

theorem stopped_step (h : (world Obj hooks).Step P m P') (hs : P.shared.stopped = true) :
    P'.shared.stopped = true := by
  rcases h.shared with ⟨p, -, heq⟩ | ⟨i, log, o, k, r, -, -, ha⟩
  · rw [heq]
    exact hs
  · exact ha.stopped hs

theorem stopped_path (h : Path (world Obj hooks).Step P ms P') {i : Nat}
    (hstop : .call i ⟨.stop, ()⟩ ∈ ms) : P'.shared.stopped = true := by
  obtain ⟨pre, post, rfl⟩ := List.append_of_mem hstop
  obtain ⟨P₁, -, hpost⟩ := h.split
  cases hpost with
  | head hstep hrest =>
    refine hrest.invariant (I := fun P => P.shared.stopped = true)
      (fun _ _ _ => stopped_step) ?_
    obtain ⟨log, k, -, ha, -⟩ := hstep.called
    exact ha.stop_sets

/-- Once the event is set, a poll that begins has been admitted before. -/
theorem admitted_step (h : (world Obj hooks).Step P m P') (hP : Followed hooks P)
    (hs : P.shared.stopped = true) :
    inStage .admitted P' + (pollBegins m).toNat = inStage .admitted P := by
  cases h with
  | start hp => exact Watch.count_start (V := watch Obj hooks) (f := fun g => g = .admitted)
  | @call i log o k r s' hi ha =>
    have hcount := (watch Obj hooks).count_call (f := fun g => g = .admitted) (r := r) (t := s') hi
    have hbefore : (watch Obj hooks).ghost ⟨log, .call o k⟩ = .before o := hP.follows.permits hi
    rw [hbefore] at hcount
    change inStage .admitted _ + _ =
      inStage .admitted P + (decide (Stage.after ⟨o, r⟩ = .admitted)).toNat at hcount
    have hcall : (decide (Stage.before o = .admitted)).toNat =
        (isPoll ⟨o, r⟩).toNat + (decide (Stage.after ⟨o, r⟩ = .admitted)).toNat := by
      cases ha with
      | begin c => cases c <;> rfl
      | finish c r => cases c <;> rfl
      | enterRun => cases hr : P.shared.running <;> rfl
      | admitPoll =>
        rw [hs]
        rfl
      | _ => rfl
    change _ + (isPoll ⟨o, r⟩).toNat = _
    omega

theorem admitted_path (h : Path (world Obj hooks).Step P ms P') (hP : Followed hooks P)
    (hs : P.shared.stopped = true) :
    inStage .admitted P' + ms.countP pollBegins = inStage .admitted P := by
  induction h with
  | refl => rfl
  | head hstep _ ih =>
    rename_i m ms _
    have hrest := ih (followed_step hstep hP) (stopped_step hstep hs)
    have hfirst := admitted_step hstep hP hs
    have hbegins : (if pollBegins m then 1 else 0) = (pollBegins m).toNat := by
      cases pollBegins m <;> rfl
    rw [List.countP_cons, hbegins]
    omega

theorem not_admitted_path (h : Path (world Obj hooks).Step P ms P') (hs : P.shared.stopped = true)
    {i : Nat} : .call i ⟨.admitPoll, false⟩ ∉ ms := by
  intro hmem
  obtain ⟨pre, post, rfl⟩ := List.append_of_mem hmem
  obtain ⟨P₁, hpre, hpost⟩ := h.split
  have hs₁ := hpre.invariant (I := fun P => P.shared.stopped = true)
    (fun _ _ _ => stopped_step) hs
  cases hpost with
  | head hstep _ =>
    obtain ⟨log, k, -, ha, -⟩ := hstep.called
    cases ha.admitPoll_eq.trans hs₁

/-- The stages of a run do not overlap. -/
theorem inStage_add (P : WorkerPool Obj) (g g' : Stage) (hg : g ≠ .outside) (hg' : g' ≠ .outside) (hne : g ≠ g') :
    inStage g P + inStage g' P ≤ inRun P := by
  unfold inStage inRun
  induction P.threads with
  | nil => rfl
  | cons T threads ih =>
    simp only [List.countP_cons, decide_eq_true_eq]
    by_cases h : stage T.log = g
    · have h' : stage T.log ≠ g' := fun h' => hne (h.symm.trans h')
      rw [if_pos h, if_neg h', if_pos (h ▸ hg)]
      omega
    · by_cases h' : stage T.log = g'
      · rw [if_neg h, if_pos h', if_pos (h' ▸ hg')]
        omega
      · rw [if_neg h, if_neg h']
        omega

/-- What each run does, and what the flag tells of them. -/
structure Lifecycle (hooks : List Nat) (P : WorkerPool Obj) : Prop where
  runs : ∀ T ∈ P.threads, ∀ tr r s, T.rest.Runs tr (r, s) → Ran hooks (T.log ++ tr) r
  running : P.shared.running = true ↔ ∃ T ∈ P.threads, stage T.log ≠ .outside
  ended : ∀ T ∈ P.threads, ∀ r s, T.rest = .done (r, s) → r ≠ .ok false → stage T.log = .outside

/-- What moves do about polls in a pool whose worker has been stopped. -/
structure Stopped (P : WorkerPool Obj) (ms : List (WorkerMove Obj)) : Prop where
  admissions : ∀ i, .call i ⟨.admitPoll, false⟩ ∉ ms
  polls : inStage .polling P + ms.countP pollBegins ≤ 1
  prevented : ∀ T ∈ P.threads, ∀ log h, T.log = log ++ [⟨.begin (.beforePoll h), ()⟩] →
    ms.countP pollBegins = 0

/-- The trace of a thread that stops the worker is that of a run that does nothing. -/
theorem stop_traces : (stop : WorkerAction Obj Bool).Traces (fun tr _ r => Ran hooks tr r) [] := by
  refine ask_bind _ fun _ => Routine.traces_pure ?_
  refine ⟨⟨[], [], [], [⟨.stop, ()⟩], rfl, inPart_nil, by simp, idle_nil, ?_⟩, ?_, ?_, ?_, ?_⟩
  · exact inPart_cons.mpr ⟨rfl, inPart_nil⟩
  · exact List.nil_prefix
  · exact fun _ => rfl
  · exact fun h => by cases h
  · exact fatalLast_of_none fun e he => by rw [List.mem_singleton.mp he]; rfl

theorem lifecycle_reachable {stopped : Bool}
    (h : Path (world Obj hooks).Step ⟨⟨stopped, false⟩, []⟩ ms P) : Lifecycle hooks P := by
  have hP := followed_path h followed_start
  refine ⟨?_, ?_, ?_⟩
  · intro T hT tr r s hr
    obtain ⟨i, hi⟩ := List.mem_iff_getElem?.mp hT
    obtain ⟨t, p, hp, hruns⟩ := Reachable.thread_runs ⟨_, ms, ⟨rfl, rfl⟩, h⟩ i T hi
    rcases hp with rfl | ⟨maxIterations, handled, rounds, rfl⟩
    · exact stop_traces _ s r (hruns tr _ hr)
    · exact run_traces _ s r (hruns tr _ hr)
  · have hcount : P.shared.running = true ↔ 0 < inRun P := by
      rw [hP.running]
      cases P.shared.running <;> simp
    rw [hcount]
    unfold inRun
    simp
  · intro T hT r s hdone hr
    obtain ⟨i, hi⟩ := List.mem_iff_getElem?.mp hT
    have hends := hP.follows i T hi
    rw [hdone] at hends
    exact hends hr

theorem stopped_polls (hP : Followed hooks P) (hs : P.shared.stopped = true)
    (h : Path (world Obj hooks).Step P ms P') : Stopped P ms := by
  have hadmitted := admitted_path h hP hs
  have hrunning := hP.running
  have hle : P.shared.running.toNat ≤ 1 := Bool.toNat_le _
  refine ⟨fun i => not_admitted_path h hs, ?_, ?_⟩
  · have hadd := inStage_add P .admitted .polling (by decide) (by decide) (by decide)
    omega
  · intro T hT log hook hlog
    have hadd := inStage_add P .admitted .inside (by decide) (by decide) (by decide)
    have hinside : 0 < inStage .inside P := by
      refine List.countP_pos_iff.mpr ⟨T, hT, decide_eq_true ?_⟩
      rw [hlog, stage, List.foldl_append]
      rfl
    omega

/-- Whatever the hooks and the listener raise, and whenever and wherever the worker is stopped: each
run stops the hooks it has started and tells every hook of a poll, no poll is admitted after the
worker has been stopped, and the worker is running only while a run is. -/
theorem worker_lifecycle {stopped : Bool} {P₁ P₂ : WorkerPool Obj} {ms₁ ms₂ : List (WorkerMove Obj)}
    (h₁ : Path (world Obj hooks).Step ⟨⟨stopped, false⟩, []⟩ ms₁ P₁)
    (h₂ : Path (world Obj hooks).Step P₁ ms₂ P₂) :
    Lifecycle hooks P₂ ∧ ((∃ i, .call i ⟨.stop, ()⟩ ∈ ms₁) → Stopped P₁ ms₂) := by
  refine ⟨lifecycle_reachable (h₁.append h₂), ?_⟩
  rintro ⟨i, hstop⟩
  exact stopped_polls (followed_path h₁ followed_start) (stopped_path h₁ hstop) h₂

end Pools

/-- Hooks and listener that return nothing. -/
def quiet (s : Flags) : (o : WorkerCall Unit) → o.Answer × Flags
  | .begin _ | .wait => ((), s)
  | .finish _ => (.ok none, s)
  | .enterRun => (s.running, { s with running := true })
  | .leaveRun => ((), { s with running := false })
  | .isSet | .admitPoll => (s.stopped, s)
  | .stop => ((), { s with stopped := true })

theorem quiet_answers (s : Flags) (o : WorkerCall Unit) :
    Answers s o (quiet s o).1 (quiet s o).2 := by
  cases o <;> constructor

/-- A worker with one hook, which stops it before its first poll. -/
def samplePolling : WorkerPool Unit :=
  ((⟨⟨false, false⟩, []⟩ : WorkerPool Unit).begin (run [0] none false 2 [])).turns [0, 0, 0, 0, 0]
    quiet

def sampleStopped : WorkerPool Unit := (samplePolling.begin (stop [])).turn 1 quiet

def sampleEnded : WorkerPool Unit := sampleStopped.turns [0, 0, 0, 0, 0, 0] quiet

/-- The hook's `before_poll` prevents the poll, and the run comes to its end. -/
theorem worker_lifecycle_stop : sampleEnded.shared = ⟨true, false⟩ ∧ Lifecycle [0] sampleEnded ∧
    ∃ ms, Stopped sampleStopped ms := by
  obtain ⟨ms, hpolling⟩ : ∃ ms, Path (world Unit [0]).Step
      ((⟨⟨false, false⟩, []⟩ : WorkerPool Unit).begin (run [0] none false 2 [])) ms samplePolling :=
    Pool.turns_path quiet_answers
  obtain ⟨ms₂, hended⟩ : ∃ ms, Path (world Unit [0]).Step sampleStopped ms sampleEnded :=
    Pool.turns_path quiet_answers
  have hrun : (world Unit [0]).starts ⟨false, false⟩ (run [0] none false 2 []) :=
    .inr ⟨none, false, 2, rfl⟩
  have hstop : (world Unit [0]).Step (samplePolling.begin (stop [])) (.call 1 ⟨.stop, ()⟩)
      sampleStopped := Pool.turn_call quiet_answers rfl
  have hstopped := (Path.head (.start hrun) hpolling).append
    (.head (.start (.inl rfl)) (.single hstop))
  have h := worker_lifecycle hstopped hended
  exact ⟨rfl, h.1, ms₂, h.2 ⟨1, by simp⟩⟩

end PollingWorker

end Pybus
