import Pybus.Worker

/-! What one run of a worker does: which hooks it starts and stops, and what it does in each turn of
its loop. -/
namespace Pybus

open Interaction

variable {Obj : Type}

namespace WorkerCall

/-- The part of a run that a call belongs to. -/
inductive Part
  | starting
  | looping
  | stopping
  deriving DecidableEq

def part : WorkerCall Obj → Part
  | begin (.onStart _) | finish (.onStart _) | enterRun => .starting
  | begin (.onStop _) | finish (.onStop _) | leaveRun | stop => .stopping
  | _ => .looping

end WorkerCall

namespace PollingWorker

abbrev WorkerEvent (Obj : Type) : Type := Event (WorkerCalls Obj)

/-- The hook whose `on_start` has returned. -/
def startedHook : WorkerEvent Obj → Option Nat
  | ⟨.finish (.onStart h), .ok _⟩ => some h
  | _ => none

/-- The hook whose `on_stop` is called. -/
def stoppedHook (e : WorkerEvent Obj) : Option Nat :=
  match e.op with
  | .begin (.onStop h) => some h
  | _ => none

/-- The hook whose `after_poll` is called. -/
def polledHook (e : WorkerEvent Obj) : Option Nat :=
  match e.op with
  | .begin (.afterPoll h _) => some h
  | _ => none

/-- `listen_once` is called. -/
def isPoll (e : WorkerEvent Obj) : Bool :=
  match e.op with
  | .begin .listenOnce => true
  | _ => false

/-- The test of the loop. -/
def isTest (e : WorkerEvent Obj) : Bool :=
  match e.op with
  | .isSet => true
  | _ => false

/-- The event is found clear under the lock. -/
def isAdmission : WorkerEvent Obj → Bool
  | ⟨.admitPoll, stopped⟩ => !stopped
  | _ => false

/-- What `listen_once` raises to abort the worker. -/
def fatalError : WorkerEvent Obj → Option Exc
  | ⟨.finish .listenOnce, .error exc⟩ => if exc.stopsWorker then some exc else none
  | _ => none

/-- All calls belong to one part of the run. -/
def InPart (part : WorkerCall.Part) (tr : List (WorkerEvent Obj)) : Prop :=
  ∀ e ∈ tr, e.op.part = part

/-- Neither a poll nor its admission nor its end, and no hook hears of it. -/
structure Aside (e : WorkerEvent Obj) : Prop where
  polledHook : polledHook e = none
  isPoll : isPoll e = false
  isAdmission : isAdmission e = false
  fatalError : fatalError e = none

/-- The loop does nothing about a poll. -/
structure Idle (tr : List (WorkerEvent Obj)) : Prop where
  looping : InPart .looping tr
  aside : ∀ e ∈ tr, Aside e

/-- One turn of the loop: each hook hears of the poll if it is admitted, and no hook otherwise. -/
structure Turn (hooks : List Nat) (tr : List (WorkerEvent Obj)) : Prop where
  looping : InPart .looping tr
  polledHooks : tr.filterMap polledHook = if tr.any isAdmission then hooks else []
  polls : tr.countP isPoll = if tr.any isAdmission then 1 else 0

/-- After a fatal error there is no further poll, and the error is as said. -/
def FatalLast (tr : List (WorkerEvent Obj)) (Q : Exc → Prop) : Prop :=
  ∀ pre e post exc, tr = pre ++ e :: post → fatalError e = some exc →
    Q exc ∧ ∀ e' ∈ post, isPoll e' = false

section Traces

variable {tr tr' : List (WorkerEvent Obj)} {e : WorkerEvent Obj} {Q Q' : Exc → Prop}
  {hooks s : List Nat} {exc : Exc}

theorem aside_of_part (h : e.op.part ≠ .looping) : Aside e := by
  obtain ⟨o, r⟩ := e
  cases o with
  | begin c => cases c <;> first | exact ⟨rfl, rfl, rfl, rfl⟩ | exact absurd rfl h
  | finish c => cases c <;> first | exact ⟨rfl, rfl, rfl, rfl⟩ | exact absurd rfl h
  | admitPoll => exact absurd rfl h
  | _ => exact ⟨rfl, rfl, rfl, rfl⟩

theorem startedHook_of_part (h : e.op.part ≠ .starting) : startedHook e = none := by
  obtain ⟨o, r⟩ := e
  cases o with
  | finish c => cases c <;> first | rfl | exact absurd rfl h
  | _ => rfl

theorem stoppedHook_of_part (h : e.op.part ≠ .stopping) : stoppedHook e = none := by
  obtain ⟨o, r⟩ := e
  cases o with
  | begin c => cases c <;> first | rfl | exact absurd rfl h
  | _ => rfl

theorem stopsWorker_of_fatalError (h : fatalError e = some exc) : exc.stopsWorker = true := by
  unfold fatalError at h
  split at h
  · split at h
    · cases h
      assumption
    · cases h
  · cases h

theorem FatalLast.mono (h : FatalLast tr Q) (hQ : ∀ exc, Q exc → Q' exc) : FatalLast tr Q' := by
  intro pre e post exc htr he
  obtain ⟨hq, hpost⟩ := h pre e post exc htr he
  exact ⟨hQ exc hq, hpost⟩

theorem fatalLast_of_none (h : ∀ e ∈ tr, fatalError e = none) : FatalLast tr Q := by
  rintro pre e post exc rfl he
  rw [h e (by simp)] at he
  cases he

theorem FatalLast.append (h : FatalLast tr Q) (h' : ∀ e ∈ tr', fatalError e = none)
    (hpolls : ∀ e ∈ tr', isPoll e = false) : FatalLast (tr ++ tr') Q := by
  intro pre e post exc htr he
  rcases List.append_eq_append_iff.mp htr with ⟨mid, rfl, htr'⟩ | ⟨mid, rfl, htr'⟩
  · rw [h' e (by simp [htr'])] at he
    cases he
  · cases mid with
    | nil =>
      rw [List.nil_append] at htr'
      rw [h' e (by simp [← htr'])] at he
      cases he
    | cons e' mid =>
      rw [List.cons_append, List.cons.injEq] at htr'
      obtain ⟨rfl, rfl⟩ := htr'
      obtain ⟨hq, hpost⟩ := h pre e mid exc rfl he
      refine ⟨hq, ?_⟩
      intro e' he'
      rcases List.mem_append.mp he' with he' | he'
      · exact hpost e' he'
      · exact hpolls e' he'

theorem FatalLast.prepend (h : FatalLast tr' Q) (h' : ∀ e ∈ tr, fatalError e = none) :
    FatalLast (tr ++ tr') Q := by
  intro pre e post exc htr he
  rcases List.append_eq_append_iff.mp htr with ⟨mid, rfl, htr'⟩ | ⟨mid, rfl, htr'⟩
  · exact h mid e post exc htr' he
  · cases mid with
    | nil => exact h [] e post exc htr'.symm he
    | cons e' mid =>
      rw [List.cons_append, List.cons.injEq] at htr'
      obtain ⟨rfl, -⟩ := htr'
      rw [h' e (by simp)] at he
      cases he

theorem inPart_append {part : WorkerCall.Part} :
    InPart part (tr ++ tr') ↔ InPart part tr ∧ InPart part tr' := List.forall_mem_append

theorem inPart_cons {part : WorkerCall.Part} :
    InPart part (e :: tr) ↔ e.op.part = part ∧ InPart part tr := List.forall_mem_cons

theorem inPart_nil {part : WorkerCall.Part} : InPart part ([] : List (WorkerEvent Obj)) := by
  intro e he
  cases he

/-! ### The parts of a run -/

theorem ask_bind {α : Type} (o : WorkerCall Obj) {f : o.Answer → WorkerAction Obj α}
    {R : List (WorkerEvent Obj) → List Nat → Except Exc α → Prop}
    (h : ∀ r, (f r).Traces (fun tr' => R (⟨o, r⟩ :: tr')) s) : (ask o >>= f).Traces R s := by
  refine Routine.Traces.bind (P := fun tr s' r => s' = s ∧ ∃ a, r = .ok a ∧ tr = [⟨o, a⟩])
    (Routine.traces_ask fun r => ⟨rfl, r, rfl, rfl⟩) ?_ ?_
  · rintro tr s' a ⟨rfl, a', ha, rfl⟩
    cases ha
    exact h a
  · rintro tr s' exc ⟨-, a, ha, -⟩
    cases ha

/-- A callback begins and finishes. -/
def called (c : Callback Obj) (r : Except Exc (Option Obj)) : List (WorkerEvent Obj) :=
  [⟨.begin c, ()⟩, ⟨.finish c, r⟩]

theorem callback_traces (c : Callback Obj) :
    (callback c).Traces (fun tr s' r => s' = s ∧ tr = called c r) s :=
  ask_bind (.begin c) fun _ => Routine.traces_attempt fun _ => ⟨rfl, rfl⟩

theorem callback_bind {α : Type} (c : Callback Obj) {f : Option Obj → WorkerAction Obj α}
    {R : List (WorkerEvent Obj) → List Nat → Except Exc α → Prop}
    (ok : ∀ result, (f result).Traces (fun tr' => R (called c (.ok result) ++ tr')) s)
    (error : ∀ exc, R (called c (.error exc)) s (.error exc)) :
    (callback c >>= f).Traces R s := by
  refine Routine.Traces.bind (callback_traces c) ?_ ?_
  · rintro tr s' result ⟨rfl, rfl⟩
    exact ok result
  · rintro tr s' exc ⟨rfl, rfl⟩
    exact error exc

theorem caught_bind {α : Type} (c : Callback Obj) {f : Except Exc (Option Obj) → WorkerAction Obj α}
    {R : List (WorkerEvent Obj) → List Nat → Except Exc α → Prop}
    (h : ∀ r, (f r).Traces (fun tr' => R (called c r ++ tr')) s) :
    ((callback c).caught >>= f).Traces R s := by
  refine Routine.Traces.bind (P := fun tr s' r => s' = s ∧ ∃ r', r = .ok r' ∧ tr = called c r')
    (Routine.Traces.caught ((callback_traces c).mono ?_)) ?_ ?_
  · rintro tr s' r ⟨rfl, rfl⟩
    exact ⟨rfl, r, rfl, rfl⟩
  · rintro tr s' r ⟨rfl, r', hr, rfl⟩
    cases hr
    exact h r
  · rintro tr s' exc ⟨-, r', hr, -⟩
    cases hr

theorem inPart_called {part : WorkerCall.Part} {c : Callback Obj} {r : Except Exc (Option Obj)}
    (hbegin : (WorkerCall.begin c).part = part) (hfinish : (WorkerCall.finish c).part = part) :
    InPart part (called c r) :=
  inPart_cons.mpr ⟨hbegin, inPart_cons.mpr ⟨hfinish, inPart_nil⟩⟩

theorem startHooks_traces : (startHooks hooks : WorkerAction Obj Unit).Traces (fun tr s' _ =>
    InPart .starting tr ∧ ∃ started, started <+: hooks ∧
      tr.filterMap startedHook = started ∧ s' = s ++ started) s := by
  induction hooks generalizing s with
  | nil => exact Routine.traces_pure ⟨inPart_nil, [], List.prefix_refl _, rfl, by simp⟩
  | cons h hooks ih =>
    refine callback_bind _ ?_ ?_
    · intro result
      refine Routine.Traces.bind (Routine.traces_update
        (Q := fun tr s' r => tr = [] ∧ s' = s ++ [h] ∧ r = .ok ()) ⟨rfl, rfl, rfl⟩) ?_ ?_
      · rintro tr s' a ⟨rfl, rfl, -⟩
        refine ih.mono ?_
        rintro tr' s' r ⟨hpart, started, hprefix, hstarted, rfl⟩
        refine ⟨inPart_append.mpr ⟨inPart_called rfl rfl, hpart⟩, h :: started, ?_, ?_, ?_⟩
        · exact List.cons_prefix_cons.mpr ⟨rfl, hprefix⟩
        · rw [List.nil_append, List.filterMap_append, hstarted]
          rfl
        · rw [List.append_assoc, List.singleton_append]
      · rintro tr s' exc ⟨-, -, hr⟩
        cases hr
    · intro exc
      exact ⟨inPart_called rfl rfl, [], List.nil_prefix, rfl, by simp⟩

theorem idle_nil : Idle ([] : List (WorkerEvent Obj)) := ⟨inPart_nil, by simp⟩

theorem Idle.append (h : Idle tr) (h' : Idle tr') : Idle (tr ++ tr') :=
  ⟨inPart_append.mpr ⟨h.looping, h'.looping⟩, List.forall_mem_append.mpr ⟨h.aside, h'.aside⟩⟩

theorem idle_cons (hpart : e.op.part = .looping) (haside : Aside e) (h : Idle tr) :
    Idle (e :: tr) :=
  ⟨inPart_cons.mpr ⟨hpart, h.looping⟩, List.forall_mem_cons.mpr ⟨haside, h.aside⟩⟩

theorem idle_beforePoll {h : Nat} {r : Except Exc (Option Obj)} : Idle (called (.beforePoll h) r) :=
  idle_cons rfl ⟨rfl, rfl, rfl, rfl⟩ (idle_cons rfl ⟨rfl, rfl, rfl, rfl⟩ idle_nil)

theorem idle_onError {h : Nat} {r : Except Exc (Option Obj)} : Idle (called (.onError h exc) r) :=
  idle_cons rfl ⟨rfl, rfl, rfl, rfl⟩ (idle_cons rfl ⟨rfl, rfl, rfl, rfl⟩ idle_nil)

theorem beforePolls_traces :
    (beforePolls hooks : WorkerAction Obj Unit).Traces (fun tr s' _ => s' = s ∧ Idle tr) s := by
  induction hooks with
  | nil => exact Routine.traces_pure ⟨rfl, idle_nil⟩
  | cons h hooks ih =>
    refine callback_bind _ ?_ ?_
    · intro result
      refine ih.mono ?_
      rintro tr s' r ⟨rfl, hidle⟩
      exact ⟨rfl, idle_beforePoll.append hidle⟩
    · intro exc
      exact ⟨rfl, idle_beforePoll⟩

theorem reportError_traces : (reportError exc hooks : WorkerAction Obj Unit).Traces
    (fun tr s' r => s' = s ∧ r = .ok () ∧ Idle tr) s := by
  induction hooks with
  | nil => exact Routine.traces_pure ⟨rfl, rfl, idle_nil⟩
  | cons h hooks ih =>
    refine caught_bind _ fun r => ih.mono ?_
    rintro tr s' r ⟨rfl, rfl, hidle⟩
    exact ⟨rfl, rfl, idle_onError.append hidle⟩

/-- The hooks after a poll are all called, and the error there is stays. -/
theorem afterPolls_traces {result : Option Obj} {cycleError : Option Exc} :
    (afterPolls result cycleError hooks).Traces (fun tr s' r => s' = s ∧
      InPart .looping tr ∧ tr.filterMap polledHook = hooks ∧
      (∀ e ∈ tr, isPoll e = false ∧ isAdmission e = false ∧ fatalError e = none) ∧
      ∃ o, r = .ok o ∧ ∀ exc, cycleError = some exc → o = some exc) s := by
  induction hooks generalizing cycleError with
  | nil => exact Routine.traces_pure ⟨rfl, inPart_nil, rfl, by simp, _, rfl, fun _ h => h⟩
  | cons h hooks ih =>
    refine caught_bind _ fun r => ih.mono ?_
    rintro tr s' r' ⟨rfl, hpart, hhooks, hquiet, o, rfl, herror⟩
    refine ⟨rfl, inPart_append.mpr ⟨inPart_called rfl rfl, hpart⟩, ?_, ?_, o, rfl, ?_⟩
    · rw [List.filterMap_append, hhooks]
      rfl
    · intro e he
      rcases List.mem_append.mp he with he | he
      · rcases List.mem_cons.mp he with rfl | he
        · exact ⟨rfl, rfl, rfl⟩
        · rw [List.mem_singleton.mp he]
          exact ⟨rfl, rfl, rfl⟩
      · exact hquiet e he
    · rintro exc rfl
      exact herror exc rfl

/-- What a cycle does, and the error that it ends in. -/
structure Cycle (hooks : List Nat) (tr : List (WorkerEvent Obj)) (o : Option Exc) : Prop where
  turn : Turn hooks tr
  fatal : FatalLast tr fun exc => o = some exc

theorem Idle.polledHooks (h : Idle tr) : tr.filterMap polledHook = [] :=
  List.filterMap_eq_nil_iff.mpr fun e he => (h.aside e he).polledHook

theorem Idle.any_isAdmission (h : Idle tr) : tr.any isAdmission = false := by
  rw [List.any_eq_false]
  intro e he
  rw [(h.aside e he).isAdmission]
  exact Bool.false_ne_true

theorem Idle.countP_isPoll (h : Idle tr) : tr.countP isPoll = 0 := by
  refine List.countP_eq_zero.mpr fun e he => ?_
  rw [(h.aside e he).isPoll]
  exact Bool.false_ne_true

theorem Idle.fatalError (h : Idle tr) : ∀ e ∈ tr, fatalError e = none :=
  fun e he => (h.aside e he).fatalError

theorem Idle.isPoll (h : Idle tr) : ∀ e ∈ tr, isPoll e = false := fun e he => (h.aside e he).isPoll

theorem Idle.cycle {o : Option Exc} (h : Idle tr) : Cycle hooks tr o := by
  refine ⟨⟨h.looping, ?_, ?_⟩, fatalLast_of_none h.fatalError⟩
  · rw [h.any_isAdmission]
    exact h.polledHooks
  · rw [h.any_isAdmission]
    exact h.countP_isPoll

theorem fatalLast_called {polled : Except Exc (Option Obj)}
    (h : ∀ exc, raised polled = some exc → Q exc) : FatalLast (called .listenOnce polled) Q := by
  intro pre e post exc htr he
  cases pre with
  | nil =>
    rw [List.nil_append, called, List.cons.injEq] at htr
    rw [← htr.1] at he
    cases he
  | cons e₁ pre =>
    rw [List.cons_append, called, List.cons.injEq] at htr
    cases pre with
    | nil =>
      rw [List.nil_append, List.cons.injEq] at htr
      obtain ⟨-, rfl, rfl⟩ := htr
      refine ⟨h exc ?_, by simp⟩
      unfold PollingWorker.fatalError at he
      split at he
      · rename_i heq
        cases heq
        split at he
        · exact he
        · cases he
      · cases he
    | cons e₂ pre =>
      have hlength := congrArg List.length htr.2
      simp at hlength

/-- A cycle whose poll is admitted: what comes before it, the poll, and the hooks after it. -/
theorem cycle_admitted {polled : Except Exc (Option Obj)} {o : Option Exc} (h : Idle tr)
    (hpart : InPart .looping tr') (hhooks : tr'.filterMap polledHook = hooks)
    (hquiet : ∀ e ∈ tr', isPoll e = false ∧ isAdmission e = false ∧ fatalError e = none)
    (ho : ∀ exc, raised polled = some exc → o = some exc) :
    Cycle hooks ((tr ++ [⟨.admitPoll, false⟩]) ++ (called .listenOnce polled ++ tr')) o := by
  have hadmission : tr'.any isAdmission = false := by
    rw [List.any_eq_false]
    intro e he
    rw [(hquiet e he).2.1]
    exact Bool.false_ne_true
  have hpolls : tr'.countP isPoll = 0 := by
    refine List.countP_eq_zero.mpr fun e he => ?_
    rw [(hquiet e he).1]
    exact Bool.false_ne_true
  have hcalled : (called .listenOnce polled : List (WorkerEvent Obj)).countP isPoll = 1 := rfl
  refine ⟨⟨?_, ?_, ?_⟩, ?_⟩
  · refine inPart_append.mpr ⟨inPart_append.mpr ⟨h.looping, inPart_cons.mpr ⟨rfl, inPart_nil⟩⟩, ?_⟩
    exact inPart_append.mpr ⟨inPart_called rfl rfl, hpart⟩
  · have hadmit : ([⟨.admitPoll, false⟩] : List (WorkerEvent Obj)).filterMap polledHook = [] := rfl
    have hlisten : (called .listenOnce polled : List (WorkerEvent Obj)).filterMap polledHook = [] :=
      rfl
    simp only [List.filterMap_append, h.polledHooks, hadmit, hlisten, hhooks, List.any_append]
    simp [isAdmission]
  · simp only [List.countP_append, h.countP_isPoll, hpolls, hcalled, List.any_append]
    simp [isAdmission, isPoll]
  · refine FatalLast.prepend ?_ (List.forall_mem_append.mpr ⟨h.fatalError, by simp [fatalError]⟩)
    exact (fatalLast_called ho).append (fun e he => (hquiet e he).2.2) fun e he => (hquiet e he).1

theorem admission_traces : (admission hooks : WorkerAction Obj Bool).Traces (fun tr s' r => s' = s ∧
    ((∃ exc, r = .error exc ∧ Idle tr) ∨
      ∃ tr₁ stopped, Idle tr₁ ∧ tr = tr₁ ++ [⟨.admitPoll, stopped⟩] ∧
        r = .ok (!stopped))) s := by
  refine Routine.Traces.bind beforePolls_traces ?_ ?_
  · rintro tr s' a ⟨rfl, hidle⟩
    exact ask_bind _ fun stopped => Routine.traces_pure ⟨rfl, .inr ⟨tr, stopped, hidle, rfl, rfl⟩⟩
  · rintro tr s' exc ⟨rfl, hidle⟩
    exact ⟨rfl, .inl ⟨exc, rfl, hidle⟩⟩

theorem runCycle_traces : (runCycle hooks : WorkerAction Obj (Option Exc)).Traces
    (fun tr s' r => s' = s ∧ ∃ o, r = .ok o ∧ Cycle hooks tr o) s := by
  refine Routine.Traces.bind (P := fun tr s' r => s' = s ∧ ∃ r', r = .ok r' ∧
    ((∃ exc, r' = .error exc ∧ Idle tr) ∨
      ∃ tr₁ stopped, Idle tr₁ ∧ tr = tr₁ ++ [⟨.admitPoll, stopped⟩] ∧
        r' = .ok (!stopped))) (Routine.Traces.caught (admission_traces.mono ?_)) ?_ ?_
  · rintro tr s' r ⟨rfl, h⟩
    exact ⟨rfl, r, rfl, h⟩
  · rintro tr s' r ⟨rfl, r', hr, h⟩
    cases hr
    rcases h with ⟨exc, rfl, hidle⟩ | ⟨tr₁, stopped, hidle, rfl, rfl⟩
    · refine Routine.traces_pure ⟨rfl, some exc, rfl, ?_⟩
      rw [List.append_nil]
      exact hidle.cycle
    · cases stopped with
      | true =>
        refine Routine.traces_pure ⟨rfl, none, rfl, ?_⟩
        rw [List.append_nil]
        exact (hidle.append (idle_cons rfl ⟨rfl, rfl, rfl, rfl⟩ idle_nil)).cycle
      | false =>
        refine caught_bind _ fun polled => afterPolls_traces.mono ?_
        rintro tr₂ s' r ⟨rfl, hpart, hhooks, hquiet, o, rfl, ho⟩
        exact ⟨rfl, o, rfl, cycle_admitted hidle hpart hhooks hquiet ho⟩
  · rintro tr s' exc ⟨-, r', hr, -⟩
    cases hr

/-- What a turn does besides its cycle does not count. -/
theorem Turn.around {tr₁ tr₂ : List (WorkerEvent Obj)} (h : Turn hooks tr) (h₁ : Idle tr₁)
    (h₂ : Idle tr₂) : Turn hooks (tr₁ ++ (tr ++ tr₂)) := by
  refine ⟨?_, ?_, ?_⟩
  · exact inPart_append.mpr ⟨h₁.looping, inPart_append.mpr ⟨h.looping, h₂.looping⟩⟩
  · simp only [List.filterMap_append, List.any_append, h₁.polledHooks, h₂.polledHooks,
      h₁.any_isAdmission, h₂.any_isAdmission, h.polledHooks, List.nil_append, List.append_nil,
      Bool.false_or, Bool.or_false]
  · simp only [List.countP_append, List.any_append, h₁.countP_isPoll, h₂.countP_isPoll,
      h₁.any_isAdmission, h₂.any_isAdmission, h.polls, Bool.false_or, Bool.or_false, Nat.zero_add,
      Nat.add_zero]

theorem FatalLast.fatalError_none (h : FatalLast tr Q)
    (hQ : ∀ exc, exc.stopsWorker = true → ¬ Q exc) :
    ∀ e ∈ tr, PollingWorker.fatalError e = none := by
  intro e he
  obtain ⟨pre, post, htr⟩ := List.append_of_mem he
  cases hf : PollingWorker.fatalError e with
  | none => rfl
  | some exc => exact absurd (h pre e post exc htr hf).1 (hQ exc (stopsWorker_of_fatalError hf))

/-- The turns of the loop, and what there is of it besides. -/
structure Looped (hooks : List Nat) (tr : List (WorkerEvent Obj)) (r : Except Exc Bool) : Prop where
  turns : ∃ turns ending, tr = List.flatten turns ++ ending ∧ (∀ c ∈ turns, Turn hooks c) ∧
    Idle ending
  fatal : FatalLast tr fun exc => r = .error exc

/-- A turn after which the loop goes on. -/
theorem Looped.cons {r : Except Exc Bool} (ht : Turn hooks tr)
    (hf : ∀ e ∈ tr, PollingWorker.fatalError e = none) (h : Looped hooks tr' r) :
    Looped hooks (tr ++ tr') r := by
  obtain ⟨⟨turns, ending, rfl, hturns, hending⟩, hfatal⟩ := h
  refine ⟨⟨tr :: turns, ending, ?_, ?_, hending⟩, hfatal.prepend hf⟩
  · rw [List.flatten_cons, List.append_assoc]
  · exact List.forall_mem_cons.mpr ⟨ht, hturns⟩

/-- A turn after which the loop is left. -/
theorem Turn.looped {r : Except Exc Bool} (h : Turn hooks tr)
    (hf : FatalLast tr fun exc => r = .error exc) : Looped hooks tr r := by
  refine ⟨⟨[tr], [], ?_, List.forall_mem_singleton.mpr h, idle_nil⟩, hf⟩
  rw [List.flatten_singleton, List.append_nil]

theorem idle_isSet (stopped : Bool) : Idle ([⟨.isSet, stopped⟩] : List (WorkerEvent Obj)) :=
  idle_cons rfl ⟨rfl, rfl, rfl, rfl⟩ idle_nil

theorem idle_wait : Idle ([⟨.wait, ()⟩] : List (WorkerEvent Obj)) :=
  idle_cons rfl ⟨rfl, rfl, rfl, rfl⟩ idle_nil

theorem loop_traces {maxIterations : Option Int} {rounds : Nat} {iterations : Int} :
    (loop hooks maxIterations rounds iterations : WorkerAction Obj Bool).Traces
      (fun tr s' r => s' = s ∧ Looped hooks tr r) s := by
  induction rounds generalizing iterations with
  | zero =>
    exact Routine.traces_pure ⟨rfl, ⟨[], [], rfl, by simp, idle_nil⟩, fatalLast_of_none (by simp)⟩
  | succ rounds ih =>
    refine ask_bind _ fun stopped => ?_
    split
    · exact Routine.traces_pure ⟨rfl, ⟨[], [⟨.isSet, stopped⟩], rfl, by simp, idle_isSet stopped⟩,
        fatalLast_of_none (idle_isSet stopped).fatalError⟩
    · refine Routine.Traces.bind runCycle_traces ?_ ?_
      · rintro tr s' o ⟨rfl, o', ho, hturn, hfatal⟩
        cases ho
        cases o with
        | none =>
          refine ih.mono ?_
          rintro tr' s' r ⟨rfl, hloop⟩
          have ht := hturn.around (idle_isSet stopped) idle_nil
          rw [List.append_nil] at ht
          refine ⟨rfl, hloop.cons ht ?_⟩
          refine List.forall_mem_append.mpr ⟨(idle_isSet stopped).fatalError, ?_⟩
          exact hfatal.fatalError_none fun exc _ h => by cases h
        | some exc =>
          refine Routine.Traces.bind reportError_traces ?_ ?_
          · rintro tr₂ s' a ⟨rfl, -, hidle⟩
            split
            · have ht := hturn.around (idle_isSet stopped) hidle
              have hlast : FatalLast (tr ++ tr₂) fun exc' => (.error exc : Except Exc Bool) =
                  .error exc' := by
                refine FatalLast.append (hfatal.mono ?_) hidle.fatalError hidle.isPoll
                rintro exc' ⟨⟩
                rfl
              have hlooped := ht.looped (hlast.prepend (idle_isSet stopped).fatalError)
              refine Routine.traces_raise ⟨rfl, ?_⟩
              simpa using hlooped
            · rename_i hstops
              refine ask_bind _ fun _ => ih.mono ?_
              rintro tr' s' r ⟨rfl, hloop⟩
              have ht := hturn.around (idle_isSet stopped) (hidle.append idle_wait)
              refine ⟨rfl, ?_⟩
              have hcons := hloop.cons ht ?_
              · simpa using hcons
              · refine List.forall_mem_append.mpr ⟨(idle_isSet stopped).fatalError, ?_⟩
                refine List.forall_mem_append.mpr ⟨?_, (hidle.append idle_wait).fatalError⟩
                refine hfatal.fatalError_none fun exc' hstops' h => ?_
                cases h
                exact hstops hstops'
          · rintro tr₂ s' exc' ⟨-, hr, -⟩
            cases hr
      · rintro tr s' exc ⟨-, o, ho, -⟩
        cases ho

/-- The loop has come to its end unless it has been round as often as it is looked at. -/
theorem loop_rounds {maxIterations : Option Int} {rounds : Nat} {iterations : Int} :
    (loop hooks maxIterations rounds iterations : WorkerAction Obj Bool).Traces
      (fun tr _ r => r = .ok false → rounds ≤ tr.countP isTest) s := by
  induction rounds generalizing iterations s with
  | zero => exact Routine.traces_pure fun _ => Nat.zero_le _
  | succ rounds ih =>
    refine ask_bind _ fun stopped => ?_
    have hround : ∀ tr tr' : List (WorkerEvent Obj), rounds ≤ tr'.countP isTest →
        rounds + 1 ≤ (⟨.isSet, stopped⟩ :: (tr ++ tr')).countP isTest := by
      intro tr tr' hle
      rw [List.countP_cons_of_pos rfl, List.countP_append]
      omega
    split
    · exact Routine.traces_pure fun h => by cases h
    · refine Routine.Traces.bind runCycle_traces ?_ fun _ _ _ _ h => by cases h
      rintro tr s' cycleError -
      cases cycleError with
      | none => exact ih.mono fun tr' _ _ hle h => hround tr tr' (hle h)
      | some exc =>
        refine Routine.Traces.bind reportError_traces ?_ fun _ _ _ _ h => by cases h
        rintro tr₂ s'' a -
        split
        · exact Routine.traces_raise fun h => by cases h
        · refine ask_bind _ fun _ => ih.mono fun tr' _ _ hle h => ?_
          have hle' := hround (tr ++ tr₂ ++ [⟨.wait, ()⟩]) tr' (hle h)
          simpa using hle'

theorem stopHooks_traces : (stopHooks hooks : WorkerAction Obj (List Exc)).Traces
    (fun tr s' r => s' = s ∧ (∃ errors, r = .ok errors) ∧ InPart .stopping tr ∧
      tr.filterMap stoppedHook = hooks) s := by
  induction hooks with
  | nil => exact Routine.traces_pure ⟨rfl, ⟨_, rfl⟩, inPart_nil, rfl⟩
  | cons h hooks ih =>
    refine caught_bind _ fun r => Routine.Traces.bind ih ?_ ?_
    · rintro tr s' errors ⟨rfl, -, hpart, hhooks⟩
      refine Routine.traces_pure ⟨rfl, ⟨_, rfl⟩, ?_, ?_⟩
      · rw [List.append_nil]
        exact inPart_append.mpr ⟨inPart_called rfl rfl, hpart⟩
      · rw [List.append_nil, List.filterMap_append, hhooks]
        rfl
    · rintro tr s' exc ⟨-, ⟨errors, hr⟩, -⟩
      cases hr

/-- What the `finally` clause does: every hook that was started is stopped, the last one first. -/
structure Finished (started : List Nat) (body : Except Exc Bool) (tr : List (WorkerEvent Obj))
    (r : Except Exc Bool) : Prop where
  stopping : InPart .stopping tr
  stopped : tr.filterMap stoppedHook = started.reverse
  error : ∀ exc, body = .error exc → r = .error exc
  ended : body ≠ .ok false → r ≠ .ok false

theorem finish_traces {handled : Bool} {body : Except Exc Bool} :
    (finish handled body : WorkerAction Obj Bool).Traces
      (fun tr _ r => Finished s body tr r) s := by
  refine Routine.Traces.bind (Routine.traces_own
    (Q := fun tr s' r => s' = s ∧ tr = [] ∧ r = .ok s) ⟨rfl, rfl, rfl⟩) ?_ ?_
  · rintro tr s' started ⟨rfl, rfl, hr⟩
    cases hr
    refine Routine.Traces.bind stopHooks_traces ?_ ?_
    · rintro tr s'' errors ⟨rfl, -, hpart, hhooks⟩
      refine ask_bind _ fun _ => ?_
      have hdone : ∀ r, (∀ exc, body = .error exc → r = .error exc) →
          (body ≠ .ok false → r ≠ .ok false) →
          Finished s'' body ([] ++ (tr ++ ([⟨.leaveRun, ()⟩] ++ []))) r := by
        intro r hr hended
        refine ⟨?_, ?_, hr, hended⟩
        · refine inPart_append.mpr ⟨inPart_nil, inPart_append.mpr ⟨hpart, ?_⟩⟩
          exact inPart_cons.mpr ⟨rfl, inPart_nil⟩
        · rw [List.nil_append, List.filterMap_append, hhooks]
          exact List.append_nil _
      cases body with
      | error exc => exact Routine.traces_raise (hdone _ (fun exc' h => by cases h; rfl) (by simp))
      | ok ended =>
        have hnone : ∀ r : Except Exc Bool, ∀ exc, (.ok ended : Except Exc Bool) = .error exc →
            r = .error exc := by
          rintro r exc ⟨⟩
        cases errors with
        | nil => exact Routine.traces_pure (hdone _ (hnone _) id)
        | cons exc errors =>
          cases handled with
          | true => exact Routine.traces_pure (hdone _ (hnone _) id)
          | false => exact Routine.traces_raise (hdone _ (hnone _) (by simp))
    · rintro tr s'' exc ⟨-, ⟨errors, hr⟩, -⟩
      cases hr
  · rintro tr s' exc ⟨-, -, hr⟩
    cases hr

/-- What a run has done by the end of its body. -/
structure Begun (hooks started : List Nat) (tr : List (WorkerEvent Obj)) (r : Except Exc Bool) :
    Prop where
  parts : ∃ starting rest, tr = starting ++ rest ∧ InPart .starting starting ∧
    starting.filterMap startedHook = started ∧ Looped hooks rest r
  started : started <+: hooks

theorem looped_nil {r : Except Exc Bool} : Looped hooks ([] : List (WorkerEvent Obj)) r :=
  ⟨⟨[], [], rfl, by simp, idle_nil⟩, fatalLast_of_none (by simp)⟩

theorem body_traces {maxIterations : Option Int} {rounds : Nat} :
    (body hooks maxIterations rounds : WorkerAction Obj Bool).Traces
      (fun tr s' r => Begun hooks s' tr r) [] := by
  refine Routine.Traces.bind startHooks_traces ?_ ?_
  · rintro tr s' a ⟨hpart, started, hprefix, hstarted, rfl⟩
    refine loop_traces.mono ?_
    rintro tr' s' r ⟨rfl, hloop⟩
    exact ⟨⟨tr, tr', rfl, hpart, hstarted, hloop⟩, hprefix⟩
  · rintro tr s' exc ⟨hpart, started, hprefix, hstarted, rfl⟩
    exact ⟨⟨tr, [], (List.append_nil tr).symm, hpart, hstarted, looped_nil⟩, hprefix⟩

/-- What a run does: it starts hooks, goes round its loop and stops the hooks that were started, the
last one first. A fatal error of a poll ends it with that error. -/
structure Ran (hooks : List Nat) (tr : List (WorkerEvent Obj)) (r : Except Exc Bool) : Prop where
  parts : ∃ starting turns ending stopping,
    tr = starting ++ (List.flatten turns ++ ending) ++ stopping ∧
    InPart .starting starting ∧ (∀ c ∈ turns, Turn hooks c) ∧ Idle ending ∧
    InPart .stopping stopping
  started : tr.filterMap startedHook <+: hooks
  stopped : r ≠ .ok false → tr.filterMap stoppedHook = (tr.filterMap startedHook).reverse
  unfinished : r = .ok false → tr.filterMap stoppedHook = []
  fatal : FatalLast tr fun exc => r = .error exc

theorem InPart.startedHooks {part : WorkerCall.Part} (h : InPart part tr)
    (hpart : part ≠ .starting) : tr.filterMap startedHook = [] :=
  List.filterMap_eq_nil_iff.mpr fun e he => startedHook_of_part (h e he ▸ hpart)

theorem InPart.stoppedHooks {part : WorkerCall.Part} (h : InPart part tr)
    (hpart : part ≠ .stopping) : tr.filterMap stoppedHook = [] :=
  List.filterMap_eq_nil_iff.mpr fun e he => stoppedHook_of_part (h e he ▸ hpart)

theorem InPart.aside {part : WorkerCall.Part} (h : InPart part tr) (hpart : part ≠ .looping) :
    ∀ e ∈ tr, Aside e := fun e he => aside_of_part (h e he ▸ hpart)

theorem Looped.inPart {r : Except Exc Bool} (h : Looped hooks tr r) : InPart .looping tr := by
  obtain ⟨⟨turns, ending, rfl, hturns, hending⟩, -⟩ := h
  refine inPart_append.mpr ⟨?_, hending.looping⟩
  intro e he
  obtain ⟨c, hc, hec⟩ := List.mem_flatten.mp he
  exact (hturns c hc).looping e hec

/-- A body and what comes after it make up a run. -/
theorem Begun.ran {started : List Nat} {b r : Except Exc Bool} (h : Begun hooks started tr b)
    (hpart : InPart .stopping tr')
    (hstopped : r ≠ .ok false → tr'.filterMap stoppedHook = started.reverse)
    (hunfinished : r = .ok false → tr'.filterMap stoppedHook = [])
    (herror : ∀ exc, b = .error exc → r = .error exc) :
    Ran hooks (⟨.enterRun, false⟩ :: (tr ++ tr')) r := by
  obtain ⟨⟨starting, rest, rfl, hstarting, hhooks, hloop⟩, hprefix⟩ := h
  obtain ⟨⟨turns, ending, hrest, hturns, hending⟩, hfatal⟩ := id hloop
  have hlooping := hloop.inPart
  have hfirst : InPart .starting ((⟨.enterRun, false⟩ : WorkerEvent Obj) :: starting) :=
    inPart_cons.mpr ⟨rfl, hstarting⟩
  have hlist : ((⟨.enterRun, false⟩ : WorkerEvent Obj) :: (starting ++ rest ++ tr')) =
      (⟨.enterRun, false⟩ :: starting) ++ rest ++ tr' := by simp
  replace hhooks : ((⟨.enterRun, false⟩ : WorkerEvent Obj) :: starting).filterMap startedHook =
      started := hhooks
  rw [hlist]
  generalize (⟨.enterRun, false⟩ : WorkerEvent Obj) :: starting = first at *
  have hstartedHooks : (first ++ rest ++ tr').filterMap startedHook = started := by
    rw [List.filterMap_append, List.filterMap_append, hhooks, hlooping.startedHooks (by decide),
      hpart.startedHooks (by decide), List.append_nil, List.append_nil]
  have hstoppedHooks : (first ++ rest ++ tr').filterMap stoppedHook =
      tr'.filterMap stoppedHook := by
    rw [List.filterMap_append, List.filterMap_append, hfirst.stoppedHooks (by decide),
      hlooping.stoppedHooks (by decide), List.nil_append, List.nil_append]
  refine ⟨⟨_, turns, ending, tr', by rw [hrest], hfirst, hturns, hending, hpart⟩, ?_, ?_, ?_, ?_⟩
  · rwa [hstartedHooks]
  · rwa [hstoppedHooks, hstartedHooks]
  · rwa [hstoppedHooks]
  · have haside := hpart.aside (by decide)
    refine FatalLast.append ?_ (fun e he => (haside e he).fatalError) fun e he =>
      (haside e he).isPoll
    refine FatalLast.prepend (hfatal.mono herror) fun e he => ?_
    exact (hfirst.aside (by decide) e he).fatalError

theorem ran_starting {r : Except Exc Bool} (h : InPart .starting tr)
    (hr : r ≠ .ok false) (hnone : tr.filterMap startedHook = []) : Ran hooks tr r := by
  refine ⟨⟨tr, [], [], [], by simp, h, by simp, idle_nil, inPart_nil⟩, ?_, ?_, ?_, ?_⟩
  · rw [hnone]
    exact List.nil_prefix
  · intro _
    rw [hnone, h.stoppedHooks (by decide)]
    rfl
  · intro h'
    exact absurd h' hr
  · exact fatalLast_of_none fun e he => (h.aside (by decide) e he).fatalError

/-- Whatever hooks and the listener return or raise, and whenever the worker is stopped. -/
theorem run_traces {maxIterations : Option Int} {handled : Bool} {rounds : Nat} :
    (run hooks maxIterations handled rounds : WorkerAction Obj Bool).Traces
      (fun tr _ r => Ran hooks tr r) [] := by
  unfold run
  split
  · exact Routine.traces_raise (ran_starting inPart_nil (by simp) rfl)
  · refine ask_bind _ fun running => ?_
    split
    · exact Routine.traces_raise (ran_starting (inPart_cons.mpr ⟨rfl, inPart_nil⟩) (by simp) rfl)
    · rename_i hrunning
      obtain rfl : running = false := by simpa using hrunning
      refine Routine.Traces.bind (P := fun tr s' r => ∃ b, r = .ok b ∧ Begun hooks s' tr b)
        (Routine.Traces.caught (body_traces.mono fun tr s' r h => ⟨r, rfl, h⟩)) ?_ ?_
      · rintro tr s' b ⟨b', hb, hbegun⟩
        cases hb
        have hfinish : b ≠ .ok false → (finish handled b).Traces
            (fun tr' _ r => Ran hooks (⟨.enterRun, false⟩ :: (tr ++ tr')) r) s' := by
          intro hb
          refine finish_traces.mono ?_
          rintro tr' s'' r ⟨hpart, hstopped, herror, hended⟩
          exact hbegun.ran hpart (fun _ => hstopped) (fun hr => absurd hr (hended hb)) herror
        split
        · refine Routine.traces_pure (hbegun.ran inPart_nil (absurd rfl ·) (fun _ => rfl) ?_)
          rintro exc ⟨⟩
        · rename_i hb
          exact hfinish hb
      · rintro tr s' exc ⟨b, hr, -⟩
        cases hr

/-- A run is cut off only when its loop has been round as often as it is looked at. -/
theorem run_rounds {maxIterations : Option Int} {handled : Bool} {rounds : Nat} :
    (run hooks maxIterations handled rounds : WorkerAction Obj Bool).Traces
      (fun tr _ r => r = .ok false → rounds ≤ tr.countP isTest) s := by
  unfold run
  split
  · exact Routine.traces_raise fun h => by cases h
  · refine ask_bind _ fun running => ?_
    split
    · exact Routine.traces_raise fun h => by cases h
    · refine Routine.Traces.bind (P := fun tr _ r => ∃ b, r = .ok b ∧
        (b = .ok false → rounds ≤ tr.countP isTest)) (Routine.Traces.caught ?_) ?_ ?_
      · refine (Routine.Traces.bind startHooks_traces
          (R := fun tr _ r => r = .ok false → rounds ≤ tr.countP isTest) ?_ ?_).mono
            fun tr s' r h => ⟨r, rfl, h⟩
        · rintro tr s' a -
          refine loop_rounds.mono fun tr' _ _ hle h => ?_
          rw [List.countP_append]
          exact (hle h).trans (Nat.le_add_left _ _)
        · exact fun _ _ _ _ h => by cases h
      · rintro tr s' b ⟨b', hb, hle⟩
        cases hb
        split
        · refine Routine.traces_pure fun _ => ?_
          simpa [isTest] using hle rfl
        · rename_i hb
          exact finish_traces.mono fun tr' _ r hfinished h => absurd h (hfinished.ended hb)
      · rintro tr s' exc ⟨b, hr, -⟩
        cases hr

end Traces

end PollingWorker

end Pybus
