import Mathlib.Algebra.Order.Ring.Int
import Pybus.Reaper

/-! The sweeps of the reaper: what `run_once` makes of the claims it lists, and the payload that
stops it. -/
namespace Pybus

open Value Texts MessageEnvelope Interaction Listener Action

/-- A stale claim: its payload, and its receipt. -/
structure StaleClaim where
  bytes : Raw
  receipt : String
  deriving DecidableEq

def StaleClaim.claim (m : StaleClaim) : Claim := ⟨some m.receipt, 0⟩

/-- What the transport answers a sweep about a channel: how many orphans it reconciled, and which
claims are stale. -/
structure Sweep where
  channel : String
  reconciled : Nat
  stale : List StaleClaim

namespace Redis.RedisReaperRunner

variable {Obj : Type}

section Runner

variable (self : RedisReaperRunner)

/-- The transport's answers, one for each channel of the reaper. -/
structure Answers (reaper : RedisReaperRunner) where
  sweeps : List Sweep
  channels_eq : sweeps.map (·.channel) = reaper.channels

variable {self} in
/-- The stale claims of all channels, in the order in which they are listed. -/
def Answers.listed (a : self.Answers) : List (String × StaleClaim) :=
  a.sweeps.flatMap fun w => w.stale.map (w.channel, ·)

variable [Texts]

/-- The loop over the stale claims of a channel. -/
def reclaimAll (channel : String) : List StaleClaim → Action Obj Unit
  | [] => return ()
  | m :: stale => do
    self.reclaim channel m.bytes m.claim
    reclaimAll channel stale

/-- The loop over the channels, with the number of claims reclaimed so far. -/
def sweepAll : List Sweep → Nat → Action Obj Nat
  | [], reclaimed => return reclaimed
  | w :: sweeps, reclaimed => do
    self.reclaimAll w.channel w.stale
    sweepAll sweeps (reclaimed + w.reconciled + w.stale.length)

variable {self} in
/-- `run_once`. -/
def runOnce (a : self.Answers) : Action Obj Nat := do
  let _now ← .ask .now
  self.sweepAll a.sweeps 0

variable {self} in
omit [Texts] in
/-- The number of claims that are reindexed or reclaimed. -/
def Answers.reclaimed (a : self.Answers) : Nat :=
  (a.sweeps.map fun w => w.reconciled + w.stale.length).sum

/-- What becomes of a stale claim: one message takes its place, and its receipt is acked. -/
inductive SettlesClaim (channel : String) (m : StaleClaim) : List Entry → Prop
  | redelivered {now now' : Instant} {e : MessageEnvelope} {raw : Raw} :
      read now m.bytes = .ok e → e.headerCount < self.policy.maxReclaimAttempts →
      (e.retried true now' e.headerCount).dump = .ok raw →
      SettlesClaim channel m [.published channel raw m.claim, .acked m.receipt m.claim]
  | deadLettered {now : Instant} {e : MessageEnvelope} {raw : Raw} :
      read now m.bytes = .ok e → self.policy.maxReclaimAttempts ≤ e.headerCount →
      (e.buried channel).dump = .ok raw →
      SettlesClaim channel m [.published self.deadLetterChannel raw m.claim, .acked m.receipt m.claim]
  | poisoned {now : Instant} {u : Uuid} {raw : Raw} :
      (∀ now, ∃ exc, read now m.bytes = .error exc) →
      (poison channel m.bytes (.other "ReaperDecodeError") u now).dump = .ok raw →
      SettlesClaim channel m [.published self.deadLetterChannel raw m.claim, .acked m.receipt m.claim]

/-- The listed claims are settled one after the other, each once. -/
def SettlesAll (listed : List (String × StaleClaim)) (log : List Entry) : Prop :=
  ∃ logs, List.Forall₂ (fun x log => self.SettlesClaim x.1 x.2 log) listed logs ∧ log = logs.flatten

end Runner

end Redis.RedisReaperRunner

namespace Redis.RedisReaperRunner

variable {Obj : Type} [Texts] {self : RedisReaperRunner} {channel : String} {m : StaleClaim}
  {listed listed' : List (String × StaleClaim)} {log own own' : List Entry} {s : ListenerState}
  {x : Option Exc}

section Claims

/-- A payload that stops every sweep: it can be read, and no copy of it can be written. -/
def Stuck (m : StaleClaim) : Prop := ∃ now e, read now m.bytes = .ok e ∧ ¬ e.Dumpable

/-- How the claims listed first are settled and, if the sweep ends there, the one it is stuck on. -/
inductive Swept (self : RedisReaperRunner) (listed : List (String × StaleClaim)) :
    List Entry → Option Exc → Prop
  | finished {own : List Entry} : (∀ y ∈ listed, ¬ Stuck y.2) → self.SettlesAll listed own →
      Swept self listed own none
  | stopped {pre post : List (String × StaleClaim)} {y : String × StaleClaim} {own : List Entry}
      {exc : Exc} : listed = pre ++ y :: post → Stuck y.2 → self.SettlesAll pre own →
      exc.isIndeterminate = true → Swept self listed own (some exc)

theorem settlesAll_append (h : self.SettlesAll listed own) (h' : self.SettlesAll listed' own') :
    self.SettlesAll (listed ++ listed') (own ++ own') := by
  obtain ⟨logs, hall, rfl⟩ := h
  obtain ⟨logs', hall', rfl⟩ := h'
  exact ⟨logs ++ logs', List.rel_append hall hall', (List.flatten_append).symm⟩

theorem Swept.append (h : Swept self listed own none) (h' : Swept self listed' own' x) :
    Swept self (listed ++ listed') (own ++ own') x := by
  cases h with
  | finished hfree hall =>
    cases h' with
    | finished hfree' hall' =>
      refine .finished (fun y hy => ?_) (settlesAll_append hall hall')
      rcases List.mem_append.mp hy with hy | hy
      · exact hfree y hy
      · exact hfree' y hy
    | @stopped pre post y own' exc hsplit hstuck hall' hi =>
      have hsplit' : listed ++ listed' = (listed ++ pre) ++ y :: post := by
        rw [hsplit, List.append_assoc]
      exact .stopped hsplit' hstuck (settlesAll_append hall hall') hi

end Claims

section Reclaiming

end Reclaiming

section Sweeping

end Sweeping

end Redis.RedisReaperRunner

section Sample

local instance sweepTexts : Texts := .lawful

end Sample

end Pybus
