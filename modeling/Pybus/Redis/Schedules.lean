import Mathlib.Algebra.Order.BigOperators.Group.List
import Mathlib.Algebra.Order.Group.Nat
import Mathlib.Algebra.Order.Ring.Int
import Pybus.Redis.Clients

/-! Runs of clients that are carried out as a schedule says. -/
namespace Pybus.Redis

open Interaction

variable {Bytes : Type} [DecidableEq Bytes] [Sha1 Bytes]

/-- A claim id longer than all those made up before. -/
def freshId (drawn : List String) : String :=
  String.ofList (List.replicate ((drawn.map String.length).sum + 1) 'x')

theorem freshId_fresh {drawn : List String} : freshId drawn ∉ drawn := by
  intro h
  have hmem : (freshId drawn).length ∈ drawn.map String.length := List.mem_map_of_mem h
  have hle := List.single_le_sum (fun n _ => Nat.zero_le n) _ hmem
  simp [freshId] at hle

/-- Every command is carried out and its reply arrives, and no time passes. -/
def replies (s : Server Bytes) : (o : Request Bytes) → o.Answer × Server Bytes
  | .redis o => (.ok (s.reply o s.clock), s.apply o s.clock)
  | .uuid4 => (freshId s.drawn, { s with drawn := freshId s.drawn :: s.drawn })
  | .now | .nowFn _ => (s.clock, s)

/-- A command is carried out, but its reply gets lost. -/
def loses (s : Server Bytes) : (o : Request Bytes) → o.Answer × Server Bytes
  | .redis o => (.error (.raised (.other "ConnectionError")), s.apply o s.clock)
  | o => replies s o

theorem replies_answers {s : Server Bytes} {o : Request Bytes} :
    Answers s o (replies s o).1 (replies s o).2 := by
  cases o with
  | redis o => exact .replied le_rfl
  | uuid4 => exact .uuid4 le_rfl freshId_fresh
  | now => exact .now le_rfl
  | nowFn reaper => exact .nowFn le_rfl

theorem loses_answers {s : Server Bytes} {o : Request Bytes} :
    Answers s o (loses s o).1 (loses s o).2 := by
  cases o with
  | redis o => exact .lost le_rfl
  | uuid4 | now | nowFn => exact replies_answers

/-- What a schedule lets happen next: a client starts, one makes its next request and gets the reply or
loses it, or a reaper reads its clock some time later. -/
inductive Act (Bytes : Type)
  | start (o : Operation Bytes)
  | next (i : Nat)
  | lose (i : Nat)
  | wait (i : Nat) (d : Nat)

/-- Some time passes before the request. -/
def later (d : Nat) (s : Server Bytes) : (o : Request Bytes) → o.Answer × Server Bytes
  | .nowFn _ | .now => (s.clock + d, s.pass (s.clock + d))
  | o => replies s o

theorem later_answers {d : Nat} {s : Server Bytes} {o : Request Bytes} :
    Answers s o (later d s o).1 (later d s o).2 := by
  cases o with
  | redis | uuid4 => exact replies_answers
  | now => exact .now (Int.le_add_of_nonneg_right (Int.natCast_nonneg d))
  | nowFn reaper => exact .nowFn (Int.le_add_of_nonneg_right (Int.natCast_nonneg d))

variable [Texts]

def Act.on (P : Clients Bytes) : Act Bytes → Clients Bytes
  | start o => P.begin o.program
  | next i => P.turn i replies
  | lose i => P.turn i loses
  | wait i d => P.turn i (later d)

def perform (P : Clients Bytes) (acts : List (Act Bytes)) : Clients Bytes := acts.foldl Act.on P

/-- Whether a test on clients and their requests passes whenever a request is made. -/
def Act.passes (test : Clients Bytes → Nat → Request Bytes → Bool) (P : Clients Bytes) :
    Act Bytes → Bool
  | start _ => true
  | next i | lose i | wait i _ =>
    match P.threads[i]? with
    | some ⟨_, .call o _⟩ => test P i o
    | _ => true

def performs (test : Clients Bytes → Nat → Request Bytes → Bool) :
    Clients Bytes → List (Act Bytes) → Bool
  | _, [] => true
  | P, a :: acts => a.passes test P && performs test (a.on P) acts

/-- The moves of the system whose requests pass a test. -/
def TestedStep (test : Clients Bytes → Nat → Request Bytes → Bool) (P : Clients Bytes)
    (m : Move (Requests Bytes) Unit) (P' : Clients Bytes) : Prop :=
  (world Bytes).Step P m P' ∧ ∀ i o r, m = .call i ⟨o, r⟩ → test P i o = true

variable {P : Clients Bytes} {a : Act Bytes} {acts : List (Act Bytes)}
  {test : Clients Bytes → Nat → Request Bytes → Bool}

theorem turn_tested {i : Nat} {answer : Server Bytes → (o : Request Bytes) → o.Answer × Server Bytes}
    (ha : ∀ s o, Answers s o (answer s o).1 (answer s o).2)
    (h : (match P.threads[i]? with
      | some ⟨_, .call o _⟩ => test P i o
      | _ => true) = true) :
    P.turn i answer = P ∨ ∃ m, TestedStep test P m (P.turn i answer) := by
  split at h
  · rename_i log o k hi
    refine .inr ⟨_, Pool.turn_call (W := world Bytes) ha hi, ?_⟩
    rintro j o' r ⟨⟩
    exact h
  · rename_i hno
    left
    unfold Pool.turn
    split
    · rename_i log o k hi
      exact absurd hi (hno log o k)
    · rfl

theorem Act.tested (h : a.passes test P = true) :
    a.on P = P ∨ ∃ m, TestedStep test P m (a.on P) := by
  cases a with
  | start o => exact .inr ⟨_, .start ⟨o, rfl⟩, nofun⟩
  | next i => exact turn_tested (fun _ _ => replies_answers) h
  | lose i => exact turn_tested (fun _ _ => loses_answers) h
  | wait i d => exact turn_tested (fun _ _ => later_answers) h

/-- A schedule that passes a test is a run of tested moves. -/
theorem perform_path (h : performs test P acts = true) :
    ∃ ms, Path (TestedStep test) P ms (perform P acts) := by
  induction acts generalizing P with
  | nil => exact ⟨[], .refl P⟩
  | cons a acts ih =>
    obtain ⟨ha, hacts⟩ := Bool.and_eq_true_iff.mp h
    obtain ⟨ms, hms⟩ := ih hacts
    rcases a.tested ha with he | ⟨m, hm⟩
    · have hsame : perform P (a :: acts) = perform P acts := by simp [perform, he]
      exact ⟨ms, by simpa [hsame, he] using hms⟩
    · exact ⟨m :: ms, .head hm hms⟩

end Pybus.Redis
