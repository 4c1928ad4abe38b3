import Pybus.Exchange

/-! What a request settles: the claims that it opens on its reply queue, and those that it closes. -/
namespace Pybus

open Value Texts Interaction Exchanging

/-- The message that a call has consumed. -/
def arrived : Event ReplyCalls → Option RawMessage
  | ⟨.consume _ _, .ok m⟩ => m
  | _ => none

/-- The receipts that messages were consumed with. -/
def claimed (trace : List (Event ReplyCalls)) : List String :=
  trace.filterMap fun event => (arrived event).bind (·.receipt)

/-- The transport hands over every message with a receipt. -/
def Receipted (trace : List (Event ReplyCalls)) : Prop :=
  ∀ event ∈ trace, ∀ m, arrived event = some m → m.receipt.isSome

/-- Whenever the reply queue is polled, it is empty. -/
def Unanswered (trace : List (Event ReplyCalls)) : Prop := ∀ event ∈ trace, arrived event = none

instance (trace : List (Event ReplyCalls)) : Decidable (Unanswered trace) :=
  inferInstanceAs (Decidable (∀ event ∈ trace, _))

/-- Every message that was consumed has been acked. -/
def SettlesReplies (trace : List (Event ReplyCalls)) : Prop :=
  ∀ receipt ∈ claimed trace, ∃ event ∈ trace, event.op = .ack receipt

/-- A request makes no call that settles a claim; the monitor keeps the claims that are open. -/
def claiming : Monitor ReplyCalls (List String) where
  permits _ o := ∀ receipt, o ≠ .ack receipt
  assumes _ _ _ := True
  next claims o r :=
    match o, r with
    | .consume _ _, .ok (some m) => claims ++ m.receipt.toList
    | .ack receipt, .ok () => claims.filter (· ≠ receipt)
    | _, _ => claims

/-- The claims that a trace leaves open. -/
def outstanding (trace : List (Event ReplyCalls)) : List String := claiming.after [] trace

/-- A part of a request that settles no claim. -/
def Unsettling {α : Type} (p : Exchanging α) : Prop :=
  ∀ claims u, p.Meets claiming (fun _ _ _ => True) claims u

section Parts

variable {α β : Type} {p : Exchanging α} {f : α → Exchanging β} {c : ReplyCall}

theorem Unsettling.bind (h : Unsettling p) (hf : ∀ a, Unsettling (f a)) : Unsettling (p >>= f) :=
  fun claims u => Routine.Meets.bind (Q := fun _ _ _ => True) (h claims u)
    (fun claims' u' a _ => hf a claims' u') fun _ _ _ _ => trivial

theorem unsettling_pure (a : α) : Unsettling (pure a) := fun _ _ => trivial

theorem unsettling_throw_bind {e : Exc} : Unsettling ((throw e : Exchanging α) >>= f) :=
  fun _ _ => trivial

theorem unsettling_ask (h : ∀ receipt, c ≠ .ack receipt) : Unsettling (ask c) :=
  fun _ _ => ⟨h, fun _ _ => trivial⟩

theorem unsettling_attempt {g : c.Answer → Except Exc α} (h : ∀ receipt, c ≠ .ack receipt) :
    Unsettling (attempt c g) := fun _ _ => ⟨h, fun _ _ => trivial⟩

theorem unsettling_lift {r : Except Exc α} : Unsettling (Routine.lift r) :=
  fun _ _ => Routine.meets_lift.mpr trivial

end Parts

section Programs

variable {requestId correlationId replyQueue : String} {deadline : Option Instant}
  {timeout : Option Nat} {rounds : Nat}

theorem polling_unsettling : Unsettling (polling requestId deadline) := by
  cases deadline with
  | none => exact unsettling_pure _
  | some d =>
    refine (unsettling_ask (by simp)).bind fun now => ?_
    split
    · exact unsettling_throw_bind
    · refine (unsettling_ask (by simp)).bind fun now => ?_
      dsimp only
      split
      · exact unsettling_throw_bind
      · exact unsettling_pure _

variable [Texts]

theorem awaitRound_unsettling :
    Unsettling (awaitRound requestId correlationId replyQueue deadline) := by
  refine (unsettling_ask (by simp)).bind fun r => ?_
  cases r with
  | some e => exact unsettling_pure _
  | none =>
    refine polling_unsettling.bind fun p => ?_
    refine (unsettling_attempt (by simp)).bind fun m => ?_
    cases m with
    | none => exact (unsettling_ask (by simp)).bind fun _ => unsettling_pure _
    | some m =>
      refine (unsettling_ask (by simp)).bind fun now => ?_
      refine unsettling_lift.bind fun e => ?_
      exact (unsettling_attempt (by simp)).bind fun _ => unsettling_pure _

theorem awaitRounds_unsettling :
    Unsettling (awaitRounds requestId correlationId replyQueue deadline rounds) := by
  induction rounds with
  | zero => exact unsettling_pure _
  | succ n ih =>
    refine awaitRound_unsettling.bind fun r => ?_
    cases r with
    | some e => exact unsettling_pure _
    | none => exact ih

/-- No call of a request settles a claim, whatever is answered. -/
theorem request_unsettling :
    Unsettling (request requestId correlationId replyQueue timeout rounds) := by
  refine (unsettling_attempt (by simp)).bind fun _ => ?_
  cases timeout with
  | none => exact awaitRounds_unsettling
  | some seconds => exact (unsettling_ask (by simp)).bind fun now => awaitRounds_unsettling

end Programs

section Traces

variable {trace : List (Event ReplyCalls)} {claims : List String}

theorem permitted_claiming (h : claiming.Permitted claims trace) :
    (∀ event ∈ trace, ∀ receipt, event.op ≠ .ack receipt) ∧
      claiming.after claims trace = claims ++ claimed trace := by
  induction trace generalizing claims with
  | nil => exact ⟨fun _ he => absurd he List.not_mem_nil, by simp [claimed]⟩
  | cons event trace ih =>
    obtain ⟨hnext, hafter⟩ := ih h.2
    refine ⟨fun e he => ?_, ?_⟩
    · rcases List.mem_cons.mp he with rfl | he
      · exact h.1
      · exact hnext e he
    · have hclaims : claiming.next claims event.op event.answer =
          claims ++ ((arrived event).bind (·.receipt)).toList := by
        obtain ⟨o, r⟩ := event
        cases o with
        | consume => rcases r with exc | _ | m <;> simp [claiming, arrived]
        | ack receipt => exact absurd rfl (h.1 receipt)
        | _ => simp [claiming, arrived]
      rw [Monitor.after_cons, hafter, hclaims, claimed, claimed, List.filterMap_cons]
      cases (arrived event).bind (·.receipt) <;> simp

variable [Texts] {requestId correlationId replyQueue : String} {timeout : Option Nat} {rounds : Nat}
  {a : Ended}

/-- A request leaves all its claims open. -/
theorem request_outstanding
    (h : (request requestId correlationId replyQueue timeout rounds ()).Runs trace a) :
    (∀ event ∈ trace, ∀ receipt, event.op ≠ .ack receipt) ∧ outstanding trace = claimed trace := by
  have hanswered : claiming.Answered [] trace := by
    refine (Monitor.answered_iff (A := fun _ _ => True) fun _ _ _ => Iff.rfl).mpr ?_
    exact fun _ _ => trivial
  have hpermitted := (Prog.Meets.runs (request_unsettling [] ()) h hanswered).1
  exact permitted_claiming hpermitted

/-- A request has acked every message that it consumed, and leaves no claim open, just when it finds
its reply queue empty whenever it polls it. -/
theorem request_settles_iff
    (h : (request requestId correlationId replyQueue timeout rounds ()).Runs trace a)
    (hreceipts : Receipted trace) :
    (SettlesReplies trace ∧ outstanding trace = []) ↔ Unanswered trace := by
  obtain ⟨hnever, houtstanding⟩ := request_outstanding h
  constructor
  · intro hsettles event he
    have hclaimed : claimed trace = [] := houtstanding ▸ hsettles.2
    have hnone := List.filterMap_eq_nil_iff.mp hclaimed event he
    cases hm : arrived event with
    | none => rfl
    | some m =>
      have hreceipt := hreceipts event he m hm
      rw [hm, Option.bind_some] at hnone
      rw [hnone] at hreceipt
      cases hreceipt
  · intro hsilent
    have hclaimed : claimed trace = [] := by
      refine List.filterMap_eq_nil_iff.mpr fun event he => ?_
      rw [hsilent event he, Option.bind_none]
    refine ⟨fun receipt hreceipt => ?_, houtstanding.trans hclaimed⟩
    rw [hclaimed] at hreceipt
    cases hreceipt

end Traces

section Sample

local instance repliesTexts : Texts := .sample

/-- Every call takes a second. -/
def ticking (t : Instant × Exchange) (o : ReplyCall) : o.Answer × Instant × Exchange :=
  let answered := t.2.respond t.1 (some "r1") o
  (answered.1, t.1 + 1000000, answered.2)

/-- The run of a request when one response is in its reply queue. -/
def requestRun (timeout : Option Nat) (m : Raw) : List (Event ReplyCalls) × Ended :=
  (request "q1" "c" "replies" timeout 2 ()).play ticking
    (0, { queues := Function.update (fun _ => []) "replies" [m] })

/-- A request whose response is in the buffer already. -/
def bufferedRun : List (Event ReplyCalls) × Ended :=
  (request "q1" "c" "replies" none 2 ()).play ticking
    (0, { coordinator := ⟨fun v => if v = .str "c" then
      (MessageEnvelope.read 0 (responseMessage "q1" "c")).toOption else none, fun _ => none⟩ })

theorem request_settles_iff_buffered : (∃ e, bufferedRun.2 = (.ok (some e), ())) ∧
    SettlesReplies bufferedRun.1 ∧ outstanding bufferedRun.1 = [] := by
  have hsilent : Unanswered bufferedRun.1 := by decide
  refine ⟨⟨_, rfl⟩, (request_settles_iff Prog.play_runs fun event he m hm => ?_).mpr hsilent⟩
  rw [hsilent event he] at hm
  cases hm

/-- A request that returns its response has not acked it, and one that times out has not acked the
response to another. -/
theorem request_leaves_claims :
    ((∃ e, (requestRun none (responseMessage "q1" "c")).2 = (.ok (some e), ())) ∧
      ¬ SettlesReplies (requestRun none (responseMessage "q1" "c")).1) ∧
    (requestRun (some 4) (responseMessage "q2" "d")).2 = (.error messageTimeoutError, ()) ∧
      ¬ SettlesReplies (requestRun (some 4) (responseMessage "q2" "d")).1 := by
  refine ⟨⟨⟨_, rfl⟩, fun h => ?_⟩, rfl, fun h => ?_⟩
  · obtain ⟨event, he, hack⟩ := h "r1" (by decide)
    revert hack
    revert event
    decide
  · obtain ⟨event, he, hack⟩ := h "r1" (by decide)
    revert hack
    revert event
    decide

end Sample

end Pybus
