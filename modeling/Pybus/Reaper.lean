import Pybus.Copies
import Pybus.RetryState
import Pybus.Redis.Transport

/-! What a reaper publishes in the place of a stale claim. -/
namespace Pybus.Redis.RedisReaperRunner

open Value Texts MessageEnvelope Interaction Listener Action

variable {Obj α : Type} [Texts] (self : RedisReaperRunner)

/-- `_settle_after_claim` of the reaper. -/
def settleAfterClaim (action : String) (operation : Action Obj Unit) : Action Obj Unit :=
  tryCatch operation fun exc =>
    if exc.isIndeterminate then throw exc
    else throw (.indeterminateDelivery
      (action ++ " failed after a stale claim was reclaimed from the transport"))

/-- `_ack_claim` of the reaper. -/
def ackClaim (claim : Claim) : Action Obj Unit :=
  match claim.receipt with
  | none => pure ()
  | some receipt =>
    tryCatch (.attempt (.ack receipt claim) id) fun exc =>
      if exc.isIndeterminate then throw exc
      else throw (.indeterminateDelivery
        "stale claim ack failed after a reclaim outcome was durably published")

/-- `_dead_letter_undecodable` of the reaper. -/
def deadLetterUndecodable (channel : String) (message : Raw) (claim : Claim) :
    Action Obj Unit := do
  let messageId ← .ask .uuid4
  let now ← .ask .now
  settleAfterClaim "stale-claim decode-failure publication"
    (publishEnvelope self.deadLetterChannel
      (poison channel message (.other "ReaperDecodeError") messageId now) claim)
  ackClaim claim

/-- The target and the copy that `_reclaim` publishes. Without a registry it only looks at the
headers, and the payload stays as it is. -/
def outcome (channel : String) (e : MessageEnvelope) (now : Instant) : String × MessageEnvelope :=
  let retries := resolveRetryCount none e.headers
  if self.policy.maxReclaimAttempts ≤ retries then (self.deadLetterChannel, e.buried channel)
  else (channel, e.retried true now retries)

/-- `_reclaim`. -/
def reclaim (channel : String) (message : Raw) (claim : Claim) : Action Obj Unit := do
  let read ← .ask .now
  match MessageEnvelope.read read message with
  | .error _ => self.deadLetterUndecodable channel message claim
  | .ok e =>
    let now ← .ask .now
    let (target, copy) := self.outcome channel e now
    settleAfterClaim "stale-claim reclaim" (publishEnvelope target copy claim)
    ackClaim claim

/-- What the reaper may publish for a message it can read. -/
def ReclaimCopy (channel : String) (e : MessageEnvelope) (target : String) (raw : Raw) : Prop :=
  (∃ now, e.headerCount < self.policy.maxReclaimAttempts ∧ target = channel ∧
    (e.retried true now e.headerCount).dump = .ok raw) ∨
  target = self.deadLetterChannel ∧ (e.buried channel).dump = .ok raw

variable {self} {P : String → Raw → Claim → Prop} {channel : String} {k : Claim}

omit [Texts] in
theorem allows_ackClaim : Allows P (ackClaim k : Action Obj Unit) := by
  unfold ackClaim
  cases k.receipt with
  | none => exact allows_pure
  | some receipt =>
    refine .tryCatch (fun _ => ⟨trivial, fun _ _ => trivial⟩) fun exc => ?_
    exact allows_ite (fun _ => allows_throw) fun _ => allows_throw

theorem allows_publish {action target : String} {e : MessageEnvelope}
    (h : ∀ raw, e.dump = .ok raw → P target raw k) :
    Allows P (settleAfterClaim action (publishEnvelope target e k) : Action Obj Unit) :=
  (allows_publishEnvelope h).tryCatch fun _ =>
    allows_ite (fun _ => allows_throw) fun _ => allows_throw

theorem outcome_copy {e : MessageEnvelope} {now : Instant} {raw : Raw}
    (h : (self.outcome channel e now).2.dump = .ok raw) :
    self.ReclaimCopy channel e (self.outcome channel e now).1 raw := by
  rcases le_or_gt self.policy.maxReclaimAttempts e.headerCount with hle | hlt
  · have hout : self.outcome channel e now = (self.deadLetterChannel, e.buried channel) :=
      if_pos hle
    rw [hout] at h ⊢
    exact .inr ⟨rfl, h⟩
  · have hout : self.outcome channel e now = (channel, e.retried true now e.headerCount) :=
      if_neg (by exact Nat.not_le.mpr hlt)
    rw [hout] at h ⊢
    exact .inl ⟨now, hlt, rfl, h⟩

/-- A stale claim is replaced by a copy of its message, if that can be read. -/
theorem allows_reclaim {message : Raw} (hread : ∃ now e, read now message = .ok e) :
    Allows (fun target raw _ => ∃ now e, read now message = .ok e ∧
      self.ReclaimCopy channel e target raw) (self.reclaim channel message k : Action Obj Unit) := by
  obtain ⟨now, e, he⟩ := hread
  refine allows_now.bind fun now' => ?_
  cases hr : read now' message with
  | error exc =>
    rw [read_error hr] at he
    cases he
  | ok e' =>
    refine allows_now.bind fun t => ?_
    refine Allows.bind (allows_publish fun raw hd => ⟨now', e', hr, outcome_copy hd⟩) fun _ => ?_
    exact allows_ackClaim

end Pybus.Redis.RedisReaperRunner
