import Pybus.Calls

/-! The runner that claims durable jobs and publishes them. -/
namespace Pybus

open Texts

/-- `DurableJobRunner`. -/
structure DurableJobRunner where
  policy : DurableJobPolicy := {}
  workerId : String

namespace DurableJobRunner

variable {Obj : Type} [Texts] (R : DurableJobRunner)

/-- Build the delivery of a claim and hand it to the publisher. -/
def publish (c : DurableJobClaim) : Action Obj Unit := do
  let fresh ← if c.messageId = "" then (uuidText ·) <$> .ask .uuid4 else pure ""
  .attempt (.publisher (c.deliveryEnvelope fresh) c.queue) id

/-- Record a failed publication. The caller raises either way. -/
def recordIndeterminate (c : DurableJobClaim) (now : Instant) : Action Obj Unit := do
  let failedAt ← .ask .now
  tryCatch (.attempt (.store (.markPublishIndeterminate c now
      (failedAt + R.policy.reconciliationDelay)) none) id) fun _ =>
    throw (.indeterminateDelivery
      ("Durable job publication and state are indeterminate for " ++ c.id))
  throw (.indeterminateDelivery ("Durable job publication is indeterminate for " ++ c.id))

def recordPublished (c : DurableJobClaim) : Action Obj Unit := do
  let publishedAt ← .ask .now
  tryCatch (.attempt (.store (.markPublished c publishedAt
      (publishedAt + R.policy.reconciliationDelay)) none) id) fun _ =>
    throw (.indeterminateDelivery ("Durable job publication state is indeterminate for " ++ c.id))

/-- `run_once`. -/
def runOnce : Action Obj (Option DurableJobClaim) := do
  let now ← .ask .now
  let claimed ← .attempt (.store (.claim R.workerId now (now + R.policy.leaseDuration)) none) id
  match claimed with
  | none => return none
  | some c =>
    tryCatch (publish c) fun _ => R.recordIndeterminate c now
    R.recordPublished c
    return some c

end DurableJobRunner

end Pybus
