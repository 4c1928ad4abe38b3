import Pybus.Working

/-! A delivery whose handler fails: what `listen_once` makes of it when all else works. -/
namespace Pybus

open Value Texts Interaction Listener Action

variable {Obj G : Type} [Texts] {M : Monitor (Calls Obj) G} {g : G} {s : ListenerState} {k : Claim}
  {L : Listener Obj} {e : MessageEnvelope} {channel : String} {h : Handler} {n limit : Nat}
  {message : Message Obj}

namespace Listener

omit [Texts] in
/-- A continuation that `_continue_processing` refuses: its queue is terminal or unknown. -/
def rejects (L : Listener Obj) (channel : String) (continuation : ContinueProcessing) : Bool :=
  let target := continuation.queue.getD channel
  target = L.deadLetterChannel ||
    continuation.queue.isSome && target ≠ channel && L.topology.any (fun t => !t.hasQueue target)

omit [Texts] in
/-- Whether the handler of a delivery that is not durable fails with this answer: it raises, or
returns a continuation that is refused, or a result about recurrence. -/
def fails (L : Listener Obj) (channel : String) : Except Exc (HandlerResult Obj) → Bool
  | .error _ => true
  | .ok (.continueProcessing continuation) => L.rejects channel continuation
  | .ok result => result.isRecurrence

omit [Texts] in
/-- Whether the handler fails by a continuation that is refused. -/
def refused (L : Listener Obj) (channel : String) : Except Exc (HandlerResult Obj) → Bool
  | .ok (.continueProcessing continuation) => L.rejects channel continuation
  | _ => false

omit [Texts] in
/-- The limit that a failed delivery is held to: a refused continuation is only caught by
`listen_once`, which knows nothing of the handler's own limit. -/
def limitOf (L : Listener Obj) (channel : String) (h : Handler)
    (answer : Except Exc (HandlerResult Obj)) : Nat :=
  if L.refused channel answer then L.retryPolicy.maxRetries else L.maxRetriesOf h.spec

end Listener

section Handling

variable (hw : Works M) (he : Sendable e) (hn : L.retryCount e = .ok n)

include hw he hn

end Handling

section Delivery

variable (hw : Works M) (he : Sendable e)

include hw

include he

variable (hn : L.retryCount e = .ok n) {answer : Except Exc (HandlerResult Obj)}
  (hfails : L.fails channel answer = true)
  (hanswer : ∀ r, M.assumes g (.handler h message e k) r → r = answer)

include hn hfails hanswer

end Delivery

end Pybus
