import Pybus.Listener

/-! What the calls of a run amount to for one claim, and what excuses the ack of a receipt. -/
namespace Pybus

open Value Texts Interaction

variable {Obj : Type}

/-- The ledger of one claim: the message it was taken on, its copies, its acks, and the answers of
its handlers, of the store and of its observers. -/
structure Ledger (Obj : Type) where
  message : Option RawMessage := none
  copies : Nat := 0
  published : Bool := false
  refused : Bool := false
  acks : Nat := 0
  acked : Bool := false
  returned : List (Handler × MessageEnvelope × HandlerResult Obj) := []
  recorded : Bool := false
  dropped : Bool := false
  unreleased : Bool := false
  batch : Option Handler := none
  observedEarly : Bool := false
  disturbed : Bool := false

namespace Ledger

/-- A copy of the message was sent. -/
def sent (g : Ledger Obj) (ok : Bool) : Ledger Obj :=
  { g with
    copies := g.copies + 1, published := g.published || ok, refused := g.refused || !ok }

def confirmed (g : Ledger Obj) (ok : Bool) : Ledger Obj :=
  { g with acks := g.acks + 1, acked := g.acked || ok }

def handled (g : Ledger Obj) (h : Handler) (e : MessageEnvelope) (result : HandlerResult Obj) :
    Ledger Obj :=
  { g with returned := g.returned ++ [(h, e, result)] }

/-- A final outcome was observed: early, if there is a receipt and it has not been acked. -/
def observed (g : Ledger Obj) (status : CommandDeliveryStatus) (receipt : Option String) :
    Ledger Obj :=
  { g with observedEarly :=
      g.observedEarly || (status ≠ .started && receipt.isSome && !g.acked) }

/-- `size` or `consume_many` raised an ordinary exception although a copy was already sent. -/
def disturb (g : Ledger Obj) (exc : Exc) : Ledger Obj :=
  { g with disturbed := g.disturbed || (decide (0 < g.copies) && !exc.stopsWorker) }

def answered (g : Ledger Obj) (op : StoreOp) (r : Except Exc op.Result) : Ledger Obj :=
  match op, r with
  | .admitDelivery _, .ok .drop => { g with dropped := true }
  | .releaseDelivery _ _ _, .error _ => { g with unreleased := true }
  | .completeRecurringSuccess _ _ _, .ok true => { g with recorded := true }
  | .applyOutcome o _, .ok _ =>
    { g with recorded := g.recorded || o.status = .succeeded }
  | _, _ => g

/-- A change that only the ledger of the claim itself undergoes. -/
def on (c : Nat) (k : Claim) (f : Ledger Obj → Ledger Obj) (g : Ledger Obj) : Ledger Obj :=
  if k.number = c then f g else g

/-- The ledger of the claim numbered `c` after one more call. -/
def next (c : Nat) (g : Ledger Obj) (o : Call Obj) (r : o.Answer) : Ledger Obj :=
  match o, r with
  | .consume _ _ n, .ok (some m) => if n = c then { g with message := some m } else g
  | .consumeMany _ _ _, .error exc => g.disturb exc
  | .size _, .error exc => g.disturb exc
  | .publish _ _ k, .ok _ => g.on c k (·.sent true)
  | .publish _ _ k, .error _ => g.on c k (·.sent false)
  | .ack _ k, .ok _ => g.on c k (·.confirmed true)
  | .ack _ k, .error _ => g.on c k (·.confirmed false)
  | .handler h _ e k, .ok result => g.on c k (·.handled h e result)
  | .batchHandler h _ ks, .ok _ => if c ∈ ks.map (·.number) then { g with batch := some h } else g
  | .observer _ o k, _ => g.on c k (·.observed o.status k.receipt)
  | .store op (some k), r => g.on c k (·.answered op r)
  | _, _ => g

variable [Texts] (R : Registry Obj)

/-- All handlers of the message returned and, for a durable one, the success was recorded. -/
def Done (g : Ledger Obj) : Prop :=
  ∃ m now e hs, g.message = some m ∧ MessageEnvelope.read now m.bytes = .ok e ∧
    R.handlersFor e.messageKind e.messageType = .ok hs ∧ hs ≠ [] ∧ g.returned.map (·.1) = hs ∧
    (∀ x ∈ g.returned, x.2.1 = e) ∧
    (DurableJobController.identity e ≠ .ok none → g.recorded = true)

/-- The handler of the batch that took the message returned, the only one of the batch's event. -/
def BatchDone (g : Ledger Obj) : Prop :=
  ∃ h t, g.batch = some h ∧ R.handlersFor (.str "event") (.str t) = .ok [h]

/-- What excuses an ack: a published successor, finished handlers, or a delivery to be dropped. -/
def Justified (g : Ledger Obj) : Prop :=
  g.published = true ∨ g.Done R ∨ g.BatchDone R ∨ g.dropped = true

end Ledger

/-- The ledger of a claim after a run. -/
def ledger (c : Nat) (tr : List (Event (Calls Obj))) : Ledger Obj :=
  tr.foldl (fun g e => g.next c e.op e.answer) {}

/-- A condition on the answers of the surroundings. -/
abbrev Assumption (Obj : Type) := (o : Call Obj) → o.Answer → Prop

/-- The monitor that keeps the ledger of one claim and permits no ack without an excuse. -/
def accounting [Texts] (R : Registry Obj) (A : Assumption Obj) (c : Nat) :
    Monitor (Calls Obj) (Ledger Obj) where
  permits g o :=
    match o with
    | .ack _ k => k.number = c → g.Justified R
    | _ => True
  assumes _ o r := A o r
  next g o r := g.next c o r

namespace Assumption

variable (A : Assumption Obj)

/-- The transport may fail to take a copy of the message or an ack of its receipt. -/
def Refuses (k : Claim) : Prop :=
  (∃ channel message exc, A (.publish channel message k) (.error exc)) ∨
    ∃ receipt exc, A (.ack receipt k) (.error exc)

/-- The sleep of a retry may fail. -/
def Sleepless : Prop := ∃ seconds exc, A (.sleepFn seconds) (.error exc)

/-- The transport may fail to look into a batch buffer. -/
def Shut : Prop :=
  (∃ channel exc, A (.size channel) (.error exc)) ∨
    ∃ channel limit n exc, A (.consumeMany channel limit n) (.error exc)

end Assumption

namespace Ledger

variable {c : Nat} {k : Claim} {g : Ledger Obj} {f f' : Ledger Obj → Ledger Obj}

theorem on_own (h : k.number = c) : g.on c k f = f g := if_pos h

theorem on_other (h : k.number ≠ c) : g.on c k f = g := if_neg h

theorem on_on : (g.on c k f).on c k f' = g.on c k (fun g => f' (f g)) := by
  by_cases h : k.number = c
  · simp only [on_own h]
  · simp only [on_other h]

theorem on_id (h : k.number = c → f g = g) : g.on c k f = g := by
  by_cases hk : k.number = c
  · rw [on_own hk, h hk]
  · exact on_other hk

/-- A copy was sent and the receipt, if there is one, acked. -/
def settled (g : Ledger Obj) (receipt : Option String) : Ledger Obj :=
  if receipt.isSome then (g.sent true).confirmed true else g.sent true

theorem observed_started (receipt : Option String) : g.observed .started receipt = g := by
  simp [observed]

theorem observed_settled {g : Ledger Obj} (status : CommandDeliveryStatus) {receipt : Option String}
    (h : receipt.isSome = true → g.acked = true) : g.observed status receipt = g := by
  have he : (g.observedEarly || (status ≠ .started && receipt.isSome && !g.acked)) =
      g.observedEarly := by
    cases receipt with
    | none => simp
    | some r => simp [h rfl]
  rw [observed, he]

theorem observed_observed (status : CommandDeliveryStatus) (receipt : Option String) :
    (g.observed status receipt).observed status receipt = g.observed status receipt := by
  simp [observed]

theorem settled_acked {receipt : Option String} (h : receipt.isSome = true) :
    (g.settled receipt).acked = true := by
  simp [settled, h, confirmed]

theorem answered_applyOutcome {o : CommandDeliveryOutcome} {due : Instant}
    (h : o.status ≠ .succeeded) (r : Except Exc Unit) :
    g.answered (.applyOutcome o due) r = g := by
  cases r <;> simp [answered, h]

end Ledger

/-- How an attempt to settle a claim ends: not even begun, without a copy, with a copy that was not
acked, or settled. Any exception after the first attempt stops the worker. -/
inductive Settled [Texts] (A : Assumption Obj) (c : Nat) (e : MessageEnvelope) (k : Claim)
    (idly : Exc → Prop) (g : Ledger Obj) : Ledger Obj → Option Exc → Prop
  | idle {exc : Exc} : idly exc → Settled A c e k idly g g (some exc)
  | undumped {exc : Exc} : ¬ e.Dumpable → exc.isIndeterminate = true →
      Settled A c e k idly g g (some exc)
  | refused {exc : Exc} : A.Refuses k → exc.isIndeterminate = true →
      Settled A c e k idly g (g.on c k (·.sent false)) (some exc)
  | unacked {exc : Exc} : A.Refuses k → k.receipt.isSome = true → exc.isIndeterminate = true →
      Settled A c e k idly g (g.on c k fun g => (g.sent true).confirmed false) (some exc)
  | settled {x : Option Exc} : (∀ exc, x = some exc → exc.stopsWorker = true) →
      Settled A c e k idly g (g.on c k (·.settled k.receipt)) x

section Rules

variable {α : Type} [Texts] {R : Registry Obj} {A : Assumption Obj} {c : Nat} {g g' : Ledger Obj}
  {s : ListenerState} {k : Claim} {e : MessageEnvelope} {idly idly' : Exc → Prop} {x : Option Exc}

theorem ledger_eq (tr : List (Event (Calls Obj))) : ledger c tr = (accounting R A c).after {} tr :=
  rfl

@[simp] theorem accounting_assumes (o : Call Obj) (r : o.Answer) :
    (accounting R A c).assumes g o r = A o r := rfl

@[simp] theorem accounting_next (o : Call Obj) (r : o.Answer) :
    (accounting R A c).next g o r = g.next c o r := rfl

/-- An answer of the store that the ledger has no entry for. -/
theorem next_store {op : StoreOp} {r : Except Exc op.Result} (h : ∀ g : Ledger Obj, g.answered op r = g) :
    (accounting R A c).next g (.store op (some k)) r = g := by
  change g.on c k (·.answered op r) = g
  exact Ledger.on_id fun _ => h g

theorem Settled.mono (h : Settled A c e k idly g g' x) (hi : ∀ exc, idly exc → idly' exc) :
    Settled A c e k idly' g g' x := by
  cases h with
  | idle hw => exact .idle (hi _ hw)
  | undumped hd hs => exact .undumped hd hs
  | refused hf hs => exact .refused hf hs
  | unacked hf hr hs => exact .unacked hf hr hs
  | settled hx => exact .settled hx

/-- A settlement that ends in an exception is either idle or stops the worker. -/
theorem Settled.stops {exc : Exc} (h : Settled A c e k idly g g' (some exc)) :
    exc.stopsWorker = true ∨ idly exc := by
  cases h with
  | idle hw => exact .inr hw
  | undumped hd hs => exact .inl (Exc.stopsWorker_of_indeterminate hs)
  | refused hf hs => exact .inl (Exc.stopsWorker_of_indeterminate hs)
  | unacked hf hr hs => exact .inl (Exc.stopsWorker_of_indeterminate hs)
  | settled hx => exact .inl (hx _ rfl)

/-- Settling one claim does not touch the ledger of another. -/
theorem Settled.other (h : Settled A c e k idly g g' x) (hk : k.number ≠ c) : g' = g := by
  cases h with
  | idle hw => rfl
  | undumped hd hs => rfl
  | _ => exact Ledger.on_other hk

end Rules

end Pybus
