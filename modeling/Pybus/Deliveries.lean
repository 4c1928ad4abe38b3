import Mathlib.Data.List.Induction
import Pybus.Listening

/-! Every run of `listen_once`, and what it does with each message it claims. -/
namespace Pybus

open Value Texts Interaction Listener

/-- The calls of a run with their answers, oldest first. -/
abbrev Trace (Obj : Type) := List (Event (Calls Obj))

variable {Obj : Type} {c : Nat} {tr : Trace Obj}

theorem ledger_snoc (e : Event (Calls Obj)) :
    ledger c (tr ++ [e]) = (ledger c tr).next c e.op e.answer := by
  simp [ledger]

/-- A flag of the ledger that calls only ever set is set where its trigger fires. -/
theorem flag_iff {f : Ledger Obj → Bool} {p : Ledger Obj → (o : Call Obj) → o.Answer → Bool}
    (hblank : f {} = false) (hnext : ∀ g o r, f (g.next c o r) = (f g || p g o r)) :
    f (ledger c tr) = true ↔
      ∃ pre o r post, tr = pre ++ ⟨o, r⟩ :: post ∧ p (ledger c pre) o r = true := by
  induction tr using List.reverseRecOn with
  | nil =>
    constructor
    · intro h
      rw [show ledger c ([] : Trace Obj) = {} from rfl, hblank] at h
      cases h
    · rintro ⟨pre, o, r, post, h, -⟩
      simp at h
  | append_singleton tr e ih =>
    rw [ledger_snoc, hnext, Bool.or_eq_true, ih]
    constructor
    · rintro (⟨pre, o, r, post, rfl, h⟩ | h)
      · exact ⟨pre, o, r, post ++ [e], by simp, h⟩
      · exact ⟨tr, e.op, e.answer, [], rfl, h⟩
    · rintro ⟨pre, o, r, post, h, hp⟩
      rcases List.eq_nil_or_concat post with rfl | ⟨post, e', rfl⟩
      · obtain ⟨rfl, he⟩ := List.append_inj' h rfl
        injection he with he
        subst he
        exact .inr hp
      · rw [List.concat_eq_append, ← List.cons_append, ← List.append_assoc] at h
        obtain ⟨rfl, -⟩ := List.append_inj' h rfl
        exact .inl ⟨pre, o, r, post, rfl, hp⟩

/-- A final outcome is observed although the receipt has not been acked. -/
def observesEarly (c : Nat) (g : Ledger Obj) (o : Call Obj) (_ : o.Answer) : Bool :=
  match o with
  | .observer _ o k => k.number = c && o.status ≠ .started && k.receipt.isSome && !g.acked
  | _ => false

/-- A handler returned a result that is a plain success. -/
def returnsPlainly (c : Nat) (o : Call Obj) (r : o.Answer) : Bool :=
  match o, r with
  | .handler _ _ _ k, .ok result => k.number = c && result.isPlain
  | _, _ => false

namespace Ledger

variable {g : Ledger Obj} {k : Claim} {f : Ledger Obj → Ledger Obj}

/-- What a change of a ledger leaves alone, it leaves alone in the ledger of every claim. -/
theorem on_same {β : Type} {field : Ledger Obj → β} (h : ∀ g, field (f g) = field g) :
    field (g.on c k f) = field g := by
  unfold on
  split
  · exact h g
  · rfl

theorem answered_observedEarly {op : StoreOp} {r : Except Exc op.Result} :
    (g.answered op r).observedEarly = g.observedEarly := by
  unfold answered
  split <;> rfl

theorem answered_returned {op : StoreOp} {r : Except Exc op.Result} :
    (g.answered op r).returned = g.returned := by
  unfold answered
  split <;> rfl

end Ledger

theorem observedEarly_next (g : Ledger Obj) (o : Call Obj) (r : o.Answer) :
    (g.next c o r).observedEarly = (g.observedEarly || observesEarly c g o r) := by
  unfold Ledger.next
  split
  case h_10 k _ =>
    by_cases hk : k.number = c
    · simp [Ledger.on_own hk, Ledger.observed, observesEarly, hk]
    · simp [Ledger.on_other hk, observesEarly, hk]
  case h_12 hno _ =>
    cases o with
    | observer i outcome k => exact (hno i outcome k r rfl HEq.rfl).elim
    | _ => exact (Bool.or_false _).symm
  all_goals
    refine Eq.trans ?_ (Bool.or_false _).symm
  case h_1 | h_9 => split <;> rfl
  case h_2 | h_3 => rfl
  case h_11 => exact Ledger.on_same fun _ => Ledger.answered_observedEarly
  all_goals
    exact Ledger.on_same fun _ => rfl

/-- A result among those returned is a plain success. -/
def Ledger.plain (g : Ledger Obj) : Bool := g.returned.any (·.2.2.isPlain)

theorem plain_next (g : Ledger Obj) (o : Call Obj) (r : o.Answer) :
    (g.next c o r).plain = (g.plain || returnsPlainly c o r) := by
  unfold Ledger.next
  split
  case h_8 k result =>
    by_cases hk : k.number = c
    · simp [Ledger.on_own hk, Ledger.plain, Ledger.handled, returnsPlainly, hk]
    · simp [Ledger.on_other hk, returnsPlainly, hk]
  case h_12 =>
    have hreturns : returnsPlainly c o r = false := by
      unfold returnsPlainly
      split
      · rename_i hno _ _ _
        exact (hno _ _ _ _ _ rfl HEq.rfl).elim
      · rfl
    rw [hreturns, Bool.or_false]
  all_goals
    refine Eq.trans ?_ (by simp only [returnsPlainly, Bool.or_false] : g.plain = _)
  case h_1 | h_9 => split <;> rfl
  case h_2 | h_3 => rfl
  case h_11 => exact Ledger.on_same fun _ => by rw [Ledger.plain, Ledger.answered_returned, Ledger.plain]
  all_goals
    exact Ledger.on_same fun _ => rfl

/-- At every observation of a final outcome the receipt has been acked. -/
def ObservedAfterAck (c : Nat) (tr : Trace Obj) : Prop :=
  ∀ pre i o k r post, tr = pre ++ ⟨.observer i o k, r⟩ :: post → k.number = c →
    k.receipt.isSome = true → o.status ≠ .started → (ledger c pre).acked = true

/-- A handler of the message returned a result that is a plain success. -/
def ReturnedPlainly (c : Nat) (tr : Trace Obj) : Prop :=
  ∃ h message e k result, ⟨.handler h message e k, .ok result⟩ ∈ tr ∧ k.number = c ∧
    result.isPlain = true

theorem observedAfterAck_iff : ObservedAfterAck c tr ↔ (ledger c tr).observedEarly = false := by
  have h : (ledger c tr).observedEarly = true ↔ _ := flag_iff rfl observedEarly_next
  rw [← Bool.not_eq_true, h]
  constructor
  · rintro hall ⟨pre, o, r, post, rfl, hp⟩
    cases o with
    | observer i o k =>
      simp only [observesEarly, Bool.and_eq_true, decide_eq_true_eq, Bool.not_eq_true'] at hp
      have := hall pre i o k r post rfl hp.1.1.1 hp.1.2 hp.1.1.2
      rw [hp.2] at this
      cases this
    | _ => cases hp
  · intro hno pre i o k r post htr hk hrec hs
    by_contra hacked
    refine hno ⟨pre, .observer i o k, r, post, htr, ?_⟩
    simpa [observesEarly, hk, hrec, hs] using hacked

theorem returnedPlainly_iff :
    ReturnedPlainly c tr ↔ ∃ y ∈ (ledger c tr).returned, y.2.2.isPlain = true := by
  have h : (ledger c tr).plain = true ↔ _ := flag_iff rfl plain_next
  rw [Ledger.plain, List.any_eq_true] at h
  rw [h]
  constructor
  · rintro ⟨handler, message, e, k, result, hmem, hk, hp⟩
    obtain ⟨pre, post, rfl⟩ := List.append_of_mem hmem
    exact ⟨pre, _, _, post, rfl, by simp [returnsPlainly, hk, hp]⟩
  · rintro ⟨pre, o, r, post, rfl, hp⟩
    unfold returnsPlainly at hp
    split at hp
    · rw [Bool.and_eq_true, decide_eq_true_eq] at hp
      exact ⟨_, _, _, _, _, List.mem_append_right _ List.mem_cons_self, hp.1, hp.2⟩
    · cases hp

/-- The answers of a run. -/
def Seen (tr : Trace Obj) : Assumption Obj := fun o r => ⟨o, r⟩ ∈ tr

variable [Texts] {L : Listener Obj} {channels : List String} {s : ListenerState}
  {r : Except Exc (Option (List (HandlerResult Obj)))} {m : RawMessage}

/-- What one call of `listen_once` did, and what it returned or raised. -/
def Listener.Run (L : Listener Obj) (channels : List String) (s : ListenerState) (tr : Trace Obj)
    (r : Except Exc (Option (List (HandlerResult Obj)))) : Prop :=
  ∃ s', (L.listenOnce channels s).Runs tr (r, s')

/-- In every run each ack is excused when it is made, and the ledger of every claim is as described
at the end. -/
theorem run_accounted (h : L.Run channels s tr r) (c : Nat) :
    (accounting L.dispatcher.registry (Seen tr) c).Permitted {} tr ∧
      Listened L (Seen tr) c (ledger c tr) (raised r) ∧ Raises (Seen tr) (raised r) := by
  obtain ⟨s', hruns⟩ := h
  exact listenOnce_meets.runs hruns ((Monitor.answered_iff fun _ _ _ => Iff.rfl).mpr fun e he => he)

theorem run_listened (h : L.Run channels s tr r) (hm : (ledger c tr).message = some m) :
    (∃ e, Arrives (Seen tr) m e ∧ Closed L (Seen tr) m e ⟨m.receipt, c⟩ (ledger c tr) (raised r)) ∨
    ∃ now exc, MessageEnvelope.read now m.bytes = .error exc ∧
      Poisoned (Seen tr) ⟨m.receipt, c⟩ m (ledger c tr) (raised r) := by
  cases (run_accounted h c).2.1 with
  | quiet hq =>
    rw [hq.1] at hm
    cases hm
  | read ha hcl =>
    have hmm := hcl.message
    rw [hm] at hmm
    cases hmm
    exact .inl ⟨_, ha, hcl⟩
  | poisoned hread hp =>
    have hmm := hp.message
    rw [hm] at hmm
    cases hmm
    exact .inr ⟨_, _, hread, hp⟩

/-- The message that a call took from a channel. -/
def taken (o : Call Obj) (r : o.Answer) : Option RawMessage :=
  match o, r with
  | .consume _ _ _, .ok m => m
  | _, _ => none

end Pybus
