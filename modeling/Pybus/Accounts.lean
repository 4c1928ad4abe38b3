import Pybus.Delivery

/-! What one call of `listen_once` leaves in the ledger of any claim. -/
namespace Pybus

open Value Texts Interaction Listener

variable {Obj : Type} [Texts] {R : Registry Obj} {A : Assumption Obj} {c : Nat}
  {g g' g₁ : Ledger Obj} {s s' s₁ : ListenerState} {k : Claim} {e : MessageEnvelope}
  {L : Listener Obj} {channel : String} {x : Option Exc} {idly : Exc → Prop}

/-- One copy and one ack, unless a buffer could not be looked into after the first copy; and no ack
beside a refused copy. -/
structure Sound (A : Assumption Obj) (g : Ledger Obj) (x : Option Exc) : Prop where
  once : g.disturbed = false → A.Sleepless ∨ g.copies ≤ 1 ∧ g.acks ≤ 1
  twice : g.disturbed = true → A.Sleepless ∨ 2 ≤ g.copies
  shut : g.disturbed = true → A.Shut
  refused : g.refused = true → A.Sleepless ∨ A.Shut ∨ g.acks = 0 ∧ x.isSome = true

/-- The handlers of the message returned, all of them. -/
def Completed (L : Listener Obj) (e : MessageEnvelope) (g : Ledger Obj) : Prop :=
  ∃ hs, L.dispatcher.registry.handlersFor e.messageKind e.messageType = .ok hs ∧ hs ≠ [] ∧
    g.returned.map (·.1) = hs

/-- What can make the listener lose track of a message: a transport that fails, a type that has no
hash, or a batch buffer that the transport does not have. -/
def Trouble (L : Listener Obj) (A : Assumption Obj) (e : MessageEnvelope) (k : Claim) : Prop :=
  A.Refuses k ∨ A.Sleepless ∨ A.Shut ∨ ¬ e.Hashable ∨
    L.hasSize = false ∧ ∃ hs, L.dispatcher.registry.handlersFor e.messageKind e.messageType =
      .ok hs ∧ hs.any (·.spec.isBatched) = true

/-- What keeps the listener from settling a message: a copy cannot be written, the codec stops the
worker, or the durable admission cannot be released. -/
def Stuck (L : Listener Obj) (e : MessageEnvelope) (g : Ledger Obj) : Prop :=
  ¬ e.Dumpable ∨ (∃ exc, L.dispatcher.decode e = .error exc ∧ exc.stopsWorker = true) ∨
    g.unreleased = true

/-- Only exceptions that stop the worker escape, unless there is trouble. -/
def Escapes (A : Assumption Obj) (e : MessageEnvelope) (x : Option Exc) : Prop :=
  ∀ exc, x = some exc → exc.stopsWorker = true ∨ A.Sleepless ∨ A.Shut ∨ ¬ e.Hashable

/-- Whether the observers of a success are told of it before the receipt is acked. -/
def Early (L : Listener Obj) (e : MessageEnvelope) (k : Claim) (g : Ledger Obj) : Prop :=
  ∀ h, L.dispatcher.registry.handlersFor e.messageKind e.messageType = .ok [h] →
    DurableJobController.identity e = .ok none →
    (g.observedEarly = true ↔ L.Observes e ∧ k.receipt.isSome = true ∧
      ∃ y ∈ g.returned, y.2.2.isPlain = true)

/-- What becomes of a message that was read. -/
structure Account (L : Listener Obj) (A : Assumption Obj) (e : MessageEnvelope) (k : Claim)
    (g : Ledger Obj) (x : Option Exc) : Prop where
  early : Early L e k g
  accounted : Trouble L A e k ∨ g.published = true ∨ Completed L e g ∨ g.dropped = true ∨
    Stuck L e g ∧ x.isSome = true
  escapes : Escapes A e x

/-- A claim of which no copy has been sent. -/
structure Unsettled (g : Ledger Obj) : Prop where
  copies : g.copies = 0
  acks : g.acks = 0
  refused : g.refused = false
  disturbed : g.disturbed = false

omit [Texts] in
/-- At most one copy, at most one ack, and nothing disturbed. -/
theorem sound_of_once (hc : g.copies ≤ 1) (ha : g.acks ≤ 1) (hd : g.disturbed = false)
    (hr : g.refused = true → g.acks = 0 ∧ x.isSome = true) : Sound A g x where
  once _ := .inr ⟨hc, ha⟩
  twice h := by simp [hd] at h
  shut h := by simp [hd] at h
  refused h := .inr (.inr (hr h))

omit [Texts] in
theorem Unsettled.sound (h : Unsettled g) : Sound A g x :=
  sound_of_once (by simp [h.copies]) (by simp [h.acks]) h.disturbed fun hr => by
    simp [h.refused] at hr

omit [Texts] in
/-- An excused ack without a copy keeps the ledger sound. -/
theorem Unsettled.sound_confirmed {ok : Bool} (h : Unsettled g) : Sound A (g.confirmed ok) x :=
  sound_of_once (by simp [Ledger.confirmed, h.copies]) (by simp [Ledger.confirmed, h.acks])
    h.disturbed fun hr => by simp [Ledger.confirmed, h.refused] at hr

/-- A first settlement keeps the ledger sound. -/
theorem Settled.sound (h : Settled A c e k idly g g' x) (hg : Unsettled g) (hk : k.number = c) :
    Sound A g' x := by
  have hcopies := hg.copies
  have hacks := hg.acks
  have hrefused := hg.refused
  cases h with
  | idle hw => exact hg.sound
  | undumped hn hi => exact hg.sound
  | refused hf hi =>
    rw [Ledger.on_own hk]
    exact sound_of_once (by simp [Ledger.sent, hcopies]) (by simp [Ledger.sent, hacks])
      hg.disturbed fun _ => ⟨hacks, rfl⟩
  | unacked hf hs hi =>
    rw [Ledger.on_own hk]
    exact sound_of_once (by simp [Ledger.sent, Ledger.confirmed, hcopies])
      (by simp [Ledger.sent, Ledger.confirmed, hacks]) hg.disturbed fun h => by
      simp [Ledger.sent, Ledger.confirmed, hrefused] at h
  | settled hx =>
    rw [Ledger.on_own hk, Ledger.settled]
    split
    · exact sound_of_once (by simp [Ledger.sent, Ledger.confirmed, hcopies])
        (by simp [Ledger.sent, Ledger.confirmed, hacks]) hg.disturbed fun h => by
        simp [Ledger.sent, Ledger.confirmed, hrefused] at h
    · exact sound_of_once (by simp [Ledger.sent, hcopies]) (by simp [Ledger.sent, hacks])
        hg.disturbed fun h => by simp [Ledger.sent, hrefused] at h

/-- What a settlement does not touch. -/
theorem Settled.same (h : Settled A c e k idly g g' x) : g'.returned = g.returned ∧
    g'.observedEarly = g.observedEarly ∧ g'.message = g.message ∧ g'.dropped = g.dropped ∧
    g'.unreleased = g.unreleased ∧ g'.disturbed = g.disturbed ∧
    (g.published = true → g'.published = true) := by
  by_cases hk : k.number = c
  · cases h with
    | idle hw => exact ⟨rfl, rfl, rfl, rfl, rfl, rfl, id⟩
    | undumped hn hi => exact ⟨rfl, rfl, rfl, rfl, rfl, rfl, id⟩
    | refused hf hi =>
      rw [Ledger.on_own hk]
      exact ⟨rfl, rfl, rfl, rfl, rfl, rfl, fun h => by simp [Ledger.sent, h]⟩
    | unacked hf hs hi =>
      rw [Ledger.on_own hk]
      exact ⟨rfl, rfl, rfl, rfl, rfl, rfl, fun h => by simp [Ledger.sent, Ledger.confirmed]⟩
    | settled hx =>
      rw [Ledger.on_own hk, Ledger.settled]
      split
      · exact ⟨rfl, rfl, rfl, rfl, rfl, rfl, fun h => by simp [Ledger.sent, Ledger.confirmed]⟩
      · exact ⟨rfl, rfl, rfl, rfl, rfl, rfl, fun h => by simp [Ledger.sent]⟩
  · rw [h.other hk]
    exact ⟨rfl, rfl, rfl, rfl, rfl, rfl, id⟩

/-- A settlement that was begun sends a copy, or the message cannot be dumped, or the transport
refuses. -/
theorem Settled.published (h : Settled A c e k idly g g' x) (hk : k.number = c) :
    (∃ exc, x = some exc ∧ idly exc ∧ g' = g) ∨ ¬ e.Dumpable ∧ x.isSome = true ∨ A.Refuses k ∨
      g'.published = true := by
  cases h with
  | idle hw => exact .inl ⟨_, rfl, hw, rfl⟩
  | undumped hn hi => exact .inr (.inl ⟨hn, rfl⟩)
  | refused hf hi => exact .inr (.inr (.inl hf))
  | unacked hf hs hi => exact .inr (.inr (.inl hf))
  | settled hx =>
    refine .inr (.inr (.inr ?_))
    rw [Ledger.on_own hk, Ledger.settled]
    split
    · simp [Ledger.sent, Ledger.confirmed]
    · simp [Ledger.sent]

omit [Texts] in
theorem Early.congr (h : Early L e k g) (ho : g'.observedEarly = g.observedEarly)
    (hr : g'.returned = g.returned) : Early L e k g' := by
  unfold Early
  rw [ho, hr]
  exact h

theorem recover_meets {exc : Exc} (hv : e.Valid) (hh : e.Hashable)
    (hexc : exc.stopsWorker = false) :
    (L.recover channel e exc k).Meets (accounting R A c)
      (fun g' s' r => s' = s ∧ Settled A c e k (fun _ => A.Sleepless) g g' (raised r)) g s := by
  have hretry : (do
      if ← .lift (L.shouldRetry e) then L.requeue channel e L.retryPolicy.maxRetries k
      else L.deadLetter channel e L.retryPolicy.maxRetries k : Action Obj Unit).Meets
      (accounting R A c)
      (fun g' s' r => s' = s ∧ Settled A c e k (fun _ => A.Sleepless) g g' (raised r)) g s := by
    obtain ⟨n, hn⟩ := retryCount_ok (L := L) hh
    have hs : L.shouldRetry e = .ok (L.retryPolicy.shouldRetry n) := by
      rw [shouldRetry, hn]
      rfl
    refine Action.meets_lift_bind hs (Routine.meets_ite.mpr ?_)
    split
    · exact requeue_meets hv hh
    · exact deadLetter_meets _ hv hh
  unfold recover
  rw [if_neg (by simp [hexc])]
  split
  · exact deadLetter_meets _ hv hh
  · exact hretry

/-- The ledger that a call of `listen_once` leaves for the message it claimed and read. -/
structure Closed (L : Listener Obj) (A : Assumption Obj) (m : RawMessage) (e : MessageEnvelope)
    (k : Claim) (g : Ledger Obj) (x : Option Exc) : Prop where
  message : g.message = some m
  sound : Sound A g x
  account : Account L A e k g x

variable {m : RawMessage}

/-- The ledger of a message whose handlers may have been called, and nothing else. -/
structure Open (L : Listener Obj) (m : RawMessage) (e : MessageEnvelope) (k : Claim)
    (g : Ledger Obj) : Prop where
  message : g.message = some m
  unsettled : Unsettled g
  early : Early L e k g

/-- A settlement closes the ledger, if whatever kept it from being begun is accounted for. -/
theorem Settled.closed (h : Settled A c e k idly g g' x) (hk : k.number = c) (hg : Open L m e k g)
    (hidly : ∀ exc, x = some exc → idly exc →
      (exc.stopsWorker = true ∨ A.Sleepless ∨ A.Shut ∨ ¬ e.Hashable) ∧
      (Trouble L A e k ∨ Completed L e g)) : Closed L A m e k g' x := by
  obtain ⟨hret, hobs, hmsg, hdrop, hkept, -, hpub⟩ := h.same
  refine ⟨hmsg.trans hg.message, h.sound hg.unsettled hk, hg.early.congr hobs hret, ?_, ?_⟩
  · rcases h.published hk with ⟨exc, rfl, hi, rfl⟩ | hd | hr | hp
    · exact (hidly exc rfl hi).2.imp_right fun hc => .inr (.inl hc)
    · exact .inr (.inr (.inr (.inr ⟨.inl hd.1, hd.2⟩)))
    · exact .inl (.inl hr)
    · exact .inr (.inl hp)
  · rintro exc rfl
    rcases h.stops with hs | hi
    · exact .inl hs
    · exact (hidly exc rfl hi).1

/-- Nothing was settled, for a reason that is accounted for. -/
theorem Open.closed (hg : Open L m e k g)
    (hacc : Trouble L A e k ∨ g.published = true ∨ Completed L e g ∨ g.dropped = true ∨
      Stuck L e g ∧ x.isSome = true)
    (hescapes : Escapes A e x) : Closed L A m e k g x :=
  ⟨hg.message, hg.unsettled.sound, hg.early, hacc, hescapes⟩

/-- An excused ack without a copy closes the ledger as well. -/
theorem Open.closed_confirmed {ok : Bool} (hg : Open L m e k g)
    (hacc : Completed L e g ∨ g.dropped = true)
    (hstops : ∀ exc, x = some exc → exc.stopsWorker = true) :
    Closed L A m e k (g.confirmed ok) x :=
  ⟨hg.message, hg.unsettled.sound_confirmed, hg.early,
    hacc.elim (fun h => .inr (.inr (.inl h))) fun h => .inr (.inr (.inr (.inl h))),
    fun exc h => .inl (hstops exc h)⟩

omit [Texts] in
/-- The ledger of a message whose handlers have not been called. -/
theorem open_blank : Open L m e k { message := some m } :=
  ⟨rfl, ⟨rfl, rfl, rfl, rfl⟩, fun h _ _ => by simp⟩

omit [Texts] in
/-- Before all handlers returned plainly nothing is observed early. -/
theorem open_interrupted {hs : List Handler} {l : List (Handler × HandlerResult Obj)}
    {i : Option (String × Nat)}
    (hf : L.dispatcher.registry.handlersFor e.messageKind e.messageType = .ok hs)
    (hi : DurableJobController.identity e = .ok i) (hl : Interrupted hs l ∨ i.isSome = true) :
    Open L m e k (Ledger.collected { message := some m } e l) := by
  refine ⟨rfl, ⟨rfl, rfl, rfl, rfl⟩, fun h hf' hnd => ?_⟩
  rw [hf] at hf'
  cases hf'
  have hl' : Interrupted [h] l := hl.resolve_right fun hsome => by
    rw [hi] at hnd
    cases hnd
    cases hsome
  constructor
  · rintro ⟨⟩
  rintro ⟨-, -, y, hy, hp⟩
  exfalso
  obtain ⟨z, hz, rfl⟩ := List.mem_map.mp (show y ∈ [] ++ l.map _ from hy)
  obtain ⟨hle, hlast⟩ := hl'
  have hlen : l.length = [h].length := Nat.le_antisymm hle (List.length_pos_of_mem hz)
  obtain ⟨w, hw, hwp⟩ := hlast hlen
  obtain ⟨z', rfl⟩ := List.length_eq_one_iff.mp hlen
  rw [List.mem_singleton] at hz hw
  subst hz hw
  simp [hwp] at hp

omit [Texts] in
theorem completion_other {durable : Bool} {l : List (Handler × HandlerResult Obj)}
    (hk : k.number ≠ c) : completion L e c k durable l g = g := by
  unfold completion succeeded
  split
  · rw [Ledger.on_other hk, Ledger.on_other hk]
  · exact Ledger.on_other hk

omit [Texts] in
theorem completion_own {durable : Bool} {l : List (Handler × HandlerResult Obj)}
    (hk : k.number = c) : completion L e c k durable l { message := some m } = {
      message := some m, returned := l.map fun x => (x.1, e, x.2), recorded := durable,
      observedEarly := decide (L.Observes e) && k.receipt.isSome } := by
  unfold completion succeeded
  simp only [Ledger.on_own hk]
  by_cases ho : L.Observes e <;> cases durable <;>
    simp [ho, Ledger.collected, Ledger.observed, Ledger.success]

omit [Texts] in
theorem open_completion {hs : List Handler} {i : Option (String × Nat)}
    {results : List (HandlerResult Obj)} (hk : k.number = c)
    (hf : L.dispatcher.registry.handlersFor e.messageKind e.messageType = .ok hs)
    (hi : DurableJobController.identity e = .ok i) (hlen : results.length = hs.length)
    (hacc : ∀ result ∈ results, Accepted e i.isSome result) :
    Open L m e k (completion L e c k i.isSome (hs.zip results) { message := some m }) := by
  rw [completion_own hk]
  refine ⟨rfl, ⟨rfl, rfl, rfl, rfl⟩, fun h hf' hnd => ?_⟩
  rw [hf] at hf'
  cases hf'
  rw [hi] at hnd
  cases hnd
  obtain ⟨result, rfl⟩ := List.length_eq_one_iff.mp hlen
  have hplain : result.isPlain = true := (hacc result (by simp)).resolve_right fun h => by
    cases h.2.2
  simp [hplain]

omit [Texts] in
/-- The handlers of the results are the handlers of the message. -/
theorem completed_zip {hs : List Handler} {results : List (HandlerResult Obj)}
    (hf : L.dispatcher.registry.handlersFor e.messageKind e.messageType = .ok hs) (hne : hs ≠ [])
    (hlen : results.length = hs.length)
    (hg : g.returned = (hs.zip results).map fun x => (x.1, e, x.2)) : Completed L e g := by
  refine ⟨hs, hf, hne, ?_⟩
  rw [hg]
  simp [Function.comp_def, List.map_fst_zip, hlen]

/-- What is left once the exceptions of `_dispatch` have been dealt with. -/
inductive Resolved (L : Listener Obj) (A : Assumption Obj) (c : Nat) (m : RawMessage)
    (e : MessageEnvelope) (k : Claim) : Ledger Obj → Except Exc (DispatchResult Obj) → Prop
  | closed {g : Ledger Obj} {r : Except Exc (DispatchResult Obj)} :
      Closed L A m e k g (raised r) → (∀ d, r = .ok d → d = .claimSettled) →
      Resolved L A c m e k g r
  | dropped : Resolved L A c m e k (Ledger.drop { message := some m }) (.ok .dropped)
  | completed {hs : List Handler} {i : Option (String × Nat)}
      {results : List (HandlerResult Obj)} :
      L.dispatcher.registry.handlersFor e.messageKind e.messageType = .ok hs → hs ≠ [] →
      DurableJobController.identity e = .ok i → results.length = hs.length →
      (∀ result ∈ results, Accepted e i.isSome result) →
      Resolved L A c m e k
        (completion L e c k i.isSome (hs.zip results) { message := some m })
        (.ok (.results results))

omit [Texts] in
theorem settled_disturbed {exc : Exc} (receipt : Option String) (hexc : exc.stopsWorker = false) :
    (Ledger.settled ({ message := some m } : Ledger Obj) receipt).disturb exc = {
      message := some m, copies := 1, published := true
      acks := if receipt.isSome then 1 else 0, acked := receipt.isSome, disturbed := true } := by
  cases receipt <;> simp [Ledger.settled, Ledger.sent, Ledger.confirmed, Ledger.disturb, hexc]

/-- After a second settlement, begun because a buffer could not be looked into. -/
theorem Settled.closed_disturbed {exc : Exc} (h : Settled A c e k (fun _ => A.Sleepless)
    ((Ledger.settled { message := some m } k.receipt).disturb exc) g' x)
    (hk : k.number = c) (hd : e.Dumpable) (hexc : exc.stopsWorker = false) (hshut : A.Shut) :
    Closed L A m e k g' x := by
  rw [settled_disturbed k.receipt hexc] at h
  obtain ⟨hret, hobs, hmsg, -, -, hdis, hpub⟩ := h.same
  have htwo : A.Sleepless ∨ 2 ≤ g'.copies := by
    cases h with
    | idle hw => exact .inl hw
    | undumped hn hi => exact absurd hd hn
    | refused hf hi =>
      rw [Ledger.on_own hk]
      exact .inr (Nat.le_refl 2)
    | unacked hf hs hi =>
      rw [Ledger.on_own hk]
      exact .inr (Nat.le_refl 2)
    | settled hx =>
      rw [Ledger.on_own hk, Ledger.settled]
      split
      · exact .inr (Nat.le_refl 2)
      · exact .inr (Nat.le_refl 2)
  refine ⟨hmsg, ⟨fun hf => ?_, fun _ => htwo, fun _ => hshut, fun _ => .inr (.inl hshut)⟩,
    ⟨fun h _ _ => ?_, .inr (.inl (hpub rfl)), ?_⟩⟩
  · rw [hdis] at hf
    cases hf
  · rw [hret, hobs]
    simp
  · rintro exc' rfl
    exact h.stops.imp_right .inl

/-- After a second settlement, begun because the sleep of a retry failed. -/
theorem Settled.closed_sleepless (h : Settled A c e k (fun _ => A.Sleepless)
    (Ledger.settled { message := some m } k.receipt) g' x) (hs : A.Sleepless) :
    Closed L A m e k g' x := by
  obtain ⟨hret, hobs, hmsg, -, -, hdis, hpub⟩ := h.same
  have hblank : (Ledger.settled ({ message := some m } : Ledger Obj) k.receipt).returned = [] ∧
      (Ledger.settled ({ message := some m } : Ledger Obj) k.receipt).observedEarly = false ∧
      (Ledger.settled ({ message := some m } : Ledger Obj) k.receipt).message = some m ∧
      (Ledger.settled ({ message := some m } : Ledger Obj) k.receipt).disturbed = false := by
    unfold Ledger.settled
    split <;> exact ⟨rfl, rfl, rfl, rfl⟩
  obtain ⟨hret', hobs', hmsg', hdis'⟩ := hblank
  refine ⟨hmsg.trans hmsg', ⟨fun _ => .inl hs, fun _ => .inl hs, fun hd => ?_, fun _ => .inl hs⟩,
    ⟨fun h _ _ => ?_, .inl (.inr (.inl hs)), fun _ _ => .inr (.inl hs)⟩⟩
  · rw [hdis, hdis'] at hd
    cases hd
  · rw [hret, hobs, hret', hobs']
    simp

/-- A delivery of another claim leaves a quiet claim quiet. -/
theorem Dispatched.quiet {r : Except Exc (DispatchResult Obj)} (h : Dispatched L A c e k g s g' r)
    (hk : k.number ≠ c) (hq : Quiet g none) (hfresh : s.claims ≤ c → g = {}) :
    Quiet g' (raised r) := by
  cases h with
  | unknown hh => exact hq.of_none
  | dropped =>
    rw [Ledger.on_other hk]
    exact hq.of_none
  | withheld hh hs =>
    rw [hs.other hk]
    exact hq.of_none
  | unhandled hh => exact hq.of_none
  | unread hh hd => exact hq.of_none
  | lost hf hb hs => exact hq.of_none
  | shut hh hs => exact hq.of_none
  | buffered hh hd hf hr =>
    rw [Ledger.on_other hk] at hf
    exact hf.quiet hq hfresh
  | processed hh hf hne hi hp =>
    cases hp with
    | interrupted hl hs hr =>
      rw [hs.other hk, Ledger.on_other hk]
      exact hq.of_none
    | completed hlen hacc hr =>
      rw [completion_other hk]
      exact hq.of_none
    | unrecorded hlen hdur =>
      rw [Ledger.on_other hk]
      exact hq.of_none
    | unreleased hu =>
      rw [hu.1, Ledger.on_other hk]
      exact hq.of_none

end Pybus
