import Pybus.Ledger

/-! How each way to settle a claim moves its ledger. -/
namespace Pybus

open Value Texts Interaction Listener

variable {Obj α : Type}

section Generic

variable {G : Type} {M : Monitor (Calls Obj) G} {Q T : G → ListenerState → Except Exc Unit → Prop}
  {g : G} {s : ListenerState}

/-- Whatever the operation raises, `_settle_after_claim` raises the indeterminate error. -/
theorem settleAfterClaim_meets {operation : Action Obj Unit} (action : String)
    (h : operation.Meets M Q g s) (ok : ∀ g' s', Q g' s' (.ok ()) → T g' s' (.ok ()))
    (error : ∀ g' s' exc exc', Q g' s' (.error exc) → exc'.isIndeterminate = true →
      T g' s' (.error exc')) : (settleAfterClaim action operation).Meets M T g s := by
  refine h.tryCatch (fun g' s' _ hq => ok g' s' hq) fun g' s' exc hq => ?_
  rw [Routine.meets_ite]
  split
  · rename_i hi
    exact error g' s' exc exc hq hi
  · exact error g' s' exc _ hq rfl

end Generic

variable [Texts] {R : Registry Obj} {A : Assumption Obj} {c : Nat}
  {g : Ledger Obj} {s : ListenerState} {k : Claim} {e : MessageEnvelope} {channel : String}
  {idly : Exc → Prop}

/-- What an attempt to publish leaves: nothing was sent, or a copy was refused, or sent. -/
inductive Sent (A : Assumption Obj) (c : Nat) (e : MessageEnvelope) (k : Claim) (g : Ledger Obj) :
    Ledger Obj → Option Exc → Prop
  | undumped {exc : Exc} : ¬ e.Dumpable → exc.isIndeterminate = true → Sent A c e k g g (some exc)
  | refused {exc : Exc} : A.Refuses k → exc.isIndeterminate = true →
      Sent A c e k g (g.on c k (·.sent false)) (some exc)
  | sent : e.Dumpable → Sent A c e k g (g.on c k (·.sent true)) none

/-- Publication on its own: the ledger knows of the copy only if the transport was asked. -/
theorem publishEnvelope_meets :
    (publishEnvelope channel e k).Meets (accounting R A c) (fun g' s' r => s' = s ∧
      match r with
      | .ok _ => (∃ message, e.dump = .ok message) ∧ g' = g.on c k (·.sent true)
      | .error _ => ((∃ exc, e.dump = .error exc) ∧ g' = g) ∨
          (A.Refuses k ∧ g' = g.on c k (·.sent false))) g s := by
  cases hd : e.dump with
  | error exc => exact Action.meets_lift_bind_error hd ⟨rfl, .inl ⟨⟨exc, rfl⟩, rfl⟩⟩
  | ok raw =>
    refine Action.meets_lift_bind hd ⟨trivial, fun r hr => ⟨rfl, ?_⟩⟩
    cases r with
    | ok u => exact ⟨⟨raw, rfl⟩, rfl⟩
    | error exc => exact .inr ⟨.inl ⟨_, _, _, hr⟩, rfl⟩

theorem publish_meets (action : String) (hv : e.Valid) :
    (settleAfterClaim action (publishEnvelope channel e k)).Meets (accounting R A c)
      (fun g' s' r => s' = s ∧ Sent A c e k g g' (raised r)) g s := by
  refine settleAfterClaim_meets action publishEnvelope_meets ?_ ?_
  · rintro g' s' ⟨hs, ⟨raw, hd⟩, rfl⟩
    refine ⟨hs, .sent (by_contra fun hn => ?_)⟩
    rw [MessageEnvelope.dump_of_not_dumpable hv hn] at hd
    cases hd
  · rintro g' s' exc exc' ⟨hs, ⟨⟨exc₀, hd⟩, rfl⟩ | ⟨hr, rfl⟩⟩ hi
    · refine ⟨hs, .undumped (fun hdump => ?_) hi⟩
      obtain ⟨d, -, hok⟩ := MessageEnvelope.dump_of_dumpable hv hdump
      rw [hd] at hok
      cases hok
    · exact ⟨hs, .refused hr hi⟩

/-- An ack that is excused by then. -/
theorem ackClaim_meets (hj : k.number = c → g.Justified R) :
    (ackClaim k).Meets (accounting R A c) (fun g' s' r => s' = s ∧
      match raised r with
      | none => g' = g.on c k fun g => if k.receipt.isSome then g.confirmed true else g
      | some exc => exc.isIndeterminate = true ∧ A.Refuses k ∧ k.receipt.isSome = true ∧
          g' = g.on c k (·.confirmed false)) g s := by
  unfold ackClaim
  cases hr : k.receipt with
  | none => exact ⟨rfl, (Ledger.on_id fun _ => by simp).symm⟩
  | some receipt =>
    simp only [Routine.meets_tryCatch, Action.meets_attempt]
    refine ⟨hj, fun r hA => ?_⟩
    cases r with
    | ok u => exact ⟨trivial, by simp [Ledger.next]⟩
    | error exc =>
      have hrefuses : A.Refuses k := .inr ⟨_, _, hA⟩
      simp only [id, Routine.meets_ite]
      split
      · rename_i hi
        exact ⟨rfl, hi, hrefuses, rfl, rfl⟩
      · exact ⟨rfl, rfl, hrefuses, rfl, rfl⟩

/-- Never idle. -/
abbrev Never : Exc → Prop := fun _ => False

/-- The ack that follows a sent copy. -/
theorem ack_settles (e : MessageEnvelope) (idly : Exc → Prop) : (ackClaim k).Meets (accounting R A c)
    (fun g' s' r => s' = s ∧ Settled A c e k idly g g' (raised r)) (g.on c k (·.sent true)) s := by
  refine (ackClaim_meets ?_).mono ?_
  · intro hk
    rw [Ledger.on_own hk]
    exact .inl (by simp [Ledger.sent])
  · rintro g' s' r ⟨rfl, hr⟩
    cases r with
    | ok u =>
      obtain rfl := hr
      rw [Ledger.on_on]
      exact ⟨rfl, .settled (by rintro _ ⟨⟩)⟩
    | error exc =>
      obtain ⟨hi, href, hs, rfl⟩ := hr
      rw [Ledger.on_on]
      exact ⟨rfl, .unacked href hs hi⟩

theorem Settled.eq {g' : Ledger Obj} (h : Settled A c e k idly g g' none) :
    g' = g.on c k (·.settled k.receipt) := by
  cases h
  rfl

/-- Publish a copy, ack the receipt, go on. -/
theorem republish_meets {rest : Action Obj α} {Q : Ledger Obj → ListenerState → Except Exc α → Prop}
    (action : String) (hv : e.Valid)
    (hrest : rest.Meets (accounting R A c) Q (g.on c k (·.settled k.receipt)) s)
    (herror : ∀ g' exc, Settled A c e k Never g g' (some exc) → Q g' s (.error exc)) :
    (do settleAfterClaim action (publishEnvelope channel e k); ackClaim k; rest).Meets
      (accounting R A c) Q g s := by
  refine (publish_meets action hv).bind ?_ ?_
  · rintro g' s' ⟨⟩ ⟨rfl, hg⟩
    cases hg
    refine (ack_settles e Never).bind ?_ ?_
    · rintro g'' s'' ⟨⟩ ⟨rfl, hs⟩
      obtain rfl := hs.eq
      exact hrest
    · rintro g'' s'' exc ⟨rfl, hs⟩
      exact herror _ _ hs
  · rintro g' s' exc ⟨rfl, hg⟩
    cases hg with
    | undumped hd hi => exact herror _ _ (.undumped hd hi)
    | refused hr hi => exact herror _ _ (.refused hr hi)

theorem restore_meets (reason : String) {errorType : String → Exc} (hv : e.Valid)
    (he : ∀ m, (errorType m).stopsWorker = true) :
    (restoreClaimedCommandAndAbort channel e reason errorType k : Action Obj α).Meets
      (accounting R A c) (fun g' s' r => s' = s ∧
        ∃ exc, r = .error exc ∧ Settled A c e k Never g g' (some exc)) g s := by
  refine republish_meets _ hv ?_ ?_
  · refine ⟨rfl, _, rfl, .settled ?_⟩
    rintro exc ⟨⟩
    exact he _
  · exact fun g' exc h => ⟨rfl, exc, rfl, h⟩

/-- Only the outcome of a success is entered in the ledger. -/
theorem applyOutcome_meets {conf : DurableConfiguration} {outcome : CommandDeliveryOutcome}
    (h : outcome.status ≠ .succeeded ∨ outcome.durableRecordId = none) :
    (applyOutcome conf outcome k).Meets (accounting R A c) (fun g' s' _ => s' = s ∧ g' = g) g s := by
  rw [applyOutcome, Action.meets_when]
  split
  · rename_i hd
    have hs : outcome.status ≠ .succeeded := h.resolve_right fun h => by simp [h] at hd
    rw [Routine.meets_bind, Action.meets_now]
    refine ⟨trivial, fun now _ => ⟨trivial, fun r _ => ⟨rfl, ?_⟩⟩⟩
    exact next_store fun _ => Ledger.answered_applyOutcome hs r
  · exact ⟨rfl, rfl⟩

theorem observe_meets {outcome : CommandDeliveryOutcome} (is : List Nat) :
    (observe outcome k is).Meets (accounting R A c) (fun g' s' r => s' = s ∧ (∃ b, r = .ok b) ∧
      g' = if is = [] then g else g.on c k (·.observed outcome.status k.receipt)) g s := by
  induction is generalizing g with
  | nil => exact ⟨rfl, ⟨_, rfl⟩, rfl⟩
  | cons i is ih =>
    rw [observe, Routine.meets_bind, Action.meets_failed, Action.meets_attempt]
    refine ⟨trivial, fun r _ => ih.bind ?_ ?_⟩
    · rintro g' s' b ⟨rfl, -, rfl⟩
      refine ⟨rfl, ⟨_, rfl⟩, ?_⟩
      have hone : (accounting R A c).next g (.observer i outcome k) r =
          g.on c k (·.observed outcome.status k.receipt) := by
        cases r <;> rfl
      rw [hone, if_neg (List.cons_ne_nil i is)]
      split
      · rfl
      · rw [Ledger.on_on]
        simp only [Ledger.observed_observed]
    · rintro g' s' exc ⟨-, ⟨b, hb⟩, -⟩
      cases hb

/-- Whether an outcome of the message reaches any observer. -/
def Listener.Observes (L : Listener Obj) (e : MessageEnvelope) : Prop :=
  e.messageKind = .str "command" ∧ 0 < L.commandDeliveryObservers

instance (L : Listener Obj) (e : MessageEnvelope) : Decidable (L.Observes e) :=
  inferInstanceAs (Decidable (_ ∧ _))

variable {L : Listener Obj}

theorem storeFailed_meets {outcome : CommandDeliveryOutcome} {applyDurable : Bool}
    (h : outcome.status ≠ .succeeded ∨ applyDurable = false ∨ outcome.durableRecordId = none) :
    (L.storeFailed outcome applyDurable k).Meets (accounting R A c)
      (fun g' s' r => s' = s ∧ (∃ b, r = .ok b) ∧ g' = g) g s := by
  unfold storeFailed
  split
  · rw [Routine.meets_ite]
    split
    · rename_i happly
      rw [Action.meets_failed]
      refine (applyOutcome_meets (h.imp_right fun h => h.resolve_left (by simp [happly]))).mono ?_
      rintro g' s' r ⟨rfl, rfl⟩
      exact ⟨rfl, ⟨_, rfl⟩, rfl⟩
    · exact ⟨rfl, ⟨_, rfl⟩, rfl⟩
  · exact ⟨rfl, ⟨_, rfl⟩, rfl⟩

theorem notify_meets {status : CommandDeliveryStatus} {source : String}
    {destination : Option String} {retries maxRetries : Nat} {applyDurable : Bool}
    (h : status ≠ .succeeded ∨ applyDurable = false ∨
      DurableJobController.identity e = .ok none) :
    (L.notifyCommandOutcome e status source destination retries maxRetries applyDurable k).Meets
      (accounting R A c) (fun g' s' r => s' = s ∧
        (∀ exc, raised r = some exc → ∃ m, exc = .deliveryObservation m) ∧
        g' = if L.Observes e then g.on c k (·.observed status k.receipt) else g) g s := by
  rw [notifyCommandOutcome, Action.meets_when]
  split
  · rename_i hc
    have hcommand : e.messageKind = .str "command" := of_decide_eq_true hc
    refine (storeFailed_meets ?_).bind ?_ ?_
    · refine h.imp_right (Or.imp_right fun hi => ?_)
      obtain ⟨hrec, -⟩ := DurableJobController.identity_eq_none hi
      simp [commandDeliveryOutcome, hrec]
    · rintro g' s' failed ⟨rfl, -, rfl⟩
      refine (observe_meets _).bind ?_ ?_
      · rintro g₂ s₂ failed' ⟨rfl, -, rfl⟩
        have hg : (if List.range L.commandDeliveryObservers = [] then g'
            else g'.on c k (·.observed status k.receipt)) =
            if L.Observes e then g'.on c k (·.observed status k.receipt) else g' := by
          by_cases h0 : L.commandDeliveryObservers = 0
          · simp [Observes, h0]
          · have hpos : 0 < L.commandDeliveryObservers := Nat.pos_of_ne_zero h0
            simp [Observes, hcommand, h0, hpos]
        rw [Action.meets_when]
        split
        · exact ⟨rfl, by rintro _ ⟨⟩; exact ⟨_, rfl⟩, hg⟩
        · exact ⟨rfl, by rintro _ ⟨⟩, hg⟩
      · rintro g₂ s₂ exc ⟨-, ⟨b, hb⟩, -⟩
        cases hb
    · rintro g' s' exc ⟨-, ⟨b, hb⟩, -⟩
      cases hb
  · rename_i hc
    refine ⟨rfl, by rintro _ ⟨⟩, ?_⟩
    have : ¬ e.messageKind = .str "command" := fun h => hc (by simp [h])
    simp [Observes, this]

/-- Observers of a settled delivery find its claim acked. -/
theorem notify_settled {status : CommandDeliveryStatus} {source : String}
    {destination : Option String} {retries maxRetries : Nat} (h : status ≠ .succeeded) :
    (L.notifyCommandOutcome e status source destination retries maxRetries true k).Meets
      (accounting R A c) (fun g' s' r => s' = s ∧ Settled A c e k idly g g' (raised r))
      (g.on c k (·.settled k.receipt)) s := by
  refine (notify_meets (.inl h)).mono ?_
  rintro g' s' r ⟨rfl, hr, hg⟩
  have hsame : (g.on c k (·.settled k.receipt)).on c k (·.observed status k.receipt) =
      g.on c k (·.settled k.receipt) := by
    rw [Ledger.on_on]
    congr 1
    funext g
    exact Ledger.observed_settled status Ledger.settled_acked
  have hg' : g' = g.on c k (·.settled k.receipt) := by
    rw [hg, hsame, ite_self]
  subst hg'
  refine ⟨rfl, .settled fun exc hexc => ?_⟩
  obtain ⟨m, rfl⟩ := hr exc hexc
  rfl

theorem checkpoint_meets {status : CommandDeliveryStatus} {source : String}
    {destination : Option String} {retries maxRetries : Nat} {lastAttemptAt : Option Instant}
    (hv : e.Valid) :
    (L.checkpointDurableSettlement e status source destination retries maxRetries lastAttemptAt
      k).Meets (accounting R A c) (fun g' s' r => s' = s ∧
        match raised r with
        | none => g' = g
        | some exc => Settled A c e k Never g g' (some exc)) g s := by
  unfold checkpointDurableSettlement
  split
  · exact ⟨rfl, rfl⟩
  · rename_i conf _
    refine Routine.Meets.tryCatch (Q := fun g' s' _ => s' = s ∧ g' = g) ?_ ?_ ?_
    · refine Action.meets_now_bind.mpr ⟨trivial, fun now _ => ?_⟩
      cases hs : DurableJobController.settlement conf.policy e now status source destination
          retries maxRetries lastAttemptAt with
      | error exc => exact Action.meets_lift_bind_error rfl ⟨rfl, rfl⟩
      | ok settlement =>
        refine Action.meets_lift_bind rfl ?_
        cases settlement with
        | none => exact ⟨rfl, rfl⟩
        | some settlement =>
          refine ⟨trivial, fun r _ => ⟨rfl, ?_⟩⟩
          exact next_store fun _ => by cases r <;> rfl
    · exact fun g' s' u h => h
    · rintro g' s' exc ⟨rfl, rfl⟩
      refine (restore_meets _ hv fun _ => rfl).mono ?_
      rintro g' s' r ⟨rfl, exc, rfl, h⟩
      exact ⟨rfl, h⟩

omit [Texts] in
theorem isTyped_ok (h : e.Hashable) : ∃ b, L.isTyped e = .ok b := by
  obtain ⟨r, hr⟩ := Registry.lookupKey_hashable L.dispatcher.registry.messageClasses h
  exact ⟨r.isSome, by simp [isTyped, Registry.messageClassFor, hr, bind, Except.bind, pure,
    Except.pure]⟩

theorem retryCount_ok (h : e.Hashable) : ∃ n, L.retryCount e = .ok n := by
  obtain ⟨b, hb⟩ := isTyped_ok (L := L) h
  rw [retryCount, hb]
  exact ⟨_, rfl⟩

/-- A checkpoint, a copy, an ack, and the observers: the tail that retries, dead letters and
continuations share. `e'` is the copy that is sent. -/
theorem checkpointed_meets {e' : MessageEnvelope} {status : CommandDeliveryStatus}
    {source target action : String} {destination destination' : Option String}
    {retries maxRetries retries' maxRetries' : Nat} {lastAttemptAt : Option Instant}
    (hv : e.Valid) (hv' : e'.Valid) (hd : e'.Dumpable ↔ e.Dumpable) (h : status ≠ .succeeded) :
    (do
      L.checkpointDurableSettlement e status source destination retries maxRetries lastAttemptAt k
      settleAfterClaim action (publishEnvelope target e' k)
      ackClaim k
      L.notifyCommandOutcome e status source destination' retries' maxRetries' true k :
        Action Obj Unit).Meets (accounting R A c)
      (fun g' s' r => s' = s ∧ Settled A c e k idly g g' (raised r)) g s := by
  refine (checkpoint_meets hv).bind ?_ ?_
  · rintro g' s' ⟨⟩ ⟨rfl, rfl⟩
    refine republish_meets action hv' (notify_settled h) fun g₂ exc hs => ⟨rfl, ?_⟩
    cases hs with
    | undumped hn hi => exact .undumped (fun h => hn (hd.mpr h)) hi
    | refused hr hi => exact .refused hr hi
    | unacked hr hs hi => exact .unacked hr hs hi
    | settled hx => exact .settled hx
    | idle hf => exact hf.elim
  · rintro g' s' exc ⟨rfl, hs⟩
    exact ⟨rfl, hs.mono fun _ => False.elim⟩

theorem requeue_meets {maxRetries : Nat} (hv : e.Valid) (hh : e.Hashable) :
    (L.requeue channel e maxRetries k).Meets (accounting R A c)
      (fun g' s' r => s' = s ∧ Settled A c e k (fun _ => A.Sleepless) g g' (raised r)) g s := by
  obtain ⟨n, hn⟩ := retryCount_ok (L := L) hh
  obtain ⟨typed, ht⟩ := isTyped_ok (L := L) hh
  refine Action.meets_lift_bind hn ?_
  refine Routine.Meets.bind (Q := fun g' s' r => s' = s ∧ g' = g ∧
    ∀ exc, r = .error exc → A.Sleepless) ?_ ?_ ?_
  · rw [Action.meets_when]
    split
    · refine ⟨trivial, fun r hr => ⟨rfl, ?_, ?_⟩⟩
      · cases r <;> rfl
      · rintro exc hexc
        obtain rfl : r = .error exc := hexc
        exact ⟨_, exc, hr⟩
    · exact ⟨rfl, rfl, by rintro _ ⟨⟩⟩
  · rintro g' s' ⟨⟩ ⟨rfl, rfl, -⟩
    refine Action.meets_now_bind.mpr ⟨trivial, fun now _ => ?_⟩
    refine Action.meets_lift_bind ht ?_
    exact checkpointed_meets hv hv Iff.rfl (by decide)
  · rintro g' s' exc ⟨rfl, rfl, hs⟩
    exact ⟨rfl, .idle (hs exc rfl)⟩

theorem deadLetter_meets {maxRetries : Nat} (idly : Exc → Prop) (hv : e.Valid) (hh : e.Hashable) :
    (L.deadLetter channel e maxRetries k).Meets (accounting R A c)
      (fun g' s' r => s' = s ∧ Settled A c e k idly g g' (raised r)) g s := by
  obtain ⟨n, hn⟩ := retryCount_ok (L := L) hh
  refine Action.meets_lift_bind hn ?_
  exact checkpointed_meets hv hv Iff.rfl (by decide)

theorem handleFailedDelivery_meets {spec : HandlerSpec} (hv : e.Valid) (hh : e.Hashable) :
    (L.handleFailedDelivery channel e spec k).Meets (accounting R A c)
      (fun g' s' r => s' = s ∧ Settled A c e k (fun _ => A.Sleepless) g g' (raised r)) g s := by
  obtain ⟨n, hn⟩ := retryCount_ok (L := L) hh
  refine Action.meets_lift_bind hn ?_
  refine Routine.meets_ite.mpr ?_
  split
  · rw [Routine.meets_bind, Action.meets_when]
    split
    · exact ⟨trivial, fun r _ => requeue_meets hv hh⟩
    · exact requeue_meets hv hh
  · exact deadLetter_meets _ hv hh

/-- A continuation may also be refused before anything is done, or fail to sleep. -/
theorem continueProcessing_meets {continuation : ContinueProcessing} {maxRetries : Nat}
    (hv : e.Valid) (hh : e.Hashable) :
    (L.continueProcessing channel e continuation maxRetries k).Meets (accounting R A c)
      (fun g' s' r => s' = s ∧
        Settled A c e k (fun exc => exc.stopsWorker = true → A.Sleepless) g g' (raised r)) g s := by
  obtain ⟨n, hn⟩ := retryCount_ok (L := L) hh
  refine Action.meets_check_bind (fun _ => ⟨rfl, .idle fun h => by cases h⟩) fun _ => ?_
  refine Action.meets_check_bind (fun _ => ⟨rfl, .idle fun h => by cases h⟩) fun _ => ?_
  refine Routine.Meets.bind (Q := fun g' s' r => s' = s ∧ g' = g ∧
    ∀ exc, r = .error exc → A.Sleepless) ?_ ?_ ?_
  · rw [Action.meets_when]
    split
    · rw [Routine.meets_tryCatch, Action.meets_attempt]
      refine ⟨trivial, fun r hr => ?_⟩
      cases r with
      | ok u => exact ⟨rfl, rfl, by rintro _ ⟨⟩⟩
      | error exc => exact ⟨rfl, rfl, fun _ _ => ⟨_, exc, hr⟩⟩
    · exact ⟨rfl, rfl, by rintro _ ⟨⟩⟩
  · rintro g' s' ⟨⟩ ⟨rfl, rfl, -⟩
    refine Action.meets_lift_bind hn ?_
    exact checkpointed_meets hv hv Iff.rfl (by decide)
  · rintro g' s' exc ⟨rfl, rfl, hs⟩
    exact ⟨rfl, .idle fun _ => hs exc rfl⟩

theorem poison_valid (channel : String) (message : Raw) (exc : Exc) (u : Uuid) (now : Instant) :
    (poison channel message exc u now).Valid :=
  ⟨by simpa [poison, Value.truthy] using uuidText_ne_empty u, rfl, rfl, Int.le_refl 1⟩

theorem poison_dumpable {message : Raw} {exc : Exc} {u : Uuid} {now : Instant} :
    (poison channel message exc u now).Dumpable :=
  ⟨rfl, fun h => by cases h⟩

/-- What cannot be read is published as a poison record, which can always be dumped. -/
theorem deadLetterUndecodable_meets {message : Raw} {exc : Exc} :
    (L.deadLetterUndecodable channel message exc k).Meets (accounting R A c)
      (fun g' s' r => s' = s ∧
        ∃ poison, poison.Dumpable ∧ Settled A c poison k Never g g' (raised r)) g s := by
  refine Action.meets_uuid4_bind.mpr ⟨trivial, fun u _ => ?_⟩
  refine Action.meets_now_bind.mpr ⟨trivial, fun now _ => ?_⟩
  refine (publish_meets _ (poison_valid ..)).bind ?_ ?_
  · rintro g' s' ⟨⟩ ⟨rfl, hg⟩
    cases hg
    exact (ack_settles (poison channel message exc u now) Never).mono fun g' s' r h =>
      ⟨h.1, _, poison_dumpable, h.2⟩
  · rintro g' s' exc' ⟨rfl, hg⟩
    refine ⟨rfl, poison channel message exc u now, poison_dumpable, ?_⟩
    cases hg with
    | undumped hd hi => exact .undumped hd hi
    | refused hr hi => exact .refused hr hi

/-- Anything that goes wrong with a response before it is sent is indeterminate. -/
theorem publishResponse_meets {response : ResponseMessage Obj} :
    (L.publishResponse e response k).Meets (accounting R A c)
      (fun g' s' r => s' = s ∧
        Settled A c e k (fun exc => exc.isIndeterminate = true) g g' (raised r)) g s := by
  refine (settleAfterClaim_meets _ (Q := fun g' s' r => s' = s ∧
      match r with
      | .ok _ => g' = g.on c k (·.sent true)
      | .error _ => g' = g ∨ (A.Refuses k ∧ g' = g.on c k (·.sent false))) ?_
    (T := fun g' s' r => s' = s ∧
      match r with
      | .ok _ => g' = g.on c k (·.sent true)
      | .error exc => exc.isIndeterminate = true ∧
          (g' = g ∨ (A.Refuses k ∧ g' = g.on c k (·.sent false)))) ?_ ?_).bind ?_ ?_
  · cases hh : L.dispatcher.payloadCodec.encode response.headers none with
    | error exc => exact Action.meets_lift_bind_error hh ⟨rfl, .inl rfl⟩
    | ok headers =>
      refine Action.meets_lift_bind hh ?_
      cases hp : L.dispatcher.payloadCodec.encode response.payload (some response.headers) with
      | error exc => exact Action.meets_lift_bind_error rfl ⟨rfl, .inl rfl⟩
      | ok payload =>
        refine Action.meets_lift_bind rfl ?_
        refine Action.meets_now_bind.mpr ⟨trivial, fun now _ => ?_⟩
        refine Action.meets_uuid4_bind.mpr ⟨trivial, fun u _ => ?_⟩
        split
        · refine publishEnvelope_meets.mono ?_
          rintro g' s' (exc | u) ⟨hs, h⟩
          · exact ⟨hs, h.imp_left fun h => h.2⟩
          · exact ⟨hs, h.2⟩
        · exact ⟨rfl, .inl rfl⟩
  · exact fun g' s' h => h
  · exact fun g' s' exc exc' h hi => ⟨h.1, hi, h.2⟩
  · rintro g' s' ⟨⟩ ⟨rfl, rfl⟩
    exact ack_settles _ _
  · rintro g' s' exc ⟨rfl, hi, rfl | ⟨hr, rfl⟩⟩
    · exact ⟨rfl, .idle hi⟩
    · exact ⟨rfl, .refused hr hi⟩

end Pybus
