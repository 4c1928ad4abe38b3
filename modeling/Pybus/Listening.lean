import Pybus.Accounts

/-! What one call of `listen_once` leaves in the ledger of a claim: of the message it took from a
channel, and of every other one. -/
namespace Pybus

open Value Texts Interaction Listener

variable {Obj : Type} [Texts] {R : Registry Obj} {A : Assumption Obj} {c : Nat}
  {g g' : Ledger Obj} {s s' : ListenerState} {k : Claim} {e : MessageEnvelope} {m : RawMessage}
  {L : Listener Obj} {channel : String} {x : Option Exc}

theorem verifyDurableConfiguration_meets (hv : e.Valid) :
    (L.verifyDurableConfiguration channel e k).Meets (accounting R A c)
      (fun g' s' r => s' = s ∧
        match r with
        | .ok _ => g' = g ∧ ∃ i, DurableJobController.identity e = .ok i ∧
            (i.isSome = true → L.durableJobController.isSome = true ∧ e.messageKind = .str "command")
        | .error exc => Settled A c e k Never g g' (some exc)) g s := by
  have hrestore : ∀ reason, (restoreClaimedCommandAndAbort channel e reason .workerAbort k :
      Action Obj Unit).Meets (accounting R A c) (fun g' s' r => s' = s ∧
        match r with
        | .ok _ => g' = g ∧ ∃ i, DurableJobController.identity e = .ok i ∧
            (i.isSome = true → L.durableJobController.isSome = true ∧ e.messageKind = .str "command")
        | .error exc => Settled A c e k Never g g' (some exc)) g s := by
    intro reason
    refine (restore_meets reason hv fun _ => rfl).mono ?_
    rintro g' s' r ⟨rfl, exc, rfl, hs⟩
    exact ⟨rfl, hs⟩
  unfold verifyDurableConfiguration
  split
  · exact hrestore _
  · rename_i hi
    exact ⟨rfl, rfl, none, hi, by rintro ⟨⟩⟩
  · rename_i i hi
    rw [Routine.meets_ite]
    split
    · exact hrestore _
    · rename_i hstore
      rw [Routine.meets_ite]
      split
      · exact hrestore _
      · rename_i hkind
        refine ⟨rfl, rfl, some i, hi, fun _ => ⟨?_, by simpa using hkind⟩⟩
        cases hc : L.durableJobController with
        | none => simp [hc] at hstore
        | some conf => rfl

/-- The retry count of a message whose type has no hash cannot be found out. -/
theorem recover_unhashable {t : String} (hh : ¬ e.Hashable) :
    (L.recover channel e (.typeError t) k).Meets (accounting R A c)
      (fun g' s' r => s' = s ∧ g' = g ∧ ∃ exc, r = .error exc) g s := by
  have hr : L.shouldRetry e = .error (.typeError "unhashable type") := by
    have := Registry.lookupKey_unhashable L.dispatcher.registry.messageClasses hh
    simp [shouldRetry, retryCount, isTyped, Registry.messageClassFor, this, bind, Except.bind]
  exact Action.meets_lift_bind_error hr ⟨rfl, rfl, _, rfl⟩

/-- A first settlement after an ordinary exception closes the ledger. -/
theorem Open.settled (hg : Open L m e k g) (hk : k.number = c)
    (h : Settled A c e k (fun _ => A.Sleepless) g g' x) : Closed L A m e k g' x :=
  h.closed hk hg fun _ _ hs => ⟨.inr (.inl hs), .inl (.inr (.inl hs))⟩

/-- The ledger of a buffered message is closed by the copy in the buffer. -/
theorem closed_buffered (hd : ∀ exc, x = some exc → exc.stopsWorker = true) :
    Closed L A m e k (Ledger.settled { message := some m } k.receipt) x := by
  have hset : Settled A k.number e k Never ({ message := some m } : Ledger Obj)
      (Ledger.on k.number k (·.settled k.receipt) { message := some m }) x := .settled hd
  rw [Ledger.on_own rfl] at hset
  exact hset.closed rfl open_blank fun _ _ h => h.elim

/-- The ledger at an exception of `_dispatch`: closed, if the exception stops the worker, else to be
closed by the settlement that follows. -/
structure Recoverable (L : Listener Obj) (A : Assumption Obj) (c : Nat) (m : RawMessage)
    (e : MessageEnvelope) (k : Claim) (g : Ledger Obj) (exc : Exc) : Prop where
  stops : exc.stopsWorker = true → Closed L A m e k g (some exc)
  goesOn : exc.stopsWorker = false → e.Hashable ∧
    ∀ g' x, Settled A c e k (fun _ => A.Sleepless) g g' x → Closed L A m e k g' x

theorem Open.recoverable {exc : Exc} (hg : Open L m e k g) (hk : k.number = c) (hh : e.Hashable)
    (hstops : exc.stopsWorker = true → Closed L A m e k g (some exc)) :
    Recoverable L A c m e k g exc :=
  ⟨hstops, fun _ => ⟨hh, fun _ _ h => hg.settled hk h⟩⟩

theorem recover_resolved {exc : Exc} (hv : e.Valid) (h : Recoverable L A c m e k g exc) :
    (do
      L.recover channel e exc k
      return .claimSettled : Action Obj (DispatchResult Obj)).Meets (accounting R A c)
      (fun g' s' r => s' = s ∧ Resolved L A c m e k g' r) g s := by
  cases hexc : exc.stopsWorker with
  | true =>
    have hr : L.recover channel e exc k = throw exc := by
      unfold recover
      rw [if_pos hexc]
    rw [hr]
    exact ⟨rfl, .closed (h.stops hexc) fun d hd => by cases hd⟩
  | false =>
    obtain ⟨hh, hclosed⟩ := h.goesOn hexc
    refine (recover_meets hv hh hexc).bind ?_ ?_
    · rintro g' s' ⟨⟩ ⟨rfl, hs⟩
      exact ⟨rfl, .closed (hclosed _ _ hs) fun d hd => by cases hd; rfl⟩
    · rintro g' s' exc ⟨rfl, hs⟩
      exact ⟨rfl, .closed (hclosed _ _ hs) fun d hd => by cases hd⟩

theorem Dispatched.resolved {d : DispatchResult Obj}
    (h : Dispatched L A c e k { message := some m } s g (.ok d)) (hk : k.number = c)
    (hc : c < s.claims) : Resolved L A c m e k g (.ok d) := by
  cases h with
  | dropped =>
    rw [Ledger.on_own hk]
    exact .dropped
  | lost hf hb hs =>
    refine .closed (open_blank.closed (.inl ?_) (by rintro _ ⟨⟩)) fun d hd => by cases hd; rfl
    exact .inr (.inr (.inr (.inr ⟨hs, _, hf, hb⟩)))
  | buffered hh hdump hflush hr =>
    rw [Ledger.on_own hk] at hflush
    rcases hflush.other (.inl hc) with ⟨rfl, -⟩ | ⟨-, exc, hx, -⟩
    · exact .closed (closed_buffered (by rintro _ ⟨⟩)) hr
    · cases hx
  | processed hh hf hne hi hp =>
    cases hp with
    | interrupted hl hs hr =>
      rw [Ledger.on_own hk] at hs
      exact .closed (hs.closed hk (open_interrupted hf hi hl) (by rintro _ ⟨⟩)) hr
    | completed hlen hacc hr =>
      rcases hr with hr | ⟨_, hr⟩
      · cases hr
        exact .completed hf hne hi hlen hacc
      · cases hr

/-- The loop over the handlers was left with a copy sent, or without a settlement begun. -/
theorem Settled.recoverable {exc : Exc} (h : Settled A c e k (Ordinary A) g g' (some exc))
    (hk : k.number = c) (hh : e.Hashable) (hg : Open L m e k g) :
    Recoverable L A c m e k g' exc := by
  refine ⟨fun hstop => h.closed hk hg ?_, fun hgo => ⟨hh, ?_⟩⟩
  · rintro _ ⟨⟩ hord
    exact ⟨.inl hstop, .inl (.inr (.inl (hord hstop)))⟩
  · cases h with
    | idle hw => exact fun g' x h => hg.settled hk h
    | undumped hd hi => simp [Exc.stopsWorker_of_indeterminate hi] at hgo
    | refused hf hi => simp [Exc.stopsWorker_of_indeterminate hi] at hgo
    | unacked hf hr hi => simp [Exc.stopsWorker_of_indeterminate hi] at hgo
    | settled hx => simp [hx exc rfl] at hgo

theorem Processed.recoverable {hs : List Handler} {i : Option (String × Nat)} {exc : Exc}
    (h : Processed L A c e i.isSome k hs { message := some m } g (.error exc)) (hk : k.number = c)
    (hh : e.Hashable) (hf : L.dispatcher.registry.handlersFor e.messageKind e.messageType = .ok hs)
    (hne : hs ≠ []) (hi : DurableJobController.identity e = .ok i) :
    Recoverable L A c m e k g exc := by
  cases h with
  | interrupted hl hs hr =>
    rw [Ledger.on_own hk] at hs
    exact hs.recoverable hk hh (open_interrupted hf hi hl)
  | completed hlen hacc hr =>
    rcases hr with hr | ⟨t, hr⟩
    · cases hr
    · cases hr
      refine (open_completion hk hf hi hlen hacc).recoverable hk hh fun _ => ?_
      refine (open_completion hk hf hi hlen hacc).closed ?_ fun _ h => by cases h; exact .inl rfl
      refine .inr (.inr (.inl (completed_zip hf hne hlen ?_)))
      rw [completion_own hk]
  | @unrecorded results _ hlen hdur =>
    rw [Ledger.on_own hk]
    have hopen := open_interrupted (k := k) (m := m) (l := hs.zip results) hf hi (.inr hdur)
    refine hopen.recoverable hk hh fun _ => ?_
    refine hopen.closed ?_ fun _ h => by cases h; exact .inl rfl
    exact .inr (.inr (.inl (completed_zip hf hne hlen rfl)))
  | unreleased hu =>
    obtain ⟨hg, exc', hx, hexc⟩ := hu
    cases hx
    rw [Ledger.on_own hk] at hg
    subst hg
    have hkept : Open L m e k (Ledger.kept ({ message := some m } : Ledger Obj)) :=
      ⟨rfl, ⟨rfl, rfl, rfl, rfl⟩, fun h _ _ => by simp [Ledger.kept]⟩
    refine hkept.recoverable hk hh fun hstops => ?_
    refine hkept.closed (.inr (.inr (.inr (.inr ⟨.inr (.inr rfl), rfl⟩)))) ?_
    exact fun _ h => by cases h; exact .inl hstops

theorem Dispatched.recoverable {exc : Exc}
    (h : Dispatched L A c e k { message := some m } s g (.error exc)) (hk : k.number = c)
    (hc : c < s.claims) (hh : e.Hashable) : Recoverable L A c m e k g exc := by
  have hblank : Open L m e k ({ message := some m } : Ledger Obj) := open_blank
  cases h with
  | unknown hn => exact absurd hh hn
  | withheld _ hs =>
    have hstops := hs.stops.resolve_right id
    refine ⟨fun _ => hs.closed hk hblank fun _ _ h => h.elim, fun h => ?_⟩
    rw [hstops] at h
    cases h
  | unhandled _ => exact hblank.recoverable hk hh (by rintro ⟨⟩)
  | unread _ hdec =>
    refine hblank.recoverable hk hh fun hs => ?_
    refine hblank.closed (.inr (.inr (.inr (.inr ⟨.inr (.inl ⟨exc, hdec, hs⟩), rfl⟩)))) ?_
    exact fun _ h => by cases h; exact .inl hs
  | shut _ hshut =>
    have hdis : ({ message := some m } : Ledger Obj).disturb exc = { message := some m } := by
      simp [Ledger.disturb]
    rw [hdis]
    refine hblank.recoverable hk hh fun hs => ?_
    exact hblank.closed (.inl (.inr (.inr (.inl hshut)))) fun _ h => by cases h; exact .inl hs
  | buffered _ hdump hflush hr =>
    rw [Ledger.on_own hk] at hflush
    rcases hflush.other (.inl hc) with ⟨rfl, hx⟩ | ⟨hshut, exc', hx, rfl⟩
    · refine ⟨fun hs => closed_buffered fun _ h => by cases h; exact hs, fun hs => ⟨hh, ?_⟩⟩
      have hsleep : A.Sleepless := (hx exc rfl).resolve_left fun h => by rw [hs] at h; cases h
      exact fun g' x h => h.closed_sleepless hsleep
    · cases hx
      refine ⟨fun hs => ?_, fun hs => ⟨hh, fun g' x h => h.closed_disturbed hk hdump hs hshut⟩⟩
      have hdis : (Ledger.settled ({ message := some m } : Ledger Obj) k.receipt).disturb exc =
          Ledger.settled { message := some m } k.receipt := by
        unfold Ledger.settled
        split <;> simp [Ledger.disturb, Ledger.sent, Ledger.confirmed, hs]
      rw [hdis]
      exact closed_buffered fun _ h => by cases h; exact hs
  | processed _ hf hne hi hp => exact hp.recoverable hk hh hf hne hi

/-- A message whose type has no hash is not looked at any further. -/
theorem Dispatched.hashable {exc : Exc} (h : Dispatched L A c e k g s g' (.error exc)) :
    e.Hashable ∨ g' = g ∧ ∃ t, exc = .typeError t := by
  cases h with
  | unknown _ => exact .inr ⟨rfl, _, rfl⟩
  | withheld h _ => exact .inl h
  | unhandled h => exact .inl h
  | unread h _ => exact .inl h
  | shut h _ => exact .inl h
  | buffered h _ _ _ => exact .inl h
  | processed h _ _ _ _ => exact .inl h

/-- The ledger of a claimed message once `_dispatch` and the settlement of its exceptions are over. -/
theorem dispatch_resolved {i : Option (String × Nat)} (hk : k.number = c) (hc : c < s.claims)
    (hv : e.Valid) (hi : DurableJobController.identity e = .ok i)
    (hver : i.isSome = true →
      L.durableJobController.isSome = true ∧ e.messageKind = .str "command") :
    (tryCatch (L.dispatch channel e k) fun exc => do
      L.recover channel e exc k
      return .claimSettled : Action Obj (DispatchResult Obj)).Meets
      (accounting L.dispatcher.registry A c) (fun g' _ r => Resolved L A c m e k g' r)
      { message := some m } s := by
  refine (dispatch_meets hv hi hver (by omega) (fun h => absurd hc (by omega))).tryCatch ?_ ?_
  · exact fun g' s' d hd => hd.resolved hk hc
  · intro g₁ s₁ exc hd
    by_cases hh : e.Hashable
    · exact (recover_resolved hv (hd.recoverable hk hc hh)).mono fun g' s' r h => h.2
    · obtain ⟨rfl, t, rfl⟩ := hd.hashable.resolve_left hh
      refine (recover_unhashable hh).bind ?_ ?_
      · rintro g' s' u ⟨-, -, exc, hexc⟩
        cases hexc
      · rintro g' s' exc ⟨-, rfl, -⟩
        refine .closed (open_blank.closed (.inl ?_) fun _ _ => .inr (.inr (.inr hh)))
          fun d hd => by cases hd
        exact .inr (.inr (.inr (.inl hh)))

/-- An excused ack ends the delivery of a message of which no copy was sent. -/
theorem ack_closes (rest : Option (List (HandlerResult Obj))) (hg : Open L m e k g)
    (hk : k.number = c) (hacc : Completed L e g ∨ g.dropped = true) (hj : g.Justified R) :
    (do
      ackClaim k
      return rest : Action Obj (Option (List (HandlerResult Obj)))).Meets (accounting R A c)
      (fun g' s' r => s' = s ∧ Closed L A m e k g' (raised r)) g s := by
  refine (ackClaim_meets fun _ => hj).bind ?_ ?_
  · rintro g' s' ⟨⟩ ⟨rfl, rfl⟩
    rw [Ledger.on_own hk]
    refine ⟨rfl, ?_⟩
    split
    · exact hg.closed_confirmed hacc (by rintro _ ⟨⟩)
    · exact hg.closed (.inr (.inr (hacc.imp_right .inl))) (by rintro _ ⟨⟩)
  · rintro g' s' exc ⟨rfl, hi, -, -, rfl⟩
    rw [Ledger.on_own hk]
    refine ⟨rfl, hg.closed_confirmed hacc ?_⟩
    rintro _ ⟨⟩
    exact Exc.stopsWorker_of_indeterminate hi

theorem completion_done {hs : List Handler} {i : Option (String × Nat)}
    {results : List (HandlerResult Obj)} {now : Instant} (hk : k.number = c)
    (hread : MessageEnvelope.read now m.bytes = .ok e)
    (hf : R.handlersFor e.messageKind e.messageType = .ok hs) (hne : hs ≠ [])
    (hi : DurableJobController.identity e = .ok i) (hlen : results.length = hs.length) :
    (completion L e c k i.isSome (hs.zip results) ({ message := some m } : Ledger Obj)).Done R := by
  rw [completion_own hk]
  refine ⟨m, now, e, hs, rfl, hread, hf, hne, ?_, ?_, fun hnd => ?_⟩
  · simp [Function.comp_def, List.map_fst_zip, hlen]
  · intro y hy
    obtain ⟨z, -, rfl⟩ := List.mem_map.mp hy
    rfl
  · cases i with
    | none => exact absurd hi hnd
    | some i => rfl

/-- What `listen_once` returns after a dispatch closes the ledger. -/
theorem finish_meets {d : DispatchResult Obj} {now : Instant}
    (h : Resolved L A c m e k g (.ok d)) (hk : k.number = c)
    (hread : MessageEnvelope.read now m.bytes = .ok e) :
    (L.finish e k d).Meets (accounting L.dispatcher.registry A c)
      (fun g' s' r => s' = s ∧ Closed L A m e k g' (raised r)) g s := by
  cases h with
  | closed hcl hd =>
    obtain rfl := hd d rfl
    exact ⟨rfl, hcl⟩
  | dropped =>
    refine ack_closes none ⟨rfl, ⟨rfl, rfl, rfl, rfl⟩, fun h _ _ => ?_⟩ hk (.inr rfl)
      (.inr (.inr (.inr rfl)))
    simp [Ledger.drop]
  | @completed hs i results hf hne hi hlen hacc =>
    have hopen := open_completion (m := m) hk hf hi hlen hacc
    have hcompleted : Completed L e
        (completion L e c k i.isSome (hs.zip results) { message := some m }) :=
      completed_zip hf hne hlen (by rw [completion_own hk])
    have hacked := ack_closes (A := A) (s := s) (some results) hopen hk (.inl hcompleted)
      (.inr (.inl (completion_done hk hread hf hne hi hlen)))
    dsimp only [finish]
    split
    · rename_i response _
      rw [Routine.meets_ite]
      split
      · refine publishResponse_meets.bind ?_ ?_
        · rintro g' s' ⟨⟩ ⟨rfl, hs⟩
          exact ⟨rfl, hs.closed hk hopen (by rintro _ ⟨⟩)⟩
        · rintro g' s' exc ⟨rfl, hs⟩
          refine ⟨rfl, hs.closed hk hopen fun exc' _ hi => ?_⟩
          exact ⟨.inl (Exc.stopsWorker_of_indeterminate hi), .inr hcompleted⟩
      · exact hacked
    · exact hacked

/-- The delivery of a message closes its ledger. -/
theorem settle_own {now : Instant} (hk : k.number = c) (hc : c < s.claims)
    (hread : MessageEnvelope.read now m.bytes = .ok e) :
    (L.settle channel e k).Meets (accounting L.dispatcher.registry A c)
      (fun g' _ r => Closed L A m e k g' (raised r)) { message := some m } s := by
  have hv := MessageEnvelope.read_valid hread
  refine (verifyDurableConfiguration_meets hv).bind ?_ ?_
  · rintro g' s' ⟨⟩ ⟨rfl, rfl, i, hi, hver⟩
    refine (dispatch_resolved hk hc hv hi hver).bind ?_ ?_
    · intro g₁ s₁ d hd
      exact (finish_meets hd hk hread).mono fun g' s' r h => h.2
    · rintro g₁ s₁ exc (⟨hcl, -⟩ | _ | _)
      exact hcl
  · rintro g' s' exc ⟨rfl, hs⟩
    exact hs.closed hk open_blank fun _ _ h => h.elim

omit [Texts] in
/-- An ordinary exception means that no copy was refused. -/
theorem Quiet.of_ordinary {exc : Exc} (h : Quiet g (some exc)) (hexc : exc.stopsWorker = false) :
    Quiet g none := by
  refine ⟨h.1, fun hr => ?_⟩
  obtain ⟨-, _, ⟨⟩, hs⟩ := h.2 hr
  rw [hexc] at hs
  cases hs

theorem recover_other {exc : Exc} (hv : e.Valid) (hk : k.number ≠ c)
    (hh : e.Hashable ∨ ∃ t, exc = .typeError t) (hq : Quiet g (some exc)) :
    (L.recover channel e exc k).Meets (accounting R A c)
      (fun g' _ r => Quiet g' (raised r) ∧ Escapes A e (raised r)) g s := by
  cases hexc : exc.stopsWorker with
  | true =>
    have hr : L.recover channel e exc k = throw exc := by
      unfold recover
      rw [if_pos hexc]
    rw [hr]
    exact ⟨hq, fun _ h => by cases h; exact .inl hexc⟩
  | false =>
    have hnone := hq.of_ordinary hexc
    by_cases hashable : e.Hashable
    · refine (recover_meets hv hashable hexc).mono ?_
      rintro g' s' r ⟨-, hs⟩
      refine ⟨?_, fun exc hx => ?_⟩
      · rw [hs.other hk]
        exact hnone.of_none
      · rw [hx] at hs
        exact hs.stops.imp_right .inl
    · obtain ⟨t, rfl⟩ := hh.resolve_left hashable
      refine (recover_unhashable hashable).mono ?_
      rintro g' s' r ⟨-, rfl, -⟩
      exact ⟨hnone.of_none, fun _ _ => .inr (.inr (.inr hashable))⟩

theorem finish_other {d : DispatchResult Obj} (hk : k.number ≠ c) (hq : Quiet g none) :
    (L.finish e k d).Meets (accounting R A c)
      (fun g' _ r => Quiet g' (raised r) ∧ Escapes A e (raised r)) g s := by
  have hok : Quiet g none ∧ Escapes A e none := ⟨hq, by rintro _ ⟨⟩⟩
  have hraised : ∀ {exc : Exc}, exc.isIndeterminate = true →
      Quiet g (some exc) ∧ Escapes A e (some exc) := fun hi =>
    ⟨hq.of_none, fun _ h => by cases h; exact .inl (Exc.stopsWorker_of_indeterminate hi)⟩
  have hacked : ∀ {rest : Option (List (HandlerResult Obj))},
      (do
        ackClaim k
        return rest : Action Obj (Option (List (HandlerResult Obj)))).Meets (accounting R A c)
        (fun g' _ r => Quiet g' (raised r) ∧ Escapes A e (raised r)) g s := by
    intro rest
    refine (ackClaim_meets fun h => absurd h hk).bind ?_ ?_
    · rintro g' s' ⟨⟩ ⟨rfl, rfl⟩
      rw [Ledger.on_other hk]
      exact hok
    · rintro g' s' exc ⟨rfl, hi, -, -, rfl⟩
      rw [Ledger.on_other hk]
      exact hraised hi
  cases d with
  | claimSettled => exact hok
  | dropped => exact hacked
  | results results =>
    dsimp only [finish]
    split
    · rw [Routine.meets_ite]
      split
      · refine publishResponse_meets.bind ?_ ?_
        · rintro g' s' ⟨⟩ ⟨-, hs⟩
          rw [hs.other hk]
          exact hok
        · rintro g' s' exc ⟨-, hs⟩
          rw [hs.other hk]
          exact ⟨hq.of_none, fun _ h => by
            cases h
            exact .inl (hs.stops.elim id Exc.stopsWorker_of_indeterminate)⟩
      · exact hacked
    · exact hacked

/-- The delivery of one message leaves the ledgers of the others quiet. -/
theorem settle_other (hv : e.Valid) (hk : k.number ≠ c) (hlt : k.number < s.claims)
    (hq : Quiet g none) (hfresh : s.claims ≤ c → g = {}) :
    (L.settle channel e k).Meets (accounting L.dispatcher.registry A c)
      (fun g' _ r => Quiet g' (raised r) ∧ Escapes A e (raised r)) g s := by
  refine (verifyDurableConfiguration_meets hv).bind ?_ ?_
  · rintro g' s' ⟨⟩ ⟨rfl, rfl, i, hi, hver⟩
    refine Routine.Meets.bind
      (Q := fun g' _ r => Quiet g' (raised r) ∧ Escapes A e (raised r)) ?_ ?_ ?_
    · refine (dispatch_meets hv hi hver hlt hfresh).tryCatch ?_ ?_
      · exact fun g₁ s₁ d hd => ⟨hd.quiet hk hq hfresh, by rintro _ ⟨⟩⟩
      · intro g₁ s₁ exc hd
        refine (recover_other hv hk (hd.hashable.imp_right And.right) (hd.quiet hk hq hfresh)).bind
          ?_ ?_
        · exact fun g₂ s₂ u h => ⟨h.1, by rintro _ ⟨⟩⟩
        · exact fun g₂ s₂ exc h => h
    · exact fun g₁ s₁ d hd => finish_other hk hd.1
    · exact fun g₁ s₁ exc h => h
  · rintro g' s' exc ⟨rfl, hs⟩
    refine ⟨?_, fun _ h => by cases h; exact .inl (hs.stops.resolve_right id)⟩
    rw [hs.other hk]
    exact hq.of_none

/-- The ledger of a message that could not be read: a poison record took its place. -/
structure Poisoned (A : Assumption Obj) (k : Claim) (m : RawMessage) (g : Ledger Obj)
    (x : Option Exc) : Prop where
  message : g.message = some m
  sound : Sound A g x
  published : A.Refuses k ∨ g.published = true
  early : g.observedEarly = false
  stops : ∀ exc, x = some exc → exc.stopsWorker = true

theorem Settled.poisoned (h : Settled A c e k Never { message := some m } g x) (hk : k.number = c)
    (hd : e.Dumpable) : Poisoned A k m g x := by
  obtain ⟨-, hobs, hmsg, -⟩ := h.same
  refine ⟨hmsg, h.sound ⟨rfl, rfl, rfl, rfl⟩ hk, ?_, hobs, ?_⟩
  · rcases h.published hk with ⟨_, -, hn, -⟩ | hn | hr | hp
    · exact hn.elim
    · exact absurd hd hn.1
    · exact .inl hr
    · exact .inr hp
  · rintro exc rfl
    exact h.stops.resolve_right id

/-- The message may come from a channel, to be read as the envelope. -/
def Arrives (A : Assumption Obj) (m : RawMessage) (e : MessageEnvelope) : Prop :=
  (∃ channel timeout n, A (.consume channel timeout n) (.ok (some m))) ∧
    ∃ now, MessageEnvelope.read now m.bytes = .ok e

/-- The transport may fail to consume. -/
def Assumption.Deaf (A : Assumption Obj) : Prop :=
  ∃ channel timeout n exc, A (.consume channel timeout n) (.error exc)

/-- How `_consume_envelope` leaves the ledger of a claim: untouched, with a message that was read,
or with one that could not be read. -/
inductive Consumed (A : Assumption Obj) (c : Nat) (g : Ledger Obj) (s : ListenerState) :
    Ledger Obj → ListenerState → Except Exc (Option (String × MessageEnvelope × Claim)) → Prop
  | idle {s' : ListenerState} : Consumed A c g s g s' (.ok none)
  | raised {s' : ListenerState} {exc : Exc} : A.Deaf ∨ exc.stopsWorker = true →
      Consumed A c g s g s' (.error exc)
  | other {channel : String} {m : RawMessage} {e : MessageEnvelope} {k : Claim}
      {s' : ListenerState} : Arrives A m e → k.number ≠ c → k.number < s'.claims →
      (s'.claims ≤ c → g = {}) → Consumed A c g s g s' (.ok (some (channel, e, k)))
  | read {channel : String} {m : RawMessage} {e : MessageEnvelope} {k : Claim}
      {s' : ListenerState} : Arrives A m e → k.number = c → c < s'.claims →
      k.receipt = m.receipt → Consumed A c g s { message := some m } s' (.ok (some (channel, e, k)))
  | poisoned {m : RawMessage} {now : Instant} {exc : Exc} {g' : Ledger Obj} {s' : ListenerState}
      {r : Except Exc (Option (String × MessageEnvelope × Claim))} :
      MessageEnvelope.read now m.bytes = .error exc → (∀ y, r ≠ .ok (some y)) →
      Poisoned A ⟨m.receipt, c⟩ m g' (raised r) → Consumed A c g s g' s' r

theorem consumeEnvelope_meets {timeout : Nat} (channels : List String)
    (hfresh : s.claims ≤ c → g = {}) :
    (L.consumeEnvelope timeout channels).Meets (accounting R A c) (Consumed A c g s) g s := by
  induction channels with
  | nil => exact .idle
  | cons channel channels ih =>
    refine Action.meets_own_bind.mpr ?_
    refine Action.meets_attempt_bind trivial ?_ ?_
    · rintro _ answer hA rfl
      cases answer with
      | none => exact ih
      | some m =>
        have hg : (accounting R A c).next g (.consume channel timeout s.claims) (.ok (some m)) =
            if s.claims = c then { g with message := some m } else g := rfl
        rw [hg]
        refine Action.meets_update_bind.mpr ?_
        refine Action.meets_now_bind.mpr ⟨trivial, fun now _ => ?_⟩
        simp only [accounting_next, Ledger.next]
        cases hread : MessageEnvelope.read now m.bytes with
        | ok e =>
          have harrives : Arrives A m e := ⟨⟨_, _, _, hA⟩, now, hread⟩
          by_cases hc : s.claims = c
          · rw [if_pos hc, hfresh hc.le]
            exact .read harrives hc (by simp [ListenerState.claimed, hc]) rfl
          · rw [if_neg hc]
            refine .other harrives hc ?_ fun h => hfresh ?_
            · simp [ListenerState.claimed]
            · simp only [ListenerState.claimed] at h
              omega
        | error exc =>
          by_cases hc : s.claims = c
          · rw [if_pos hc, hfresh hc.le]
            subst hc
            refine deadLetterUndecodable_meets.bind ?_ ?_
            · rintro g' s' ⟨⟩ ⟨-, poison, hd, hs⟩
              exact .poisoned hread (by rintro y ⟨⟩) (hs.poisoned rfl hd)
            · rintro g' s' exc' ⟨-, poison, hd, hs⟩
              exact .poisoned hread (by rintro y ⟨⟩) (hs.poisoned rfl hd)
          · rw [if_neg hc]
            refine deadLetterUndecodable_meets.bind ?_ ?_
            · rintro g' s' ⟨⟩ ⟨-, poison, hd, hs⟩
              rw [hs.other hc]
              exact .idle
            · rintro g' s' exc' ⟨-, poison, hd, hs⟩
              rw [hs.other hc]
              exact .raised (.inr (hs.stops.resolve_right id))
    · rintro _ exc hA rfl
      exact .raised (.inl ⟨_, _, _, exc, hA⟩)

/-- The ledger of any claim after one call of `listen_once`. -/
inductive Listened (L : Listener Obj) (A : Assumption Obj) (c : Nat) (g : Ledger Obj)
    (x : Option Exc) : Prop
  | quiet : Quiet g x → Listened L A c g x
  | read {m : RawMessage} {e : MessageEnvelope} :
      Arrives A m e → Closed L A m e ⟨m.receipt, c⟩ g x → Listened L A c g x
  | poisoned {m : RawMessage} {now : Instant} {exc : Exc} :
      MessageEnvelope.read now m.bytes = .error exc → Poisoned A ⟨m.receipt, c⟩ m g x →
      Listened L A c g x

/-- What may escape `listen_once`. -/
def Raises (A : Assumption Obj) (x : Option Exc) : Prop :=
  ∀ exc, x = some exc → exc.stopsWorker = true ∨ A.Sleepless ∨ A.Shut ∨ A.Deaf ∨
    ∃ m e, Arrives A m e ∧ ¬ e.Hashable

theorem Escapes.raises (h : Escapes A e x) (ha : Arrives A m e) : Raises A x := by
  intro exc hx
  rcases h exc hx with hs | hs | hs | hh
  · exact .inl hs
  · exact .inr (.inl hs)
  · exact .inr (.inr (.inl hs))
  · exact .inr (.inr (.inr (.inr ⟨m, e, ha, hh⟩)))

theorem Undue.raises (h : Undue A x ∨ A.Shut) : Raises A x := by
  intro exc hx
  rcases h with h | h
  · exact (h exc hx).imp_right .inl
  · exact .inr (.inr (.inl h))

theorem listenOnce_meets {channels : List String} :
    (L.listenOnce channels).Meets (accounting L.dispatcher.registry A c)
      (fun g' _ r => Listened L A c g' (raised r) ∧ Raises A (raised r)) {} s := by
  have hblank : Quiet ({} : Ledger Obj) none := quiet_blank
  have hnone : Raises A none := by rintro _ ⟨⟩
  refine (flushReadyBatches_meets fun _ => rfl).bind ?_ ?_
  · intro g₁ s₁ _ hflush
    have hq : Quiet g₁ none := hflush.quiet hblank fun _ => rfl
    have hfresh := hflush.fresh fun _ => rfl
    rw [Routine.meets_ite]
    split
    · exact ⟨.quiet hq, hnone⟩
    · refine (consumeEnvelope_meets _ hfresh).bind ?_ ?_
      · intro g₂ s₂ answer hconsumed
        cases hconsumed with
        | idle => exact ⟨.quiet hq, hnone⟩
        | other ha hk hlt hfresh' =>
          obtain ⟨-, now, hread⟩ := id ha
          refine (settle_other (MessageEnvelope.read_valid hread) hk hlt hq hfresh').mono ?_
          exact fun g' s' r h => ⟨.quiet h.1, h.2.raises ha⟩
        | @read channel m e k _ ha hk hc hrec =>
          obtain ⟨receipt, n⟩ := k
          obtain rfl : receipt = m.receipt := hrec
          obtain rfl : n = c := hk
          obtain ⟨-, now, hread⟩ := id ha
          refine (settle_own (k := ⟨m.receipt, n⟩) rfl hc hread).mono ?_
          exact fun g' s' r h => ⟨.read ha h, h.account.escapes.raises ha⟩
        | poisoned hread hr hp =>
          cases answer with
          | none => exact ⟨.poisoned hread hp, hnone⟩
          | some y => exact absurd rfl (hr y)
      · intro g₂ s₂ exc hconsumed
        cases hconsumed with
        | raised hr =>
          refine ⟨.quiet hq.of_none, fun _ h => ?_⟩
          cases h
          rcases hr with hr | hr
          · exact .inr (.inr (.inr (.inl hr)))
          · exact .inl hr
        | poisoned hread hr hp => exact ⟨.poisoned hread hp, fun _ h => .inl (hp.stops _ h)⟩
  · intro g₁ s₁ exc hflush
    exact ⟨.quiet (hflush.quiet hblank fun _ => rfl), Undue.raises hflush.raises⟩

end Pybus
