import Pybus.Redis.Reports

/-! Claims survive crashes and lost replies, as long as no reindexing and no settlement meets a payload
whose entries are all claimed or in the hands of consumers. -/
namespace Pybus.Redis

open Interaction Relational RedisTransport

variable {Bytes : Type} [DecidableEq Bytes] [Sha1 Bytes]

/-- Whether a client is between the move of a payload and the record of its claim. -/
def Sight.holds (c : String) (p : Bytes) (g : Sight Bytes) : Bool :=
  match g.holding with
  | some (c', m) => c' = c && m.payload = p
  | none => false

section Sights

variable {s : Server Bytes} {g : Sight Bytes} {o : Command Bytes} {t : Instant} {c i : String}
  {p q : Bytes}

theorem reply_move : s.reply (.move c) t = (s.keys c).waiting.getLast?.map (⟨·, t⟩) := by
  simp only [Server.reply, Command.channel, Keys.exec]
  cases (s.keys c).waiting.getLast? <;> rfl

/-- A client that records a claim held its payload until then, or nothing at all. -/
theorem holds_of_record {c' : String} {u : Instant} (hp : g.Permits (.redis (.record c' i q u))) :
    g.holding = none ∨ g.holds c p = Server.isRecord c p (.record c' i q u) := by
  rcases hp.2 with ⟨m, hm, rfl⟩ | ⟨hnone, -⟩
  · right
    simp [Sight.holds, hm, Server.isRecord]
  · exact .inl hnone

/-- Only a move puts something into the hands of a client. -/
theorem holds_next (hp : g.Permits (.redis o)) {r : Except Interruption o.Result}
    (hr : ∀ a, r = .ok a → a = s.reply o t) :
    ((g.next (.redis o) r).holds c p).toNat ≤ (g.holds c p).toNat + s.moving c p o := by
  cases o with
  | move c' =>
    rcases r with e | _ | m
    · exact Nat.le_add_right _ _
    · exact Nat.le_add_right _ _
    · have hm := hr (some m) rfl
      rw [reply_move] at hm
      cases hl : (s.keys c').waiting.getLast? with
      | none => simp [hl] at hm
      | some q =>
        obtain rfl : m = ⟨q, t⟩ := by simpa [hl] using hm
        by_cases hc : c' = c
        · subst hc
          by_cases hq : q = p <;> simp [Sight.next, Sight.holds, Server.moving, hl, hq]
        · simp [Sight.next, Sight.holds, hc]
  | record c' i q u => simp [Sight.next, Sight.holds]
  | payloadOf c' i =>
    rcases r with e | _ | q
    · exact Nat.le_add_right _ _
    · simp only [Sight.next]
      split <;> exact Nat.le_add_right _ _
    · exact Nat.le_add_right _ _
  | hget => rcases r with e | _ | m <;> exact Nat.le_add_right _ _
  | hdel => rcases r with e | _ | _ <;> exact Nat.le_add_right _ _
  | zrangebyscore => rcases r with e | _ <;> exact Nat.le_add_right _ _
  | _ => exact Nat.le_add_right _ _

end Sights

section System

variable [Texts]

/-- The consumers between the move of a payload and the record of its claim. -/
def inTransit (P : Clients Bytes) (c : String) (p : Bytes) : Nat :=
  (watch Bytes).count (Sight.holds c p) P

/-- Some entry of the payload is neither claimed nor in the hands of a consumer. -/
def Spare (P : Clients Bytes) (c : String) (p : Bytes) : Prop :=
  P.shared.indexed c p + inTransit P c p < P.shared.copies c p

/-- A reindexing, and a settlement of a claim that is no longer recorded, find an entry to spare. -/
structure Careful (P : Clients Bytes) (m : Move (Requests Bytes) Unit) (P' : Clients Bytes) : Prop where
  reindexing : ∀ i T c claimId p u, CarriesOut P m P' i (.record c claimId p u) →
    P.threads[i]? = some T → ((watch Bytes).ghost T).holding = none → Spare P c p
  settlement : ∀ i c claimId p, CarriesOut P m P' i (.settle c claimId p) →
    P.shared.claimed c claimId = none → Spare P c p

/-- The system of clients, as long as its moves are careful. -/
def CarefulStep (P : Clients Bytes) (m : Move (Requests Bytes) Unit) (P' : Clients Bytes) : Prop :=
  (world Bytes).Step P m P' ∧ Careful P m P'

/-- The entries of a payload cover its indexed claims and the consumers that have yet to record one,
and every copy that was pushed waits, is in the processing list or has been settled. -/
structure Safe (P : Clients Bytes) : Prop where
  covered : ∀ c p, P.shared.indexed c p + inTransit P c p ≤ P.shared.copies c p
  conserved : ∀ c p, P.shared.waiting c p + P.shared.copies c p + P.shared.settlements c p =
    P.shared.pushes c p

variable {P P' : Clients Bytes} {m : Move (Requests Bytes) Unit} {ms : List (Move (Requests Bytes) Unit)}

omit [Texts] in
/-- What a command that is carried out does to the counts. -/
theorem safe_apply {s : Server Bytes} {o : Command Bytes} {t : Instant} {g : Sight Bytes}
    {n n' : String → Bytes → Nat} {r : Except Interruption o.Result}
    (hp : g.Permits (.redis o)) (hi : Tracked s) (hk : Known s g)
    (hr : ∀ a, r = .ok a → a = s.reply o t)
    (hn : ∀ c p, n' c p + (g.holds c p).toNat = n c p + ((g.next (.redis o) r).holds c p).toNat)
    (hcovered : ∀ c p, s.indexed c p + n c p ≤ s.copies c p)
    (hconserved : ∀ c p, s.waiting c p + s.copies c p + s.settlements c p = s.pushes c p)
    (hrecord : ∀ c i p u, o = .record c i p u → g.holding = none →
      s.indexed c p + n c p < s.copies c p)
    (hsettle : ∀ c i p, o = .settle c i p → s.claimed c i = none →
      s.indexed c p + n c p < s.copies c p) :
    (∀ c p, (s.apply o t).indexed c p + n' c p ≤ (s.apply o t).copies c p) ∧
    ∀ c p, (s.apply o t).waiting c p + (s.apply o t).copies c p + (s.apply o t).settlements c p =
      (s.apply o t).pushes c p := by
  have hfresh : ∀ c i p u, o = .record c i p u → s.claimed c i = none := by
    rintro c i p u rfl
    by_contra hne
    exact (hk.drawn i hp.1).2 (hi.claims c i (Option.isSome_iff_ne_none.mpr hne)).1
  -- A settlement takes out an entry, and with it the claim that covered it or one to spare.
  have hremove : ∀ c p, s.removing c p o = (Server.isSettle c p o).toNat ∧
      (s.dropping c p o < (Server.isSettle c p o).toNat → s.indexed c p + n c p < s.copies c p) := by
    intro c p
    cases o with
    | settle c' i q =>
      by_cases he : c' = c ∧ q = p
      · obtain ⟨rfl, rfl⟩ := he
        cases hc : s.claimed c' i with
        | none =>
          have hspare := hsettle c' i q rfl hc
          exact ⟨Server.removing_of_copies (by omega), fun _ => hspare⟩
        | some q' =>
          obtain rfl := (hk.found c' i q hp).2 q' hc
          have hdrop : s.dropping c' q' (.settle c' i q') = 1 := by
            simp [Server.dropping, hc, (hi.claims c' i (by simp [hc])).2]
          have hindexed := Server.indexed_apply (s := s) (t := t) (c := c') (p := q') hfresh
          have := hcovered c' q'
          simp only [hdrop, Server.isRecord, Bool.toNat_false] at hindexed
          refine ⟨Server.removing_of_copies (by omega), ?_⟩
          rw [hdrop]
          intro hlt
          simp [Server.isSettle] at hlt
      · have hno : Server.isSettle c p (.settle c' i q) = false := by
          simpa [Server.isSettle] using he
        have hrem : s.removing c p (.settle c' i q) = 0 := by
          simp only [Server.removing]
          split <;> simp_all
        simp [hno, hrem]
    | _ => exact ⟨rfl, fun hlt => absurd hlt (Nat.not_lt_zero _)⟩
  refine ⟨?_, ?_⟩
  · intro c p
    have hcopies := Server.copies_apply (s := s) (o := o) (t := t) (c := c) (p := p)
    have hindexed := Server.indexed_apply (s := s) (t := t) (c := c) (p := p) hfresh
    have hholds := holds_next (c := c) (p := p) hp hr
    have hsettles := Bool.toNat_le (Server.isSettle c p o)
    obtain ⟨hrem, hspare⟩ := hremove c p
    have := hn c p
    have := hcovered c p
    cases hrec : Server.isRecord c p o with
    | false =>
      simp only [hrec, Bool.toNat_false] at hindexed
      rcases Nat.lt_or_ge (s.dropping c p o) (Server.isSettle c p o).toNat with hlt | hge
      · have := hspare hlt
        omega
      · omega
    | true =>
      cases o with
      | record c' i q u =>
        obtain ⟨rfl, rfl⟩ : c' = c ∧ q = p := by simpa [Server.isRecord] using hrec
        have hthreads := hn c' q
        have hnext : (g.next (.redis (.record c' i q u)) r).holds c' q = false := rfl
        have hdrop : s.dropping c' q (.record c' i q u) = 0 := rfl
        have hmove : s.moving c' q (.record c' i q u) = 0 := rfl
        have hkeep : s.removing c' q (.record c' i q u) = 0 := rfl
        have hheld : g.holding = none ∨ g.holds c' q = true :=
          (holds_of_record hp).imp_right fun he => he.trans hrec
        rw [hnext] at hthreads
        rw [hrec] at hindexed
        rcases hheld with hnone | hheld
        · have := hrecord c' i q u rfl hnone
          have hno : g.holds c' q = false := by simp [Sight.holds, hnone]
          rw [hno] at hthreads
          simp only [Bool.toNat_false, Bool.toNat_true] at hthreads hindexed
          omega
        · rw [hheld] at hthreads
          simp only [Bool.toNat_false, Bool.toNat_true] at hthreads hindexed
          omega
      | _ => cases hrec
  · intro c p
    have hwaiting := Server.waiting_apply (s := s) (o := o) (t := t) (c := c) (p := p)
    have hcopies := Server.copies_apply (s := s) (o := o) (t := t) (c := c) (p := p)
    have hpushes := Server.pushes_apply (s := s) (o := o) (t := t) (c := c) (p := p)
    have hsettled := Server.settlements_apply (s := s) (o := o) (t := t) (c := c) (p := p)
    have hrem := (hremove c p).1
    have := hconserved c p
    omega

omit [Sha1 Bytes] [Texts] in
/-- A command that is not carried out puts nothing into the hands of a client. -/
theorem holds_failed {g : Sight Bytes} {o : Command Bytes} {e : Interruption} {c : String} {p : Bytes} :
    ((g.next (.redis o) (.error e)).holds c p).toNat ≤ (g.holds c p).toNat := by
  cases o <;> first | exact le_rfl | simp [Sight.next, Sight.holds]

/-- Every careful step keeps the entries covered and the copies conserved. -/
theorem safe_step (h : CarefulStep P m P') (hs : Safe P)
    (hinv : (watch Bytes).Invariant Tracked Known Apart P) : Safe P' := by
  obtain ⟨hstep, hcareful⟩ := h
  cases hstep with
  | @start p₀ hp =>
    refine ⟨?_, hs.conserved⟩
    intro c p
    have hcount := Watch.count_start (V := watch Bytes) (P := P) (f := Sight.holds c p) (p := p₀)
    have := hs.covered c p
    change P.shared.indexed c p + Watch.count _ _ _ ≤ P.shared.copies c p
    rw [hcount]
    exact this
  | @call i log o k r s' hi ha =>
    have hn := fun c p => Watch.count_call (V := watch Bytes) (f := Sight.holds c p) (t := s')
      (r := r) hi
    have hperm := hinv.follows.permits hi
    have hknown := hinv.holds i _ hi
    generalize hg : (watch Bytes).ghost ⟨log, .call o k⟩ = g at hn hperm hknown
    -- Whatever is not a command that is carried out leaves the server's lists and hashes alone.
    have hidle : (∀ c p, s'.indexed c p = P.shared.indexed c p) →
        (∀ c p, s'.copies c p = P.shared.copies c p) →
        (∀ c p, s'.waiting c p = P.shared.waiting c p) → s'.history = P.shared.history →
        (∀ c p, (((watch Bytes).monitor.next g o r).holds c p).toNat ≤ (g.holds c p).toNat) →
        Safe ⟨s', P.threads.set i ⟨log ++ [⟨o, r⟩], k r⟩⟩ := by
      intro hindexed hcopies hwaiting hhistory hholds
      constructor
      · intro c p
        have := hn c p
        have := hholds c p
        have := hs.covered c p
        change s'.indexed c p + Watch.count _ _ _ ≤ s'.copies c p
        rw [hindexed, hcopies]
        change P.shared.indexed c p + Watch.count _ _ _ ≤ P.shared.copies c p at this
        omega
      · intro c p
        change s'.waiting c p + s'.copies c p + s'.settlements c p = s'.pushes c p
        rw [hcopies, hwaiting]
        simp only [Server.settlements, Server.pushes, hhistory]
        exact hs.conserved c p
    cases o with
    | redis o =>
      have hcarried : ∀ t, s' = P.shared.apply o t →
          (∀ a, r = .ok a → a = P.shared.reply o t) →
          Safe ⟨s', P.threads.set i ⟨log ++ [⟨.redis o, r⟩], k r⟩⟩ := by
        rintro t rfl hr
        have hrecord : ∀ c i' p u, o = .record c i' p u → g.holding = none → Spare P c p := by
          rintro c i' p u rfl hnone
          exact hcareful.reindexing i _ c i' p u ⟨⟨_, rfl⟩, rfl⟩ hi (hg ▸ hnone)
        have hsettle : ∀ c i' p, o = .settle c i' p → P.shared.claimed c i' = none → Spare P c p := by
          rintro c i' p rfl hnone
          exact hcareful.settlement i c i' p ⟨⟨_, rfl⟩, rfl⟩ hnone
        obtain ⟨hcovered, hconserved⟩ := safe_apply hperm hinv.shared hknown hr hn hs.covered
          hs.conserved hrecord hsettle
        exact ⟨hcovered, hconserved⟩
      cases ha with
      | @replied _ t ht => exact hcarried t rfl fun a he => (Except.ok.inj he).symm
      | @lost _ t e ht => exact hcarried t rfl fun a he => by cases he
      | failed ht =>
        exact hidle (fun _ _ => rfl) (fun _ _ => rfl) (fun _ _ => rfl) rfl fun _ _ => holds_failed
    | uuid4 =>
      cases ha with
      | uuid4 ht hfresh =>
        exact hidle (fun _ _ => rfl) (fun _ _ => rfl) (fun _ _ => rfl) rfl fun _ _ => le_rfl
    | now =>
      cases ha with
      | now ht =>
        exact hidle (fun _ _ => rfl) (fun _ _ => rfl) (fun _ _ => rfl) rfl fun _ _ => le_rfl
    | nowFn reaper =>
      cases ha with
      | nowFn ht =>
        exact hidle (fun _ _ => rfl) (fun _ _ => rfl) (fun _ _ => rfl) rfl fun _ _ => le_rfl

theorem safe_run (h : Path CarefulStep P ms P') (hs : Safe P)
    (hinv : (watch Bytes).Invariant Tracked Known Apart P) : Safe P' := by
  induction h with
  | refl => exact hs
  | head hstep _ ih => exact ih (safe_step hstep hs hinv) (Watch.invariant_step tracking_local hstep.1 hinv)

/-- A program that looks a claim up, and is done unless it finds it. -/
def LooksUp (c claimId : String) (p : Prog (Requests Bytes) Unit) : Prop :=
  p = .done () ∨ ∃ k, p = .call (.redis (.payloadOf c claimId)) k ∧ k (.ok none) = .done () ∧
    ∀ e, k (.error e) = .done ()

omit [DecidableEq Bytes] [Sha1 Bytes] [Texts] in
theorem lookupClaim_of_parse {r : Raw} {c claimId : String} (h : parseReceipt r = some (c, claimId)) :
    (lookupClaim r : Client Bytes (Option (String × String × Bytes))) = (do
      let payload ← Client.redis (.payloadOf c claimId)
      return payload.map fun p => (c, claimId, p)) := by
  simp [lookupClaim, h]

theorem ack_looksUp {r : Raw} {c claimId : String} (h : parseReceipt r = some (c, claimId)) :
    LooksUp c claimId (Operation.ack r : Operation Bytes).program := by
  simp only [Operation.program, RedisTransport.ack, lookupClaim_of_parse h]
  exact .inr ⟨_, rfl, rfl, fun _ => rfl⟩

theorem nack_looksUp {r : Raw} {requeue : Bool} {c claimId : String}
    (h : parseReceipt r = some (c, claimId)) :
    LooksUp c claimId (Operation.nack r requeue : Operation Bytes).program := by
  simp only [Operation.program, nack, lookupClaim_of_parse h]
  exact .inr ⟨_, rfl, rfl, fun _ => rfl⟩

/-- What has been carried out stays in the history. -/
theorem settled_step {c claimId : String} (h : (world Bytes).Step P m P')
    (hs : P.shared.settled c claimId) : P'.shared.settled c claimId := by
  rcases h.shared with ⟨p, -, he⟩ | ⟨i, log, o, k, r, -, -, ha⟩
  · exact he ▸ hs
  · generalize P'.shared = s' at ha
    cases ha with
    | replied | lost => exact Server.settled_apply.mpr (.inl hs)
    | failed | uuid4 | now | nowFn => exact hs

/-- A client that acknowledges a settled claim looks it up, finds nothing, and is done. -/
theorem looksUp_step {c claimId : String} {n : Nat} {T : Thread (Requests Bytes) Unit}
    (h : (world Bytes).Step P m P') (hinv : (watch Bytes).Invariant Tracked Known Apart P)
    (hs : P.shared.settled c claimId) (hn : P.threads[n]? = some T) (hT : LooksUp c claimId T.rest) :
    (∃ T', P'.threads[n]? = some T' ∧ LooksUp c claimId T'.rest) ∧
      ∀ e, m = .call n e → P'.shared.keys = P.shared.keys := by
  have hnone := (hinv.shared.settled c claimId hs).2
  cases h with
  | start hp =>
    have hlt := (List.getElem?_eq_some_iff.mp hn).1
    refine ⟨⟨T, ?_, hT⟩, nofun⟩
    simpa [List.getElem?_append_left hlt] using hn
  | @call i log o k r s' hi ha =>
    by_cases hin : i = n
    · subst hin
      have hlt := (List.getElem?_eq_some_iff.mp hi).1
      rw [hi] at hn
      cases hn
      rcases hT with hT | ⟨k', hT, hdone, herror⟩
      · cases hT
      · cases hT
        refine ⟨⟨_, List.getElem?_set_self hlt, .inl ?_⟩, ?_⟩
        · cases ha with
          | replied => exact (congrArg (fun p => k' (.ok p)) hnone).trans hdone
          | lost | failed => exact herror _
        · intro _ _
          cases ha with
          | replied | lost => exact keys_apply_of_reads rfl
          | failed => rfl
    · refine ⟨⟨T, ?_, hT⟩, ?_⟩
      · simpa [List.getElem?_set_ne hin] using hn
      · rintro e ⟨⟩
        exact absurd rfl hin

theorem looksUp_run {c claimId : String} {n : Nat} {T : Thread (Requests Bytes) Unit}
    (h : Path (world Bytes).Step P ms P') (hinv : (watch Bytes).Invariant Tracked Known Apart P)
    (hs : P.shared.settled c claimId) (hn : P.threads[n]? = some T) (hT : LooksUp c claimId T.rest) :
    ∃ T', P'.threads[n]? = some T' ∧ LooksUp c claimId T'.rest := by
  induction h generalizing T with
  | refl => exact ⟨T, hn, hT⟩
  | head hstep _ ih =>
    obtain ⟨T₁, hn₁, hT₁⟩ := (looksUp_step hstep hinv hs hn hT).1
    exact ih (Watch.invariant_step tracking_local hstep hinv) (settled_step hstep hs) hn₁ hT₁

theorem settled_run {c claimId : String} (h : Path (world Bytes).Step P ms P')
    (hs : P.shared.settled c claimId) : P'.shared.settled c claimId := by
  induction h with
  | refl => exact hs
  | head hstep _ ih => exact ih (settled_step hstep hs)

/-- No client that acknowledges or rejects a claim after it has been settled changes a key. -/
theorem settled_claim_idle {r : Raw} {c claimId : String} {o : Operation Bytes} {requeue : Bool}
    {Q R R' : Clients Bytes} {ms₁ ms₂ : List (Move (Requests Bytes) Unit)} {e : Event (Requests Bytes)}
    (hinv : (watch Bytes).Invariant Tracked Known Apart P) (hr : parseReceipt r = some (c, claimId))
    (hs : P.shared.settled c claimId) (ho : o = .ack r ∨ o = .nack r requeue)
    (h₁ : Path (world Bytes).Step P ms₁ Q) (h₂ : Path (world Bytes).Step (Q.begin o.program) ms₂ R)
    (he : (world Bytes).Step R (.call Q.threads.length e) R') : R'.shared.keys = R.shared.keys := by
  have hstart : (world Bytes).Step Q (.start o.program) (Q.begin o.program) := .start ⟨o, rfl⟩
  have hbegin := tracking_run (h₁.append (.single hstart)) hinv
  have hset := settled_step hstart (settled_run h₁ hs)
  have hthread : (Q.begin o.program).threads[Q.threads.length]? = some ⟨[], o.program⟩ :=
    List.getElem?_concat_length
  have hlooks : LooksUp c claimId o.program := by
    rcases ho with rfl | rfl
    · exact ack_looksUp hr
    · exact nack_looksUp hr
  obtain ⟨T, hT, hlooks⟩ := looksUp_run h₂ hbegin hset hthread hlooks
  exact (looksUp_step he (tracking_run h₂ hbegin) (settled_run h₂ hset) hT hlooks).2 e rfl

/-- In a careful run no crash and no lost reply loses a copy or leaves a claim without its entry, every
entry of a processing list is reported, and a settled receipt is dead. -/
theorem claims_crash_safe (h : Path CarefulStep ⟨.start, []⟩ ms P) :
    (∀ c p, P.shared.waiting c p + P.shared.copies c p + P.shared.settlements c p =
      P.shared.pushes c p) ∧
    (∀ c p, P.shared.indexed c p ≤ P.shared.copies c p) ∧
    (∀ c olderThan n limit, (∀ i u, (P.shared.keys c).index.lookup i = some u → u ≤ olderThan) →
      (P.shared.keys c).index.entries.length ≤ n → (P.shared.keys c).processing.length ≤ limit →
      ∃ stale unclaimed, alone (staleClaims c olderThan n) P.shared = .ok stale ∧
        alone (unclaimedProcessingEntries c limit) P.shared = .ok unclaimed ∧
        ∀ p, P.shared.copies c p ≤ (stale.map (·.payload)).count p + unclaimed.count p) ∧
    ∀ r c claimId requeue (o : Operation Bytes) ms₁ Q ms₂ R e R',
      parseReceipt r = some (c, claimId) → P.shared.settled c claimId →
      o = .ack r ∨ o = .nack r requeue → Path (world Bytes).Step P ms₁ Q →
      Path (world Bytes).Step (Q.begin o.program) ms₂ R →
      (world Bytes).Step R (.call Q.threads.length e) R' → R'.shared.keys = R.shared.keys := by
  have hsafe : Safe P := safe_run h ⟨fun _ _ => le_rfl, fun _ _ => rfl⟩ tracking_start
  have hinv := tracking_run (h.mono fun _ _ _ hs => hs.1) tracking_start
  refine ⟨hsafe.conserved, ?_, ?_, ?_⟩
  · intro c p
    exact le_trans (Nat.le_add_right _ _) (hsafe.covered c p)
  · intro c olderThan n limit hlate hn hlimit
    exact every_copy_reported hlate hn hlimit
  · intro r c claimId requeue o ms₁ Q ms₂ R e R' hr hs ho h₁ h₂ he
    exact settled_claim_idle hinv hr hs ho h₁ h₂ he

/-- Whether a consumer records the payload it holds, or a claim that is still recorded is settled. -/
def orderly (P : Clients Bytes) (i : Nat) : Request Bytes → Bool
  | .redis (.settle c claimId _) => (P.shared.claimed c claimId).isSome
  | .redis (.record _ _ _ _) =>
    P.threads[i]?.all fun T => ((watch Bytes).ghost T).holding.isSome
  | _ => true

theorem orderly_careful (h : TestedStep orderly P m P') : CarefulStep P m P' := by
  obtain ⟨hstep, htest⟩ := h
  refine ⟨hstep, ?_, ?_⟩
  · intro i T c claimId p u ho hT hnone
    obtain ⟨⟨r, rfl⟩, -⟩ := ho
    have := htest i _ r rfl
    simp [orderly, hT, hnone] at this
  · intro i c claimId p ho hnone
    obtain ⟨⟨r, rfl⟩, -⟩ := ho
    have := htest i _ r rfl
    simp [orderly, hnone] at this

end System

section Samples

local instance crashTexts : Texts := .sample

local instance crashSha1 : Sha1 String := ⟨id⟩

/-- A payload is published, consumed and acknowledged; the reply to the settlement is lost. -/
def sampleSettled : List (Act String) :=
  [.start (.publish "q" "p"), .next 0, .start (.consume "q"), .next 1, .next 1, .next 1, .next 1,
    .start (.ack (receipt "q" "x")), .next 2, .lose 2]

theorem claims_crash_safe_settled : ∃ ms P, Path CarefulStep (⟨.start, []⟩ : Clients String) ms P ∧
    P.shared.settled "q" "x" ∧
    (∀ c p, P.shared.waiting c p + P.shared.copies c p + P.shared.settlements c p =
      P.shared.pushes c p) ∧
    ∀ c p, P.shared.indexed c p ≤ P.shared.copies c p := by
  obtain ⟨ms, hms⟩ := perform_path
    (show performs orderly ⟨.start, []⟩ sampleSettled = true by decide)
  have hpath := hms.mono fun _ _ _ hs => orderly_careful hs
  have hsettled : Command.settle "q" "x" "p" ∈
      (perform (⟨.start, []⟩ : Clients String) sampleSettled).shared.history := by decide
  obtain ⟨hconserved, hcovered, -⟩ := claims_crash_safe hpath
  exact ⟨ms, _, hpath, ⟨"p", hsettled⟩, hconserved, hcovered⟩

/-- No receipt is being settled by two clients at once, and no entry is reindexed while its consumer is
between move and claim record. -/
def provided (P : Clients String) (i : Nat) : Request String → Bool
  | .redis (.settle c claimId p) => (P.threads.eraseIdx i).all fun T =>
    match T.rest with
    | .done _ => true
    | .call _ _ => ((watch String).ghost T).found ≠ some (c, claimId, p)
  | .redis (.record c _ p _) => P.threads[i]?.all fun T =>
    ((watch String).ghost T).holding.isSome || inTransit P c p = 0
  | _ => true

def sampleReaper : RedisReaperRunner where
  channels := ["q"]
  deadLetterChannel := "dead"
  channels_ne_nil := by decide
  deadLetterChannel_terminal := by decide

/-- The record of a claim is carried out, but its reply is lost. The claim is looked up to be settled,
and the consumer cleans it up; after two sweeps of a reaper the entry has another claim. -/
def sampleCrash : List (Act String) :=
  [.start (.publish "q" "p"), .next 0, .start (.consume "q"), .next 1, .next 1, .next 1, .lose 1,
    .start (.ack (receipt "q" "x")), .next 2, .next 1,
    .start (.reconcile sampleReaper "q"), .next 3, .next 3, .next 3, .next 3, .next 3,
    .start (.reconcile sampleReaper "q"), .wait 4 30000000, .next 4, .next 4, .next 4, .next 4,
    .next 4, .next 4, .next 4, .next 4, .next 4, .next 2]

/-- The settlement takes the entry away, and the other claim stays behind without one. -/
theorem crash_leaves_claim : ∃ ms P, Path (TestedStep provided) ⟨.start, []⟩ ms P ∧
    P.shared.copies "q" "p" < P.shared.indexed "q" "p" := by
  obtain ⟨ms, hms⟩ := perform_path
    (show performs provided ⟨.start, []⟩ sampleCrash = true by decide)
  exact ⟨ms, _, hms, by decide⟩

end Samples

end Pybus.Redis
