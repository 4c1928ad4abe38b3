import Pybus.Redis.Clients

/-! What a client knows from the replies to its own requests, and what it may ask for next. -/
namespace Pybus.Redis

open Interaction Relational RedisTransport Client

variable {Bytes : Type} [DecidableEq Bytes] [Sha1 Bytes]

/-- What a client has got hold of: a payload it has moved and not yet recorded a claim for, a claim id
it has made up, a claim it has looked up, the ids that the index has listed, one of them that has no
claim, the clocks of reapers, and the candidate marker that it has read, and then removed. -/
structure Sight (Bytes : Type) where
  holding : Option (String × Moved Bytes) := none
  drawn : Option String := none
  found : Option (String × String × Bytes) := none
  listed : List String := []
  gone : Option (String × String) := none
  readings : List (RedisReaperRunner × Instant) := []
  seen : Option (String × String × Instant) := none
  won : Option (String × String × Instant) := none

namespace Sight

/-- The client may reindex: it has removed a marker that was old enough for its reaper. -/
def Confirmed (g : Sight Bytes) (c : String) (p : Bytes) : Prop :=
  ∃ reaper now seenAt, (reaper, now) ∈ g.readings ∧ g.won = some (c, Sha1.hexdigest p, seenAt) ∧
    reaper.policy.orphanConfirmationDelay ≤ now - seenAt

def next (g : Sight Bytes) : (o : Request Bytes) → o.Answer → Sight Bytes
  | .redis (.move c), .ok (some m) => { g with holding := some (c, m) }
  | .redis (.record _ _ _ _), _ => { g with holding := none, drawn := none, won := none }
  | .redis (.payloadOf c claimId), .ok (some p) => { g with found := some (c, claimId, p) }
  | .redis (.payloadOf c claimId), .ok none =>
    if claimId ∈ g.listed then { g with gone := some (c, claimId) } else g
  | .redis (.zrangebyscore _ _ _), .ok claimIds => { g with listed := claimIds }
  | .redis (.hsetnx _ _ _), _ => { g with seen := none, won := none }
  | .redis (.hget c digest), .ok (some seenAt) => { g with seen := some (c, digest, seenAt) }
  | .redis (.hdel _ _), .ok true => { g with won := g.seen }
  | .uuid4, claimId => { g with drawn := some claimId }
  | .nowFn reaper, t => { g with readings := (reaper, t) :: g.readings }
  | _, _ => g

def Permits (g : Sight Bytes) : Request Bytes → Prop
  | .redis (.move _) => g.holding = none
  | .redis (.record c claimId p _) => g.drawn = some claimId ∧
    ((∃ m, g.holding = some (c, m) ∧ m.payload = p) ∨ (g.holding = none ∧ g.Confirmed c p))
  | .redis (.settle c claimId p) => g.found = some (c, claimId, p)
  | .redis (.zrem c claimId) => g.gone = some (c, claimId)
  | .redis (.hsetnx _ _ t) => ∃ reaper, (reaper, t) ∈ g.readings
  | .redis (.hdel c digest) => ∃ reaper now seenAt, (reaper, now) ∈ g.readings ∧
    g.seen = some (c, digest, seenAt) ∧ reaper.policy.orphanConfirmationDelay ≤ now - seenAt
  | _ => True

end Sight

/-- The monitor that follows what a client knows. -/
def sight (Bytes : Type) [DecidableEq Bytes] [Sha1 Bytes] : Monitor (Requests Bytes) (Sight Bytes) where
  permits := Sight.Permits
  assumes _ _ _ := True
  next := Sight.next

section Meets

variable {α β : Type} {g : Sight Bytes} {Q : Sight Bytes → Unit → Except Interruption α → Prop}

theorem meets_redis {c : Command Bytes}
    {Q : Sight Bytes → Unit → Except Interruption c.Result → Prop} (hp : g.Permits (.redis c))
    (hQ : ∀ r, Q (g.next (.redis c) r) () r) : (redis c).Meets (sight Bytes) Q g () :=
  ⟨hp, fun r _ => hQ r⟩

theorem meets_request_bind {o : Request Bytes} {f : o.Answer → Client Bytes α}
    (hp : g.Permits o) (hf : ∀ r, (f r).Meets (sight Bytes) Q (g.next o r) ()) :
    (request o >>= f).Meets (sight Bytes) Q g () :=
  ⟨hp, fun r _ => hf r⟩

theorem meets_redis_bind {c : Command Bytes} {f : c.Result → Client Bytes α}
    (hp : g.Permits (.redis c))
    (hf : ∀ a, (f a).Meets (sight Bytes) Q (g.next (.redis c) (.ok a)) ())
    (he : ∀ e, Q (g.next (.redis c) (.error e)) () (.error e)) :
    (redis c >>= f).Meets (sight Bytes) Q g () := by
  refine Routine.meets_bind.mpr (meets_redis hp ?_)
  intro r
  cases r with
  | ok a => exact hf a
  | error e => exact he e

theorem meets_catching {p : Client Bytes α} {handler : Exc → Client Bytes α}
    {R : Sight Bytes → Unit → Except Interruption α → Prop} (hp : p.Meets (sight Bytes) R g ())
    (ok : ∀ g' a, R g' () (.ok a) → Q g' () (.ok a))
    (raised : ∀ g' exc, R g' () (.error (.raised exc)) → (handler exc).Meets (sight Bytes) Q g' ())
    (crashed : ∀ g', R g' () (.error .crashed) → Q g' () (.error .crashed)) :
    (catching p handler).Meets (sight Bytes) Q g () := by
  refine Routine.Meets.tryCatch hp (fun g' _ => ok g') ?_
  intro g' _ e he
  cases e with
  | raised exc => exact raised g' exc he
  | crashed => exact crashed g' he

/-- The client has nothing in hand any more; its clocks are as before. -/
def Sight.Keeps (g g' : Sight Bytes) : Prop := g'.holding = none ∧ g'.readings = g.readings

theorem cleanupFailedClaimAttempt_meets {c claimId : String} :
    (cleanupFailedClaimAttempt c claimId).Meets (sight Bytes) (fun g' _ _ => g' = g) g () := by
  refine meets_catching (R := fun g' _ _ => g' = g) ?_ (fun _ _ h => h) (fun _ _ h => h)
    (fun _ h => h)
  exact meets_redis (c := .discard c claimId) trivial fun _ => rfl

/-- The move of a payload into the processing list. -/
theorem moved_meets {c message : String} (h : g.holding = none) :
    (catching (redis (.move c)) fun _ => raise (.indeterminateDelivery message) :
      Client Bytes (Option (Moved Bytes))).Meets (sight Bytes) (fun g' _ r =>
        match r with
        | .ok (some m) => g'.holding = some (c, m)
        | _ => g'.holding = none) g () := by
  refine meets_catching (R := fun g' _ r => match r with
    | .ok (some m) => g'.holding = some (c, m)
    | _ => g'.holding = none) ?_ (fun _ _ h => h) (fun _ _ h => h) (fun _ h => h)
  refine meets_redis (c := .move c) h ?_
  intro r
  rcases r with e | _ | m
  · exact h
  · exact h
  · rfl

/-- A claim that is looked up is one that the client has found. -/
theorem lookupClaim_meets {r : Raw} : (lookupClaim r).Meets (sight Bytes) (fun g' _ x =>
    ∀ y, x = .ok (some y) → g'.found = some y) g () := by
  unfold lookupClaim
  split
  · intro y hy
    cases hy
  · rename_i c claimId _
    refine meets_redis_bind trivial ?_ ?_
    · intro p y hy
      cases p with
      | none => cases hy
      | some p => cases hy; rfl
    · intro e y hy
      cases hy

/-- Only a claim that the index has listed, and that is not recorded, is taken out of the index. -/
theorem staleMessages_meets {c : String} {claimIds : List String}
    (h : ∀ claimId ∈ claimIds, claimId ∈ g.listed) :
    (staleMessages c claimIds).Meets (sight Bytes) (fun _ _ _ => True) g () := by
  induction claimIds generalizing g with
  | nil => trivial
  | cons claimId claimIds ih =>
    have hrest : ∀ i ∈ claimIds, i ∈ g.listed := fun i hi => h i (List.mem_cons_of_mem _ hi)
    refine meets_redis_bind trivial ?_ (fun _ => trivial)
    intro p
    cases p with
    | none =>
      have hgone : g.next (.redis (.payloadOf c claimId)) (.ok none) =
          { g with gone := some (c, claimId) } := by
        simp [Sight.next, h claimId List.mem_cons_self]
      rw [hgone]
      exact meets_redis_bind rfl (fun _ => ih hrest) fun _ => trivial
    | some p => exact Routine.Meets.bind (ih hrest) (fun _ _ _ _ => trivial) fun _ _ _ _ => trivial

theorem staleClaims_meets {c : String} {olderThan : Instant} {limit : Nat} :
    (staleClaims c olderThan limit).Meets (sight Bytes) (fun _ _ _ => True) g () :=
  meets_redis_bind trivial (fun _ => staleMessages_meets fun _ h => h) fun _ => trivial

theorem unclaimedProcessingEntries_meets {c : String} {limit : Nat} (h : g.holding = none) :
    (unclaimedProcessingEntries c limit).Meets (sight Bytes) (fun g' _ _ => g.Keeps g') g () := by
  refine meets_redis_bind trivial ?_ (fun _ => ⟨h, rfl⟩)
  intro processing
  refine meets_redis_bind trivial ?_ (fun _ => ⟨h, rfl⟩)
  intro indexedClaimIds
  exact meets_redis_bind trivial (fun _ => ⟨h, rfl⟩) fun _ => ⟨h, rfl⟩

variable [Texts]

/-- A client that holds a payload, or may reindex it, records a claim for it. -/
theorem claim_meets {c : String} {p : Bytes} (h : (∃ m, g.holding = some (c, m) ∧ m.payload = p) ∨
    (g.holding = none ∧ g.Confirmed c p)) :
    (claim c p).Meets (sight Bytes) (fun g' _ _ => g.Keeps g') g () := by
  refine meets_request_bind trivial ?_
  intro claimId
  refine meets_request_bind trivial ?_
  intro claimedAt
  refine Routine.Meets.bind (Q := fun g' _ _ => g.Keeps g') ?_ (fun _ _ _ hg => hg)
    (fun _ _ _ hg => hg)
  refine meets_catching (R := fun g' _ _ => g.Keeps g') ?_ (fun _ _ hg => hg) ?_ (fun _ hg => hg)
  · exact meets_redis (c := .record c claimId p claimedAt) ⟨rfl, h⟩ fun _ => ⟨rfl, rfl⟩
  · intro g' exc hg
    refine Routine.Meets.bind cleanupFailedClaimAttempt_meets ?_ ?_
    · rintro _ _ _ rfl
      exact hg
    · rintro _ _ _ rfl
      exact hg

theorem consume_meets {c : String} (h : g.holding = none) :
    (consume c).Meets (sight Bytes) (fun _ _ _ => True) g () := by
  refine (moved_meets h).bind ?_ (fun _ _ _ _ => trivial)
  intro g' _ m hm
  cases m with
  | none => trivial
  | some m => exact (claim_meets (.inl ⟨m, hm, rfl⟩)).bind (fun _ _ _ _ => trivial) fun _ _ _ _ => trivial

theorem consumeMany_meets {c : String} {limit : Nat} (h : g.holding = none) :
    (consumeMany c limit).Meets (sight Bytes) (fun _ _ _ => True) g () := by
  induction limit generalizing g with
  | zero => trivial
  | succ limit ih =>
    refine (moved_meets h).bind ?_ (fun _ _ _ _ => trivial)
    intro g' _ m hm
    cases m with
    | none => trivial
    | some m =>
      refine (claim_meets (.inl ⟨m, hm, rfl⟩)).bind ?_ (fun _ _ _ _ => trivial)
      intro g'' _ _ hg
      exact (ih hg.1).bind (fun _ _ _ _ => trivial) fun _ _ _ _ => trivial

theorem settleClaim_meets {c claimId : String} {p : Bytes} (h : g.found = some (c, claimId, p)) :
    (settleClaim c claimId p).Meets (sight Bytes) (fun _ _ _ => True) g () := by
  refine meets_catching (R := fun _ _ _ => True) ?_ (fun _ _ _ => trivial) (fun _ _ _ => trivial)
    (fun _ _ => trivial)
  exact meets_redis (c := .settle c claimId p) h fun _ => trivial

theorem ack_meets {r : Raw} : (ack r).Meets (sight Bytes) (fun _ _ _ => True) g () := by
  refine lookupClaim_meets.bind ?_ (fun _ _ _ _ => trivial)
  intro g' _ x hx
  cases x with
  | none => trivial
  | some x => exact settleClaim_meets (hx _ rfl)

theorem nack_meets {r : Raw} {requeue : Bool} :
    (nack r requeue).Meets (sight Bytes) (fun _ _ _ => True) g () := by
  refine lookupClaim_meets.bind ?_ (fun _ _ _ _ => trivial)
  intro g' _ x hx
  cases x with
  | none => trivial
  | some x =>
    have hfound := hx _ rfl
    cases requeue with
    | false => exact settleClaim_meets hfound
    | true =>
      refine Routine.Meets.bind (Q := fun g'' _ _ => g''.found = some x) ?_
        (fun _ _ _ h => settleClaim_meets h) (fun _ _ _ _ => trivial)
      refine meets_catching (R := fun g'' _ _ => g''.found = some x) ?_ (fun _ _ h => h)
        (fun _ _ h => h) (fun _ h => h)
      exact meets_redis (c := .lpush x.1 x.2.2) trivial fun _ => hfound

/-- A sweep reindexes only after it has removed a marker that is old enough. -/
theorem reconcileEntry_meets {c : String} {now : Instant} {reaper : RedisReaperRunner} {p : Bytes}
    (hr : (reaper, now) ∈ g.readings) (h : g.holding = none) :
    (reconcileEntry c now reaper.policy.orphanConfirmationDelay p).Meets (sight Bytes)
      (fun g' _ _ => g.Keeps g') g () := by
  refine meets_redis_bind ⟨reaper, hr⟩ ?_ (fun _ => ⟨h, rfl⟩)
  intro first
  cases first with
  | true => exact ⟨h, rfl⟩
  | false =>
    refine meets_redis_bind trivial ?_ (fun _ => ⟨h, rfl⟩)
    intro recorded
    cases recorded with
    | none => exact ⟨h, rfl⟩
    | some seenAt =>
      simp only
      split
      · exact ⟨h, rfl⟩
      · rename_i hold
        have hdelay : reaper.policy.orphanConfirmationDelay ≤ now - seenAt := not_lt.mp hold
        refine Routine.Meets.bind (Q := fun g' _ r => g.Keeps g' ∧
          (r = .ok true → g'.won = some (c, Sha1.hexdigest p, seenAt))) ?_ ?_
          fun _ _ _ hg => hg.1
        · refine meets_catching (R := fun g' _ r => g.Keeps g' ∧
            (r = .ok true → g'.won = some (c, Sha1.hexdigest p, seenAt))) ?_ (fun _ _ hg => hg)
            (fun _ _ hg => ⟨hg.1, fun hf => by cases hf⟩) fun _ hg => hg
          refine meets_redis (c := .hdel c (Sha1.hexdigest p))
            ⟨reaper, now, seenAt, hr, rfl, hdelay⟩ ?_
          intro r
          rcases r with e | _ | _
          · exact ⟨⟨h, rfl⟩, fun hf => by cases hf⟩
          · exact ⟨⟨h, rfl⟩, fun hf => by cases hf⟩
          · exact ⟨⟨h, rfl⟩, fun _ => rfl⟩
        · intro g' _ won hg
          obtain ⟨⟨hnone, hreadings⟩, hwon⟩ := hg
          cases won with
          | false => exact ⟨hnone, hreadings⟩
          | true =>
            have hconfirmed : g'.Confirmed c p :=
              ⟨reaper, now, seenAt, hreadings ▸ hr, hwon rfl, hdelay⟩
            refine (claim_meets (.inr ⟨hnone, hconfirmed⟩)).bind ?_ ?_
            · intro _ _ _ hg'
              exact ⟨hg'.1, hg'.2.trans hreadings⟩
            · intro _ _ _ hg'
              exact ⟨hg'.1, hg'.2.trans hreadings⟩

theorem reconcileEntries_meets {c : String} {now : Instant} {reaper : RedisReaperRunner}
    {payloads : List Bytes} (hr : (reaper, now) ∈ g.readings) (h : g.holding = none) :
    (reconcileEntries c now reaper.policy.orphanConfirmationDelay payloads).Meets (sight Bytes)
      (fun _ _ _ => True) g () := by
  induction payloads generalizing g with
  | nil => trivial
  | cons p payloads ih =>
    refine (reconcileEntry_meets hr h).bind ?_ (fun _ _ _ _ => trivial)
    intro g' _ _ hg
    exact (ih (hg.2 ▸ hr) hg.1).bind (fun _ _ _ _ => trivial) fun _ _ _ _ => trivial

theorem reconcile_meets {c : String} {reaper : RedisReaperRunner} (h : g.holding = none) :
    (reaper.reconcile c).Meets (sight Bytes) (fun _ _ _ => True) g () := by
  refine meets_request_bind trivial ?_
  intro now
  refine Routine.Meets.bind (unclaimedProcessingEntries_meets h) ?_ fun _ _ _ _ => trivial
  intro g' _ payloads hg
  exact reconcileEntries_meets (hg.2 ▸ List.mem_cons_self) hg.1

end Meets

theorem discardResult_meets {α : Type} {p : Client Bytes α} {g : Sight Bytes}
    (h : p.Meets (sight Bytes) (fun _ _ _ => True) g ()) :
    (discardResult p).Meets (sight Bytes) (fun _ _ => True) g := by
  rw [discardResult, Prog.meets_bind]
  exact Prog.Meets.mono h fun _ _ _ => trivial

/-- Whatever a client runs keeps to what it knows. -/
theorem Operation.meets [Texts] {o : Operation Bytes} :
    o.program.Meets (sight Bytes) (fun _ _ => True) {} := by
  cases o with
  | publish c m => exact discardResult_meets (meets_redis (c := .lpush c m) trivial fun _ => trivial)
  | size c => exact discardResult_meets (meets_redis (c := .llen c) trivial fun _ => trivial)
  | consume c => exact discardResult_meets (consume_meets rfl)
  | consumeMany c limit => exact discardResult_meets (consumeMany_meets rfl)
  | ack r => exact discardResult_meets ack_meets
  | nack r requeue => exact discardResult_meets nack_meets
  | staleClaims c olderThan limit => exact discardResult_meets staleClaims_meets
  | unclaimedProcessingEntries c limit =>
    exact discardResult_meets ((unclaimedProcessingEntries_meets rfl).mono fun _ _ _ _ => trivial)
  | reconcile reaper c => exact discardResult_meets (reconcile_meets rfl)

/-- Every client of the server is followed. -/
def watch (Bytes : Type) [DecidableEq Bytes] [Sha1 Bytes] [Texts] :
    Watch (world Bytes) (Sight Bytes) where
  monitor := sight Bytes
  begin := {}
  ends _ _ := True
  starts := by
    intro s p hp
    obtain ⟨o, rfl⟩ := hp
    exact Operation.meets
  answers _ _ _ _ _ _ := trivial

end Pybus.Redis
