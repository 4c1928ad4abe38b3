import Pybus.Redis.Counts
import Pybus.Redis.Schedules

/-! What a client sees that has the server to itself: every entry of the processing list is reported
by `stale_claims` or by `unclaimed_processing_entries`. -/
namespace Pybus.Redis

open Interaction Relational RedisTransport Client

variable {Bytes α β : Type} [DecidableEq Bytes] [Sha1 Bytes]

/-- Run a program on a server that nobody else uses. -/
def solo (s : Server Bytes) : Prog (Requests Bytes) α → α × Server Bytes
  | .done a => (a, s)
  | .call o k => solo (replies s o).2 (k (replies s o).1)

/-- What a method returns or raises on a server that nobody else uses. -/
def alone (p : Client Bytes α) (s : Server Bytes) : Except Interruption α := (solo s (p ())).1.1

variable {s : Server Bytes} {c : String}

theorem solo_bind {p : Prog (Requests Bytes) α} {f : α → Prog (Requests Bytes) β} :
    solo s (p.bind f) = solo (solo s p).2 (f (solo s p).1) := by
  induction p generalizing s with
  | done a => rfl
  | call o k ih => exact ih _

theorem alone_redis {o : Command Bytes} {f : o.Result → Client Bytes α} :
    alone (redis o >>= f) s = alone (f (s.reply o s.clock)) (s.apply o s.clock) := rfl

theorem alone_bind {p : Client Bytes α} {f : α → Client Bytes β} {a : α} (h : alone p s = .ok a) :
    alone (p >>= f) s = alone (f a) (solo s (p ())).2 := by
  have hbind : (p >>= f) () = (p ()).bind _ := rfl
  rw [alone, hbind, solo_bind]
  change (solo s (p ())).1.1 = _ at h
  generalize solo s (p ()) = x at h ⊢
  obtain ⟨⟨r, u⟩, s'⟩ := x
  subst h
  rfl

/-- `stale_claims` reports the claims that are recorded among those the index gave. -/
theorem alone_staleMessages {claimIds : List String} : alone (staleMessages c claimIds) s =
    .ok (claimIds.filterMap fun i => (s.claimed c i).map fun p => ⟨p, receipt c i⟩) := by
  induction claimIds generalizing s with
  | nil => rfl
  | cons i claimIds ih =>
    have hlook : ∀ j, (s.apply (.payloadOf c i) s.clock).claimed c j = s.claimed c j :=
      fun j => Server.claimed_apply
    cases hp : s.claimed c i with
    | none =>
      have hzrem : ∀ j, ((s.apply (.payloadOf c i) s.clock).apply (.zrem c i) s.clock).claimed c j =
          s.claimed c j := fun j => Server.claimed_apply.trans (hlook j)
      have hstep : alone (staleMessages c (i :: claimIds)) s = alone (staleMessages c claimIds)
          ((s.apply (.payloadOf c i) s.clock).apply (.zrem c i) s.clock) := by
        have hreply : s.reply (.payloadOf c i) s.clock = none := hp
        refine (alone_redis (o := .payloadOf c i)).trans ?_
        rw [hreply]
        rfl
      rw [hstep, ih]
      simp only [hzrem, List.filterMap_cons, hp, Option.map_none]
    | some p =>
      have hstep : alone (staleMessages c (i :: claimIds)) s = alone (staleMessages c claimIds >>=
          fun ms => pure (⟨p, receipt c i⟩ :: ms)) (s.apply (.payloadOf c i) s.clock) := by
        have hreply : s.reply (.payloadOf c i) s.clock = some p := hp
        refine (alone_redis (o := .payloadOf c i)).trans ?_
        rw [hreply]
      rw [hstep, alone_bind ih]
      simp only [hlook, List.filterMap_cons, hp, Option.map_some]
      rfl

/-- The claims that `stale_claims` finds in the index. -/
theorem alone_staleClaims {olderThan : Instant} {limit : Nat} :
    alone (staleClaims c olderThan limit) s =
      .ok ((((s.keys c).members (some olderThan)).take limit).filterMap fun i =>
        (s.claimed c i).map fun p => ⟨p, receipt c i⟩) := by
  have hsame : ∀ j, (s.apply (.zrangebyscore c (some olderThan) (some limit)) s.clock).claimed c j =
      s.claimed c j := fun j => Server.claimed_apply
  have hstep : alone (staleClaims c olderThan limit) s =
      alone (staleMessages c (((s.keys c).members (some olderThan)).take limit))
        (s.apply (.zrangebyscore c (some olderThan) (some limit)) s.clock) := rfl
  rw [hstep, alone_staleMessages]
  simp only [hsame]

omit [Sha1 Bytes] in
theorem count_uncovered {n : Bytes → Nat} {ps : List Bytes} {p : Bytes} :
    (uncovered n ps).count p = ps.count p - n p := by
  induction ps generalizing n with
  | nil => simp [uncovered]
  | cons q ps ih =>
    simp only [uncovered]
    split
    · rename_i hpos
      rw [ih]
      by_cases hq : q = p
      · subst hq
        simp only [Function.update_self, List.count_cons_self]
        omega
      · simp [Function.update_of_ne (Ne.symm hq), hq]
    · rename_i hzero
      simp only [List.count_cons, ih]
      by_cases hq : q = p
      · subst hq
        simp only [beq_self_eq_true, if_true]
        omega
      · simp [hq]

theorem keys_apply_of_reads {o : Command Bytes} {t : Instant}
    (h : ((s.keys o.channel).exec t o).2 = s.keys o.channel) : (s.apply o t).keys = s.keys := by
  simp [Server.apply, h]

omit [DecidableEq Bytes] [Sha1 Bytes] in
theorem range_of_length {k : Keys Bytes} {limit : Nat} (h : k.processing.length ≤ limit) :
    k.range (limit - 1) = k.processing := by
  unfold Keys.range
  split
  · rename_i hneg
    obtain rfl : limit = 0 := by omega
    have hnil : k.processing = [] := List.length_eq_zero_iff.mp (by omega)
    simp [hnil]
  · exact List.take_of_length_le (by omega)

omit [Sha1 Bytes] in
theorem countP_hgetall {p : Bytes} : ((s.keys c).claims.entries.map fun e => (e.1, e.2.payload)).countP
    (fun x => x.2 = p && x.1 ∈ (s.keys c).members none) = s.indexed c p := by
  rw [List.countP_map]
  refine List.countP_congr ?_
  intro e _
  have hmem : e.1 ∈ (s.keys c).members none ↔ ((s.keys c).index.lookup e.1).isSome = true := by
    rw [mem_members, Option.isSome_iff_exists]
    simp
  simp [hmem]

/-- `unclaimed_processing_entries` reports the entries that no indexed claim covers. -/
theorem alone_unclaimedProcessingEntries {limit : Nat} (h : (s.keys c).processing.length ≤ limit) :
    alone (unclaimedProcessingEntries c limit) s =
      .ok (uncovered (s.indexed c) (s.keys c).processing) := by
  have hrange : (s.apply (.lrange c (limit - 1)) s.clock).keys = s.keys := keys_apply_of_reads rfl
  have hindex : ((s.apply (.lrange c (limit - 1)) s.clock).apply (.zrangebyscore c none none)
      s.clock).keys = s.keys := (keys_apply_of_reads rfl).trans hrange
  have hstep : alone (unclaimedProcessingEntries c limit) s = .ok (uncovered (fun p =>
      ((((s.apply (.lrange c (limit - 1)) s.clock).apply (.zrangebyscore c none none)
        s.clock).keys c).claims.entries.map fun e => (e.1, e.2.payload)).countP fun x =>
          x.2 = p && x.1 ∈ ((s.apply (.lrange c (limit - 1)) s.clock).keys c).members none)
      ((s.keys c).range (limit - 1))) := rfl
  rw [hstep, hindex, hrange, range_of_length h]
  simp only [countP_hgetall]

/-- Every entry of the processing list is reported in one way or the other. -/
theorem every_copy_reported {olderThan : Instant} {n limit : Nat}
    (hlate : ∀ i u, (s.keys c).index.lookup i = some u → u ≤ olderThan)
    (hn : (s.keys c).index.entries.length ≤ n) (hlimit : (s.keys c).processing.length ≤ limit) :
    ∃ stale unclaimed, alone (staleClaims c olderThan n) s = .ok stale ∧
      alone (unclaimedProcessingEntries c limit) s = .ok unclaimed ∧
      ∀ p, s.copies c p ≤ (stale.map (·.payload)).count p + unclaimed.count p := by
  refine ⟨_, _, alone_staleClaims, alone_unclaimedProcessingEntries hlimit, ?_⟩
  intro p
  have hlength : ((s.keys c).members (some olderThan)).length ≤ n := by
    simp only [Keys.members, List.length_map, List.length_insertionSort]
    exact (List.length_filter_le ..).trans hn
  rw [List.take_of_length_le hlength, count_uncovered]
  have hstale : s.indexed c p ≤ ((((s.keys c).members (some olderThan)).filterMap fun i =>
      (s.claimed c i).map fun p => (⟨p, receipt c i⟩ : ReceiptedMessage Bytes)).map
        (·.payload)).count p := by
    have hcount : ((((s.keys c).members (some olderThan)).filterMap fun i =>
        (s.claimed c i).map fun p => (⟨p, receipt c i⟩ : ReceiptedMessage Bytes)).map
          (·.payload)).count p =
        ((s.keys c).members (some olderThan)).countP fun i => s.claimed c i = some p := by
      rw [List.count, List.countP_map, List.countP_filterMap]
      refine List.countP_congr ?_
      intro i _
      cases s.claimed c i <;> simp
    rw [hcount]
    refine Hash.both_le (h := (s.keys c).claims) (p := fun r => r.payload = p) ?_
    intro i r hr hp hin
    obtain ⟨u, hu⟩ := Option.isSome_iff_exists.mp hin
    refine ⟨mem_members.mpr ⟨u, hu, by simpa using hlate i u hu⟩, ?_⟩
    simpa [Server.claimed, hr] using hp
  have : s.copies c p = (s.keys c).processing.count p := rfl
  omega

end Pybus.Redis
