import Pybus.Redis.Sights

/-! Claims are recorded once: a claim id is made up by one client, and what a client has looked up
stays true of the server until the claim is settled. -/
namespace Pybus.Redis

open Interaction Relational

variable {Bytes : Type} [DecidableEq Bytes] [Sha1 Bytes]

/-- What becomes of the payload that a claim is recorded with. -/
def Command.claims (o : Command Bytes) (c claimId : String) (before : Option Bytes) : Option Bytes :=
  match o with
  | .record c' i p _ => if c' = c ∧ i = claimId then some p else before
  | .discard c' i | .settle c' i _ => if c' = c ∧ i = claimId then none else before
  | _ => before

/-- What becomes of a claim's place in the index. -/
def Command.indexes (o : Command Bytes) (c claimId : String) (before : Bool) : Bool :=
  match o with
  | .record c' i _ _ => if c' = c ∧ i = claimId then true else before
  | .settle c' i _ | .zrem c' i => if c' = c ∧ i = claimId then false else before
  | _ => before

namespace Server

variable {s : Server Bytes} {o : Command Bytes} {t : Instant} {c claimId : String} {p : Bytes}

def inIndex (s : Server Bytes) (c claimId : String) : Bool := ((s.keys c).index.lookup claimId).isSome

theorem keys_apply : (s.apply o t).keys c =
    if o.channel = c then ((s.keys c).exec t o).2 else s.keys c := by
  by_cases h : o.channel = c
  · subst h
    simp [apply]
  · simp [apply, h, Function.update_of_ne (Ne.symm h)]

theorem claimed_apply :
    (s.apply o t).claimed c claimId = o.claims c claimId (s.claimed c claimId) := by
  unfold claimed
  rw [keys_apply]
  by_cases h : o.channel = c
  · subst h
    cases o <;> simp only [Command.channel, if_true, Keys.exec, Command.claims, true_and]
    case record => simp [Hash.lookup_insert, apply_ite (Option.map ClaimRecord.payload)]
    case discard => simp [Hash.lookup_erase, apply_ite (Option.map ClaimRecord.payload)]
    case settle => simp [Hash.lookup_erase, apply_ite (Option.map ClaimRecord.payload)]
    case move => split <;> rfl
    case hsetnx => split <;> rfl
  · cases o <;> simp_all [Command.channel, Command.claims]

theorem inIndex_apply :
    (s.apply o t).inIndex c claimId = o.indexes c claimId (s.inIndex c claimId) := by
  unfold inIndex
  rw [keys_apply]
  by_cases h : o.channel = c
  · subst h
    cases o <;> simp only [Command.channel, if_true, Keys.exec, Command.indexes, true_and]
    case record => simp [Hash.lookup_insert, apply_ite Option.isSome]
    case settle => simp [Hash.lookup_erase, apply_ite Option.isSome]
    case zrem => simp [Hash.lookup_erase, apply_ite Option.isSome]
    case move => split <;> rfl
    case hsetnx => split <;> rfl
  · cases o <;> simp_all [Command.channel, Command.indexes]

theorem recorded_apply :
    (s.apply o t).recorded claimId ↔ s.recorded claimId ∨ ∃ c p u, o = .record c claimId p u := by
  simp only [recorded, apply, List.mem_append, List.mem_singleton]
  constructor
  · rintro ⟨c, p, u, h | h⟩
    · exact .inl ⟨c, p, u, h⟩
    · exact .inr ⟨c, p, u, h.symm⟩
  · rintro (⟨c, p, u, h⟩ | ⟨c, p, u, h⟩)
    · exact ⟨c, p, u, .inl h⟩
    · exact ⟨c, p, u, .inr h.symm⟩

theorem settled_apply :
    (s.apply o t).settled c claimId ↔ s.settled c claimId ∨ ∃ p, o = .settle c claimId p := by
  simp only [settled, apply, List.mem_append, List.mem_singleton]
  constructor
  · rintro ⟨p, h | h⟩
    · exact .inl ⟨p, h⟩
    · exact .inr ⟨p, h.symm⟩
  · rintro (⟨p, h⟩ | ⟨p, h⟩)
    · exact ⟨p, .inl h⟩
    · exact ⟨p, .inr h.symm⟩

end Server

/-- What holds of the claims of a server: each was recorded under an id that was made up before, with
a place in the index, and is gone once it has been settled. -/
structure Tracked (s : Server Bytes) : Prop where
  drawn : ∀ i, s.recorded i → i ∈ s.drawn
  claims : ∀ c i, (s.claimed c i).isSome = true → s.recorded i ∧ s.inIndex c i = true
  index : ∀ c i, s.inIndex c i = true → s.recorded i
  settled : ∀ c i, s.settled c i → s.recorded i ∧ s.claimed c i = none

/-- What a client knows is so. -/
structure Known (s : Server Bytes) (g : Sight Bytes) : Prop where
  drawn : ∀ i, g.drawn = some i → i ∈ s.drawn ∧ ¬ s.recorded i
  found : ∀ c i p, g.found = some (c, i, p) → s.recorded i ∧ ∀ q, s.claimed c i = some q → q = p
  listed : ∀ i ∈ g.listed, s.recorded i
  gone : ∀ c i, g.gone = some (c, i) → s.recorded i ∧ s.claimed c i = none
  readings : ∀ reaper u, (reaper, u) ∈ g.readings → u ≤ s.clock

/-- Two clients never hold the same claim id. -/
def Apart (g g' : Sight Bytes) : Prop := ∀ i, g.drawn = some i → g'.drawn ≠ some i

variable {s : Server Bytes} {o : Command Bytes} {t : Instant} {c : String} {p : Bytes}
  {g g' : Sight Bytes}

omit [DecidableEq Bytes] [Sha1 Bytes] in
theorem Tracked.start : Tracked (.start : Server Bytes) := by
  constructor
  · rintro i ⟨c, p, u, h⟩
    cases h
  · intro c i h
    cases h
  · intro c i h
    cases h
  · rintro c i ⟨p, h⟩
    cases h

omit [DecidableEq Bytes] [Sha1 Bytes] in
theorem Tracked.pass (h : Tracked s) : Tracked (s.pass t) := ⟨h.drawn, h.claims, h.index, h.settled⟩

omit [DecidableEq Bytes] [Sha1 Bytes] in
theorem Known.pass (h : Known s g) (ht : s.clock ≤ t) : Known (s.pass t) g :=
  ⟨h.drawn, h.found, h.listed, h.gone, fun reaper u hu => (h.readings reaper u hu).trans ht⟩

theorem Tracked.apply (h : Tracked s) (hp : g.Permits (.redis o)) (hk : Known s g) :
    Tracked (s.apply o t) := by
  have hfresh : ∀ c i p u, o = .record c i p u → ¬ s.recorded i := by
    rintro c i p u rfl
    exact (hk.drawn i hp.1).2
  have hkeeps : ∀ i, s.recorded i → (s.apply o t).recorded i :=
    fun i hi => Server.recorded_apply.mpr (.inl hi)
  constructor
  · intro i hi
    rcases Server.recorded_apply.mp hi with hi | ⟨c, p, u, rfl⟩
    · exact h.drawn i hi
    · exact (hk.drawn i hp.1).1
  · intro c i hi
    rw [Server.claimed_apply] at hi
    rw [Server.inIndex_apply]
    cases o with
    | record c' i' p u =>
      by_cases he : c' = c ∧ i' = i
      · obtain ⟨rfl, rfl⟩ := he
        exact ⟨Server.recorded_apply.mpr (.inr ⟨_, _, _, rfl⟩), by simp [Command.indexes]⟩
      · simp only [Command.claims, he, if_false] at hi
        simp only [Command.indexes, he, if_false]
        exact ⟨hkeeps i (h.claims c i hi).1, (h.claims c i hi).2⟩
    | discard c' i' | settle c' i' _ =>
      by_cases he : c' = c ∧ i' = i
      · simp [Command.claims, he] at hi
      · simp only [Command.claims, he, if_false] at hi
        simp only [Command.indexes, he, if_false]
        exact ⟨hkeeps i (h.claims c i hi).1, (h.claims c i hi).2⟩
    | zrem c' i' =>
      by_cases he : c' = c ∧ i' = i
      · obtain ⟨rfl, rfl⟩ := he
        simp [Command.claims, (hk.gone c' i' hp).2] at hi
      · simp only [Command.indexes, he, if_false]
        exact ⟨hkeeps i (h.claims c i hi).1, (h.claims c i hi).2⟩
    | _ => exact ⟨hkeeps i (h.claims c i hi).1, (h.claims c i hi).2⟩
  · intro c i hi
    rw [Server.inIndex_apply] at hi
    cases o with
    | record c' i' p u =>
      by_cases he : c' = c ∧ i' = i
      · obtain ⟨rfl, rfl⟩ := he
        exact Server.recorded_apply.mpr (.inr ⟨_, _, _, rfl⟩)
      · simp only [Command.indexes, he, if_false] at hi
        exact hkeeps i (h.index c i hi)
    | settle c' i' _ | zrem c' i' =>
      by_cases he : c' = c ∧ i' = i
      · simp [Command.indexes, he] at hi
      · simp only [Command.indexes, he, if_false] at hi
        exact hkeeps i (h.index c i hi)
    | _ => exact hkeeps i (h.index c i hi)
  · intro c i hi
    rw [Server.claimed_apply]
    rcases Server.settled_apply.mp hi with hi | ⟨p, rfl⟩
    · obtain ⟨hrec, hnone⟩ := h.settled c i hi
      refine ⟨hkeeps i hrec, ?_⟩
      cases o with
      | record c' i' p u =>
        have hne : ¬ (c' = c ∧ i' = i) := fun he => hfresh c' i' p u rfl (he.2 ▸ hrec)
        simp [Command.claims, hne, hnone]
      | _ => simp [Command.claims, hnone]
    · exact ⟨hkeeps i (hk.found c i p hp).1, by simp [Command.claims]⟩

/-- A command of another client leaves what a client knows. -/
theorem Known.after (h : Known s g)
    (hd : ∀ c i p u, o = .record c i p u → ¬ s.recorded i ∧ g.drawn ≠ some i) (ht : s.clock ≤ t) :
    Known (s.apply o t) g := by
  have hkeeps : ∀ i, s.recorded i → (s.apply o t).recorded i :=
    fun i hi => Server.recorded_apply.mpr (.inl hi)
  have hclaimed : ∀ c i q, s.recorded i → (s.apply o t).claimed c i = some q →
      s.claimed c i = some q := by
    intro c i q hrec hq
    rw [Server.claimed_apply] at hq
    cases o with
    | record c' i' p u =>
      have hne : ¬ (c' = c ∧ i' = i) := fun he => (hd c' i' p u rfl).1 (he.2 ▸ hrec)
      simpa [Command.claims, hne] using hq
    | discard c' i' | settle c' i' _ =>
      by_cases he : c' = c ∧ i' = i
      · simp [Command.claims, he] at hq
      · simpa [Command.claims, he] using hq
    | _ => exact hq
  constructor
  · intro i hi
    obtain ⟨hdrawn, hnot⟩ := h.drawn i hi
    refine ⟨hdrawn, ?_⟩
    intro hrec
    rcases Server.recorded_apply.mp hrec with hrec | ⟨c, p, u, rfl⟩
    · exact hnot hrec
    · exact (hd c i p u rfl).2 hi
  · intro c i p hf
    obtain ⟨hrec, hq⟩ := h.found c i p hf
    exact ⟨hkeeps i hrec, fun q hc => hq q (hclaimed c i q hrec hc)⟩
  · exact fun i hi => hkeeps i (h.listed i hi)
  · intro c i hg
    obtain ⟨hrec, hnone⟩ := h.gone c i hg
    refine ⟨hkeeps i hrec, ?_⟩
    cases hq : (s.apply o t).claimed c i with
    | none => rfl
    | some q =>
      rw [hclaimed c i q hrec hq] at hnone
      cases hnone
  · exact fun reaper u hu => (h.readings reaper u hu).trans ht

omit [DecidableEq Bytes] [Sha1 Bytes] in
theorem mem_members {k : Keys Bytes} {max : Option Instant} {i : String} :
    i ∈ k.members max ↔ ∃ u, k.index.lookup i = some u ∧ max.all (u ≤ ·) = true := by
  simp only [Keys.members, List.mem_map, List.mem_insertionSort, List.mem_filter]
  constructor
  · rintro ⟨⟨j, u⟩, ⟨hmem, hmax⟩, rfl⟩
    exact ⟨u, Hash.mem_entries.mp hmem, hmax⟩
  · rintro ⟨u, hu, hmax⟩
    exact ⟨⟨i, u⟩, ⟨Hash.mem_entries.mpr hu, hmax⟩, rfl⟩

/-- The reply to its own command tells a client what is so. -/
theorem Known.own (h : Known s g) (hi : Tracked s) (hp : g.Permits (.redis o)) (ht : s.clock ≤ t)
    {r : Except Interruption o.Result} (hr : ∀ a, r = .ok a → a = s.reply o t) :
    Known (s.apply o t) (g.next (.redis o) r) := by
  have hk : (∀ c i p u, o ≠ .record c i p u) → Known (s.apply o t) g :=
    fun hne => h.after (fun c i p u he => absurd he (hne c i p u)) ht
  cases o with
  | record c i p u =>
    have hfresh : ¬ s.recorded i := (h.drawn i hp.1).2
    have hcleared : Known s { g with holding := none, drawn := none, won := none } :=
      ⟨(fun _ he => by cases he), h.found, h.listed, h.gone, h.readings⟩
    refine hcleared.after ?_ ht
    rintro c' i' p' u' ⟨⟩
    exact ⟨hfresh, fun he => by cases he⟩
  | payloadOf c i =>
    have hk := hk fun _ _ _ _ he => by cases he
    rcases r with e | _ | p
    · exact hk
    · have hnone : s.claimed c i = none := (hr none rfl).symm
      simp only [Sight.next]
      split
      · rename_i hlisted
        refine ⟨hk.drawn, hk.found, hk.listed, ?_, hk.readings⟩
        rintro c' i' ⟨⟩
        exact ⟨hk.listed i hlisted, Server.claimed_apply.trans hnone⟩
      · exact hk
    · have hsome : s.claimed c i = some p := (hr (some p) rfl).symm
      refine ⟨hk.drawn, ?_, hk.listed, hk.gone, hk.readings⟩
      rintro c' i' p' ⟨⟩
      have hrec := (hi.claims c i (by simp [hsome])).1
      refine ⟨Server.recorded_apply.mpr (.inl hrec), ?_⟩
      intro q hq
      rw [Server.claimed_apply] at hq
      exact (Option.some.inj (hsome.symm.trans hq)).symm
  | zrangebyscore c max num =>
    have hk := hk fun _ _ _ _ he => by cases he
    rcases r with e | ids
    · exact hk
    · refine ⟨hk.drawn, hk.found, ?_, hk.gone, hk.readings⟩
      intro i hmem
      obtain rfl : ids = _ := hr ids rfl
      have hmember : i ∈ (s.keys c).members max := by
        cases num with
        | none => exact hmem
        | some n => exact List.mem_of_mem_take hmem
      obtain ⟨u, hu, -⟩ := mem_members.mp hmember
      exact Server.recorded_apply.mpr (.inl (hi.index c i (by simp [Server.inIndex, hu])))
  | move c =>
    have hk := hk fun _ _ _ _ he => by cases he
    rcases r with e | _ | m
    · exact hk
    · exact hk
    · exact ⟨hk.drawn, hk.found, hk.listed, hk.gone, hk.readings⟩
  | hsetnx c digest u =>
    have hk := hk fun _ _ _ _ he => by cases he
    exact ⟨hk.drawn, hk.found, hk.listed, hk.gone, hk.readings⟩
  | hget c digest =>
    have hk := hk fun _ _ _ _ he => by cases he
    rcases r with e | _ | u
    · exact hk
    · exact hk
    · exact ⟨hk.drawn, hk.found, hk.listed, hk.gone, hk.readings⟩
  | hdel c digest =>
    have hk := hk fun _ _ _ _ he => by cases he
    rcases r with e | _ | _
    · exact hk
    · exact hk
    · exact ⟨hk.drawn, hk.found, hk.listed, hk.gone, hk.readings⟩
  | _ => exact hk fun _ _ _ _ he => by cases he

omit [DecidableEq Bytes] [Sha1 Bytes] in
theorem Known.failed (h : Known s g) (ht : s.clock ≤ t) {e : Interruption} :
    Known (s.pass t) (g.next (.redis o) (.error e)) := by
  have hk := h.pass ht
  cases o with
  | record c i p u => exact ⟨(fun _ he => by cases he), hk.found, hk.listed, hk.gone, hk.readings⟩
  | hsetnx c digest u => exact ⟨hk.drawn, hk.found, hk.listed, hk.gone, hk.readings⟩
  | _ => exact hk

omit [DecidableEq Bytes] [Sha1 Bytes] in
/-- A command makes up no claim id. -/
theorem Sight.next_drawn {r : Except Interruption o.Result} :
    (g.next (.redis o) r).drawn = g.drawn ∨ (g.next (.redis o) r).drawn = none := by
  cases o with
  | record => exact .inr rfl
  | payloadOf c i =>
    left
    rcases r with e | _ | p
    · rfl
    · simp only [Sight.next]
      split <;> rfl
    · rfl
  | move | hget => rcases r with e | _ | m <;> exact .inl rfl
  | hdel => rcases r with e | _ | _ <;> exact .inl rfl
  | zrangebyscore => rcases r with e | _ <;> exact .inl rfl
  | _ => exact .inl rfl

section Local

variable [Texts]

theorem tracking_local : (watch Bytes).Local Tracked Known Apart where
  symm g g' h i hi hi' := h i hi' hi
  start s h := ⟨fun _ he => (by cases he), fun _ _ _ he => (by cases he), fun _ he => (by cases he),
    fun _ _ he => (by cases he), fun _ _ he => (by cases he)⟩
  alone g i hi := by cases hi
  shared s o r s' g hi ha hp hk := by
    cases ha with
    | replied | lost => exact hi.apply hp hk
    | failed | now | nowFn => exact hi.pass
    | uuid4 _ _ => exact ⟨fun i h => .tail _ (hi.drawn i h), hi.claims, hi.index, hi.settled⟩
  own s o r s' g hi ha hp hk := by
    cases ha with
    | replied ht => exact hk.own hi hp ht fun a he => (Except.ok.inj he).symm
    | lost ht => exact hk.own hi hp ht fun a he => by cases he
    | failed ht => exact hk.failed ht
    | @uuid4 t claimId ht hfresh =>
      have hp := hk.pass ht
      refine ⟨?_, hp.found, hp.listed, hp.gone, hp.readings⟩
      rintro i ⟨⟩
      exact ⟨List.mem_cons_self, fun hrec => hfresh (hi.drawn _ hrec)⟩
    | now ht => exact hk.pass ht
    | nowFn ht =>
      have hp := hk.pass ht
      refine ⟨hp.drawn, hp.found, hp.listed, hp.gone, ?_⟩
      intro reaper u hu
      rcases List.mem_cons.mp hu with he | hu
      · cases he
        exact le_rfl
      · exact hp.readings reaper u hu
  other s o r s' g g' hi ha hp hk hk' hd := by
    cases ha with
    | replied ht | lost ht =>
      refine hk'.after ?_ ht
      rintro c i p u rfl
      exact ⟨(hk.drawn i hp.1).2, hd i hp.1⟩
    | failed ht | now ht | nowFn ht => exact hk'.pass ht
    | uuid4 ht hfresh =>
      have hp := hk'.pass ht
      exact ⟨fun i hi => ⟨.tail _ (hp.drawn i hi).1, (hp.drawn i hi).2⟩, hp.found, hp.listed,
        hp.gone, hp.readings⟩
  apart s o r s' g g' hi ha hp hk hk' hd := by
    cases o with
    | redis o =>
      intro i hi
      rcases Sight.next_drawn (g := g) (r := r) with he | he
      · exact hd i (he.symm.trans hi)
      · cases he.symm.trans hi
    | uuid4 =>
      intro i hi hi'
      cases hi
      cases ha with
      | uuid4 ht hfresh => exact hfresh (hk'.drawn _ hi').1
    | now | nowFn => exact hd

variable {P P' : Clients Bytes} {ms : List (Move (Requests Bytes) Unit)}

theorem tracking_start : (watch Bytes).Invariant Tracked Known Apart (⟨.start, []⟩ : Clients Bytes) :=
  Watch.invariant_start ⟨rfl, rfl⟩ .start

theorem tracking_run (h : Path (world Bytes).Step P ms P')
    (hinv : (watch Bytes).Invariant Tracked Known Apart P) :
    (watch Bytes).Invariant Tracked Known Apart P' :=
  h.invariant (fun _ _ _ hs => Watch.invariant_step tracking_local hs) hinv

end Local

end Pybus.Redis
