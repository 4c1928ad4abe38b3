import Pybus.Redis.Keyspace

/-! The in-memory transport, and that the Redis transport refines it as long as nothing crashes. -/
namespace Pybus.Redis

open Interaction Relational RedisTransport Client Keyspace

section Names

variable {cs : List String} {key a b s s' : String} {ty ty' : KeyType}

/-- The keys that the transport derives from its channels, with their types. -/
def Named (cs : List String) (key : String) (ty : KeyType) : Prop :=
  ∃ c ∈ cs, ty = .list ∧ (key = c ∨ key = processingKey c) ∨
    ty = .hash ∧ (key = claimsKey c ∨ key = candidatesKey c) ∨ ty = .zset ∧ key = claimsIndexKey c

/-- No channel has the name of a processing list or a claims hash of another. -/
def KeysApart (cs : List String) : Prop :=
  ∀ c ∈ cs, ∀ c' ∈ cs, c ≠ processingKey c' ∧ c ≠ claimsKey c'

/-- No channel has the name of a claims index or a candidates hash of another. -/
def IndexApart (cs : List String) : Prop :=
  ∀ c ∈ cs, ∀ c' ∈ cs, c ≠ claimsIndexKey c' ∧ c ≠ candidatesKey c'

/-- Names with different last letters are different. -/
theorem append_ne (hs : s.toList ≠ []) (hs' : s'.toList ≠ [])
    (hne : s.toList.getLast? ≠ s'.toList.getLast?) : a ++ s ≠ b ++ s' := by
  intro h
  have hlast := congrArg (fun s => s.toList.getLast?) h
  simp only [String.toList_append, List.getLast?_append_of_ne_nil _ hs,
    List.getLast?_append_of_ne_nil _ hs'] at hlast
  exact hne hlast

theorem not_list_hash (hA : KeysApart cs) (hI : IndexApart cs) (h : Named cs key .list)
    (h' : Named cs key .hash) : False := by
  obtain ⟨c, hc, ⟨-, h⟩ | ⟨h, -⟩ | ⟨h, -⟩⟩ := h
  · obtain ⟨c', hc', ⟨h', -⟩ | ⟨-, h'⟩ | ⟨h', -⟩⟩ := h'
    · cases h'
    · rcases h with rfl | rfl <;> rcases h' with h' | h'
      · exact (hA _ hc _ hc').2 h'
      · exact (hI _ hc _ hc').2 h'
      · exact append_ne (by decide) (by decide) (by decide) h'
      · exact append_ne (by decide) (by decide) (by decide) h'
    · cases h'
  · cases h
  · cases h

theorem not_list_zset (hI : IndexApart cs) (h : Named cs key .list) (h' : Named cs key .zset) :
    False := by
  obtain ⟨c, hc, ⟨-, h⟩ | ⟨h, -⟩ | ⟨h, -⟩⟩ := h
  · obtain ⟨c', hc', ⟨h', -⟩ | ⟨h', -⟩ | ⟨-, h'⟩⟩ := h'
    · cases h'
    · cases h'
    · rcases h with rfl | rfl
      · exact (hI _ hc _ hc').1 h'
      · exact append_ne (by decide) (by decide) (by decide) h'
  · cases h
  · cases h

theorem not_hash_zset (h : Named cs key .hash) (h' : Named cs key .zset) : False := by
  obtain ⟨c, hc, ⟨h, -⟩ | ⟨-, h⟩ | ⟨h, -⟩⟩ := h
  · cases h
  · obtain ⟨c', hc', ⟨h', -⟩ | ⟨h', -⟩ | ⟨-, h'⟩⟩ := h'
    · cases h'
    · cases h'
    · rcases h with rfl | rfl
      · exact append_ne (by decide) (by decide) (by decide) h'
      · exact append_ne (by decide) (by decide) (by decide) h'
  · cases h

/-- No key is named for two types. -/
theorem named_functional (hA : KeysApart cs) (hI : IndexApart cs) (key : String) (ty ty' : KeyType)
    (h : Named cs key ty) (h' : Named cs key ty') : ty = ty' := by
  cases ty <;> cases ty'
  · rfl
  · exact (not_list_hash hA hI h h').elim
  · exact (not_list_zset hI h h').elim
  · exact (not_list_hash hA hI h' h).elim
  · rfl
  · exact (not_hash_zset h h').elim
  · exact (not_list_zset hI h' h).elim
  · exact (not_hash_zset h' h).elim
  · rfl

end Names

variable {Bytes : Type} [DecidableEq Bytes] [Sha1 Bytes] [Stamps Bytes] {cs : List String}
  {c k : String} {db : Keyspace Bytes} {t : Instant} {o : Command Bytes}

section Commands

/-- A command on channels that are apart succeeds. -/
theorem exec_safe (hA : KeysApart cs) (hI : IndexApart cs) (hc : o.channel ∈ cs) :
    Keyspace.Safe (Named cs) (exec t o) := by
  have hf := named_functional hA hI
  have hlist : Named cs o.channel .list := ⟨_, hc, .inl ⟨rfl, .inl rfl⟩⟩
  have hprocessing : Named cs (processingKey o.channel) .list := ⟨_, hc, .inl ⟨rfl, .inr rfl⟩⟩
  have hclaims : Named cs (claimsKey o.channel) .hash := ⟨_, hc, .inr (.inl ⟨rfl, .inl rfl⟩)⟩
  have hcandidates : Named cs (candidatesKey o.channel) .hash :=
    ⟨_, hc, .inr (.inl ⟨rfl, .inr rfl⟩)⟩
  have hindex : Named cs (claimsIndexKey o.channel) .zset := ⟨_, hc, .inr (.inr ⟨rfl, rfl⟩)⟩
  cases o with
  | lpush | llen => exact safe_onList hf hlist
  | move => exact (safe_lmove hf hlist hprocessing).map
  | record =>
    refine safe_pipeline (List.forall_mem_cons.mpr ⟨safe_onHash hf hclaims,
      List.forall_mem_cons.mpr ⟨safe_onZset hf hindex, List.forall_mem_cons.mpr
        ⟨(safe_onHash hf hcandidates).map, List.forall_mem_nil _⟩⟩⟩)
  | settle =>
    refine safe_pipeline (List.forall_mem_cons.mpr ⟨safe_onList hf hprocessing,
      List.forall_mem_cons.mpr ⟨(safe_onHash hf hclaims).map, List.forall_mem_cons.mpr
        ⟨safe_onZset hf hindex, List.forall_mem_nil _⟩⟩⟩)
  | discard | hgetall => exact (safe_onHash hf hclaims).map
  | payloadOf => exact safe_onHash hf hclaims
  | zrangebyscore | zrem => exact safe_onZset hf hindex
  | lrange => exact safe_onList hf hprocessing
  | hsetnx | hdel => exact safe_onHash hf hcandidates
  | hget => exact (safe_onHash hf hcandidates).map

/-- When a command is carried out does not matter to the keys. -/
theorem exec_time : (exec t o db).2 = (exec 0 o db).2 := by
  cases o <;> rfl

/-- A command that neither pushes nor moves a message leaves all lists but the processing lists. -/
theorem leaves_exec (hpush : ∀ c p, o ≠ .lpush c p) (hmove : ∀ c, o ≠ .move c)
    (hk : ∀ c, o.channel = c → k ≠ processingKey c) : Leaves k (exec t o : Primitive Bytes o.Result) := by
  have hkey := hk _ rfl
  cases o with
  | lpush c p => exact absurd rfl (hpush c p)
  | move c => exact absurd rfl (hmove c)
  | llen | lrange => exact leaves_reading fun _ => rfl
  | record =>
    exact leaves_pipeline (List.forall_mem_cons.mpr ⟨leaves_onHash,
      List.forall_mem_cons.mpr ⟨leaves_onZset, List.forall_mem_cons.mpr
        ⟨leaves_onHash.map, List.forall_mem_nil _⟩⟩⟩)
  | settle =>
    exact leaves_pipeline (List.forall_mem_cons.mpr ⟨leaves_onList hkey,
      List.forall_mem_cons.mpr ⟨leaves_onHash.map, List.forall_mem_cons.mpr
        ⟨leaves_onZset, List.forall_mem_nil _⟩⟩⟩)
  | discard | hgetall | hget => exact leaves_onHash.map
  | payloadOf | hsetnx | hdel => exact leaves_onHash
  | zrangebyscore | zrem => exact leaves_onZset

end Commands

section Sequential

variable {α β : Type} {Q : Keyspace Bytes → Unit → Except Interruption α → Prop}
  {R : Keyspace Bytes → Unit → Except Interruption β → Prop} {u : Unit}

/-- A client that has the server to itself, whose commands are about some channels and succeed. -/
def sequential (cs : List String) : Monitor (Requests Bytes) (Keyspace Bytes) where
  permits _
    | .redis o => o.channel ∈ cs
    | _ => True
  assumes db
    | .redis o, r => ∃ t a, (exec t o db).1 = .ok a ∧ r = .ok a
    | _, _ => True
  next db
    | .redis o, _ => (exec 0 o db).2
    | _, _ => db

/-- A client that has the server to itself, and whose commands have to succeed. -/
def flawless : Monitor (Requests Bytes) (Keyspace Bytes) where
  permits db
    | .redis o => ∃ a, (exec 0 o db).1 = .ok a
    | _ => True
  assumes db
    | .redis o, r => ∃ t, r = (exec t o db).1.mapError .raised
    | _, _ => True
  next db
    | .redis o, _ => (exec 0 o db).2
    | _, _ => db

/-- On channels that are apart from each other's keys every command succeeds. -/
theorem flawless_of_sequential (hA : KeysApart cs) (hI : IndexApart cs)
    {p : Prog (Requests Bytes) α} {T : Keyspace Bytes → α → Prop} (ht : Typed (Named cs) db)
    (h : p.Meets (sequential cs) T db) : p.Meets flawless T db := by
  induction p generalizing db with
  | done a => exact h
  | call o k ih =>
    cases o with
    | redis o =>
      obtain ⟨hc, hrest⟩ := h
      refine ⟨(exec_safe hA hI hc db ht).1, fun r hr => ?_⟩
      obtain ⟨t, hr⟩ := hr
      obtain ⟨a, ha⟩ := (exec_safe (t := t) hA hI hc db ht).1
      refine ih r (exec_safe hA hI hc db ht).2 (hrest r ⟨t, a, ha, ?_⟩)
      rw [hr, ha]
      rfl
    | uuid4 => exact ⟨trivial, fun r hr => ih r ht (h.2 r hr)⟩
    | now => exact ⟨trivial, fun r hr => ih r ht (h.2 r hr)⟩
    | nowFn => exact ⟨trivial, fun r hr => ih r ht (h.2 r hr)⟩

theorem redis_bind {f : o.Result → Client Bytes β} (hc : o.channel ∈ cs)
    (hf : ∀ t a, (exec t o db).1 = .ok a → (f a).Meets (sequential cs) R (exec t o db).2 u) :
    (redis o >>= f).Meets (sequential cs) R db u := by
  refine ⟨hc, fun r hr => ?_⟩
  obtain ⟨t, a, ha, rfl⟩ := hr
  have hmeets := hf t a ha
  rw [exec_time] at hmeets
  exact hmeets

/-- A handler for a command that succeeds is not run. -/
theorem catching_meets {h : Exc → Client Bytes o.Result}
    {Q : Keyspace Bytes → Unit → Except Interruption o.Result → Prop} (hc : o.channel ∈ cs)
    (hf : ∀ t a, (exec t o db).1 = .ok a → Q (exec t o db).2 u (.ok a)) :
    (catching (redis o) h).Meets (sequential cs) Q db u := by
  refine ⟨hc, fun r hr => ?_⟩
  obtain ⟨t, a, ha, rfl⟩ := hr
  have hmeets := hf t a ha
  rw [exec_time] at hmeets
  exact hmeets

theorem catching_bind {h : Exc → Client Bytes o.Result} {f : o.Result → Client Bytes β}
    (hc : o.channel ∈ cs)
    (hf : ∀ t a, (exec t o db).1 = .ok a → (f a).Meets (sequential cs) R (exec t o db).2 u) :
    (catching (redis o) h >>= f).Meets (sequential cs) R db u :=
  Routine.meets_bind.mpr (catching_meets hc hf)

theorem uuid4_bind {f : String → Client Bytes β} (hf : ∀ i, (f i).Meets (sequential cs) R db u) :
    (request .uuid4 >>= f).Meets (sequential cs) R db u := ⟨trivial, fun r _ => hf r⟩

theorem now_bind {f : Instant → Client Bytes β} (hf : ∀ t, (f t).Meets (sequential cs) R db u) :
    (request .now >>= f).Meets (sequential cs) R db u := ⟨trivial, fun r _ => hf r⟩

end Sequential

/-- What an operation of a transport returns; a claimed message counts as its payload. -/
inductive Returned (Bytes : Type)
  | nothing
  | message (payload : Option Bytes)
  | messages (payloads : List Bytes)
  | size (n : Nat)
  deriving DecidableEq

/-- The operations that both transports have. -/
inductive TransportOp (Bytes : Type)
  | publish (channel : String) (message : Bytes)
  | consume (channel : String)
  | consumeMany (channel : String) (limit : Int)
  | size (channel : String)
  | ack (receipt : Raw)

/-- `MemoryTransport`: a queue for each channel, with its front first. -/
structure MemoryTransport (Bytes : Type) where
  queues : String → List Bytes := fun _ => []

namespace MemoryTransport

variable (m : MemoryTransport Bytes)

def set (channel : String) (queue : List Bytes) : MemoryTransport Bytes where
  queues := Function.update m.queues channel queue

/-- The loop of `consume_many`: the items, and what is left of the queue. -/
def popItems (limit : Int) : List Bytes → List Bytes → List Bytes × List Bytes
  | [], items => (items, [])
  | p :: queue, items =>
    if items.length < limit then popItems limit queue (items ++ [p]) else (items, p :: queue)

/-- Carry out an operation. -/
def apply : TransportOp Bytes → Returned Bytes × MemoryTransport Bytes
  | .publish channel message => (.nothing, m.set channel (m.queues channel ++ [message]))
  | .consume channel =>
    match m.queues channel with
    | [] => (.message none, m)
    | p :: queue => (.message (some p), m.set channel queue)
  | .consumeMany channel limit =>
    let popped := popItems limit (m.queues channel) []
    (.messages popped.1, m.set channel popped.2)
  | .size channel => (.size (m.queues channel).length, m)
  | .ack _ => (.nothing, m)

/-- Carry out operations one after the other. -/
def applyAll : List (TransportOp Bytes) → MemoryTransport Bytes → List (Returned Bytes)
  | [], _ => []
  | op :: ops, m => (m.apply op).1 :: applyAll ops (m.apply op).2

omit [DecidableEq Bytes] [Sha1 Bytes] [Stamps Bytes] in
theorem popItems_eq {limit : Int} {queue items : List Bytes} :
    popItems limit queue items = (items ++ queue.take (limit - items.length).toNat,
      queue.drop (limit - items.length).toNat) := by
  induction queue generalizing items with
  | nil => simp [popItems]
  | cons p queue ih =>
    rw [popItems]
    split
    · rename_i hlt
      have hroom : (limit - items.length).toNat = (limit - (items ++ [p]).length).toNat + 1 := by
        rw [List.length_append, List.length_singleton]
        omega
      rw [ih, hroom]
      simp
    · rename_i hge
      have hfull : (limit - items.length).toNat = 0 := by omega
      rw [hfull]
      simp

omit [DecidableEq Bytes] [Sha1 Bytes] [Stamps Bytes] in
theorem set_self : m.set c (m.queues c) = m := by
  rw [set, Function.update_eq_self]

end MemoryTransport

namespace TransportOp

variable [Texts]

/-- The operation on the Redis transport. `range` of a negative limit is empty. -/
def run : TransportOp Bytes → Client Bytes (Returned Bytes)
  | publish channel message => do
    RedisTransport.publish channel message
    return .nothing
  | consume channel => do
    let m ← RedisTransport.consume channel
    return .message (m.map (·.payload))
  | consumeMany channel limit => do
    let ms ← RedisTransport.consumeMany channel limit.toNat
    return .messages (ms.map (·.payload))
  | size channel => do
    let n ← RedisTransport.size channel
    return .size n
  | ack receipt => do
    RedisTransport.ack receipt
    return .nothing

omit [DecidableEq Bytes] in
def runAll : List (TransportOp Bytes) → Client Bytes (List (Returned Bytes))
  | [] => return []
  | op :: ops => do
    let r ← op.run
    let rs ← runAll ops
    return r :: rs

omit [DecidableEq Bytes] [Sha1 Bytes] [Stamps Bytes] [Texts] in
/-- The operation is about one of the channels, or acks a receipt that names one of them or none. -/
def On (cs : List String) : TransportOp Bytes → Prop
  | publish channel _ | consume channel | consumeMany channel _ | size channel => channel ∈ cs
  | ack receipt => ∀ channel claimId, parseReceipt receipt = some (channel, claimId) → channel ∈ cs

end TransportOp

/-- The lists of the channels hold what the queues hold, with the front at the right end. -/
def Holds (cs : List String) (db : Keyspace Bytes) (m : MemoryTransport Bytes) : Prop :=
  ∀ c ∈ cs, db.items c = (m.queues c).reverse

section Operations

variable [Texts] {m : MemoryTransport Bytes} {u : Unit} {payload : Bytes}

omit [DecidableEq Bytes] [Sha1 Bytes] [Stamps Bytes] [Texts] in
theorem Holds.set {db' : Keyspace Bytes} {queue : List Bytes} (h : Holds cs db m)
    (hc : db'.items c = queue.reverse) (hrest : ∀ k ∈ cs, k ≠ c → db'.items k = db.items k) :
    Holds cs db' (m.set c queue) := by
  intro k hk
  by_cases hkc : k = c
  · subst hkc
    simpa [MemoryTransport.set] using hc
  · rw [hrest k hk hkc, h k hk]
    simp [MemoryTransport.set, Function.update_of_ne hkc]

omit [Texts] in
/-- A command that is no push and no move leaves what the channels hold. -/
theorem Holds.left (h : Holds cs db m) (hA : KeysApart cs) (hc : o.channel ∈ cs)
    (hpush : ∀ c p, o ≠ .lpush c p) (hmove : ∀ c, o ≠ .move c) : Holds cs (exec t o db).2 m := by
  intro k hk
  have hleaves : Leaves k (exec t o : Primitive Bytes o.Result) :=
    leaves_exec hpush hmove fun c ho => by
      subst ho
      exact (hA k hk _ hc).1
  rw [hleaves db, h k hk]

omit [Texts] in
/-- What a move takes is at the front of the queue. -/
theorem move_holds {moved : Option (Moved Bytes)} (h : Holds cs db m) (hA : KeysApart cs)
    (hc : c ∈ cs) (ha : (exec t (.move c) db).1 = .ok moved) :
    moved.map (·.payload) = (m.queues c).head? ∧
      Holds cs (exec t (.move c) db).2 (m.set c (m.queues c).tail) := by
  have hmove : ∃ r, (lmove c (processingKey c) db).1 = .ok r ∧
      r.map (fun p => (⟨p, t⟩ : Moved Bytes)) = moved := by
    have hexec : ((lmove c (processingKey c) db).1.map fun r =>
        r.map fun p => (⟨p, t⟩ : Moved Bytes)) = .ok moved := ha
    cases hr : (lmove c (processingKey c) db).1 with
    | error exc =>
      rw [hr] at hexec
      cases hexec
    | ok r =>
      rw [hr] at hexec
      exact ⟨r, rfl, Except.ok.inj hexec⟩
  obtain ⟨r, hr, rfl⟩ := hmove
  have hitems : ∀ k ∈ cs, r = (db.items c).getLast? ∧ (exec t (.move c) db).2.items k =
      if k = c then (db.items c).dropLast else db.items k :=
    fun k hk => items_lmove hr (hA k hk c hc).1
  constructor
  · rw [(hitems c hc).1, h c hc, List.getLast?_reverse]
    cases (m.queues c).head? <;> rfl
  · refine h.set ?_ fun k hk hne => ?_
    · rw [(hitems c hc).2, if_pos rfl, h c hc, List.dropLast_reverse]
    · rw [(hitems k hk).2, if_neg hne]

/-- A claim returns the payload, and leaves the channels alone. -/
theorem claim_holds (h : Holds cs db m) (hA : KeysApart cs) (hc : c ∈ cs) :
    (claim c payload).Meets (sequential cs) (fun db' _ r => Holds cs db' m ∧
      ∃ message, r = .ok message ∧ message.payload = payload) db u := by
  refine uuid4_bind fun i => now_bind fun t => catching_bind hc fun t' a ha => ?_
  exact ⟨h.left hA hc nofun nofun, _, rfl, rfl⟩

/-- The claims of `consume_many` are the front of the queue. -/
theorem consumeMany_holds {n : Nat} (h : Holds cs db m) (hA : KeysApart cs) (hc : c ∈ cs) :
    (RedisTransport.consumeMany c n).Meets (sequential cs) (fun db' _ r =>
      Holds cs db' (m.set c ((m.queues c).drop n)) ∧
        ∃ messages, r = .ok messages ∧ messages.map (·.payload) = (m.queues c).take n) db u := by
  induction n generalizing db m with
  | zero =>
    refine ⟨h.set (by simpa using h c hc) fun _ _ _ => rfl, [], rfl, rfl⟩
  | succ n ih =>
    refine catching_bind hc fun t moved ha => ?_
    obtain ⟨hfront, hholds⟩ := move_holds h hA hc ha
    cases hq : m.queues c with
    | nil =>
      rw [hq] at hfront hholds
      have hnone : moved = none := by simpa using hfront
      subst hnone
      exact ⟨by simpa using hholds, [], rfl, rfl⟩
    | cons p queue =>
      rw [hq] at hfront hholds
      obtain ⟨⟨p', t'⟩, rfl, hp⟩ : ∃ x, moved = some x ∧ x.payload = p := by simpa using hfront
      obtain rfl : p' = p := hp
      refine Routine.Meets.bind (claim_holds hholds hA hc) ?_ ?_
      · rintro db' _ message ⟨hclaimed, _, hr, hpayload⟩
        cases hr
        refine Routine.Meets.bind (ih hclaimed) ?_ ?_
        · rintro db'' _ messages ⟨hrest, _, hr, hpayloads⟩
          cases hr
          refine ⟨?_, _, rfl, ?_⟩
          · simpa [MemoryTransport.set] using hrest
          · simp [hpayload, hpayloads, MemoryTransport.set]
        · rintro db'' _ e ⟨-, _, hr, -⟩
          cases hr
      · rintro db' _ e ⟨-, _, hr, -⟩
        cases hr

/-- One operation returns what the in-memory transport returns. -/
theorem run_holds {op : TransportOp Bytes} (h : Holds cs db m) (hA : KeysApart cs) (hon : op.On cs) :
    op.run.Meets (sequential cs) (fun db' _ r =>
      Holds cs db' (m.apply op).2 ∧ r = .ok (m.apply op).1) db u := by
  cases op with
  | publish c p =>
    refine redis_bind hon fun t a ha => ⟨?_, rfl⟩
    have hitems : ∀ k, (exec t (.lpush c p) db).2.items k =
        if k = c then p :: db.items c else db.items k := fun k => (items_onList ha).2
    refine h.set ?_ fun k _ hne => ?_
    · rw [hitems, if_pos rfl, h c hon]
      simp
    · rw [hitems, if_neg hne]
  | consume c =>
    refine Routine.Meets.bind (Q := fun db' _ r => Holds cs db' (m.apply (.consume c)).2 ∧
      ∃ message, r = .ok message ∧ .message (message.map (·.payload)) =
        (m.apply (.consume c)).1) ?_ ?_ ?_
    · refine catching_bind hon fun t moved ha => ?_
      obtain ⟨hfront, hholds⟩ := move_holds h hA hon ha
      cases hq : m.queues c with
      | nil =>
        have hnone : moved = none := by simpa [hq] using hfront
        subst hnone
        have hsame : m.set c (m.queues c).tail = m := by
          rw [hq, List.tail_nil, ← hq, MemoryTransport.set_self]
        rw [hsame] at hholds
        simp only [MemoryTransport.apply, hq]
        exact ⟨hholds, none, rfl, rfl⟩
      | cons p queue =>
        rw [hq] at hfront hholds
        obtain ⟨⟨p', t'⟩, rfl, hp⟩ : ∃ x, moved = some x ∧ x.payload = p := by simpa using hfront
        obtain rfl : p' = p := hp
        simp only [MemoryTransport.apply, hq]
        refine Routine.Meets.bind (claim_holds hholds hA hon) ?_ ?_
        · rintro db' _ message ⟨hclaimed, _, hr, hpayload⟩
          cases hr
          exact ⟨hclaimed, _, rfl, by simp [hpayload]⟩
        · rintro db' _ e ⟨-, _, hr, -⟩
          cases hr
    · rintro db' _ message ⟨hholds, _, hr, hret⟩
      cases hr
      exact ⟨hholds, by rw [← hret]⟩
    · rintro db' _ e ⟨-, _, hr, -⟩
      cases hr
  | consumeMany c limit =>
    refine Routine.Meets.bind (consumeMany_holds h hA hon) ?_ ?_
    · rintro db' _ messages ⟨hholds, _, hr, hpayloads⟩
      cases hr
      simp only [MemoryTransport.apply, MemoryTransport.popItems_eq]
      exact ⟨by simpa using hholds, by simp [hpayloads]⟩
    · rintro db' _ e ⟨-, _, hr, -⟩
      cases hr
  | size c =>
    refine redis_bind hon fun t n ha => ⟨h.left hA hon nofun nofun, ?_⟩
    have hn : n = (db.items c).length := (items_onList (k := c) ha).1
    rw [hn, h c hon, List.length_reverse]
    rfl
  | ack receipt =>
    have hlookup : (lookupClaim receipt).Meets (sequential cs) (fun db' _ r => Holds cs db' m ∧
        ∃ found, r = .ok found ∧ ∀ c i p, found = some (c, i, p) → c ∈ cs) db u := by
      unfold lookupClaim
      cases hparse : parseReceipt receipt with
      | none => exact ⟨h, none, rfl, nofun⟩
      | some parsed =>
        obtain ⟨c, i⟩ := parsed
        have hc : c ∈ cs := hon c i hparse
        refine redis_bind hc fun t found ha => ⟨h.left hA hc nofun nofun, _, rfl, ?_⟩
        intro c' i' p' hfound
        obtain ⟨p, -, hp⟩ := Option.map_eq_some_iff.mp hfound
        cases hp
        exact hc
    refine Routine.Meets.bind (Q := fun db' _ r => Holds cs db' m ∧ r = .ok ()) ?_ ?_ ?_
    · refine Routine.Meets.bind hlookup ?_ ?_
      · rintro db' _ found ⟨hholds, _, hr, hmem⟩
        cases hr
        cases found with
        | none => exact ⟨hholds, rfl⟩
        | some found =>
          obtain ⟨c, i, p⟩ := found
          have hc : c ∈ cs := hmem c i p rfl
          exact catching_meets (o := .settle c i p) hc fun t a ha =>
            ⟨hholds.left hA hc nofun nofun, rfl⟩
      · rintro db' _ e ⟨-, _, hr, -⟩
        cases hr
    · rintro db' _ _ ⟨hholds, -⟩
      exact ⟨hholds, rfl⟩
    · rintro db' _ e ⟨-, hr⟩
      cases hr

/-- All operations return what the in-memory transport returns. -/
theorem runAll_holds {ops : List (TransportOp Bytes)} (h : Holds cs db m) (hA : KeysApart cs)
    (hon : ∀ op ∈ ops, op.On cs) : (TransportOp.runAll ops).Meets (sequential cs) (fun _ _ r =>
      r = .ok (MemoryTransport.applyAll ops m)) db u := by
  induction ops generalizing db m with
  | nil => exact rfl
  | cons op ops ih =>
    refine Routine.Meets.bind (run_holds h hA (hon op List.mem_cons_self)) ?_ ?_
    · rintro db' _ r ⟨hholds, hr⟩
      cases hr
      refine Routine.Meets.bind (ih hholds fun op' hop => hon op' (List.mem_cons_of_mem op hop)) ?_ ?_
      · rintro db'' _ rs hrs
        cases hrs
        exact rfl
      · rintro db'' _ e hrs
        cases hrs
    · rintro db' _ e ⟨-, hr⟩
      cases hr

/-- Without crashes the Redis transport refines the in-memory one: as long as the commands succeed,
all operations return the same, and they do succeed if no channel has the name of a claims index or
a candidates hash of another. -/
theorem redis_refines_memory {ops : List (TransportOp Bytes)} (hA : KeysApart cs)
    (hon : ∀ op ∈ ops, op.On cs) :
    (TransportOp.runAll ops).Meets (sequential cs)
      (fun _ _ r => r = .ok (MemoryTransport.applyAll ops {})) Keyspace.empty () ∧
    (IndexApart cs → (TransportOp.runAll ops).Meets flawless
      (fun _ _ r => r = .ok (MemoryTransport.applyAll ops {})) Keyspace.empty ()) := by
  have hempty : Holds cs (Keyspace.empty : Keyspace Bytes) {} := fun c _ => rfl
  have hmeets := runAll_holds (u := ()) hempty hA hon
  refine ⟨hmeets, fun hI => ?_⟩
  have htyped : Typed (Named cs) (Keyspace.empty : Keyspace Bytes) := fun _ _ _ _ hv => nomatch hv
  exact flawless_of_sequential hA hI htyped hmeets

end Operations

section Sample

local instance queueTexts : Texts := .sample

local instance queueSha1 : Sha1 Nat := ⟨fun p => String.ofList (List.replicate p 'a')⟩

local instance queueStamps : Stamps Nat := ⟨Int.toNat, fun p => some (p : Int)⟩

/-- Two messages, a claim on the first, an ack of some claim, and the rest in one go. -/
def queueOps : List (TransportOp Nat) :=
  [.publish "a" 1, .publish "a" 2, .publish "b" 1, .consume "a", .size "a", .ack (receipt "a" "c"),
    .consumeMany "a" 5]

theorem redis_refines_memory_queue : (TransportOp.runAll queueOps).Meets flawless
    (fun _ _ r => r = .ok [.nothing, .nothing, .nothing, .message (some 1), .size 1, .nothing,
      .messages [2]]) Keyspace.empty () := by
  have hA : KeysApart ["a", "b"] := by unfold KeysApart; decide
  have hI : IndexApart ["a", "b"] := by unfold IndexApart; decide
  have hon : ∀ op ∈ queueOps, op.On ["a", "b"] := by
    intro op hop
    simp only [queueOps, List.mem_cons, List.not_mem_nil, or_false] at hop
    rcases hop with rfl | rfl | rfl | rfl | rfl | rfl | rfl
    · exact List.mem_cons_self
    · exact List.mem_cons_self
    · exact List.mem_cons_of_mem _ List.mem_cons_self
    · exact List.mem_cons_self
    · exact List.mem_cons_self
    · intro channel claimId hparse
      cases hparse
      exact List.mem_cons_self
    · exact List.mem_cons_self
  exact (redis_refines_memory hA hon).2 hI

end Sample

end Pybus.Redis
