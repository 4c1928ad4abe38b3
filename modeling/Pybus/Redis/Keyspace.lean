import Pybus.Redis.Unclaimed

/-! One key space for all channels: every key has one value of one type, and a command on a key of
another type fails. -/
namespace Pybus.Redis

open Relational

inductive KeyType
  | list
  | hash
  | zset
  deriving DecidableEq

/-- The value of a key. The left end of a list comes first. -/
inductive Stored (Bytes : Type)
  | list (items : List Bytes)
  | hash (fields : Hash String Bytes)
  | zset (members : Hash String Instant)

namespace Stored

variable {Bytes : Type}

def type : Stored Bytes → KeyType
  | list _ => .list
  | hash _ => .hash
  | zset _ => .zset

def isEmpty : Stored Bytes → Bool
  | list items => items.isEmpty
  | hash fields => fields.entries.isEmpty
  | zset members => members.entries.isEmpty

/-- The items of a list; a value of another type has none. -/
def items : Stored Bytes → List Bytes
  | list items => items
  | _ => []

end Stored

abbrev Keyspace (Bytes : Type) : Type := String → Option (Stored Bytes)

/-- How a moment is written into a hash, and read from there. -/
class Stamps (Bytes : Type) where
  isoformat : Instant → Bytes
  fromisoformat : Bytes → Option Instant

/-- A command on the key space, and its reply. A command that fails changes nothing. -/
abbrev Primitive (Bytes α : Type) : Type := Keyspace Bytes → Except Exc α × Keyspace Bytes

/-- The reply of a command, read in another way. -/
def Primitive.map {Bytes α β : Type} (f : α → β) (p : Primitive Bytes α) : Primitive Bytes β :=
  fun db => ((p db).1.map f, (p db).2)

namespace Keyspace

variable {Bytes α : Type} [DecidableEq Bytes]

def empty : Keyspace Bytes := fun _ => none

/-- Redis keeps no key with an empty value. -/
def put (db : Keyspace Bytes) (key : String) (v : Stored Bytes) : Keyspace Bytes :=
  Function.update db key (if v.isEmpty then none else some v)

def wrongType : Exc := .other "ResponseError"

def onList (key : String) (f : List Bytes → α × List Bytes) : Primitive Bytes α := fun db =>
  match db key with
  | none => (.ok (f []).1, db.put key (.list (f []).2))
  | some (.list l) => (.ok (f l).1, db.put key (.list (f l).2))
  | some _ => (.error wrongType, db)

def onHash (key : String) (f : Hash String Bytes → α × Hash String Bytes) : Primitive Bytes α :=
  fun db =>
    match db key with
    | none => (.ok (f ∅).1, db.put key (.hash (f ∅).2))
    | some (.hash h) => (.ok (f h).1, db.put key (.hash (f h).2))
    | some _ => (.error wrongType, db)

def onZset (key : String) (f : Hash String Instant → α × Hash String Instant) : Primitive Bytes α :=
  fun db =>
    match db key with
    | none => (.ok (f ∅).1, db.put key (.zset (f ∅).2))
    | some (.zset z) => (.ok (f z).1, db.put key (.zset (f z).2))
    | some _ => (.error wrongType, db)

def lpush (key : String) (payload : Bytes) : Primitive Bytes Unit := onList key fun l => ((), payload :: l)

def llen (key : String) : Primitive Bytes Nat := onList key fun l => (l.length, l)

/-- `LRANGE key 0 stop`. -/
def lrange (key : String) (stop : Int) : Primitive Bytes (List Bytes) := onList key fun l =>
  (l.take (if stop < 0 then l.length + stop + 1 else stop + 1).toNat, l)

/-- `LREM key 1 payload`. -/
def lrem (key : String) (payload : Bytes) : Primitive Bytes Unit := onList key fun l => ((), l.erase payload)

/-- `BLMOVE` and `LMOVE`, from the right of one list to the left of another. -/
def lmove (source destination : String) : Primitive Bytes (Option Bytes) := fun db =>
  match onList source (fun l => (l.getLast?, l.dropLast)) db with
  | (.error exc, _) => (.error exc, db)
  | (.ok none, _) => (.ok none, db)
  | (.ok (some payload), db') =>
    match lpush destination payload db' with
    | (.error exc, _) => (.error exc, db)
    | (.ok _, db'') => (.ok (some payload), db'')

def hset (key : String) (fields : List (String × Bytes)) : Primitive Bytes Unit := onHash key fun h =>
  ((), fields.foldl (fun h field => h.insert field.1 field.2) h)

def hsetnx (key field : String) (value : Bytes) : Primitive Bytes Bool := onHash key fun h =>
  match h.lookup field with
  | none => (true, h.insert field value)
  | some _ => (false, h)

def hget (key field : String) : Primitive Bytes (Option Bytes) := onHash key fun h => (h.lookup field, h)

def hgetall (key : String) : Primitive Bytes (List (String × Bytes)) := onHash key fun h =>
  (h.entries.map fun e => (e.1, e.2), h)

/-- `HDEL`, and whether the first of the fields was there. -/
def hdel (key : String) (fields : List String) : Primitive Bytes Bool := onHash key fun h =>
  (fields.head?.any fun field => (h.lookup field).isSome, fields.foldl (fun h field => h.erase field) h)

def zadd (key member : String) (score : Instant) : Primitive Bytes Unit := onZset key fun z =>
  ((), z.insert member score)

def zrem (key member : String) : Primitive Bytes Unit := onZset key fun z => ((), z.erase member)

/-- The members with a score up to `max`, by score and then by member. -/
def zrangebyscore (key : String) (max : Option Instant) (num : Option Nat) :
    Primitive Bytes (List String) := onZset key fun z =>
  let members := ((z.entries.filter fun e => max.all (e.2 ≤ ·)).insertionSort fun a b =>
    a.2 < b.2 ∨ a.2 = b.2 ∧ a.1 ≤ b.1).map (·.1)
  (match num with | none => members | some n => members.take n, z)

/-- `MULTI` and `EXEC`: every command is carried out, also after one that fails. -/
def pipeline : List (Primitive Bytes Unit) → Primitive Bytes Unit
  | [] => fun db => (.ok (), db)
  | p :: ps => fun db =>
    match p db with
    | (.ok _, db') => pipeline ps db'
    | (.error exc, db') => (.error exc, (pipeline ps db').2)

section Items

variable {db db' : Keyspace Bytes} {key k : String} {p : Primitive Bytes α} {a : α}

/-- The items of the list at a key. -/
def items (db : Keyspace Bytes) (key : String) : List Bytes := ((db key).map Stored.items).getD []

omit [DecidableEq Bytes] in
theorem items_put {v : Stored Bytes} :
    (db.put key v).items k = if k = key then v.items else db.items k := by
  by_cases hk : k = key
  · subst hk
    cases v with
    | list l => cases l <;> simp [items, put, Stored.isEmpty, Stored.items]
    | hash h => cases hh : h.entries.isEmpty <;> simp [items, put, Stored.isEmpty, Stored.items, hh]
    | zset z => cases hz : z.entries.isEmpty <;> simp [items, put, Stored.isEmpty, Stored.items, hz]
  · simp [items, put, hk]

omit [DecidableEq Bytes] in
/-- A list command that succeeds does to the items of its key what it says. -/
theorem items_onList {f : List Bytes → α × List Bytes} (h : (onList key f db).1 = .ok a) :
    a = (f (db.items key)).1 ∧
      (onList key f db).2.items k = if k = key then (f (db.items key)).2 else db.items k := by
  unfold onList at h ⊢
  split at h
  · rename_i hkey
    have hitems : db.items key = [] := by simp [items, hkey]
    cases h
    rw [hitems]
    exact ⟨rfl, by simp only [items_put, Stored.items]⟩
  · rename_i l hkey
    have hitems : db.items key = l := by simp [items, hkey, Stored.items]
    cases h
    rw [hitems]
    exact ⟨rfl, by simp only [items_put, Stored.items]⟩
  · cases h

/-- A command that leaves the items of a key as they are, also if it fails. -/
def Leaves (k : String) (p : Primitive Bytes α) : Prop := ∀ db, (p db).2.items k = db.items k

omit [DecidableEq Bytes] in
theorem leaves_onList {f : List Bytes → α × List Bytes} (hk : k ≠ key) : Leaves k (onList key f) := by
  intro db
  unfold onList
  split
  · rw [items_put, if_neg hk]
  · rw [items_put, if_neg hk]
  · rfl

omit [DecidableEq Bytes] in
theorem leaves_onHash {f : Hash String Bytes → α × Hash String Bytes} : Leaves k (onHash key f) := by
  intro db
  unfold onHash
  split
  · rename_i hkey
    have hitems : db.items key = [] := by simp [items, hkey]
    rw [items_put]
    split <;> simp_all [Stored.items]
  · rename_i hkey
    have hitems : db.items key = [] := by simp [items, hkey, Stored.items]
    rw [items_put]
    split <;> simp_all [Stored.items]
  · rfl

omit [DecidableEq Bytes] in
theorem leaves_onZset {f : Hash String Instant → α × Hash String Instant} :
    Leaves k (onZset key f : Primitive Bytes α) := by
  intro db
  unfold onZset
  split
  · rename_i hkey
    have hitems : db.items key = [] := by simp [items, hkey]
    rw [items_put]
    split <;> simp_all [Stored.items]
  · rename_i hkey
    have hitems : db.items key = [] := by simp [items, hkey, Stored.items]
    rw [items_put]
    split <;> simp_all [Stored.items]
  · rfl

omit [DecidableEq Bytes] in
theorem Leaves.map {β : Type} {f : α → β} (h : Leaves k p) : Leaves k (p.map f) := h

omit [DecidableEq Bytes] in
theorem leaves_pipeline {ps : List (Primitive Bytes Unit)} (h : ∀ p ∈ ps, Leaves k p) :
    Leaves k (pipeline ps) := by
  induction ps with
  | nil => exact fun db => rfl
  | cons p ps ih =>
    intro db
    have hrest := ih (fun q hq => h q (List.mem_cons_of_mem p hq)) (p db).2
    rw [h p List.mem_cons_self db] at hrest
    simp only [pipeline]
    split <;> rename_i heq <;> rw [heq] at hrest <;> exact hrest

omit [DecidableEq Bytes] in
theorem leaves_reading {f : List Bytes → α × List Bytes}
    (hf : ∀ l, (f l).2 = l) : Leaves k (onList key f) := by
  intro db
  by_cases hok : ∃ a, (onList key f db).1 = .ok a
  · obtain ⟨a, ha⟩ := hok
    rw [(items_onList ha).2, hf]
    split
    · rename_i hk
      rw [hk]
    · rfl
  · unfold onList at hok ⊢
    split
    · rename_i hkey
      simp [hkey] at hok
    · rename_i hkey
      simp [hkey] at hok
    · rfl

omit [DecidableEq Bytes] in
/-- A move takes the last item of its channel, if there is one. -/
theorem items_lmove {source destination : String} {moved : Option Bytes}
    (h : (lmove source destination db).1 = .ok moved)
    (hk : k ≠ destination) : moved = (db.items source).getLast? ∧
      (lmove source destination db).2.items k =
        if k = source then (db.items source).dropLast else db.items k := by
  unfold lmove at h ⊢
  cases hpop : onList source (fun l => (l.getLast?, l.dropLast)) db with
  | mk r db' =>
    have hitems : ∀ a, r = .ok a → a = (db.items source).getLast? ∧
        ∀ k, db'.items k = if k = source then (db.items source).dropLast else db.items k := by
      intro a ha
      have hr : (onList source (fun l => (l.getLast?, l.dropLast)) db).1 = .ok a := by rw [hpop, ha]
      refine ⟨(items_onList (k := source) hr).1, fun k => ?_⟩
      have hk := (items_onList (k := k) hr).2
      rwa [hpop] at hk
    cases r with
    | error exc => simp only [hpop] at h; cases h
    | ok a =>
      obtain ⟨ha, hleft⟩ := hitems a rfl
      cases a with
      | none =>
        simp only [hpop] at h ⊢
        cases h
        refine ⟨ha, ?_⟩
        have hempty : db.items source = [] := List.getLast?_eq_none_iff.mp ha.symm
        split
        · rename_i hks
          rw [hks, hempty]
          rfl
        · rfl
      | some payload =>
        simp only [hpop] at h ⊢
        cases hpush : lpush destination payload db' with
        | mk r' db'' =>
          have hright : db''.items k = db'.items k := by
            have hleaves := leaves_onList (f := fun l : List Bytes => ((), payload :: l)) hk db'
            rw [lpush] at hpush
            rwa [hpush] at hleaves
          cases r' with
          | error exc => simp only [hpush] at h; cases h
          | ok u =>
            simp only [hpush] at h ⊢
            cases h
            exact ⟨ha, hright.trans (hleft k)⟩

end Items

section Types

variable {db : Keyspace Bytes} {key k : String} {ty : KeyType} {p : Primitive Bytes α}
  {named : String → KeyType → Prop}

/-- Every key that is named for a type has a value of that type, if it has one. -/
def Typed (named : String → KeyType → Prop) (db : Keyspace Bytes) : Prop :=
  ∀ key ty, named key ty → ∀ v, db key = some v → v.type = ty

/-- A command that succeeds, and changes no type, where every key has the type it is named for. -/
def Safe (named : String → KeyType → Prop) (p : Primitive Bytes α) : Prop :=
  ∀ db, Typed named db → (∃ a, (p db).1 = .ok a) ∧ Typed named (p db).2

omit [DecidableEq Bytes] in
theorem typed_put (hf : ∀ key ty ty', named key ty → named key ty' → ty = ty')
    (hn : named key ty) (h : Typed named db) {v : Stored Bytes} (hv : v.type = ty) :
    Typed named (db.put key v) := by
  intro k ty' hk w hw
  by_cases hkey : k = key
  · subst hkey
    unfold put at hw
    rw [Function.update_self] at hw
    split at hw
    · cases hw
    · cases hw
      rw [hv]
      exact hf k ty ty' hn hk
  · rw [put, Function.update_of_ne hkey] at hw
    exact h k ty' hk w hw

variable (hf : ∀ key ty ty', named key ty → named key ty' → ty = ty')

include hf

omit [DecidableEq Bytes] in
theorem safe_onList {f : List Bytes → α × List Bytes} (hn : named key .list) :
    Safe named (onList key f) := by
  intro db h
  unfold onList
  split
  · exact ⟨⟨_, rfl⟩, typed_put hf hn h rfl⟩
  · exact ⟨⟨_, rfl⟩, typed_put hf hn h rfl⟩
  · rename_i v hv hkey
    have htype := h key .list hn v hkey
    cases v with
    | list l => exact absurd rfl (hv l)
    | hash | zset => cases htype

omit [DecidableEq Bytes] in
theorem safe_onHash {f : Hash String Bytes → α × Hash String Bytes} (hn : named key .hash) :
    Safe named (onHash key f) := by
  intro db h
  unfold onHash
  split
  · exact ⟨⟨_, rfl⟩, typed_put hf hn h rfl⟩
  · exact ⟨⟨_, rfl⟩, typed_put hf hn h rfl⟩
  · rename_i v hv hkey
    have htype := h key .hash hn v hkey
    cases v with
    | hash l => exact absurd rfl (hv l)
    | list | zset => cases htype

omit [DecidableEq Bytes] in
theorem safe_onZset {f : Hash String Instant → α × Hash String Instant} (hn : named key .zset) :
    Safe named (onZset key f : Primitive Bytes α) := by
  intro db h
  unfold onZset
  split
  · exact ⟨⟨_, rfl⟩, typed_put hf hn h rfl⟩
  · exact ⟨⟨_, rfl⟩, typed_put hf hn h rfl⟩
  · rename_i v hv hkey
    have htype := h key .zset hn v hkey
    cases v with
    | zset l => exact absurd rfl (hv l)
    | list | hash => cases htype

omit [DecidableEq Bytes] in
theorem safe_lmove {source destination : String} (hs : named source .list)
    (hd : named destination .list) : Safe named (lmove source destination : Primitive Bytes (Option Bytes)) := by
  intro db h
  obtain ⟨⟨moved, hmoved⟩, htyped⟩ :=
    safe_onList hf (f := fun l => (l.getLast?, l.dropLast)) hs db h
  unfold lmove
  split
  · rename_i exc db' heq
    rw [heq] at hmoved
    cases hmoved
  · exact ⟨⟨_, rfl⟩, h⟩
  · rename_i payload db' heq
    rw [heq] at htyped
    obtain ⟨⟨u, hu⟩, htyped'⟩ := safe_onList hf (f := fun l => ((), payload :: l)) hd db' htyped
    split
    · rename_i exc db'' heq'
      rw [lpush] at heq'
      rw [heq'] at hu
      cases hu
    · rename_i db'' heq'
      rw [lpush] at heq'
      rw [heq'] at htyped'
      exact ⟨⟨_, rfl⟩, htyped'⟩

omit [DecidableEq Bytes] hf in
theorem Safe.map {β : Type} {f : α → β} (h : Safe named p) : Safe named (p.map f) := by
  intro db hdb
  obtain ⟨⟨a, ha⟩, htyped⟩ := h db hdb
  exact ⟨⟨f a, by rw [Primitive.map, ha]; rfl⟩, htyped⟩

omit [DecidableEq Bytes] hf in
theorem safe_pipeline {ps : List (Primitive Bytes Unit)} (h : ∀ p ∈ ps, Safe named p) :
    Safe named (pipeline ps) := by
  induction ps with
  | nil => exact fun db hdb => ⟨⟨(), rfl⟩, hdb⟩
  | cons p ps ih =>
    intro db hdb
    obtain ⟨⟨a, ha⟩, htyped⟩ := h p List.mem_cons_self db hdb
    have hrest := ih (fun q hq => h q (List.mem_cons_of_mem p hq)) (p db).2 htyped
    simp only [pipeline]
    split
    · rename_i heq
      rw [heq] at hrest
      exact hrest
    · rename_i heq
      rw [heq] at ha
      cases ha

end Types

end Keyspace

section Names

def processingKey (channel : String) : String := channel ++ ":processing"

def claimsKey (channel : String) : String := channel ++ ":claims"

def claimsIndexKey (channel : String) : String := channel ++ ":claims:index"

def candidatesKey (channel : String) : String := channel ++ ":claims:candidates"

end Names

namespace Keyspace

variable {Bytes : Type} [DecidableEq Bytes] [Sha1 Bytes] [Stamps Bytes]

/-- Carry out a command of the transport on the keys of its channel. -/
def exec (t : Instant) : (o : Command Bytes) → Primitive Bytes o.Result
  | .lpush c payload => lpush c payload
  | .move c => Primitive.map (fun moved => moved.map fun payload => ⟨payload, t⟩)
      (lmove c (processingKey c))
  | .llen c => llen c
  | .record c claimId payload claimedAt => pipeline [
      hset (claimsKey c) [(payloadField claimId, payload),
        (claimedAtField claimId, Stamps.isoformat claimedAt)],
      zadd (claimsIndexKey c) claimId claimedAt,
      Primitive.map (fun _ => ()) (hdel (candidatesKey c) [Sha1.hexdigest payload])]
  | .discard c claimId => Primitive.map (fun _ => ())
      (hdel (claimsKey c) [payloadField claimId, claimedAtField claimId])
  | .payloadOf c claimId => hget (claimsKey c) (payloadField claimId)
  | .settle c claimId payload => pipeline [
      lrem (processingKey c) payload,
      Primitive.map (fun _ => ())
        (hdel (claimsKey c) [payloadField claimId, claimedAtField claimId]),
      zrem (claimsIndexKey c) claimId]
  | .zrangebyscore c max num => zrangebyscore (claimsIndexKey c) max num
  | .zrem c claimId => zrem (claimsIndexKey c) claimId
  | .lrange c stop => lrange (processingKey c) stop
  | .hgetall c => Primitive.map (fun fields => fields.filterMap fun field =>
      (RawKeys.beforePayload field.1).map (·, field.2)) (hgetall (claimsKey c))
  | .hsetnx c digest seenAt => hsetnx (candidatesKey c) digest (Stamps.isoformat seenAt)
  | .hget c digest => Primitive.map (fun seenAt => seenAt.bind Stamps.fromisoformat)
      (hget (candidatesKey c) digest)
  | .hdel c digest => hdel (candidatesKey c) [digest]

end Keyspace

end Pybus.Redis
