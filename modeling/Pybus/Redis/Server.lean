import Pybus.Relational.Hash
import Pybus.Value

/-! The keys of the transport's channels, and what each Redis command of the transport does to them.
A pipeline between `MULTI` and `EXEC` is one command. -/
namespace Pybus.Redis

open Relational

variable {Bytes : Type} [DecidableEq Bytes]

/-- `hashlib.sha1(payload).hexdigest()`. -/
class Sha1 (Bytes : Type) where
  hexdigest : Bytes → String

/-- The fields `<claim_id>:payload` and `<claim_id>:claimed_at`, which are set and deleted together. -/
structure ClaimRecord (Bytes : Type) where
  payload : Bytes
  claimedAt : Instant
  deriving DecidableEq

/-- The keys of a channel: the channel itself, its processing list, its claims hash, the claims index
and the candidates hash. The left end of a list comes first. -/
structure Keys (Bytes : Type) where
  waiting : List Bytes := []
  processing : List Bytes := []
  claims : Hash String (ClaimRecord Bytes) := ∅
  index : Hash String Instant := ∅
  candidates : Hash String Instant := ∅

/-- A payload that was moved into the processing list, with the moment of the move, which the code
does not get to see. -/
structure Moved (Bytes : Type) where
  payload : Bytes
  movedAt : Instant
  deriving DecidableEq

inductive Command (Bytes : Type)
  | lpush (channel : String) (payload : Bytes)
  /-- `BLMOVE` and `LMOVE`, from the right of the channel to the left of the processing list. -/
  | move (channel : String)
  | llen (channel : String)
  /-- The pipeline of `_claim`. -/
  | record (channel claimId : String) (payload : Bytes) (claimedAt : Instant)
  /-- `HDEL` of the fields of a claim. -/
  | discard (channel claimId : String)
  /-- `HGET` of the payload of a claim. -/
  | payloadOf (channel claimId : String)
  /-- The pipeline of `_settle_claim`. -/
  | settle (channel claimId : String) (payload : Bytes)
  | zrangebyscore (channel : String) (max : Option Instant) (num : Option Nat)
  | zrem (channel claimId : String)
  | lrange (channel : String) (stop : Int)
  | hgetall (channel : String)
  /-- The commands on the candidates hash. -/
  | hsetnx (channel digest : String) (seenAt : Instant)
  | hget (channel digest : String)
  | hdel (channel digest : String)
  deriving DecidableEq

namespace Command

def channel : Command Bytes → String
  | lpush c _ | move c | llen c | record c _ _ _ | discard c _ | payloadOf c _ | settle c _ _
  | zrangebyscore c _ _ | zrem c _ | lrange c _ | hgetall c | hsetnx c _ _ | hget c _ | hdel c _ => c

/-- What the client gets back. -/
abbrev Result : Command Bytes → Type
  | move _ => Option (Moved Bytes)
  | llen _ => Nat
  | payloadOf _ _ => Option Bytes
  | zrangebyscore _ _ _ => List String
  | lrange _ _ => List Bytes
  | hgetall _ => List (String × Bytes)
  | hsetnx _ _ _ | hdel _ _ => Bool
  | hget _ _ => Option Instant
  | _ => Unit

end Command

namespace Keys

/-- The members of the index with a score up to `max`, by score and then by member. -/
def members (k : Keys Bytes) (max : Option Instant) : List String :=
  ((k.index.entries.filter fun e => max.all (e.2 ≤ ·)).insertionSort fun a b =>
    a.2 < b.2 ∨ a.2 = b.2 ∧ a.1 ≤ b.1).map (·.1)

/-- `LRANGE key 0 stop`. -/
def range (k : Keys Bytes) (stop : Int) : List Bytes :=
  if stop < 0 then k.processing.take (k.processing.length + stop + 1).toNat
  else k.processing.take (stop + 1).toNat

/-- Carry out a command at some moment. -/
def exec [Sha1 Bytes] (k : Keys Bytes) (t : Instant) : (o : Command Bytes) → o.Result × Keys Bytes
  | .lpush _ payload => ((), { k with waiting := payload :: k.waiting })
  | .move _ =>
    match k.waiting.getLast? with
    | none => (none, k)
    | some payload => (some ⟨payload, t⟩,
        { k with waiting := k.waiting.dropLast, processing := payload :: k.processing })
  | .llen _ => (k.waiting.length, k)
  | .record _ claimId payload claimedAt => ((), { k with
      claims := k.claims.insert claimId ⟨payload, claimedAt⟩
      index := k.index.insert claimId claimedAt
      candidates := k.candidates.erase (Sha1.hexdigest payload) })
  | .discard _ claimId => ((), { k with claims := k.claims.erase claimId })
  | .payloadOf _ claimId => ((k.claims.lookup claimId).map (·.payload), k)
  | .settle _ claimId payload => ((), { k with
      processing := k.processing.erase payload
      claims := k.claims.erase claimId
      index := k.index.erase claimId })
  | .zrangebyscore _ max num =>
    (match num with | none => k.members max | some n => (k.members max).take n, k)
  | .zrem _ claimId => ((), { k with index := k.index.erase claimId })
  | .lrange _ stop => (k.range stop, k)
  | .hgetall _ => (k.claims.entries.map fun e => (e.1, e.2.payload), k)
  | .hsetnx _ digest seenAt =>
    match k.candidates.lookup digest with
    | none => (true, { k with candidates := k.candidates.insert digest seenAt })
    | some _ => (false, k)
  | .hget _ digest => (k.candidates.lookup digest, k)
  | .hdel _ digest => ((k.candidates.lookup digest).isSome,
      { k with candidates := k.candidates.erase digest })

/-- The entries of the processing list with a payload. -/
def copies (k : Keys Bytes) (p : Bytes) : Nat := k.processing.count p

/-- The claims of a payload that are present in both the claims hash and the index. -/
def indexed (k : Keys Bytes) (p : Bytes) : Nat :=
  k.claims.both k.index fun r => r.payload = p

end Keys

end Pybus.Redis
