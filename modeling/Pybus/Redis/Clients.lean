import Pybus.Interaction.Pool
import Pybus.Redis.Transport

/-! Any number of clients of one Redis server. A command may be carried out or not, and its reply may
get lost or find the client gone in either case. -/
namespace Pybus.Redis

open Interaction Relational RedisTransport

variable {Bytes : Type} [DecidableEq Bytes] [Sha1 Bytes]

/-- How long a payload has had entries without an indexed claim: since when, and how many more of its
entries have arrived since. -/
structure Spell where
  since : Instant
  arrivals : Nat
  deriving DecidableEq

/-- The server, and what it has been through: the claim ids made up so far, the commands carried out,
and the settlements that have taken an entry out of a processing list. -/
structure Server (Bytes : Type) where
  keys : String → Keys Bytes
  clock : Instant
  drawn : List String
  history : List (Command Bytes)
  removed : List (String × String × Bytes)
  spell : String → Bytes → Spell

namespace Server

def start : Server Bytes where
  keys _ := {}
  clock := 0
  drawn := []
  history := []
  removed := []
  spell _ _ := ⟨0, 0⟩

variable (s : Server Bytes) (c : String) (p : Bytes)

def copies : Nat := (s.keys c).copies p

def indexed : Nat := (s.keys c).indexed p

/-- The payload of a claim that is recorded in the claims hash. -/
def claimed (claimId : String) : Option Bytes :=
  ((s.keys c).claims.lookup claimId).map (·.payload)

/-- Whether the record of a claim has been carried out. -/
def recorded (claimId : String) : Prop := ∃ c p t, Command.record c claimId p t ∈ s.history

/-- Whether a settlement of a claim has been carried out. -/
def settled (claimId : String) : Prop := ∃ p, Command.settle c claimId p ∈ s.history

/-- The copies of a payload that `publish` and `nack` have pushed. -/
def pushes : Nat := s.history.count (.lpush c p)

def isSettle (c : String) (p : Bytes) : Command Bytes → Bool
  | .settle c' _ p' => c' = c && p' = p
  | _ => false

/-- The settlements of claims of a payload that have been carried out. -/
def settlements : Nat := s.history.countP (isSettle c p)

def isRecord (c : String) (p : Bytes) : Command Bytes → Bool
  | .record c' _ p' _ => c' = c && p' = p
  | _ => false

def isMove (c : String) : Command Bytes → Bool
  | .move c' => c' = c
  | _ => false

/-- The spell of a payload starts again when all its entries had indexed claims, or with a claim. -/
def nextSpell (o : Command Bytes) (t : Instant) : Spell :=
  if s.copies c p ≤ s.indexed c p ∨ isRecord c p o = true then ⟨t, 0⟩
  else if isMove c o && (s.keys c).waiting.getLast? = some p then
    { s.spell c p with arrivals := (s.spell c p).arrivals + 1 }
  else s.spell c p

/-- The server after it has carried out a command. -/
def apply (o : Command Bytes) (t : Instant) : Server Bytes where
  keys := Function.update s.keys o.channel ((s.keys o.channel).exec t o).2
  clock := t
  drawn := s.drawn
  history := s.history ++ [o]
  removed := match o with
    | .settle c claimId p => if p ∈ (s.keys c).processing then (c, claimId, p) :: s.removed else s.removed
    | _ => s.removed
  spell c p := s.nextSpell c p o t

def reply (o : Command Bytes) (t : Instant) : o.Result := ((s.keys o.channel).exec t o).1

/-- Time passes. -/
def pass (t : Instant) : Server Bytes := { s with clock := t }

end Server

/-- How requests are answered: a command is carried out and its reply arrives, it is carried out and
its reply is lost, or it is not carried out. Clocks never run backwards, and claim ids are fresh. -/
inductive Answers : Server Bytes → (o : Request Bytes) → o.Answer → Server Bytes → Prop
  | replied {s : Server Bytes} {o : Command Bytes} {t : Instant} :
      s.clock ≤ t → Answers s (.redis o) (.ok (s.reply o t)) (s.apply o t)
  | lost {s : Server Bytes} {o : Command Bytes} {t : Instant} {e : Interruption} :
      s.clock ≤ t → Answers s (.redis o) (.error e) (s.apply o t)
  | failed {s : Server Bytes} {o : Command Bytes} {t : Instant} {e : Interruption} :
      s.clock ≤ t → Answers s (.redis o) (.error e) (s.pass t)
  | uuid4 {s : Server Bytes} {t : Instant} {claimId : String} : s.clock ≤ t → claimId ∉ s.drawn →
      Answers s .uuid4 claimId { s.pass t with drawn := claimId :: s.drawn }
  | now {s : Server Bytes} {t : Instant} : s.clock ≤ t → Answers s .now t (s.pass t)
  | nowFn {s : Server Bytes} {reaper : RedisReaperRunner} {t : Instant} : s.clock ≤ t →
      Answers s (.nowFn reaper) t (s.pass t)

/-- What a client may run. -/
inductive Operation (Bytes : Type)
  | publish (channel : String) (message : Bytes)
  | size (channel : String)
  | consume (channel : String)
  | consumeMany (channel : String) (limit : Nat)
  | ack (receipt : Raw)
  | nack (receipt : Raw) (requeue : Bool)
  | staleClaims (channel : String) (olderThan : Instant) (limit : Nat)
  | unclaimedProcessingEntries (channel : String) (limit : Nat)
  | reconcile (reaper : RedisReaperRunner) (channel : String)

/-- The end of a client's run; what it has returned or raised does not matter here. -/
def discardResult {α : Type} (p : Client Bytes α) : Prog (Requests Bytes) Unit :=
  (p ()).bind fun _ => .done ()

def Operation.program [Texts] : Operation Bytes → Prog (Requests Bytes) Unit
  | publish channel message => discardResult (RedisTransport.publish channel message)
  | size channel => discardResult (RedisTransport.size channel)
  | consume channel => discardResult (RedisTransport.consume channel)
  | consumeMany channel limit => discardResult (RedisTransport.consumeMany channel limit)
  | ack receipt => discardResult (RedisTransport.ack receipt)
  | nack receipt requeue => discardResult (RedisTransport.nack receipt requeue)
  | staleClaims channel olderThan limit =>
    discardResult (RedisTransport.staleClaims channel olderThan limit)
  | unclaimedProcessingEntries channel limit =>
    discardResult (RedisTransport.unclaimedProcessingEntries channel limit)
  | reconcile reaper channel => discardResult (reaper.reconcile channel)

variable (Bytes) in
def world [Texts] : World (Requests Bytes) (Server Bytes) Unit where
  starts _ p := ∃ o : Operation Bytes, p = o.program
  answers := Answers

abbrev Clients (Bytes : Type) : Type := Pool (Requests Bytes) (Server Bytes) Unit

/-- A move that carries out a command. -/
def CarriesOut (P : Clients Bytes) (m : Move (Requests Bytes) Unit) (P' : Clients Bytes) (i : Nat)
    (o : Command Bytes) : Prop :=
  (∃ r, m = .call i ⟨.redis o, r⟩) ∧ P'.shared.history = P.shared.history ++ [o]

end Pybus.Redis
