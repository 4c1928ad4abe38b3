import Pybus.Interaction.Pool
import Pybus.RequestResponse

/-! Any number of requests on one coordinator and one transport, and where their responses are. -/
namespace Pybus

open Value Texts Interaction RequestResponseCoordinator Exchanging

namespace MessageEnvelope

variable [Texts]

omit [Texts] in
theorem build_correlation {messageId messageType messageKind version payload headers
    createdAt : Value} {data : Dict} {expiresAt : Value} {e : MessageEnvelope}
    (h : build messageId messageType messageKind version payload headers createdAt data expiresAt
      = .ok e) : e.correlationId = get data "correlation_id" := by
  simp only [build, bind, Except.bind, pure, Except.pure, throw, throwThe, MonadExceptOf.throw]
    at h
  repeat' split at h
  all_goals first | (cases h; done) | skip
  injection h with h
  subst h
  rfl

theorem fromDict_correlation {now : Instant} {data : Dict} {e : MessageEnvelope}
    (h : fromDict now (.dict data) = .ok e) : e.correlationId = get data "correlation_id" := by
  simp only [fromDict, bind, Except.bind] at h
  repeat' split at h
  all_goals first | cases h | exact build_correlation h

/-- The clock at which a response is read has no say in its correlation id. -/
theorem correlation_again {now now' : Instant} {message : Raw} {e e' : MessageEnvelope}
    (h : read now message = .ok e) (h' : read now' message = .ok e') :
    e'.correlationId = e.correlationId := by
  unfold read at h h'
  cases hl : JsonSerializer.loads message with
  | error exc => simp [hl, Except.bind] at h
  | ok v =>
    simp only [hl, Except.bind] at h h'
    cases v with
    | dict data => rw [fromDict_correlation h, fromDict_correlation h']
    | _ => cases h

end MessageEnvelope

/-- The coordinator and the queues, and what has happened so far: the responses that were published,
the correlation ids of the requests, the requests that timed out, and the responses that were stored
after that. -/
structure Exchange where
  coordinator : RequestResponseCoordinator := {}
  queues : String → List Raw := fun _ => []
  published : List Raw := []
  requested : List String := []
  timedOut : List String := []
  late : List MessageEnvelope := []

namespace Exchange

variable (s : Exchange)

/-- A response to a request that has timed out; a response names its request as its cause. -/
def Late (e : MessageEnvelope) : Prop := ∃ requestId ∈ s.timedOut, e.causationId = .str requestId

instance (e : MessageEnvelope) : Decidable (s.Late e) :=
  inferInstanceAs (Decidable (∃ requestId ∈ s.timedOut, _))

/-- How a call is answered at a moment; a consumed message gets some receipt. -/
def respond (now : Instant) (receipt : Option String) : (o : ReplyCall) → o.Answer × Exchange
  | .publishRequest _ correlationId =>
    (.ok (), { s with requested := correlationId :: s.requested })
  | .takeResponse correlationId =>
    let taken := s.coordinator.takeResponse correlationId
    (taken.1, { s with coordinator := taken.2 })
  | .storeResponse e =>
    match s.coordinator.storeResponse now e with
    | .ok coordinator => (.ok (), { s with
        coordinator := coordinator
        late := if s.Late e then e :: s.late else s.late })
    | .error exc => (.error exc, s)
  | .startWait correlationId timeout =>
    let started := s.coordinator.startWait now correlationId timeout
    (started.1, { s with coordinator := started.2 })
  | .checkResponse requestId correlationId deadline =>
    let checked := s.coordinator.checkResponse now correlationId deadline
    (checked.1, { s with
      coordinator := checked.2
      timedOut := if checked.1 = .timedOut then requestId :: s.timedOut else s.timedOut })
  | .consume queue _ =>
    match s.queues queue with
    | [] => (.ok none, s)
    | m :: rest => (.ok (some ⟨m, receipt⟩),
        { s with queues := Function.update s.queues queue rest })
  | .publishResponse queue m => (.ok (), { s with
      queues := Function.update s.queues queue (s.queues queue ++ [m])
      published := m :: s.published })
  | .ack _ => (.ok (), s)
  | .monotonic requestId deadline => (now, { s with
      timedOut := if deadline.any fun d => decide (d ≤ now) then requestId :: s.timedOut
        else s.timedOut })
  | .now => (now, s)
  | .sleep _ => ((), s)

end Exchange

abbrev Ended : Type := Except Exc (Option MessageEnvelope) × Unit

/-- The surroundings of some programs, where some calls are not made. -/
def exchanging (starts : Prog ReplyCalls Ended → Prop)
    (allowed : Instant → Exchange → ReplyCall → Prop) : World ReplyCalls Exchange Ended where
  starts _ p := starts p
  answers s o r s' := ∃ now receipt, allowed now s o ∧ s.respond now receipt o = (r, s')

/-- Somebody publishes a response. -/
def publisher (queue : String) (m : Raw) : Exchanging (Option MessageEnvelope) := do
  attempt (.publishResponse queue m) id
  return none

section Threads

/-- The response that a call has returned. -/
def returnedBy (T : Thread ReplyCalls Ended) : Option MessageEnvelope :=
  match T.rest with
  | .done (.ok r, _) => r
  | _ => none

/-- The correlation id under which a caller has published its request. -/
def requestedBy (T : Thread ReplyCalls Ended) : Option String :=
  T.log.foldl (fun c e => match e.op with | .publishRequest _ c' => some c' | _ => c) none

/-- The message that a caller has consumed and not stored yet. -/
def heldBy (T : Thread ReplyCalls Ended) : Option Raw :=
  T.log.foldl (fun held e =>
    match e with
    | ⟨.consume _ _, .ok (some m)⟩ => some m.bytes
    | ⟨.storeResponse _, .ok _⟩ => none
    | _ => held) none

end Threads

section Conservation

variable [Texts]

/-- A message that is read as a response with a correlation id. -/
def isFor (correlationId : String) (m : Raw) : Bool :=
  match MessageEnvelope.read 0 m with
  | .ok e => e.correlationId = .str correlationId
  | .error _ => false

/-- Requests without a timeout that share a reply queue, and publishers of responses. -/
def Requesting (queue : String) (p : Prog ReplyCalls Ended) : Prop :=
  (∃ requestId correlationId rounds, p = request requestId correlationId queue none rounds ()) ∨
    ∃ m, p = publisher queue m ()

/-- No correlation id is used twice, by requests or by responses, and responses are well formed. -/
def Distinct (_ : Instant) (s : Exchange) : ReplyCall → Prop
  | .publishRequest _ correlationId => correlationId ∉ s.requested
  | .publishResponse _ m => ∃ c, c ≠ "" ∧ isFor c m = true ∧ s.published.countP (isFor c) = 0
  | _ => True

def requesting (queue : String) : World ReplyCalls Exchange Ended :=
  exchanging (Requesting queue) Distinct

/-- What is known of a caller: its correlation id, the message it has just consumed, and the response
that it has taken. -/
structure Waiter where
  correlationId : Option String := none
  held : Option Raw := none
  got : Option MessageEnvelope := none

/-- A message that `_await_response` cannot store. -/
def Refused (m : Raw) : Prop :=
  (∃ now exc, MessageEnvelope.read now m = .error exc) ∨
    ∃ now e, MessageEnvelope.read now m = .ok e ∧
      (e.correlationId.truthy = false ∨ e.correlationId.hashable = false)

/-- A caller takes with its own correlation id, consumes one message at a time, and stores what it
has consumed. -/
def caller (queue : String) : Monitor ReplyCalls Waiter where
  permits g o := g.got = none ∧
    match o with
    | .publishRequest _ _ => g.correlationId = none
    | .takeResponse c => g.correlationId = some c
    | .storeResponse e => ∃ m now, g.held = some m ∧ MessageEnvelope.read now m = .ok e
    | .consume q _ => q = queue ∧ g.held = none
    | .publishResponse q _ => q = queue
    | .now | .sleep _ => True
    | _ => False
  assumes _ o r :=
    match o, r with
    | .storeResponse e, .error _ => e.correlationId.truthy = false ∨ e.correlationId.hashable = false
    | .publishRequest _ _, r => r = .ok ()
    | .publishResponse _ _, r => r = .ok ()
    | .consume _ _, r => ∃ m, r = .ok m
    | _, _ => True
  next g o r :=
    match o, r with
    | .publishRequest _ c, _ => { g with correlationId := some c }
    | .takeResponse _, some e => { g with got := some e }
    | .storeResponse _, .ok _ => { g with held := none }
    | .consume _ _, .ok (some m) => { g with held := some m.bytes }
    | _, _ => g

/-- A caller ends with the response it has taken, unless it holds a message that it cannot store. -/
def ReturnsTaken (g : Waiter) (a : Ended) : Prop :=
  a.1 = .ok g.got ∧ g.held = none ∨ ∃ m, g.held = some m ∧ Refused m

variable {queue requestId correlationId : String} {g : Waiter} {u : Unit}

/-- One round: the response is taken, or there is another round, or a message cannot be stored. -/
theorem awaitRound_meets (hc : g.correlationId = some correlationId) (hheld : g.held = none)
    (hgot : g.got = none) :
    (awaitRound requestId correlationId queue none).Meets (caller queue) (fun g' _ r =>
      (∃ e, r = .ok (some e) ∧ g'.got = some e ∧ g'.held = none) ∨ (r = .ok none ∧ g' = g) ∨
      (∃ exc, r = .error exc) ∧ ∃ m, g'.held = some m ∧ Refused m) g u := by
  refine ⟨⟨hgot, hc⟩, fun r _ => ?_⟩
  cases r with
  | some e => exact .inl ⟨e, rfl, rfl, hheld⟩
  | none =>
    refine ⟨⟨hgot, rfl, hheld⟩, fun r hr => ?_⟩
    obtain ⟨m, rfl⟩ := hr
    cases m with
    | none => exact ⟨⟨hgot, trivial⟩, fun _ _ => .inr (.inl ⟨rfl, rfl⟩)⟩
    | some m =>
      refine ⟨⟨hgot, trivial⟩, fun now _ => ?_⟩
      change (Prog.bind (Routine.lift (MessageEnvelope.read now m.bytes) u) _).Meets _ _ _
      cases hread : MessageEnvelope.read now m.bytes with
      | error exc => exact .inr (.inr ⟨⟨exc, rfl⟩, m.bytes, rfl, .inl ⟨now, exc, hread⟩⟩)
      | ok e =>
        refine ⟨⟨hgot, m.bytes, now, rfl, hread⟩, fun r hr => ?_⟩
        cases r with
        | ok => exact .inr (.inl ⟨rfl, by simp [caller, ← hheld]⟩)
        | error exc => exact .inr (.inr ⟨⟨exc, rfl⟩, m.bytes, rfl, .inr ⟨now, e, hread, hr⟩⟩)

theorem awaitRounds_meets {rounds : Nat} (hc : g.correlationId = some correlationId)
    (hheld : g.held = none) (hgot : g.got = none) :
    (awaitRounds requestId correlationId queue none rounds).Meets (caller queue)
      (fun g' s' r => ReturnsTaken g' (r, s')) g u := by
  induction rounds generalizing g with
  | zero => exact .inl ⟨by rw [hgot], hheld⟩
  | succ n ih =>
    refine Routine.Meets.bind (awaitRound_meets hc hheld hgot) ?_ ?_
    · rintro g' _ r (⟨e, hr, hgot', hheld'⟩ | ⟨hr, rfl⟩ | ⟨⟨exc, hr⟩, -⟩)
      · cases hr
        exact .inl ⟨by rw [hgot'], hheld'⟩
      · cases hr
        exact ih hc hheld hgot
      · cases hr
    · rintro g' _ exc (⟨e, hr, -⟩ | ⟨hr, -⟩ | ⟨-, hrefused⟩)
      · cases hr
      · cases hr
      · exact .inr hrefused

/-- What every program of the exchange keeps to. -/
theorem requesting_meets {p : Prog ReplyCalls Ended} (h : Requesting queue p) :
    p.Meets (caller queue) ReturnsTaken {} := by
  rcases h with ⟨requestId, correlationId, rounds, rfl⟩ | ⟨m, rfl⟩
  · refine ⟨⟨rfl, rfl⟩, fun r hr => ?_⟩
    obtain rfl : r = .ok () := hr
    exact awaitRounds_meets rfl rfl rfl
  · refine ⟨⟨rfl, rfl⟩, fun r hr => ?_⟩
    obtain rfl : r = .ok () := hr
    exact .inl ⟨rfl, rfl⟩

/-- The monitor of the callers of an exchange. -/
def callers (queue : String) : Watch (requesting queue) Waiter where
  monitor := caller queue
  begin := {}
  ends := ReturnsTaken
  starts _ _ h := requesting_meets h
  answers s o r s' h g := by
    obtain ⟨now, receipt, -, hr⟩ := h
    cases o with
    | publishRequest | publishResponse =>
      cases hr
      rfl
    | storeResponse e =>
      cases r with
      | ok => trivial
      | error exc =>
        simp only [Exchange.respond] at hr
        split at hr
        · cases hr
        · rename_i herr
          exact storeResponse_error herr
    | consume q t =>
      simp only [Exchange.respond] at hr
      split at hr <;> cases hr <;> exact ⟨_, rfl⟩
    | _ => trivial

/-- What holds of the coordinator and of the messages that are about. -/
structure Sane (queue : String) (s : Exchange) : Prop where
  deadlines : ∀ v, s.coordinator.deadlines v = none
  stored : ∀ v e, s.coordinator.responses v = some e → e.correlationId = v ∧
    ∃ m ∈ s.published, ∃ now, MessageEnvelope.read now m = .ok e
  queued : ∀ m ∈ s.queues queue, m ∈ s.published
  wellFormed : ∀ m ∈ s.published, ∃ c, c ≠ "" ∧ isFor c m = true
  once : ∀ c, s.published.countP (isFor c) ≤ 1

/-- What holds of a caller. -/
structure Served (s : Exchange) (g : Waiter) : Prop where
  held : ∀ m, g.held = some m → m ∈ s.published
  got : ∀ e, g.got = some e → (∃ c, g.correlationId = some c ∧ e.correlationId = .str c) ∧
    ∃ m ∈ s.published, ∃ now, MessageEnvelope.read now m = .ok e

theorem isFor_read {c : String} {m : Raw} {now : Instant} {e : MessageEnvelope}
    (h : MessageEnvelope.read now m = .ok e) : isFor c m = true ↔ e.correlationId = .str c := by
  unfold isFor
  cases hr : MessageEnvelope.read 0 m with
  | error exc =>
    rw [MessageEnvelope.read_error hr] at h
    cases h
  | ok e₀ =>
    have hsame := MessageEnvelope.correlation_again hr h
    simp [hsame]

/-- A well-formed response can be read and stored. -/
theorem read_of_isFor {c : String} {m : Raw} (hc : c ≠ "") (h : isFor c m = true) (now : Instant) :
    ∃ e, MessageEnvelope.read now m = .ok e ∧ e.correlationId = .str c ∧
      e.correlationId.truthy = true ∧ e.correlationId.hashable = true := by
  cases hr : MessageEnvelope.read now m with
  | error exc =>
    have hr₀ : MessageEnvelope.read 0 m = .error exc := MessageEnvelope.read_error hr
    simp [isFor, hr₀] at h
  | ok e =>
    have he := (isFor_read hr).mp h
    refine ⟨e, rfl, he, ?_, ?_⟩
    · simp [he, Value.truthy, hc]
    · rw [he]
      rfl

theorem not_refused {c : String} {m : Raw} (hc : c ≠ "") (h : isFor c m = true) : ¬ Refused m := by
  rintro (⟨now, exc, hr⟩ | ⟨now, e, hr, hbad⟩)
  · obtain ⟨e, he, -⟩ := read_of_isFor hc h now
    rw [he] at hr
    cases hr
  · obtain ⟨e', he', -, ht, hh⟩ := read_of_isFor hc h now
    obtain rfl : e' = e := Except.ok.inj (he'.symm.trans hr)
    rw [ht, hh] at hbad
    simp at hbad

section Steps

variable {s s' : Exchange} {now : Instant} {receipt : Option String} {e : MessageEnvelope} {m : Raw}

/-- What storing a well-formed response does. -/
theorem respond_storeResponse (now : Instant) (receipt : Option String) (hs : Sane queue s)
    (hm : m ∈ s.published) (hread : ∃ now, MessageEnvelope.read now m = .ok e) :
    ∃ late, s.respond now receipt (.storeResponse e) = (.ok (), { s with
      coordinator := ⟨Function.update s.coordinator.responses e.correlationId (some e),
        s.coordinator.deadlines⟩
      late := late }) := by
  obtain ⟨t, hread⟩ := hread
  obtain ⟨c, hc, hfor⟩ := hs.wellFormed m hm
  obtain ⟨e', he', -, ht, hh⟩ := read_of_isFor hc hfor t
  obtain rfl : e' = e := Except.ok.inj (he'.symm.trans hread)
  have hexpired : s.coordinator.expired now e'.correlationId = false := by
    simp [expired, hs.deadlines]
  have hstore := storeResponse_ok s.coordinator now ht hh
  rw [hexpired, evictExpired_of_none hs.deadlines] at hstore
  simp only [Exchange.respond, hstore]
  exact ⟨_, rfl⟩

/-- What a call of a caller does to the exchange and to what is known of the caller. -/
inductive Moved (queue : String) (s : Exchange) (g : Waiter) : Exchange → Waiter → Prop
  | idle {s' : Exchange} {g' : Waiter} : s'.coordinator = s.coordinator →
      s'.queues queue = s.queues queue → s'.published = s.published → g'.held = g.held →
      g'.got = g.got → (∀ c, g.correlationId = some c → g'.correlationId = some c) →
      Moved queue s g s' g'
  | taken {s' : Exchange} {c : String} {e : MessageEnvelope} : g.correlationId = some c →
      g.got = none → s.coordinator.responses (.str c) = some e →
      s'.coordinator = s.coordinator.without c → s'.queues queue = s.queues queue →
      s'.published = s.published → Moved queue s g s' { g with got := some e }
  | stored {s' : Exchange} {m : Raw} {e : MessageEnvelope} : g.held = some m →
      (∃ now, MessageEnvelope.read now m = .ok e) →
      s'.coordinator = ⟨Function.update s.coordinator.responses e.correlationId (some e),
        s.coordinator.deadlines⟩ → s'.queues queue = s.queues queue →
      s'.published = s.published → Moved queue s g s' { g with held := none }
  | consumed {s' : Exchange} {m : Raw} : g.held = none → s.queues queue = m :: s'.queues queue →
      s'.coordinator = s.coordinator → s'.published = s.published →
      Moved queue s g s' { g with held := some m }
  | arrived {s' : Exchange} {m : Raw} {c : String} : c ≠ "" → isFor c m = true →
      s.published.countP (isFor c) = 0 → s'.queues queue = s.queues queue ++ [m] →
      s'.published = m :: s.published → s'.coordinator = s.coordinator → Moved queue s g s' g

omit [Texts] in
theorem without_of_none {c : RequestResponseCoordinator} {correlationId : String}
    (h : c.responses (.str correlationId) = none) (hd : ∀ v, c.deadlines v = none) :
    c.without correlationId = c := by
  have hresponses : Function.update c.responses (.str correlationId) none = c.responses := by
    rw [← h, Function.update_eq_self]
  have hdeadlines : Function.update c.deadlines (.str correlationId) none = c.deadlines := by
    rw [← hd (.str correlationId), Function.update_eq_self]
  rw [without, hresponses, hdeadlines]

/-- The calls that a caller makes do nothing else. -/
theorem caller_moved {o : ReplyCall} {r : o.Answer} (hs : Sane queue s) (hg : Served s g)
    (ha : (requesting queue).answers s o r s') (hp : (caller queue).permits g o) :
    Moved queue s g s' ((caller queue).next g o r) := by
  obtain ⟨now, receipt, hallowed, hr⟩ := ha
  obtain ⟨hgot, hp⟩ := hp
  cases o with
  | publishRequest q c =>
    cases hr
    refine .idle rfl rfl rfl rfl rfl fun c' hc' => ?_
    rw [hp] at hc'
    cases hc'
  | takeResponse c =>
    cases hresponse : s.coordinator.responses (.str c) with
    | none =>
      have hrespond : s.respond now receipt (.takeResponse c) = (none, s) := by
        simp [Exchange.respond, takeResponse, hresponse, without_of_none hresponse hs.deadlines]
      rw [hrespond] at hr
      cases hr
      exact .idle rfl rfl rfl rfl rfl fun _ hc => hc
    | some e =>
      have hrespond : s.respond now receipt (.takeResponse c) =
          (some e, { s with coordinator := s.coordinator.without c }) := by
        simp [Exchange.respond, takeResponse, hresponse]
      rw [hrespond] at hr
      cases hr
      exact .taken hp hgot hresponse rfl rfl rfl
  | storeResponse e =>
    obtain ⟨m, t, hheld, hread⟩ := hp
    obtain ⟨late, hstored⟩ := respond_storeResponse now receipt hs
      (hg.held m hheld) ⟨t, hread⟩
    rw [hstored] at hr
    cases hr
    exact .stored hheld ⟨t, hread⟩ rfl rfl rfl
  | consume q t =>
    obtain ⟨rfl, hheld⟩ := hp
    cases hq : s.queues q with
    | nil =>
      simp only [Exchange.respond, hq] at hr
      cases hr
      exact .idle rfl rfl rfl rfl rfl fun _ hc => hc
    | cons m rest =>
      simp only [Exchange.respond, hq] at hr
      cases hr
      exact .consumed hheld (by simp [hq]) rfl rfl
  | publishResponse q m =>
    obtain rfl : q = queue := hp
    obtain ⟨c, hc, hfor, hcount⟩ := hallowed
    cases hr
    exact .arrived hc hfor hcount (by simp) rfl rfl
  | now | sleep =>
    cases hr
    exact .idle rfl rfl rfl rfl rfl fun _ hc => hc
  | _ => exact hp.elim

variable {g' : Waiter}

theorem sane_moved (h : Moved queue s g s' g') (hs : Sane queue s) (hg : Served s g) :
    Sane queue s' := by
  cases h with
  | idle hcoordinator hqueue hpublished =>
    obtain ⟨hdeadlines, hstored, hqueued, hwell, honce⟩ := hs
    constructor <;> simp only [hcoordinator, hqueue, hpublished] <;> assumption
  | @taken c e hc hgot hresponse hcoordinator hqueue hpublished =>
    refine ⟨?_, ?_, ?_, ?_, ?_⟩
    · intro v
      simp only [hcoordinator, without, Function.update_apply]
      split
      · rfl
      · exact hs.deadlines v
    · intro v e' he'
      simp only [hcoordinator, without, Function.update_apply] at he'
      rw [hpublished]
      split at he'
      · cases he'
      · exact hs.stored v e' he'
    · rw [hqueue, hpublished]
      exact hs.queued
    · rw [hpublished]
      exact hs.wellFormed
    · rw [hpublished]
      exact hs.once
  | @stored m e hheld hread hcoordinator hqueue hpublished =>
    refine ⟨?_, ?_, ?_, ?_, ?_⟩
    · rw [hcoordinator]
      exact hs.deadlines
    · intro v e' he'
      simp only [hcoordinator, Function.update_apply] at he'
      rw [hpublished]
      split at he'
      · rename_i hv
        cases he'
        exact ⟨hv.symm, m, hg.held m hheld, hread⟩
      · exact hs.stored v e' he'
    · rw [hqueue, hpublished]
      exact hs.queued
    · rw [hpublished]
      exact hs.wellFormed
    · rw [hpublished]
      exact hs.once
  | @consumed m hheld hqueue hcoordinator hpublished =>
    refine ⟨?_, ?_, ?_, ?_, ?_⟩
    · rw [hcoordinator]
      exact hs.deadlines
    · rw [hcoordinator, hpublished]
      exact hs.stored
    · intro m' hm'
      rw [hpublished]
      exact hs.queued m' (by rw [hqueue]; exact List.mem_cons_of_mem m hm')
    · rw [hpublished]
      exact hs.wellFormed
    · rw [hpublished]
      exact hs.once
  | @arrived m c hc hfor hcount hqueue hpublished hcoordinator =>
    refine ⟨?_, ?_, ?_, ?_, ?_⟩
    · rw [hcoordinator]
      exact hs.deadlines
    · intro v e he
      rw [hcoordinator] at he
      obtain ⟨hv, m', hm', hread⟩ := hs.stored v e he
      rw [hpublished]
      exact ⟨hv, m', List.mem_cons_of_mem m hm', hread⟩
    · intro m' hm'
      rw [hqueue, List.mem_append, List.mem_singleton] at hm'
      rw [hpublished]
      rcases hm' with hm' | rfl
      · exact List.mem_cons_of_mem m (hs.queued m' hm')
      · exact List.mem_cons_self
    · intro m' hm'
      rw [hpublished] at hm'
      rcases List.mem_cons.mp hm' with rfl | hm'
      · exact ⟨c, hc, hfor⟩
      · exact hs.wellFormed m' hm'
    · intro c'
      rw [hpublished, List.countP_cons]
      split
      · rename_i hfor'
        have hsame : c' = c := by
          obtain ⟨e, hread, he, -⟩ := read_of_isFor hc hfor 0
          have he' := (isFor_read hread).mp hfor'
          rw [he] at he'
          exact (Value.str.inj he').symm
        rw [hsame, hcount]
      · exact hs.once c'

theorem published_moved (h : Moved queue s g s' g') : s.published ⊆ s'.published := by
  cases h with
  | idle _ _ hpublished | taken _ _ _ _ _ hpublished | stored _ _ _ _ hpublished
  | consumed _ _ _ hpublished => exact hpublished ▸ List.Subset.refl _
  | arrived _ _ _ _ hpublished =>
    rw [hpublished]
    exact List.subset_cons_self _ _

theorem Served.mono (h : Served s g) (hp : s.published ⊆ s'.published) : Served s' g := by
  refine ⟨fun m hm => hp (h.held m hm), fun e he => ?_⟩
  obtain ⟨hc, m, hm, hread⟩ := h.got e he
  exact ⟨hc, m, hp hm, hread⟩

theorem served_moved (h : Moved queue s g s' g') (hs : Sane queue s) (hg : Served s g) :
    Served s' g' := by
  have hmono : Served s' g := hg.mono (published_moved h)
  cases h with
  | idle _ _ _ hheld hgot hc =>
    refine ⟨by rw [hheld]; exact hmono.held, fun e he => ?_⟩
    rw [hgot] at he
    obtain ⟨⟨c, hcid, he⟩, hread⟩ := hmono.got e he
    exact ⟨⟨c, hc c hcid, he⟩, hread⟩
  | @taken c e hc hgot hresponse hcoordinator hqueue hpublished =>
    refine ⟨hmono.held, fun e' he' => ?_⟩
    cases he'
    obtain ⟨hv, hread⟩ := hs.stored _ e hresponse
    rw [hpublished]
    exact ⟨⟨c, hc, hv⟩, hread⟩
  | stored => exact ⟨nofun, hmono.got⟩
  | @consumed m hheld hqueue hcoordinator hpublished =>
    refine ⟨fun m' hm' => ?_, hmono.got⟩
    cases hm'
    rw [hpublished]
    exact hs.queued m (by rw [hqueue]; exact List.mem_cons_self)
  | arrived => exact hmono

/-- Whether a caller holds, or has taken, the response with a correlation id. -/
def Waiter.holds (c : String) (g : Waiter) : Bool := g.held.any (isFor c)

omit [Texts] in
def Waiter.took (c : String) (g : Waiter) : Bool :=
  g.got.any fun e => decide (e.correlationId = .str c)

/-- The places in the exchange where a response with a correlation id may be. -/
def Exchange.places (queue c : String) (s : Exchange) : Nat :=
  (s.queues queue).countP (isFor c) + (s.coordinator.responses (.str c)).isSome.toNat

omit [Texts] in
theorem isSome_update {c : String} {f : Value → Option MessageEnvelope} {e : MessageEnvelope} :
    (Function.update f e.correlationId (some e) (.str c)).isSome =
      (decide (e.correlationId = .str c) || (f (.str c)).isSome) := by
  by_cases he : e.correlationId = .str c
  · simp [he]
  · simp [Function.update_of_ne (Ne.symm he), he]

/-- A response is moved from one place to another, or published. -/
theorem places_moved {c : String} (h : Moved queue s g s' g') (hs : Sane queue s)
    (hroom : (g.holds c).toNat + s.places queue c ≤ 1) :
    s'.places queue c + (g'.holds c).toNat + (g'.took c).toNat + s.published.countP (isFor c) =
      s.places queue c + (g.holds c).toNat + (g.took c).toNat + s'.published.countP (isFor c) := by
  cases h with
  | idle hcoordinator hqueue hpublished hheld hgot =>
    rw [Exchange.places, Exchange.places, Waiter.holds, Waiter.holds, Waiter.took, Waiter.took,
      hcoordinator, hqueue, hpublished, hheld, hgot]
  | @taken c' e hc hgot hresponse hcoordinator hqueue hpublished =>
    obtain ⟨hv, -⟩ := hs.stored _ e hresponse
    have htook : g.took c = false := by simp [Waiter.took, hgot]
    have htook' : Waiter.took c { g with got := some e } = decide (c' = c) := by
      simp [Waiter.took, hv]
    have hholds : Waiter.holds c { g with got := some e } = g.holds c := rfl
    rw [htook, htook', hholds, hpublished]
    simp only [Exchange.places, hcoordinator, hqueue, without, Function.update_apply]
    by_cases hsame : c' = c
    · subst hsame
      simp [hresponse]
      omega
    · simp [hsame, Ne.symm hsame]
  | @stored m e hheld hread hcoordinator hqueue hpublished =>
    obtain ⟨t, hread⟩ := hread
    have hholds : g.holds c = decide (e.correlationId = .str c) := by
      rw [Waiter.holds, hheld, Option.any_some, Bool.eq_iff_iff, decide_eq_true_iff]
      exact isFor_read hread
    have hholds' : Waiter.holds c { g with held := none } = false := rfl
    have htook : Waiter.took c { g with held := none } = g.took c := rfl
    rw [hholds', htook, hholds, hpublished]
    rw [hholds] at hroom
    simp only [Exchange.places, hcoordinator, hqueue, isSome_update] at hroom ⊢
    by_cases he : e.correlationId = .str c
    · simp only [he, decide_true, Bool.true_or, Bool.toNat_true, Bool.toNat_false] at hroom ⊢
      omega
    · simp [he]
  | @consumed m hheld hqueue hcoordinator hpublished =>
    have hholds : g.holds c = false := by simp [Waiter.holds, hheld]
    have hholds' : Waiter.holds c { g with held := some m } = isFor c m := rfl
    have htook : Waiter.took c { g with held := some m } = g.took c := rfl
    rw [hholds, hholds', htook, hpublished]
    simp only [Exchange.places, hcoordinator, hqueue, List.countP_cons]
    cases isFor c m with
    | true =>
      simp
      omega
    | false => simp
  | @arrived m c' hc hfor hcount hqueue hpublished hcoordinator =>
    simp only [Exchange.places, hcoordinator, hqueue, hpublished, List.countP_append,
      List.countP_cons, List.countP_nil]
    omega

end Steps

section Runs

variable {P P' : Pool ReplyCalls Exchange Ended}

/-- The callers and the exchange keep to what holds of them. -/
theorem callers_local : (callers queue).Local (Sane queue) Served fun _ _ => True where
  symm _ _ _ := trivial
  start _ _ := ⟨nofun, nofun⟩
  alone _ := trivial
  shared _ _ _ _ _ hs ha hp hg := sane_moved (caller_moved hs hg ha hp) hs hg
  own _ _ _ _ _ hs ha hp hg := served_moved (caller_moved hs hg ha hp) hs hg
  other _ _ _ _ _ _ hs ha hp hg hg' _ := hg'.mono (published_moved (caller_moved hs hg ha hp))
  apart _ _ _ _ _ _ _ _ _ _ _ _ := trivial

/-- Every published response with a correlation id is in one place. -/
def Conserved (queue : String) (P : Pool ReplyCalls Exchange Ended) : Prop :=
  ∀ c, P.shared.places queue c + (callers queue).count (Waiter.holds c) P +
    (callers queue).count (Waiter.took c) P = P.shared.published.countP (isFor c)

theorem conserved_step {m : Move ReplyCalls Ended} (h : (requesting queue).Step P m P')
    (hi : (callers queue).Invariant (Sane queue) Served (fun _ _ => True) P)
    (hc : Conserved queue P) : Conserved queue P' := by
  intro c
  have hbefore := hc c
  cases h with
  | start hp =>
    rw [Watch.count_start, Watch.count_start]
    exact hbefore
  | @call i log o k r s' hthread ha =>
    have hp := hi.follows.permits hthread
    have hg := hi.holds i _ hthread
    have hmoved := caller_moved hi.shared hg ha hp
    have hholds := (callers queue).count_call (f := Waiter.holds c) (r := r) (t := s') hthread
    have htook := (callers queue).count_call (f := Waiter.took c) (r := r) (t := s') hthread
    have honce := hi.shared.once c
    have hheld : (((callers queue).ghost ⟨log, .call o k⟩).holds c).toNat ≤
        (callers queue).count (Waiter.holds c) P := (callers queue).le_count hthread
    have hplaces := places_moved (c := c) hmoved hi.shared (by omega)
    change s'.places queue c + _ + _ = s'.published.countP (isFor c)
    change P.shared.places queue c + _ + _ = P.shared.published.countP (isFor c) at hbefore
    have hmonitor : (callers queue).monitor = caller queue := rfl
    rw [hmonitor] at hholds htook
    omega

theorem ghost_requested {T : Thread ReplyCalls Ended} :
    ((callers queue).ghost T).correlationId = requestedBy T := by
  have hafter : ∀ g : Waiter, ((caller queue).after g T.log).correlationId = T.log.foldl
      (fun c e => match e.op with | .publishRequest _ c' => some c' | _ => c) g.correlationId := by
    induction T.log with
    | nil => exact fun g => rfl
    | cons e log ih =>
      intro g
      rw [Monitor.after_cons, List.foldl_cons, ih]
      congr 1
      obtain ⟨o, r⟩ := e
      cases o with
      | takeResponse | storeResponse => cases r <;> rfl
      | consume => rcases r with exc | _ | m <;> rfl
      | _ => rfl
  exact hafter {}

theorem ghost_holding (queue : String) {T : Thread ReplyCalls Ended} :
    ((callers queue).ghost T).held = heldBy T := by
  have hafter : ∀ g : Waiter, ((caller queue).after g T.log).held = T.log.foldl (fun held e =>
      match e with
      | ⟨.consume _ _, .ok (some m)⟩ => some m.bytes
      | ⟨.storeResponse _, .ok _⟩ => none
      | _ => held) g.held := by
    induction T.log with
    | nil => exact fun g => rfl
    | cons e log ih =>
      intro g
      rw [Monitor.after_cons, List.foldl_cons, ih]
      congr 1
      obtain ⟨o, r⟩ := e
      cases o with
      | takeResponse | storeResponse => cases r <;> rfl
      | consume => rcases r with exc | _ | m <;> rfl
      | _ => rfl
  exact hafter {}

/-- A caller has returned the response that it has taken. -/
theorem returned_eq {T : Thread ReplyCalls Ended} {i : Nat}
    (hi : (callers queue).Invariant (Sane queue) Served (fun _ _ => True) P)
    (hT : P.threads[i]? = some T) : returnedBy T = ((callers queue).ghost T).got := by
  obtain ⟨log, rest⟩ := T
  have hmeets := hi.follows i _ hT
  have hserved := hi.holds i _ hT
  cases rest with
  | call o k =>
    have hpermits : (caller queue).permits ((callers queue).ghost ⟨log, .call o k⟩) o := hmeets.1
    rw [hpermits.1]
    rfl
  | done a =>
    have hends : ReturnsTaken ((callers queue).ghost ⟨log, .done a⟩) a := hmeets
    rcases hends with ⟨ha, -⟩ | ⟨m, hheld, hrefused⟩
    · obtain ⟨_ | r, u⟩ := a
      · cases ha
      · exact Except.ok.inj ha
    · obtain ⟨c, hc, hfor⟩ := hi.shared.wellFormed m (hserved.held m hheld)
      exact absurd hrefused (not_refused hc hfor)

/-- A caller that holds a message goes on. -/
theorem holding_goes_on {T : Thread ReplyCalls Ended} {i : Nat}
    (hi : (callers queue).Invariant (Sane queue) Served (fun _ _ => True) P)
    (hT : P.threads[i]? = some T) {m : Raw} (hm : heldBy T = some m) : ∃ o k, T.rest = .call o k := by
  obtain ⟨log, rest⟩ := T
  have hmeets := hi.follows i _ hT
  have hserved := hi.holds i _ hT
  rw [← ghost_holding queue] at hm
  cases rest with
  | call o k => exact ⟨o, k, rfl⟩
  | done a =>
    have hends : ReturnsTaken ((callers queue).ghost ⟨log, .done a⟩) a := hmeets
    rcases hends with ⟨-, hheld⟩ | ⟨m', hheld, hrefused⟩
    · rw [hheld] at hm
      cases hm
    · obtain ⟨c, hc, hfor⟩ := hi.shared.wellFormed m' (hserved.held m' hheld)
      exact absurd hrefused (not_refused hc hfor)

theorem conserved_reachable (h : Reachable (requesting queue).Step (World.Start {}) P) :
    (callers queue).Invariant (Sane queue) Served (fun _ _ => True) P ∧ Conserved queue P := by
  have hsane : Sane queue {} := ⟨fun _ => rfl, nofun, nofun, nofun, fun _ => by simp⟩
  refine h.invariant (I := fun P => (callers queue).Invariant (Sane queue) Served
      (fun _ _ => True) P ∧ Conserved queue P)
    (fun P hs => ⟨Watch.invariant_start hs hsane, fun c => ?_⟩) fun P _ _ hstep hi =>
      ⟨Watch.invariant_step callers_local hstep hi.1, conserved_step hstep hi.1 hi.2⟩
  obtain ⟨hshared, hthreads⟩ := hs
  simp [Watch.count, hthreads, hshared, Exchange.places]

/-- The callers that hold the response with a correlation id, and the calls that have returned it. -/
def holders (c : String) (P : Pool ReplyCalls Exchange Ended) : Nat :=
  P.threads.countP fun T => (heldBy T).any (isFor c)

omit [Texts] in
def returners (c : String) (P : Pool ReplyCalls Exchange Ended) : Nat :=
  P.threads.countP fun T => (returnedBy T).any fun e => decide (e.correlationId = .str c)

/-- Responses reach their own request: a call returns a published response with its own correlation
id, and at every moment every published response is in one place: in the reply queue, with the one
caller that has consumed it and will store it, in the buffer, or returned. -/
theorem responses_reach_own_request
    (h : Reachable (requesting queue).Step (World.Start {}) P) :
    (∀ T ∈ P.threads, ∀ e, returnedBy T = some e →
      (∃ c, requestedBy T = some c ∧ e.correlationId = .str c) ∧
      ∃ m ∈ P.shared.published, ∃ now, MessageEnvelope.read now m = .ok e) ∧
    (∀ T ∈ P.threads, ∀ m, heldBy T = some m → ∃ o k, T.rest = .call o k) ∧
    (∀ v e, P.shared.coordinator.responses v = some e → e.correlationId = v ∧
      ∃ m ∈ P.shared.published, ∃ now, MessageEnvelope.read now m = .ok e) ∧
    ∀ c, (P.shared.queues queue).countP (isFor c) + holders c P +
        (P.shared.coordinator.responses (.str c)).isSome.toNat + returners c P =
      P.shared.published.countP (isFor c) ∧ P.shared.published.countP (isFor c) ≤ 1 := by
  obtain ⟨hi, hconserved⟩ := conserved_reachable h
  refine ⟨fun T hT e he => ?_, fun T hT m hm => ?_, hi.shared.stored, fun c => ⟨?_, hi.shared.once c⟩⟩
  · obtain ⟨i, hT⟩ := List.mem_iff_getElem?.mp hT
    rw [returned_eq hi hT] at he
    have hgot := (hi.holds i T hT).got e he
    rwa [ghost_requested] at hgot
  · obtain ⟨i, hT⟩ := List.mem_iff_getElem?.mp hT
    exact holding_goes_on hi hT hm
  · have hholders : (callers queue).count (Waiter.holds c) P = holders c P := by
      refine List.countP_congr fun T _ => ?_
      rw [Waiter.holds, ghost_holding]
    have hreturns : (callers queue).count (Waiter.took c) P = returners c P := by
      refine List.countP_congr fun T hT => ?_
      obtain ⟨i, hT⟩ := List.mem_iff_getElem?.mp hT
      rw [Waiter.took, returned_eq hi hT]
    have hplaces := hconserved c
    rw [hholders, hreturns, Exchange.places] at hplaces
    omega

end Runs

end Conservation

section Sample

local instance exchangeTexts : Texts := .sample

/-- The answers at one moment. -/
def momentary (s : Exchange) (o : ReplyCall) : o.Answer × Exchange := s.respond 0 (some "r") o

/-- The next call of a thread has no conditions. -/
def unconditional (P : Pool ReplyCalls Exchange Ended) (i : Nat) : Bool :=
  match P.threads[i]? with
  | some ⟨_, .call (.publishRequest _ _) _⟩ | some ⟨_, .call (.publishResponse _ _) _⟩ => false
  | _ => true

/-- Threads take turns with calls that have no conditions. -/
def turnsFreely : Pool ReplyCalls Exchange Ended → List Nat → Bool
  | _, [] => true
  | P, i :: is => unconditional P i && turnsFreely (P.turn i momentary) is

theorem reachable_turn {starts : Prog ReplyCalls Ended → Prop}
    {allowed : Instant → Exchange → ReplyCall → Prop} {P : Pool ReplyCalls Exchange Ended} {i : Nat}
    (h : Reachable (exchanging starts allowed).Step (World.Start {}) P)
    (hd : ∀ log o k, P.threads[i]? = some ⟨log, .call o k⟩ → allowed 0 P.shared o) :
    Reachable (exchanging starts allowed).Step (World.Start {}) (P.turn i momentary) := by
  unfold Pool.turn
  split
  · rename_i log o k hi
    exact h.snoc (.call hi ⟨0, some "r", hd log o k hi, rfl⟩)
  · exact h

theorem reachable_turns {queue : String} {P : Pool ReplyCalls Exchange Ended} {is : List Nat}
    (h : Reachable (requesting queue).Step (World.Start {}) P) (hfree : turnsFreely P is = true) :
    Reachable (requesting queue).Step (World.Start {}) (P.turns is momentary) := by
  induction is generalizing P with
  | nil => exact h
  | cons i is ih =>
    obtain ⟨hfirst, hrest⟩ := Bool.and_eq_true_iff.mp hfree
    refine ih (reachable_turn h fun log o k hi => ?_) hrest
    cases o with
    | publishRequest | publishResponse => simp [unconditional, hi] at hfirst
    | _ => trivial

/-- A response to the request of the second caller. -/
def responseMessage (causationId correlationId : String) : Raw :=
  .json (.dict [("message_id", .str "m1"), ("message_type", .str "invoice.total"),
    ("message_kind", .str "response"), ("version", .int 1), ("payload", .dict []),
    ("headers", .dict []), ("correlation_id", .str correlationId),
    ("causation_id", .str causationId)])

/-- Two callers have published their requests, and the response to the second is there. -/
def responseWaiting : Pool ReplyCalls Exchange Ended :=
  ((((((⟨{}, []⟩ : Pool ReplyCalls Exchange Ended).begin (request "q1" "c1" "replies" none 2 ())).begin
    (request "q2" "c2" "replies" none 2 ())).begin
    (publisher "replies" (responseMessage "q2" "c2") ())).turn 0 momentary).turn 1 momentary).turn 2
      momentary

/-- The first caller consumes the response between the look and the consume of the second. -/
def responseCrossing : Pool ReplyCalls Exchange Ended :=
  responseWaiting.turns [1, 0, 0, 0, 0, 1, 1, 1] momentary

theorem responses_reach_own_request_crossing : returners "c2" responseCrossing = 1 ∧
    (∀ T ∈ responseCrossing.threads, ∀ e, returnedBy T = some e →
      ∃ c, requestedBy T = some c ∧ e.correlationId = .str c) ∧
    (responseCrossing.shared.queues "replies").countP (isFor "c2") + holders "c2" responseCrossing +
        (responseCrossing.shared.coordinator.responses (.str "c2")).isSome.toNat +
        returners "c2" responseCrossing = responseCrossing.shared.published.countP (isFor "c2") := by
  have hstart : Reachable (requesting "replies").Step (World.Start {})
      (⟨{}, []⟩ : Pool ReplyCalls Exchange Ended) := ⟨_, [], ⟨rfl, rfl⟩, .refl _⟩
  have hbegun := ((hstart.begin (.inl ⟨"q1", "c1", 2, rfl⟩)).begin (.inl ⟨"q2", "c2", 2, rfl⟩)).begin
    (.inr ⟨responseMessage "q2" "c2", rfl⟩)
  have hfirst := reachable_turn hbegun (i := 0) fun log o k hi => by
    cases hi
    exact List.not_mem_nil
  have hsecond := reachable_turn hfirst (i := 1) fun log o k hi => by
    cases hi
    change "c2" ∉ ["c1"]
    decide
  have hthird := reachable_turn hsecond (i := 2) fun log o k hi => by
    cases hi
    exact ⟨"c2", by decide, by decide, rfl⟩
  have hreachable : Reachable (requesting "replies").Step (World.Start {}) responseCrossing :=
    reachable_turns hthird (by decide)
  obtain ⟨hown, -, -, hplaces⟩ := responses_reach_own_request hreachable
  exact ⟨by decide, fun T hT e he => (hown T hT e he).1, (hplaces "c2").1⟩

end Sample

end Pybus
