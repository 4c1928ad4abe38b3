import Pybus.Exchange

/-! Responses that arrive after their request has timed out: when the coordinator drops them, and when
it keeps them for a later request. -/
namespace Pybus

open Value Texts Interaction RequestResponseCoordinator Exchanging

/-- Somebody stores a response. -/
def storing (e : MessageEnvelope) : Exchanging (Option MessageEnvelope) := do
  attempt (.storeResponse e) id
  return none

/-- Both ways to wait for a response, publishers of responses, and whoever stores a response. -/
def Waits [Texts] (p : Prog ReplyCalls Ended) : Prop :=
  (∃ requestId correlationId queue timeout rounds,
    p = request requestId correlationId queue timeout rounds ()) ∨
  (∃ requestId correlationId timeout rounds,
    p = waitForResponse requestId correlationId timeout rounds ()) ∨
  (∃ queue m, p = publisher queue m ()) ∨ ∃ e, p = storing e ()

/-- A response to a request that has timed out still finds the deadline of its correlation id, which
has been reached. -/
def Punctual (now : Instant) (s : Exchange) : ReplyCall → Prop
  | .storeResponse e => s.Late e → e.correlationId.truthy = true → e.correlationId.hashable = true →
      s.coordinator.expired now e.correlationId = true
  | _ => True

/-- The response that a call hands over to its caller. -/
def handedOver (event : Event ReplyCalls) : Option MessageEnvelope :=
  match event with
  | ⟨.takeResponse _, r⟩ => r
  | ⟨.checkResponse _ _ _, .found e⟩ => some e
  | _ => none

/-- No late response is in the buffer. -/
structure Dropped (s : Exchange) : Prop where
  keyed : ∀ v e, s.coordinator.responses v = some e → e.correlationId = v
  late : ∀ e ∈ s.late, s.Late e
  dropped : ∀ e ∈ s.late, ∀ v, s.coordinator.responses v ≠ some e

section Steps

variable {s s' : Exchange} {now : Instant} {receipt : Option String} {e : MessageEnvelope}
  {c : String} {o : ReplyCall} {r : o.Answer}

theorem without_responses {self : RequestResponseCoordinator} {v : Value}
    (h : (self.without c).responses v = some e) : self.responses v = some e := by
  rw [without] at h
  simp only [Function.update_apply] at h
  split at h
  · cases h
  · exact h

/-- A change of the coordinator that adds no response. -/
theorem Dropped.fewer (h : Dropped s)
    (hresponses : ∀ v e, s'.coordinator.responses v = some e → s.coordinator.responses v = some e)
    (hlate : s'.late = s.late) (htimedOut : s.timedOut ⊆ s'.timedOut) : Dropped s' := by
  refine ⟨fun v e he => h.keyed v e (hresponses v e he), fun e he => ?_, fun e he v hv => ?_⟩
  · rw [hlate] at he
    obtain ⟨requestId, hmem, hcause⟩ := h.late e he
    exact ⟨requestId, htimedOut hmem, hcause⟩
  · rw [hlate] at he
    exact h.dropped e he v (hresponses v e hv)

/-- A late response is dropped with the deadline that it still finds; another one is not late. -/
theorem dropped_storeResponse (h : Dropped s) (hallowed : Punctual now s (.storeResponse e)) :
    Dropped (s.respond now receipt (.storeResponse e)).2 := by
  cases hstore : s.coordinator.storeResponse now e with
  | error exc =>
    simp only [Exchange.respond, hstore]
    exact h
  | ok coordinator =>
    have hstored : e.correlationId.truthy = true ∧ e.correlationId.hashable = true := by
      by_contra hn
      unfold storeResponse at hstore
      cases ht : e.correlationId.truthy <;> cases hh : e.correlationId.hashable <;> simp_all
    have hcoordinator := storeResponse_ok s.coordinator now hstored.1 hstored.2
    rw [hstore] at hcoordinator
    have hcoordinator := Except.ok.inj hcoordinator
    simp only [Exchange.respond, hstore]
    by_cases hlate : s.Late e
    · have hexpired : s.coordinator.expired now e.correlationId = true :=
        hallowed hlate hstored.1 hstored.2
      rw [if_pos hexpired] at hcoordinator
      subst hcoordinator
      rw [if_pos hlate]
      refine ⟨fun v e' he' => h.keyed v e' (evictExpired_responses he'), fun e' he' => ?_,
        fun e' he' v hv => ?_⟩
      · rcases List.mem_cons.mp he' with rfl | he'
        · exact hlate
        · exact h.late e' he'
      · rcases List.mem_cons.mp he' with rfl | he'
        · have hkey := h.keyed v e' (evictExpired_responses hv)
          subst hkey
          simp [evictExpired, hexpired] at hv
        · exact h.dropped e' he' v (evictExpired_responses hv)
    · rw [if_neg hlate]
      have hnew : ∀ v e', coordinator.responses v = some e' →
          s.coordinator.responses v = some e' ∨ e' = e ∧ v = e.correlationId := by
        intro v e' he'
        rw [hcoordinator] at he'
        split at he'
        · exact .inl (evictExpired_responses he')
        · simp only [Function.update_apply] at he'
          split at he'
          · rename_i hv
            exact .inr ⟨(Option.some.inj he').symm, hv⟩
          · exact .inl (evictExpired_responses he')
      refine ⟨fun v e' he' => ?_, h.late, fun e' he' v hv => ?_⟩
      · rcases hnew v e' he' with hold | ⟨rfl, rfl⟩
        · exact h.keyed v e' hold
        · rfl
      · rcases hnew v e' hv with hold | ⟨rfl, -⟩
        · exact h.dropped e' he' v hold
        · exact hlate (h.late e' he')

/-- Every call of a punctual exchange keeps late responses out of the buffer. -/
theorem dropped_respond (receipt : Option String) (h : Dropped s) (hallowed : Punctual now s o) :
    Dropped (s.respond now receipt o).2 := by
  cases o with
  | storeResponse e => exact dropped_storeResponse h hallowed
  | takeResponse c => exact h.fewer (fun _ _ => without_responses) rfl (List.Subset.refl _)
  | startWait c timeout =>
    refine h.fewer (fun v e he => ?_) rfl (List.Subset.refl _)
    cases timeout <;> exact he
  | checkResponse q c deadline =>
    refine h.fewer (fun v e he => ?_) rfl ?_
    · simp only [Exchange.respond, checkResponse] at he
      split at he
      · exact without_responses he
      · exact he
    · simp only [Exchange.respond]
      split
      · exact List.subset_cons_self _ _
      · exact List.Subset.refl _
  | monotonic q deadline =>
    refine h.fewer (fun _ _ he => he) rfl ?_
    simp only [Exchange.respond]
    split
    · exact List.subset_cons_self _ _
    · exact List.Subset.refl _
  | consume q t =>
    simp only [Exchange.respond]
    split
    · exact h
    · exact h.fewer (fun _ _ he => he) rfl (List.Subset.refl _)
  | publishRequest | publishResponse | ack | now | sleep =>
    exact h.fewer (fun _ _ he => he) rfl (List.Subset.refl _)

/-- What is handed over was in the buffer. -/
theorem handedOver_buffered (hr : (s.respond now receipt o).1 = r)
    (he : handedOver ⟨o, r⟩ = some e) : ∃ v, s.coordinator.responses v = some e := by
  cases o with
  | takeResponse c =>
    subst hr
    exact ⟨.str c, he⟩
  | checkResponse q c deadline =>
    subst hr
    cases hresponse : s.coordinator.responses (.str c) with
    | some e' =>
      simp only [Exchange.respond, checkResponse, hresponse, handedOver, Option.some.injEq] at he
      subst he
      exact ⟨.str c, hresponse⟩
    | none =>
      simp only [Exchange.respond, checkResponse, hresponse] at he
      cases hover : deadline.any fun d => decide (d ≤ now) <;> rw [hover] at he <;> cases he
  | _ => cases he

end Steps

section Runs

variable [Texts] {P P' : Pool ReplyCalls Exchange Ended}

theorem dropped_reachable (h : Reachable (exchanging Waits Punctual).Step (World.Start {}) P) :
    Dropped P.shared := by
  refine h.invariant (I := fun P => Dropped P.shared) (fun P hs => ?_) fun P m P' hstep hd => ?_
  · rw [hs.1]
    exact ⟨nofun, nofun, nofun⟩
  · rcases hstep.shared with ⟨p, -, hsame⟩ | ⟨i, log, o, k, r, -, -, now, receipt, hallowed, hr⟩
    · rw [hsame]
      exact hd
    · have hnext := dropped_respond receipt hd hallowed
      rw [hr] at hnext
      exact hnext

/-- As long as every late response finds its deadline, it is not kept, and no call ever returns it. -/
theorem late_responses_dropped
    (h : Reachable (exchanging Waits Punctual).Step (World.Start {}) P) :
    ∀ e ∈ P.shared.late, (∀ v, P.shared.coordinator.responses v ≠ some e) ∧
      ∀ i event P', (exchanging Waits Punctual).Step P (.call i event) P' →
        handedOver event ≠ some e := by
  intro e he
  have hd := dropped_reachable h
  refine ⟨hd.dropped e he, fun i event P' hstep hreturned => ?_⟩
  obtain ⟨o, r⟩ := event
  obtain ⟨log, k, -, ⟨now, receipt, -, hr⟩, -⟩ := hstep.called
  have hanswer : (P.shared.respond now receipt o).1 = r := by rw [hr]
  obtain ⟨v, hv⟩ := handedOver_buffered hanswer hreturned
  exact hd.dropped e he v hv

end Runs

section Sample

local instance lateResponseTexts : Texts := .sample

/-- A response with a correlation id, and its request as its cause. -/
def responseTo (requestId correlationId : String) : MessageEnvelope where
  messageId := .str "m1"
  messageType := .str "invoice.total"
  messageKind := .str "response"
  version := 1
  payload := .dict []
  headers := []
  createdAt := .null
  correlationId := .str correlationId
  causationId := .str requestId

/-- `wait_for_response` times out, and then the response comes. -/
def droppedResponse : Pool ReplyCalls Exchange Ended :=
  ((((⟨{}, []⟩ : Pool ReplyCalls Exchange Ended).begin
    (waitForResponse "q1" "c" (some 0) 1 ())).begin (storing (responseTo "q1" "c") ())).turns [0, 0]
      momentary).turn 1 momentary

theorem late_responses_dropped_once : droppedResponse.shared.late = [responseTo "q1" "c"] ∧
    ∀ v, droppedResponse.shared.coordinator.responses v ≠ some (responseTo "q1" "c") := by
  have hstart : Reachable (exchanging Waits Punctual).Step (World.Start {})
      (⟨{}, []⟩ : Pool ReplyCalls Exchange Ended) := ⟨_, [], ⟨rfl, rfl⟩, .refl _⟩
  have hbegun := (hstart.begin (.inr (.inl ⟨"q1", "c", some 0, 1, rfl⟩))).begin
    (.inr (.inr (.inr ⟨responseTo "q1" "c", rfl⟩)))
  have hwaits := reachable_turn (i := 0) hbegun fun log o k hi => by
    cases hi
    trivial
  have htimedOut := reachable_turn (i := 0) hwaits fun log o k hi => by
    cases hi
    trivial
  have hreachable : Reachable (exchanging Waits Punctual).Step (World.Start {}) droppedResponse :=
    reachable_turn (i := 1) htimedOut fun log o k hi => by
      cases hi
      exact fun _ _ _ => by decide
  have hlate : droppedResponse.shared.late = [responseTo "q1" "c"] := by decide
  exact ⟨hlate, (late_responses_dropped hreachable _ (hlate ▸ List.mem_singleton_self _)).1⟩

/-- A request without a timeout stores the late response to one that has timed out, and a request that
uses the correlation id again gets it. -/
def lateForRequest : Pool ReplyCalls Exchange Ended :=
  (((((⟨{}, []⟩ : Pool ReplyCalls Exchange Ended).begin
    (request "q1" "c" "replies" (some 0) 1 ())).begin
    (publisher "replies" (responseMessage "q1" "c") ())).begin
    (request "q2" "d" "replies" none 1 ())).begin
    (request "q3" "c" "replies" none 1 ())).turns [0, 0, 0, 0, 1, 2, 2, 2, 2, 2, 3, 3] momentary

/-- `wait_for_response` times out, another response evicts its deadline, and then the response
comes. -/
def lateForWait : Pool ReplyCalls Exchange Ended :=
  ((((⟨{}, []⟩ : Pool ReplyCalls Exchange Ended).begin
    (waitForResponse "q1" "c" (some 0) 1 ())).begin
    (storing (responseTo "q2" "d") ())).begin
    (storing (responseTo "q1" "c") ())).turns [0, 0, 1, 2] momentary

theorem late_response_returned :
    (Reachable (exchanging Waits fun _ _ _ => True).Step (World.Start {}) lateForRequest ∧
      ∃ e ∈ lateForRequest.shared.late, ∃ T ∈ lateForRequest.threads,
        requestedBy T = some "c" ∧ returnedBy T = some e) ∧
    Reachable (exchanging Waits fun _ _ _ => True).Step (World.Start {}) lateForWait ∧
      ∃ e ∈ lateForWait.shared.late, lateForWait.shared.coordinator.responses (.str "c") = some e := by
  have hstart : Reachable (exchanging Waits fun _ _ _ => True).Step (World.Start {})
      (⟨{}, []⟩ : Pool ReplyCalls Exchange Ended) := ⟨_, [], ⟨rfl, rfl⟩, .refl _⟩
  refine ⟨⟨?_, ?_⟩, ?_, ?_⟩
  · refine Reachable.turns ?_ fun s o => ⟨0, some "r", trivial, rfl⟩
    exact (((hstart.begin (.inl ⟨"q1", "c", "replies", some 0, 1, rfl⟩)).begin
      (.inr (.inr (.inl ⟨"replies", responseMessage "q1" "c", rfl⟩)))).begin
      (.inl ⟨"q2", "d", "replies", none, 1, rfl⟩)).begin
      (.inl ⟨"q3", "c", "replies", none, 1, rfl⟩)
  · decide
  · refine Reachable.turns ?_ fun s o => ⟨0, some "r", trivial, rfl⟩
    exact ((hstart.begin (.inr (.inl ⟨"q1", "c", some 0, 1, rfl⟩))).begin
      (.inr (.inr (.inr ⟨responseTo "q2" "d", rfl⟩)))).begin
      (.inr (.inr (.inr ⟨responseTo "q1" "c", rfl⟩)))
  · decide

end Sample

end Pybus
