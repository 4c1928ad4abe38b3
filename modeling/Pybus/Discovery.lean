import Pybus.Registration

/-! The discovery of handlers in functions, modules and objects, and handlers registered twice. -/
namespace Pybus

open Dictionary Methods HandlerTables

variable {Cls : Type}

/-- What `register_handlers` is given. -/
structure HandlerTarget where
  /-- The object itself, where it is callable. -/
  callable : Option Callable := none
  /-- Its callable members, as this lookup of its attributes has made them. -/
  members : List Callable := []

/-- The arguments with which a marked callable is registered. -/
def HandlerBinding.registration (b : HandlerBinding Cls) (h : Callable) :
    HandlerRegistration Cls where
  messageKind := b.messageKind
  messageType := b.messageType
  handler := h
  messageClass := b.messageClass
  allowMultiple := b.allowMultiple

variable [DecidableEq Cls] (specs : Attached Cls)

/-- The loop of `_register_target_handlers` over the members. -/
def registerMembers : List Callable → EStateM Exc (HandlerTables Cls) (List Callable)
  | [] => return []
  | candidate :: members =>
    match candidate.binding specs with
    | none => registerMembers members
    | some b => do
      let handler ← register specs (b.registration candidate)
      let handlers ← registerMembers members
      return handler :: handlers

/-- `_register_target_handlers`. -/
def registerTargetHandlers (target : HandlerTarget) :
    EStateM Exc (HandlerTables Cls) (List Callable) :=
  match target.callable with
  | some h =>
    match h.binding specs with
    | some b => do
      let handler ← register specs (b.registration h)
      return [handler]
    | none => registerMembers specs target.members
  | none => registerMembers specs target.members

/-- `register_handlers`. -/
def registerHandlers : List HandlerTarget → EStateM Exc (HandlerTables Cls) (List Callable)
  | [] => return []
  | target :: targets => do
    let handlers ← registerTargetHandlers specs target
    let others ← registerHandlers targets
    return handlers ++ others

/-- A call that registers handlers. -/
inductive Registering (Cls : Type)
  | registerHandlers (targets : List HandlerTarget)
  | register (call : HandlerRegistration Cls)

namespace Registering

/-- What the call does to the tables. -/
def perform : Registering Cls → EStateM Exc (HandlerTables Cls) (List Callable)
  | registerHandlers targets => Pybus.registerHandlers specs targets
  | register call => do
    let handler ← HandlerTables.register specs call
    return [handler]

end Registering

/-- The tables that calls leave, whether they return or raise. -/
def reached (ops : List (Registering Cls)) : HandlerTables Cls :=
  after (Registering.perform specs) {} ops

/-- The handlers that the loop over the handlers of a message calls; `goesOn` tells after which of
them it goes on. -/
def invoked (goesOn : Callable → Bool) : List Callable → List Callable
  | [] => []
  | h :: hs => if goesOn h then h :: invoked goesOn hs else [h]

/-- No key holds a handler twice, and no delivery invokes one twice. -/
structure Once (s : HandlerTables Cls) : Prop where
  held : ∀ key, (s.handlersFor key).Pairwise fun h h' => ¬ h.Same h'
  invoked : ∀ key goesOn, (invoked goesOn (s.handlersFor key)).Pairwise fun h h' => ¬ h.Same h'

/-- The key holds the handler as a bound method that another lookup has made, and nothing else
keeps the call from being accepted. -/
structure Missed (s : HandlerTables Cls) (call : HandlerRegistration Cls) : Prop where
  other : call.handler ∉ s.handlersFor call.key
  same : ∃ h ∈ s.handlersFor call.key, h.Same call.handler
  takesClass : s.TakesClass call
  takesHandler : s.TakesHandler specs call

variable {specs} {s s' : HandlerTables Cls} {call : HandlerRegistration Cls}

/-! ### One call -/

omit [DecidableEq Cls] in
/-- The loop calls some of the handlers, each where the list has it. -/
theorem invoked_sublist {goesOn : Callable → Bool} {hs : List Callable} :
    (invoked goesOn hs).Sublist hs := by
  induction hs with
  | nil => exact .slnil
  | cons h hs ih =>
    unfold invoked
    split
    · exact ih.cons_cons h
    · exact (List.nil_sublist hs).cons_cons h

omit [DecidableEq Cls] in
theorem once_iff : Once s ↔ ∀ key, (s.handlersFor key).Pairwise fun h h' => ¬ h.Same h' := by
  constructor
  · exact Once.held
  · intro hs
    exact ⟨hs, fun key _ => (hs key).sublist invoked_sublist⟩

/-- A handler is held twice after a call exactly where it was before, or the call adds one that is
held already. -/
theorem register_once (s : HandlerTables Cls) (call : HandlerRegistration Cls) :
    Once (left (register specs call s)) ↔ Once s ∧ ¬ Missed specs s call := by
  rcases @register_cases Cls _ specs s call with ⟨s', hr, hreg⟩ | ⟨hnot, e, hr⟩
  · rw [hr]
    change Once s' ↔ _
    rw [once_iff, once_iff]
    constructor
    · intro hs'
      constructor
      · intro key
        have hkey := hs' key
        rw [hreg.handlers] at hkey
        split at hkey
        · exact (List.pairwise_append.mp hkey).1
        · exact hkey
      · intro hmissed
        have hkey := hs' call.key
        rw [hreg.handlers, if_pos rfl] at hkey
        obtain ⟨h, hh, hsame⟩ := hmissed.same
        exact (List.pairwise_append.mp hkey).2.2 h hh _ List.mem_cons_self hsame
    · rintro ⟨hs, hmissed⟩ key
      rw [hreg.handlers]
      split
      · rename_i hk
        subst hk
        refine List.pairwise_append.mpr ⟨hs call.key, List.pairwise_singleton _ _, ?_⟩
        intro h hh h' hh' hsame
        rw [List.mem_singleton] at hh'
        subst hh'
        exact hmissed ⟨hreg.fresh, ⟨h, hh, hsame⟩, hreg.takesClass, hreg.takesHandler⟩
      · exact hs key
  · rw [hr]
    change Once s ↔ _
    have hmissed : ¬ Missed specs s call := fun h => hnot ⟨h.takesClass, h.other, h.takesHandler⟩
    simp [hmissed]

/-! ### Calls that register several -/

/-- The registration of a callable that is marked as a handler. -/
def Callable.registration (specs : Attached Cls) (h : Callable) :
    Option (HandlerRegistration Cls) :=
  (h.binding specs).map (·.registration h)

/-- The registrations that a target asks for. -/
def HandlerTarget.registrations (specs : Attached Cls) (target : HandlerTarget) :
    List (HandlerRegistration Cls) :=
  match target.callable.bind (·.registration specs) with
  | some call => [call]
  | none => target.members.filterMap (·.registration specs)

/-- The registrations that a call asks for. -/
def Registering.registrations (specs : Attached Cls) :
    Registering Cls → List (HandlerRegistration Cls)
  | registerHandlers targets => targets.flatMap (·.registrations specs)
  | register call => [call]

theorem registerMembers_eq {members : List Callable} : registerMembers specs members =
    inOrder (register specs) (members.filterMap (·.registration specs)) := by
  induction members with
  | nil => rfl
  | cons h members ih =>
    unfold registerMembers
    cases hb : h.binding specs with
    | none =>
      have hnone : h.registration specs = none := by
        unfold Callable.registration
        rw [hb, Option.map_none]
      rw [List.filterMap_cons_none hnone]
      exact ih
    | some b =>
      have hsome : h.registration specs = some (b.registration h) := by
        unfold Callable.registration
        rw [hb, Option.map_some]
      rw [List.filterMap_cons_some hsome, inOrder, ← ih]

theorem registerTargetHandlers_eq {target : HandlerTarget} : registerTargetHandlers specs target =
    inOrder (register specs) (target.registrations specs) := by
  unfold registerTargetHandlers HandlerTarget.registrations Callable.registration
  cases target.callable with
  | none => exact registerMembers_eq
  | some h =>
    cases hb : h.binding specs with
    | none =>
      simp only [hb, Option.bind_some, Option.map_none]
      exact registerMembers_eq
    | some b => simp [hb, inOrder]

theorem registerHandlers_eq {targets : List HandlerTarget} : registerHandlers specs targets =
    inOrder (register specs) (targets.flatMap (·.registrations specs)) := by
  induction targets with
  | nil => rfl
  | cons target targets ih =>
    unfold registerHandlers
    rw [List.flatMap_cons, inOrder_append, ih, registerTargetHandlers_eq]

/-- A call makes its registrations one after the other, to the first that raises. -/
theorem perform_eq (op : Registering Cls) :
    op.perform specs = inOrder (register specs) (op.registrations specs) := by
  cases op with
  | registerHandlers targets => exact registerHandlers_eq
  | register call => simp [Registering.perform, Registering.registrations, inOrder]

theorem reached_eq {ops : List (Registering Cls)} : reached specs ops =
    after (inOrder (register specs)) {} (ops.map (·.registrations specs)) := by
  unfold reached after
  rw [List.foldl_map]
  congr 1
  funext s op
  rw [perform_eq]

/-- Each registration that calls attempt, with the tables as it finds them. -/
def attempts (specs : Attached Cls) (ops : List (Registering Cls)) :
    List (HandlerTables Cls × HandlerRegistration Cls) :=
  foundAll (register specs) {} (ops.map (·.registrations specs))

/-- No handler is ever registered twice exactly where no registration attempted is one that the
comparison with the handlers of its key has missed. -/
theorem once_iff_none_missed (specs : Attached Cls) (ops : List (Registering Cls)) :
    (∀ ops', ops' <+: ops → Once (reached specs ops')) ↔
      ∀ p ∈ attempts specs ops, ¬ Missed specs p.1 p.2 := by
  have hinit : Once ({} : HandlerTables Cls) := once_iff.mpr fun key => by simp [handlersFor]
  have hreached : ∀ ops', Once (reached specs ops') ↔
      ∀ p ∈ attempts specs ops', ¬ Missed specs p.1 p.2 := by
    intro ops'
    rw [reached_eq, batches_iff register_once]
    exact and_iff_right hinit
  constructor
  · intro h
    exact (hreached ops).mp (h ops (List.prefix_refl ops))
  · rintro h ops' ⟨later, rfl⟩
    refine (hreached ops').mpr fun p hp => h p ?_
    unfold attempts
    rw [List.map_append, foundAll_append]
    exact List.mem_append_left _ hp

omit [DecidableEq Cls] in
/-- Only bound methods are missed. -/
theorem missed_method (h : Missed specs s call) : ∃ r f m, call.handler = .method r f m := by
  obtain ⟨hother, ⟨other, hmem, hsame⟩, -, -⟩ := h
  cases hc : call.handler with
  | method r f m => exact ⟨r, f, m, rfl⟩
  | function f =>
    cases other with
    | method r f' m =>
      rw [hc] at hsame
      exact hsame.elim
    | function f' =>
      rw [hc] at hsame hother
      obtain rfl : f' = f := hsame
      exact absurd hmem hother

/-- One object, given to `register_handlers` twice. -/
def twiceGiven : List (Registering Unit) :=
  [.registerHandlers [{ members := [.method 1 7 0] }],
    .registerHandlers [{ members := [.method 1 7 1] }]]

/-- Its method is an event handler. -/
def eventMethod : Attached Unit := fun f =>
  if f = 7 then some { messageKind := "event", messageType := "order.created" } else none

/-- Each event is then handled twice by one method of one object. -/
theorem handler_registered_twice : ¬ Once (reached eventMethod twiceGiven) ∧
    invoked (fun _ => true) ((reached eventMethod twiceGiven).handlersFor ("event", "order.created"))
      = [.method 1 7 0, .method 1 7 1] := by
  have hheld : (reached eventMethod twiceGiven).handlersFor ("event", "order.created") =
      [.method 1 7 0, .method 1 7 1] := by decide
  constructor
  · intro h
    have hkey := h.held ("event", "order.created")
    rw [hheld, List.pairwise_cons] at hkey
    exact hkey.1 (.method 1 7 1) List.mem_cons_self ⟨rfl, rfl⟩
  · rw [hheld]
    rfl

end Pybus
