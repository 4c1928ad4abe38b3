import Pybus.Dictionary
import Pybus.Handlers

/-! The registry of handlers as calls of `register` and `register_handlers` change it. -/
namespace Pybus

open Dictionary Methods

variable {Cls : Type}

/-- `HandlerSpec`, as a decorator attaches it to a function. -/
structure HandlerBinding (Cls : Type) where
  messageKind : String
  messageType : String
  messageClass : Option Cls := none
  allowMultiple : Option Bool := none
  spec : HandlerSpec := {}
  deriving DecidableEq

/-- A callable. A function or any other object keeps its identity. A bound method is an object that
every lookup of the attribute makes afresh; `made` tells apart what different lookups made. -/
inductive Callable
  | function (id : Nat)
  | method (receiver function made : Nat)
  deriving DecidableEq

/-- What decorators have attached to functions. -/
abbrev Attached (Cls : Type) := Nat → Option (HandlerBinding Cls)

namespace Callable

/-- `_handler_spec`: a bound method shows the attributes of its function. -/
def binding (specs : Attached Cls) : Callable → Option (HandlerBinding Cls)
  | function f | method _ f _ => specs f

/-- `_is_batched`. -/
def isBatched (specs : Attached Cls) (h : Callable) : Bool :=
  (h.binding specs).any (·.spec.isBatched)

/-- The same handler: one function, or one method of one object. -/
def Same : Callable → Callable → Prop
  | method r f _, method r' f' _ => r = r' ∧ f = f'
  | function f, function f' => f = f'
  | _, _ => False

instance : DecidableRel Same
  | method _ _ _, method _ _ _ => inferInstanceAs (Decidable (_ ∧ _))
  | function f, function f' => inferInstanceAs (Decidable (f = f'))
  | function _, method _ _ _ | method _ _ _, function _ => isFalse id

end Callable

/-- The arguments of `Registry.register`. -/
structure HandlerRegistration (Cls : Type) where
  messageKind : String
  messageType : String
  handler : Callable
  messageClass : Option Cls := none
  allowMultiple : Option Bool := none

namespace HandlerRegistration

def key (call : HandlerRegistration Cls) : MessageKey := (call.messageKind, call.messageType)

/-- `allow_multiple`, which is the default of events. -/
def allowsMultiple (call : HandlerRegistration Cls) : Bool :=
  call.allowMultiple.getD (call.messageKind = "event")

end HandlerRegistration

/-- The two dictionaries of a `Registry`. -/
structure HandlerTables (Cls : Type) where
  handlers : Dictionary MessageKey (List Callable) := []
  messageClasses : Dictionary MessageKey Cls := []

/-- Raise a `ValueError` under a condition. -/
def refuse (c : Prop) [Decidable c] (message : String) : EStateM Exc (HandlerTables Cls) Unit :=
  if c then throw (.valueError message) else return ()

namespace HandlerTables

/-- `handlers_for`. -/
def handlersFor (s : HandlerTables Cls) (key : MessageKey) : List Callable :=
  (s.handlers.lookup key).getD []

/-- `message_class_for`. -/
def messageClassFor (s : HandlerTables Cls) (key : MessageKey) : Option Cls :=
  s.messageClasses.lookup key

/-- `if message_class is not None: self._message_classes[key] = message_class`. -/
def bindClass (call : HandlerRegistration Cls) : EStateM Exc (HandlerTables Cls) Unit :=
  match call.messageClass with
  | some c => modify fun s => { s with messageClasses := s.messageClasses.put call.key c }
  | none => return ()

variable [DecidableEq Cls]

/-- `register`. The class of the key is entered before the last checks. -/
def register (specs : Attached Cls) (call : HandlerRegistration Cls) : EStateM Exc (HandlerTables Cls) Callable := do
  let s ← get
  let existingClass := s.messageClassFor call.key
  let existingHandlers := s.handlersFor call.key
  let name := call.messageKind ++ ":" ++ call.messageType
  refuse (call.messageClass = none ∧ existingClass ≠ none)
    ("Cannot mix typed and string-bound handlers for " ++ name)
  refuse (call.messageClass ≠ none ∧ existingHandlers ≠ [] ∧ existingClass = none)
    ("Cannot mix typed and string-bound handlers for " ++ name)
  refuse (call.messageClass ≠ none ∧ existingClass ≠ none ∧ existingClass ≠ call.messageClass)
    ("Cannot register different typed message classes for " ++ name)
  bindClass call
  modify fun s => { s with handlers := s.handlers.setdefault call.key [] }
  let s ← get
  let handlers := s.handlersFor call.key
  refuse (call.handler ∈ handlers) ("Duplicate handler registered for " ++ name)
  refuse (handlers ≠ [] ∧ (call.handler.isBatched specs || handlers.any (·.isBatched specs)) = true)
    ("A batched handler already registered for " ++ name)
  refuse (call.allowsMultiple = false ∧ handlers ≠ []) ("Handler already registered for " ++ name)
  modify fun s => { s with handlers := s.handlers.put call.key (handlers ++ [call.handler]) }
  return call.handler

/-- The key takes the class of the call: it has that class, or neither a class nor handlers. -/
def TakesClass (s : HandlerTables Cls) (call : HandlerRegistration Cls) : Prop :=
  s.messageClassFor call.key = call.messageClass ∨
    s.messageClassFor call.key = none ∧ s.handlersFor call.key = []

/-- The key takes another handler: it has none, or it may have several and none is batched. -/
def TakesHandler (specs : Attached Cls) (s : HandlerTables Cls) (call : HandlerRegistration Cls) : Prop :=
  s.handlersFor call.key = [] ∨ call.allowsMultiple = true ∧ call.handler.isBatched specs = false ∧
    ∀ h ∈ s.handlersFor call.key, h.isBatched specs = false

variable {specs : Attached Cls} {s s' : HandlerTables Cls} {call : HandlerRegistration Cls}

section Refusals

omit [DecidableEq Cls]

variable {c : Prop} [Decidable c] {message : String} {β : Type}
  {f : Unit → EStateM Exc (HandlerTables Cls) β}

theorem refuse_neg (hc : ¬ c) : (refuse c message >>= f) s = f () s := by
  unfold refuse
  rw [if_neg hc]
  rfl

theorem refuse_pos (hc : c) : (refuse c message >>= f) s = .error (.valueError message) s := by
  unfold refuse
  rw [if_pos hc]
  rfl

end Refusals

/-- The tables after the writes that come before the last checks. -/
def entered (s : HandlerTables Cls) (call : HandlerRegistration Cls) : HandlerTables Cls where
  handlers := s.handlers.setdefault call.key []
  messageClasses := (call.messageClass.map (s.messageClasses.put call.key)).getD s.messageClasses

omit [DecidableEq Cls] in
theorem bindClass_eq : bindClass call s = .ok () { s with
    messageClasses := (call.messageClass.map (s.messageClasses.put call.key)).getD s.messageClasses } := by
  unfold bindClass
  cases call.messageClass <;> rfl

omit [DecidableEq Cls] in
@[simp] theorem handlersFor_entered {key : MessageKey} :
    (s.entered call).handlersFor key = s.handlersFor key := by
  unfold handlersFor entered
  simp only [lookup_setdefault]
  by_cases hk : key = call.key
  · subst hk
    simp
  · simp [hk]

omit [DecidableEq Cls] in
theorem messageClassFor_entered {key : MessageKey} : (s.entered call).messageClassFor key =
    if key = call.key then call.messageClass.or (s.messageClassFor key) else s.messageClassFor key := by
  unfold messageClassFor entered
  cases call.messageClass with
  | none => simp
  | some c => simp [lookup_put]

omit [DecidableEq Cls] in
/-- Where the key has handlers, its class is entered again at most. -/
theorem entered_eq (hclass : s.TakesClass call) (hs : s.handlersFor call.key ≠ []) :
    s.entered call = s := by
  have hsame : s.messageClassFor call.key = call.messageClass := by
    rcases hclass with hsame | ⟨-, hnone⟩
    · exact hsame
    · exact absurd hnone hs
  unfold entered
  have hhandlers : s.handlers.setdefault call.key [] = s.handlers := by
    unfold handlersFor at hs
    cases hl : s.handlers.lookup call.key with
    | none =>
      rw [hl] at hs
      exact absurd rfl hs
    | some hs' => exact setdefault_of_lookup hl
  rw [hhandlers]
  cases hc : call.messageClass with
  | none => rfl
  | some c =>
    rw [hc] at hsame
    change (⟨s.handlers, s.messageClasses.put call.key c⟩ : HandlerTables Cls) = s
    rw [put_of_lookup hsame]

/-- What a call that returns has checked and entered. -/
structure Registers (specs : Attached Cls) (s : HandlerTables Cls) (call : HandlerRegistration Cls)
    (s' : HandlerTables Cls) : Prop where
  takesClass : s.TakesClass call
  fresh : call.handler ∉ s.handlersFor call.key
  takesHandler : s.TakesHandler specs call
  handlers : ∀ key, s'.handlersFor key =
    if key = call.key then s.handlersFor key ++ [call.handler] else s.handlersFor key
  messageClasses : ∀ key, s'.messageClassFor key =
    if key = call.key then call.messageClass else s.messageClassFor key
  keys_nodup : (s.handlers.map (·.1)).Nodup → (s'.handlers.map (·.1)).Nodup

/-- The first three checks accept the class. -/
theorem takesClass_iff : s.TakesClass call ↔
    ¬ (call.messageClass = none ∧ s.messageClassFor call.key ≠ none) ∧
    ¬ (call.messageClass ≠ none ∧ s.handlersFor call.key ≠ [] ∧ s.messageClassFor call.key = none) ∧
    ¬ (call.messageClass ≠ none ∧ s.messageClassFor call.key ≠ none ∧
      s.messageClassFor call.key ≠ call.messageClass) := by
  unfold TakesClass
  cases call.messageClass <;> cases s.messageClassFor call.key <;>
    by_cases hs : s.handlersFor call.key = [] <;> simp [hs]

omit [DecidableEq Cls] in
/-- The last two checks accept the handler. -/
theorem takesHandler_iff : s.TakesHandler specs call ↔
    ¬ (s.handlersFor call.key ≠ [] ∧ (call.handler.isBatched specs ||
      (s.handlersFor call.key).any (·.isBatched specs)) = true) ∧
    ¬ (call.allowsMultiple = false ∧ s.handlersFor call.key ≠ []) := by
  unfold TakesHandler
  by_cases hs : s.handlersFor call.key = []
  · simp [hs]
  · cases call.allowsMultiple <;> cases call.handler.isBatched specs <;> simp [hs]

/-- A call enters its handler or leaves everything as it is. -/
theorem register_cases : (∃ s', register specs call s = .ok call.handler s' ∧ Registers specs s call s') ∨
    (¬ (s.TakesClass call ∧ call.handler ∉ s.handlersFor call.key ∧ s.TakesHandler specs call) ∧
      ∃ e, register specs call s = .error e s) := by
  by_cases hclass : s.TakesClass call
  · obtain ⟨h₁, h₂, h₃⟩ := takesClass_iff.mp hclass
    have hentered : ∀ f : Unit → EStateM Exc (HandlerTables Cls) Callable,
        (do
          bindClass call
          modify fun s => { s with handlers := s.handlers.setdefault call.key [] }
          f () : EStateM Exc (HandlerTables Cls) Callable) s = f () (s.entered call) := by
      intro f
      rw [bind_of_ok bindClass_eq]
      rfl
    unfold register
    rw [get_bind, refuse_neg h₁, refuse_neg h₂, refuse_neg h₃, hentered fun _ => _, get_bind]
    have hh : (s.entered call).handlersFor call.key = s.handlersFor call.key := handlersFor_entered
    by_cases hdup : call.handler ∈ s.handlersFor call.key
    · have hs : s.handlersFor call.key ≠ [] := List.ne_nil_of_mem hdup
      right
      refine ⟨fun h => h.2.1 hdup, ?_⟩
      rw [refuse_pos (by rwa [hh]), entered_eq hclass hs]
      exact ⟨_, rfl⟩
    · rw [refuse_neg (by rwa [hh])]
      by_cases htakes : s.TakesHandler specs call
      · obtain ⟨h₄, h₅⟩ := takesHandler_iff.mp htakes
        rw [refuse_neg (by rwa [hh]), refuse_neg (by rwa [hh])]
        left
        refine ⟨_, rfl, hclass, hdup, htakes, ?_, ?_, fun h => nodup_put (nodup_setdefault h)⟩
        · intro key
          change ((put (s.entered call).handlers call.key _).lookup key).getD [] = _
          rw [lookup_put]
          by_cases hk : key = call.key
          · subst hk
            simp
          · rw [if_neg hk, if_neg hk]
            exact handlersFor_entered
        · intro key
          change (s.entered call).messageClassFor key = _
          rw [messageClassFor_entered]
          by_cases hk : key = call.key
          · subst hk
            rw [if_pos rfl, if_pos rfl]
            rcases hclass with hsame | ⟨hnone, -⟩
            · rw [hsame, Option.or_self]
            · rw [hnone, Option.or_none]
          · rw [if_neg hk, if_neg hk]
      · right
        refine ⟨fun h => htakes h.2.2, ?_⟩
        have hs : s.handlersFor call.key ≠ [] := fun hs => htakes (.inl hs)
        have hsame : s.entered call = s := entered_eq hclass hs
        by_cases h₄ : s.handlersFor call.key ≠ [] ∧ (call.handler.isBatched specs ||
            (s.handlersFor call.key).any (·.isBatched specs)) = true
        · rw [refuse_pos (by rwa [hh]), hsame]
          exact ⟨_, rfl⟩
        · have h₅ : call.allowsMultiple = false ∧ s.handlersFor call.key ≠ [] := by
            by_contra h₅
            exact htakes (takesHandler_iff.mpr ⟨h₄, h₅⟩)
          rw [refuse_neg (by rwa [hh]), refuse_pos (by rwa [hh]), hsame]
          exact ⟨_, rfl⟩
  · right
    refine ⟨fun h => hclass h.1, ?_⟩
    unfold register
    rw [get_bind]
    by_cases h₁ : call.messageClass = none ∧ s.messageClassFor call.key ≠ none
    · rw [refuse_pos h₁]
      exact ⟨_, rfl⟩
    · rw [refuse_neg h₁]
      by_cases h₂ : call.messageClass ≠ none ∧ s.handlersFor call.key ≠ [] ∧
          s.messageClassFor call.key = none
      · rw [refuse_pos h₂]
        exact ⟨_, rfl⟩
      · have h₃ : call.messageClass ≠ none ∧ s.messageClassFor call.key ≠ none ∧
            s.messageClassFor call.key ≠ call.messageClass := by
          by_contra h₃
          exact hclass (takesClass_iff.mpr ⟨h₁, h₂, h₃⟩)
        rw [refuse_neg h₂, refuse_pos h₃]
        exact ⟨_, rfl⟩

theorem register_atomic (call : HandlerRegistration Cls) : Atomic (register specs call) := by
  intro s e s' h
  rcases @register_cases Cls _ specs s call with ⟨s'', hr, -⟩ | ⟨-, e', hr⟩
  · rw [hr] at h
    cases h
  · rw [hr] at h
    cases h
    rfl

section Runs

variable {calls : List (HandlerRegistration Cls)} {key : MessageKey}

/-- The tables that calls of `register` leave, whether they return or raise. -/
def history (specs : Attached Cls) (calls : List (HandlerRegistration Cls)) : HandlerTables Cls :=
  after (register specs) {} calls

/-- The calls for a key that returned, oldest first. -/
def registered (specs : Attached Cls) (calls : List (HandlerRegistration Cls)) (key : MessageKey) :
    List (HandlerRegistration Cls) :=
  (accepted (register specs) {} calls).filter (·.key = key)

/-- What the tables hold under a key whose accepted calls are these. -/
structure Holds (specs : Attached Cls) (s : HandlerTables Cls) (key : MessageKey)
    (on : List (HandlerRegistration Cls)) : Prop where
  handlers : s.handlersFor key = on.map (·.handler)
  class_of : ∀ call ∈ on, call.messageClass = s.messageClassFor key
  class_none : on = [] → s.messageClassFor key = none
  batched : ∀ h ∈ s.handlersFor key, h.isBatched specs = true → s.handlersFor key = [h]
  multiple : ∀ call ∈ on.tail, call.allowsMultiple = true

variable {on : List (HandlerRegistration Cls)}

omit [DecidableEq Cls] in
/-- A call for another key leaves the key alone. -/
theorem Registers.other (h : Registers specs s call s') (hk : key ≠ call.key)
    (hs : Holds specs s key on) : Holds specs s' key on := by
  obtain ⟨hhandlers, hclass, hnone, hbatched, hmultiple⟩ := hs
  have hh : s'.handlersFor key = s.handlersFor key := (h.handlers key).trans (if_neg hk)
  have hc : s'.messageClassFor key = s.messageClassFor key :=
    (h.messageClasses key).trans (if_neg hk)
  refine ⟨?_, ?_, ?_, ?_, hmultiple⟩
  · rwa [hh]
  · rwa [hc]
  · rwa [hc]
  · rwa [hh]

omit [DecidableEq Cls] in
/-- A call that returns adds itself to the calls for its key. -/
theorem Registers.own (h : Registers specs s call s') (hs : Holds specs s call.key on) :
    Holds specs s' call.key (on ++ [call]) := by
  obtain ⟨hhandlers, hclass, hnone, hbatched, hmultiple⟩ := hs
  have hh : s'.handlersFor call.key = s.handlersFor call.key ++ [call.handler] :=
    (h.handlers call.key).trans (if_pos rfl)
  have hc : s'.messageClassFor call.key = call.messageClass :=
    (h.messageClasses call.key).trans (if_pos rfl)
  have hempty : s.handlersFor call.key = [] → on = [] := by
    intro hs
    rw [hhandlers] at hs
    exact List.map_eq_nil_iff.mp hs
  refine ⟨?_, ?_, ?_, ?_, ?_⟩
  · rw [hh, hhandlers, List.map_append]
    rfl
  · intro other hother
    rw [hc]
    rcases List.mem_append.mp hother with hother | hother
    · rcases h.takesClass with hsame | ⟨-, hs⟩
      · exact (hclass other hother).trans hsame
      · rw [hempty hs] at hother
        cases hother
    · rw [List.mem_singleton.mp hother]
  · intro hnil
    simp at hnil
  · rw [hh]
    intro handler hmem hb
    rcases h.takesHandler with hs | ⟨-, hnew, hold⟩
    · rw [hs, List.nil_append] at hmem ⊢
      rw [List.mem_singleton.mp hmem]
    · rcases List.mem_append.mp hmem with hmem | hmem
      · rw [hold handler hmem] at hb
        cases hb
      · rw [List.mem_singleton.mp hmem, hnew] at hb
        cases hb
  · intro other hother
    rcases h.takesHandler with hs | ⟨hallows, -⟩
    · rw [hempty hs] at hother
      cases hother
    · cases on with
      | nil => cases hother
      | cons first rest =>
        rw [List.cons_append, List.tail_cons] at hother
        rcases List.mem_append.mp hother with hother | hother
        · exact hmultiple other hother
        · rwa [List.mem_singleton.mp hother]

theorem history_holds (key : MessageKey) :
    Holds specs (history specs calls) key (registered specs calls key) := by
  refine accepted_invariant (I := fun l s => Holds specs s key (l.filter (·.key = key))) ?_ ?_ ?_
  · intro l call s h s' hs hr
    rcases @register_cases Cls _ specs s call with ⟨s'', hr', hreg⟩ | ⟨-, e, hr'⟩
    · rw [hr] at hr'
      cases hr'
      rw [List.filter_append, List.filter_singleton]
      by_cases hk : key = call.key
      · subst hk
        simpa using hreg.own hs
      · have hne : decide (call.key = key) = false := by simpa using Ne.symm hk
        rw [hne]
        simpa using hreg.other hk hs
    · rw [hr] at hr'
      cases hr'
  · intro l call s e s' hs hr
    obtain rfl := register_atomic call s e s' hr
    exact hs
  · exact ⟨rfl, by simp, fun _ => rfl, by simp [handlersFor], by simp⟩

theorem history_nodup : ((history specs calls).handlers.map (·.1)).Nodup := by
  unfold history
  refine after_invariant (I := fun s : HandlerTables Cls => (s.handlers.map (·.1)).Nodup) ?_ ?_
  swap
  · exact List.nodup_nil
  intro call s hs
  rcases @register_cases Cls _ specs s call with ⟨s', hr, hreg⟩ | ⟨-, e, hr⟩
  · rw [hr]
    exact hreg.keys_nodup hs
  · rw [hr]
    exact hs

/-- Each key is typed or bound to strings, and its handlers may stand beside each other. -/
structure Coherent (specs : Attached Cls) (calls : List (HandlerRegistration Cls)) : Prop where
  handlers : ∀ key,
    (history specs calls).handlersFor key = (registered specs calls key).map (·.handler)
  bound : ∀ key, (history specs calls).handlersFor key ≠ [] →
    (∃ c, (history specs calls).messageClassFor key = some c ∧
      ∀ call ∈ registered specs calls key, call.messageClass = some c) ∨
    ((history specs calls).messageClassFor key = none ∧
      ∀ call ∈ registered specs calls key, call.messageClass = none)
  batched : ∀ key, ∀ h ∈ (history specs calls).handlersFor key, h.isBatched specs = true →
    (history specs calls).handlersFor key = [h]
  multiple : ∀ key, 1 < ((history specs calls).handlersFor key).length →
    ∀ call ∈ (registered specs calls key).tail, call.allowsMultiple = true
  atomic : ∀ call, Atomic (register specs call)

section Dispatching

variable {Obj : Type} {number : Callable → Nat} {meaning : Cls → MessageClass Obj}

/-- A callable as a dispatcher sees it; `number` stands for its identity. -/
def toHandler (specs : Attached Cls) (number : Callable → Nat) (h : Callable) : Handler :=
  ⟨number h, (h.binding specs).map (·.spec)⟩

omit [DecidableEq Cls] in
theorem isBatched_toHandler {h : Callable} :
    (toHandler specs number h).spec.isBatched = h.isBatched specs := by
  unfold toHandler Handler.spec Callable.isBatched
  cases h.binding specs <;> rfl

/-- The registry that messages are dispatched from after some calls. -/
def toRegistry (specs : Attached Cls) (calls : List (HandlerRegistration Cls))
    (number : Callable → Nat) (meaning : Cls → MessageClass Obj) : Registry Obj where
  handlers := (history specs calls).handlers.map
    fun item => (item.1, item.2.map (toHandler specs number))
  messageClasses := (history specs calls).messageClasses.map fun item => (item.1, meaning item.2)
  keys_nodup := by
    rw [List.map_map]
    exact history_nodup
  batched_alone := by
    intro item hitem hb
    obtain ⟨⟨key, hs⟩, hentry, rfl⟩ := List.mem_map.mp hitem
    have hfor : (history specs calls).handlersFor key = hs := by
      unfold handlersFor
      rw [lookup_of_mem history_nodup hentry]
      rfl
    obtain ⟨h, hh, hbatched⟩ := List.any_eq_true.mp hb
    obtain ⟨h, hmem, rfl⟩ := List.mem_map.mp hh
    rw [isBatched_toHandler] at hbatched
    have halone := (@history_holds Cls _ specs calls key).batched h (hfor ▸ hmem) hbatched
    rw [hfor] at halone
    rw [List.length_map, halone]
    rfl

/-- It finds under a key what the calls have left there. -/
theorem handlersFor_toRegistry {k t : String} :
    (toRegistry specs calls number meaning).handlersFor (.str k) (.str t) =
      .ok (((history specs calls).handlersFor (k, t)).map (toHandler specs number)) := by
  unfold Registry.handlersFor Registry.lookupKey handlersFor
  simp only [toRegistry, lookup_map_snd]
  cases (history specs calls).handlers.lookup (k, t) <;> rfl

theorem messageClassFor_toRegistry {k t : String} :
    (toRegistry specs calls number meaning).messageClassFor (.str k) (.str t) =
      .ok (((history specs calls).messageClassFor (k, t)).map meaning) := by
  unfold Registry.messageClassFor Registry.lookupKey messageClassFor
  simp only [toRegistry, lookup_map_snd]
  rfl

end Dispatching

end Runs

end HandlerTables

end Pybus
