import Pybus.Codec
import Pybus.Dictionary

/-! The registry of payload types as calls of `register` change it: which identifiers stand for
which types after any of them. -/
namespace Pybus

open Dictionary Methods PayloadTypeRegistry

/-- What `register` is called with; `none` is a value that is no dataclass type. -/
structure TypeRegistration (Cls : Type) where
  valueType : Option Cls
  typeId : Option String := none
  aliases : List String := []

/-- The two dictionaries of a `PayloadTypeRegistry`, which `register` writes one after the other. -/
structure TypeTables (Cls : Type) where
  types : Dictionary String Cls := []
  canonicalIds : Dictionary Cls String := []

namespace TypeTables

section Calls

variable {Cls : Type} [DecidableEq Cls] [Dataclasses Cls]

/-- The check of one identifier. -/
def checkId (c : Cls) (registeredId : String) : EStateM Exc (TypeTables Cls) Unit := do
  let t ← get
  match t.types.lookup registeredId with
  | some existing =>
    if existing ≠ c then
      throw (.valueError ("Payload type identifier " ++ registeredId ++ " is already registered"))
  | none => return ()

/-- `self._types[registered_id] = value_type`. -/
def enterId (c : Cls) (registeredId : String) : EStateM Exc (TypeTables Cls) Unit :=
  modify fun t => { t with types := t.types.put registeredId c }

/-- The check of the identifier that the type may have already. -/
def checkCanonical (c : Cls) (canonicalId : String) : EStateM Exc (TypeTables Cls) Unit := do
  let t ← get
  match t.canonicalIds.lookup c with
  | some existingId =>
    if existingId ≠ canonicalId then
      throw (.valueError ("Payload type is already registered as " ++ existingId))
  | none => return ()

/-- `register`. -/
def register (call : TypeRegistration Cls) : EStateM Exc (TypeTables Cls) String :=
  match call.valueType with
  | none => throw (.typeError "payload types must be dataclass types")
  | some c => do
    let canonicalId := identifier c (call.typeId.getD "")
    checkCanonical c canonicalId
    let registeredIds := canonicalId :: call.aliases
    registeredIds.forM (checkId c)
    registeredIds.forM (enterId c)
    modify fun t => { t with canonicalIds := t.canonicalIds.put c canonicalId }
    return canonicalId

/-- `type_id_for`. -/
def typeIdFor (t : TypeTables Cls) (c : Cls) : Except Exc String :=
  match t.canonicalIds.lookup c with
  | some id => .ok id
  | none => .error (.serialization
      ("Payload type " ++ Dataclasses.qualifiedName c ++ " is not registered"))

omit [DecidableEq Cls] [Dataclasses Cls] in
/-- `resolve`. -/
def resolve (t : TypeTables Cls) (id : String) : Except Exc Cls :=
  match t.types.lookup id with
  | some c => .ok c
  | none => .error (.deserialization ("Payload type " ++ id ++ " is not registered"))

variable {t t' : TypeTables Cls} {c d : Cls} {id k : String} {ids : List String}
  {call : TypeRegistration Cls} {calls calls' : List (TypeRegistration Cls)}

theorem typeIdFor_eq_ok : t.typeIdFor c = .ok id ↔ t.canonicalIds.lookup c = some id := by
  unfold typeIdFor
  cases t.canonicalIds.lookup c <;> simp

omit [DecidableEq Cls] [Dataclasses Cls] in
theorem resolve_eq_ok : t.resolve id = .ok c ↔ t.types.lookup id = some c := by
  unfold resolve
  cases t.types.lookup id <;> simp

/-- An identifier that the type may take: it stands for nothing else. -/
def Free (t : TypeTables Cls) (c : Cls) (id : String) : Prop :=
  ∀ d, t.types.lookup id = some d → d = c

omit [Dataclasses Cls] in
theorem checkId_cases (t : TypeTables Cls) (c : Cls) (id : String) : (t.Free c id ∧ checkId c id t = .ok () t) ∨
    (¬ t.Free c id ∧ ∃ e, checkId c id t = .error e t) := by
  unfold checkId Free
  rw [get_bind]
  cases t.types.lookup id with
  | none => exact .inl ⟨by simp, rfl⟩
  | some existing =>
    by_cases he : existing = c
    · left
      simp only [ne_eq, he, not_true_eq_false, if_false]
      exact ⟨by simp, rfl⟩
    · right
      simp only [ne_eq, he, not_false_eq_true, if_true]
      exact ⟨by simp [he], _, rfl⟩

omit [Dataclasses Cls] in
theorem checkIds_cases (t : TypeTables Cls) (c : Cls) (ids : List String) : ((∀ id ∈ ids, t.Free c id) ∧ ids.forM (checkId c) t = .ok () t) ∨
    ((¬ ∀ id ∈ ids, t.Free c id) ∧ ∃ e, ids.forM (checkId c) t = .error e t) := by
  induction ids with
  | nil => exact .inl ⟨by simp, rfl⟩
  | cons id ids ih =>
    rw [show (id :: ids).forM (checkId c) = checkId c id >>= fun _ => ids.forM (checkId c) from rfl]
    rcases checkId_cases t c id with ⟨hfree, hid⟩ | ⟨hnot, e, he⟩
    · rw [bind_of_ok hid]
      rcases ih with ⟨hrest, hids⟩ | ⟨hnot, e, he⟩
      · left
        refine ⟨?_, hids⟩
        intro k hk
        rcases List.mem_cons.mp hk with rfl | hk
        · exact hfree
        · exact hrest k hk
      · exact .inr ⟨fun hall => hnot fun k hk => hall k (List.mem_cons_of_mem _ hk), e, he⟩
    · exact .inr ⟨fun hall => hnot (hall id List.mem_cons_self), e, bind_of_error he⟩

omit [DecidableEq Cls] [Dataclasses Cls] in
/-- The writes enter every identifier for the type and touch nothing else. -/
theorem enterIds_eq (t : TypeTables Cls) (c : Cls) (ids : List String) : ∃ t', ids.forM (enterId c) t = .ok () t' ∧
    t'.canonicalIds = t.canonicalIds ∧
    ∀ k, t'.types.lookup k = if k ∈ ids then some c else t.types.lookup k := by
  induction ids generalizing t with
  | nil => exact ⟨t, rfl, rfl, by simp⟩
  | cons id ids ih =>
    obtain ⟨t', hids, hcanonical, htypes⟩ := ih (t := { t with types := t.types.put id c })
    refine ⟨t', hids, hcanonical, ?_⟩
    intro k
    rw [htypes k, lookup_put]
    by_cases hk : k ∈ ids
    · simp [hk]
    · by_cases hid : k = id <;> simp [hk, hid]

omit [Dataclasses Cls] in
theorem checkCanonical_cases (t : TypeTables Cls) (c : Cls) (id : String) :
    ((∀ id', t.canonicalIds.lookup c = some id' → id' = id) ∧ checkCanonical c id t = .ok () t) ∨
      ((¬ ∀ id', t.canonicalIds.lookup c = some id' → id' = id) ∧
        ∃ e, checkCanonical c id t = .error e t) := by
  unfold checkCanonical
  rw [get_bind]
  cases t.canonicalIds.lookup c with
  | none => exact .inl ⟨by simp, rfl⟩
  | some existingId =>
    by_cases he : existingId = id
    · left
      simp only [ne_eq, he, not_true_eq_false, if_false]
      exact ⟨by simp, rfl⟩
    · right
      simp only [ne_eq, he, not_false_eq_true, if_true]
      exact ⟨by simp [he], _, rfl⟩

/-- The type may take the identifiers: it has no other canonical one, and all of them are free. -/
structure Admits (t : TypeTables Cls) (c : Cls) (id : String) (aliases : List String) : Prop where
  canonical : ∀ id', t.canonicalIds.lookup c = some id' → id' = id
  free : ∀ k ∈ id :: aliases, t.Free c k

/-- What a call that returns has checked and entered. -/
structure Registers (t : TypeTables Cls) (call : TypeRegistration Cls) (c : Cls) (id : String)
    (t' : TypeTables Cls) : Prop where
  valueType : call.valueType = some c
  admits : t.Admits c id call.aliases
  types : ∀ k, t'.types.lookup k = if k ∈ id :: call.aliases then some c else t.types.lookup k
  canonicalIds : ∀ d, t'.canonicalIds.lookup d = if d = c then some id else t.canonicalIds.lookup d

/-- A call returns with everything entered, or raises with nothing entered. -/
theorem register_cases (call : TypeRegistration Cls) (t : TypeTables Cls) :
    (∃ c t', register call t = .ok (identifier c (call.typeId.getD "")) t' ∧
      Registers t call c (identifier c (call.typeId.getD "")) t') ∨
    ((∀ c, call.valueType = some c →
        ¬ t.Admits c (identifier c (call.typeId.getD "")) call.aliases) ∧
      ∃ e, register call t = .error e t) := by
  unfold register
  cases hv : call.valueType with
  | none => exact .inr ⟨(fun c hc => by cases hc), _, rfl⟩
  | some c =>
    have hcanonical := checkCanonical_cases t c (identifier c (call.typeId.getD ""))
    have hids := checkIds_cases t c
      (identifier c (call.typeId.getD "") :: call.aliases)
    simp only
    rcases hcanonical with ⟨hcanonical, hc⟩ | ⟨hnot, e, he⟩
    · rcases hids with ⟨hfree, hids⟩ | ⟨hnot, e, he⟩
      · obtain ⟨t', henter, hkept, htypes⟩ := enterIds_eq t c
          (identifier c (call.typeId.getD "") :: call.aliases)
        left
        rw [bind_of_ok hc, bind_of_ok hids, bind_of_ok henter]
        refine ⟨c, _, rfl, hv, ⟨hcanonical, hfree⟩, htypes, ?_⟩
        intro d
        change List.lookup d (put t'.canonicalIds c _) = _
        rw [lookup_put, hkept]
      · right
        rw [bind_of_ok hc, bind_of_error he]
        refine ⟨?_, e, rfl⟩
        rintro d ⟨⟩ hadmits
        exact hnot hadmits.free
    · right
      rw [bind_of_error he]
      refine ⟨?_, e, rfl⟩
      rintro d ⟨⟩ hadmits
      exact hnot hadmits.canonical

theorem register_atomic (call : TypeRegistration Cls) : Atomic (register call) := by
  intro t e t' h
  rcases register_cases call t with ⟨c, t'', hr, -⟩ | ⟨-, e', hr⟩
  · rw [hr] at h
    cases h
  · rw [hr] at h
    cases h
    rfl

/-- The tables agree with each other. -/
def Agree (t : TypeTables Cls) : Prop :=
  ∀ c id, t.canonicalIds.lookup c = some id → t.types.lookup id = some c

omit [Dataclasses Cls] in
theorem Registers.agree (h : Registers t call c id t') (ht : t.Agree) : t'.Agree := by
  intro d k hd
  rw [h.canonicalIds] at hd
  rw [h.types]
  by_cases hdc : d = c
  · subst hdc
    rw [if_pos rfl, Option.some.injEq] at hd
    subst hd
    rw [if_pos List.mem_cons_self]
  · rw [if_neg hdc] at hd
    have hk := ht d k hd
    by_cases hmem : k ∈ id :: call.aliases
    · exact absurd (h.admits.free k hmem d hk) hdc
    · rw [if_neg hmem]
      exact hk

omit [Dataclasses Cls] in
/-- What an identifier stands for is not changed by another call. -/
theorem Registers.keeps_type (h : Registers t call c id t') (hk : t.types.lookup k = some d) :
    t'.types.lookup k = some d := by
  rw [h.types]
  by_cases hmem : k ∈ id :: call.aliases
  · rw [if_pos hmem, h.admits.free k hmem d hk]
  · rw [if_neg hmem]
    exact hk

omit [Dataclasses Cls] in
theorem Registers.keeps_id (h : Registers t call c id t') (hd : t.canonicalIds.lookup d = some k) :
    t'.canonicalIds.lookup d = some k := by
  rw [h.canonicalIds]
  by_cases hdc : d = c
  · subst hdc
    rw [if_pos rfl, h.admits.canonical k hd]
  · rw [if_neg hdc]
    exact hd

/-- A call keeps what every call that returns keeps. -/
theorem register_keeps {I : TypeTables Cls → Prop}
    (h : ∀ t call c id t', Registers t call c id t' → I t → I t') (ht : I t) :
    I (left (register call t)) := by
  rcases register_cases call t with ⟨c, t', hr, hreg⟩ | ⟨-, e, hr⟩
  · rw [hr]
    exact h t call c _ t' hreg ht
  · rw [hr]
    exact ht

/-- The registry of a new `PayloadTypeRegistry` after some calls. -/
def history (calls : List (TypeRegistration Cls)) : TypeTables Cls := after register {} calls

theorem history_append : history (calls ++ calls') = after register (history calls) calls' :=
  after_append

/-- What is to hold of the registry after some calls, whatever calls follow. -/
structure Coherent (calls : List (TypeRegistration Cls)) : Prop where
  resolves : ∀ call ∈ accepted register {} calls, ∀ c, call.valueType = some c →
    ∃ id, (history calls).typeIdFor c = .ok id ∧ (history calls).resolve id = .ok c
  lasting : ∀ later id c, (history calls).resolve id = .ok c →
    (history (calls ++ later)).resolve id = .ok c
  canonical : ∀ later c id, (history calls).typeIdFor c = .ok id →
    (history (calls ++ later)).typeIdFor c = .ok id
  atomic : ∀ call, Atomic (register (call : TypeRegistration Cls))

/-- Every type of an accepted call has an identifier. -/
theorem history_registered (calls : List (TypeRegistration Cls)) :
     (∀ call ∈ accepted register {} calls, ∀ c, call.valueType = some c →
    ∃ id, (history calls).canonicalIds.lookup c = some id) ∧ (history calls).Agree := by
  refine accepted_invariant (m := register) (I := fun l t => (∀ call ∈ l, ∀ c,
    call.valueType = some c → ∃ id, t.canonicalIds.lookup c = some id) ∧ t.Agree) ?_ ?_ ?_
  · rintro l call t id t' ⟨hl, hagree⟩ hr
    rcases register_cases call t with ⟨c, t'', hr', hreg⟩ | ⟨-, e, hr'⟩
    · rw [hr] at hr'
      cases hr'
      refine ⟨?_, hreg.agree hagree⟩
      intro call' hmem d hd
      rcases List.mem_append.mp hmem with hmem | hmem
      · obtain ⟨k, hk⟩ := hl call' hmem d hd
        exact ⟨k, hreg.keeps_id hk⟩
      · obtain rfl := List.mem_singleton.mp hmem
        have hdc : d = c := Option.some.inj (hd.symm.trans hreg.valueType)
        refine ⟨identifier c (call'.typeId.getD ""), ?_⟩
        rw [hreg.canonicalIds, if_pos hdc]
    · rw [hr] at hr'
      cases hr'
  · rintro l call t e t' h hr
    obtain rfl := register_atomic call t e t' hr
    exact h
  · exact ⟨by simp, fun c id h => by cases h⟩

/-- The identifiers of a registered type lead back to it, and no later call changes them. -/
theorem registrations_coherent (calls : List (TypeRegistration Cls)) : Coherent calls := by
  obtain ⟨hregistered, hagree⟩ := history_registered calls
  refine ⟨?_, ?_, ?_, register_atomic⟩
  · intro call hcall c hc
    obtain ⟨id, hid⟩ := hregistered call hcall c hc
    exact ⟨id, typeIdFor_eq_ok.mpr hid, resolve_eq_ok.mpr (hagree c id hid)⟩
  · intro later id c hid
    rw [history_append]
    rw [resolve_eq_ok] at hid ⊢
    refine after_invariant (I := fun t : TypeTables Cls => t.types.lookup id = some c) ?_ hid
    intro call t ht
    exact register_keeps (I := fun t => t.types.lookup id = some c)
      (fun _ _ _ _ _ h => h.keeps_type) ht
  · intro later c id hid
    rw [history_append]
    rw [typeIdFor_eq_ok] at hid ⊢
    refine after_invariant (I := fun t : TypeTables Cls => t.canonicalIds.lookup c = some id) ?_ hid
    intro call t ht
    exact register_keeps (I := fun t => t.canonicalIds.lookup c = some id)
      (fun _ _ _ _ _ h => h.keeps_id) ht

/-- The tables read as a registry that keeps its invariants by construction. -/
structure Reads (t : TypeTables Cls) (R : PayloadTypeRegistry Cls) : Prop where
  types : ∀ k, t.types.lookup k = R.types.lookup k
  canonicalIds : ∀ c, t.canonicalIds.lookup c = R.canonicalIds.lookup c

omit [DecidableEq Cls] [Dataclasses Cls] in
theorem lookup_enter_eq {types : List (String × Cls)}
    (h : ∀ k ∈ ids, ∀ d, types.lookup k = some d → d = c) :
    (enter c ids types).lookup k = if k ∈ ids then some c else types.lookup k := by
  induction ids generalizing types with
  | nil => simp [enter]
  | cons id ids ih =>
    rw [enter, ih]
    · by_cases hid : types.lookup id = none
      · rw [if_pos hid, lookup_append_single]
        by_cases hk : k = id
        · subst hk
          simp [hid]
        · simp [hk]
      · obtain ⟨d, hd⟩ := Option.ne_none_iff_exists'.mp hid
        rw [if_neg hid]
        by_cases hk : k = id
        · subst hk
          simp [hd, h k List.mem_cons_self d hd]
        · simp [hk]
    · intro k hk d hd
      split at hd
      · rw [lookup_append_single, Option.or_eq_some_iff] at hd
        rcases hd with hd | ⟨-, hd⟩
        · exact h k (List.mem_cons_of_mem _ hk) d hd
        · split at hd
          · exact (Option.some.inj hd).symm
          · cases hd
      · exact h k (List.mem_cons_of_mem _ hk) d hd

/-- A call does to the tables what it does to the registry they read as. -/
theorem register_reads {R : PayloadTypeRegistry Cls} (h : t.Reads R) (hv : call.valueType = some c) :
    match R.register c (call.typeId.getD "") call.aliases with
    | .ok (id, R') => ∃ t', register call t = .ok id t' ∧ t'.Reads R'
    | .error _ => ∃ e, register call t = .error e t := by
  have hcanonical : (R.canonicalIds.lookup c ≠ none ∧ R.canonicalIds.lookup c ≠
      some (identifier c (call.typeId.getD ""))) ↔
      ¬ ∀ id', t.canonicalIds.lookup c = some id' → id' = identifier c (call.typeId.getD "") := by
    rw [h.canonicalIds]
    cases R.canonicalIds.lookup c <;> simp
  have hfree : (∀ k ∈ identifier c (call.typeId.getD "") :: call.aliases,
      ∀ d, R.types.lookup k = some d → d = c) ↔
      ∀ k ∈ identifier c (call.typeId.getD "") :: call.aliases, t.Free c k := by
    unfold Free
    simp only [h.types]
  rcases register_cases call t with ⟨c', t', hr, hreg⟩ | ⟨hnot, e, hr⟩
  · obtain rfl : c = c' := Option.some.inj (hv.symm.trans hreg.valueType)
    have hnone := fun hsome => hcanonical.mp hsome hreg.admits.canonical
    have hall := hfree.mpr hreg.admits.free
    simp only [PayloadTypeRegistry.register, if_neg hnone, dif_pos hall]
    refine ⟨t', hr, ?_, ?_⟩
    · intro k
      rw [hreg.types, lookup_enter_eq hall, h.types]
    · intro d
      rw [hreg.canonicalIds, h.canonicalIds]
      by_cases hd : d = c
      · subst hd
        rw [if_pos rfl, List.lookup_cons_self]
      · have hne : (d == c) = false := by simpa using hd
        rw [if_neg hd, List.lookup_cons, hne]
  · have hadmits := hnot c hv
    unfold PayloadTypeRegistry.register
    by_cases hsome : R.canonicalIds.lookup c ≠ none ∧ R.canonicalIds.lookup c ≠
        some (identifier c (call.typeId.getD ""))
    · simp only [if_pos hsome]
      exact ⟨e, hr⟩
    · have hall := fun hall => hadmits ⟨not_not.mp fun h => hsome (hcanonical.mpr h), hfree.mp hall⟩
      simp only [if_neg hsome, dif_neg hall]
      exact ⟨e, hr⟩

end Calls

end TypeTables

end Pybus
