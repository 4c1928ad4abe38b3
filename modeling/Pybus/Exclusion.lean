import Pybus.RetryBudget

/-! Mutual exclusion of durable handlers: a row that has been admitted stays locked to its delivery
until that delivery itself records a settlement or gives the row back. -/
namespace Pybus

open Texts Interaction DjangoDurableJobStore

/-- A row that nobody is admitted to. -/
def Locked (r : DurableJob) : Prop := r.state = .running ∨ r.state.terminal = true ∨ Parked r

/-- A row whose generation is past `g`, or is `g` and locked. -/
def Past (g : Nat) (r : DurableJob) : Prop := g < r.generation ∨ (r.generation = g ∧ Locked r)

section Workers

variable {Obj : Type} [Texts]

/-- The operations that give up a running row of a generation. -/
def StoreOp.Leaves (id : Uuid) (g : Nat) : StoreOp → Prop
  | .checkpointSettlement s => uuidFromText s.recordId = some id ∧ s.generation = g
  | .releaseDelivery recordId generation _ => uuidFromText recordId = some id ∧ generation = g
  | _ => False

/-- What a row has become that its delivery gave up. -/
def GivenUp (db db' : Database) (id : Uuid) (g : Nat) : Prop :=
  ∃ r r', db.jobs.row id = some r ∧ r.state = .running ∧ r.generation = g ∧
    db'.jobs.row id = some r' ∧ r'.state ∈ [.settling, .published]

variable {db db' : Database} {env : Surroundings} {op : StoreOp} {id : Uuid} {r r' : DurableJob}
  {n : Nat}

/-- A locked row stays locked under its generation, unless it is given up. -/
theorem JobChange.past (h : JobChange db env op id r r')
    (hidle : Parked r → r.reconciliationDueAt = none) (hp : Past n r) :
    Past n r' ∨ (op.Leaves id n ∧ r.state = .running ∧ r.generation = n ∧
      r'.state ∈ [.settling, .published]) := by
  have hle := h.generation_le
  rcases hp with hlt | ⟨hgen, hlock⟩
  · exact .inl (.inl (by omega))
  have ended : r'.generation = r.generation → r'.state.terminal = true → Past n r' := by
    intro hg ht
    exact .inr ⟨hg.trans hgen, .inr (.inl ht)⟩
  rcases hlock with hrun | ht | hk
  · cases h with
    | claimed _ _ => exact .inl (.inl (by simp [DurableJob.claim]; omega))
    | parked _ => exact .inl (.inr ⟨hgen, .inr (.inr ⟨rfl, rfl⟩)⟩)
    | checkpointed hid hg _ _ _ _ =>
      exact .inr ⟨⟨hid, hg.symm.trans hgen⟩, hrun, hgen, by simp [DurableJob.checkpoint]⟩
    | released hid hg _ _ =>
      exact .inr ⟨⟨hid, hg.symm.trans hgen⟩, hrun, hgen, by simp [DurableJob.release]⟩
    | admitted _ _ _ hd =>
      have hst := (decideAdmission_proceed hd).1
      simp [hrun] at hst
    | cancelled _ _ _ _ _ hst => simp [hrun] at hst
    | published _ _ _ hst | publishUnknown _ _ hst | resumed _ _ _ _ hst _ =>
      rw [hrun] at hst
      cases hst
    | swept _ | deadLetteredByClaim _ _ _ _ | admissionCancelled _ _ _ _ _
    | checkpointCancelled _ _ _ _ | releaseCancelled _ _ _ _ | succeeded _ _ _ _ _
    | deadLetteredByOutcome _ _ _ _ _ | resumeCancelled _ _ _ _ _ _ | completed _ _ _ _ _ =>
      exact .inl (ended rfl rfl)
  · simp [h.nonterminal] at ht
  · have hc := h.of_parked hk (hidle hk)
    refine .inl (ended ?_ (by simp [hc, DurableJobState.terminal]))
    rcases h.generation with ⟨hg, -⟩ | ⟨w, now, lease, -, rfl⟩
    · exact hg
    · cases hc

/-- Nobody is admitted to a row past its generation. -/
theorem Past.not_admitted {a : DurableDeliveryAdmission} (h : Past n r) (hg : r.generation = n) :
    decideAdmission a r ≠ .proceed := by
  intro hd
  obtain ⟨hst, hreason, -⟩ := decideAdmission_proceed hd
  rcases h with hlt | ⟨-, hrun | ht | hk⟩
  · omega
  · simp [hrun] at hst
  · cases hs : r.state <;> simp_all [DurableJobState.terminal]
  · have := hreason hk.1
    rw [hk.2] at this
    cases this

/-- The delivery that a worker holds has its row locked. -/
def Exclusive (db : Database) (g : Custody) : Prop :=
  ∀ a, g.Holds a → Stands db a (Past a.generation)

/-- Two workers hold no delivery of the same generation of one job. -/
def Apart (g g' : Custody) : Prop :=
  ∀ a a', g.Holds a → g'.Holds a' → uuidFromText a.recordId = uuidFromText a'.recordId →
    a.generation ≠ a'.generation

/-- Only a worker that holds a delivery may give it up. -/
theorem Custody.Allows.leaves {g : Custody} (h : g.Allows op) (hl : op.Leaves id n) :
    ∃ a, g.Holds a ∧ uuidFromText a.recordId = some id ∧ a.generation = n := by
  cases op with
  | checkpointSettlement s =>
    obtain ⟨a, hg, hrec, hgen, -⟩ := h
    obtain ⟨hid, hn⟩ := hl
    exact ⟨a, hg, hrec ▸ hid, hgen ▸ hn⟩
  | releaseDelivery recordId generation due =>
    obtain ⟨a, hg, hrec, hgen⟩ := h
    obtain ⟨hid, hn⟩ := hl
    exact ⟨a, hg, hrec ▸ hid, hgen ▸ hn⟩
  | _ => cases hl

variable (Obj) in
/-- Who holds a delivery after an operation was just admitted or held it before. -/
theorem Custody.After.holds {g g' : Custody} {x : Except Exc op.Result}
    {a : DurableDeliveryAdmission} (h : After g op x g') (hg : g'.Holds a) :
    (∀ k, (⟨.store op k, x⟩ : Event (Calls Obj)) = ⟨.store (.admitDelivery a) k, .ok .proceed⟩) ∨
      (g.Holds a ∧ ∀ id n, ¬ op.Leaves id n) := by
  cases h with
  | same hs =>
    refine .inr ⟨hg, ?_⟩
    intro id n hl
    cases op <;> first | cases hl; done | exact hs trivial
  | ended | claimed | settled _ => rcases hg with he | ⟨o, he⟩ <;> cases he
  | held =>
    rcases hg with he | ⟨o, he⟩
    · cases he
      exact .inl fun k => rfl
    · cases he
  | single hold =>
    rcases hg with he | ⟨o, he⟩
    · cases he
    · cases he
      exact .inr ⟨hold, fun id n hl => hl⟩

section Steps

variable [Calendar] {g g' : Custody} {o : Call Obj} {x : o.Answer}

theorem Exclusive.of_change {a : DurableDeliveryAdmission} (h : Answers db o x db')
    (hi : ParkedIdle db) (hs : Stands db a (Past a.generation))
    (hne : ∀ op k id, o = .store op k → uuidFromText a.recordId = some id →
      ¬ op.Leaves id a.generation) : Stands db' a (Past a.generation) := by
  obtain ⟨id, r, hid, hr, hg, hp⟩ := hs
  obtain ⟨r', hr', rfl | ⟨env, op, k, rfl, hj⟩⟩ := h.change hr
  · exact ⟨id, r', hid, hr', hg, hp⟩
  · rcases hj.past (hi id r hr) hp with hp' | ⟨hl, -⟩
    · exact ⟨id, r', hid, hr', hg.trans hj.generation_le, hp'⟩
    · exact absurd hl (hne op k id rfl hid)

/-- A delivery that was just admitted has its row locked. -/
theorem Exclusive.admitted {a : DurableDeliveryAdmission} {k : Option Claim}
    (h : Answers db (.store (.admitDelivery a) k : Call Obj) (.ok .proceed) db') :
    Stands db' a (Past a.generation) := by
  obtain ⟨id, r, now, hid, hr, hg, -, -, rfl⟩ := h.proceeded
  exact ⟨id, _, hid, Database.setJob_row hr, by simp [DurableJob.admitted, hg],
    .inr ⟨hg, .inl rfl⟩⟩

theorem Exclusive.own (h : Answers db o x db') (hi : ParkedIdle db) (hk : Exclusive db g) :
    Exclusive db' ((custody Obj).next g o x) := by
  intro a hg
  cases o with
  | store op k =>
    rcases (Custody.after_spec g op x).holds Obj hg with he | ⟨hold, hne⟩
    · cases he k
      exact Exclusive.admitted h
    · refine Exclusive.of_change h hi (hk a hold) ?_
      rintro op' k' id ⟨⟩ _ hl
      exact hne _ _ hl
  | _ => exact Exclusive.of_change h hi (hk a hg) (by intro op k id he; cases he)

theorem exclusion_local : (watch Obj).Local ParkedIdle Exclusive Apart where
  symm g g' h := by
    intro a a' hg hg' hid hn
    exact h a' a hg' hg hid.symm hn.symm
  start := by
    rintro s - a (he | ⟨o, he⟩) <;> cases he
  alone := by
    rintro g a a' (he | ⟨o, he⟩) <;> cases he
  shared := by
    intro db o x db' g hi ha _ _
    cases o with
    | store op k =>
      rcases ha.step with rfl | ⟨env, result, hstep⟩
      · exact hi
      · exact hi.step hstep
    | _ =>
      rw [ha.same (by intro op k he; cases he)]
      exact hi
  own _ _ _ _ _ hi ha _ hk := hk.own ha hi
  other := by
    intro db o x db' g g' hi ha hp _ hk' hd a hg
    refine Exclusive.of_change ha hi (hk' a hg) ?_
    rintro op k id rfl hid hl
    obtain ⟨b, hb, hrec, hgen⟩ := Custody.Allows.leaves hp hl
    exact hd b a hb hg (hrec.trans hid.symm) hgen
  apart := by
    intro db o x db' g g' _ ha _ _ hk' hd a a' hg hg' hid
    cases o with
    | store op k =>
      rcases (Custody.after_spec g op x).holds Obj hg with he | ⟨hold, -⟩
      · cases he k
        obtain ⟨i, r, now, hi, hr, hgen, -, hdec, -⟩ := ha.proceeded
        intro heq
        obtain ⟨-, hp⟩ := (hk' a' hg').row (hid ▸ hi) hr
        exact hp.not_admitted (hgen.trans heq) hdec
      · exact hd a a' hold hg' hid
    | _ => exact hd a a' hg hg' hid

end Steps

section System

variable [Calendar] {P P' : Pool (Calls Obj) Database Unit} {m : Move (Calls Obj) Unit}
  {ms : List (Move (Calls Obj) Unit)} {i : Nat}

/-- The row is locked under a generation, and only one worker may hold that delivery. -/
structure Sole (P : Pool (Calls Obj) Database Unit) (i : Nat) (id : Uuid) (n : Nat) : Prop where
  row : ∃ r, P.shared.jobs.row id = some r ∧ Past n r
  holder : ∀ (j : Nat) T a, P.threads[j]? = some T → ((watch Obj).ghost T).Holds a →
    uuidFromText a.recordId = some id → a.generation = n → j = i

/-- The move of one worker that gives up its delivery, and takes effect. -/
def Concludes (i : Nat) (id : Uuid) (n : Nat) (P : Pool (Calls Obj) Database Unit)
    (m : Move (Calls Obj) Unit) (P' : Pool (Calls Obj) Database Unit) : Prop :=
  (∃ op k x, m = .call i ⟨.store op k, x⟩ ∧ op.Leaves id n) ∧ GivenUp P.shared P'.shared id n

/-- Who holds a delivery after a move held it before, or its row was not past its generation. -/
theorem held_before {j : Nat} {T : Thread (Calls Obj) Unit} {a : DurableDeliveryAdmission}
    (hm : (system Obj).Step P m P') (hj : P'.threads[j]? = some T)
    (hg : ((watch Obj).ghost T).Holds a) (hid : uuidFromText a.recordId = some id)
    (hrow : ∃ r, P.shared.jobs.row id = some r ∧ Past a.generation r) :
    ∃ T', P.threads[j]? = some T' ∧ ((watch Obj).ghost T').Holds a := by
  obtain hj' | ⟨p, -, -, rfl, -⟩ | ⟨log, o, k, x, -, hj', ha, rfl⟩ := hm.thread hj
  · exact ⟨T, hj', hg⟩
  · rcases hg with he | ⟨o, he⟩ <;> cases he
  · refine ⟨_, hj', ?_⟩
    rw [Watch.ghost_snoc (p := .call o k)] at hg
    cases o with
    | store op c =>
      rcases (Custody.after_spec _ op x).holds Obj hg with he | ⟨hold, -⟩
      · cases he c
        obtain ⟨b, q, now, hb, hq, hgen, -, hdec, -⟩ := Answers.proceeded ha
        obtain ⟨r, hr, hp⟩ := hrow
        rw [hid] at hb
        cases hb
        rw [hr] at hq
        cases hq
        exact absurd hdec (hp.not_admitted hgen)
      · exact hold
    | _ => exact hg

theorem Sole.step (hinv : (watch Obj).Invariant ParkedIdle Exclusive Apart P)
    (hm : (system Obj).Step P m P') (hs : Sole P i id n) :
    Sole P' i id n ∨ Concludes i id n P m P' := by
  obtain ⟨r, hr, hp⟩ := hs.row
  have holder : ∀ (j : Nat) T a, P'.threads[j]? = some T → ((watch Obj).ghost T).Holds a →
      uuidFromText a.recordId = some id → a.generation = n → j = i := by
    rintro j T a hj hg hid rfl
    obtain ⟨T', hj', hg'⟩ := held_before hm hj hg hid ⟨r, hr, hp⟩
    exact hs.holder j T' a hj' hg' hid rfl
  rcases hm.shared with ⟨p, -, he⟩ | ⟨j, log, o, k, x, rfl, hj, ha⟩
  · exact .inl ⟨⟨r, he ▸ hr, hp⟩, holder⟩
  · obtain ⟨r', hr', rfl | ⟨env, op, c, rfl, hchange⟩⟩ := Answers.change ha hr
    · exact .inl ⟨⟨r', hr', hp⟩, holder⟩
    · rcases hchange.past (hinv.shared id r hr) hp with hp' | ⟨hl, hrun, hgen, hst⟩
      · exact .inl ⟨⟨r', hr', hp'⟩, holder⟩
      · obtain ⟨a, hg, hid, hn⟩ := Custody.Allows.leaves (hinv.follows.permits hj) hl
        obtain rfl := hs.holder j _ a hj hg hid hn
        exact .inr ⟨⟨op, c, x, rfl, hl⟩, r, r', hr, hrun, hgen, hr', hst⟩

/-- In a run the delivery stays the only one until it gives itself up. -/
theorem Sole.run (hinv : (watch Obj).Invariant ParkedIdle Exclusive Apart P)
    (h : Path (system Obj).Step P ms P') (hs : Sole P i id n) :
    Sole P' i id n ∨ ∃ pre m post Q Q', ms = pre ++ m :: post ∧ Path (system Obj).Step P pre Q ∧
      (system Obj).Step Q m Q' ∧ Path (system Obj).Step Q' post P' ∧ Concludes i id n Q m Q' := by
  induction h with
  | refl => exact .inl hs
  | @head P Q P' m ms hm hrest ih =>
    rcases hs.step hinv hm with hs' | hc
    · rcases ih (Watch.invariant_step exclusion_local hm hinv) hs' with hs'' |
        ⟨pre, m', post, R, R', rfl, hpre, hstep, hpost, hc⟩
      · exact .inl hs''
      · exact .inr ⟨m :: pre, m', post, R, R', rfl, .head hm hpre, hstep, hpost, hc⟩
    · exact .inr ⟨[], m, ms, P, Q, rfl, .refl P, hm, hrest, hc⟩

/-- A worker that was just admitted is the only one that holds the delivery. -/
theorem Sole.admitted {a : DurableDeliveryAdmission} {k : Option Claim}
    (hinv : (watch Obj).Invariant ParkedIdle Exclusive Apart P)
    (hm : (system Obj).Step P (.call i ⟨.store (.admitDelivery a) k, .ok .proceed⟩) P') :
    ∃ id, uuidFromText a.recordId = some id ∧ Sole P' i id a.generation := by
  have hinv' := Watch.invariant_step exclusion_local hm hinv
  obtain ⟨log, next, -, ha, hown⟩ := hm.called
  obtain ⟨id, r, hid, hr, hg, hp⟩ := Exclusive.admitted ha
  refine ⟨id, hid, ⟨r, hr, hp⟩, ?_⟩
  intro j T b hj hb hbid hbg
  by_contra hne
  have hheld : ((watch Obj).ghost ⟨log ++ [⟨.store (.admitDelivery a) k, .ok .proceed⟩],
      next (.ok .proceed)⟩).Holds a := by
    rw [Watch.ghost_snoc (p := next (.ok .proceed))]
    exact .inl rfl
  exact hinv'.distinct j i T _ hne hj hown b a hb hheld (hbid.trans hid.symm) hbg

/-- A call that ends the processing of a delivery: a settlement, a release or a completion. -/
def Ends (e : Event (Calls Obj)) : Prop :=
  match e.op, e.answer with
  | .store (.checkpointSettlement _) _, _ | .store (.releaseDelivery _ _ _) _, _ => True
  | .store (.applyOutcome o _) _, _ => o.status ≠ .started
  | .store (.completeRecurringSuccess _ _ _) _, x => x = .ok true
  | _, _ => False

end System

end Workers

section Sample

local instance exclusionTexts : Texts := .sample
local instance exclusionZones : Zones := .utc

end Sample

end Pybus
