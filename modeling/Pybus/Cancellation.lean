import Pybus.StoreInvariants

/-! Cancelling a recurring series is final: once it has left the active state nothing of it is
claimed, admitted or created any more. -/
namespace Pybus

open Texts Interaction DjangoDurableJobStore

section Runs

variable [Texts] [Calendar] {db db' : Database} {e : StoreEvent} {es : List StoreEvent}
  {id sid : Uuid} {r r' : DurableJob} {s : JobSeries}

/-- The series exists and is no longer active. -/
def Inactive (db : Database) (sid : Uuid) : Prop :=
  ∃ s, db.series.row sid = some s ∧ s.state ≠ .active

omit [Texts] [Calendar] in
/-- An occurrence of an inactive series is not open. -/
theorem Inactive.not_open (h : Inactive db sid) (hr : r.seriesId = some sid) :
    seriesOpen db r = false := by
  obtain ⟨s, hs, hn⟩ := h
  simp [seriesOpen, seriesState, hr, hs, hn]

theorem inactive_step (h : StoreStep db e db') (hi : Inactive db sid) : Inactive db' sid := by
  obtain ⟨s, hs, hn⟩ := hi
  obtain ⟨s', hs', hk⟩ := seriesSettles_step h hs
  refine ⟨s', hs', ?_⟩
  rw [(hk hn).1]
  exact hn

theorem inactive_after (h : Path StoreStep db es db') (hi : Inactive db sid) : Inactive db' sid :=
  h.invariant (I := fun db => Inactive db sid) (fun _ _ _ => inactive_step) hi

/-- A claim that returns a job has found it in an open series. -/
theorem claimed_open {c : DurableJobClaim} (h : StoreStep db e db') (hc : e.claimed = some c) :
    ∃ id r, c.id = uuidText id ∧ db.jobs.row id = some r ∧ seriesOpen db r = true := by
  cases h with
  | @ok _ op env a h =>
    cases op with
    | claim workerId now lease =>
      cases a with
      | none => simp [StoreEvent.claimed] at hc
      | some c' =>
        obtain rfl : c' = c := by simpa [StoreEvent.claimed] using hc
        obtain ⟨hx, -⟩ | ⟨id, r, hx, hr, hcl, -, -, -⟩ := claim_spec h
        · cases hx
        · injection hx with hx
          subst hx
          simp only [claimable, Bool.and_eq_true] at hcl
          exact ⟨id, r, rfl, hr, hcl.1.2⟩
    | _ => simp [StoreEvent.claimed] at hc
  | @error op env exc h =>
    cases op <;> simp [StoreEvent.claimed] at hc

/-- The delivery that an event admitted, if it is an admission answered `PROCEED`. -/
def StoreEvent.proceeded (e : StoreEvent) : Option DurableDeliveryAdmission :=
  match e with
  | ⟨.admitDelivery a, _, .ok .proceed⟩ => some a
  | _ => none

/-- An admission that proceeds has found its row in an open series. -/
theorem proceeded_open {a : DurableDeliveryAdmission} (h : StoreStep db e db')
    (ha : e.proceeded = some a) :
    ∃ id r, uuidFromText a.recordId = some id ∧ db.jobs.row id = some r ∧
      seriesOpen db r = true := by
  cases h with
  | @ok _ op env d h =>
    cases op with
    | admitDelivery b =>
      cases d with
      | proceed =>
        obtain rfl : b = a := by simpa [StoreEvent.proceeded] using ha
        obtain ⟨id, r, -, hid, hr, -, ho, -⟩ | ⟨id, r, hd, -⟩ | ⟨hd, -⟩ := admitDelivery_spec h
        · exact ⟨id, r, hid, hr, ho⟩
        · cases hd
        · exact absurd rfl hd
      | drop => simp [StoreEvent.proceeded] at ha
      | abort => simp [StoreEvent.proceeded] at ha
    | _ => simp [StoreEvent.proceeded] at ha
  | @error op env exc h =>
    cases op <;> simp [StoreEvent.proceeded] at ha

/-- The occurrences of an inactive series were there before the step. -/
theorem occurrence_before (h : StoreStep db e db') (hi : Inactive db sid)
    (hr' : db'.jobs.row id = some r') (hs : r'.seriesId = some sid) :
    ∃ r, db.jobs.row id = some r ∧ r.seriesId = some sid := by
  cases hr : db.jobs.row id with
  | none =>
    obtain ⟨s, hrow, ha, -⟩ := (h.changes.created id r' hr hr').latest sid hs
    obtain ⟨s', hrow', hn⟩ := inactive_step h hi
    obtain rfl : s = s' := by simpa [hrow] using hrow'
    exact absurd ha hn
  | some r => exact ⟨r, rfl, by rw [← (h.identity hr hr').1, hs]⟩

/-- A running occurrence of an inactive series runs on or ends. -/
theorem running_step (h : StoreStep db e db') (hocc : Occurrences db) (hi : Inactive db sid)
    (hr : db.jobs.row id = some r) (hs : r.seriesId = some sid)
    (hst : r.state = .running ∨ r.state.terminal = true) :
    ∃ r', db'.jobs.row id = some r' ∧ r'.seriesId = some sid ∧
      (r'.state = .running ∨ r'.state.terminal = true) := by
  obtain ⟨r', hr', hcase⟩ := h.changes.job id r hr
  refine ⟨r', hr', by rw [(h.identity hr hr').1, hs], ?_⟩
  obtain rfl | hc := hcase
  · exact hst
  · obtain ⟨s, hrow, hn⟩ := hi
    have hopen := hocc.closed id r sid s hr hs hrow hc.nonterminal
    obtain ha | ⟨hcan, hrun⟩ := hopen
    · exact absurd ha hn
    · right
      exact hc.of_running_cancelled hrun (by simp [seriesState, hs, hrow, hcan])

/-- A job stays with its series. -/
theorem seriesId_run (h : Path StoreStep db es db') (hr : db.jobs.row id = some r)
    (hr' : db'.jobs.row id = some r') : r'.seriesId = r.seriesId := by
  induction h generalizing r with
  | refl => rw [Option.some.inj (hr.symm.trans hr')]
  | head hstep _ ih =>
    obtain ⟨q, hq, -⟩ := settles_step hstep hr
    rw [ih hq hr', (hstep.identity hr hq).1]

omit [Calendar] in
/-- Cancelling a series that is not active any more changes nothing. -/
theorem cancelRecurring_inactive {seriesId : String} {at_ : Instant} {x : SeriesRecord}
    (hid : uuidFromText seriesId = some sid) (hi : Inactive db sid)
    (h : cancelRecurring seriesId at_ db = .ok (x, db')) : db' = db := by
  obtain ⟨s, hs, hn⟩ := hi
  unfold cancelRecurring at h
  simp only [hid, hs] at h
  split at h
  · cases h
  · split at h
    · contradiction
    · cases h
      rfl

omit [Calendar] in
/-- After a cancellation the series it named is not active. -/
theorem cancelRecurring_leaves {seriesId : String} {at_ : Instant} {x : SeriesRecord}
    (h : cancelRecurring seriesId at_ db = .ok (x, db')) :
    ∃ sid, uuidFromText seriesId = some sid ∧ Inactive db' sid := by
  unfold cancelRecurring at h
  split at h
  · cases h
  rename_i sid hsid
  split at h
  · cases h
  rename_i s hs
  refine ⟨sid, hsid, ?_⟩
  split at h
  · cases h
  split at h
  · have hrow : (db.setSeries sid (s.finish .cancelled at_)).series.row sid =
        some (s.finish .cancelled at_) := Database.setSeries_row hs
    split at h
    · cases h
      exact ⟨_, hrow, by simp [JobSeries.finish]⟩
    · cases h
      exact ⟨_, hrow, by simp [JobSeries.finish]⟩
  · rename_i hn
    cases h
    exact ⟨s, hs, hn⟩

/-- No job that a run claims or admits belongs to a series that was inactive at its start. -/
theorem inactive_run (h : Path StoreStep db es db') (hi : Inactive db sid) (he : e ∈ es) :
    ∃ db₁ db₂, StoreStep db₁ e db₂ ∧ Inactive db₁ sid ∧
      ∀ id r r', db₁.jobs.row id = some r → db'.jobs.row id = some r' →
        r'.seriesId = r.seriesId := by
  obtain ⟨pre, post, rfl⟩ := List.append_of_mem he
  obtain ⟨db₁, h₁, h₂⟩ := h.split
  cases h₂ with
  | @head _ db₂ _ _ _ hs hp =>
    refine ⟨db₁, db₂, hs, inactive_after h₁ hi, ?_⟩
    intro id r r' hr hr'
    exact (seriesId_run (.head hs hp) hr hr')

/-- An occurrence of a cancelled series runs on, ends, or has ended already. -/
theorem running_run (h : Path StoreStep db es db') (hocc : Occurrences db) (hi : Inactive db sid)
    (hr : db.jobs.row id = some r) (hs : r.seriesId = some sid)
    (hst : r.state = .running ∨ r.state.terminal = true) :
    ∃ r', db'.jobs.row id = some r' ∧ (r'.state = .running ∨ r'.state.terminal = true) := by
  induction h generalizing r with
  | refl => exact ⟨r, hr, hst⟩
  | head hstep _ ih =>
    obtain ⟨q, hq, hqs, hqst⟩ := running_step hstep hocc hi hr hs hst
    exact ih (occurrences_step hstep hocc) (inactive_step hstep hi) hq hqs hqst

/-- The occurrences of an inactive series are those it had. -/
theorem occurrence_before_run (h : Path StoreStep db es db') (hi : Inactive db sid)
    (hr' : db'.jobs.row id = some r') (hs : r'.seriesId = some sid) :
    ∃ r, db.jobs.row id = some r ∧ r.seriesId = some sid := by
  induction h with
  | refl => exact ⟨r', hr', hs⟩
  | head hstep _ ih =>
    obtain ⟨q, hq, hqs⟩ := ih (inactive_step hstep hi) hr'
    exact occurrence_before hstep hi hq hqs

/-- Cancellation is final. Whatever operations follow it, in any order: nothing of the series is
claimed or admitted, it gets no further occurrence, an occurrence that was running only ends, and
cancelling the series again changes nothing. -/
theorem cancellation_final {es' : List StoreEvent} {db₁ : Database} {seriesId : String}
    {cancelledAt : Instant} {env : Surroundings} {record : SeriesRecord}
    (hreach : Path StoreStep .empty es db)
    (hcancel : StoreStep db ⟨.cancelRecurring seriesId cancelledAt, env, .ok record⟩ db₁)
    (hrun : Path StoreStep db₁ es' db') :
    ∃ sid, uuidFromText seriesId = some sid ∧
    (∀ e ∈ es', ∀ c, e.claimed = some c → ∀ id r, c.id = uuidText id →
      db'.jobs.row id = some r → r.seriesId ≠ some sid) ∧
    (∀ e ∈ es', ∀ a, e.proceeded = some a → ∀ id r, uuidFromText a.recordId = some id →
      db'.jobs.row id = some r → r.seriesId ≠ some sid) ∧
    (∀ id r', db'.jobs.row id = some r' → r'.seriesId = some sid →
      ∃ r, db₁.jobs.row id = some r ∧ r.seriesId = some sid ∧
        (r.state = .running → r'.state ∈ [.running, .succeeded, .deadLettered, .cancelled]) ∧
        (r.state ≠ .running → r'.state = r.state)) ∧
    (∀ text t e db'', uuidFromText text = some sid → e.op = .cancelRecurring text t →
      StoreStep db' e db'' → db'' = db') := by
  have hocc : Occurrences db₁ := occurrences_run (hreach.append (.single hcancel))
  obtain ⟨sid, hsid, hi⟩ : ∃ sid, uuidFromText seriesId = some sid ∧ Inactive db₁ sid := by
    cases hcancel with
    | ok h => exact cancelRecurring_leaves h
  refine ⟨sid, hsid, ?_, ?_, ?_, ?_⟩
  · intro e he c hc id r hid hr hs
    obtain ⟨db₂, db₃, hstep, hi₂, hsame⟩ := inactive_run hrun hi he
    obtain ⟨i, q, hiq, hq, hopen⟩ := claimed_open hstep hc
    obtain rfl : i = id := uuidText_injective (hiq.symm.trans hid)
    rw [hi₂.not_open (by rw [← hsame i q r hq hr, hs])] at hopen
    cases hopen
  · intro e he a ha id r hid hr hs
    obtain ⟨db₂, db₃, hstep, hi₂, hsame⟩ := inactive_run hrun hi he
    obtain ⟨i, q, hiq, hq, hopen⟩ := proceeded_open hstep ha
    obtain rfl : i = id := Option.some.inj (hiq.symm.trans hid)
    rw [hi₂.not_open (by rw [← hsame i q r hq hr, hs])] at hopen
    cases hopen
  · intro id r' hr' hs'
    obtain ⟨r, hr, hs⟩ := occurrence_before_run hrun hi hr' hs'
    have hst : r.state = .running ∨ r.state.terminal = true := by
      obtain ⟨s, hrow, hn⟩ := hi
      cases ht : r.state.terminal with
      | true => exact .inr rfl
      | false =>
        obtain ha | ⟨-, hrun⟩ := hocc.closed id r sid s hr hs hrow ht
        · exact absurd ha hn
        · exact .inl hrun
    refine ⟨r, hr, hs, ?_, ?_⟩
    · intro _
      obtain ⟨q, hq, hend⟩ := running_run hrun hocc hi hr hs hst
      obtain rfl : q = r' := by simpa [hq] using hr'
      cases hq' : q.state <;> simp_all [DurableJobState.terminal]
    · intro hne
      obtain ⟨q, hq, hset⟩ := settles_run hrun hr
      obtain rfl : q = r' := by simpa [hq] using hr'
      exact (hset.2 (hst.resolve_left hne)).1
  · rintro text t ⟨op, env', result⟩ db'' htext rfl hstep
    have hi' : Inactive db' sid := inactive_after hrun hi
    cases hstep with
    | ok h => exact cancelRecurring_inactive htext hi' h
    | error _ => rfl

end Runs

section Sample

local instance cancellationTexts : Texts := .sample
local instance cancellationCalendar : Calendar := .daily

def sampleSeriesDraft : JobSeriesDraft where
  firstOccurrence := sampleDraft
  recurrence := { cadence := .daily }
  startsAt := 0
  fingerprint := "f"

/-- A recurring job is scheduled, claimed and admitted. -/
def sampleRunning : List (StoreOp × Surroundings) :=
  [(.scheduleRecurring sampleSeriesDraft, sampleSurroundings),
    (.claim "w" 0 30000000, sampleSurroundings),
    (.admitDelivery sampleAdmission, sampleSurroundings)]

/-- The release of a delivery whose series has been cancelled, and another cancellation. -/
def sampleRelease : List (StoreOp × Surroundings) :=
  [(.releaseDelivery sampleAdmission.recordId 1 300000000, sampleSurroundings),
    (.cancelRecurring "00000000-0000-0000-0000-000000000002" 1, sampleSurroundings)]

theorem cancellation_final_release :
    ∃ record db, StoreStep (runAll sampleRunning .empty).2
      ⟨.cancelRecurring "00000000-0000-0000-0000-000000000002" 0, sampleSurroundings, .ok record⟩ db ∧
    ∃ r', (runAll sampleRelease db).2.jobs.row 1 = some r' ∧
      r'.state ∈ [.running, .succeeded, .deadLettered, .cancelled] := by
  obtain ⟨⟨record, db⟩, hok, hrows⟩ := exists_ok (show
    (DjangoDurableJobStore.cancelRecurring "00000000-0000-0000-0000-000000000002" 0
      (runAll sampleRunning .empty).2).toOption.any (fun x =>
        (x.2.jobs.row 1).any (fun r => r.state = .running) &&
        ((runAll sampleRelease x.2).2.jobs.row 1).any (fun r => r.seriesId = some 2)) = true by
      decide)
  simp only [Bool.and_eq_true, Option.any_eq_true, decide_eq_true_eq] at hrows
  obtain ⟨⟨r, hr, hrun⟩, r', hr', hs'⟩ := hrows
  have hstep : StoreStep (runAll sampleRunning .empty).2
      ⟨.cancelRecurring "00000000-0000-0000-0000-000000000002" 0, sampleSurroundings, .ok record⟩ db :=
    .ok (show StoreOp.run (.cancelRecurring _ _) _ _ = _ from hok)
  obtain ⟨sid, hsid, -, -, hrest, -⟩ :=
    cancellation_final (runAll_path sampleRunning .empty) hstep (runAll_path sampleRelease db)
  obtain rfl : sid = 2 := by
    have : uuidFromText "00000000-0000-0000-0000-000000000002" = some 2 := by decide
    simpa [this] using hsid.symm
  obtain ⟨q, hq, -, hk, -⟩ := hrest 1 r' hr' hs'
  obtain rfl : q = r := by simpa [hq] using hr
  exact ⟨record, db, hstep, r', hr', hk hrun⟩

end Sample

end Pybus
