import Pybus.Series

/-! The occurrences of a series in every run: numbered from 1 without a gap, all but the latest
succeeded, and the latest in a state that the series agrees with. -/
namespace Pybus

open Texts Interaction DjangoDurableJobStore

/-- One series agrees with its occurrences. -/
structure SeriesAgrees (db : Database) (sid : Uuid) (s : JobSeries) : Prop where
  positive : 1 ≤ s.latestOccurrenceNumber
  numbered : ∀ id r, db.jobs.row id = some r → r.seriesId = some sid →
    ∃ n, r.occurrenceNumber = some n ∧ 1 ≤ n ∧ n ≤ s.latestOccurrenceNumber
  complete : ∀ n, 1 ≤ n → n ≤ s.latestOccurrenceNumber →
    ∃ id r, db.jobs.row id = some r ∧ r.seriesId = some sid ∧ r.occurrenceNumber = some n
  earlier : ∀ id r n, db.jobs.row id = some r → r.seriesId = some sid →
    r.occurrenceNumber = some n → n < s.latestOccurrenceNumber → r.state = .succeeded
  latest : ∀ id r, db.jobs.row id = some r → r.seriesId = some sid →
    r.occurrenceNumber = some s.latestOccurrenceNumber → s.state.Fits r.state
  successors : ∀ i j p q n, db.jobs.row i = some p → db.jobs.row j = some q →
    p.seriesId = some sid → q.seriesId = some sid → p.occurrenceNumber = some n →
    q.occurrenceNumber = some (n + 1) → ∃ t, p.finishedAt = some t ∧ t < q.availableAt ∧
      ∀ e, s.recurrence.endsAt = some e → q.availableAt < e

/-- Every series agrees with its occurrences. -/
structure SeriesAgree (db : Database) : Prop where
  occurrences : Occurrences db
  agrees : ∀ sid s, db.series.row sid = some s → SeriesAgrees db sid s

/-- What a step keeps of an occurrence. -/
structure Keeps (r r' : DurableJob) : Prop where
  series : r'.seriesId = r.seriesId
  number : r'.occurrenceNumber = r.occurrenceNumber
  available : r'.availableAt = r.availableAt
  finished : r.state.terminal = true → r'.state = r.state ∧ r'.finishedAt = r.finishedAt

variable {db db' : Database} {sid : Uuid} {s s' : JobSeries} {id : Uuid} {r r' : DurableJob}

theorem SeriesAgree.empty : SeriesAgree .empty where
  occurrences := occurrences_empty
  agrees := by
    intro sid s h
    simp [Database.empty] at h

/-- Occurrences that are kept agree with a series of the same length. -/
theorem SeriesAgrees.kept (h : SeriesAgrees db sid s)
    (hold : ∀ id r', db'.jobs.row id = some r' → r'.seriesId = some sid →
      ∃ r, db.jobs.row id = some r ∧ Keeps r r')
    (hnew : ∀ id r, db.jobs.row id = some r → ∃ r', db'.jobs.row id = some r' ∧ Keeps r r')
    (hl : s'.latestOccurrenceNumber = s.latestOccurrenceNumber) (hr : s'.recurrence = s.recurrence)
    (hfits : ∀ id r r', db.jobs.row id = some r → db'.jobs.row id = some r' →
      r.seriesId = some sid → r.occurrenceNumber = some s.latestOccurrenceNumber →
      s.state.Fits r.state → s'.state.Fits r'.state) : SeriesAgrees db' sid s' where
  positive := by
    rw [hl]
    exact h.positive
  numbered := by
    intro id r' hr' hs
    obtain ⟨r, hr, hk⟩ := hold id r' hr' hs
    rw [hk.number, hl]
    exact h.numbered id r hr (by rw [← hk.series, hs])
  complete := by
    intro n h₁ hn
    rw [hl] at hn
    obtain ⟨id, r, hr, hs, hnum⟩ := h.complete n h₁ hn
    obtain ⟨r', hr', hk⟩ := hnew id r hr
    exact ⟨id, r', hr', by rw [hk.series, hs], by rw [hk.number, hnum]⟩
  earlier := by
    intro id r' n hr' hs hnum hn
    obtain ⟨r, hr, hk⟩ := hold id r' hr' hs
    rw [hl] at hn
    have hst := h.earlier id r n hr (by rw [← hk.series, hs]) (by rw [← hk.number, hnum]) hn
    rw [(hk.finished (by simp [hst, DurableJobState.terminal])).1, hst]
  latest := by
    intro id r' hr' hs hnum
    obtain ⟨r, hr, hk⟩ := hold id r' hr' hs
    have hs' : r.seriesId = some sid := by rw [← hk.series, hs]
    have hnum' : r.occurrenceNumber = some s.latestOccurrenceNumber := by
      rw [← hk.number, hnum, hl]
    exact hfits id r r' hr hr' hs' hnum' (h.latest id r hr hs' hnum')
  successors := by
    intro i j p' q' n hp' hq' hps hqs hpn hqn
    obtain ⟨p, hp, hkp⟩ := hold i p' hp' hps
    obtain ⟨q, hq, hkq⟩ := hold j q' hq' hqs
    have hqs' : q.seriesId = some sid := by rw [← hkq.series, hqs]
    have hqn' : q.occurrenceNumber = some (n + 1) := by rw [← hkq.number, hqn]
    have hps' : p.seriesId = some sid := by rw [← hkp.series, hps]
    have hpn' : p.occurrenceNumber = some n := by rw [← hkp.number, hpn]
    obtain ⟨m, hm, -, hle⟩ := h.numbered j q hq hqs'
    obtain rfl : n + 1 = m := by simpa [hqn'] using hm
    have hst := h.earlier i p n hp hps' hpn' (by omega)
    obtain ⟨t, ht, hlt, hends⟩ := h.successors i j p q n hp hq hps' hqs' hpn' hqn'
    rw [hkq.available, (hkp.finished (by simp [hst, DurableJobState.terminal])).2, hr]
    exact ⟨t, ht, hlt, hends⟩

variable [Texts]

theorem JobChange.keeps {env : Surroundings} {op : StoreOp} (h : JobChange db env op id r r') :
    Keeps r r' := by
  obtain ⟨hs, hn, -, ha⟩ := h.identity
  refine ⟨hs, hn, ha, fun ht => ?_⟩
  simp [h.nonterminal] at ht

/-- A step keeps every occurrence. -/
theorem Changes.keeps {env : Surroundings} {op : StoreOp} (h : Changes db env op db')
    (hr : db.jobs.row id = some r) : ∃ r', db'.jobs.row id = some r' ∧ Keeps r r' := by
  obtain ⟨r', hr', rfl | hc⟩ := h.job id r hr
  · exact ⟨r', hr', rfl, rfl, rfl, fun _ => ⟨rfl, rfl⟩⟩
  · exact ⟨r', hr', hc.keeps⟩

/-- A step that adds no occurrence to a series and leaves it alone keeps the agreement. -/
theorem SeriesAgrees.undisturbed {env : Surroundings} {op : StoreOp} (hc : Changes db env op db')
    (h : SeriesAgrees db sid s) (hs : db.series.row sid = some s)
    (hnew : ∀ id r', db.jobs.row id = none → db'.jobs.row id = some r' → r'.seriesId ≠ some sid)
    (hopen : ∀ id r r', db.jobs.row id = some r → db'.jobs.row id = some r' →
      r.seriesId = some sid → s.state = .active → r.state.terminal = false →
      r'.state.terminal = false) : SeriesAgrees db' sid s := by
  refine h.kept ?_ (fun id r hr => hc.keeps hr) rfl rfl ?_
  · intro id r' hr' hsid
    cases hr : db.jobs.row id with
    | none => exact absurd hsid (hnew id r' hr hr')
    | some r =>
      obtain ⟨q, hq, hk⟩ := hc.keeps hr
      obtain rfl : q = r' := by simpa [hq] using hr'
      exact ⟨r, rfl, hk⟩
  · intro id r r' hr hr' hsid hnum hf
    obtain ⟨q, hq, hcase⟩ := hc.job id r hr
    obtain rfl : q = r' := by simpa [hq] using hr'
    rcases hcase with rfl | hj
    · exact hf
    cases hst : s.state with
    | active =>
      rw [hst] at hf
      exact hopen id r q hr hr' hsid hst hf
    | completed =>
      rw [hst] at hf
      have := hj.nonterminal
      rw [show r.state = .succeeded from hf] at this
      cases this
    | failed =>
      rw [hst] at hf
      have := hj.nonterminal
      rw [show r.state = .deadLettered from hf] at this
      cases this
    | cancelled =>
      rw [hst] at hf
      rcases hf with ht | hrun
      · rw [hj.nonterminal] at ht
        cases ht
      · exact .inl (hj.of_running_cancelled hrun (by simp [seriesState, hsid, hs, hst]))

section Steps

variable {env : Surroundings} {op : StoreOp}

omit [Texts] in
/-- A series that was just opened agrees with its first occurrence. -/
theorem SeriesAgrees.opened (hocc : Occurrences db) (hn : db.series.row sid = none)
    (ht : Touches db db' sid s id r) (ha : s.state = .active) (hl : s.latestOccurrenceNumber = 1)
    (hsid : r.seriesId = some sid) (hnum : r.occurrenceNumber = some 1)
    (hp : r.state = .pending) : SeriesAgrees db' sid s := by
  have only : ∀ i q, db'.jobs.row i = some q → q.seriesId = some sid → i = id ∧ q = r := by
    intro i q hq hqs
    by_cases hi : i = id
    · subst hi
      exact ⟨rfl, Option.some.inj (hq.symm.trans ht.job)⟩
    · rw [ht.job_ne i hi] at hq
      obtain ⟨s', hs'⟩ := hocc.exist i q sid hq hqs
      rw [hn] at hs'
      cases hs'
  refine ⟨by omega, ?_, ?_, ?_, ?_, ?_⟩
  · intro i q hq hqs
    obtain ⟨-, rfl⟩ := only i q hq hqs
    exact ⟨1, hnum, le_rfl, by omega⟩
  · intro n h₁ hle
    obtain rfl : n = 1 := by omega
    exact ⟨id, r, ht.job, hsid, hnum⟩
  · intro i q n hq hqs hqn hlt
    obtain ⟨-, rfl⟩ := only i q hq hqs
    rw [hnum] at hqn
    cases hqn
    omega
  · intro i q hq hqs _
    obtain ⟨-, rfl⟩ := only i q hq hqs
    rw [ha]
    simp [JobSeriesState.Fits, hp, DurableJobState.terminal]
  · intro i j p q n hp' hq' hps hqs hpn hqn
    obtain ⟨-, rfl⟩ := only i p hp' hps
    obtain ⟨-, rfl⟩ := only j q hq' hqs
    rw [hpn] at hqn
    injection hqn with hqn
    omega

/-- A series that ends agrees with its occurrences. -/
theorem SeriesAgrees.ended {state : JobSeriesState} {finishedAt : Instant}
    (hc : Changes db env op db') (h : SeriesAgrees db sid s)
    (hunique : ∀ i q, db.jobs.row i = some q → q.seriesId = some sid →
      q.occurrenceNumber = some s.latestOccurrenceNumber → i = id)
    (ht : Touches db db' sid (s.finish state finishedAt) id r') (hr : db.jobs.row id = some r)
    (hf : state.Fits r'.state) : SeriesAgrees db' sid (s.finish state finishedAt) := by
  refine h.kept ?_ (fun i q hq => hc.keeps hq) rfl rfl ?_
  · intro i q' hq' hqs
    have hsome : ∃ q, db.jobs.row i = some q := by
      by_cases hi : i = id
      · exact ⟨r, hi ▸ hr⟩
      · exact ⟨q', by rw [← ht.job_ne i hi, hq']⟩
    obtain ⟨q, hq⟩ := hsome
    obtain ⟨p, hp, hk⟩ := hc.keeps hq
    obtain rfl : p = q' := by simpa [hp] using hq'
    exact ⟨q, hq, hk⟩
  · intro i q q' hq hq' hqs hqn _
    obtain rfl := hunique i q hq hqs hqn
    obtain rfl : q' = r' := Option.some.inj (hq'.symm.trans ht.job)
    exact hf

omit [Texts] in
/-- A series that goes on agrees with its occurrences and the new one. -/
theorem SeriesAgrees.advanced {fresh : Uuid} {q : DurableJob} {completedAt : Instant}
    (h : SeriesAgrees db sid s) (ha : s.state = .active) (hr : db.jobs.row id = some r)
    (hsid : r.seriesId = some sid) (hlast : r.occurrenceNumber = some s.latestOccurrenceNumber)
    (hunique : ∀ i p, db.jobs.row i = some p → p.seriesId = some sid →
      p.occurrenceNumber = some s.latestOccurrenceNumber → i = id)
    (hfresh : db.jobs.row fresh = none) (hr' : db'.jobs.row id = some (r.succeed completedAt))
    (hq : db'.jobs.row fresh = some q)
    (hne : ∀ i, i ≠ id → i ≠ fresh → db'.jobs.row i = db.jobs.row i)
    (hs : Successor sid s completedAt q) :
    SeriesAgrees db' sid { s with latestOccurrenceNumber := s.latestOccurrenceNumber + 1 } := by
  have hidf : id ≠ fresh := by
    intro he
    rw [he, hfresh] at hr
    cases hr
  -- every occurrence is the new one, the completed one, or an older one
  have old : ∀ i p, db'.jobs.row i = some p → p.seriesId = some sid →
      (i = fresh ∧ p = q) ∨ (i = id ∧ p = r.succeed completedAt) ∨
      (i ≠ id ∧ db.jobs.row i = some p ∧ ∃ n, p.occurrenceNumber = some n ∧
        1 ≤ n ∧ n < s.latestOccurrenceNumber) := by
    intro i p hp hps
    by_cases hf : i = fresh
    · subst hf
      exact .inl ⟨rfl, Option.some.inj (hp.symm.trans hq)⟩
    by_cases hi : i = id
    · subst hi
      exact .inr (.inl ⟨rfl, Option.some.inj (hp.symm.trans hr')⟩)
    · rw [hne i hi hf] at hp
      obtain ⟨n, hn, h₁, hle⟩ := h.numbered i p hp hps
      refine .inr (.inr ⟨hi, hp, n, hn, h₁, lt_of_le_of_ne hle ?_⟩)
      rintro rfl
      exact hi (hunique i p hp hps hn)
  have hpos := h.positive
  refine ⟨by simp, ?_, ?_, ?_, ?_, ?_⟩
  · intro i p hp hps
    dsimp only
    rcases old i p hp hps with ⟨-, rfl⟩ | ⟨-, rfl⟩ | ⟨-, -, n, hn, h₁, hlt⟩
    · exact ⟨_, hs.number, by omega, le_rfl⟩
    · exact ⟨_, hlast, hpos, by omega⟩
    · exact ⟨n, hn, h₁, by omega⟩
  · intro n h₁ hle
    dsimp only at hle
    by_cases hn : n = s.latestOccurrenceNumber + 1
    · subst hn
      exact ⟨fresh, q, hq, hs.series, hs.number⟩
    · obtain ⟨i, p, hp, hps, hpn⟩ := h.complete n h₁ (by omega)
      have hif : i ≠ fresh := by
        rintro rfl
        simp [hfresh] at hp
      by_cases hi : i = id
      · subst hi
        obtain rfl : r = p := by simpa [hr] using hp
        exact ⟨i, _, hr', hps, hpn⟩
      · exact ⟨i, p, by rw [hne i hi hif, hp], hps, hpn⟩
  · intro i p n hp hps hpn hlt
    dsimp only at hlt
    rcases old i p hp hps with ⟨-, rfl⟩ | ⟨-, rfl⟩ | ⟨-, hp, m, hm, -, hlt'⟩
    · rw [hs.number] at hpn
      cases hpn
      omega
    · rfl
    · rw [hpn] at hm
      cases hm
      exact h.earlier i p n hp hps hpn hlt'
  · intro i p hp hps hpn
    dsimp only at hpn ⊢
    rw [ha]
    rcases old i p hp hps with ⟨-, rfl⟩ | ⟨-, rfl⟩ | ⟨-, -, m, hm, -, hlt'⟩
    · simp [JobSeriesState.Fits, hs.pending, DurableJobState.terminal]
    · have hlast' : r.occurrenceNumber = some (s.latestOccurrenceNumber + 1) := hpn
      rw [hlast] at hlast'
      injection hlast' with hlast'
      omega
    · rw [hpn] at hm
      injection hm with hm
      omega
  · intro i j p p' n hp hp' hps hps' hpn hpn'
    dsimp only
    have hj := old j p' hp' hps'
    rcases old i p hp hps with ⟨-, rfl⟩ | ⟨-, rfl⟩ | ⟨-, hpo, m, hm, -, hlt⟩
    · -- nothing follows the new occurrence
      rw [hs.number] at hpn
      cases hpn
      rcases hj with ⟨-, rfl⟩ | ⟨-, rfl⟩ | ⟨-, -, m, hm, -, hlt⟩
      · rw [hs.number] at hpn'
        injection hpn' with hpn'
        omega
      · have hlast' : r.occurrenceNumber = some (s.latestOccurrenceNumber + 1 + 1) := hpn'
        rw [hlast] at hlast'
        injection hlast' with hlast'
        omega
      · rw [hpn'] at hm
        injection hm with hm
        omega
    · -- the new occurrence follows the completed one
      have hn : n = s.latestOccurrenceNumber := by
        have hlast' : r.occurrenceNumber = some n := hpn
        rw [hlast] at hlast'
        injection hlast' with hlast'
        exact hlast'.symm
      subst hn
      rcases hj with ⟨-, rfl⟩ | ⟨-, rfl⟩ | ⟨-, -, m, hm, -, hlt⟩
      · exact ⟨completedAt, rfl, hs.after, hs.before⟩
      · have hlast' : r.occurrenceNumber = some (s.latestOccurrenceNumber + 1) := hpn'
        rw [hlast] at hlast'
        injection hlast' with hlast'
        omega
      · rw [hpn'] at hm
        injection hm with hm
        omega
    · rw [hpn] at hm
      cases hm
      rcases hj with ⟨-, rfl⟩ | ⟨rfl, rfl⟩ | ⟨-, hpo', -⟩
      · rw [hs.number] at hpn'
        injection hpn' with hpn'
        omega
      · exact h.successors i j p r n hpo hr hps hsid hpn hpn'
      · exact h.successors i j p p' n hpo hpo' hps hps' hpn hpn'

/-- A step that touches one series leaves the agreement of the others. -/
theorem SeriesAgrees.beside {sid₀ : Uuid} {s₀ : JobSeries} (hc : Changes db env op db')
    (h : SeriesAgrees db sid s) (hs : db.series.row sid = some s) (hne : sid ≠ sid₀)
    (ht : Touches db db' sid₀ s₀ id r') (hid : r'.seriesId = some sid₀) :
    SeriesAgrees db' sid s := by
  apply h.undisturbed hc hs
  · intro i q hn hq
    by_cases hi : i = id
    · subst hi
      obtain rfl : q = r' := Option.some.inj (hq.symm.trans ht.job)
      rw [hid]
      intro he
      exact hne (Option.some.inj he).symm
    · rw [ht.job_ne i hi, hn] at hq
      cases hq
  · intro i q q' hq hq' hqs _ hqn
    by_cases hi : i = id
    · subst hi
      obtain rfl : q' = r' := Option.some.inj (hq'.symm.trans ht.job)
      obtain ⟨p, hp, hk⟩ := hc.keeps hq
      obtain rfl : p = q' := by simpa [hp] using hq'
      rw [hk.series, hqs] at hid
      exact absurd (Option.some.inj hid) hne
    · rw [ht.job_ne i hi, hq] at hq'
      cases hq'
      exact hqn

variable [Calendar] {e : StoreEvent} {es : List StoreEvent}

theorem seriesAgree_step (hcal : Calendar.Forward) (h : StoreStep db e db')
    (hop : e.op.Apart db) (hi : SeriesAgree db) : SeriesAgree db' := by
  refine ⟨occurrences_step h hi.occurrences, ?_⟩
  have hc := h.changes
  have hocc := hi.occurrences
  cases h with
  | error _ => exact hi.agrees
  | @ok _ op env a h =>
    intro sid s' hs'
    -- the occurrence with the latest number of a series
    have only : ∀ {sid₀ s₀ id r}, db.series.row sid₀ = some s₀ → db.jobs.row id = some r →
        r.seriesId = some sid₀ → r.occurrenceNumber = some s₀.latestOccurrenceNumber →
        ∀ i q, db.jobs.row i = some q → q.seriesId = some sid₀ →
          q.occurrenceNumber = some s₀.latestOccurrenceNumber → i = id := by
      intro sid₀ s₀ id r _ hr hrs hrn i q hq hqs hqn
      exact hocc.unique i id q r hq hr (by simp [hqs]) (hqs.trans hrs.symm) (hqn.trans hrn.symm)
    cases SeriesStep.of_run hcal hop h with
    | kept hseries hnew hopen =>
      rw [hseries] at hs'
      refine (hi.agrees sid s' hs').undisturbed hc hs' ?_ ?_
      · intro i q hn hq he
        rw [hnew i q hn hq] at he
        cases he
      · intro i q q' hq hq' hqs ha hqn
        exact hopen i q q' hq hq' (by simp [seriesState, hqs, hs', ha]) hqn
    | @opened sid₀ id s r hsn hjn ht ha hl hrs hrn hp =>
      by_cases he : sid = sid₀
      · subst he
        obtain rfl : s' = s := Option.some.inj (hs'.symm.trans ht.series)
        exact .opened hocc hsn ht ha hl hrs hrn hp
      · rw [ht.series_ne sid he] at hs'
        exact (hi.agrees sid s' hs').beside hc hs' he ht hrs
    | @ended sid₀ id s r r' state finishedAt hs ha hr hrs hlast ht hst hf =>
      have hrn : r.occurrenceNumber = some s.latestOccurrenceNumber := by
        rcases hlast with hn | hn
        · exact hn
        · exact hocc.latest id r sid₀ s hr hrs hs hn
      by_cases he : sid = sid₀
      · subst he
        obtain rfl := Option.some.inj (hs'.symm.trans ht.series)
        exact (hi.agrees sid s hs).ended hc (only hs hr hrs hrn) ht hr hf
      · rw [ht.series_ne sid he] at hs'
        obtain ⟨q, hq, hk⟩ := hc.keeps hr
        obtain rfl : q = r' := Option.some.inj (hq.symm.trans ht.job)
        exact (hi.agrees sid s' hs').beside hc hs' he ht (by rw [hk.series, hrs])
    | @advanced sid₀ id fresh s r q completedAt hs ha hr hrs hrun hfresh hser hsne hr' hq hne hsucc =>
      have hrn : r.occurrenceNumber = some s.latestOccurrenceNumber :=
        hocc.latest id r sid₀ s hr hrs hs (by simp [hrun, DurableJobState.terminal])
      by_cases he : sid = sid₀
      · subst he
        obtain rfl := Option.some.inj (hs'.symm.trans hser)
        exact (hi.agrees sid s hs).advanced ha hr hrs hrn (only hs hr hrs hrn) hfresh hr' hq hne hsucc
      · rw [hsne sid he] at hs'
        have hother : some sid₀ ≠ some sid := fun h => he (Option.some.inj h).symm
        refine (hi.agrees sid s' hs').undisturbed hc hs' ?_ ?_
        · intro i p hn hp
          by_cases hif : i = fresh
          · subst hif
            obtain rfl : p = q := Option.some.inj (hp.symm.trans hq)
            rw [hsucc.series]
            exact hother
          · have hii : i ≠ id := by
              rintro rfl
              rw [hn] at hr
              cases hr
            rw [hne i hii hif, hn] at hp
            cases hp
        · intro i p p' hp hp' hps _ hpn
          by_cases hii : i = id
          · subst hii
            obtain rfl : p = r := Option.some.inj (hp.symm.trans hr)
            exact absurd (hrs.symm.trans hps) hother
          · have hif : i ≠ fresh := by
              rintro rfl
              rw [hfresh] at hp
              cases hp
            rw [hne i hii hif, hp] at hp'
            cases hp'
            exact hpn

end Steps

end Pybus
