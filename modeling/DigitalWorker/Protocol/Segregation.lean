import DigitalWorker.Protocol.Steps

/-! # Segregation of duties at intake

    Nobody works on a case that only its creator has vouched for: past the two
    intake states, somebody else has verified it. One transition breaks this, the
    amendment of a draft, which takes the case to INTAKE_READY unverified.
-/

namespace DigitalWorker

open Framework

/-! ## The property -/

def VerifiedByOther (c : PreparationCase) : Prop :=
  ∃ v, c.intakeVerifiedBy = some v ∧ v ≠ c.createdBy

/-- Past DRAFT and INTAKE_REJECTED, the intake is verified by somebody else. -/
def Segregated (c : PreparationCase) : Prop := c.state.unverified = true ∨ VerifiedByOther c

def KeepsSegregation (e : Event World Action) : Prop :=
  Segregated e.post.db.case ∧
    ∀ call trigger r, e.act = .start call trigger r → VerifiedByOther e.pre.db.case

def DraftAmended (e : Event World Action) : Prop :=
  ∃ call cmd, e.act = .amend call cmd ∧ e.pre.db.case.state = .draft

section

variable {env : Env} {w w' : World} {a : Action} {es : List (Event World Action)}

theorem VerifiedByOther.same {c c' : PreparationCase} (h : VerifiedByOther c)
    (hverified : c'.intakeVerifiedBy = c.intakeVerifiedBy) (hcreated : c'.createdBy = c.createdBy) :
    VerifiedByOther c' := by
  obtain ⟨v, hv, hne⟩ := h
  exact ⟨v, by rw [hverified, hv], by rw [hcreated]; exact hne⟩

def DraftUnverified (w : World) : Prop :=
  w.db.case.state = .draft → w.db.case.intakeVerifiedBy = none

theorem draftUnverified_step (h : DraftUnverified w) (hs : w.step env a = some w') :
    DraftUnverified w' := by
  intro hdraft
  rcases step_case hs with hsame | ⟨_, _, _, hmove⟩ | ⟨_, _, _, _, _, _, hcase⟩ |
    ⟨_, _, _, _, hstart⟩ | ⟨_, _, _, _, _, _, _, _, hmove⟩
  · rw [hsame] at hdraft ⊢
    exact h hdraft
  · rcases hmove.verification with ⟨hverified, hsame | hrejected | ⟨_, hpost⟩⟩ | ⟨hready, _⟩
    · rw [hsame] at hdraft ⊢
      exact h hdraft
    · rw [hdraft] at hrejected
      cases hrejected
    · rw [hdraft] at hpost
      cases hpost
    · rw [hdraft] at hready
      cases hready
  · rw [hcase] at hdraft
    cases hdraft
  · obtain ⟨_, hcase⟩ := PreparationCase.startRun_ok.mp hstart
    rw [hcase] at hdraft
    cases hdraft
  · rcases hmove.state with hstate | hpost
    · rw [hmove.sameIdentity.intakeVerifiedBy]
      exact h (hstate ▸ hdraft)
    · rw [hdraft] at hpost
      cases hpost

theorem draftUnverified_init (hw : (preparation env).init w) : DraftUnverified w := by
  obtain ⟨_, _, hcreate, _⟩ := hw
  intro _
  exact (createCase_ok hcreate).verifiedBy

/-! ## What no amendment of a draft can break -/

def Guarded (w : World) : Prop :=
  (w.db.case.state.unverified = true ∧ ∀ r, w.runs r = none) ∨ VerifiedByOther w.db.case

theorem Guarded.segregated (h : Guarded w) : Segregated w.db.case := by
  rcases h with ⟨hstate, _⟩ | hverified
  · exact .inl hstate
  · exact .inr hverified

theorem step_no_runs (h : ∀ r, w.runs r = none) (hs : w.step env a = some w')
    (ha : ∀ call trigger r, a ≠ .start call trigger r) : ∀ r, w'.runs r = none :=
  fun r => World.step_noRow hs ha (h r)

theorem Guarded.verified_at_start (h : Guarded w) {r : Uuid} {c' : PreparationCase}
    (hstart : w.db.case.startRun r = .ok c') : VerifiedByOther w.db.case := by
  rcases h with ⟨hstate, _⟩ | hverified
  · exfalso
    obtain ⟨hstartable, _⟩ := PreparationCase.startRun_ok.mp hstart
    rw [CaseState.unverified_of_startable hstartable] at hstate
    cases hstate
  · exact hverified

/-- **Step**: every step keeps the case guarded but the amendment of a draft. -/
theorem guarded_step (h : Guarded w) (hs : w.step env a = some w')
    (hok : ¬ DraftAmended ⟨w, a, w'⟩) : Guarded w' := by
  rcases step_case hs with hsame | ⟨call, hd, rfl, hmove⟩ | ⟨call, cmd, rfl, haccepts, _, _, hcase⟩ |
    ⟨call, trigger, r, rfl, hstart⟩ | ⟨r, inp, record, n, st, rfl, hrecord, _, hmove⟩
  · unfold Guarded
    rw [hsame]
    rcases h with ⟨hstate, hruns⟩ | hverified
    · by_cases hstarts : ∃ call trigger r, a = .start call trigger r
      · -- a start writes the case row
        obtain ⟨call, trigger, r, rfl⟩ := hstarts
        obtain ⟨_, db, actor, hstart, rfl⟩ := World.step_start hs
        right
        exact Guarded.verified_at_start (.inl ⟨hstate, hruns⟩) (startRun_ok hstart).1
      · push Not at hstarts
        exact .inl ⟨hstate, step_no_runs hruns hs hstarts⟩
    · exact .inr hverified
  · rcases hmove.verification with ⟨hverified, hstates⟩ | ⟨_, v, hv, hne⟩
    · rcases h with ⟨hstate, hruns⟩ | hother
      · left
        refine ⟨?_, step_no_runs hruns hs (fun _ _ _ => by intro heq; cases heq)⟩
        rcases hstates with hsame | hrejected | ⟨hpre, _⟩
        · rw [hsame]
          exact hstate
        · rw [hrejected]
          rfl
        · rw [hstate] at hpre
          cases hpre
      · exact .inr (hother.same hverified hmove.createdBy)
    · exact .inr ⟨v, hv, by rw [hmove.createdBy]; exact hne⟩
  · right
    have hverified : VerifiedByOther w.db.case := by
      rcases h with ⟨hstate, _⟩ | hverified
      · have hdraft := CaseState.draft_of_amendable haccepts hstate
        exact absurd ⟨call, cmd, rfl, hdraft⟩ hok
      · exact hverified
    rw [hcase]
    exact hverified
  · right
    have hverified := h.verified_at_start hstart
    obtain ⟨_, hcase⟩ := PreparationCase.startRun_ok.mp hstart
    rw [hcase]
    exact hverified
  · right
    have hverified : VerifiedByOther w.db.case := by
      rcases h with ⟨_, hruns⟩ | hverified
      · rw [hruns r] at hrecord
        cases hrecord
      · exact hverified
    exact hverified.same hmove.sameIdentity.intakeVerifiedBy hmove.sameIdentity.createdBy

theorem guarded_init (hw : (preparation env).init w) : Guarded w := by
  obtain ⟨_, _, hcreate, _, _, hruns, _⟩ := hw
  left
  rw [(createCase_ok hcreate).state]
  exact ⟨rfl, hruns⟩

/-! ## The law -/

/-- **Segregation of duties at intake**: a run of the protocol keeps every case
    past intake verified by somebody other than its creator, and starts no run
    before, if and only if it amends no draft. -/
theorem intake_segregation_iff (h : Exec (preparation env) es w) :
    (∀ e ∈ es, KeepsSegregation e) ↔ ∀ e ∈ es, ¬ DraftAmended e := by
  constructor
  · intro hkeeps e he hamended
    obtain ⟨hpre, hs⟩ := h.pre_invariant (fun _ hw => draftUnverified_init hw)
      (fun _ _ _ hd hs => draftUnverified_step hd hs) e he
    obtain ⟨call, cmd, hact, hdraft⟩ := hamended
    rw [hact] at hs
    obtain ⟨db, hamend, hpost⟩ := World.step_amend hs
    obtain ⟨_, ⟨value, deadline, hcase⟩, _⟩ := amendCase_ok hamend
    have hpostCase : e.post.db.case = _ := (congrArg (fun w : World => w.db.case) hpost).trans hcase
    rcases (hkeeps e he).1 with hstate | ⟨v, hv, _⟩
    · rw [hpostCase] at hstate
      cases hstate
    · rw [hpostCase] at hv
      have hnone : e.pre.db.case.intakeVerifiedBy = some v := hv
      rw [hpre hdraft] at hnone
      cases hnone
  · intro hok e he
    obtain ⟨hpre, hs⟩ := h.pre_of (fun _ hw => guarded_init hw)
      (fun _ _ _ hg hs hno => guarded_step hg hs hno) hok e he
    refine ⟨(guarded_step hpre hs (hok e he)).segregated, ?_⟩
    intro call trigger r hact
    rw [hact] at hs
    obtain ⟨_, db, actor, hstart, _⟩ := World.step_start hs
    exact hpre.verified_at_start (startRun_ok hstart).1

end

namespace Office

/-- A run that reaches CP1 from a verified intake is segregated throughout. -/
theorem toCp1_segregated : ∃ es w, Exec (preparation env) es w ∧ es.length = toCp1.length ∧
    ∀ e ∈ es, KeepsSegregation e := by
  let unamended (e : Event World Action) : Bool :=
    match e.act with
    | .amend _ _ => false
    | _ => true
  have hruns : (preparation env).runs opened toCp1
      (fun es _ => es.length == toCp1.length && es.all unamended) = true := by
    decide +kernel
  obtain ⟨es, w, hexec, htest⟩ := Machine.exec_of_runs opened_init hruns
  simp only [Bool.and_eq_true, beq_iff_eq, List.all_eq_true] at htest
  refine ⟨es, w, hexec, htest.1, (intake_segregation_iff hexec).mpr ?_⟩
  intro e he hamended
  obtain ⟨call, cmd, hact, _⟩ := hamended
  have hunamended := htest.2 e he
  simp only [unamended, hact] at hunamended
  cases hunamended

def amendDraft : List Action :=
  [.amend (call an) { estimatedValueMinor := some 200 }, .start (call an) .manual run]

theorem amended_draft_runs_unverified : ∃ es w, Exec (preparation env) es w ∧
    w.db.case.state = .analyzing ∧ w.db.case.intakeVerifiedBy = none ∧
    ¬ ∀ e ∈ es, KeepsSegregation e := by
  let test (w : World) : Bool :=
    w.db.case.state == .analyzing && w.db.case.intakeVerifiedBy == none
  have hruns : (preparation env).runs opened amendDraft
      (fun es w => test w && es.any (fun e => test e.post)) = true := by
    decide +kernel
  obtain ⟨es, w, hexec, htest⟩ := Machine.exec_of_runs opened_init hruns
  simp only [test, Bool.and_eq_true, beq_iff_eq, List.any_eq_true] at htest
  obtain ⟨⟨hstate, hverified⟩, e, he, hpost, hnone⟩ := htest
  refine ⟨es, w, hexec, hstate, hverified, ?_⟩
  intro hkeeps
  rcases (hkeeps e he).1 with hunverified | ⟨v, hv, _⟩
  · rw [hpost] at hunverified
    cases hunverified
  · rw [hnone] at hv
    cases hv

end Office

end DigitalWorker
