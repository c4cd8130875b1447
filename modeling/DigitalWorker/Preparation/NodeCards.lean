import DigitalWorker.Preparation.NodeWrites

/-! # Which cards the nodes send

    Two nodes send decision cards: the gates, when they pass. Every other card
    of a run is progress. A gate that passes has no reasons to list, so the
    digest of its verdict, and with it the key of its card, is the same for
    every run of every case.
-/

namespace DigitalWorker

open CaseDb

/-! ## The dedupe of a passed gate -/

def passedGate : GateResult := { passed := true, reasons := [] }

def gateDedupe (env : Env) : String := take (env.contentHash passedGate.toDict) 12

theorem approachVerdict_passed {env : Env} {st : PreparationState} {method : Method}
    (h : (approachVerdict env st method).passed = true) :
    approachVerdict env st method = passedGate :=
  GateResult.of_passed h

theorem packageVerdict_passed {env : Env} {inp : NodeInput} {st : PreparationState}
    {method : Method} (h : (packageVerdict env inp st method).passed = true) :
    packageVerdict env inp st method = passedGate :=
  GateResult.of_passed h

variable {env : Env} {directory : Directory} {rc : RunContext} {inp : NodeInput}
  {n : NodeName} {st st' : PreparationState} {db db' : CaseDb} {e : Error}

theorem sendsCards_notifyProgress {db₁ : CaseDb} {stage dedupe : String} {recipient : Option Uuid}
    (hjobs : db₁.jobs = db.jobs) (hid : db₁.case.id = db.case.id) :
    SendsCards [] db (db₁.notifyProgress stage dedupe recipient) :=
  .send rfl hjobs hid rfl

theorem NodeWrites.sendsCards {ts : List ArtifactType} {rejects : Bool}
    (h : NodeWrites env directory ts rejects false db db') :
    SendsCards [] db db' ∧ db'.case.id = db.case.id := by
  induction h with
  | refl => exact ⟨.of_keys rfl, rfl⟩
  | progress _ ih =>
    refine ⟨ih.1.after (sendsCards_notifyProgress rfl rfl) ih.2, ?_⟩
    rw [notifyProgress_case]
    exact ih.2
  | artifact _ _ ih =>
    refine ⟨ih.1.after (.of_jobs addNodeArtifact_jobs) ih.2, ?_⟩
    rw [addNodeArtifact_case]
    exact ih.2
  | saveCase hsave hid _ ih =>
    obtain ⟨_, rfl⟩ := saveCase_ok.mp hsave
    exact ⟨ih.1.after (.of_jobs rfl) ih.2, hid.trans ih.2⟩
  | reject _ _ ih => exact ⟨ih.1.after (.of_jobs rfl) ih.2, ih.2⟩
  | ask ha => cases ha

theorem persistVerdict_jobs {t : ArtifactType} {result : GateResult} :
    (persistVerdict env inp t result db).jobs = db.jobs := by
  unfold persistVerdict
  split
  · rw [addNodeArtifact_jobs]
  · rfl

theorem approachCards_cards {method : Method} {result : GateResult}
    (h : db'.jobs = (approachCards env directory inp method result db).jobs) :
    if result.passed && !autopilot env inp method result then
      SendsCard .cpApprovalRequested
        (directory.approver env.rules db.case.estimatedValueMinor "CP1")
        (cardKey db.case.id "CP1" (take (env.contentHash result.toDict) 12)) db db'
    else SendsCards [] db db' := by
  have hprogress : SendsCards [] db (db.notifyProgress "cp1_gate"
      (take (env.contentHash result.toDict) 12)) := sendsCards_notifyProgress rfl rfl
  simp only [approachCards] at h
  by_cases hpassed : result.passed = true
  · by_cases hauto : autopilot env inp method result = true
    · rw [if_neg (by simp [hauto])]
      rw [if_neg (by simp [hpassed]), if_pos hauto] at h
      split at h
      · exact hprogress.after (.send h rfl rfl rfl) rfl
      · exact hprogress.after (.of_jobs h) rfl
    · rw [if_pos (by simp [hpassed, hauto])]
      rw [if_neg (by simp [hpassed]), if_neg hauto] at h
      exact ⟨_, hprogress, h⟩
  · rw [if_neg (by simp [hpassed])]
    rw [if_pos (by simp [hpassed])] at h
    exact hprogress.after (.of_jobs h) rfl

theorem reviewWait_sendsCards {result : GateResult} {stage dedupe : String} :
    SendsCards [] db (if result.passed then db.notifyProgress stage dedupe else db) := by
  split
  · exact sendsCards_notifyProgress rfl rfl
  · exact .of_keys rfl

theorem gateBefore_sendsCards {t : ArtifactType} {result : GateResult} {stage dedupe : String} :
    SendsCards [] db (persistVerdict env inp t result
      (if result.passed then db.notifyProgress stage dedupe else db)) ∧
    (persistVerdict env inp t result
      (if result.passed then db.notifyProgress stage dedupe else db)).case = db.case := by
  have hcase : (if result.passed then db.notifyProgress stage dedupe else db).case = db.case := by
    split
    · exact notifyProgress_case
    · rfl
  refine ⟨reviewWait_sendsCards.after (.of_jobs persistVerdict_jobs) (by rw [hcase]), ?_⟩
  rw [persistVerdict_case, hcase]

theorem approachGateNode_ok_cards
    (h : approachGateNode env directory inp st db = (db', .ok st')) :
    ∃ method, env.rules.selectMethod st.estimatedValueMinor = .ok method ∧
      if (approachVerdict env st method).passed &&
          !autopilot env inp method (approachVerdict env st method) then
        SendsCard .cpApprovalRequested
          (directory.approver env.rules db.case.estimatedValueMinor "CP1")
          (cardKey db.case.id "CP1" (gateDedupe env)) db db'
      else SendsCards [] db db' := by
  unfold approachGateNode at h
  split at h
  · cases (Prod.mk.inj h).2
  · next method hm =>
    have htxn := runTransaction_ok h
    simp only [bind_ok] at htxn
    obtain ⟨rows, hsave, hret⟩ := htxn
    obtain ⟨hdb, _⟩ := Prod.mk.inj (Except.ok.inj hret)
    obtain ⟨_, hrows⟩ := saveCase_ok.mp hsave
    have hjobs := congrArg CaseDb.jobs hrows
    rw [hdb] at hjobs
    have hcards := approachCards_cards hjobs
    obtain ⟨hbefore, hcase⟩ := @gateBefore_sendsCards env inp db .procurementApproach
      (approachVerdict env st method) "review_wait_cp1"
      ("rw1-" ++ take (env.contentHash (approachVerdict env st method).toDict) 10)
    rw [hcase] at hcards
    refine ⟨method, hm, ?_⟩
    split at hcards
    · next hsends =>
      rw [if_pos hsends]
      have hpassed : (approachVerdict env st method).passed = true := by
        simp only [Bool.and_eq_true] at hsends
        exact hsends.1
      rw [approachVerdict_passed hpassed] at hcards hbefore
      exact .after hbefore hcards (by rw [← approachVerdict_passed hpassed, hcase])
    · next hsilent =>
      rw [if_neg hsilent]
      exact hbefore.after hcards (by rw [hcase])

theorem packageCards_cards {result : GateResult}
    (h : db'.jobs = (packageCards env directory result db).jobs) :
    if result.passed then
      SendsCard .cpApprovalRequested
        (directory.approver env.rules db.case.estimatedValueMinor "CP2")
        (cardKey db.case.id "CP2" (take (env.contentHash result.toDict) 12)) db db'
    else SendsCards [] db db' := by
  have hprogress : SendsCards [] db (db.notifyProgress "cp2_gate"
      (take (env.contentHash result.toDict) 12)) := sendsCards_notifyProgress rfl rfl
  simp only [packageCards] at h
  split at h
  · next hpassed =>
    rw [if_pos hpassed]
    exact ⟨_, hprogress, h⟩
  · next hpassed =>
    rw [if_neg hpassed]
    exact hprogress.after (.of_jobs h) rfl

theorem packageGateNode_ok_cards
    (h : packageGateNode env directory inp st db = (db', .ok st')) :
    ∃ method, env.rules.selectMethod st.estimatedValueMinor = .ok method ∧
      if (packageVerdict env inp st method).passed then
        SendsCard .cpApprovalRequested
          (directory.approver env.rules db.case.estimatedValueMinor "CP2")
          (cardKey db.case.id "CP2" (gateDedupe env)) db db'
      else SendsCards [] db db' := by
  unfold packageGateNode at h
  split at h
  · cases (Prod.mk.inj h).2
  · next method hm =>
    have htxn := runTransaction_ok h
    simp only [bind_ok] at htxn
    obtain ⟨rows, hsave, hret⟩ := htxn
    obtain ⟨hdb, _⟩ := Prod.mk.inj (Except.ok.inj hret)
    obtain ⟨_, hrows⟩ := saveCase_ok.mp hsave
    have hjobs := congrArg CaseDb.jobs hrows
    rw [hdb] at hjobs
    have hcards := packageCards_cards hjobs
    obtain ⟨hbefore, hcase⟩ := @gateBefore_sendsCards env inp db .solicitationPackage
      (packageVerdict env inp st method) "review_wait_cp2"
      ("rw2-" ++ take (env.contentHash (packageVerdict env inp st method).toDict) 10)
    rw [hcase] at hcards
    refine ⟨method, hm, ?_⟩
    split at hcards
    · next hpassed =>
      rw [if_pos hpassed]
      rw [packageVerdict_passed hpassed] at hcards hbefore
      exact .after hbefore hcards (by rw [← packageVerdict_passed hpassed, hcase])
    · next hsilent =>
      rw [if_neg hsilent] at hbefore hcase
      rw [if_neg hsilent]
      exact hbefore.after hcards (by rw [hcase])

theorem runNode_error_cards (h : runNode env directory rc inp n st db = (db', .error e)) :
    SendsCards [] db db' := by
  have hwrites := runNode_writes h
  rw [show (n.asks && (Except.error e : Except Error PreparationState).isOk) = false from
    Bool.and_false _] at hwrites
  exact hwrites.sendsCards.1

theorem runNode_ok_cards (h : runNode env directory rc inp n st db = (db', .ok st'))
    (hcp1 : n ≠ .approachGate) (hcp2 : n ≠ .packageGate) : SendsCards [] db db' := by
  have hasks : n.asks = false := by
    cases n <;> first | rfl | contradiction
  have hwrites := runNode_writes h
  rw [hasks] at hwrites
  exact hwrites.sendsCards.1

end DigitalWorker
