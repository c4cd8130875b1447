import DigitalWorker.Preparation.NodeMoves

/-! # When a node raises

    Besides the faults that come from outside, a node raises on what it is
    given: a rule pack without methods, a requirement without a text, a manifest
    that storage put nowhere, and a rejection whose reason code the rework rules
    do not know. `NodeSucceeds` lists all of it, node by node.
-/

namespace DigitalWorker

/-! ## The conditions -/

def TextsPresent (requirements : List Dict) : Prop :=
  ∀ r ∈ requirements, (r.get? "text").isSome = true

def RejectionRecordable (env : Env) (d : Decision) : Prop :=
  d.approved = true ∨ ∀ rules, env.reworkRules = some rules → rules.isEnabled = true →
    strip d.reasonCode = "" ∨ rules.isKnown (strip d.reasonCode) = true

def NodeSucceeds (env : Env) (inp : NodeInput) (n : NodeName) (st : PreparationState) : Prop :=
  match n with
  | .loadCase | .extractRequirements | .completenessCheck | .buildSupplierShortlist
  | .runRiskCheck => inp.fault = none
  | .draftProcurementApproach | .approachGate | .packageGate =>
    inp.fault = none ∧ env.rules.methods ≠ []
  | .applyCp1 => inp.fault = none ∧ RejectionRecordable env (decisionOf st.cp1Decision)
  | .applyCp2 => inp.fault = none ∧ RejectionRecordable env (decisionOf st.cp2Decision)
  | .draftSolicitationPackage | .draftEvaluationCriteria =>
    inp.fault = none ∧ TextsPresent st.requirements
  | .finalizeOfficial =>
    inp.fault = none ∧ TextsPresent st.requirements ∧ blank inp.manifestRef = false
  | .cp1Review | .cp2Review | .closeFailed | .closeIncomplete => True

/-! ## The parts that raise -/

theorem bind_succeeds {α β : Type} {x : Except Error α} {f : α → Except Error β} :
    (∃ r, (x >>= f) = .ok r) ↔ ∃ a, x = .ok a ∧ ∃ r, f a = .ok r := by
  simp only [bind_ok]
  constructor
  · intro h
    obtain ⟨r, a, ha, hr⟩ := h
    exact ⟨a, ha, r, hr⟩
  · intro h
    obtain ⟨a, ha, r, hr⟩ := h
    exact ⟨r, a, ha, hr⟩

theorem bind_pure_succeeds {α β : Type} {x : Except Error α} {f : α → β} :
    (∃ r, (x >>= fun a => pure (f a)) = .ok r) ↔ ∃ a, x = .ok a := by
  rw [bind_succeeds]
  simp [pure, Except.pure]

theorem selectMethod_succeeds {rules : ProcurementRules} {valueMinor : Int} :
    (∃ m, rules.selectMethod valueMinor = .ok m) ↔ rules.methods ≠ [] := by
  unfold ProcurementRules.selectMethod
  split
  · next m hm =>
    have hmem := List.mem_of_find?_eq_some hm
    constructor
    · intro _
      exact List.ne_nil_of_mem hmem
    · intro _
      exact ⟨m, rfl⟩
  · next hnone =>
    cases hlast : rules.methods.getLast? with
    | none =>
      rw [List.getLast?_eq_none_iff] at hlast
      simp [hlast]
    | some m =>
      have hne : rules.methods ≠ [] := by
        intro hnil
        rw [hnil] at hlast
        cases hlast
      exact ⟨fun _ => hne, fun _ => ⟨m, rfl⟩⟩

theorem requirementTexts_succeeds {requirements : List Dict} :
    (∃ texts, requirementTexts requirements = .ok texts) ↔ TextsPresent requirements := by
  unfold requirementTexts TextsPresent
  induction requirements with
  | nil =>
    constructor
    · intro _ r hr
      cases hr
    · intro _
      exact ⟨[], rfl⟩
  | cons r rest ih =>
    rw [List.mapM_cons, List.forall_mem_cons, ← ih]
    cases r.get? "text" with
    | none => simp [bind_ok]
    | some text => simp [bind_ok, pure, Except.pure]

private theorem rejectionText_not_blank (comment : String) :
    blank (if strip comment = "" then "Không có nhận xét kèm theo." else strip comment) =
      false := by
  split
  · decide
  · next h =>
    rw [blank_strip]
    simpa [blank] using h

theorem normaliseReasonCode_succeeds {code : String} {rules : ReworkSupportRules} :
    (∃ c, normaliseReasonCode code rules = .ok c) ↔
      strip code = "" ∨ rules.isKnown (strip code) = true := by
  simp only [normaliseReasonCode]
  by_cases hempty : strip code = ""
  · simp [hempty]
  · rw [if_neg hempty]
    by_cases hknown : rules.isKnown (strip code) = true
    · simp [hknown]
    · simp [hempty, hknown]

theorem recordReturn_succeeds {env : Env} {db : CaseDb} {id decidedBy : Uuid}
    {checkpoint : ReworkCheckpoint} {reasonCode reasonText : String} {now : DateTime}
    (hreason : blank reasonText = false) :
    (∃ db', db.recordReturn env id decidedBy checkpoint reasonCode reasonText now = .ok db') ↔
      ∀ rules, env.reworkRules = some rules → rules.isEnabled = true →
        strip reasonCode = "" ∨ rules.isKnown (strip reasonCode) = true := by
  unfold CaseDb.recordReturn
  cases env.reworkRules with
  | none => simp
  | some rules =>
    simp only [bind_pure_succeeds, Option.some.injEq, forall_eq', ← normaliseReasonCode_succeeds]
    unfold recordReworkEvent
    by_cases henabled : rules.isEnabled = true
    · simp only [henabled, if_true, hreason, raiseIf, forall_const]
      exact bind_pure_succeeds
    · simp [henabled]

theorem recordRejection_succeeds {env : Env} {rc : RunContext} {inp : NodeInput} {db : CaseDb}
    {c : ReworkCheckpoint} {d : Decision} :
    (∃ db', recordRejection env rc inp c d db = .ok db') ↔ RejectionRecordable env d := by
  unfold recordRejection RejectionRecordable
  by_cases happroved : d.approved = true
  · simp [happroved]
  · rw [if_neg happroved]
    simp only [happroved, Bool.false_eq_true, false_or]
    exact recordReturn_succeeds (rejectionText_not_blank d.comment)

theorem runTransaction_succeeds {inp : NodeInput} {working : CaseDb → CaseDb}
    {txn : CaseDb → Except Error (CaseDb × PreparationState)} {db : CaseDb} :
    (∃ db' st', runTransaction inp working txn db = (db', .ok st')) ↔
      inp.fault = none ∧ ∃ r, txn (working db) = .ok r := by
  unfold runTransaction
  split
  · next h => simp [h]
  · next h => simp [h]
  · next h =>
    rw [h]
    cases txn (working db) with
    | error e => simp
    | ok r => simp

theorem saveCase_advance {db : CaseDb} {c : PreparationCase} {s : CaseState} {step : String}
    {key : Option String} (h : db.case = c) :
    ∃ db', db.saveCase (c.advance s step key) = .ok db' :=
  ⟨_, CaseDb.saveCase_ok.mpr ⟨by rw [h]; rfl, rfl⟩⟩

/-! ## All nodes -/

variable {env : Env} {directory : Directory} {rc : RunContext} {inp : NodeInput} {n : NodeName}
  {st : PreparationState} {db : CaseDb}

theorem save_return_succeeds {rows : CaseDb} {c : PreparationCase} {s : CaseState} {step : String}
    {key : Option String} {f : CaseDb → CaseDb × PreparationState} (h : rows.case = c) :
    ∃ r, (rows.saveCase (c.advance s step key) >>= fun db => pure (f db)) = .ok r :=
  bind_pure_succeeds.mpr (saveCase_advance h)

theorem draftProcurementApproach_succeeds :
    (∃ db' st', draftProcurementApproach env inp st db = (db', .ok st')) ↔
      inp.fault = none ∧ env.rules.methods ≠ [] := by
  simp only [draftProcurementApproach, runTransaction_succeeds]
  rw [bind_succeeds, ← @selectMethod_succeeds env.rules st.estimatedValueMinor]
  constructor
  · intro h
    obtain ⟨hfault, method, hm, _⟩ := h
    exact ⟨hfault, method, hm⟩
  · intro h
    obtain ⟨hfault, method, hm⟩ := h
    exact ⟨hfault, method, hm, save_return_succeeds (by simp)⟩

theorem method_succeeds {valueMinor : Int} {f : Method → NodeResult} {P : Prop}
    (h : ∀ m, env.rules.selectMethod valueMinor = .ok m →
      ((∃ db' st', f m = (db', .ok st')) ↔ P)) :
    (∃ db' st', (match env.rules.selectMethod valueMinor with
      | .error e => raiseNode db e
      | .ok m => f m) = (db', .ok st')) ↔ P ∧ env.rules.methods ≠ [] := by
  rw [← @selectMethod_succeeds env.rules valueMinor]
  cases hm : env.rules.selectMethod valueMinor with
  | error e => simp [raiseNode]
  | ok m =>
    rw [h m hm]
    simp

theorem approachGateNode_succeeds :
    (∃ db' st', approachGateNode env directory inp st db = (db', .ok st')) ↔
      inp.fault = none ∧ env.rules.methods ≠ [] := by
  apply method_succeeds
  intro method _
  rw [runTransaction_succeeds, and_iff_left]
  exact save_return_succeeds (by simp)

theorem packageGateNode_succeeds :
    (∃ db' st', packageGateNode env directory inp st db = (db', .ok st')) ↔
      inp.fault = none ∧ env.rules.methods ≠ [] := by
  apply method_succeeds
  intro method _
  rw [runTransaction_succeeds, and_iff_left]
  exact save_return_succeeds (by simp)

theorem texts_succeeds {f : List Json → NodeResult} {P : Prop}
    (h : ∀ texts, (∃ db' st', f texts = (db', .ok st')) ↔ P) :
    (∃ db' st', (match requirementTexts st.requirements with
      | .error e => raiseNode db e
      | .ok texts => f texts) = (db', .ok st')) ↔ P ∧ TextsPresent st.requirements := by
  rw [← requirementTexts_succeeds]
  cases requirementTexts st.requirements with
  | error e => simp [raiseNode]
  | ok texts =>
    rw [h texts]
    simp

theorem applyCp1_succeeds : (∃ db' st', applyCp1 env rc inp st db = (db', .ok st')) ↔
    inp.fault = none ∧ RejectionRecordable env (decisionOf st.cp1Decision) := by
  simp only [applyCp1, runTransaction_succeeds, id_eq]
  rw [bind_succeeds, ← @recordRejection_succeeds env rc inp db .cp1]
  apply and_congr_right
  intro _
  apply exists_congr
  intro rows
  rw [and_iff_left]
  exact save_return_succeeds (by simp)

theorem applyCp2_succeeds : (∃ db' st', applyCp2 env rc inp st db = (db', .ok st')) ↔
    inp.fault = none ∧ RejectionRecordable env (decisionOf st.cp2Decision) := by
  simp only [applyCp2, runTransaction_succeeds, id_eq]
  rw [bind_succeeds, ← @recordRejection_succeeds env rc inp db .cp2]
  apply and_congr_right
  intro _
  apply exists_congr
  intro rows
  rw [and_iff_left]
  exact save_return_succeeds (by simp)

theorem draftSolicitationPackage_succeeds :
    (∃ db' st', draftSolicitationPackage env inp st db = (db', .ok st')) ↔
      inp.fault = none ∧ TextsPresent st.requirements := by
  apply texts_succeeds
  intro texts
  rw [runTransaction_succeeds, and_iff_left]
  exact save_return_succeeds rfl

theorem draftEvaluationCriteria_succeeds :
    (∃ db' st', draftEvaluationCriteria env inp st db = (db', .ok st')) ↔
      inp.fault = none ∧ TextsPresent st.requirements := by
  apply texts_succeeds
  intro texts
  rw [runTransaction_succeeds, and_iff_left]
  exact ⟨_, rfl⟩

theorem finalizeOfficial_succeeds :
    (∃ db' st', finalizeOfficial env rc inp st db = (db', .ok st')) ↔
      (inp.fault = none ∧ blank inp.manifestRef = false) ∧ TextsPresent st.requirements := by
  apply texts_succeeds
  intro texts
  rw [runTransaction_succeeds, bind_succeeds]
  apply and_congr_right
  intro _
  constructor
  · intro h
    obtain ⟨case, hlock, _⟩ := h
    exact (PreparationCase.lockOfficial_ok.mp hlock).1
  · intro hblank
    refine ⟨_, PreparationCase.lockOfficial_ok.mpr ⟨hblank, rfl⟩, bind_pure_succeeds.mpr ?_⟩
    exact ⟨_, CaseDb.saveCase_ok.mpr ⟨rfl, rfl⟩⟩

/-- **When a node raises**: exactly when one of its conditions fails. -/
theorem runNode_succeeds_iff :
    (∃ db' st', runNode env directory rc inp n st db = (db', .ok st')) ↔
      NodeSucceeds env inp n st := by
  cases n with
  | loadCase =>
    simp only [runNode, loadCase, NodeSucceeds, runTransaction_succeeds]
    exact and_iff_left ⟨_, rfl⟩
  | extractRequirements =>
    simp only [runNode, extractRequirements, NodeSucceeds]
    split
    · rw [runTransaction_succeeds]
      exact and_iff_left ⟨_, rfl⟩
    · rw [runTransaction_succeeds]
      exact and_iff_left ⟨_, rfl⟩
  | completenessCheck =>
    simp only [runNode, completenessCheck, NodeSucceeds, runTransaction_succeeds]
    exact and_iff_left (save_return_succeeds rfl)
  | draftProcurementApproach => exact draftProcurementApproach_succeeds
  | approachGate => exact approachGateNode_succeeds
  | applyCp1 => exact applyCp1_succeeds
  | draftSolicitationPackage => exact draftSolicitationPackage_succeeds
  | draftEvaluationCriteria => exact draftEvaluationCriteria_succeeds
  | buildSupplierShortlist =>
    simp only [runNode, buildSupplierShortlist, NodeSucceeds, runTransaction_succeeds]
    exact and_iff_left ⟨_, rfl⟩
  | runRiskCheck =>
    simp only [runNode, runRiskCheck, NodeSucceeds, runTransaction_succeeds]
    exact and_iff_left ⟨_, rfl⟩
  | packageGate => exact packageGateNode_succeeds
  | applyCp2 => exact applyCp2_succeeds
  | finalizeOfficial =>
    simp only [runNode, NodeSucceeds, finalizeOfficial_succeeds]
    tauto
  | cp1Review | cp2Review | closeFailed | closeIncomplete =>
    exact ⟨fun _ => trivial, fun _ => ⟨db, st, rfl⟩⟩

end DigitalWorker
