import DigitalWorker.Preparation.NodeMoves

/-! # What the nodes write

    One walk over the nodes that says which writers each of them calls. What a
    node leaves alone is read off the walk, by induction on the writes.
-/

namespace DigitalWorker

open CaseDb

def NodeName.writes : NodeName → List ArtifactType
  | .extractRequirements => [.demandSnapshot]
  | .completenessCheck => [.completenessReport, .clarificationList]
  | .draftProcurementApproach | .approachGate => [.procurementApproach]
  | .draftSolicitationPackage | .packageGate => [.solicitationPackage]
  | .draftEvaluationCriteria => [.evaluationCriteria]
  | .buildSupplierShortlist => [.supplierShortlist]
  | .runRiskCheck => [.riskComplianceCheck]
  | .finalizeOfficial => [.officialPackageManifest]
  | .loadCase | .cp1Review | .applyCp1 | .cp2Review | .applyCp2 | .closeFailed
  | .closeIncomplete => []

def NodeName.rejects : NodeName → Bool
  | .applyCp1 | .applyCp2 => true
  | _ => false

def NodeName.asks : NodeName → Bool
  | .approachGate | .packageGate => true
  | _ => false

/-- The rows after the writes of a node: progress cards, artifacts of the types `ts` and
    the case row; rejections and decision cards only where the node has them. -/
inductive NodeWrites (env : Env) (directory : Directory) (ts : List ArtifactType)
    (rejects asks : Bool) (db : CaseDb) : CaseDb → Prop
  | refl : NodeWrites env directory ts rejects asks db db
  | progress {mid : CaseDb} {stage dedupe : String} {recipient : Option Uuid} :
    NodeWrites env directory ts rejects asks db mid →
    NodeWrites env directory ts rejects asks db (mid.notifyProgress stage dedupe recipient)
  | artifact {mid : CaseDb} {id : Uuid} {t : ArtifactType} {content : Dict}
    {status : ArtifactStatus} : t ∈ ts → NodeWrites env directory ts rejects asks db mid →
    NodeWrites env directory ts rejects asks db (mid.addNodeArtifact env id t content status)
  | saveCase {mid db' : CaseDb} {c : PreparationCase} : mid.saveCase c = .ok db' →
    c.id = mid.case.id → NodeWrites env directory ts rejects asks db mid →
    NodeWrites env directory ts rejects asks db db'
  | reject {mid : CaseDb} {events : List ReworkEvent} : rejects = true →
    NodeWrites env directory ts rejects asks db mid →
    NodeWrites env directory ts rejects asks db { mid with reworkEvents := events }
  | ask {mid : CaseDb} {checkpoint dedupe : String} : asks = true →
    NodeWrites env directory ts rejects asks db mid →
    NodeWrites env directory ts rejects asks db
      (mid.notifyCpApproval env directory checkpoint dedupe)

variable {env : Env} {directory : Directory} {rc : RunContext} {inp : NodeInput} {n : NodeName}
  {st : PreparationState} {db mid db' : CaseDb} {ts : List ArtifactType} {rejects asks : Bool}
  {r : Except Error PreparationState}

theorem NodeWrites.trans (h : NodeWrites env directory ts rejects asks db mid)
    (h' : NodeWrites env directory ts rejects asks mid db') :
    NodeWrites env directory ts rejects asks db db' := by
  induction h' with
  | refl => exact h
  | progress _ ih => exact .progress ih
  | artifact ht _ ih => exact .artifact ht ih
  | saveCase hsave hid _ ih => exact .saveCase hsave hid ih
  | reject hr _ ih => exact .reject hr ih
  | ask ha _ ih => exact .ask ha ih

theorem NodeWrites.plain (h : NodeWrites env directory ts false false db db') :
    NodeWrites env directory ts rejects asks db db' := by
  induction h with
  | refl => exact .refl
  | progress _ ih => exact .progress ih
  | artifact ht _ ih => exact .artifact ht ih
  | saveCase hsave hid _ ih => exact .saveCase hsave hid ih
  | reject hr => cases hr
  | ask ha => cases ha

theorem runTransaction_writes {working : CaseDb → CaseDb}
    {txn : CaseDb → Except Error (CaseDb × PreparationState)}
    (hworking : NodeWrites env directory ts false false db (working db))
    (htxn : ∀ db' st', txn (working db) = .ok (db', st') →
      NodeWrites env directory ts rejects asks (working db) db')
    (h : runTransaction inp working txn db = (db', r)) :
    NodeWrites env directory ts rejects (asks && r.isOk) db db' := by
  rcases runTransaction_cases h with ⟨e, rfl, hdb⟩ | ⟨st', rfl, hok⟩
  · rcases hdb with rfl | rfl
    · exact .refl
    · exact hworking.plain
  · have hasks : (asks && (Except.ok st' : Except Error PreparationState).isOk) = asks :=
      Bool.and_true asks
    rw [hasks]
    exact hworking.plain.trans (htxn db' st' hok)

theorem raiseNode_writes {e : Error} (h : raiseNode db e = (db', r)) :
    NodeWrites env directory ts rejects asks db db' := by
  obtain ⟨rfl, _⟩ := Prod.mk.inj h
  exact .refl

theorem recordRejection_writes {c : ReworkCheckpoint} {d : Decision} (hr : rejects = true)
    (h : recordRejection env rc inp c d db = .ok db') :
    NodeWrites env directory ts rejects asks db db' := by
  obtain ⟨events, rfl⟩ := recordRejection_ok h
  exact .reject hr .refl

theorem persistVerdict_writes {t : ArtifactType} {result : GateResult} (ht : t ∈ ts) :
    NodeWrites env directory ts rejects asks db (persistVerdict env inp t result db) := by
  unfold persistVerdict
  split
  · exact .artifact ht .refl
  · exact .refl

theorem approachCards_writes {method : Method} {result : GateResult} (ha : asks = true) :
    NodeWrites env directory ts rejects asks db
      (approachCards env directory inp method result db) := by
  simp only [approachCards]
  split
  · exact .progress .refl
  · split
    · split
      · exact .progress (.progress .refl)
      · exact .progress .refl
    · exact .ask ha (.progress .refl)

theorem packageCards_writes {result : GateResult} (ha : asks = true) :
    NodeWrites env directory ts rejects asks db (packageCards env directory result db) := by
  simp only [packageCards]
  split
  · exact .ask ha (.progress .refl)
  · exact .progress .refl

theorem reviewWait_writes {result : GateResult} {stage dedupe : String} :
    NodeWrites env directory ts rejects asks db
      (if result.passed then db.notifyProgress stage dedupe else db) := by
  split
  · exact .progress .refl
  · exact .refl

/-- **Node lemma**: the writes of a node, raised or not. -/
theorem runNode_writes (h : runNode env directory rc inp n st db = (db', r)) :
    NodeWrites env directory n.writes n.rejects (n.asks && r.isOk) db db' := by
  cases n with
  | loadCase =>
    simp only [runNode, loadCase] at h
    refine runTransaction_writes .refl ?_ h
    intro db' st' hok
    obtain ⟨rfl, _⟩ := Prod.mk.inj (Except.ok.inj hok)
    exact .refl
  | extractRequirements =>
    simp only [runNode, extractRequirements] at h
    split at h
    · refine runTransaction_writes .refl ?_ h
      intro db' st' hok
      obtain ⟨rfl, _⟩ := Prod.mk.inj (Except.ok.inj hok)
      exact .refl
    · refine runTransaction_writes (.progress .refl) ?_ h
      intro db' st' hok
      obtain ⟨rfl, _⟩ := Prod.mk.inj (Except.ok.inj hok)
      exact .artifact (by decide) .refl
  | completenessCheck =>
    simp only [runNode, completenessCheck] at h
    refine runTransaction_writes .refl ?_ h
    intro db' st' hok
    simp only [bind_ok] at hok
    obtain ⟨rows, hsave, hret⟩ := hok
    obtain ⟨rfl, _⟩ := Prod.mk.inj (Except.ok.inj hret)
    exact .saveCase hsave rfl (.artifact (by decide) (.artifact (by decide) .refl))
  | draftProcurementApproach =>
    simp only [runNode, draftProcurementApproach] at h
    refine runTransaction_writes (.progress .refl) ?_ h
    intro db' st' hok
    simp only [bind_ok] at hok
    obtain ⟨method, _, rows, hsave, hret⟩ := hok
    obtain ⟨rfl, _⟩ := Prod.mk.inj (Except.ok.inj hret)
    refine .saveCase hsave ?_ (.progress (.artifact (by decide) .refl))
    rw [notifyProgress_case]
    rfl
  | approachGate =>
    simp only [runNode, approachGateNode] at h
    split at h
    · exact raiseNode_writes h
    · refine runTransaction_writes ?_ ?_ h
      · exact reviewWait_writes
      intro db' st' hok
      simp only [bind_ok] at hok
      obtain ⟨rows, hsave, hret⟩ := hok
      obtain ⟨rfl, _⟩ := Prod.mk.inj (Except.ok.inj hret)
      refine .saveCase hsave ?_ ((persistVerdict_writes (by decide)).trans
        (approachCards_writes rfl))
      rw [approachCards_case]
      rfl
  | applyCp1 =>
    simp only [runNode, applyCp1] at h
    refine runTransaction_writes .refl ?_ h
    intro db' st' hok
    simp only [id_eq, bind_ok] at hok
    obtain ⟨db₁, hrej, rows, hsave, hret⟩ := hok
    obtain ⟨rfl, _⟩ := Prod.mk.inj (Except.ok.inj hret)
    refine .saveCase hsave ?_ (.progress (recordRejection_writes rfl hrej))
    rw [notifyProgress_case]
    rfl
  | draftSolicitationPackage =>
    simp only [runNode, draftSolicitationPackage] at h
    split at h
    · exact raiseNode_writes h
    · refine runTransaction_writes (.progress .refl) ?_ h
      intro db' st' hok
      simp only [bind_ok] at hok
      obtain ⟨rows, hsave, hret⟩ := hok
      obtain ⟨rfl, _⟩ := Prod.mk.inj (Except.ok.inj hret)
      exact .saveCase hsave rfl (.artifact (by decide) .refl)
  | draftEvaluationCriteria =>
    simp only [runNode, draftEvaluationCriteria] at h
    split at h
    · exact raiseNode_writes h
    · refine runTransaction_writes .refl ?_ h
      intro db' st' hok
      obtain ⟨rfl, _⟩ := Prod.mk.inj (Except.ok.inj hok)
      exact .artifact (by decide) .refl
  | buildSupplierShortlist | runRiskCheck =>
    simp only [runNode, buildSupplierShortlist, runRiskCheck] at h
    refine runTransaction_writes .refl ?_ h
    intro db' st' hok
    obtain ⟨rfl, _⟩ := Prod.mk.inj (Except.ok.inj hok)
    exact .artifact (by decide) .refl
  | packageGate =>
    simp only [runNode, packageGateNode] at h
    split at h
    · exact raiseNode_writes h
    · refine runTransaction_writes ?_ ?_ h
      · exact reviewWait_writes
      intro db' st' hok
      simp only [bind_ok] at hok
      obtain ⟨rows, hsave, hret⟩ := hok
      obtain ⟨rfl, _⟩ := Prod.mk.inj (Except.ok.inj hret)
      refine .saveCase hsave ?_ ((persistVerdict_writes (by decide)).trans
        (packageCards_writes rfl))
      rw [packageCards_case]
      rfl
  | applyCp2 =>
    simp only [runNode, applyCp2] at h
    refine runTransaction_writes .refl ?_ h
    intro db' st' hok
    simp only [id_eq, bind_ok] at hok
    obtain ⟨db₁, hrej, rows, hsave, hret⟩ := hok
    obtain ⟨rfl, _⟩ := Prod.mk.inj (Except.ok.inj hret)
    refine .saveCase hsave ?_ (.progress (recordRejection_writes rfl hrej))
    rw [notifyProgress_case]
    rfl
  | finalizeOfficial =>
    simp only [runNode, finalizeOfficial] at h
    split at h
    · exact raiseNode_writes h
    · refine runTransaction_writes .refl ?_ h
      intro db' st' hok
      simp only [id_eq, bind_ok] at hok
      obtain ⟨case, hlock, rows, hsave, hret⟩ := hok
      obtain ⟨rfl, _⟩ := Prod.mk.inj (Except.ok.inj hret)
      obtain ⟨_, rfl⟩ := PreparationCase.lockOfficial_ok.mp hlock
      refine .saveCase hsave ?_ (.progress (.artifact (by decide) .refl))
      rw [notifyProgress_case]
  | cp1Review | cp2Review | closeFailed | closeIncomplete =>
    obtain ⟨rfl, _⟩ := Prod.mk.inj h
    exact .refl

end DigitalWorker
