import DigitalWorker.Preparation.Writers
import DigitalWorker.Protocol.Steps

/-! # What each action files

    Which types of artifact and which kinds of document an action may add, in
    one lemma for the handlers and one for the steps of the world. Nothing that
    is on file is taken away, and what an action is not listed for stays as the
    last one who wrote it left it.
-/

namespace DigitalWorker

open Framework

/-- A transaction adds documents of the kinds `ks` and artifacts of the types
    `ts`, each through one of the writers. -/
structure Filed (env : Env) (ks : List DocumentKind) (ts : List ArtifactType) (db db' : CaseDb) :
    Prop where
  documents : ∃ new, db'.documents = db.documents ++ new ∧ ∀ d ∈ new, d.kind ∈ ks
  artifacts : Appends env ts db.artifacts db'.artifacts

namespace Filed

variable {env : Env} {ks : List DocumentKind} {ts : List ArtifactType} {db mid db' : CaseDb}

theorem refl : Filed env ks ts db db :=
  ⟨⟨[], by simp, fun _ h => absurd h List.not_mem_nil⟩, .refl⟩

theorem document {d : PreparationDocument} (hd : d.kind ∈ ks) :
    Filed env ks ts db (db.addDocument d) := by
  refine ⟨⟨[d], rfl, ?_⟩, .refl⟩
  intro d' hd'
  rw [List.mem_singleton.mp hd']
  exact hd

theorem wrote (h : Filed env ks ts db mid) (h' : Wrote env ts mid db') :
    Filed env ks ts db db' := by
  obtain ⟨new, hnew, hkinds⟩ := h.documents
  exact ⟨⟨new, h'.documents.trans hnew, hkinds⟩, h.artifacts.trans h'.artifacts⟩

theorem of_wrote (h : Wrote env ts db db') : Filed env ks ts db db' := refl.wrote h

theorem documents_of_kind (h : Filed env ks ts db db') {k : DocumentKind} (hk : k ∉ ks) :
    db'.documents.filter (fun d => d.kind == k) = db.documents.filter (fun d => d.kind == k) := by
  obtain ⟨new, hnew, hkinds⟩ := h.documents
  rw [hnew, List.filter_append]
  have hnone : new.filter (fun d => d.kind == k) = [] := by
    rw [List.filter_eq_nil_iff]
    intro d hd
    rw [beq_iff_eq]
    rintro rfl
    exact hk (hkinds d hd)
  rw [hnone, List.append_nil]

theorem latestContent_eq (h : Filed env ks ts db db') {t : ArtifactType} (ht : t ∉ ts) :
    db'.latestContent t = db.latestContent t := by
  rw [CaseDb.latestContent, CaseDb.latestContent, h.artifacts.latest_eq ht]

end Filed

def Handler.writes : Handler → List ArtifactType
  | .verifyIntake _ _ => [.intakeVerification]
  | .answerClarifications _ => [.clarificationResponse]
  | .recordPublication _ | .autoPublish _ => [.publicationRecord]
  | .submitAddendum _ => [.addendumDraft]
  | .decideCp3 _ => [.publicationRecord, .addendumDecision]
  | .recordSubmission _ => [.submissionRegister]
  | .completeCp4 _ => [.bidOpeningRecord, .evaluationHandoff]
  | .rejectIntake _ _ | .proposeAddendum _ | .requestCp4 => []

def Handler.stores : Handler → List DocumentKind
  | .recordPublication _ | .autoPublish _ | .decideCp3 _ => [.publicationReceipt]
  | .submitAddendum _ => [.addendum]
  | .recordSubmission _ => [.supplierSubmission]
  | .completeCp4 _ => [.bidOpeningMinutes]
  | .verifyIntake _ _ | .rejectIntake _ _ | .answerClarifications _ | .proposeAddendum _
  | .requestCp4 => []

section

variable {env : Env} {directory : Directory} {call : Call} {db db' : CaseDb}
  {ks : List DocumentKind} {ts : List ArtifactType}

theorem storeSourceDocument_kind {caseId documentId actor : Uuid} {kind : DocumentKind}
    {title : String} {file : Upload} {d : PreparationDocument}
    (h : storeSourceDocument env caseId documentId actor kind title file = .ok d) :
    d.kind = kind ∧ d.id = documentId := by
  rw [storeSourceDocument, raiseIf_bind_ok] at h
  obtain rfl := Except.ok.inj h.2
  exact ⟨rfl, rfl⟩

theorem Filed.of_stored {caseId documentId actor : Uuid} {kind : DocumentKind} {title : String}
    {file : Upload} {d : PreparationDocument}
    (h : storeSourceDocument env caseId documentId actor kind title file = .ok d)
    (hk : kind ∈ ks) (hw : Wrote env ts (db.addDocument d) db') : Filed env ks ts db db' :=
  (Filed.document ((storeSourceDocument_kind h).1 ▸ hk)).wrote hw

theorem verifyIntake_wrote {ref comment : String}
    (h : verifyIntake env call ref comment db = .ok db') :
    Wrote env [.intakeVerification] db db' := by
  simp only [verifyIntake, authorize, ↓raiseIf_bind_ok, bind_ok] at h
  obtain ⟨_, _, _, _, _, case, _, hsave⟩ := h
  refine Wrote.saveCase (Wrote.send ?_) hsave
  refine ⟨rfl, ?_⟩
  exact Appends.refl.write (w := .intakeVerification _ _ _) (List.mem_singleton.mpr rfl)

theorem rejectIntake_wrote {comment reasonCode : String}
    (h : rejectIntake env call comment reasonCode db = .ok db') : Wrote env ts db db' := by
  simp only [rejectIntake, authorize, ↓raiseIf_bind_ok, bind_ok] at h
  obtain ⟨_, _, _, case, _, rows, hrecord, hsave⟩ := h
  obtain ⟨events, rfl⟩ := CaseDb.recordReturn_ok hrecord
  refine Wrote.saveCase (Wrote.send ?_) hsave
  exact Wrote.refl.congr rfl rfl

theorem answerClarifications_wrote {answers : List ClarificationAnswer}
    (h : answerClarifications env call answers db = .ok db') :
    Wrote env [.clarificationResponse] db db' := by
  simp only [answerClarifications, authorize, raiseIf_bind_ok] at h
  obtain ⟨_, _, _, h⟩ := h
  have hrow : Wrote env [.clarificationResponse] db (db.addApplicationArtifact env (call.newId 0)
      call.context.principalId .clarificationResponse (responseContent env call answers)
      .submitted) := by
    refine ⟨rfl, ?_⟩
    rw [CaseDb.addClarificationResponse_artifacts]
    exact Appends.refl.write (List.mem_singleton.mpr rfl)
  split at h
  · rw [bind_ok] at h
    obtain ⟨case, _, hsave⟩ := h
    exact hrow.saveCase hsave
  · obtain rfl := Except.ok.inj h
    exact hrow

theorem recordPublication_filed {cmd : RecordPublicationCommand}
    (h : recordPublication env call cmd db = .ok db') :
    Filed env [.publicationReceipt] [.publicationRecord] db db' := by
  simp only [recordPublication, authorize, ↓raiseIf_bind_ok, bind_ok] at h
  obtain ⟨_, _, _, _, document, hdocument, case, _, hsave⟩ := h
  refine .of_stored hdocument (by decide) ?_
  exact (Wrote.refl.applicationArtifact (by decide)).saveCase hsave

theorem autoPublish_filed {sent : Delivery}
    (h : autoPublish env directory call sent db = .ok db') :
    Filed env [.publicationReceipt] [.publicationRecord] db db' := by
  simp only [autoPublish, authorize, ↓raiseIf_bind_ok, bind_ok] at h
  obtain ⟨_, _, _, document, hdocument, case, _, hsave⟩ := h
  refine .of_stored hdocument (by decide) ?_
  exact (Wrote.refl.applicationArtifact (by decide)).send.send.saveCase hsave

theorem proposeAddendum_wrote {cmd : ProposeAddendumCommand}
    (h : proposeAddendum env directory call cmd db = .ok db') : Wrote env ts db db' := by
  simp only [proposeAddendum, authorize, ↓raiseIf_bind_ok, bind_ok] at h
  obtain ⟨_, _, _, _, hret⟩ := h
  obtain rfl := Except.ok.inj hret
  exact Wrote.refl.send

theorem submitAddendum_filed {cmd : SubmitAddendumCommand}
    (h : submitAddendum env directory call cmd db = .ok db') :
    Filed env [.addendum] [.addendumDraft] db db' := by
  simp only [submitAddendum, authorize, ↓raiseIf_bind_ok, bind_ok] at h
  obtain ⟨_, _, _, document, hdocument, case, _, hsave⟩ := h
  refine .of_stored hdocument (by decide) ?_
  exact (Wrote.refl.applicationArtifact (by decide)).send.saveCase hsave

theorem issueToSuppliers_filed {sent : Option Delivery} {draft : PreparationArtifact}
    {r : CaseDb × Dict} (h : issueToSuppliers env call sent draft db = .ok r) :
    Filed env [.publicationReceipt] [.publicationRecord, .addendumDecision] db r.1 := by
  unfold issueToSuppliers at h
  split at h
  · obtain rfl := Except.ok.inj h
    exact .refl
  · simp only [bind_ok] at h
    obtain ⟨document, hdocument, hret⟩ := h
    obtain rfl := Except.ok.inj hret
    refine .of_stored hdocument (by decide) ?_
    exact Wrote.refl.applicationArtifact (by decide)

theorem decideCp3_filed {cmd : DecideCp3Command} (h : decideCp3 env call cmd db = .ok db') :
    Filed env [.publicationReceipt] [.publicationRecord, .addendumDecision] db db' := by
  simp only [decideCp3, authorize, ↓raiseIf_bind_ok, bind_ok] at h
  obtain ⟨_, _, _, _, _, h⟩ := h
  split at h
  · cases h
  · simp only [bind_ok] at h
    obtain ⟨issued, hissued, case, _, hsave⟩ := h
    refine (issueToSuppliers_filed hissued).wrote ?_
    exact (Wrote.refl.applicationArtifact (by decide)).send.saveCase hsave

theorem recordSubmission_filed {cmd : RecordSubmissionCommand}
    (h : recordSubmission env directory call cmd db = .ok db') :
    Filed env [.supplierSubmission] [.submissionRegister] db db' := by
  simp only [recordSubmission, authorize, ↓raiseIf_bind_ok, bind_ok] at h
  obtain ⟨_, _, _, _, document, hdocument, case, _, hsave⟩ := h
  refine .of_stored hdocument (by decide) ?_
  exact (Wrote.refl.applicationArtifact (by decide)).send.saveCase hsave

theorem requestCp4_wrote (h : requestCp4 env directory call db = .ok db') :
    Wrote env ts db db' := by
  simp only [requestCp4, authorize, ↓raiseIf_bind_ok, bind_ok] at h
  obtain ⟨_, _, _, _, hret⟩ := h
  obtain rfl := Except.ok.inj hret
  exact Wrote.refl.send

theorem completeCp4_filed {cmd : CompleteCp4Command} (h : completeCp4 env call cmd db = .ok db') :
    Filed env [.bidOpeningMinutes] [.bidOpeningRecord, .evaluationHandoff] db db' := by
  simp only [completeCp4, authorize, ↓raiseIf_bind_ok, bind_ok] at h
  obtain ⟨_, _, _, _, _, _, minutes, hminutes, case, _, hsave⟩ := h
  refine .of_stored hminutes (by decide) ?_
  refine Wrote.saveCase (Wrote.send ?_) hsave
  exact (Wrote.refl.applicationArtifact (by decide)).applicationArtifact (by decide)

/-- **Handler lemma**: what a handler that succeeds adds to the files. -/
theorem Handler.run_filed {h : Handler} (hrun : h.run env directory call db = .ok db') :
    Filed env h.stores h.writes db db' := by
  cases h with
  | verifyIntake ref comment => exact .of_wrote (verifyIntake_wrote hrun)
  | rejectIntake comment reasonCode => exact .of_wrote (rejectIntake_wrote hrun)
  | answerClarifications answers => exact .of_wrote (answerClarifications_wrote hrun)
  | recordPublication cmd => exact recordPublication_filed hrun
  | autoPublish sent => exact autoPublish_filed hrun
  | proposeAddendum cmd => exact .of_wrote (proposeAddendum_wrote hrun)
  | submitAddendum cmd => exact submitAddendum_filed hrun
  | decideCp3 cmd => exact decideCp3_filed hrun
  | recordSubmission cmd => exact recordSubmission_filed hrun
  | requestCp4 => exact .of_wrote (requestCp4_wrote hrun)
  | completeCp4 cmd => exact completeCp4_filed hrun

theorem amendCase_wrote {cmd : AmendCaseCommand} (h : amendCase env call cmd db = .ok db') :
    Wrote env [.supplierInput, .demandSnapshot] db db' := by
  simp only [amendCase, authorize, ↓raiseIf_bind_ok, bind_ok] at h
  obtain ⟨_, _, _, _, case, _, hsave⟩ := h
  have hsuppliers : Wrote env [.supplierInput, .demandSnapshot] db
      (amendSuppliers env call cmd db).1 := by
    unfold amendSuppliers
    split
    · exact Wrote.refl.applicationArtifact (by decide)
    · exact .refl
  exact (hsuppliers.applicationArtifact (by decide)).saveCase hsave

theorem startRun_wrote {trigger : RunTrigger} {runId actor : Uuid}
    (h : startRun env call trigger runId db = .ok (db', actor)) : Wrote env ts db db' := by
  simp only [startRun, requireFeature, ↓raiseIf_bind_ok, bind_ok] at h
  obtain ⟨_, _, _, case, _, rows, hsave, hret⟩ := h
  obtain ⟨rfl, _⟩ := Prod.mk.inj (Except.ok.inj hret)
  exact Wrote.refl.send.saveCase hsave

end

def World.files (w : World) : Action → List DocumentKind × List ArtifactType
  | .handle _ h => (h.stores, h.writes)
  | .amend _ _ => ([], [.supplierInput, .demandSnapshot])
  | .node runId _ =>
    match w.runs runId with
    | some record =>
      match record.position with
      | .running n => ([], n.writes)
      | _ => ([], [])
    | none => ([], [])
  | _ => ([], [])

theorem World.step_filed {env : Env} {w w' : World} {a : Action} (hs : w.step env a = some w') :
    Filed env (w.files a).1 (w.files a).2 w.db w'.db := by
  cases a with
  | handle call h =>
    obtain ⟨db, hrun, rfl⟩ := World.step_handle hs
    exact Handler.run_filed hrun
  | amend call cmd =>
    obtain ⟨db, hamend, rfl⟩ := World.step_amend hs
    exact .of_wrote (amendCase_wrote hamend)
  | start call trigger runId =>
    obtain ⟨_, db, actor, hstart, rfl⟩ := World.step_start hs
    exact .of_wrote (startRun_wrote hstart)
  | node runId inp =>
    obtain ⟨record, n, hrecord, hposition, hcases⟩ := World.step_node hs
    simp only [World.files, hrecord, hposition]
    rcases hcases with ⟨db, e, hrun, rfl⟩ | ⟨db, st, writes, hrun, rfl⟩
    · exact .of_wrote (runNode_wrote hrun)
    · exact .of_wrote (runNode_wrote hrun)
  | notifyAmended =>
    obtain rfl := World.step_notifyAmended hs
    refine .of_wrote ?_
    show Wrote env [] w.db (DigitalWorker.notifyAmended w.db)
    exact Wrote.refl.send
  | _ =>
    rw [(World.step_frame hs).db rfl]
    exact .refl

end DigitalWorker
