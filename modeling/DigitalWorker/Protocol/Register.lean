import DigitalWorker.Protocol.Deadlines
import DigitalWorker.Protocol.Frames
import DigitalWorker.Protocol.Transitions

/-! # The register of the bids

    Every bid is stored twice: as a document, and as an item of the register,
    which is copied and extended at each receipt. CP4 and the handoff to
    evaluation report a number of bids. The machine below runs the world of a
    case together with any number of handoff calls; two documents never have one
    identifier, since it is the primary key of their table.
-/

namespace DigitalWorker

open Framework

/-! ## A case and its handoffs -/

structure Tender where
  world : World
  evaluations : List Uuid
  calls : Nat → Option Handoff.CallPhase

inductive TenderAction where
  | prepare (a : Action)
  | handOver (a : Handoff.Action)

namespace Tender

def handoffState (s : Tender) : Handoff.State :=
  { db := s.world.db, evaluations := s.evaluations, calls := s.calls }

def step (env : Env) (s : Tender) : TenderAction → Option Tender
  | .prepare a =>
    match s.world.step env a with
    | some w => if (w.db.documents.map (·.id)).Nodup then some { s with world := w } else none
    | none => none
  | .handOver a =>
    match Handoff.step env s.handoffState a with
    | some h => some
      { world := { s.world with db := h.db }, evaluations := h.evaluations, calls := h.calls }
    | none => none

end Tender

def tender (env : Env) : Machine Tender TenderAction where
  init s := (preparation env).init s.world ∧ s.evaluations = [] ∧ ∀ c, s.calls c = none
  step := Tender.step env

/-! ## What is reported -/

def registerItems (db : CaseDb) : List Dict :=
  match db.latestContent .submissionRegister with
  | some content => dictItems (content.getD "items" (.arr []))
  | none => []

def itemEntry (item : Dict) : Json × Json :=
  (item.getD "submission_id" .null, item.getD "content_hash" .null)

def bidEntry (d : PreparationDocument) : Json × Json := (.str d.id.text, .str d.contentHash)

def Registered (db : CaseDb) : Prop :=
  (registerItems db).map itemEntry = (submissions db).map bidEntry

def statedCount (db : CaseDb) : Option Json :=
  (db.latestContent .evaluationHandoff).map (·.getD "submission_count" .null)

def CountStated (db : CaseDb) : Prop :=
  db.case.state = .completed → statedCount db = some (.num (submissions db).length)

def supplierCountOf : Handoff.HandoffResult ⊕ Handoff.Assembled → Int
  | .inl r => r.supplierCount
  | .inr a => a.supplierCount

/-! ## What keeps the register and the count -/

section

variable {env : Env} {directory : Directory} {call : Call} {db db' : CaseDb}
  {ks : List DocumentKind} {ts : List ArtifactType}

theorem Filed.submissions_eq (h : Filed env ks ts db db') (hk : .supplierSubmission ∉ ks) :
    submissions db' = submissions db :=
  h.documents_of_kind hk

theorem Filed.registered (h : Filed env ks ts db db') (hk : .supplierSubmission ∉ ks)
    (ht : .submissionRegister ∉ ts) (hreg : Registered db) : Registered db' := by
  unfold Registered registerItems at *
  rw [h.latestContent_eq ht, h.submissions_eq hk]
  exact hreg

theorem Filed.countStated (h : Filed env ks ts db db') (hk : .supplierSubmission ∉ ks)
    (ht : .evaluationHandoff ∉ ts)
    (hstate : db'.case.state = .completed → db.case.state = .completed)
    (hcount : CountStated db) : CountStated db' := by
  intro hdone
  have hstated := hcount (hstate hdone)
  unfold statedCount at *
  rw [h.latestContent_eq ht, h.submissions_eq hk]
  exact hstated

/-! ### Receiving a bid -/

def bidItem (env : Env) (call : Call) (cmd : RecordSubmissionCommand)
    (document : PreparationDocument) : Dict :=
  [("submission_id", .str document.id.text),
    ("supplier_name", .str (strip cmd.supplierName)),
    ("filename", .str document.filename),
    ("content_hash", .str document.contentHash),
    ("received_at", .str (strip cmd.receivedAt)),
    ("receipt_status", .str cmd.receiptStatus),
    ("external_reference", .str (strip cmd.externalReference)),
    ("recorded_by", .str call.context.principalId.text),
    ("recorded_at", .str (env.isoformat call.now))]

theorem storeSourceDocument_filename {caseId documentId actor : Uuid} {kind : DocumentKind}
    {title : String} {file : Upload} {d : PreparationDocument}
    (h : storeSourceDocument env caseId documentId actor kind title file = .ok d) :
    d.filename = file.filename := by
  rw [storeSourceDocument, raiseIf_bind_ok] at h
  obtain rfl := Except.ok.inj h.2
  rfl

theorem recordSubmission_rows {cmd : RecordSubmissionCommand}
    (h : recordSubmission env directory call cmd db = .ok db') :
    ∃ document, document.filename = cmd.file.filename ∧
      document.contentHash = env.sha256 cmd.file.content ∧
      submissions db' = submissions db ++ [document] ∧
      registerItems db' = registerItems db ++ [bidItem env call cmd document] := by
  simp only [recordSubmission, authorize, ↓raiseIf_bind_ok, bind_ok] at h
  obtain ⟨_, _, _, _, document, hdocument, case, _, hsave⟩ := h
  obtain ⟨_, hrows⟩ := CaseDb.saveCase_ok.mp hsave
  have hkind : document.kind = .supplierSubmission := (storeSourceDocument_kind hdocument).1
  have hdocuments : db'.documents = db.documents ++ [document] :=
    (congrArg CaseDb.documents hrows).trans CaseDb.send_documents
  refine ⟨document, storeSourceDocument_filename hdocument, storeSourceDocument_ok hdocument, ?_, ?_⟩
  · unfold submissions
    rw [hdocuments, List.filter_append, List.filter_cons_of_pos (by simp [hkind])]
    rfl
  · -- the latest register is the one just written, and it starts from the one before
    have hartifacts : db'.artifacts = _ :=
      (congrArg CaseDb.artifacts hrows).trans CaseDb.send_artifacts
    unfold registerItems
    rw [CaseDb.latestContent_congr hartifacts, CaseDb.latestContent_addApplicationArtifact_self]
    show dictItems (.arr (List.map Json.obj _)) = _
    rw [dictItems_arr_obj]
    rfl

theorem recordSubmission_registered {cmd : RecordSubmissionCommand}
    (h : recordSubmission env directory call cmd db = .ok db') (hreg : Registered db) :
    Registered db' := by
  obtain ⟨document, _, _, hbids, hitems⟩ := recordSubmission_rows h
  have hentry : itemEntry (bidItem env call cmd document) = bidEntry document := rfl
  unfold Registered at *
  rw [hbids, hitems, List.map_append, List.map_append, hreg]
  simp [hentry]

/-! ### Sealing the case -/

theorem completeCp4_states {cmd : CompleteCp4Command} (h : completeCp4 env call cmd db = .ok db') :
    submissions db' = submissions db ∧
      statedCount db' = some (.num (submissions db).length) := by
  refine ⟨(completeCp4_filed h).submissions_eq (by decide), ?_⟩
  simp only [completeCp4, authorize, ↓raiseIf_bind_ok, bind_ok] at h
  obtain ⟨_, _, _, _, _, _, minutes, _, case, _, hsave⟩ := h
  obtain ⟨_, rfl⟩ := CaseDb.saveCase_ok.mp hsave
  unfold statedCount
  show Option.map _ ((CaseDb.send _ _ _ _).latestContent .evaluationHandoff) = _
  rw [CaseDb.send_latestContent, CaseDb.latestContent_addApplicationArtifact_self]
  rfl

/-- **Handler lemma**: a handler that succeeds keeps the register in step. -/
theorem Handler.run_registered {h : Handler} (hrun : h.run env directory call db = .ok db')
    (hreg : Registered db) : Registered db' := by
  cases h with
  | recordSubmission cmd => exact recordSubmission_registered hrun hreg
  | _ =>
    exact (Handler.run_filed hrun).registered (by simp [Handler.stores])
      (by simp [Handler.writes]) hreg

/-- **Handler lemma**: a sealed case keeps stating the number of its bids. -/
theorem Handler.run_countStated {h : Handler} (hrun : h.run env directory call db = .ok db')
    (hcount : CountStated db) : CountStated db' := by
  have hfiled := Handler.run_filed hrun
  cases h with
  | completeCp4 cmd =>
    intro _
    obtain ⟨hbids, hstated⟩ := completeCp4_states hrun
    rw [hstated, hbids]
  | recordSubmission cmd =>
    intro hdone
    have hcase := (recordSubmission_ok hrun).1
    rw [(PreparationCase.recordSubmission_ok.mp hcase).2] at hdone
    cases hdone
  | _ =>
    -- no other handler completes the case
    refine hfiled.countStated (by simp [Handler.stores]) (by simp [Handler.writes]) ?_ hcount
    intro hdone
    rcases Handler.run_transition hrun with hcase | ⟨hmoves, _⟩
    · rw [← hcase]
      exact hdone
    · rw [hdone] at hmoves
      simp [Handler.transitions] at hmoves

end

theorem NodeMove.completed {n : NodeName} {st st' : PreparationState} {c c' : PreparationCase}
    (h : NodeMove n st st' c c') (hdone : c'.state = .completed) : c.state = .completed := by
  rcases h.target with hcase | htarget
  · rw [← hcase]
    exact hdone
  · rw [hdone] at htarget
    cases n <;> simp [NodeName.targets] at htarget

/-! ## The invariant of a tender -/

structure TenderInv (s : Tender) : Prop where
  registered : Registered s.world.db
  counted : CountStated s.world.db
  distinct : (s.world.db.documents.map (·.id)).Nodup

section

variable {env : Env}

theorem createCase_documents {directory : Directory} {call : Call}
    {cmd : CreatePreparationCaseCommand} {db : CaseDb}
    (h : createCase env directory call cmd = .ok db) :
    ∃ d, db.documents = [d] ∧ d.kind = .approvedPr := by
  simp only [createCase, authorize, requireFeature, ↓raiseIf_bind_ok, bind_ok] at h
  obtain ⟨_, _, _, _, _, _, _, _, _, _, _, h⟩ := h
  obtain rfl := Except.ok.inj h
  simp only [CaseDb.send_documents]
  exact ⟨_, rfl, rfl⟩

theorem TenderInv.initial {s : Tender} (h : (tender env).init s) : TenderInv s := by
  obtain ⟨⟨call, cmd, hcreate, _⟩, _, _⟩ := h
  have hopened := createCase_ok hcreate
  obtain ⟨d, hd, hkind⟩ := createCase_documents hcreate
  have hbids : submissions s.world.db = [] := by
    unfold submissions
    rw [hd, List.filter_cons_of_neg (by simp [hkind])]
    rfl
  have hitems : registerItems s.world.db = [] := by
    have hnone : s.world.db.latestContent .submissionRegister = none := by
      rw [CaseDb.latestContent, Option.map_eq_none_iff, Option.eq_none_iff_forall_ne_some]
      intro a ha
      obtain ⟨hmem, htype⟩ := latest_mem ha
      rw [hopened.artifacts a hmem] at htype
      cases htype
    unfold registerItems
    rw [hnone]
  refine ⟨?_, ?_, ?_⟩
  · unfold Registered
    rw [hbids, hitems]
    rfl
  · intro hdone
    rw [hopened.state] at hdone
    cases hdone
  · rw [hd]
    exact List.nodup_singleton _

theorem step_registered {w w' : World} {a : Action} (hs : w.step env a = some w')
    (hreg : Registered w.db) (hcount : CountStated w.db) :
    Registered w'.db ∧ CountStated w'.db := by
  have hfiled := World.step_filed hs
  cases a with
  | handle call h =>
    obtain ⟨db, hrun, rfl⟩ := World.step_handle hs
    exact ⟨Handler.run_registered hrun hreg, Handler.run_countStated hrun hcount⟩
  | node runId inp =>
    obtain ⟨record, n, hrecord, hposition, hcases⟩ := World.step_node hs
    simp only [World.files, hrecord, hposition] at hfiled
    have hregister : .submissionRegister ∉ n.writes := by cases n <;> simp [NodeName.writes]
    have hhandoff : .evaluationHandoff ∉ n.writes := by cases n <;> simp [NodeName.writes]
    refine ⟨hfiled.registered (by simp) hregister hreg,
      hfiled.countStated (by simp) hhandoff ?_ hcount⟩
    rcases hcases with ⟨db, e, hrun, rfl⟩ | ⟨db, st, writes, hrun, rfl⟩
    · show db.case.state = .completed → _
      rw [runNode_error hrun]
      exact id
    · exact (runNode_ok hrun).completed
  | amend call cmd =>
    refine ⟨hfiled.registered (by simp [World.files]) (by simp [World.files]) hreg,
      hfiled.countStated (by simp [World.files]) (by simp [World.files]) ?_ hcount⟩
    intro hdone
    obtain ⟨db, hamend, rfl⟩ := World.step_amend hs
    obtain ⟨_, ⟨value, deadline, hcase⟩, _⟩ := amendCase_ok hamend
    rw [hcase] at hdone
    cases hdone
  | start call trigger runId =>
    refine ⟨hfiled.registered (by simp [World.files]) (by simp [World.files]) hreg,
      hfiled.countStated (by simp [World.files]) (by simp [World.files]) ?_ hcount⟩
    intro hdone
    obtain ⟨_, db, actor, hstart, rfl⟩ := World.step_start hs
    rw [(PreparationCase.startRun_ok.mp (startRun_ok hstart).1).2] at hdone
    cases hdone
  | _ =>
    refine ⟨hfiled.registered (by simp [World.files]) (by simp [World.files]) hreg,
      hfiled.countStated (by simp [World.files]) (by simp [World.files]) ?_ hcount⟩
    have hcase := step_case hs
    simp only [reduceCtorEq, false_and, exists_false, or_false] at hcase
    rw [hcase]
    exact id

theorem step_register {w w' : World} {a : Action} (hs : w.step env a = some w')
    (ha : ∀ call cmd, a ≠ .handle call (.recordSubmission cmd)) :
    registerItems w'.db = registerItems w.db := by
  have hfiled := World.step_filed hs
  have hwrites : ArtifactType.submissionRegister ∉ (w.files a).2 := by
    cases a with
    | handle call h =>
      cases h with
      | recordSubmission cmd => exact absurd rfl (ha call cmd)
      | _ => simp [World.files, Handler.writes]
    | node runId inp =>
      obtain ⟨record, n, hrecord, hposition, _⟩ := World.step_node hs
      simp only [World.files, hrecord, hposition]
      cases n <;> simp [NodeName.writes]
    | _ => simp [World.files]
  unfold registerItems
  rw [hfiled.latestContent_eq hwrites]

theorem step_register_grows {w w' : World} {a : Action} (hs : w.step env a = some w') :
    registerItems w.db <+: registerItems w'.db := by
  by_cases ha : ∃ call cmd, a = .handle call (.recordSubmission cmd)
  · obtain ⟨call, cmd, rfl⟩ := ha
    obtain ⟨db, hrun, rfl⟩ := World.step_handle hs
    obtain ⟨document, _, _, _, hitems⟩ := recordSubmission_rows hrun
    exact ⟨_, hitems.symm⟩
  · have hsame := step_register hs (fun call cmd hact => ha ⟨call, cmd, hact⟩)
    exact ⟨[], (List.append_nil _).trans hsame.symm⟩

theorem recordHandoff_rows {db db' : CaseDb} {context : AccessContext} {artifactId id : Uuid}
    {a : Handoff.Assembled} (h : Handoff.recordHandoff env db context artifactId id a = .ok db') :
    Wrote env [.evaluationHandoff] db db' ∧ db'.case = db.case ∧ statedCount db' = statedCount db := by
  unfold Handoff.recordHandoff at h
  split at h
  · cases h
  · next content hcontent =>
    obtain rfl := Except.ok.inj h
    refine ⟨Wrote.refl.applicationArtifact (by decide), rfl, ?_⟩
    unfold statedCount
    rw [CaseDb.latestContent_addApplicationArtifact_self, hcontent]
    simp only [Option.map_some, Dict.getD]
    rw [Dict.get?_set_ne _ _ (by decide), Dict.get?_set_ne _ _ (by decide),
      Dict.get?_set_ne _ _ (by decide)]

theorem handoffStep_rows {s s' : Handoff.State} {a : Handoff.Action}
    (hs : Handoff.step env s a = some s') :
    Wrote env [.evaluationHandoff] s.db s'.db ∧ s'.db.case = s.db.case ∧
      statedCount s'.db = statedCount s.db := by
  cases a with
  | read c context readText =>
    simp only [Handoff.step] at hs
    split at hs
    · cases hs
    · split at hs
      · obtain rfl := Option.some.inj hs
        exact ⟨.refl, rfl, rfl⟩
      · obtain rfl := Option.some.inj hs
        exact ⟨.refl, rfl, rfl⟩
  | create c context id =>
    simp only [Handoff.step] at hs
    split at hs
    · split at hs
      · cases hs
      · obtain rfl := Option.some.inj hs
        exact ⟨.refl, rfl, rfl⟩
    · cases hs
  | record c context artifactId =>
    simp only [Handoff.step] at hs
    split at hs
    · split at hs
      · next db hdb =>
        obtain rfl := Option.some.inj hs
        exact recordHandoff_rows hdb
      · cases hs
    · cases hs
  | fail c =>
    simp only [Handoff.step] at hs
    split at hs
    · obtain rfl := Option.some.inj hs
      exact ⟨.refl, rfl, rfl⟩
    · obtain rfl := Option.some.inj hs
      exact ⟨.refl, rfl, rfl⟩
    · cases hs

theorem TenderInv.step {s s' : Tender} {a : TenderAction} (hinv : TenderInv s)
    (hs : s.step env a = some s') : TenderInv s' := by
  cases a with
  | prepare a =>
    simp only [Tender.step] at hs
    split at hs
    · next w hw =>
      split at hs
      · next hdistinct =>
        obtain rfl := Option.some.inj hs
        obtain ⟨hreg, hcount⟩ := step_registered hw hinv.registered hinv.counted
        exact ⟨hreg, hcount, hdistinct⟩
      · cases hs
    · cases hs
  | handOver a =>
    simp only [Tender.step] at hs
    split at hs
    · next h hh =>
      obtain rfl := Option.some.inj hs
      obtain ⟨hwrote, hcase, hcount⟩ := handoffStep_rows hh
      have hfiled : Filed env [] [.evaluationHandoff] s.world.db h.db := .of_wrote hwrote
      have hbids : submissions h.db = submissions s.world.db := hfiled.submissions_eq (by simp)
      refine ⟨hfiled.registered (by simp) (by simp) hinv.registered, ?_, ?_⟩
      · intro hdone
        have hdone : h.db.case.state = .completed := hdone
        rw [hcase] at hdone
        show statedCount h.db = some (.num (submissions h.db).length)
        rw [hcount, hbids]
        exact hinv.counted hdone
      · show (h.db.documents.map (·.id)).Nodup
        rw [hwrote.documents]
        exact hinv.distinct
    · cases hs

end

/-! ## Completeness -/

theorem readHandoff_count {env : Env} {db : CaseDb} {context : AccessContext}
    {readText : String → Option String} {r : Handoff.HandoffResult ⊕ Handoff.Assembled}
    (hcount : CountStated db) (h : Handoff.readHandoff env db context readText = .ok r) :
    supplierCountOf r = (submissions db).length := by
  simp only [Handoff.readHandoff, authorize, ↓raiseIf_bind_ok, bind_ok] at h
  obtain ⟨_, _, hstate, h⟩ := h
  have hstated := hcount (by simpa using hstate)
  unfold statedCount at hstated
  split at h
  · cases h
  · next content hcontent =>
    rw [hcontent, Option.map_some, Option.some.injEq] at hstated
    split at h
    · -- handed over before: the count of the stored handoff
      obtain rfl := Except.ok.inj h
      show Handoff.countOf (content.getD "submission_count" (.num 0)) = _
      have hget : content.getD "submission_count" (.num 0) = .num (submissions db).length := by
        unfold Dict.getD at *
        cases hfound : content.get? "submission_count" with
        | none =>
          rw [hfound] at hstated
          cases hstated
        | some v =>
          rw [hfound] at hstated
          exact hstated
      rw [hget]
      rfl
    · simp only [↓raiseIf_bind_ok] at h
      obtain ⟨_, _, h⟩ := h
      obtain rfl := Except.ok.inj h
      rfl

/-- **Main theorem**: in every state of every run the register lists the bids, in
    order and each once; CP4 and the handoff report their number. -/
theorem register_complete {env : Env} {es : List (Event Tender TenderAction)} {s : Tender}
    (hrun : Exec (tender env) es s) :
    ((registerItems s.world.db).map itemEntry = (submissions s.world.db).map bidEntry ∧
      ((submissions s.world.db).map (·.id)).Nodup) ∧
    (∀ call cmd db, completeCp4 env call cmd s.world.db = .ok db →
      submissions db = submissions s.world.db ∧
      statedCount db = some (.num (submissions s.world.db).length)) ∧
    (s.world.db.case.state = .completed →
      statedCount s.world.db = some (.num (submissions s.world.db).length)) ∧
    (∀ context readText r, Handoff.readHandoff env s.world.db context readText = .ok r →
      supplierCountOf r = (submissions s.world.db).length) := by
  have hinv : TenderInv s :=
    hrun.invariant (fun _ => TenderInv.initial) (fun _ _ _ hinv hs => hinv.step hs)
  refine ⟨⟨hinv.registered, ?_⟩, ?_, hinv.counted, ?_⟩
  · exact hinv.distinct.sublist (List.filter_sublist.map _)
  · intro call cmd db hdone
    exact completeCp4_states hdone
  · intro context readText r hread
    exact readHandoff_count hinv.counted hread

namespace Office

def deskCall (user documentId : Uuid) : Call :=
  { call user with newId := fun n => if n = 0 then documentId else { text := "other" } }

def bid (documentId : Uuid) (receiptStatus : String) : Action :=
  .handle (deskCall chi documentId) (.recordSubmission
    { file := { filename := "bid.pdf", content := "hồ sơ" }, supplierName := "Minh Long"
      receivedAt := "2026-01-05", receiptStatus := receiptStatus, externalReference := "" })

def openBids : Action :=
  .handle (deskCall binh { text := "minutes" }) (.completeCp4
    { file := { filename := "minutes.pdf", content := "biên bản" }, openingAt := "2026-01-20"
      witnesses := ["Chi"], approvalReference := "CP4-1", comment := "" })

def toOpening : List TenderAction :=
  (toOfficial (some 14) ++ [invite, bid { text := "bid-a" } "on_time",
    bid { text := "bid-b" } "replacement", openBids]).map .prepare

theorem sealed_tender : ∃ es s, Exec (tender env) es s ∧
    s.world.db.case.state = .completed ∧ (submissions s.world.db).length = 2 ∧
    (registerItems s.world.db).length = 2 ∧ statedCount s.world.db = some (.num 2) := by
  have hinit : (tender env).init { world := opened, evaluations := [], calls := fun _ => none } :=
    ⟨opened_init, rfl, fun _ => rfl⟩
  have hruns : (tender env).runs { world := opened, evaluations := [], calls := fun _ => none }
      toOpening (fun _ s => s.world.db.case.state == .completed &&
        (submissions s.world.db).length == 2) = true := by
    decide +kernel
  obtain ⟨es, s, hrun, htest⟩ := Machine.exec_of_runs hinit hruns
  simp only [Bool.and_eq_true, beq_iff_eq] at htest
  obtain ⟨hdone, hbids⟩ := htest
  obtain ⟨⟨hitems, _⟩, _, hcount, _⟩ := register_complete hrun
  refine ⟨es, s, hrun, hdone, hbids, ?_, ?_⟩
  · have hlength := congrArg List.length hitems
    rw [List.length_map, List.length_map] at hlength
    omega
  · rw [hcount hdone, hbids]
    rfl

end Office

end DigitalWorker
