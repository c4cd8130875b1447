import DigitalWorker.Protocol.Requests

/-! # Four eyes at every checkpoint

    Nobody approves their own work: at no checkpoint the creator of the case, and
    at CP3 not the one who filed the addendum either. Three pieces of code watch
    over this, and each compares the decider with another identity: the handlers
    with the creator, the approval service with the requester of the request,
    which is whoever the run acts for, and nobody with the filer.
-/

namespace DigitalWorker

open Framework

/-! ## The property -/

def addendumFiler (db : CaseDb) : Option String :=
  match db.latestContent .addendumDraft with
  | some content =>
    match content.getD "submitted_by" .null with
    | .str s => some s
    | _ => none
  | none => none

theorem submitAddendum_filer {env : Env} {directory : Directory} {call : Call}
    {cmd : SubmitAddendumCommand} {db db' : CaseDb}
    (h : submitAddendum env directory call cmd db = .ok db') :
    addendumFiler db' = some call.context.principalId.text := by
  simp only [submitAddendum, authorize, ↓raiseIf_bind_ok, bind_ok] at h
  obtain ⟨_, _, _, document, _, case, _, hsave⟩ := h
  obtain ⟨_, rfl⟩ := CaseDb.saveCase_ok.mp hsave
  have hlatest : ∀ rows : CaseDb, ∀ kind recipient key,
      (rows.send kind recipient key).latestContent .addendumDraft =
        rows.latestContent .addendumDraft := by
    intro rows kind recipient key
    unfold CaseDb.latestContent
    rw [CaseDb.send_artifacts]
  show addendumFiler (CaseDb.send _ _ _ _) = _
  unfold addendumFiler
  rw [hlatest, CaseDb.latestContent_addApplicationArtifact_self]
  rfl

def approverOf : Action → Option Uuid
  | .handle call (.verifyIntake _ _) => some call.context.principalId
  | .handle call (.decideCp3 cmd) => if cmd.approve then some call.context.principalId else none
  | .handle call (.completeCp4 _) => some call.context.principalId
  | .decide call cmd => if cmd.approve then some call.context.principalId else none
  | _ => none

theorem approverOf_decide {call : Call} {cmd : DecideCommand} (h : cmd.approve = true) :
    approverOf (.decide call cmd) = some call.context.principalId := by
  show (if cmd.approve then some call.context.principalId else none) = _
  rw [if_pos h]

theorem approverOf_decideCp3 {call : Call} {cmd : DecideCp3Command} (h : cmd.approve = true) :
    approverOf (.handle call (.decideCp3 cmd)) = some call.context.principalId := by
  show (if cmd.approve then some call.context.principalId else none) = _
  rw [if_pos h]

def DecidesCp3 (a : Action) : Prop := ∃ call cmd, a = .handle call (.decideCp3 cmd)

def AuthoredBy (e : Event World Action) (user : Uuid) : Prop :=
  user = e.pre.db.case.createdBy ∨
    (DecidesCp3 e.act ∧ addendumFiler e.pre.db = some user.text)

def FourEyes (e : Event World Action) : Prop :=
  ∀ user, approverOf e.act = some user → ¬ AuthoredBy e user

/-! ## The two gaps -/

def ApprovesThroughOther (e : Event World Action) : Prop :=
  ∃ call cmd q r record, e.act = .decide call cmd ∧ cmd.approve = true ∧
    call.context.principalId = e.pre.db.case.createdBy ∧
    getRequest e.pre.requests cmd.approvalId = some q ∧ q.runId = some r ∧
    e.pre.runs r = some record ∧ record.requestedBy ≠ e.pre.db.case.createdBy

def ApprovesOwnAddendum (e : Event World Action) : Prop :=
  ∃ call cmd, e.act = .handle call (.decideCp3 cmd) ∧ cmd.approve = true ∧
    addendumFiler e.pre.db = some call.context.principalId.text

section

variable {env : Env} {w w' : World} {call : Call}

theorem approverOf_some {a : Action} {user : Uuid} (h : approverOf a = some user) :
    ∃ call, user = call.context.principalId ∧
      ((∃ ref comment, a = .handle call (.verifyIntake ref comment)) ∨
        (∃ cmd, a = .handle call (.decideCp3 cmd) ∧ cmd.approve = true) ∨
        (∃ cmd, a = .handle call (.completeCp4 cmd)) ∨
        ∃ cmd, a = .decide call cmd ∧ cmd.approve = true) := by
  unfold approverOf at h
  split at h
  · next call ref comment =>
    exact ⟨call, (Option.some.inj h).symm, .inl ⟨ref, comment, rfl⟩⟩
  · next call cmd =>
    by_cases happrove : cmd.approve = true
    · rw [if_pos happrove] at h
      exact ⟨call, (Option.some.inj h).symm, .inr (.inl ⟨cmd, rfl, happrove⟩)⟩
    · rw [if_neg happrove] at h
      cases h
  · next call cmd =>
    exact ⟨call, (Option.some.inj h).symm, .inr (.inr (.inl ⟨cmd, rfl⟩))⟩
  · next call cmd =>
    by_cases happrove : cmd.approve = true
    · rw [if_pos happrove] at h
      exact ⟨call, (Option.some.inj h).symm, .inr (.inr (.inr ⟨cmd, rfl, happrove⟩))⟩
    · rw [if_neg happrove] at h
      cases h
  · cases h

theorem verifyIntake_other {ref comment : String}
    (hs : w.step env (.handle call (.verifyIntake ref comment)) = some w') :
    call.context.principalId ≠ w.db.case.createdBy := by
  obtain ⟨db, hrun, _⟩ := World.step_handle hs
  obtain ⟨hcase, _⟩ := verifyIntake_ok hrun
  exact (PreparationCase.verifyIntake_ok.mp hcase).1

theorem decideCp3_other {cmd : DecideCp3Command}
    (hs : w.step env (.handle call (.decideCp3 cmd)) = some w') :
    call.context.principalId ≠ w.db.case.createdBy := by
  obtain ⟨db, hrun, _⟩ := World.step_handle hs
  intro heq
  exact (decideCp3_ok hrun).1 heq.symm

theorem completeCp4_other {cmd : CompleteCp4Command}
    (hs : w.step env (.handle call (.completeCp4 cmd)) = some w') :
    call.context.principalId ≠ w.db.case.createdBy := by
  obtain ⟨db, hrun, _⟩ := World.step_handle hs
  intro heq
  exact (completeCp4_ok hrun).1 heq.symm

theorem decide_other {cmd : DecideCommand} (hbooks : Bookkeeping env w)
    (hs : w.step env (.decide call cmd) = some w') :
    ∃ q r record, getRequest w.requests cmd.approvalId = some q ∧ q.runId = some r ∧
      w.runs r = some record ∧ record.requestedBy ≠ call.context.principalId := by
  obtain ⟨q, _, hq, _, haccepted, _, _⟩ := World.step_decide hs
  obtain ⟨hprep, r, record, hrun, hrecord, hby⟩ := hbooks.origin q (getRequest_mem hq).1
  refine ⟨q, r, record, hq, hrun, hrecord, ?_⟩
  intro heq
  apply haccepted
  right
  left
  exact ⟨hprep, hby.trans heq⟩

/-- **Step**: a step has four eyes unless it goes through one of the gaps. -/
theorem fourEyes_step {e : Event World Action} (hbooks : Bookkeeping env e.pre)
    (hs : e.pre.step env e.act = some e.post) :
    FourEyes e ↔ ¬ ApprovesThroughOther e ∧ ¬ ApprovesOwnAddendum e := by
  obtain ⟨pre, act, post⟩ := e
  constructor
  · intro hfour
    constructor
    · intro h
      obtain ⟨call, cmd, q, r, record, rfl, happrove, hcreator, _⟩ := h
      exact hfour call.context.principalId (approverOf_decide happrove) (.inl hcreator)
    · intro h
      obtain ⟨call, cmd, rfl, happrove, hfiler⟩ := h
      exact hfour call.context.principalId (approverOf_decideCp3 happrove)
        (.inr ⟨⟨call, cmd, rfl⟩, hfiler⟩)
  · intro hgaps user huser hauthor
    obtain ⟨hother, hown⟩ := hgaps
    obtain ⟨call, rfl, hact⟩ := approverOf_some huser
    rcases hact with ⟨ref, comment, rfl⟩ | ⟨cmd, rfl, happrove⟩ | ⟨cmd, rfl⟩ |
      ⟨cmd, rfl, happrove⟩
    · rcases hauthor with hcreator | ⟨⟨_, _, hcp3⟩, _⟩
      · exact verifyIntake_other hs hcreator
      · cases hcp3
    · rcases hauthor with hcreator | ⟨_, hfiler⟩
      · exact decideCp3_other hs hcreator
      · exact hown ⟨call, cmd, rfl, happrove, hfiler⟩
    · rcases hauthor with hcreator | ⟨⟨_, _, hcp3⟩, _⟩
      · exact completeCp4_other hs hcreator
      · cases hcp3
    · rcases hauthor with hcreator | ⟨⟨_, _, hcp3⟩, _⟩
      · obtain ⟨q, r, record, hq, hrun, hrecord, hne⟩ := decide_other hbooks hs
        rw [hcreator] at hne
        exact hother ⟨call, cmd, q, r, record, rfl, happrove, hcreator, hq, hrun, hrecord, hne⟩
      · cases hcp3

/-! ## The law -/

/-- **Four eyes**: in a run of the protocol nobody approves their own work, if and
    only if the creator approves nothing that a run of somebody else raised, and
    nobody approves an addendum they filed. -/
theorem four_eyes_iff {es : List (Event World Action)} (h : Exec (preparation env) es w) :
    (∀ e ∈ es, FourEyes e) ↔ ∀ e ∈ es, ¬ ApprovesThroughOther e ∧ ¬ ApprovesOwnAddendum e := by
  have hevents := h.pre_invariant (fun _ hw => bookkeeping_init hw)
    (fun _ _ _ hb hs => bookkeeping_step hb hs)
  have hstep : ∀ e ∈ es, (FourEyes e ↔ ¬ ApprovesThroughOther e ∧ ¬ ApprovesOwnAddendum e) := by
    intro e he
    obtain ⟨hbooks, hs⟩ := hevents e he
    exact fourEyes_step hbooks hs
  constructor
  · intro hfour e he
    exact (hstep e he).mp (hfour e he)
  · intro hgaps e he
    exact (hstep e he).mpr (hgaps e he)

end

namespace Office

def approval (requestId : Uuid) : DecideCommand :=
  { approvalId := requestId, approve := true, comment := "đồng ý" }

def approve (user runId requestId : Uuid) : List Action :=
  [.decide (call user) (approval requestId),
    .resume { runId := runId, decision := resumeDecision (call user) (approval requestId) }]

/-- The requester started the run, and the approver approves CP1. -/
theorem approver_approves : ∃ es w, Exec (preparation env) es w ∧
    w.decisions.length = 1 ∧ ∀ e ∈ es, FourEyes e := by
  -- the approver decides, and there is no addendum
  let fine (e : Event World Action) : Bool :=
    match e.act with
    | .decide call _ => call.context.principalId != e.pre.db.case.createdBy
    | .handle _ (.decideCp3 _) => false
    | _ => true
  have hruns : (preparation env).runs opened (toCp1 ++ approve binh run cp1Request)
      (fun es w => w.decisions.length == 1 && es.all fine) = true := by
    decide +kernel
  obtain ⟨es, w, hexec, htest⟩ := Machine.exec_of_runs opened_init hruns
  simp only [Bool.and_eq_true, beq_iff_eq, List.all_eq_true] at htest
  refine ⟨es, w, hexec, htest.1, (four_eyes_iff hexec).mpr ?_⟩
  intro e he
  have hfine := htest.2 e he
  constructor
  · intro hother
    obtain ⟨call, cmd, _, _, _, hact, _, hcreator, _⟩ := hother
    simp only [fine, hact, bne_iff_ne, ne_eq] at hfine
    exact hfine hcreator
  · intro hown
    obtain ⟨call, cmd, hact, _⟩ := hown
    simp only [fine, hact] at hfine
    cases hfine

def cp2Request : Uuid := { text := "second request" }

def upload : Upload := { filename := "văn-bản.md", content := "gia hạn" }

def ownApprovals : List Action :=
  .handle (call binh) (.verifyIntake "PR-1" "đủ hồ sơ") :: runToCp1 chi run cp1Request ++
    approve an run cp1Request ++ List.replicate 6 (.node run nodeInput) ++
    raiseRequest run cp2Request ++ approve binh run cp2Request ++
    [.node run nodeInput, .node run { nodeInput with manifestRef := "manifest" },
      .handle (call chi) (.recordPublication
        { file := upload, channel := "email", recipientSummary := "", publishedAt := ""
          externalReference := "RFQ-1" }),
      .handle (call binh) (.submitAddendum
        { file := upload, changeSummary := "gia hạn", impactSummary := "" }),
      .handle (call binh) (.decideCp3
        { approve := true, approvalReference := "CP3-1", comment := "" })]

/-- The creator's own hand approves CP1, and the filer's CP3. -/
theorem own_work_approved : ∃ es w, Exec (preparation env) es w ∧
    (∃ e ∈ es, ¬ FourEyes e ∧ ∃ call cmd, e.act = .decide call cmd) ∧
    ∃ e ∈ es, ¬ FourEyes e ∧ DecidesCp3 e.act := by
  let byCreator (e : Event World Action) : Bool :=
    match e.act with
    | .decide call cmd => cmd.approve && call.context.principalId == e.pre.db.case.createdBy
    | _ => false
  let byFiler (e : Event World Action) : Bool :=
    match e.act with
    | .handle call (.decideCp3 cmd) =>
      cmd.approve && addendumFiler e.pre.db == some call.context.principalId.text
    | _ => false
  have hruns : (preparation env).runs opened ownApprovals
      (fun es _ => es.any byCreator && es.any byFiler) = true := by
    decide +kernel
  obtain ⟨es, w, hexec, htest⟩ := Machine.exec_of_runs opened_init hruns
  simp only [Bool.and_eq_true, List.any_eq_true] at htest
  obtain ⟨⟨e₁, he₁, h₁⟩, e₂, he₂, h₂⟩ := htest
  refine ⟨es, w, hexec, ⟨e₁, he₁, ?_⟩, e₂, he₂, ?_⟩
  · simp only [byCreator] at h₁
    split at h₁
    · next call cmd hact =>
      simp only [Bool.and_eq_true, beq_iff_eq] at h₁
      obtain ⟨happrove, hcreator⟩ := h₁
      refine ⟨?_, call, cmd, hact⟩
      intro hfour
      refine hfour call.context.principalId ?_ (.inl hcreator)
      rw [hact]
      exact approverOf_decide happrove
    · cases h₁
  · simp only [byFiler] at h₂
    split at h₂
    · next call cmd hact =>
      simp only [Bool.and_eq_true, beq_iff_eq] at h₂
      obtain ⟨happrove, hfiler⟩ := h₂
      refine ⟨?_, call, cmd, hact⟩
      intro hfour
      refine hfour call.context.principalId ?_ (.inr ⟨⟨call, cmd, hact⟩, hfiler⟩)
      rw [hact]
      exact approverOf_decideCp3 happrove
    · cases h₂

end Office

end DigitalWorker
