import DigitalWorker.Preparation.Intake

/-! # Amending a case

    The requester can change the figures until the package is official. An
    amendment is three transactions: the case and its new snapshot, then the
    withdrawal of the checkpoint still waiting, then a card that says so. The
    run that follows is started by the run handler like any other.
-/

namespace DigitalWorker

/-- Only the fields a person actually revises; absent means unchanged. -/
structure AmendCaseCommand where
  estimatedValueMinor : Option Int := none
  deadline : Option String := none
  supplierNames : Option (List String) := none
  note : String := ""
  deriving DecidableEq

/-- `_describe`. -/
def describeChange (field before after : String) : String :=
  field ++ ": " ++ before ++ " → " ++ after

/-- The value half of `_apply`. -/
def applyValue (cmd : AmendCaseCommand) (case : PreparationCase) :
    PreparationCase × List String :=
  match cmd.estimatedValueMinor with
  | some value =>
    if value = case.estimatedValueMinor then (case, [])
    else
      ({ case with estimatedValueMinor := value },
        [describeChange "giá trị gói" (toString case.estimatedValueMinor) (toString value)])
  | none => (case, [])

/-- The deadline half of `_apply`. -/
def applyDeadline (cmd : AmendCaseCommand) (case : PreparationCase) :
    PreparationCase × List String :=
  match cmd.deadline with
  | some deadline =>
    if case.deadline = some deadline then (case, [])
    else
      ({ case with deadline := some deadline },
        [describeChange "thời hạn" (case.deadline.getD "None") deadline])
  | none => (case, [])

/-- `_apply`: the changed case and a line for each change. -/
def applyChanges (cmd : AmendCaseCommand) (case : PreparationCase) :
    PreparationCase × List String :=
  let value := applyValue cmd case
  let deadline := applyDeadline cmd value.1
  (deadline.1, value.2 ++ deadline.2)

def storedSuppliers (env : Env) (db : CaseDb) : List String :=
  match db.latestContent .supplierInput with
  | some content =>
    (dictItems (content.getD "suppliers" .null)).map
      (fun item => (item.getD "name" (.str "")).pyStr env.repr)
  | none => []

def amendedSuppliers (env : Env) (cmd : AmendCaseCommand) (db : CaseDb) : Option (List String) :=
  match cmd.supplierNames with
  | some names =>
    let after := (names.map strip).filter (· ≠ "")
    if after ≠ [] ∧ after ≠ storedSuppliers env db then some after else none
  | none => none

def amendSuppliers (env : Env) (call : Call) (cmd : AmendCaseCommand) (db : CaseDb) :
    CaseDb × List String :=
  match amendedSuppliers env cmd db with
  | some after =>
    let before := ", ".intercalate (storedSuppliers env db)
    (db.addApplicationArtifact env (call.newId 0) call.context.principalId .supplierInput
        (supplierContent "chat_amendment" after) .draft,
      [describeChange "nhà cung cấp mời" (if before = "" then "(chưa có)" else before)
        (", ".intercalate after)])
  | none => (db, [])

def amendmentContent (env : Env) (call : Call) (cmd : AmendCaseCommand) (case : PreparationCase)
    (changes : List String) : Dict :=
  [("amended_at", .str (env.isoformat call.now)),
    ("amended_by", .str call.context.principalId.text),
    ("changes", .arr (changes.map .str)),
    ("note", .str (take cmd.note 400)),
    ("estimated_value_minor", .num case.estimatedValueMinor),
    ("deadline", match case.deadline with | some d => .str d | none => .null)]

/-- The first transaction of `AmendPreparationCaseHandler.handle`. -/
def amendCase (env : Env) (call : Call) (cmd : AmendCaseCommand) (db : CaseDb) :
    Except Error CaseDb := do
  authorize call.context "tender.write" "preparation_case" db.case.id.text
  raiseIf (!db.case.state.acceptsAmendment)
    (conflictError "the package is already official — a change now needs an addendum"
      [("case_id", db.case.id.text), ("state", db.case.state.value)])
  let applied := applyChanges cmd db.case
  let suppliers := amendSuppliers env call cmd db
  let changes := applied.2 ++ suppliers.2
  raiseIf changes.isEmpty (domainError "nothing to change")
  let rows := suppliers.1.addApplicationArtifact env (call.newId 1) call.context.principalId
    .demandSnapshot (amendmentContent env call cmd applied.1 changes) .draft
  let case ← applied.1.reopenForAmendment
  rows.saveCase case

/-! ## The checkpoint still waiting -/

/-- `approval_type.rpartition(".")[2].upper()`; the types are plain ASCII. -/
def wireName (approvalType : String) : String :=
  (String.ofList (approvalType.toList.reverse.takeWhile (· ≠ '.')).reverse).toUpper

def isCheckpointOf (env : Env) (caseId : Uuid) (q : ApprovalRequest) : Bool :=
  q.isPreparation && (q.payload.getD "case_id" (.str "")).pyStr env.repr == caseId.text

/-- One turn of the loop of `_withdraw_pending_checkpoint`. -/
def withdrawOne (env : Env) (caseId : Uuid) (acc : List ApprovalRequest × String)
    (q : ApprovalRequest) : Except Error (List ApprovalRequest × String) := do
  if isCheckpointOf env caseId q then
    let cancelled ← q.cancel
    let requests ← saveRequest acc.1 cancelled
    let name := (q.payload.getD "checkpoint" (.str "")).pyStr env.repr
    return (requests, if name = "" then wireName q.approvalType else name)
  else return acc

def withdrawPending (env : Env) (caseId : Uuid) (requests : List ApprovalRequest) :
    Except Error (List ApprovalRequest × String) := do
  let (requests', withdrawn) ←
    (listPending requests 50).foldlM (withdrawOne env caseId) (requests, "")
  return if withdrawn = "" then (requests, "") else (requests', withdrawn)

def notifyAmended (db : CaseDb) : CaseDb :=
  db.send .runProgress (some db.case.createdBy)
    (jobKey db.case.id .amended ("v" ++ toString db.case.version))

/-! ## What an amendment does -/

variable {env : Env} {call : Call} {cmd : AmendCaseCommand} {db db' : CaseDb}

theorem applyChanges_case (c : PreparationCase) : ∃ value deadline,
    (applyChanges cmd c).1 = { c with estimatedValueMinor := value, deadline := deadline } := by
  have hvalue : ∃ value, (applyValue cmd c).1 = { c with estimatedValueMinor := value } := by
    unfold applyValue
    split
    · next value _ =>
      split
      · exact ⟨c.estimatedValueMinor, rfl⟩
      · exact ⟨value, rfl⟩
    · exact ⟨c.estimatedValueMinor, rfl⟩
  have hdeadline : ∀ c : PreparationCase, ∃ deadline,
      (applyDeadline cmd c).1 = { c with deadline := deadline } := by
    intro c
    unfold applyDeadline
    split
    · next deadline _ =>
      split
      · exact ⟨c.deadline, rfl⟩
      · exact ⟨some deadline, rfl⟩
    · exact ⟨c.deadline, rfl⟩
  obtain ⟨value, hv⟩ := hvalue
  obtain ⟨deadline, hd⟩ := hdeadline (applyValue cmd c).1
  refine ⟨value, deadline, ?_⟩
  show (applyDeadline cmd (applyValue cmd c).1).1 = _
  rw [hd, hv]

theorem amendSuppliers_rows :
    (amendSuppliers env call cmd db).1.case = db.case ∧
      (amendSuppliers env call cmd db).1.jobs = db.jobs ∧
      ∀ t, t ≠ .supplierInput →
        (amendSuppliers env call cmd db).1.latestContent t = db.latestContent t := by
  unfold amendSuppliers
  split
  · refine ⟨rfl, rfl, ?_⟩
    intro t ht
    exact CaseDb.latestContent_addApplicationArtifact_ne (Ne.symm ht)
  · exact ⟨rfl, rfl, fun _ _ => rfl⟩

theorem amendCase_ok (h : amendCase env call cmd db = .ok db') :
    db.case.state.acceptsAmendment = true ∧
      (∃ value deadline, db'.case =
        { db.case with
          estimatedValueMinor := value
          deadline := deadline
          state := .intakeReady
          currentStep := "intake"
          version := db.case.version + 1 }) ∧
      (∃ changes, db'.latestContent .demandSnapshot =
        some (amendmentContent env call cmd (applyChanges cmd db.case).1 changes)) ∧
      (∀ t, t ≠ .supplierInput → t ≠ .demandSnapshot →
        db'.latestContent t = db.latestContent t) ∧
      db'.jobs = db.jobs := by
  simp only [amendCase, authorize, ↓raiseIf_bind_ok, bind_ok] at h
  obtain ⟨_, _, hstate, _, case, hcase, hsave⟩ := h
  obtain ⟨hrows, hjobs, hlatest⟩ := @amendSuppliers_rows env call cmd db
  obtain ⟨_, rfl⟩ := CaseDb.saveCase_ok.mp hsave
  obtain ⟨_, rfl⟩ := PreparationCase.reopenForAmendment_ok.mp hcase
  obtain ⟨value, deadline, happly⟩ := @applyChanges_case cmd db.case
  refine ⟨by simpa using hstate, ⟨value, deadline, by simp [happly]⟩,
    ⟨(applyChanges cmd db.case).2 ++ (amendSuppliers env call cmd db).2, ?_⟩, ?_, hjobs⟩
  · exact CaseDb.latestContent_addApplicationArtifact_self
  · intro t hsupplier hsnapshot
    rw [← hlatest t hsupplier]
    exact CaseDb.latestContent_addApplicationArtifact_ne (Ne.symm hsnapshot)

def Withdrawn (requests requests' : List ApprovalRequest) : Prop :=
  ∀ q' ∈ requests', ∃ q ∈ requests, q'.id = q.id ∧ q'.requestedBy = q.requestedBy ∧
    q'.runId = q.runId ∧ q'.approvalType = q.approvalType ∧ q'.payload = q.payload ∧
    q'.createdAt = q.createdAt ∧ (q'.status = q.status ∨ q'.status = .cancelled)

theorem Withdrawn.refl (requests : List ApprovalRequest) : Withdrawn requests requests := by
  intro q hq
  exact ⟨q, hq, rfl, rfl, rfl, rfl, rfl, rfl, .inl rfl⟩

theorem Withdrawn.trans {r₁ r₂ r₃ : List ApprovalRequest} (h₁ : Withdrawn r₁ r₂)
    (h₂ : Withdrawn r₂ r₃) : Withdrawn r₁ r₃ := by
  intro q₃ hq₃
  obtain ⟨q₂, hq₂, hid₂, hby₂, hrun₂, htype₂, hpay₂, hat₂, hst₂⟩ := h₂ q₃ hq₃
  obtain ⟨q₁, hq₁, hid₁, hby₁, hrun₁, htype₁, hpay₁, hat₁, hst₁⟩ := h₁ q₂ hq₂
  refine ⟨q₁, hq₁, hid₂.trans hid₁, hby₂.trans hby₁, hrun₂.trans hrun₁, htype₂.trans htype₁,
    hpay₂.trans hpay₁, hat₂.trans hat₁, ?_⟩
  rcases hst₂ with hst₂ | hst₂
  · rw [hst₂]
    exact hst₁
  · exact .inr hst₂

variable {acc acc' : List ApprovalRequest × String} {caseId : Uuid} {qs : List ApprovalRequest}
  {q : ApprovalRequest}

theorem withdrawOne_ok
    (h : withdrawOne env caseId acc q = .ok acc') :
    Withdrawn acc.1 acc'.1 := by
  unfold withdrawOne at h
  split at h
  · simp only [bind_ok] at h
    obtain ⟨cancelled, hcancel, requests, hsave, hret⟩ := h
    obtain rfl := Except.ok.inj hret
    obtain ⟨_, rfl⟩ := ApprovalRequest.cancel_ok.mp hcancel
    intro q' hq'
    obtain ⟨r, hr, hid, hby, hrun, htype, hpay, hat, hst⟩ := saveRequest_mem hsave hq'
    refine ⟨r, hr, hid, hby, hrun, htype, hpay, hat, ?_⟩
    split at hst
    · exact .inr hst
    · exact .inl (by rw [hst])
  · obtain rfl := Except.ok.inj h
    exact .refl _

theorem withdrawLoop_ok
    (h : qs.foldlM (withdrawOne env caseId) acc = .ok acc') : Withdrawn acc.1 acc'.1 := by
  induction qs generalizing acc with
  | nil =>
    obtain rfl := Except.ok.inj h
    exact .refl _
  | cons q qs ih =>
    rw [List.foldlM_cons, bind_ok] at h
    obtain ⟨mid, hq, hqs⟩ := h
    exact (withdrawOne_ok hq).trans (ih hqs)

theorem withdrawPending_ok {requests requests' : List ApprovalRequest}
    {name : String} (h : withdrawPending env caseId requests = .ok (requests', name)) :
    Withdrawn requests requests' := by
  unfold withdrawPending at h
  rw [bind_ok] at h
  obtain ⟨acc, hloop, hret⟩ := h
  have hacc := withdrawLoop_ok hloop
  obtain ⟨looped, withdrawn⟩ := acc
  simp only [pure, Except.pure, Except.ok.injEq] at hret
  split at hret
  · obtain ⟨rfl, _⟩ := Prod.mk.inj hret
    exact .refl _
  · obtain ⟨rfl, _⟩ := Prod.mk.inj hret
    exact hacc

def checkpointName (env : Env) (q : ApprovalRequest) : String :=
  (q.payload.getD "checkpoint" (.str "")).pyStr env.repr

theorem withdrawOne_keeps {caseId id : Uuid}
    (h : withdrawOne env caseId acc q = .ok acc')
    (hacc : ∀ r ∈ acc.1, r.id = id → r.status = .cancelled) :
    ∀ r ∈ acc'.1, r.id = id → r.status = .cancelled := by
  intro r hr hid
  obtain ⟨r₀, hr₀, hid₀, _, _, _, _, _, hst⟩ := withdrawOne_ok h r hr
  have hcancelled : r₀.status = .cancelled := hacc r₀ hr₀ (hid₀ ▸ hid)
  rcases hst with hst | hst
  · exact hst.trans hcancelled
  · exact hst

theorem withdrawOne_cancels
    (h : withdrawOne env caseId acc q = .ok acc')
    (hq : isCheckpointOf env caseId q = true) (hname : checkpointName env q ≠ "") :
    (∀ r ∈ acc'.1, r.id = q.id → r.status = .cancelled) ∧ acc'.2 ≠ "" := by
  rw [withdrawOne, if_pos hq] at h
  simp only [bind_ok] at h
  obtain ⟨cancelled, hcancel, requests, hsave, hret⟩ := h
  obtain rfl := Except.ok.inj hret
  obtain ⟨_, rfl⟩ := ApprovalRequest.cancel_ok.mp hcancel
  refine ⟨?_, ?_⟩
  · intro r hr hid
    obtain ⟨r₀, _, hid₀, _, _, _, _, _, hst⟩ := saveRequest_mem hsave hr
    have hsame : r₀.id = q.id := hid₀.symm.trans hid
    rw [if_pos hsame] at hst
    exact hst
  · show (if checkpointName env q = "" then wireName q.approvalType else checkpointName env q) ≠ ""
    rw [if_neg hname]
    exact hname

theorem withdrawLoop_keeps {caseId id : Uuid}
    (h : qs.foldlM (withdrawOne env caseId) acc = .ok acc')
    (hacc : ∀ r ∈ acc.1, r.id = id → r.status = .cancelled) :
    ∀ r ∈ acc'.1, r.id = id → r.status = .cancelled := by
  induction qs generalizing acc with
  | nil =>
    obtain rfl := Except.ok.inj h
    exact hacc
  | cons q qs ih =>
    rw [List.foldlM_cons, bind_ok] at h
    obtain ⟨mid, hq, hqs⟩ := h
    exact ih hqs (withdrawOne_keeps hq hacc)

theorem withdrawLoop_named
    (h : qs.foldlM (withdrawOne env caseId) acc = .ok acc')
    (hnamed : ∀ q ∈ qs, isCheckpointOf env caseId q = true → checkpointName env q ≠ "")
    (hacc : acc.2 ≠ "" ∨ ∃ q ∈ qs, isCheckpointOf env caseId q = true) : acc'.2 ≠ "" := by
  induction qs generalizing acc with
  | nil =>
    obtain rfl := Except.ok.inj h
    rcases hacc with hacc | ⟨q, hq, _⟩
    · exact hacc
    · cases hq
  | cons q qs ih =>
    rw [List.foldlM_cons, bind_ok] at h
    obtain ⟨mid, hturn, hqs⟩ := h
    apply ih hqs (fun q' hq' => hnamed q' (List.mem_cons_of_mem _ hq'))
    by_cases hc : isCheckpointOf env caseId q = true
    · exact .inl (withdrawOne_cancels hturn hc (hnamed q List.mem_cons_self hc)).2
    · -- the turn passes over a request of another case
      rw [withdrawOne, if_neg hc] at hturn
      obtain rfl := Except.ok.inj hturn
      rcases hacc with hacc | ⟨q', hq', hc'⟩
      · exact .inl hacc
      · rcases List.mem_cons.mp hq' with rfl | hq'
        · exact absurd hc' hc
        · exact .inr ⟨q', hq', hc'⟩

theorem withdrawLoop_cancels
    (h : qs.foldlM (withdrawOne env caseId) acc = .ok acc') (hq : q ∈ qs)
    (hc : isCheckpointOf env caseId q = true) (hname : checkpointName env q ≠ "") :
    ∀ r ∈ acc'.1, r.id = q.id → r.status = .cancelled := by
  induction qs generalizing acc with
  | nil => cases hq
  | cons q' qs ih =>
    rw [List.foldlM_cons, bind_ok] at h
    obtain ⟨mid, hturn, hqs⟩ := h
    rcases List.mem_cons.mp hq with rfl | hq
    · exact withdrawLoop_keeps hqs (withdrawOne_cancels hturn hc hname).1
    · exact ih hqs hq

/-- **Withdrawal**: every checkpoint of the case among the newest fifty pending
    requests is cancelled. -/
theorem withdrawPending_cancels {requests requests' : List ApprovalRequest}
    {name : String}
    (h : withdrawPending env caseId requests = .ok (requests', name))
    (hnamed : ∀ q ∈ requests, isCheckpointOf env caseId q = true → checkpointName env q ≠ "")
    (hq : q ∈ listPending requests 50) (hc : isCheckpointOf env caseId q = true) :
    ∀ r ∈ requests', r.id = q.id → r.status = .cancelled := by
  unfold withdrawPending at h
  rw [bind_ok] at h
  obtain ⟨acc, hloop, hret⟩ := h
  have hlisted : ∀ q ∈ listPending requests 50, isCheckpointOf env caseId q = true →
      checkpointName env q ≠ "" := fun q hq => hnamed q (listPending_mem hq).1
  have hfound : acc.2 ≠ "" := withdrawLoop_named hloop hlisted (.inr ⟨q, hq, hc⟩)
  have hcancelled := withdrawLoop_cancels hloop hq hc (hlisted q hq hc)
  obtain ⟨looped, withdrawn⟩ := acc
  simp only [pure, Except.pure, Except.ok.injEq] at hret
  rw [if_neg hfound] at hret
  obtain ⟨rfl, _⟩ := Prod.mk.inj hret
  exact hcancelled

end DigitalWorker
