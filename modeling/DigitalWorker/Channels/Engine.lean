import DigitalWorker.Channels.Decisions
import DigitalWorker.Protocol.Workspace

/-! # The decision engine over the store

    `DecisionEngine.pending` lists what waits for a human decision, from the
    states of the cases and the approval store. `DecisionEngine.execute` maps an
    action on a row of that list to the handler the web uses. Both read the store
    at the moment they are called.
-/

namespace DigitalWorker.Channels

/-! ## The list -/

section

variable (env : Env) (context : AccessContext) (s : Workspace)

def caseItem (c : PreparationCase) : Option PendingItem :=
  match c.state with
  | .draft =>
    if c.createdBy = context.principalId then none
    else some
      { kind := .intake, cp := "", caseId := c.id.text, label := "Xác minh hồ sơ đầu vào"
        title := c.title, ownerName := c.ownerName }
  | .cp3Pending => some
      { kind := .cp, cp := "cp3", caseId := c.id.text, label := "CP3 — duyệt sửa đổi"
        title := c.title, ownerName := c.ownerName }
  | .cp4Ready => some
      { kind := .cp4, cp := "cp4", caseId := c.id.text, label := "CP4 — xác nhận mở thầu"
        title := c.title, ownerName := c.ownerName }
  | _ => none

/-- `approval_type.rsplit(".", 1)[-1]`. -/
def lastPart (s : String) : String :=
  String.ofList (s.toList.reverse.takeWhile (· ≠ '.')).reverse

/-- `str(request.payload.get("case_id", ""))`. -/
def caseIdOf (q : ApprovalRequest) : String := (q.payload.getD "case_id" (.str "")).pyStr env.repr

/-- `request.approval_type.startswith("preparation.cp")`. -/
def isCheckpoint (q : ApprovalRequest) : Bool := startsWith q.approvalType "preparation.cp"

def roleFits (q : ApprovalRequest) : Bool :=
  q.requiredRole env.repr == "" || context.roles.contains (q.requiredRole env.repr)

def requestItem (cases : List PreparationCase) (q : ApprovalRequest) : Option PendingItem :=
  if !isCheckpoint q then none
  else if !roleFits env context q then none
  else
    let caseId := caseIdOf env q
    let listed := cases.find? (fun c => c.id.text == caseId)
    some
      { kind := .cp
        cp := lastPart q.approvalType
        caseId := caseId
        label := (lastPart q.approvalType).toUpper ++ " — duyệt"
        title := match listed with
          | some c => c.title
          | none => (q.payload.getD "case_title" (.str "")).pyStr env.repr
        ownerName := match listed with
          | some c => c.ownerName
          | none => "" }

/-- `cases.list_recent()`: the newest fifty cases. -/
def recentCases : List World := s.worlds.take 50

/-- `approvals.list_pending()`: the newest fifty pending requests of the tenant. -/
def listedRequests : List ApprovalRequest := listPending s.requests 50

def pending : Except Error (List PendingItem) := do
  authorize context "tender.read" "preparation_case" ""
  let cases := (recentCases s).map (·.db.case)
  return cases.filterMap (caseItem context) ++
    (listedRequests s).filterMap (requestItem env context cases)

end

/-! ## The write paths -/

/-- What `execute` has besides the action: who acts, through which channel, the
    clock as it is printed, and what the email channel and storage answer. -/
structure ChatTurn where
  call : Call
  channelLabel : String := "chat"
  displayName : String
  /-- `{now:%Y%m%d-%H%M%S}`. -/
  stamp : String
  /-- `now.isoformat()`. -/
  openedAt : String
  /-- `_bid_opening_minutes`. -/
  minutes : String
  handoffRef : String := ""
  published : Delivery
  /-- The email of an approved addendum, where a channel is configured. -/
  sent : Option Delivery := none
  /-- The proposal in the value of a button, and the document drafted from it. -/
  proposal : String → Except Error (Uuid × SubmitAddendumCommand)

namespace ChatTurn

variable (t : ChatTurn)

def via : String := "qua " ++ t.channelLabel ++ " bởi " ++ t.displayName

def reference : String := "CHAT-" ++ t.stamp

def Delivers : Prop := ∀ d, t.sent = some d → d.evidence ≠ ""

end ChatTurn

inductive Dispatch where
  | writes (a : WorkspaceAction)
  | replies (reply : String)

/-- `value.partition(":")`, without the separator. -/
def partitionColon (value : String) : String × String :=
  (String.ofList (value.toList.takeWhile (· ≠ ':')),
    String.ofList ((value.toList.dropWhile (· ≠ ':')).drop 1))

section

variable (env : Env) (t : ChatTurn) (s : Workspace)

/-- `UUID(value)`, and the case of that identifier. -/
def caseNamed (value : String) : Option World :=
  s.worlds.find? (fun w => w.db.case.id.text == value)

def onCase (value : String) (h : Handler) : Except Error Dispatch :=
  match caseNamed s value with
  | none => .error (notFoundError "preparation case not found" [("case_id", value)])
  | some w => .ok (.writes (.act w.db.case.id (.handle t.call h)))

def findPendingApproval (cp : String) (caseId : Uuid) : Option ApprovalRequest :=
  (listedRequests s).find? (fun q =>
    q.approvalType == "preparation." ++ cp && caseIdOf env q == caseId.text)

def onCheckpoint (approve : Bool) (value : String) : Except Error Dispatch :=
  let cp := (partitionColon value).1
  let comment := "Quyết định " ++ t.via
  match caseNamed s (partitionColon value).2 with
  | none => .error (notFoundError "preparation case not found" [("case_id", value)])
  | some w =>
    if cp = "cp3" then
      .ok (.writes (.act w.db.case.id (.handle t.call (.decideCp3
        { approve := approve, approvalReference := t.reference, comment := comment
          sent := t.sent }))))
    else
      match findPendingApproval env s cp w.db.case.id with
      | none => .ok (.replies ("⚠️ Không còn yêu cầu phê duyệt đang chờ cho checkpoint này " ++
          "(có thể đã được quyết định)."))
      | some q => .ok (.writes (.act w.db.case.id (.decide t.call
          { approvalId := q.id, approve := approve, comment := comment })))

/-- `DecisionEngine.execute`, up to the transaction that decides. -/
def dispatch (action : ActionId) (value : String) : Except Error Dispatch :=
  match action with
  | .intakeApprove => onCase t s value (.verifyIntake t.reference ("Xác minh " ++ t.via))
  | .intakeReject => onCase t s value (.rejectIntake ("Từ chối " ++ t.via) "")
  | .addendumDismiss => .ok (.replies
      "Đã bỏ qua đề nghị sửa đổi — HSMT giữ nguyên. (Người đề nghị sẽ được báo.)")
  | .addendumSubmit =>
    match t.proposal value with
    | .error e => .error e
    | .ok (caseId, cmd) => .ok (.writes (.act caseId (.handle t.call (.submitAddendum cmd))))
  | .cpApprove => onCheckpoint env t s true value
  | .cpReject => onCheckpoint env t s false value
  | .cp4Confirm => onCase t s value (.completeCp4
      { file := { filename := "bid-opening-minutes.md", content := t.minutes }
        openingAt := t.openedAt, witnesses := [t.displayName]
        approvalReference := t.reference, comment := "Xác nhận CP4 " ++ t.via
        handoffRef := t.handoffRef })
  | .openBids => onCase t s value .requestCp4
  | .publish => onCase t s value (.autoPublish t.published)

end

/-! ## What is written -/

variable {env : Env} {context : AccessContext} {s : Workspace} {t : ChatTurn}

theorem partitionColon_append {cp rest : String} (h : ':' ∉ cp.toList) :
    partitionColon (cp ++ ":" ++ rest) = (cp, rest) := by
  have htext : (cp ++ ":" ++ rest).toList = cp.toList ++ ':' :: rest.toList := by
    simp
  have hpass : ∀ c ∈ cp.toList, decide (c ≠ ':') = true := by
    intro c hc
    rw [decide_eq_true_eq]
    rintro rfl
    exact h hc
  unfold partitionColon
  rw [htext, List.takeWhile_append_of_pos hpass, List.dropWhile_append_of_pos hpass]
  simp

theorem mem_pending {items : List PendingItem} (h : pending env context s = .ok items)
    {item : PendingItem} : item ∈ items ↔
      (∃ w ∈ recentCases s, caseItem context w.db.case = some item) ∨
      ∃ q ∈ listedRequests s,
        requestItem env context ((recentCases s).map (·.db.case)) q = some item := by
  simp only [pending, authorize, raiseIf_bind_ok] at h
  obtain rfl := Except.ok.inj h.2
  simp only [List.mem_append, List.mem_filterMap, List.mem_map, exists_exists_and_eq_and]

theorem pending_succeeds_iff : (∃ items, pending env context s = .ok items) ↔
    isAllowed context "tender.read" = true := by
  simp only [pending, authorize, raiseIf_bind_ok]
  constructor
  · intro h
    obtain ⟨_, hscope, _⟩ := h
    simpa using hscope
  · intro hscope
    exact ⟨_, by simpa using hscope, rfl⟩

theorem caseItem_some {c : PreparationCase} {item : PendingItem}
    (h : caseItem context c = some item) :
    item.caseId = c.id.text ∧
      ((c.state = .draft ∧ c.createdBy ≠ context.principalId ∧ item.kind = .intake) ∨
      (c.state = .cp3Pending ∧ item.kind = .cp ∧ item.cp = "cp3") ∨
      (c.state = .cp4Ready ∧ item.kind = .cp4)) := by
  unfold caseItem at h
  split at h
  · next hstate =>
    split at h
    · cases h
    · next hother =>
      obtain rfl := Option.some.inj h
      exact ⟨rfl, .inl ⟨hstate, hother, rfl⟩⟩
  · next hstate =>
    obtain rfl := Option.some.inj h
    exact ⟨rfl, .inr (.inl ⟨hstate, rfl, rfl⟩)⟩
  · next hstate =>
    obtain rfl := Option.some.inj h
    exact ⟨rfl, .inr (.inr ⟨hstate, rfl⟩)⟩
  · cases h

theorem requestItem_some {cases : List PreparationCase} {q : ApprovalRequest} {item : PendingItem}
    (h : requestItem env context cases q = some item) :
    isCheckpoint q = true ∧ roleFits env context q = true ∧ item.kind = .cp ∧
      item.cp = lastPart q.approvalType ∧ item.caseId = caseIdOf env q := by
  unfold requestItem at h
  split at h
  · cases h
  · next hcheckpoint =>
    split at h
    · cases h
    · next hrole =>
      obtain rfl := Option.some.inj h
      exact ⟨by simpa using hcheckpoint, by simpa using hrole, rfl, rfl, rfl⟩

theorem requestItem_of_fits {q : ApprovalRequest} (cases : List PreparationCase)
    (hcheckpoint : isCheckpoint q = true) (hrole : roleFits env context q = true) :
    ∃ item, requestItem env context cases q = some item := by
  unfold requestItem
  rw [hcheckpoint, hrole]
  exact ⟨_, rfl⟩

end DigitalWorker.Channels
