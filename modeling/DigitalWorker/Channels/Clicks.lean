import DigitalWorker.Channels.Engine
import DigitalWorker.Channels.ReceiptDesk
import DigitalWorker.Worker.Deliverable

/-! # Clicks on Slack cards

    A button is encoded by whoever sends its card, goes through the renderer, and comes
    back in a click with its action and its value. The service looks at the action up to
    the first colon, drops what it does not know, and decodes the value.
-/

namespace DigitalWorker.Channels

open Framework
open Worker (Block ButtonElement Card CardButton IntakeCard IntakeNotificationJob NotifierConfig
  PendingCheckpoint ProposedAddendum Rendering)

/-! ## The service -/

/-- `UUID(text)`. -/
def uuidOf (text : String) : Option Uuid :=
  if h : text = "" then none else some { text := text, nonempty := h }

@[simp] theorem uuidOf_text (id : Uuid) : uuidOf id.text = some id := dif_neg id.nonempty

/-- `value.partition(sep)`, without the separator. -/
def partitionAt (sep : Char) (value : String) : String × String :=
  (String.ofList (value.toList.takeWhile (· ≠ sep)),
    String.ofList ((value.toList.dropWhile (· ≠ sep)).drop 1))

theorem partitionAt_append {sep : Char} {first rest : String} (h : sep ∉ first.toList) :
    partitionAt sep (first ++ String.ofList (sep :: rest.toList)) = (first, rest) := by
  have hpass : ∀ c ∈ first.toList, decide (c ≠ sep) = true := by
    intro c hc
    rw [decide_eq_true_eq]
    rintro rfl
    exact h hc
  unfold partitionAt
  rw [String.toList_append, String.toList_ofList, List.takeWhile_append_of_pos hpass,
    List.dropWhile_append_of_pos hpass]
  simp

structure Click where
  type : String := "block_actions"
  actions : List (String × String)
  channel : String

/-- `known`. -/
def knownActions : List String :=
  ["dw01_chat_confirm", "dw01_chat_edit", "dw01_chat_pick", "dw01_intake_approve",
    "dw01_intake_reject", "dw01_cp_approve", "dw01_cp_reject", "dw01_cp4_confirm",
    "dw01_publish", "dw01_view_pr", "dw01_record_sub", "dw01_open_bids"]

def decisionOf : String → Option ActionId
  | "dw01_intake_approve" => some .intakeApprove
  | "dw01_intake_reject" => some .intakeReject
  | "dw01_cp_approve" => some .cpApprove
  | "dw01_cp_reject" => some .cpReject
  | "dw01_cp4_confirm" => some .cp4Confirm
  | "dw01_publish" => some .publish
  | "dw01_open_bids" => some .openBids
  | _ => none

inductive Clicked where
  | ignored
  | opens (url : String)
  /-- The text of the error is posted. -/
  | fails
  | previews (caseId : Uuid)
  /-- The channel waits for the bid of a supplier. -/
  | awaitsBid (caseId : Uuid) (supplier : String)
  | decides (result : Except Error Dispatch)
  | picks (conversationId : Uuid)
  | confirms (conversationId : Uuid)
  | edits (conversationId : Uuid)

def startReceiptUpload (value : String) : Clicked :=
  match uuidOf (partitionAt '|' value).1 with
  | none => .fails
  | some caseId =>
    let supplier := strip (partitionAt '|' value).2
    .awaitsBid caseId (if supplier = "" then "Nhà cung cấp" else supplier)

def handleAction (env : Env) (t : ChatTurn) (s : Workspace) (action value : String) : Clicked :=
  if action = "dw01_view_pr" then ((uuidOf value).map .previews).getD .fails
  else if action = "dw01_record_sub" then startReceiptUpload value
  else match decisionOf action with
    | some decision => .decides (dispatch env t s decision value)
    | none =>
      match uuidOf value with
      | none => .ignored
      | some id =>
        if action = "dw01_chat_pick" then .picks id
        else if action = "dw01_chat_confirm" then .confirms id
        else .edits id

/-- `_handle_interactive`; `who` is what the member resolves to. -/
def handleInteractive (env : Env) (who : Option ChatTurn) (s : Workspace) (click : Click) :
    Clicked :=
  if click.type ≠ "block_actions" then .ignored
  else match click.actions with
    | [] => .ignored
    | (actionId, value) :: _ =>
      let action := (partitionAt ':' actionId).1
      if action ∉ knownActions then .ignored
      else match who with
        | none => .ignored
        | some t => if click.channel = "" then .ignored else handleAction env t s action value

structure CardCase (s : Workspace) where
  id : Uuid
  stored : ∃ w ∈ s.worlds, w.db.case.id = id
  plain : '|' ∉ id.text.toList

inductive SlackCard where
  | intake (intake : IntakeCard)
  | checkpoint (title : String) (checkpoint : PendingCheckpoint) (lines : List String)
  /-- The receipt card of `AutoPublishPreparationHandler`, with the names on the shortlist. -/
  | published (title : String) (shortlist : List String)
  /-- The receipt card as the service posts it anew. -/
  | receiptDesk (text : DeskText) (case : ReceiptCase) (pending : Option String)
  | proposal (title : String) (command : ProposedAddendum)
  /-- `confirm_card`. -/
  | confirm (conversationId : Uuid) (text : String) (summary : List String)
  /-- `case_options`. -/
  | pick (text : String) (options : List (Uuid × String))

def recordButton (caseId : Uuid) (n : String × Nat) : CardButton :=
  { actionId := "dw01_record_sub:" ++ toString n.2, label := n.1 ++ " đã nộp"
    value := caseId.text ++ "|" ++ n.1 }

def recordElement (caseId : Uuid) (n : String × Nat) : ButtonElement :=
  { text := (recordButton caseId n).label, actionId := (recordButton caseId n).actionId
    value := some (recordButton caseId n).value }

/-- The names of `AutoPublishPreparationHandler`. -/
def publishedNames (shortlist : List String) : List String :=
  shortlist.filter (fun name => strip name ≠ "")

def publishedPlaces (shortlist : List String) : List (String × Nat) :=
  ((publishedNames shortlist).take 4).zipIdx

/-- The suppliers of `_receipt_desk_blocks` that have a button. -/
def deskPlaces (state : ReceiptState) (pending : Option String) : List (String × Nat) :=
  state.suppliers.zipIdx.filter (fun n => n.1 ∉ state.recorded ∧ some n.1 ≠ pending)

def SlackCard.queued (caseId : Uuid) : SlackCard → Option Card
  | .intake c => some (.approvalRequested c)
  | .checkpoint title cp lines => some (.cpApprovalRequested title cp lines)
  | .published title shortlist => some (.runProgress title "Tiếp nhận hồ sơ dự thầu"
      ["RFQ đã phát hành tới " ++ toString (max (publishedNames shortlist).length 1) ++
        " nhà cung cấp.",
        "Khi nhận hồ sơ dự thầu: bấm nút của nhà cung cấp " ++
          "rồi thả FILE hồ sơ vào DM — mình lưu bản chính thức và lập biên nhận.",
        "Nút Chốt sổ & mở thầu sẽ hiện khi có ít nhất 1 hồ sơ được ghi nhận."]
      (some ((publishedPlaces shortlist).map (recordButton caseId))))
  | .proposal title command => some (command.card caseId title)
  | .receiptDesk .. | .confirm .. | .pick .. => none

def receiptDeskBlocks (caseId : Uuid) (state : ReceiptState) (pending : Option String) :
    List Block :=
  let line (name : String) : Option String :=
    if name ∈ state.recorded then some ("✅ " ++ name ++ " — đã nhận hồ sơ.")
    else if some name = pending then
      some ("⏳ " ++ name ++ " — đang chờ file HSDT, thả file vào DM này.")
    else none
  let buttons : List ButtonElement :=
    (deskPlaces state pending).map (recordElement caseId) ++
    (if state.recorded ≠ [] then
      [{ text := "Chốt sổ & mở thầu", actionId := "dw01_open_bids", value := some caseId.text
         style := some "primary" }]
    else [])
  [.body "*Tiếp nhận hồ sơ dự thầu*",
    .body ("*" ++ state.title ++ "*" ++
      String.join ((state.suppliers.filterMap line).map ("\n" ++ ·)))] ++
  (if buttons ≠ [] then [.actions buttons] else []) ++
  [.note (if state.recorded ≠ [] then
      "Đã nhận " ++ toString state.recorded.dedup.length ++ "/" ++
        toString state.suppliers.length ++ " hồ sơ."
    else "Nút Chốt sổ & mở thầu sẽ hiện khi có ít nhất 1 hồ sơ được ghi nhận.")]

def SlackCard.blocks (config : NotifierConfig) (rendering : Rendering)
    (job : IntakeNotificationJob) (member : String) (caseId : Uuid) : SlackCard → List Block
  | .receiptDesk text case pending => receiptDeskBlocks caseId (receiptState text case) pending
  | .confirm conversationId text summary =>
    [.body ("*" ++ text ++ "*"), .body ("\n".intercalate summary),
      .actions
        [{ text := "Tạo hồ sơ", actionId := "dw01_chat_confirm"
           value := some conversationId.text, style := some "primary" },
         { text := "Sửa thông tin", actionId := "dw01_chat_edit"
           value := some conversationId.text }]]
  | .pick text options =>
    [.body text, .actions (options.map (fun o =>
      { text := take o.2 70, actionId := "dw01_chat_pick", value := some o.1.text }))]
  | card =>
    ((card.queued caseId).bind (fun queued =>
      (Worker.messageOf config rendering
        { job with
          caseId := caseId, eventType := queued.eventType, payload := queued.payload caseId }
        member).bind (Worker.renderSlack rendering))).elim [] Prod.snd

/-! ## What the buttons stand for -/

inductive Operation where
  | openCase (caseId : Uuid)
  | verifyIntake (caseId : Uuid)
  | rejectIntake (caseId : Uuid)
  | viewPr (caseId : Uuid)
  | decide (checkpoint : PendingCheckpoint) (approve : Bool) (caseId : Uuid)
  | confirmCp4 (caseId : Uuid)
  | recordBid (caseId : Uuid) (supplier : String)
  | openBids (caseId : Uuid)
  | fileAddendum (caseId : Uuid) (command : ProposedAddendum)
  | dismissAddendum (caseId : Uuid)
  | confirm (conversationId : Uuid)
  | edit (conversationId : Uuid)
  | pick (conversationId : Uuid)

def SlackCard.offers (caseId : Uuid) : SlackCard → List Operation
  | .intake _ => [.verifyIntake caseId, .rejectIntake caseId, .viewPr caseId, .openCase caseId]
  | .checkpoint _ .cp4 _ => [.confirmCp4 caseId, .openCase caseId]
  | .checkpoint _ cp _ => [.decide cp true caseId, .decide cp false caseId, .openCase caseId]
  | .published _ shortlist =>
    (publishedPlaces shortlist).map (fun n => .recordBid caseId n.1) ++ [.openCase caseId]
  | .receiptDesk text case pending =>
    (deskPlaces (receiptState text case) pending).map (fun n => .recordBid caseId n.1) ++
      (if (receiptState text case).recorded ≠ [] then [.openBids caseId] else [])
  | .proposal _ command =>
    [.fileAddendum caseId command, .dismissAddendum caseId, .openCase caseId]
  | .confirm conversationId _ _ => [.confirm conversationId, .edit conversationId]
  | .pick _ options => options.map (fun o => .pick o.1)

def checkpointName : PendingCheckpoint → String
  | .cp1 => "cp1"
  | .cp2 => "cp2"
  | .cp3 => "cp3"
  | .cp4 => "cp4"

def WaitsFor (env : Env) (cp : PendingCheckpoint) (caseId : Uuid) (q : ApprovalRequest) : Prop :=
  q.status = .pending ∧ q.approvalType = "preparation." ++ checkpointName cp ∧
    caseIdOf env q = caseId.text

def caseUrl (rendering : Rendering) (caseId : Uuid) : String :=
  String.ofList (rendering.webBaseUrl.toList.rdropWhile (· == '/')) ++
    "/procurement/dw01/cases/" ++ caseId.text

def CarriedOut (env : Env) (rendering : Rendering) (t : ChatTurn) (s : Workspace)
    (clicked : Clicked) : Operation → Prop
  | .openCase caseId => clicked = .opens (caseUrl rendering caseId)
  | .verifyIntake caseId => ∃ reference comment, clicked =
      .decides (.ok (.writes (.act caseId (.handle t.call (.verifyIntake reference comment)))))
  | .rejectIntake caseId => ∃ comment, clicked =
      .decides (.ok (.writes (.act caseId (.handle t.call (.rejectIntake comment "")))))
  | .viewPr caseId => clicked = .previews caseId
  | .decide .cp3 approve caseId => ∃ cmd, cmd.approve = approve ∧ clicked =
      .decides (.ok (.writes (.act caseId (.handle t.call (.decideCp3 cmd)))))
  | .decide cp approve caseId => (∃ q ∈ s.requests, WaitsFor env cp caseId q) →
      ∃ q ∈ s.requests, WaitsFor env cp caseId q ∧ ∃ cmd, cmd.approvalId = q.id ∧
        cmd.approve = approve ∧ clicked =
          .decides (.ok (.writes (.act caseId (.decide t.call cmd))))
  | .confirmCp4 caseId => ∃ cmd, clicked =
      .decides (.ok (.writes (.act caseId (.handle t.call (.completeCp4 cmd)))))
  | .recordBid caseId supplier => clicked = .awaitsBid caseId supplier
  | .openBids caseId => clicked =
      .decides (.ok (.writes (.act caseId (.handle t.call .requestCp4))))
  | .fileAddendum caseId command => ∃ cmd,
      cmd.changeSummary = take (strip command.changeSummary) 600 ∧
      cmd.impactSummary = take (strip command.impactSummary) 400 ∧
      cmd.extendBidsByDays = max 0 command.extendBidsByDays ∧ clicked =
        .decides (.ok (.writes (.act caseId (.handle t.call (.submitAddendum cmd)))))
  | .dismissAddendum _ => ∃ reply, clicked = .decides (.ok (.replies reply))
  | .confirm conversationId => clicked = .confirms conversationId
  | .edit conversationId => clicked = .edits conversationId
  | .pick conversationId => clicked = .picks conversationId

def clickOn (env : Env) (t : ChatTurn) (s : Workspace) (channel : String)
    (element : ButtonElement) : Clicked :=
  match element.url with
  | some url => .opens url
  | none => handleInteractive env (some t) s
      { actions := [(element.actionId, element.value.getD "")], channel := channel }

def DoesWhatItSays (env : Env) (config : NotifierConfig) (rendering : Rendering)
    (job : IntakeNotificationJob) (member : String) (t : ChatTurn) (s : Workspace)
    (case : CardCase s) (card : SlackCard) : Prop :=
  ∀ channel, channel ≠ "" → List.Forall₂
    (fun operation element =>
      CarriedOut env rendering t s (clickOn env t s channel element) operation)
    (card.offers case.id)
    ((card.blocks config rendering job member case.id).flatMap Block.elements)

def SlackCard.Works (env : Env) (s : Workspace) (caseId : Uuid) : SlackCard → Prop
  | .checkpoint _ .cp3 _ | .checkpoint _ .cp4 _ => True
  | .checkpoint _ cp _ => (∃ q ∈ s.requests, WaitsFor env cp caseId q) →
      ∃ q ∈ listedRequests s, WaitsFor env cp caseId q
  | .published _ shortlist => ∀ name ∈ (publishedNames shortlist).take 4, strip name = name
  | .proposal .. => False
  | _ => True

/-! ## Clicks on known actions -/

section

variable {env : Env} {t : ChatTurn} {s : Workspace} {channel : String} {case : CardCase s}
  {config : NotifierConfig} {rendering : Rendering} {job : IntakeNotificationJob}
  {member : String}

theorem clickOn_handled (hchannel : channel ≠ "") {element : ButtonElement} {action value : String}
    (haction : (partitionAt ':' element.actionId).1 = action) (hknown : action ∈ knownActions)
    (hvalue : element.value = some value) (hurl : element.url = none) :
    clickOn env t s channel element = handleAction env t s action value := by
  simp [clickOn, handleInteractive, haction, hknown, hvalue, hchannel, hurl]

theorem knownActions_plain : ∀ action ∈ knownActions, (partitionAt ':' action).1 = action := by
  decide

theorem clickOn_known (hchannel : channel ≠ "") {element : ButtonElement} {value : String}
    (hknown : element.actionId ∈ knownActions) (hvalue : element.value = some value)
    (hurl : element.url = none) :
    clickOn env t s channel element = handleAction env t s element.actionId value :=
  clickOn_handled hchannel (knownActions_plain _ hknown) hknown hvalue hurl

theorem clickOn_decision (hchannel : channel ≠ "") {element : ButtonElement}
    {decision : ActionId} {value : String} (hdecision : decisionOf element.actionId = some decision)
    (hvalue : element.value = some value) (hurl : element.url = none) :
    clickOn env t s channel element = .decides (dispatch env t s decision value) := by
  have hknown : element.actionId ∈ knownActions ∧ element.actionId ≠ "dw01_view_pr" ∧
      element.actionId ≠ "dw01_record_sub" := by
    generalize element.actionId = action at hdecision
    unfold decisionOf at hdecision
    split at hdecision <;> first | decide | cases hdecision
  rw [clickOn_known hchannel hknown.1 hvalue hurl, handleAction, if_neg hknown.2.1,
    if_neg hknown.2.2, hdecision]

theorem caseNamed_stored (case : CardCase s) :
    ∃ w, caseNamed s case.id.text = some w ∧ w.db.case.id = case.id := by
  obtain ⟨w, hw, hid⟩ := case.stored
  have hsome : (caseNamed s case.id.text).isSome := by
    rw [caseNamed, List.find?_isSome]
    exact ⟨w, hw, by simp [hid]⟩
  obtain ⟨w', hw'⟩ := Option.isSome_iff_exists.mp hsome
  have htext : w'.db.case.id.text = case.id.text := by simpa using List.find?_some hw'
  refine ⟨w', hw', ?_⟩
  cases hw'id : w'.db.case.id
  cases hcase : case.id
  simp_all

theorem onCase_stored (case : CardCase s) (h : Handler) :
    onCase t s case.id.text h = .ok (.writes (.act case.id (.handle t.call h))) := by
  obtain ⟨w, hw, hid⟩ := caseNamed_stored case
  simp only [onCase, hw, hid]

/-! ## A bid -/

theorem clickOn_record (hchannel : channel ≠ "") (n : String × Nat) :
    clickOn env t s channel (recordElement case.id n) =
      .awaitsBid case.id (if strip n.1 = "" then "Nhà cung cấp" else strip n.1) := by
  have haction : (partitionAt ':' (recordElement case.id n).actionId).1 = "dw01_record_sub" := by
    have hid : (recordElement case.id n).actionId =
        "dw01_record_sub" ++ String.ofList (':' :: (toString n.2).toList) := by
      apply String.toList_injective
      simp [recordElement, recordButton]
    rw [hid, partitionAt_append (by decide)]
  have hvalue : (recordButton case.id n).value =
      case.id.text ++ String.ofList ('|' :: n.1.toList) := by
    apply String.toList_injective
    simp [recordButton]
  have hupload : handleAction env t s "dw01_record_sub" (recordButton case.id n).value =
      startReceiptUpload (recordButton case.id n).value := rfl
  rw [clickOn_handled hchannel haction (by decide) rfl rfl, hupload, startReceiptUpload, hvalue,
    partitionAt_append case.plain, uuidOf_text]

theorem findPendingApproval_iff {cp : PendingCheckpoint} {caseId : Uuid} :
    (∃ q ∈ listedRequests s, WaitsFor env cp caseId q) ↔
      ∃ q, findPendingApproval env s (checkpointName cp) caseId = some q := by
  rw [← Option.isSome_iff_exists, findPendingApproval, List.find?_isSome]
  refine exists_congr (fun q => and_congr_right (fun hq => ?_))
  simp [WaitsFor, (listPending_mem hq).2]

theorem findPendingApproval_waits {cp : PendingCheckpoint} {caseId : Uuid} {q : ApprovalRequest}
    (h : findPendingApproval env s (checkpointName cp) caseId = some q) :
    q ∈ s.requests ∧ WaitsFor env cp caseId q := by
  obtain ⟨hmem, hpending⟩ := listPending_mem (List.mem_of_find?_eq_some h)
  have hfound := List.find?_some h
  simp only [Bool.and_eq_true, beq_iff_eq] at hfound
  exact ⟨hmem, hpending, hfound.1, hfound.2⟩

theorem onCheckpoint_stored (case : CardCase s) (cp : PendingCheckpoint) (approve : Bool) :
    onCheckpoint env t s approve (checkpointName cp ++ ":" ++ case.id.text) =
      if cp = .cp3 then
        .ok (.writes (.act case.id (.handle t.call (.decideCp3
          { approve := approve, approvalReference := t.reference
            comment := "Quyết định " ++ t.via, sent := t.sent }))))
      else match findPendingApproval env s (checkpointName cp) case.id with
        | none => .ok (.replies ("⚠️ Không còn yêu cầu phê duyệt đang chờ cho checkpoint này " ++
            "(có thể đã được quyết định)."))
        | some q => .ok (.writes (.act case.id (.decide t.call
            { approvalId := q.id, approve := approve, comment := "Quyết định " ++ t.via }))) := by
  obtain ⟨w, hw, hid⟩ := caseNamed_stored case
  have hpartition : partitionColon (checkpointName cp ++ ":" ++ case.id.text) =
      (checkpointName cp, case.id.text) := partitionColon_append (by cases cp <;> decide)
  unfold onCheckpoint
  simp only [hpartition, hw, hid]
  cases cp <;> rfl

theorem clickOn_checkpoint (hchannel : channel ≠ "") {element : ButtonElement}
    (cp : PendingCheckpoint) (approve : Bool)
    (haction : element.actionId = if approve then "dw01_cp_approve" else "dw01_cp_reject")
    (hvalue : element.value = some (checkpointName cp ++ ":" ++ case.id.text))
    (hurl : element.url = none) :
    clickOn env t s channel element =
      .decides (onCheckpoint env t s approve (checkpointName cp ++ ":" ++ case.id.text)) := by
  cases approve with
  | false => exact clickOn_decision hchannel (by rw [haction]; rfl) hvalue hurl
  | true => exact clickOn_decision hchannel (by rw [haction]; rfl) hvalue hurl

theorem handleAction_viewPr (id : Uuid) :
    handleAction env t s "dw01_view_pr" id.text = .previews id := by
  simp [handleAction]

theorem handleAction_chat (id : Uuid) :
    handleAction env t s "dw01_chat_pick" id.text = .picks id ∧
      handleAction env t s "dw01_chat_confirm" id.text = .confirms id ∧
      handleAction env t s "dw01_chat_edit" id.text = .edits id := by
  simp [handleAction, decisionOf]

/-! ## What is shown -/

theorem blocks_queued {card : SlackCard} (queued : Card) (h : card.queued case.id = some queued) :
    card.blocks config rendering job member case.id =
      (Worker.renderSlack rendering (queued.message rendering
        { job with
          caseId := case.id, eventType := queued.eventType, payload := queued.payload case.id }
        member)).elim [] Prod.snd := by
  have hmessage : ∀ r : IntakeNotificationJob, queued.Carried r →
      Worker.messageOf config rendering r member = some (queued.message rendering r member) :=
    fun _ hr => Worker.messageOf_carried hr
  have hblocks : card.blocks config rendering job member case.id =
      ((card.queued case.id).bind (fun queued =>
        (Worker.messageOf config rendering
          { job with
            caseId := case.id, eventType := queued.eventType
            payload := queued.payload case.id }
          member).bind (Worker.renderSlack rendering))).elim [] Prod.snd := by
    cases card <;> first | rfl | cases h
  rw [hblocks, h, Option.bind_some, hmessage _ ⟨rfl, rfl⟩, Option.bind_some]

theorem elements_bodyBlocks (title : String) (lines : List String) :
    (Worker.bodyBlocks title lines).flatMap Block.elements = [] := by
  simp [Worker.bodyBlocks, Block.elements]

theorem elements_lines {heading title : String} {lines : List String} {rest : List Block} :
    (.body heading :: Worker.bodyBlocks title lines ++ rest).flatMap Block.elements =
      rest.flatMap Block.elements := by
  rw [List.cons_append, List.flatMap_cons, List.flatMap_append, elements_bodyBlocks]
  rfl

theorem intake_works (c : IntakeCard) :
    DoesWhatItSays env config rendering job member t s case (.intake c) := by
  intro channel hchannel
  rw [blocks_queued (.approvalRequested c) rfl]
  refine .cons ⟨t.reference, "Xác minh " ++ t.via, ?_⟩
    (.cons ⟨"Từ chối " ++ t.via, ?_⟩ (.cons ?_ (.cons rfl .nil)))
  · rw [clickOn_decision hchannel rfl rfl rfl]
    exact congrArg Clicked.decides (onCase_stored case _)
  · rw [clickOn_decision hchannel rfl rfl rfl]
    exact congrArg Clicked.decides (onCase_stored case _)
  · exact (clickOn_known hchannel (by simp [knownActions]) rfl rfl).trans (handleAction_viewPr case.id)

theorem lower_text (rendering : Rendering) (cp : PendingCheckpoint) :
    rendering.lower cp.text = checkpointName cp := by
  rw [rendering.lower_ascii cp.text (by cases cp <;> decide)]
  cases cp <;> decide

theorem elements_checkpoint (config : NotifierConfig) (rendering : Rendering)
    (job : IntakeNotificationJob) (member : String) (case : CardCase s) (title : String)
    (cp : PendingCheckpoint) (lines : List String) :
    ∃ link, link.url = some (caseUrl rendering case.id) ∧
      ((SlackCard.checkpoint title cp lines).blocks config rendering job member case.id).flatMap
          Block.elements =
        Worker.decisionElements rendering cp.text case.id ++ [link] := by
  rw [blocks_queued (.cpApprovalRequested title cp lines) rfl]
  cases cp <;> exact ⟨_, rfl, elements_lines.trans (List.append_nil _)⟩

theorem decided_iff (cp : PendingCheckpoint) (approve : Bool) (caseId : Uuid) (reply : String) :
    ((∃ q ∈ s.requests, WaitsFor env cp caseId q) →
      ∃ q ∈ s.requests, WaitsFor env cp caseId q ∧ ∃ cmd, cmd.approvalId = q.id ∧
        cmd.approve = approve ∧
        Clicked.decides (match findPendingApproval env s (checkpointName cp) caseId with
          | none => .ok (.replies reply)
          | some q => .ok (.writes (.act caseId (.decide t.call
            { approvalId := q.id, approve := approve, comment := "Quyết định " ++ t.via })))) =
          .decides (.ok (.writes (.act caseId (.decide t.call cmd))))) ↔
      ((∃ q ∈ s.requests, WaitsFor env cp caseId q) →
        ∃ q ∈ listedRequests s, WaitsFor env cp caseId q) := by
  rw [findPendingApproval_iff]
  refine imp_congr_right (fun _ => ?_)
  cases hfound : findPendingApproval env s (checkpointName cp) caseId with
  | none =>
    refine ⟨?_, fun h => absurd h.choose_spec (by simp)⟩
    rintro ⟨q, -, -, cmd, -, -, h⟩
    cases h
  | some q =>
    obtain ⟨hmem, hwaits⟩ := findPendingApproval_waits hfound
    exact ⟨fun _ => ⟨q, rfl⟩, fun _ => ⟨q, hmem, hwaits, _, rfl, rfl, rfl⟩⟩

theorem checkpoint_carried_iff (title : String) {cp : PendingCheckpoint} (lines : List String)
    (hcp : cp ≠ .cp4) :
    DoesWhatItSays env config rendering job member t s case (.checkpoint title cp lines) ↔
      ∀ approve, CarriedOut env rendering t s
        (.decides (onCheckpoint env t s approve (checkpointName cp ++ ":" ++ case.id.text)))
        (.decide cp approve case.id) := by
  obtain ⟨link, hlink, helements⟩ :=
    elements_checkpoint config rendering job member case title cp lines
  have hoffers : (SlackCard.checkpoint title cp lines).offers case.id =
      [.decide cp true case.id, .decide cp false case.id, .openCase case.id] := by
    cases cp <;> first | rfl | exact absurd rfl hcp
  have hbuttons : Worker.decisionElements rendering cp.text case.id =
      [{ text := "✅ Duyệt " ++ cp.text, actionId := "dw01_cp_approve"
         value := some (checkpointName cp ++ ":" ++ case.id.text), style := some "primary" },
       { text := "❌ Từ chối", actionId := "dw01_cp_reject"
         value := some (checkpointName cp ++ ":" ++ case.id.text), style := some "danger" }] := by
    rw [← lower_text rendering cp]
    cases cp <;> first | rfl | exact absurd rfl hcp
  have hclick : ∀ channel, clickOn env t s channel link = .opens (caseUrl rendering case.id) := by
    intro channel
    rw [clickOn, hlink]
  unfold DoesWhatItSays
  rw [hoffers, helements, hbuttons]
  constructor
  · intro h approve
    have hchannel : "D" ≠ "" := by decide
    cases h "D" hchannel with
    | cons happrove hrest =>
      cases hrest with
      | cons hreject _ =>
        cases approve with
        | false => rwa [clickOn_checkpoint hchannel cp false rfl rfl rfl] at hreject
        | true => rwa [clickOn_checkpoint hchannel cp true rfl rfl rfl] at happrove
  · intro h channel hchannel
    refine .cons ?_ (.cons ?_ (.cons (hclick channel) .nil))
    · rw [clickOn_checkpoint hchannel cp true rfl rfl rfl]
      exact h true
    · rw [clickOn_checkpoint hchannel cp false rfl rfl rfl]
      exact h false

theorem request_works_iff (title : String) {cp : PendingCheckpoint} (lines : List String)
    (hcp : cp = .cp1 ∨ cp = .cp2) :
    DoesWhatItSays env config rendering job member t s case (.checkpoint title cp lines) ↔
      ((∃ q ∈ s.requests, WaitsFor env cp case.id q) →
        ∃ q ∈ listedRequests s, WaitsFor env cp case.id q) := by
  have hnot : cp ≠ .cp3 ∧ cp ≠ .cp4 := by rcases hcp with rfl | rfl <;> decide
  rw [checkpoint_carried_iff title lines hnot.2]
  simp only [onCheckpoint_stored, if_neg hnot.1]
  have hcarried : ∀ approve clicked, CarriedOut env rendering t s clicked
      (.decide cp approve case.id) ↔ ((∃ q ∈ s.requests, WaitsFor env cp case.id q) →
        ∃ q ∈ s.requests, WaitsFor env cp case.id q ∧ ∃ cmd, cmd.approvalId = q.id ∧
          cmd.approve = approve ∧ clicked =
            .decides (.ok (.writes (.act case.id (.decide t.call cmd))))) := by
    intro approve clicked
    rcases hcp with rfl | rfl <;> exact Iff.rfl
  simp only [hcarried, decided_iff, forall_const]

theorem checkpoint_works_iff (title : String) (cp : PendingCheckpoint) (lines : List String) :
    DoesWhatItSays env config rendering job member t s case (.checkpoint title cp lines) ↔
      (SlackCard.checkpoint title cp lines).Works env s case.id := by
  cases cp with
  | cp1 => exact request_works_iff title lines (.inl rfl)
  | cp2 => exact request_works_iff title lines (.inr rfl)
  | cp3 =>
    refine iff_of_true ((checkpoint_carried_iff title lines (by decide)).mpr ?_) trivial
    intro approve
    rw [onCheckpoint_stored, if_pos rfl]
    exact ⟨_, rfl, rfl⟩
  | cp4 =>
    refine iff_of_true ?_ trivial
    intro channel hchannel
    obtain ⟨link, hlink, helements⟩ :=
      elements_checkpoint config rendering job member case title .cp4 lines
    rw [helements]
    refine .cons ?_ (.cons ?_ .nil)
    · obtain ⟨cmd, hcmd⟩ : ∃ cmd, dispatch env t s .cp4Confirm case.id.text =
          .ok (.writes (.act case.id (.handle t.call (.completeCp4 cmd)))) :=
        ⟨_, onCase_stored case _⟩
      exact ⟨cmd, (clickOn_decision hchannel rfl rfl rfl).trans (congrArg Clicked.decides hcmd)⟩
    · show clickOn _ _ _ _ _ = _
      rw [clickOn, hlink]

theorem recordBid_iff {n : String × Nat} (hname : strip n.1 ≠ "") (hchannel : channel ≠ "") :
    CarriedOut env rendering t s
        (clickOn env t s channel (recordElement case.id n)) (.recordBid case.id n.1) ↔
      strip n.1 = n.1 := by
  rw [clickOn_record hchannel, if_neg hname]
  simp [CarriedOut]

theorem receiptState_stripped {text : DeskText} {receipt : ReceiptCase} {name : String}
    (h : name ∈ (receiptState text receipt).suppliers) : strip name = name ∧ name ≠ "" := by
  unfold receiptState at h
  dsimp only at h
  split at h
  · cases h
  · obtain ⟨hmem, hne⟩ := List.mem_filter.mp h
    obtain ⟨item, -, rfl⟩ := List.mem_map.mp hmem
    exact ⟨strip_strip _, by simpa using hne⟩

theorem elements_receiptDesk (caseId : Uuid) (state : ReceiptState) (pending : Option String) :
    (receiptDeskBlocks caseId state pending).flatMap Block.elements =
      (deskPlaces state pending).map (recordElement caseId) ++
      (if state.recorded ≠ [] then
        [{ text := "Chốt sổ & mở thầu", actionId := "dw01_open_bids", value := some caseId.text
           style := some "primary" }]
      else []) := by
  have hactions : ∀ buttons : List ButtonElement,
      (if buttons ≠ [] then [Block.actions buttons] else []).flatMap Block.elements =
        buttons := by
    intro buttons
    by_cases hnone : buttons = [] <;> simp [hnone, Block.elements]
  unfold receiptDeskBlocks
  simp only [List.flatMap_append, hactions]
  simp [Block.elements]

theorem receiptDesk_works (text : DeskText) (receipt : ReceiptCase) (pending : Option String) :
    DoesWhatItSays env config rendering job member t s case
      (.receiptDesk text receipt pending) := by
  intro channel hchannel
  show List.Forall₂ _ _ ((receiptDeskBlocks case.id (receiptState text receipt) pending).flatMap
    Block.elements)
  rw [elements_receiptDesk]
  refine List.rel_append ?_ ?_
  · rw [List.forall₂_map_left_iff, List.forall₂_map_right_iff, List.forall₂_same]
    intro n hn
    obtain ⟨hplace, -⟩ := List.mem_filter.mp hn
    obtain ⟨hstrip, hne⟩ := receiptState_stripped (List.fst_mem_of_mem_zipIdx hplace)
    exact (recordBid_iff (by rw [hstrip]; exact hne) hchannel).mpr hstrip
  · by_cases hrecorded : (receiptState text receipt).recorded ≠ []
    · rw [if_pos hrecorded, if_pos hrecorded]
      refine .cons ?_ .nil
      show clickOn _ _ _ _ _ = _
      rw [clickOn_decision hchannel rfl rfl rfl]
      exact congrArg Clicked.decides (onCase_stored case _)
    · rw [if_neg hrecorded, if_neg hrecorded]
      exact .nil

theorem elements_published (config : NotifierConfig) (rendering : Rendering)
    (job : IntakeNotificationJob) (member : String) (case : CardCase s) (title : String)
    (shortlist : List String) :
    ∃ link, link.url = some (caseUrl rendering case.id) ∧
      ((SlackCard.published title shortlist).blocks config rendering job member case.id).flatMap
          Block.elements =
        (publishedPlaces shortlist).map (recordElement case.id) ++ [link] := by
  have hbuttons : ∀ message : Worker.SlackApprovalMessage,
      message.buttons =
        ((publishedPlaces shortlist).map (recordButton case.id)).map CardButton.fields →
      Worker.actionButtons message = (publishedPlaces shortlist).map (recordElement case.id) := by
    intro message hmessage
    rw [Worker.actionButtons, hmessage, List.map_map, List.map_map]
    rfl
  have helements : ∀ message : Worker.SlackApprovalMessage,
      message.webUrl = caseUrl rendering case.id →
      message.eventType = .intake .runProgress → message.buttons =
        ((publishedPlaces shortlist).map (recordButton case.id)).map CardButton.fields →
      ∃ link, link.url = some (caseUrl rendering case.id) ∧
        ((Worker.renderSlack rendering message).elim [] Prod.snd).flatMap Block.elements =
          (publishedPlaces shortlist).map (recordElement case.id) ++ [link] := by
    intro message hurl hevent hmessage
    refine ⟨Worker.linkButton message, congrArg some hurl, ?_⟩
    rw [Worker.renderSlack, hevent]
    exact elements_lines.trans ((List.append_nil _).trans
      (congrArg (· ++ [Worker.linkButton message]) (hbuttons message hmessage)))
  rw [blocks_queued _ rfl]
  exact helements _ rfl rfl rfl

theorem published_works_iff (title : String) (shortlist : List String) :
    DoesWhatItSays env config rendering job member t s case (.published title shortlist) ↔
      ∀ name ∈ (publishedNames shortlist).take 4, strip name = name := by
  obtain ⟨link, hlink, helements⟩ :=
    elements_published config rendering job member case title shortlist
  have hrecord : ∀ channel, channel ≠ "" → (List.Forall₂
      (fun operation element =>
        CarriedOut env rendering t s (clickOn env t s channel element) operation)
      ((publishedPlaces shortlist).map (fun n => Operation.recordBid case.id n.1))
      ((publishedPlaces shortlist).map (recordElement case.id)) ↔
        ∀ n ∈ publishedPlaces shortlist, strip n.1 = n.1) := by
    intro channel hchannel
    rw [List.forall₂_map_left_iff, List.forall₂_map_right_iff, List.forall₂_same]
    refine forall₂_congr (fun n hn => recordBid_iff ?_ hchannel)
    have hmem := List.mem_of_mem_take (List.fst_mem_of_mem_zipIdx hn)
    simpa using (List.mem_filter.mp hmem).2
  have hnames : (∀ name ∈ (publishedNames shortlist).take 4, strip name = name) ↔
      ∀ n ∈ publishedPlaces shortlist, strip n.1 = n.1 := by
    have hplaces : (publishedNames shortlist).take 4 =
        (publishedPlaces shortlist).map Prod.fst := by
      rw [publishedPlaces, List.zipIdx_map_fst]
    rw [hplaces, List.forall_mem_map]
  unfold DoesWhatItSays
  rw [helements, hnames]
  constructor
  · intro h
    have hall := h "D" (by decide)
    have hinit := List.forall₂_take ((publishedPlaces shortlist).map
      (fun n => Operation.recordBid case.id n.1)).length hall
    rw [SlackCard.offers, List.take_left, List.length_map,
      List.take_left' (by simp)] at hinit
    exact (hrecord "D" (by decide)).mp hinit
  · intro h channel hchannel
    refine List.rel_append ((hrecord channel hchannel).mpr h) (.cons ?_ .nil)
    show clickOn _ _ _ _ _ = _
    rw [clickOn, hlink]

theorem pick_works (text : String) (options : List (Uuid × String)) :
    DoesWhatItSays env config rendering job member t s case (.pick text options) := by
  intro channel hchannel
  show List.Forall₂ _ (options.map _) ((options.map _) ++ [])
  rw [List.append_nil, List.forall₂_map_left_iff, List.forall₂_map_right_iff, List.forall₂_same]
  intro o _
  exact (clickOn_known hchannel (by simp [knownActions]) rfl rfl).trans (handleAction_chat o.1).1

theorem confirm_works (id : Uuid) (text : String) (summary : List String) :
    DoesWhatItSays env config rendering job member t s case (.confirm id text summary) := by
  intro channel hchannel
  refine .cons ?_ (.cons ?_ .nil)
  · exact (clickOn_known hchannel (by simp [knownActions]) rfl rfl).trans (handleAction_chat id).2.1
  · exact (clickOn_known hchannel (by simp [knownActions]) rfl rfl).trans (handleAction_chat id).2.2

theorem proposal_fails (title : String) (command : ProposedAddendum) :
    ¬ DoesWhatItSays env config rendering job member t s case (.proposal title command) := by
  intro h
  have hchannel := h "D" (by decide)
  rw [blocks_queued (command.card case.id title) rfl] at hchannel
  cases hchannel

theorem clickOn_unknown {element : ButtonElement}
    (haction : (partitionAt ':' element.actionId).1 ∉ knownActions) (hurl : element.url = none) :
    clickOn env t s channel element = .ignored := by
  simp [clickOn, handleInteractive, haction, hurl]

end

/-- **Clicks**: the cards that do what they say are those whose request is listed, whose
    names are not padded, and that do not propose an addendum. -/
theorem does_what_it_says_iff (env : Env) (config : NotifierConfig) (rendering : Rendering)
    (job : IntakeNotificationJob) (member : String) (t : ChatTurn) (s : Workspace)
    (case : CardCase s) (card : SlackCard) :
    DoesWhatItSays env config rendering job member t s case card ↔
      card.Works env s case.id := by
  cases card with
  | intake c => exact iff_of_true (intake_works c) trivial
  | checkpoint title cp lines => exact checkpoint_works_iff title cp lines
  | published title shortlist => exact published_works_iff title shortlist
  | receiptDesk text receipt pending =>
    exact iff_of_true (receiptDesk_works text receipt pending) trivial
  | proposal title command => exact iff_of_false (proposal_fails title command) id
  | confirm id text summary => exact iff_of_true (confirm_works id text summary) trivial
  | pick text options => exact iff_of_true (pick_works text options) trivial

/-! ## A proposal -/

namespace ProposalCard

def published : World :=
  { Office.opened with
    db := { Office.opened.db with case := { Office.opened.db.case with state := .published } } }

def desk : Workspace := { directory := Office.directory, worlds := [published] }

def case : CardCase desk where
  id := published.db.case.id
  stored := ⟨published, List.mem_singleton_self _, rfl⟩
  plain := by decide +kernel

def notifier : NotifierConfig :=
  { users := fun _ => none, userMap := fun _ => none, repr := fun _ => "" }

def turn : ChatTurn :=
  { call := Office.call Office.binh, displayName := "Bình", stamp := "", openedAt := ""
    minutes := "", published := { messageId := "", sentTo := "", evidence := "-" }
    proposal := fun _ => .error (domainError "") }

def proposal : ProposedAddendum :=
  { changeSummary := "Gia hạn nộp hồ sơ", impactSummary := "", proposerName := "An"
    extendBidsByDays := 14 }

def button (actionId : String) : ButtonElement :=
  { text := "", actionId := actionId, value := some case.id.text }

/-- **Ignored**: the card of a proposal is not shown, and a click on either of its buttons
    would do nothing. -/
theorem ignored :
    ¬ DoesWhatItSays Office.env notifier Worker.Published.rendering
        (Worker.Published.job Worker.Published.progress) "U1" turn desk case
        (.proposal "Máy chủ" proposal) ∧
      clickOn Office.env turn desk "D1" (button "dw01_addendum_submit") = .ignored ∧
      clickOn Office.env turn desk "D1" (button "dw01_addendum_dismiss") = .ignored :=
  ⟨proposal_fails _ _, clickOn_unknown (by decide) rfl, clickOn_unknown (by decide) rfl⟩

end ProposalCard

end DigitalWorker.Channels
