import DigitalWorker.Worker.Messages

/-! # Which cards arrive

    Producers, the worker and the two notifiers agree on kinds of card and on
    payload keys by convention only. The cards are the payloads the producers
    write, with texts of any length; a card arrives when the first attempt at
    its job ends it and the reader sees every line of it.

    Zalo delivers every card. Slack delivers those of the kinds its renderer
    knows whose texts fit: a section is never taken apart inside a line.
-/

namespace DigitalWorker.Worker

open Framework

/-! ## What the producers put on cards -/

structure CardButton where
  actionId : String
  label : String
  value : String
  style : Option String := none
  deriving DecidableEq

def CardButton.fields (b : CardButton) : List (String × String) :=
  [("action_id", b.actionId), ("label", b.label), ("value", b.value)] ++
    b.style.toList.map (("style", ·))

inductive PendingCheckpoint where
  | cp1
  | cp2
  | cp3
  | cp4
  deriving DecidableEq

def PendingCheckpoint.text : PendingCheckpoint → String
  | cp1 => "CP1"
  | cp2 => "CP2"
  | cp3 => "CP3"
  | cp4 => "CP4"

def PendingCheckpoint.state : PendingCheckpoint → CaseState
  | cp1 => .cp1Pending
  | cp2 => .cp2Pending
  | cp3 => .cp3Pending
  | cp4 => .receivingBids

structure IntakeCard where
  title : String
  sourcePrRef : String
  ownerName : String
  procurementType : String
  businessDomain : String
  estimatedValueMinor : Int
  currency : String

inductive Card where
  /-- `SubmitPreparationIntakeHandler`, to the approver. -/
  | approvalRequested (intake : IntakeCard)
  /-- The reminder it queues with it. -/
  | approvalEscalated (intake : IntakeCard)
  /-- `VerifyPreparationIntakeHandler`. -/
  | approved (title approvalReference comment : String)
  /-- `RejectPreparationIntakeHandler`. -/
  | rejected (title comment : String)
  /-- `_notify_progress` and the handlers that report progress. -/
  | runProgress (title heading : String) (lines : List String)
      (buttons : Option (List CardButton))
  /-- `_notify_cp_approval` and the handlers that ask for CP3 and CP4. -/
  | cpApprovalRequested (title : String) (checkpoint : PendingCheckpoint) (lines : List String)
  /-- `ProposePreparationAddendumHandler`. -/
  | addendumProposed (title heading : String) (lines : List String) (buttons : List CardButton)
  /-- The alert of the law watch. -/
  | lawChangeDetected (title : String) (lines : List String) (articleRef : String)
      (before after : Option Int)
  /-- `SubmitExplanationHandler`. -/
  | supportRequired (explanationId : String) (lines : List String) (blockCount : Int)
  /-- `EscalateStaleExplanationsHandler`. -/
  | explanationEscalated (explanationId : String)

namespace Card

def eventType : Card → NotificationType
  | approvalRequested _ => .intake .approvalRequested
  | approvalEscalated _ => .intake .approvalEscalated
  | approved .. => .intake .approved
  | rejected .. => .intake .rejected
  | runProgress .. => .intake .runProgress
  | cpApprovalRequested .. => .intake .cpApprovalRequested
  | addendumProposed .. => .intake .addendumProposed
  | lawChangeDetected .. => .lawChangeDetected
  | supportRequired .. => .reworkSupportRequired
  | explanationEscalated _ => .reworkExplanationEscalated

def texts (lines : List String) : Json := .arr (lines.map .str)

def buttonList (buttons : List CardButton) : Json :=
  .arr ((buttons.map (fun b => b.fields.map (fun f => (f.1, Json.str f.2)))).map .obj)

def intakePayload (c : IntakeCard) : Dict :=
  [("title", .str c.title), ("source_pr_ref", .str c.sourcePrRef),
    ("owner_name", .str c.ownerName), ("procurement_type", .str c.procurementType),
    ("business_domain", .str c.businessDomain),
    ("estimated_value_minor", .num c.estimatedValueMinor), ("currency", .str c.currency)]

/-- `null` for a missing number. -/
def numOrNull : Option Int → Json
  | some n => .num n
  | none => .null

def payload (caseId : Uuid) : Card → Dict
  | approvalRequested c => intakePayload c
  | approvalEscalated c => intakePayload c
  | approved title reference comment =>
    [("title", .str title), ("approval_reference", .str reference), ("comment", .str comment)]
  | rejected title comment => [("title", .str title), ("comment", .str comment)]
  | runProgress title heading lines buttons =>
    [("title", .str title), ("heading", .str heading), ("lines", texts lines)] ++
      buttons.toList.map (fun bs => ("buttons", buttonList bs))
  | cpApprovalRequested title cp lines =>
    [("title", .str title), ("checkpoint", .str cp.text), ("lines", texts lines),
      ("case_id", .str caseId.text)]
  | addendumProposed title heading lines buttons =>
    [("title", .str title), ("heading", .str heading), ("case_id", .str caseId.text),
      ("lines", texts lines), ("buttons", buttonList buttons)]
  | lawChangeDetected title lines articleRef before after =>
    [("title", .str title), ("lines", texts lines), ("case_id", .str caseId.text),
      ("article_ref", .str articleRef), ("before", numOrNull before), ("after", numOrNull after)]
  | supportRequired explanationId lines blockCount =>
    [("explanation_id", .str explanationId), ("lines", texts lines),
      ("block_count", .num blockCount)]
  | explanationEscalated explanationId => [("explanation_id", .str explanationId)]

def lines : Card → List String
  | runProgress _ _ lines _ => lines
  | cpApprovalRequested _ _ lines => lines
  | addendumProposed _ _ lines _ => lines
  | lawChangeDetected _ lines _ _ _ => lines
  | supportRequired _ lines _ => lines
  | _ => []

structure Carried (card : Card) (r : IntakeNotificationJob) : Prop where
  event : r.eventType = card.eventType
  payload : r.payload = card.payload r.caseId

/-- The job as a producer enqueues it. A case identifier is a UUID, which prints
    as 36 characters. -/
structure Queued (card : Card) (r : IntakeNotificationJob) : Prop extends card.Carried r where
  status : r.status = .queued
  attempts : r.attempts = 0
  uuid : r.caseId.text.length = 36

def passed (state : CaseState) : Card → Bool
  | approvalRequested _ => state != .draft
  | approvalEscalated _ => state != .draft
  | cpApprovalRequested _ cp _ => state != cp.state
  | _ => false

end Card

/-- The part of `ProposeAddendumCommand` the card shows. -/
structure ProposedAddendum where
  changeSummary : String
  impactSummary : String
  proposerName : String
  extendBidsByDays : Int

/-- The card `ProposePreparationAddendumHandler.handle` sends. -/
def ProposedAddendum.card (caseId : Uuid) (caseTitle : String) (command : ProposedAddendum) :
    Card :=
  let change := strip command.changeSummary
  let impact := strip command.impactSummary
  let value := "\x7b\"case_id\": " ++ quoted caseId.text ++
    ", \"change\": " ++ quoted (take change 600) ++
    ", \"impact\": " ++ quoted (take impact 400) ++
    ", \"proposer\": " ++ quoted (take command.proposerName 80) ++
    ", \"extend_days\": " ++ toString command.extendBidsByDays ++ "\x7d"
  .addendumProposed caseTitle "📝 Đề nghị sửa đổi HSMT (từ người yêu cầu)"
    ["Người đề nghị: " ++ command.proposerName, "Nội dung: " ++ take change 300,
      "Ảnh hưởng (tự khai): " ++ orElse (take impact 200) "chưa nêu",
      "Bạn là bên mời thầu — quyết định có lập addendum hay không."]
    [{ actionId := "dw01_addendum_submit", label := "📝 Lập addendum & trình CP3"
       value := value, style := some "primary" },
     { actionId := "dw01_addendum_dismiss", label := "Bỏ qua đề nghị", value := caseId.text }]

/-! ## Arriving -/

def firstAttempt (config : NotifierConfig) (subject : String) (state : CaseState)
    (answer : SendAnswer) (now later : DateTime) (r : IntakeNotificationJob) :
    IntakeNotificationJob :=
  let delivery : IntakeNotificationDelivery :=
    { job := r.taken now, recipientSubject := subject, caseState := state }
  (deliver config delivery answer).record delivery.job later (r.claimed now)

def EndsAtOnce (card : Card) (state : CaseState) (r : IntakeNotificationJob) : Prop :=
  r.attempts = 1 ∧
    (r.status = .sent ∨ (r.status = .cancelled ∧ card.passed state = true))

def sections (blocks : List Block) : List String := blocks.filterMap Block.section?

def buttonValues (blocks : List Block) : List String :=
  (blocks.flatMap Block.elements).filterMap ButtonElement.value

def WithinLimits (blocks : List Block) : Prop :=
  (∀ s ∈ sections blocks, s.length ≤ 3000) ∧ ∀ v ∈ buttonValues blocks, v.length ≤ 2000

def isMemberId (member : String) : Bool := startsWith member "U" || startsWith member "W"

structure SlackApi.Accepts (slack : SlackApi) : Prop where
  opens : ∀ member, isMemberId member = true →
    ∃ channel, slack.openConversation member = .ok channel ∧ channel ≠ ""
  posts : ∀ post, WithinLimits post.blocks → ∃ ts, slack.postMessage post = .ok ts

def ZaloApi.Accepts (zalo : ZaloApi) : Prop :=
  ∀ chatId text, text ≠ "" → text.length ≤ 2000 → (zalo.sendMessage chatId text).isSome

structure ArrivesBySlack (rendering : Rendering) (card : Card) (state : CaseState)
    (r : IntakeNotificationJob) : Prop where
  ends : ∀ (config : NotifierConfig) (subject member : String) (slack : SlackApi)
    (now later : DateTime), config.userMap subject = some member → isMemberId member = true →
    slack.Accepts →
    EndsAtOnce card state (firstAttempt config subject state
      (answerOf config rendering (sendSlack rendering slack) (r.taken now) member) now later r)
  shows : ∀ (config : NotifierConfig) (member : String) (message : SlackApprovalMessage)
    (text : String) (blocks : List Block), card.passed state = false →
    messageOf config rendering r member = some message →
    renderSlack rendering message = some (text, blocks) →
    InOrder (card.lines.map String.toList) ("\n".intercalate (sections blocks)).toList ∧
      WithinLimits blocks

structure ArrivesByZalo (rendering : Rendering) (card : Card) (state : CaseState)
    (r : IntakeNotificationJob) : Prop where
  ends : ∀ (config : NotifierConfig) (subject chatId : String) (zalo : ZaloApi)
    (now later : DateTime), config.userMap subject = some chatId → chatId ≠ "" →
    zalo.Accepts →
    EndsAtOnce card state (firstAttempt config subject state
      (answerOf config rendering (sendZalo rendering zalo) (r.taken now) chatId) now later r)
  shows : ∀ (config : NotifierConfig) (chatId : String) (message : SlackApprovalMessage),
    messageOf config rendering r chatId = some message →
    InOrder (card.lines.map String.toList) (renderText rendering message).toList ∧
      ((splitForZalo (renderText rendering message)).flatMap String.toList).filter
          (fun c => !isLineBreak c) =
        (renderText rendering message).toList.filter (fun c => !isLineBreak c)

/-! ## What fits on Slack -/

def moneyLength (c : IntakeCard) : Nat := (money c.estimatedValueMinor c.currency).length

def bulletLength (line : String) : Nat :=
  if startsWith line ">" then line.length else line.length + 2

def Card.FitsSlack : Card → Prop
  | approvalRequested c =>
    c.title.length + max 1 c.ownerName.length + max 1 c.sourcePrRef.length + moneyLength c + 33 ≤
      3000
  | approvalEscalated c => c.title.length + 98 ≤ 3000
  | approved title _ _ => title.length + 31 ≤ 3000
  | rejected title comment =>
    title.length + (if comment = "" then 14 else comment.length) + 25 ≤ 3000
  | runProgress title heading lines buttons =>
    title.length + 2 ≤ 3000 ∧ heading.length + 2 ≤ 3000 ∧
      (∀ line ∈ lines, bulletLength line ≤ 3000) ∧
      ∀ b ∈ buttons.getD [], b.value.length ≤ 2000
  | cpApprovalRequested title _ lines =>
    title.length + 2 ≤ 3000 ∧ ∀ line ∈ lines, bulletLength line ≤ 3000
  | addendumProposed .. | lawChangeDetected .. | supportRequired .. | explanationEscalated _ =>
    False

/-! ## The message of a queued card -/

def Card.message (rendering : Rendering) (job : IntakeNotificationJob) (member : String)
    (card : Card) : SlackApprovalMessage :=
  let base : SlackApprovalMessage :=
    { messageId := job.id, recipientSlackUserId := member, eventType := card.eventType
      caseId := job.caseId, caseTitle := "Hồ sơ DW01", lines := card.lines
      webUrl := String.ofList (rendering.webBaseUrl.toList.rdropWhile (· == '/')) ++
        "/procurement/dw01/cases/" ++ job.caseId.text }
  match card with
  | .approvalRequested c | .approvalEscalated c => { base with
      caseTitle := c.title, sourcePrRef := c.sourcePrRef, ownerName := c.ownerName
      estimatedValueMinor := c.estimatedValueMinor, currency := c.currency }
  | .approved title _ comment | .rejected title comment => { base with
      caseTitle := title, comment := comment }
  | .runProgress title heading _ buttons => { base with
      caseTitle := title, heading := heading
      buttons := (buttons.getD []).map CardButton.fields }
  | .cpApprovalRequested title cp _ => { base with caseTitle := title, checkpoint := cp.text }
  | .addendumProposed title heading _ buttons => { base with
      caseTitle := title, heading := heading, buttons := buttons.map CardButton.fields }
  | .lawChangeDetected title .. => { base with caseTitle := title }
  | .supportRequired .. | .explanationEscalated _ => base

section

variable {config : NotifierConfig} {rendering : Rendering} {card : Card}
  {r : IntakeNotificationJob} {member : String}

theorem pyStr_texts (lines : List String) :
    lines.map (Json.pyStr config.repr ∘ Json.str) = lines := List.map_id' lines

theorem dictItems_buttonList (buttons : List CardButton) :
    (dictItems (Card.buttonList buttons)).map
        (fun d => d.map (fun f => (f.1, f.2.pyStr config.repr))) =
      buttons.map CardButton.fields := by
  rw [Card.buttonList, dictItems_arr_obj, List.map_map]
  apply List.map_congr_left
  intro b _
  show (b.fields.map (fun f => (f.1, Json.str f.2))).map
      (fun f => (f.1, f.2.pyStr config.repr)) = b.fields
  rw [List.map_map]
  exact List.map_id' b.fields

theorem messageOf_carried (hr : card.Carried r) :
    messageOf config rendering r member = some (card.message rendering r member) := by
  cases card
  case runProgress title heading lines buttons =>
    cases buttons <;>
      simp [messageOf, hr.payload, hr.event, Card.payload, Card.message, Card.lines, Dict.getD,
        Dict.get?, estimatedValue, Card.texts, pyStr_texts, dictItems_buttonList]
  all_goals
    simp [messageOf, hr.payload, hr.event, Card.payload, Card.intakePayload, Card.message,
      Card.lines, Dict.getD, Dict.get?, estimatedValue, Card.texts, pyStr_texts,
      dictItems_buttonList]

@[simp] theorem message_lines : (card.message rendering r member).lines = card.lines := by
  cases card <;> rfl

@[simp] theorem message_recipient :
    (card.message rendering r member).recipientSlackUserId = member := by
  cases card <;> rfl

end

/-! ## The end of the first attempt -/

section

variable {config : NotifierConfig} {card : Card} {r : IntakeNotificationJob} {state : CaseState}
  {subject member channel ts : String} {answer : SendAnswer} {now later : DateTime}

private abbrev attempted (r : IntakeNotificationJob) (now : DateTime) (subject : String)
    (state : CaseState) : IntakeNotificationDelivery :=
  { job := r.taken now, recipientSubject := subject, caseState := state }

theorem expectedState_checkpoint (config : NotifierConfig) {title : String} {cp : PendingCheckpoint} {lines : List String}
    (hr : (Card.cpApprovalRequested title cp lines).Carried r) :
    expectedState ((r.payload.getD "checkpoint" (.str "")).pyStr config.repr) =
      some cp.state := by
  rw [hr.payload]
  cases cp <;> rfl

theorem deliver_passed (config : NotifierConfig) (subject : String) (answer : SendAnswer)
    (now : DateTime) (hr : card.Carried r) (hpassed : card.passed state = true) :
    ∃ reason, deliver config (attempted r now subject state) answer = .cancelled reason := by
  cases card <;> simp only [Card.passed, bne_iff_ne, Bool.false_eq_true] at hpassed
  case approvalRequested =>
    simp [deliver, IntakeNotificationJob.taken, hr.event, Card.eventType, hpassed]
  case approvalEscalated =>
    simp [deliver, IntakeNotificationJob.taken, hr.event, Card.eventType, hpassed]
  case cpApprovalRequested title cp lines =>
    have hexpected := expectedState_checkpoint config hr
    have hne : cp.state ≠ state := Ne.symm hpassed
    simp [deliver, IntakeNotificationJob.taken, hr.event, Card.eventType, hexpected, hne]

theorem deliver_open (answer : SendAnswer) (now : DateTime) (hr : card.Carried r) (hopen : card.passed state = false)
    (hmap : config.userMap subject = some member) (hmember : member ≠ "") :
    deliver config (attempted r now subject state) answer =
      match answer with
      | .ok (channel, ts) => .sent channel ts
      | .error code =>
        if (slackFailure code).2 then .failed (slackFailure code).1
        else .retry (slackFailure code).1 := by
  have hintake : ¬ ((r.eventType = .intake .approvalRequested ∨
      r.eventType = .intake .approvalEscalated) ∧ state ≠ .draft) := by
    rw [hr.event]
    cases card <;> simp_all [Card.passed, Card.eventType]
  have hcheckpoint : ¬ (r.eventType = .intake .cpApprovalRequested ∧
      (expectedState ((r.payload.getD "checkpoint" (.str "")).pyStr config.repr)).isSome ∧
      expectedState ((r.payload.getD "checkpoint" (.str "")).pyStr config.repr) ≠ some state) := by
    rw [hr.event]
    cases card
    case cpApprovalRequested title cp lines =>
      rw [expectedState_checkpoint config hr]
      have hsame : state = cp.state := by simpa [Card.passed] using hopen
      simp [hsame]
    all_goals simp [Card.eventType]
  cases answer with
  | ok sent =>
    simp only [deliver, IntakeNotificationJob.taken, if_neg hintake, if_neg hcheckpoint, hmap]
  | error code =>
    simp only [deliver, IntakeNotificationJob.taken, if_neg hintake, if_neg hcheckpoint, hmap]

theorem endsAtOnce_passed (hr : card.Queued r) (hpassed : card.passed state = true) :
    EndsAtOnce card state (firstAttempt config subject state answer now later r) := by
  obtain ⟨reason, hreason⟩ := deliver_passed config subject answer now hr.toCarried hpassed
  unfold firstAttempt
  simp only [hreason]
  refine ⟨?_, .inr ⟨rfl, hpassed⟩⟩
  show r.attempts + 1 = 1
  rw [hr.attempts]

theorem endsAtOnce_sent (hr : card.Queued r) (hopen : card.passed state = false)
    (hmap : config.userMap subject = some member) (hmember : member ≠ "") :
    EndsAtOnce card state (firstAttempt config subject state (.ok (channel, ts)) now later r) := by
  have hsent := deliver_open (.ok (channel, ts)) now hr.toCarried hopen hmap hmember
  unfold firstAttempt
  simp only [hsent]
  refine ⟨?_, .inl rfl⟩
  show r.attempts + 1 = 1
  rw [hr.attempts]

theorem not_endsAtOnce_error (hr : card.Queued r) (hopen : card.passed state = false)
    (hmap : config.userMap subject = some member) (hmember : member ≠ "") :
    ¬ EndsAtOnce card state (firstAttempt config subject state (.error "") now later r) := by
  have hretry := deliver_open (.error "") now hr.toCarried hopen hmap hmember
  unfold firstAttempt
  simp only [hretry]
  rintro ⟨-, hsent | ⟨-, hpassed⟩⟩
  · -- another attempt is scheduled, or the attempts are used up
    revert hsent
    simp only [slackFailure, if_true, Bool.false_eq_true, if_false, Outcome.record,
      IntakeNotificationJob.claimed, Outcome.values]
    split
    · intro h
      exact NotificationJobStatus.noConfusion h
    · intro h
      exact NotificationJobStatus.noConfusion h
  · rw [hopen] at hpassed
    exact absurd hpassed (by decide)

end

/-! ## Slack -/

section

variable {rendering : Rendering} {card : Card} {r : IntakeNotificationJob} {member : String}
  {state : CaseState} {text title : String} {blocks more : List Block} {lines : List String}

@[simp] theorem sections_append : sections (blocks ++ more) = sections blocks ++ sections more :=
  List.filterMap_append

@[simp] theorem buttonValues_append :
    buttonValues (blocks ++ more) = buttonValues blocks ++ buttonValues more := by
  simp [buttonValues]

theorem buttonValues_cons_body : buttonValues (.body text :: blocks) = buttonValues blocks := by
  unfold buttonValues
  rw [List.flatMap_cons, Block.elements, List.nil_append]
  exact fun _ h => nomatch h

theorem buttonValues_cons_actions {elements : List ButtonElement} :
    buttonValues (.actions elements :: blocks) =
      elements.filterMap ButtonElement.value ++ buttonValues blocks := by
  unfold buttonValues
  rw [List.flatMap_cons, Block.elements, List.filterMap_append]

theorem sections_body (texts : List String) : sections (texts.map .body) = texts := by
  induction texts with
  | nil => rfl
  | cons t texts ih =>
    show t :: sections (texts.map .body) = t :: texts
    rw [ih]

theorem buttonValues_body (texts : List String) : buttonValues (texts.map .body) = [] := by
  induction texts with
  | nil => rfl
  | cons t texts ih => exact ih

theorem length_bullet (line : String) : (bullet line).length = bulletLength line := by
  unfold bullet bulletLength
  split
  · rfl
  · rw [String.length_append]
    show 2 + line.length = line.length + 2
    omega

theorem bodyBlocks_fit : (∀ s ∈ sections (bodyBlocks title lines), s.length ≤ 3000) ↔
    title.length + 2 ≤ 3000 ∧ ∀ line ∈ lines, bulletLength line ≤ 3000 := by
  have htitle : ("*" ++ title ++ "*").length = title.length + 2 := by
    simp only [String.length_append]
    show 1 + title.length + 1 = title.length + 2
    omega
  unfold bodyBlocks
  rw [sections_body, pack_bounded (by decide)]
  simp only [String.length_empty, List.forall_mem_cons, List.forall_mem_map, length_bullet, htitle]
  simp

theorem bodyBlocks_inOrder (front : List String) : InOrder (lines.map String.toList)
    ("\n".intercalate (front ++ sections (bodyBlocks title lines))).toList := by
  have hbullet : ∀ line, ∃ mark, bullet line = mark ++ line := by
    intro line
    unfold bullet
    split
    · exact ⟨"", (String.empty_append).symm⟩
    · exact ⟨"• ", rfl⟩
  have hne : ∀ s ∈ lines.map bullet, s ≠ "" := by
    simp only [List.forall_mem_map]
    intro line _ hempty
    unfold bullet at hempty
    split at hempty
    · next h => simp [hempty, startsWith] at h
    · exact absurd (String.append_eq_empty_iff.mp hempty).1 (by decide)
  have hstart : "*" ++ title ++ "*" ≠ "" := by
    intro h
    exact absurd (String.append_eq_empty_iff.mp h).2 (by decide)
  have hpack : pack 2800 "\n" "" (("*" ++ title ++ "*") :: lines.map bullet) =
      pack 2800 "\n" ("*" ++ title ++ "*") (lines.map bullet) := by
    rw [pack]
    simp
  obtain ⟨before, hbefore⟩ := intercalate_behind "\n" front (sections (bodyBlocks title lines))
  have hjoined : "\n".intercalate (sections (bodyBlocks title lines)) =
      "\n".intercalate (("*" ++ title ++ "*") :: (lines.map bullet ++ [])) := by
    unfold bodyBlocks
    rw [sections_body, hpack, intercalate_pack hstart hne, List.append_nil]
  rw [hbefore, hjoined, String.toList_append]
  exact (inOrder_intercalate "\n" bullet hbullet _ lines []).behind _

theorem intakeBlocks_fit {message : SlackApprovalMessage} {heading body context : String}
    {elements : List ButtonElement}
    (helements : ∀ e ∈ elements, ∀ v ∈ e.value, v.length ≤ 2000) :
    WithinLimits (intakeBlocks message heading body context elements).2 ↔ body.length ≤ 3000 := by
  have hsections : sections (intakeBlocks message heading body context elements).2 = [body] := rfl
  have hvalues : ∀ v ∈ buttonValues (intakeBlocks message heading body context elements).2,
      v.length ≤ 2000 := by
    intro v hv
    -- the link carries no value
    have hlink : buttonValues (intakeBlocks message heading body context elements).2 =
        elements.filterMap ButtonElement.value := by
      simp [intakeBlocks, buttonValues, Block.elements, linkButton]
    rw [hlink] at hv
    obtain ⟨e, he, hev⟩ := List.mem_filterMap.mp hv
    exact helements e he v hev
  unfold WithinLimits
  rw [hsections, List.forall_mem_singleton]
  exact ⟨fun h => h.1, fun h => ⟨h, hvalues⟩⟩

theorem lineBlocks_fit {heading : String} {elements : List ButtonElement} {rest : List Block}
    (hrest : sections rest = [] ∧ buttonValues rest = []) :
    WithinLimits (.body ("*" ++ heading ++ "*") :: bodyBlocks title lines ++
        .actions elements :: rest) ↔
      (heading.length + 2 ≤ 3000 ∧ title.length + 2 ≤ 3000 ∧
        ∀ line ∈ lines, bulletLength line ≤ 3000) ∧
        ∀ v ∈ elements.filterMap ButtonElement.value, v.length ≤ 2000 := by
  have hheading : ("*" ++ heading ++ "*").length = heading.length + 2 := by
    simp only [String.length_append]
    show 1 + heading.length + 1 = heading.length + 2
    omega
  have hsections : sections (.body ("*" ++ heading ++ "*") :: bodyBlocks title lines ++
      .actions elements :: rest) =
      ("*" ++ heading ++ "*") :: sections (bodyBlocks title lines) := by
    show ("*" ++ heading ++ "*") :: sections (bodyBlocks title lines ++ .actions elements :: rest) = _
    rw [sections_append]
    show _ :: (sections (bodyBlocks title lines) ++ sections rest) = _
    rw [hrest.1, List.append_nil]
  have hvalues : buttonValues (.body ("*" ++ heading ++ "*") :: bodyBlocks title lines ++
      .actions elements :: rest) = elements.filterMap ButtonElement.value := by
    rw [buttonValues_append, buttonValues_cons_body, bodyBlocks, buttonValues_body,
      List.nil_append, buttonValues_cons_actions, hrest.2, List.append_nil]
  unfold WithinLimits
  rw [hsections, hvalues, List.forall_mem_cons, hheading, bodyBlocks_fit]

theorem actionButtons_fit {message : SlackApprovalMessage} {buttons : List CardButton}
    (hbuttons : message.buttons = buttons.map CardButton.fields) :
    (∀ v ∈ (actionButtons message ++ [linkButton message]).filterMap ButtonElement.value,
        v.length ≤ 2000) ↔ ∀ b ∈ buttons, b.value.length ≤ 2000 := by
  have hvalues : (actionButtons message ++ [linkButton message]).filterMap ButtonElement.value =
      buttons.map CardButton.value := by
    have hlink : [linkButton message].filterMap ButtonElement.value = [] := rfl
    rw [List.filterMap_append, hlink, List.append_nil, actionButtons, hbuttons, List.map_map,
      List.filterMap_map, ← List.filterMap_eq_map]
    rfl
  rw [hvalues, List.forall_mem_map]

theorem exists_render {message : SlackApprovalMessage} {out : String × List Block}
    (h : renderSlack rendering message = some out) :
    (∃ text blocks, renderSlack rendering message = some (text, blocks) ∧ WithinLimits blocks) ↔
      WithinLimits out.2 := by
  constructor
  · rintro ⟨text, blocks, hsame, hlimits⟩
    obtain rfl : out = (text, blocks) := Option.some.inj (h.symm.trans hsame)
    exact hlimits
  · intro hlimits
    exact ⟨out.1, out.2, h, hlimits⟩

theorem length_orElse_dash (value : String) : (orElse value "—").length = max 1 value.length := by
  unfold orElse
  split
  · next h =>
    rw [h]
    decide
  · next h =>
    have hpos : value.length ≠ 0 := by simpa using h
    omega

theorem renderSlack_fits (huuid : r.caseId.text.length = 36) :
    (∃ text blocks, renderSlack rendering (card.message rendering r member) =
      some (text, blocks) ∧ WithinLimits blocks) ↔ card.FitsSlack := by
  cases card with
  | approvalRequested c =>
    have hvalues : ∀ e ∈ intakeElements (Card.message rendering r member (.approvalRequested c)).caseId,
        ∀ v ∈ e.value, v.length ≤ 2000 := by
      simp [intakeElements, Card.message, huuid]
    have hbody : ("*" ++ c.title ++ "*\nNgười tạo: " ++ orElse c.ownerName "—" ++ "\nPR: `" ++
        orElse c.sourcePrRef "—" ++ "` · Giá trị: " ++
        money c.estimatedValueMinor c.currency).length = c.title.length +
          max 1 c.ownerName.length + max 1 c.sourcePrRef.length + moneyLength c + 33 := by
      simp only [String.length_append, length_orElse_dash]
      show 1 + c.title.length + 13 + max 1 c.ownerName.length + 6 + max 1 c.sourcePrRef.length +
        13 + moneyLength c = _
      omega
    rw [exists_render rfl, intakeBlocks_fit hvalues]
    simp only [Card.message, hbody, Card.FitsSlack]
  | approvalEscalated c =>
    have hbody : ("*" ++ c.title ++ "* vẫn đang chờ Bình xử lý.\n" ++
        "Chi vui lòng nhắc người phê duyệt để quy trình của An có thể tiếp tục.").length =
          c.title.length + 98 := by
      simp only [String.length_append]
      show 1 + c.title.length + 27 + 70 = _
      omega
    rw [exists_render rfl, intakeBlocks_fit (by simp)]
    simp only [Card.message, hbody, Card.FitsSlack]
  | approved title reference comment =>
    have hbody : ("*" ++ title ++ "* đã qua bước kiểm tra intake.").length =
        title.length + 31 := by
      simp only [String.length_append]
      show 1 + title.length + 30 = _
      omega
    rw [exists_render rfl, intakeBlocks_fit (by simp)]
    simp only [Card.message, hbody, Card.FitsSlack]
  | rejected title comment =>
    have hreason : (orElse comment "Không có lý do").length =
        if comment = "" then 14 else comment.length := by
      unfold orElse
      split
      · decide
      · rfl
    have hbody : ("*" ++ title ++ "* đã bị từ chối.\nLý do: " ++
        orElse comment "Không có lý do").length =
          title.length + (if comment = "" then 14 else comment.length) + 25 := by
      simp only [String.length_append, hreason]
      show 1 + title.length + 24 + _ = _
      omega
    rw [exists_render rfl, intakeBlocks_fit (by simp)]
    simp only [Card.message, hbody, Card.FitsSlack]
  | runProgress title heading lines buttons =>
    have hheading : (orElse heading "Cập nhật tiến trình").length + 2 ≤ 3000 ↔
        heading.length + 2 ≤ 3000 := by
      unfold orElse
      split
      · next h =>
        rw [h]
        decide +kernel
      · rfl
    rw [exists_render rfl, lineBlocks_fit ⟨rfl, rfl⟩, actionButtons_fit rfl]
    simp only [Card.message, Card.lines, Card.FitsSlack, hheading]
    tauto
  | cpApprovalRequested title cp lines =>
    have hheading : (cpLabel (orElse cp.text "CP") ++ ": chờ bạn quyết định").length + 2 ≤
        3000 := by
      cases cp <;> decide +kernel
    have hvalues : ∀ v ∈ (decisionElements rendering (orElse cp.text "CP") r.caseId ++
        [linkButton (Card.message rendering r member (.cpApprovalRequested title cp lines))
          "Xem chi tiết"]).filterMap ButtonElement.value, v.length ≤ 2000 := by
      have hlink : ButtonElement.value (linkButton (Card.message rendering r member
          (.cpApprovalRequested title cp lines)) "Xem chi tiết") = none := rfl
      have hlower : (rendering.lower cp.text).length = 3 := by
        rw [rendering.lower_ascii cp.text (by cases cp <;> decide), String.length_ofList,
          List.length_map]
        cases cp <;> rfl
      have hchoice : (rendering.lower cp.text ++ ":" ++ r.caseId.text).length ≤ 2000 := by
        simp only [String.length_append, hlower, huuid]
        decide +kernel
      have hcp : orElse cp.text "CP" = cp.text := by cases cp <;> rfl
      rw [hcp]
      unfold decisionElements
      split
      · simp [hlink, huuid]
      · simpa [hlink] using hchoice
    rw [exists_render rfl, lineBlocks_fit ⟨rfl, rfl⟩]
    simp only [Card.FitsSlack]
    exact ⟨fun h => ⟨h.1.2.1, h.1.2.2⟩, fun h => ⟨⟨hheading, h.1, h.2⟩, hvalues⟩⟩
  | addendumProposed title heading lines buttons => simp [renderSlack, Card.message, Card.eventType, Card.FitsSlack]
  | lawChangeDetected title lines articleRef before after => simp [renderSlack, Card.message, Card.eventType, Card.FitsSlack]
  | supportRequired explanationId lines blockCount => simp [renderSlack, Card.message, Card.eventType, Card.FitsSlack]
  | explanationEscalated explanationId => simp [renderSlack, Card.message, Card.eventType, Card.FitsSlack]

theorem lineBlocks_inOrder {first : String} {elements : List ButtonElement} {rest : List Block}
    (hrest : sections rest = []) : InOrder (lines.map String.toList)
      ("\n".intercalate (sections (.body first :: bodyBlocks title lines ++
        .actions elements :: rest))).toList := by
  have hsections : sections (.body first :: bodyBlocks title lines ++
      .actions elements :: rest) = [first] ++ sections (bodyBlocks title lines) := by
    show first :: sections (bodyBlocks title lines ++ .actions elements :: rest) = _
    rw [sections_append]
    show first :: (sections (bodyBlocks title lines) ++ sections rest) = _
    rw [hrest, List.append_nil]
    rfl
  rw [hsections]
  exact bodyBlocks_inOrder [first]

theorem renderSlack_shows
    (h : renderSlack rendering (card.message rendering r member) = some (text, blocks)) :
    InOrder (card.lines.map String.toList) ("\n".intercalate (sections blocks)).toList := by
  cases card
  case runProgress title heading lines buttons =>
    have hblocks := congrArg Prod.snd (Option.some.inj h)
    simp only at hblocks
    rw [← hblocks]
    exact lineBlocks_inOrder rfl
  case cpApprovalRequested title cp lines =>
    have hblocks := congrArg Prod.snd (Option.some.inj h)
    simp only at hblocks
    rw [← hblocks]
    exact lineBlocks_inOrder rfl
  -- the other kinds either have no lines or are not rendered
  case addendumProposed => exact absurd h (by simp [renderSlack, Card.message, Card.eventType])
  case lawChangeDetected => exact absurd h (by simp [renderSlack, Card.message, Card.eventType])
  case supportRequired => exact absurd h (by simp [renderSlack, Card.message, Card.eventType])
  all_goals trivial

theorem sendSlack_ok {slack : SlackApi} {message : SlackApprovalMessage}
    (haccepts : slack.Accepts) (hmember : isMemberId message.recipientSlackUserId = true)
    (hrender : renderSlack rendering message = some (text, blocks)) (hlimits : WithinLimits blocks) :
    ∃ channel ts, sendSlack rendering slack message = .ok (channel, ts) := by
  obtain ⟨channel, hopen, hne⟩ := haccepts.opens _ hmember
  obtain ⟨ts, hpost⟩ := haccepts.posts
    { channel := channel, text := text, blocks := blocks, clientMsgId := message.messageId.text }
    hlimits
  refine ⟨channel, ts, ?_⟩
  have hform : (!(startsWith message.recipientSlackUserId "U" ||
      startsWith message.recipientSlackUserId "W")) = false := by
    rw [Bool.not_eq_false']
    exact hmember
  unfold sendSlack
  simp only [hform, Bool.false_eq_true, if_false, hrender, hopen, bind, Except.bind, hne, hpost]

def openWorkspace : SlackApi where
  openConversation member := .ok ("D" ++ member)
  postMessage _ := .ok "1.000000"

theorem openWorkspace_accepts : openWorkspace.Accepts where
  opens member _ := by
    refine ⟨"D" ++ member, rfl, ?_⟩
    intro h
    exact absurd (String.append_eq_empty_iff.mp h).1 (by decide)
  posts _ _ := ⟨_, rfl⟩

theorem arrivesBySlack_iff (hr : card.Queued r) :
    ArrivesBySlack rendering card state r ↔ card.passed state = true ∨ card.FitsSlack := by
  by_cases hpassed : card.passed state = true
  · -- nothing is sent, so nothing has to fit
    refine ⟨fun _ => .inl hpassed, fun _ => ⟨?_, ?_⟩⟩
    · intro config subject member slack now later _ _ _
      exact endsAtOnce_passed hr hpassed
    · intro config member message text blocks hopen _ _
      rw [hpassed] at hopen
      exact absurd hopen (by decide)
  · have hopen : card.passed state = false := by simpa using hpassed
    have hmessage (config : NotifierConfig) (now : DateTime) (member : String) :
        messageOf config rendering (r.taken now) member =
          some (card.message rendering (r.taken now) member) :=
      messageOf_carried ⟨hr.event, hr.payload⟩
    constructor
    · intro h
      right
      -- a worker with one member in its map, and a workspace that takes everything
      let config : NotifierConfig :=
        { users := fun _ => none, userMap := fun _ => some "U1", repr := fun _ => "" }
      have hends := h.ends config "An" "U1" openWorkspace 0 0 rfl rfl openWorkspace_accepts
      rw [answerOf, hmessage] at hends
      cases hrender : renderSlack rendering (card.message rendering (r.taken 0) "U1") with
      | none =>
        have hanswer : sendSlack rendering openWorkspace
            (card.message rendering (r.taken 0) "U1") = .error "" := by
          have hform : (!(startsWith "U1" "U" || startsWith "U1" "W")) = false := by decide
          unfold sendSlack
          simp only [message_recipient, hform, Bool.false_eq_true, if_false, hrender]
        simp only [hanswer] at hends
        exact absurd hends (not_endsAtOnce_error hr hopen rfl
          (by decide))
      | some out =>
        obtain ⟨text, blocks⟩ := out
        have hshown : renderSlack rendering (card.message rendering r "U1") =
            some (text, blocks) := by
          rw [← hrender]
          cases card <;> rfl
        have hlimits := (h.shows config "U1" _ text blocks hopen
          (messageOf_carried hr.toCarried) hshown).2
        exact (renderSlack_fits hr.uuid).mp ⟨text, blocks, hshown, hlimits⟩
    · intro hfits
      have hfits : card.FitsSlack := hfits.resolve_left hpassed
      refine ⟨?_, ?_⟩
      · intro config subject member slack now later hmap hmember haccepts
        have huuid : (r.taken now).caseId.text.length = 36 := hr.uuid
        obtain ⟨text, blocks, hrender, hlimits⟩ : ∃ text blocks, renderSlack rendering
            (card.message rendering (r.taken now) member) = some (text, blocks) ∧
              WithinLimits blocks := (renderSlack_fits huuid).mpr hfits
        obtain ⟨channel, ts, hsent⟩ := sendSlack_ok haccepts
          (by rw [message_recipient]; exact hmember) hrender hlimits
        have hne : member ≠ "" := by
          rintro rfl
          exact absurd hmember (by decide)
        rw [answerOf, hmessage]
        simp only [hsent]
        exact endsAtOnce_sent hr hopen hmap hne
      · intro config member message text blocks _ hbuilt hrender
        obtain rfl : card.message rendering r member = message :=
          Option.some.inj ((messageOf_carried hr.toCarried).symm.trans hbuilt)
        refine ⟨renderSlack_shows hrender, ?_⟩
        have hlimits : ∃ text blocks, renderSlack rendering
            (card.message rendering r member) = some (text, blocks) ∧ WithinLimits blocks :=
          (renderSlack_fits hr.uuid).mpr hfits
        exact (exists_render hrender).mp hlimits

end

/-! ## Zalo -/

section

variable {rendering : Rendering} {card : Card} {r : IntakeNotificationJob} {state : CaseState}
  {message : SlackApprovalMessage}

theorem splitLines_text (line text : List Char) :
    ((splitLines line text).flatMap String.toList).filter (fun c => !isLineBreak c) =
      (line.reverse ++ text).filter (fun c => !isLineBreak c) := by
  induction line, text using splitLines.induct with
  | case1 => rfl
  | case2 line hne =>
    rw [splitLines]
    · simp
    · exact hne
  | case3 line rest ih =>
    rw [splitLines, List.flatMap_cons, List.filter_append, ih]
    have hbreaks : ('\r' :: '\n' :: rest).filter (fun c => !isLineBreak c) =
        rest.filter (fun c => !isLineBreak c) := rfl
    simp only [List.filter_append, String.toList_ofList, hbreaks, List.reverse_nil,
      List.nil_append]
  | case4 line c rest hne hbreak ih =>
    rw [splitLines, if_pos hbreak, List.flatMap_cons, List.filter_append, ih]
    · simp [List.filter_append, hbreak]
    · exact hne
  | case5 line c rest hne hbreak ih =>
    rw [splitLines, if_neg hbreak, ih]
    · simp
    · exact hne

theorem splitForZalo_fits {text : String} (hne : text ≠ "") :
    ∀ part ∈ splitForZalo text, part ≠ "" ∧ part.length ≤ 2000 := by
  intro part hpart
  unfold splitForZalo at hpart
  split at hpart
  · obtain rfl := List.mem_singleton.mp hpart
    exact ⟨hne, by omega⟩
  · obtain ⟨hne, hfits⟩ := packCutting_fits (by decide) part hpart
    exact ⟨hne, by omega⟩

theorem splitForZalo_text (text : String) :
    ((splitForZalo text).flatMap String.toList).filter (fun c => !isLineBreak c) =
      text.toList.filter (fun c => !isLineBreak c) := by
  unfold splitForZalo
  split
  · simp
  · rw [packCutting_text (fun c => !isLineBreak c) (by decide), splitLines_text]
    simp

theorem sendParts_ok {zalo : ZaloApi} {chatId : String} (haccepts : zalo.Accepts)
    {parts : List String} (hparts : ∀ part ∈ parts, part ≠ "" ∧ part.length ≤ 2000)
    (last : String) : ∃ ts, zalo.sendParts chatId last parts = .ok (chatId, ts) := by
  induction parts generalizing last with
  | nil => exact ⟨last, rfl⟩
  | cons part rest ih =>
    obtain ⟨⟨hne, hlength⟩, hrest⟩ := List.forall_mem_cons.mp hparts
    obtain ⟨messageId, hsent⟩ := Option.isSome_iff_exists.mp (haccepts chatId part hne hlength)
    obtain ⟨ts, hts⟩ := ih hrest messageId
    exact ⟨ts, by rw [ZaloApi.sendParts, hsent]; exact hts⟩

theorem renderText_inOrder :
    InOrder (message.lines.map String.toList) (renderText rendering message).toList := by
  -- what stands before the lines ends in a last entry, whichever it is
  have hbefore (before : List String) (title : String) (more following : List String) :
      InOrder (message.lines.map String.toList)
        ("\n".intercalate (before ++ [title] ++ more ++ message.lines.map ("• " ++ ·) ++
          following)).toList := by
    obtain ⟨init, last, hlast⟩ : ∃ init last, before ++ [title] ++ more = init ++ [last] := by
      by_cases hmore : more = []
      · exact ⟨before, title, by rw [hmore, List.append_nil]⟩
      · exact ⟨before ++ [title] ++ more.dropLast, more.getLast hmore, by
          rw [List.append_assoc (before ++ [title]), List.dropLast_append_getLast]⟩
    obtain ⟨front, hfront⟩ := intercalate_behind "\n" init
      (last :: (message.lines.map ("• " ++ ·) ++ following))
    have hregroup : before ++ [title] ++ more ++ message.lines.map ("• " ++ ·) ++ following =
        init ++ last :: (message.lines.map ("• " ++ ·) ++ following) := by
      rw [hlast]
      simp
    rw [hregroup, hfront, String.toList_append]
    exact (inOrder_intercalate "\n" ("• " ++ ·) (fun p => ⟨"• ", rfl⟩) last message.lines
      following).behind _
  unfold renderText
  simpa only [List.append_assoc] using hbefore
    (if message.heading = "" then [] else [message.heading]) ("📁 " ++ message.caseTitle)
    ((if message.ownerName = "" then [] else ["Người yêu cầu: " ++ message.ownerName]) ++
      (if message.estimatedValueMinor = 0 then []
        else ["Giá trị dự kiến: " ++ money message.estimatedValueMinor message.currency]) ++
      (if message.comment = "" then [] else [message.comment]))
    (if replyHint rendering message = "" then [] else ["", replyHint rendering message])

theorem renderText_ne_empty : renderText rendering message ≠ "" := by
  have hnamed (before after : List String) :
      "\n".intercalate (before ++ ("📁 " ++ message.caseTitle) :: after) ≠ "" := by
    intro h
    obtain ⟨front, hfront⟩ := intercalate_behind "\n" before
      (("📁 " ++ message.caseTitle) :: after)
    rw [hfront, intercalate_append_cons] at h
    have hicon := (String.append_eq_empty_iff.mp (String.append_eq_empty_iff.mp h).2).1
    exact absurd hicon (by decide)
  unfold renderText
  simp only [List.append_assoc, List.cons_append]
  exact hnamed _ _

theorem arrivesByZalo (hr : card.Queued r) : ArrivesByZalo rendering card state r where
  ends config subject chatId zalo now later hmap hne haccepts := by
    by_cases hpassed : card.passed state = true
    · exact endsAtOnce_passed hr hpassed
    · have hopen : card.passed state = false := by simpa using hpassed
      have hmessage : messageOf config rendering (r.taken now) chatId =
          some (card.message rendering (r.taken now) chatId) :=
        messageOf_carried ⟨hr.event, hr.payload⟩
      obtain ⟨ts, hsent⟩ : ∃ ts, sendZalo rendering zalo
          (card.message rendering (r.taken now) chatId) = .ok (chatId, ts) := by
        unfold sendZalo
        rw [message_recipient]
        exact sendParts_ok haccepts (splitForZalo_fits renderText_ne_empty) ""
      rw [answerOf, hmessage]
      simp only [hsent]
      exact endsAtOnce_sent hr hopen hmap hne
  shows config chatId message hbuilt := by
    obtain rfl : card.message rendering r chatId = message :=
      Option.some.inj ((messageOf_carried hr.toCarried).symm.trans hbuilt)
    refine ⟨?_, splitForZalo_text _⟩
    have hlines : (card.message rendering r chatId).lines = card.lines := message_lines
    rw [← hlines]
    exact renderText_inOrder

end

/-- A card arrives on both channels exactly when its question is closed or it is
    one that Slack can show. -/
theorem card_arrives_iff {rendering : Rendering} {card : Card} {r : IntakeNotificationJob}
    (hr : card.Queued r) (state : CaseState) :
    ArrivesBySlack rendering card state r ∧ ArrivesByZalo rendering card state r ↔
      card.passed state = true ∨ card.FitsSlack := by
  rw [arrivesBySlack_iff hr]
  constructor
  · intro h
    exact h.1
  · intro h
    exact ⟨h, arrivesByZalo hr⟩

namespace Published

def rendering : Rendering where
  webBaseUrl := "https://dw.local"
  intOf _ := none
  lower s := String.ofList (s.toList.map Char.toLower)
  lower_ascii _ _ := rfl

def job (card : Card) : IntakeNotificationJob :=
  let caseId : Uuid := { text := "3f0c6e52-9d1b-4a77-8c35-5e1f2a90b7d4" }
  { id := { text := "job-1" }, tenantId := { text := "tenant" }
    workspaceId := { text := "workspace" }, caseId := caseId, eventType := card.eventType
    recipientUserId := { text := "binh" }, dueAt := 0, idempotencyKey := "dw01:key"
    payload := card.payload caseId, updatedAt := 0 }

theorem job_queued (card : Card) : card.Queued (job card) where
  event := rfl
  payload := rfl
  status := rfl
  attempts := rfl
  uuid := by
    show "3f0c6e52-9d1b-4a77-8c35-5e1f2a90b7d4".length = 36
    decide

def progress : Card := .runProgress "Mua máy chủ" "Bắt đầu xử lý hồ sơ" ["đọc yêu cầu"] none

theorem progress_arrives : ArrivesBySlack rendering progress .published (job progress) ∧
    ArrivesByZalo rendering progress .published (job progress) :=
  (card_arrives_iff (job_queued progress) .published).mpr (.inr (by
    unfold progress Card.FitsSlack
    decide))

/-- An asks for a fortnight more; Bình is asked whether to draft the addendum. -/
def proposal : Card :=
  ProposedAddendum.card (job progress).caseId "Mua máy chủ"
    { changeSummary := "Gia hạn nộp hồ sơ", impactSummary := "", proposerName := "An"
      extendBidsByDays := 14 }

/-- Slack's renderer does not know the card. -/
theorem proposal_lost : proposal.Queued (job proposal) ∧
    ¬ (ArrivesBySlack rendering proposal .published (job proposal) ∧
      ArrivesByZalo rendering proposal .published (job proposal)) := by
  refine ⟨job_queued proposal, ?_⟩
  rintro ⟨hslack, -⟩
  rcases (arrivesBySlack_iff (job_queued proposal)).mp hslack with hpassed | hfits
  · exact absurd hpassed (by decide)
  · exact hfits

end Published

end DigitalWorker.Worker
