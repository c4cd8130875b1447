import DigitalWorker.Framework.Blocks
import DigitalWorker.Worker.Notifications

/-! # The message of a card

    The worker turns the payload of a job into one channel-neutral message. The
    Slack notifier renders it as blocks with buttons, one branch per kind of
    card; the Zalo notifier renders it as plain text, which its client splits
    into parts the platform accepts.
-/

namespace DigitalWorker.Worker

open Framework

/-! ## The channel-neutral message -/

structure SlackApprovalMessage where
  messageId : Uuid
  recipientSlackUserId : String
  eventType : NotificationType
  caseId : Uuid
  caseTitle : String
  webUrl : String
  sourcePrRef : String := ""
  ownerName : String := ""
  estimatedValueMinor : Int := 0
  currency : String := "VND"
  comment : String := ""
  heading : String := ""
  lines : List String := []
  buttons : List (List (String × String)) := []
  checkpoint : String := ""

/-- What building and rendering a message rests on besides the store: the base
    of links, `int(text)` and `str.lower`. -/
structure Rendering where
  webBaseUrl : String
  intOf : String → Option Int
  lower : String → String
  lower_ascii : ∀ s : String, s.toList.all (fun c => c.toNat < 128) = true →
    lower s = String.ofList (s.toList.map Char.toLower)

/-- `int(payload.get("estimated_value_minor", 0))`, where a value that is
    neither a number nor a text counts as 0; nothing if it raises. -/
def estimatedValue (rendering : Rendering) : Json → Option Int
  | .num n => some n
  | .bool b => some (if b then 1 else 0)
  | .str s => rendering.intOf s
  | _ => some 0

/-- The message `SlackApprovalConsumer.__call__` builds of a job. -/
def messageOf (config : NotifierConfig) (rendering : Rendering) (job : IntakeNotificationJob)
    (member : String) : Option SlackApprovalMessage :=
  let payload := job.payload
  let text (key default : String) := (payload.getD key (.str default)).pyStr config.repr
  let base := String.ofList (rendering.webBaseUrl.toList.rdropWhile (· == '/'))
  (estimatedValue rendering (payload.getD "estimated_value_minor" (.num 0))).map (fun value =>
    { messageId := job.id
      recipientSlackUserId := member
      eventType := job.eventType
      caseId := job.caseId
      caseTitle := text "title" "Hồ sơ DW01"
      webUrl := base ++ "/procurement/dw01/cases/" ++ job.caseId.text
      sourcePrRef := text "source_pr_ref" ""
      ownerName := text "owner_name" ""
      estimatedValueMinor := value
      currency := text "currency" "VND"
      comment := text "comment" ""
      heading := text "heading" ""
      lines := match payload.getD "lines" (.arr []) with
        | .arr items => items.map (Json.pyStr config.repr)
        | _ => []
      buttons := (dictItems (payload.getD "buttons" (.arr []))).map
        (fun d => d.map (fun f => (f.1, f.2.pyStr config.repr)))
      checkpoint := text "checkpoint" "" })

/-- `value or default`. -/
def orElse (value default : String) : String := if value = "" then default else value

/-- The nearest double of a natural number, ties to even. The amounts are those
    of a `BIGINT` column, where the conversion never overflows. -/
def asDouble (n : Nat) : Nat :=
  if n < 2 ^ 53 then n
  else
    let unit := 2 ^ (n.log2 - 52)
    let down := n / unit
    let rest := n % unit
    (if 2 * rest < unit ∨ (2 * rest = unit ∧ down % 2 = 0) then down else down + 1) * unit

/-- `_money`: `:,.0f` formats a float, and every comma becomes a dot. -/
def money (value : Int) (currency : String) : String :=
  (if value < 0 then "-" else "") ++
    String.ofList (groupThousands (toString (asDouble value.natAbs)).toList.reverse) ++ " " ++
    String.ofList (currency.toList.map (fun c => if c = ',' then '.' else c))

example : money 150000000 "VND" = "150.000.000 VND" := by decide +kernel

/-! ## Slack -/

structure ButtonElement where
  text : String
  actionId : String
  value : Option String := none
  url : Option String := none
  style : Option String := none
  deriving DecidableEq

inductive Block where
  | header (text : String)
  | body (text : String)
  | actions (elements : List ButtonElement)
  | note (text : String)
  deriving DecidableEq

def Block.section? : Block → Option String
  | .body text => some text
  | _ => none

def Block.elements : Block → List ButtonElement
  | .actions elements => elements
  | _ => []

/-- `d.get(key, default)` on a dictionary of texts. -/
def textOf (d : List (String × String)) (key default : String) : String :=
  ((d.find? (fun f => f.1 == key)).map (·.2)).getD default

def actionButtons (message : SlackApprovalMessage) : List ButtonElement :=
  message.buttons.map (fun button =>
    let style := textOf button "style" ""
    { text := textOf button "label" "—", actionId := textOf button "action_id" ""
      value := some (textOf button "value" "")
      style := if style = "primary" ∨ style = "danger" then some style else none })

def linkButton (message : SlackApprovalMessage) (label : String := "Mở hồ sơ DW01") :
    ButtonElement :=
  { text := label, actionId := "open_dw01_case", url := some message.webUrl }

def bullet (line : String) : String := if startsWith line ">" then line else "• " ++ line

def bodyBlocks (caseTitle : String) (lines : List String) : List Block :=
  (pack 2800 "\n" "" (("*" ++ caseTitle ++ "*") :: lines.map bullet)).map .body

def cpLabel (cp : String) : String :=
  if cp = "CP1" then "CP1 — Duyệt phương án mua sắm"
  else if cp = "CP2" then "CP2 — Duyệt hồ sơ trước phát hành"
  else if cp = "CP3" then "CP3 — Duyệt làm rõ/sửa đổi sau phát hành"
  else if cp = "CP4" then "CP4 — Xác nhận mở thầu & bàn giao DW02"
  else cp

def decisionElements (rendering : Rendering) (cp : String) (caseId : Uuid) :
    List ButtonElement :=
  if cp = "CP4" then
    [{ text := "✅ Xác nhận mở thầu & bàn giao", actionId := "dw01_cp4_confirm"
       value := some caseId.text, style := some "primary" }]
  else
    [{ text := "✅ Duyệt " ++ cp, actionId := "dw01_cp_approve"
       value := some (rendering.lower cp ++ ":" ++ caseId.text), style := some "primary" },
     { text := "❌ Từ chối", actionId := "dw01_cp_reject"
       value := some (rendering.lower cp ++ ":" ++ caseId.text), style := some "danger" }]

def intakeElements (caseId : Uuid) : List ButtonElement :=
  [{ text := "✅ Xác minh & chạy DW01", actionId := "dw01_intake_approve"
     value := some caseId.text, style := some "primary" },
   { text := "❌ Từ chối", actionId := "dw01_intake_reject"
     value := some caseId.text, style := some "danger" },
   { text := "Xem PR", actionId := "dw01_view_pr", value := some caseId.text }]

def intakeBlocks (message : SlackApprovalMessage) (heading body context : String)
    (elements : List ButtonElement) : String × List Block :=
  (heading ++ ": " ++ message.caseTitle,
    [.header heading, .body body, .actions (elements ++ [linkButton message]), .note context])

/-- `_render`: nothing for a kind of card it does not know, where the source
    raises. -/
def renderSlack (rendering : Rendering) (message : SlackApprovalMessage) :
    Option (String × List Block) :=
  match message.eventType with
  | .intake .runProgress =>
    let heading := orElse message.heading "Cập nhật tiến trình"
    some (heading ++ ": " ++ message.caseTitle,
      .body ("*" ++ heading ++ "*") :: bodyBlocks message.caseTitle message.lines ++
        [.actions (actionButtons message ++ [linkButton message])])
  | .intake .cpApprovalRequested =>
    let cp := orElse message.checkpoint "CP"
    let heading := cpLabel cp ++ ": chờ bạn quyết định"
    some (heading ++ " — " ++ message.caseTitle,
      .body ("*" ++ heading ++ "*") :: bodyBlocks message.caseTitle message.lines ++
        [.actions (decisionElements rendering cp message.caseId ++
            [linkButton message "Xem chi tiết"]),
          .note ("Quyết định được ghi nhận với danh tính của bạn và " ++
            "lưu vào audit — người tạo hồ sơ không thể tự duyệt (SoD).")])
  | .intake .approvalRequested =>
    some (intakeBlocks message "Yêu cầu mới cần phê duyệt"
      ("*" ++ message.caseTitle ++ "*\nNgười tạo: " ++ orElse message.ownerName "—" ++
        "\nPR: `" ++ orElse message.sourcePrRef "—" ++ "` · Giá trị: " ++
        money message.estimatedValueMinor message.currency)
      "Bấm nút để quyết định ngay tại đây — hoặc mở hồ sơ xem chi tiết trước."
      (intakeElements message.caseId))
  | .intake .approvalEscalated =>
    some (intakeBlocks message "Nhắc việc phê duyệt quá hạn"
      ("*" ++ message.caseTitle ++ "* vẫn đang chờ Bình xử lý.\n" ++
        "Chi vui lòng nhắc người phê duyệt để quy trình của An có thể tiếp tục.")
      "Hệ thống đã kiểm tra lại trạng thái ngay trước khi gửi nhắc." [])
  | .intake .approved =>
    some (intakeBlocks message "Hồ sơ đã được phê duyệt"
      ("*" ++ message.caseTitle ++ "* đã qua bước kiểm tra intake.")
      "Mình sẽ bắt đầu xử lý và báo tiến độ tại đây." [])
  | .intake .rejected =>
    some (intakeBlocks message "Hồ sơ không được phê duyệt"
      ("*" ++ message.caseTitle ++ "* đã bị từ chối.\nLý do: " ++
        orElse message.comment "Không có lý do")
      "Mở hồ sơ để xem trạng thái và chuẩn bị lại dữ liệu đầu vào." [])
  -- every other kind raises "unsupported Slack approval event"
  | .intake .addendumProposed | .lawChangeDetected | .reworkSupportOffered
  | .reworkSupportRequired | .reworkExplanationEscalated => none

/-- The body of `chat.postMessage`. -/
structure SlackPost where
  channel : String
  text : String
  blocks : List Block
  clientMsgId : String

/-- The Slack API: the channel of a direct message and the timestamp of a post,
    or the `slack_error` of the failure, empty if the request itself failed. -/
structure SlackApi where
  openConversation : String → Except String String
  postMessage : SlackPost → Except String String

/-- `SlackApprovalNotifier.send`. -/
def sendSlack (rendering : Rendering) (slack : SlackApi) (message : SlackApprovalMessage) :
    SendAnswer :=
  let member := message.recipientSlackUserId
  if !(startsWith member "U" || startsWith member "W") then .error "invalid_member_id"
  else
    match renderSlack rendering message with
    | none => .error ""
    | some (text, blocks) => do
      let channel ← slack.openConversation member
      if channel = "" then .error ""
      else
        let ts ← slack.postMessage
          { channel := channel, text := text, blocks := blocks
            clientMsgId := message.messageId.text }
        .ok (channel, ts)

/-! ## Zalo -/

def replyHint (rendering : Rendering) (message : SlackApprovalMessage) : String :=
  match message.eventType with
  | .intake .approvalRequested | .intake .approvalEscalated =>
    "👉 Trả lời: «xác minh» để chạy, hoặc «từ chối» kèm lý do."
  | .intake .cpApprovalRequested =>
    let cp := orElse (rendering.lower message.checkpoint) "cp"
    if cp = "cp4" then "👉 Trả lời: «xác nhận mở thầu» để chốt sổ và lập biên bản."
    else "👉 Trả lời: «duyệt " ++ cp ++ "» hoặc «từ chối " ++ cp ++ "»."
  | .intake .addendumProposed =>
    "👉 Trả lời: «lập addendum <nội dung sửa đổi>» để lập và trình CP3, " ++
      "hoặc «bỏ qua addendum»."
  | .lawChangeDetected => "👉 Muốn áp mốc mới: «sửa hồ sơ <tên> thời hạn <số> ngày»."
  | .reworkSupportOffered => "👉 Cần hỗ trợ thì mở hồ sơ và mô tả giúp phần đang vướng nhé."
  | .reworkSupportRequired => "👉 Mở hồ sơ để xem phần mô tả bối cảnh và trao đổi giúp."
  | .reworkExplanationEscalated => "👉 Nhờ bạn phân công người xem giúp phần mô tả này."
  | .intake .approved | .intake .rejected | .intake .runProgress => ""

def renderText (rendering : Rendering) (message : SlackApprovalMessage) : String :=
  let hint := replyHint rendering message
  "\n".intercalate
    ((if message.heading = "" then [] else [message.heading]) ++
      ["📁 " ++ message.caseTitle] ++
      (if message.ownerName = "" then [] else ["Người yêu cầu: " ++ message.ownerName]) ++
      (if message.estimatedValueMinor = 0 then []
        else ["Giá trị dự kiến: " ++ money message.estimatedValueMinor message.currency]) ++
      (if message.comment = "" then [] else [message.comment]) ++
      message.lines.map ("• " ++ ·) ++
      (if hint = "" then [] else ["", hint]))

/-- The characters at which `str.splitlines` ends a line. -/
def isLineBreak (c : Char) : Bool :=
  let n := c.toNat
  (10 ≤ n && n ≤ 13) || (28 ≤ n && n ≤ 30) || n == 133 || n == 8232 || n == 8233

/-- `text.splitlines()`, `line` being the line read so far, reversed, and
    `started` whether there is one: a text that ends in a line break has no line
    after it, and a carriage return with its line feed ends one line. -/
def splitLines : List Char → List Char → List String
  | [], [] => []
  | line, [] => [String.ofList line.reverse]
  | line, '\r' :: '\n' :: rest => String.ofList line.reverse :: splitLines [] rest
  | line, c :: rest =>
    if isLineBreak c then String.ofList line.reverse :: splitLines [] rest
    else splitLines (c :: line) rest

def splitForZalo (text : String) : List String :=
  if text.length ≤ 1900 then [text]
  else packCutting 1900 (by decide) "\n" "" (splitLines [] text.toList)

/-- The Zalo platform: the identifier of a message posted to a chat, or nothing
    if the request failed. -/
structure ZaloApi where
  sendMessage : String → String → Option String

/-- `ZaloBotClient.send_message`: the parts one after another; the answer is that
    of the last. -/
def ZaloApi.sendParts (zalo : ZaloApi) (chatId : String) : String → List String → SendAnswer
  | last, [] => .ok (chatId, last)
  | _, part :: rest =>
    match zalo.sendMessage chatId part with
    | some messageId => zalo.sendParts chatId messageId rest
    | none => .error ""

/-- `ZaloApprovalNotifier.send`. -/
def sendZalo (rendering : Rendering) (zalo : ZaloApi) (message : SlackApprovalMessage) :
    SendAnswer :=
  zalo.sendParts message.recipientSlackUserId "" (splitForZalo (renderText rendering message))

/-! ## What the platforms are shown -/

/-- The answer of a notifier for a job: a message that cannot be built raises
    inside the same `try`. -/
def answerOf (config : NotifierConfig) (rendering : Rendering)
    (send : SlackApprovalMessage → SendAnswer) (job : IntakeNotificationJob) (member : String) :
    SendAnswer :=
  match messageOf config rendering job member with
  | some message => send message
  | none => .error ""

end DigitalWorker.Worker
