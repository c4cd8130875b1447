import DigitalWorker.Conversation.Service
import DigitalWorker.Framework.Sessions
import DigitalWorker.Protocol.World

/-! # Confirming a request

    The confirm button turns a conversation into a case. `handle_action` reads
    the conversation, lets another handler create the case, stores the case on
    the conversation and resumes a parked draft, each in a transaction of its
    own; nothing is held in between.
-/

namespace DigitalWorker.Conversation

open Framework

/-! ## The request that is filed -/

/-- `line` of `render_pr_markdown`. -/
def prLine (value : String) : String :=
  if value = "" then "Chưa nêu trong trao đổi" else value

/-- `f"{n} …"` of a number that is given and not zero. -/
def counted (n : Option Int) (unit : String) : Option String :=
  match n with
  | some n => if n = 0 then none else some (toString n ++ " " ++ unit)
  | none => none

def renderPrMarkdown (slots : IntakeSlots) (requester prRef : String) : String :=
  let suppliers := "\n".intercalate (slots.supplierNames.map (fun name => "- " ++ name))
  let budget := match slots.estimatedValueVnd with
    | some value => if value = 0 then "0 VND" else fmtVnd value
    | none => "0 VND"
  let quantity := match slots.quantity with
    | some n => toString n
    | none => ""
  "\n".intercalate
    ["# Phiếu đề nghị mua sắm (tạo từ Slack)", "", "- Mã tham chiếu: " ++ prRef,
      "- Người đề nghị: " ++ requester, "- Kênh tiếp nhận: Slack (DW01 chat intake)", "",
      "## 1. Nhu cầu", "", "- Hàng hoá/dịch vụ: " ++ prLine (text slots.itemSummary),
      "- Số lượng: " ++ prLine quantity,
      "- Mục đích sử dụng: " ++ prLine (text slots.purpose), "",
      "## 2. Ngân sách và thời hạn", "", "- Ngân sách dự kiến: " ++ budget,
      "- Thời hạn cần hàng: " ++ prLine (text (counted slots.deadlineDays "ngày")),
      "- Địa điểm giao hàng: " ++ prLine (text slots.deliveryLocation), "",
      "## 3. Điều kiện thương mại", "",
      "- Bảo hành tối thiểu: " ++ prLine (text (counted slots.warrantyMonths "tháng")),
      "- Hệ điều hành / bản quyền: " ++ prLine (text slots.osLicense),
      "- Điều khoản thanh toán: " ++ prLine (text slots.paymentTerms), "",
      "## 4. Nhà cung cấp đề xuất", "",
      if suppliers = "" then "- Chưa nêu" else suppliers, ""]

def prReference (day : String) (conversation : Uuid) : String :=
  "CHAT-" ++ day ++ "-" ++ take conversation.text 8

/-- `a or b`, of texts. -/
def orText (a b : String) : String := if a = "" then b else a

/-- The command `handle_action` sends. -/
def purchaseRequest (slots : IntakeSlots) (displayName prRef : String) :
    CreatePreparationCaseCommand :=
  { title := orText (text slots.title) ("Mua " ++ orText (text slots.itemSummary) "hàng hoá")
    sourcePrRef := prRef
    estimatedValueMinor := slots.estimatedValueVnd.getD 0
    currency := "VND"
    deadline := counted slots.deadlineDays "ngày"
    ownerName := displayName
    prText := renderPrMarkdown slots displayName prRef
    prFilename := "chat-intake.md"
    supplierNames := slots.supplierNames }

/-! ## Presses on their way -/

/-- `ChatReply`, as far as it tells about a case. -/
inductive Reply where
  | message (text : String)
  | caseLink (caseId : Uuid) (text : String)
  deriving DecidableEq

inductive PressPhase where
  /-- A confirm found the conversation waiting for confirmation. -/
  | asked (slots : IntakeSlots)
  /-- An edit found it so. -/
  | editing
  /-- The case is committed and the conversation does not know it. -/
  | filed (caseId : Uuid)
  /-- The call ended there. -/
  | lost (caseId : Uuid)
  | stored (caseId : Uuid)
  /-- A parked draft is about to be resumed. -/
  | resuming (caseId : Uuid) (parked : ConversationView)
  /-- The call returned these replies, or raised. -/
  | over (replies : List Reply)
  deriving DecidableEq

structure Press where
  conversation : Uuid
  phase : PressPhase
  deriving DecidableEq

def Reply.linked : Reply → Option Uuid
  | .caseLink caseId _ => some caseId
  | .message _ => none

namespace Press

variable (p : Press)

/-- The conversation of a confirm between its read and its store; a confirm that
    ended after creating the case stays there. -/
def onItsWay : Option Uuid :=
  match p.phase with
  | .asked _ | .filed _ | .lost _ => some p.conversation
  | _ => none

def caseId : Option Uuid :=
  match p.phase with
  | .filed caseId | .lost caseId | .stored caseId | .resuming caseId _ => some caseId
  | .over replies => replies.findSome? Reply.linked
  | _ => none

def reports : Option Uuid :=
  match p.phase with
  | .over replies => replies.findSome? Reply.linked
  | _ => none

end Press

/-- What the first transaction of `handle_action` decides. -/
def pressed (button : Service.Button) : Option ConversationView → PressPhase
  | none => .over [.message "Không tìm thấy phiên trao đổi này (có thể đã hết hạn)."]
  | some conversation =>
    match conversation.state, conversation.caseId with
    -- a stale or double click repeats the link
    | .caseCreated, some caseId => .over [.caseLink caseId "Hồ sơ đã được tạo trước đó."]
    | .confirming, _ =>
      match button with
      | .confirm => .asked conversation.slots
      | .edit => .editing
    | _, _ => .over
      [.message "Phiên này chưa ở bước xác nhận — bạn bổ sung thông tin đã nhé."]

def editReply : Reply := .message
  "OK, bạn nhắn phần muốn sửa (vd: «ngân sách 1,5 tỷ» hoặc «thêm NCC FPT») — mình cập nhật rồi xác nhận lại nhé."

def createdReply (caseId : Uuid) : Reply := .caseLink caseId
  "✅ Mình đã tạo hồ sơ và gửi quản lý xác minh. Duyệt xong là mình chạy luôn — có tiến độ mới mình nhắn bạn ngay tại đây nhé."

/-- The reply of `_resume_parked`, after its write. -/
def resumedReply (rules : ProcurementRules) (parked : ConversationView) : Except Error Reply := do
  let missing ← missingRequired rules parked.slots
  let item := orText (text parked.slots.itemSummary)
    (orText (text parked.slots.title) "yêu cầu trước")
  let tail := if missing.isEmpty then "Thông tin đã đủ — mình chốt lại nhé."
    else "Còn thiếu: " ++ "; ".intercalate missing
  return .message ("▶️ Quay lại hồ sơ đang khai dở «" ++ item ++ "». " ++ tail)

/-! ## The machine -/

structure Filing where
  conversation : Uuid
  db : CaseDb

structure ConfirmState where
  store : ChannelStore
  filings : List Filing := []
  presses : Sessions Press := fun _ => none

def ConfirmState.casesOf (s : ConfirmState) (conversation : Uuid) : List Uuid :=
  (s.filings.filter (fun f => f.conversation = conversation)).map (·.db.case.id)

inductive ChatWrite where
  | create (conversation : Uuid)
  | state (conversation : Uuid) (state : ConversationState)
  | slots (conversation : Uuid) (state : ConversationState) (slots : IntakeSlots)
  | touch (conversation : Uuid)

/-- What the creation of a case finds outside. -/
structure Filer where
  call : Call
  directory : Directory
  displayName : String
  /-- `{now:%Y%m%d}`. -/
  day : String

inductive ConfirmAction where
  /-- A new press runs its first transaction. -/
  | press (c : Nat) (button : Service.Button) (conversation : Uuid)
  /-- A confirm lets the case be created. -/
  | create (c : Nat) (filer : Filer)
  /-- A press looks for a parked draft. -/
  | seek (c : Nat)
  /-- A press writes to a conversation. -/
  | write (c : Nat)
  /-- A press ends in an error of the database, or the process dies. -/
  | fail (c : Nat)
  | elsewhere (w : ChatWrite)

/-- A write of another handler; none of them sets `case_created`. -/
def ChatWrite.apply (s : ChannelStore) : ChatWrite → Option ChannelStore
  | .create id => if (s.get id).isSome then none else some (s.create id)
  | .state id next => if next = .caseCreated then none else some (s.setState id next)
  | .slots id next merged =>
    if next = .caseCreated then none else some (s.setSlots id next merged)
  | .touch id => some (s.touch id)

namespace ConfirmState

variable (env : Env)

def create (s : ConfirmState) (c : Nat) (filer : Filer) : Option ConfirmState :=
  match s.presses c with
  | some ⟨id, .asked slots⟩ =>
    match createCase env filer.directory filer.call
        (purchaseRequest slots filer.displayName (prReference filer.day id)) with
    | .ok db =>
      if s.filings.any (fun f => f.db.case.id == db.case.id) then none
      else some
        { s with
          filings := { conversation := id, db := db } :: s.filings
          presses := s.presses.put c ⟨id, .filed db.case.id⟩ }
    | .error e =>
      -- a conflict is told in its own words, anything else is raised
      let replies := if e.kind = .conflict then [Reply.message e.message] else []
      some { s with presses := s.presses.put c ⟨id, .over replies⟩ }
  | _ => none

def write (s : ConfirmState) (c : Nat) : Option ConfirmState :=
  match s.presses c with
  | some ⟨id, .editing⟩ => some
    { s with
      store := s.store.setState id .collecting
      presses := s.presses.put c ⟨id, .over [editReply]⟩ }
  | some ⟨id, .filed caseId⟩ => some
    { s with
      store := s.store.setCase id .caseCreated caseId
      presses := s.presses.put c ⟨id, .stored caseId⟩ }
  | some ⟨id, .resuming caseId parked⟩ =>
    let replies := match resumedReply env.rules parked with
      | .ok reply => [createdReply caseId, reply]
      | .error _ => []
    some
      { s with
        store := s.store.setState parked.id .collecting
        presses := s.presses.put c ⟨id, .over replies⟩ }
  | _ => none

def fail (s : ConfirmState) (c : Nat) : Option ConfirmState :=
  match s.presses c with
  | some ⟨id, .filed caseId⟩ => some { s with presses := s.presses.put c ⟨id, .lost caseId⟩ }
  | some ⟨_, .lost _⟩ | some ⟨_, .over _⟩ | none => none
  | some ⟨id, _⟩ => some { s with presses := s.presses.put c ⟨id, .over []⟩ }

def step (s : ConfirmState) : ConfirmAction → Option ConfirmState
  | .press c button id =>
    if (s.presses c).isSome then none
    else some { s with presses := s.presses.put c ⟨id, pressed button (s.store.get id)⟩ }
  | .create c filer => s.create env c filer
  | .seek c =>
    match s.presses c with
    | some ⟨id, .stored caseId⟩ =>
      match s.store.findParked with
      | none => some { s with presses := s.presses.put c ⟨id, .over [createdReply caseId]⟩ }
      | some parked => some { s with presses := s.presses.put c ⟨id, .resuming caseId parked⟩ }
    | _ => none
  | .write c => s.write env c
  | .fail c => s.fail c
  | .elsewhere w => (w.apply s.store).map (fun store => { s with store := store })

end ConfirmState

def confirmations (env : Env) : Machine ConfirmState ConfirmAction where
  init s := s.filings = [] ∧ (∀ c, s.presses c = none) ∧
    ∀ id conversation, s.store.get id = some conversation → conversation.state ≠ .caseCreated
  step := ConfirmState.step env

def ConfirmAction.isConfirm : ConfirmAction → Bool
  | .press _ .edit _ | .elsewhere _ => false
  | _ => true

/-! ## The condition -/

def ConfirmState.rewrites (s : ConfirmState) : ConfirmAction → Option Uuid
  | .write c =>
    match s.presses c with
    | some ⟨id, .editing⟩ => some id
    | some ⟨_, .resuming _ parked⟩ => some parked.id
    | _ => none
  | .elsewhere (.state id _) | .elsewhere (.slots id _ _) => some id
  | _ => none

def Unfiled (s : ConfirmState) (id : Uuid) : Prop :=
  ∀ conversation, s.store.get id = some conversation → conversation.state ≠ .caseCreated

/-- **The condition**: a confirm that finds its conversation waiting finds no
    other confirm of it on its way, and no write but a confirm's own lands on a
    conversation whose case was created. -/
def Undisturbed (e : Event ConfirmState ConfirmAction) : Prop :=
  (∀ c id conversation, e.act = .press c .confirm id → e.pre.store.get id = some conversation →
    conversation.state = .confirming → e.pre.presses.Free Press.onItsWay id) ∧
  ∀ id, e.pre.rewrites e.act = some id → Unfiled e.pre id

theorem Undisturbed.of_own {e : Event ConfirmState ConfirmAction}
    (hact : ∀ c button id, e.act ≠ .press c button id) (h : e.pre.rewrites e.act = none) :
    Undisturbed e := by
  constructor
  · intro c id conversation heq
    exact absurd heq (hact c .confirm id)
  · intro id hid
    rw [h] at hid
    cases hid

theorem Undisturbed.of_press {s s' : ConfirmState} {c : Nat} {button : Service.Button} {id : Uuid}
    (h : ∀ conversation, s.store.get id = some conversation → conversation.state = .confirming →
      s.presses.Free Press.onItsWay id) : Undisturbed ⟨s, .press c button id, s'⟩ := by
  constructor
  · intro c' id' conversation hact hget hstate
    obtain ⟨_, _, rfl⟩ := ConfirmAction.press.inj hact
    exact h conversation hget hstate
  · intro id' hid
    cases hid

/-! ## What holds between the transactions -/

structure OneCase (s : ConfirmState) (conversation : Uuid) : Prop where
  one : (s.casesOf conversation).length ≤ 1
  same : ∀ c p caseId, s.presses c = some p → p.conversation = conversation →
    p.reports = some caseId → s.casesOf conversation = [caseId]

/-- The invariant of undisturbed runs: who is on the way, what the store says,
    and what was created agree. -/
structure ConfirmInv (s : ConfirmState) : Prop where
  exclusive : s.presses.Exclusive Press.onItsWay
  /-- A confirm on its way is of a conversation that exists. -/
  known : ∀ c id, s.presses.Holds Press.onItsWay c id → s.store.get id ≠ none
  /-- While a confirm is about to create the case, there is none. -/
  asked : ∀ c id slots, s.presses c = some ⟨id, .asked slots⟩ → s.casesOf id = []
  /-- The case a press knows of is the only one. -/
  named : ∀ c p caseId, s.presses c = some p → p.caseId = some caseId →
    s.casesOf p.conversation = [caseId]
  /-- The case a conversation has is the only one. -/
  linked : ∀ id conversation, s.store.get id = some conversation →
    conversation.state = .caseCreated →
    ∃ caseId, conversation.caseId = some caseId ∧ s.casesOf id = [caseId]
  /-- With no confirm on its way, a conversation without a case made none. -/
  idle : ∀ id, s.presses.Free Press.onItsWay id → Unfiled s id → s.casesOf id = []

section

variable {env : Env} {s s' : ConfirmState}

theorem ConfirmInv.initial (h : (confirmations env).init s) : ConfirmInv s := by
  obtain ⟨hnone, hquiet, hunfiled⟩ := h
  have hempty : ∀ id, s.casesOf id = [] := by
    intro id
    unfold ConfirmState.casesOf
    rw [hnone]
    rfl
  constructor
  · exact Sessions.exclusive_empty hquiet
  · intro c id hheld
    exact absurd hheld (Sessions.free_empty hquiet c)
  · intro c id slots hc
    exact hempty id
  · intro c p caseId hc
    rw [hquiet c] at hc
    cases hc
  · intro id conversation hget hstate
    exact absurd hstate (hunfiled id conversation hget)
  · intro id _ _
    exact hempty id

/-- **Session step**: a press moves to a phase that the cases of its
    conversation bear out. -/
theorem ConfirmInv.put (h : ConfirmInv s) {c : Nat} {p : Press}
    (hheld : ∀ id, p.onItsWay = some id → s.presses.Holds Press.onItsWay c id ∨
      (s.presses.Free Press.onItsWay id ∧ s.store.get id ≠ none))
    (hasked : ∀ slots, p.phase = .asked slots → s.casesOf p.conversation = [])
    (hnamed : ∀ caseId, p.caseId = some caseId → s.casesOf p.conversation = [caseId])
    (hidle : ∀ id, s.presses.Holds Press.onItsWay c id → p.onItsWay ≠ some id → Unfiled s id →
      s.casesOf id = []) :
    ConfirmInv { s with presses := s.presses.put c p } := by
  constructor
  · by_cases hfree : ∃ id, p.onItsWay = some id ∧ s.presses.Free Press.onItsWay id
    · obtain ⟨id, hp, hfree⟩ := hfree
      exact h.exclusive.acquire hp hfree
    · apply h.exclusive.release
      intro id hp
      rcases hheld id hp with hold | ⟨hfree', _⟩
      · exact hold
      · exact absurd ⟨id, hp, hfree'⟩ hfree
  · intro d id hd
    rcases Sessions.holds_put.mp hd with ⟨rfl, hp⟩ | ⟨_, hd⟩
    · rcases hheld id hp with hold | ⟨_, hknown⟩
      · exact h.known _ id hold
      · exact hknown
    · exact h.known d id hd
  · intro d id slots hd
    rcases Sessions.put_some hd with ⟨_, rfl⟩ | ⟨_, hd⟩
    · exact hasked slots rfl
    · exact h.asked d id slots hd
  · intro d q caseId hd hq
    rcases Sessions.put_some hd with ⟨_, rfl⟩ | ⟨_, hd⟩
    · exact hnamed caseId hq
    · exact h.named d q caseId hd hq
  · exact h.linked
  · intro id hfree hunfiled
    have hp : p.onItsWay ≠ some id := by
      intro hp
      exact hfree c (Sessions.holds_put.mpr (.inl ⟨rfl, hp⟩))
    by_cases hc : s.presses.Holds Press.onItsWay c id
    · exact hidle id hc hp hunfiled
    · apply h.idle id _ hunfiled
      intro d hd
      exact hc (hfree.before hd ▸ hd)

/-- **Store step**: a write that keeps every conversation whose case was created,
    and creates no such conversation. -/
theorem ConfirmInv.store (h : ConfirmInv s) {store : ChannelStore}
    (hknown : ∀ id, s.store.get id ≠ none → store.get id ≠ none)
    (hkept : ∀ id conversation, store.get id = some conversation →
      conversation.state = .caseCreated → s.store.get id = some conversation)
    (hunfiled : ∀ id conversation, s.store.get id = some conversation →
      conversation.state = .caseCreated → store.get id = some conversation) :
    ConfirmInv { s with store := store } := by
  constructor
  · exact h.exclusive
  · exact fun c id hheld => hknown id (h.known c id hheld)
  · exact h.asked
  · exact h.named
  · exact fun id conversation hget hstate =>
      h.linked id conversation (hkept id conversation hget hstate) hstate
  · intro id hfree hun
    apply h.idle id hfree
    intro conversation hget hstate
    exact hun conversation (hunfiled id conversation hget hstate) hstate

theorem ConfirmInv.rewrite (h : ConfirmInv s) {id : Uuid}
    {f : ConversationView → ConversationView} (hid : ∀ c, (f c).id = c.id)
    (hstate : ∀ c, (f c).state ≠ .caseCreated) (hun : Unfiled s id) :
    ConfirmInv { s with store := s.store.write id f } := by
  apply h.store
  · intro other hknown
    rw [ChannelStore.get_write hid]
    by_cases hother : other = id
    · subst hother
      rw [if_pos rfl]
      simpa using hknown
    · rw [if_neg hother]
      exact hknown
  · intro other conversation hget hcreated
    rw [ChannelStore.get_write hid] at hget
    by_cases hother : other = id
    · rw [if_pos hother] at hget
      obtain ⟨c, _, rfl⟩ := Option.map_eq_some_iff.mp hget
      exact absurd hcreated (hstate c)
    · rw [if_neg hother] at hget
      exact hget
  · intro other conversation hget hcreated
    have hother : other ≠ id := by
      rintro rfl
      exact hun conversation hget hcreated
    rw [ChannelStore.get_write hid, if_neg hother]
    exact hget

theorem ConfirmInv.touch (h : ConfirmInv s) (id : Uuid) :
    ConfirmInv { s with store := s.store.touch id } := by
  have hsame : ∀ other, (s.store.touch id).get other = s.store.get other := by
    intro other
    unfold ChannelStore.touch
    rw [ChannelStore.get_write (fun _ => rfl)]
    split
    · next hother => simp [hother]
    · rfl
  apply h.store
  · intro other hknown
    rw [hsame]
    exact hknown
  · intro other conversation hget _
    rw [← hsame]
    exact hget
  · intro other conversation hget _
    rw [hsame]
    exact hget

/-! ## Every step of a press -/

theorem pressed_onItsWay {button : Service.Button} {found : Option ConversationView}
    {id other : Uuid} (h : (⟨id, pressed button found⟩ : Press).onItsWay = some other) :
    other = id ∧ button = .confirm ∧
      ∃ conversation, found = some conversation ∧ conversation.state = .confirming := by
  unfold pressed at h
  split at h
  · cases h
  · next conversation =>
    split at h
    · cases h
    · next hstate =>
      cases button with
      | confirm => exact ⟨(Option.some.inj h).symm, rfl, conversation, rfl, hstate⟩
      | edit => cases h
    · cases h

theorem pressed_caseId {button : Service.Button} {found : Option ConversationView}
    {id caseId : Uuid} (h : (⟨id, pressed button found⟩ : Press).caseId = some caseId) :
    ∃ conversation, found = some conversation ∧ conversation.state = .caseCreated ∧
      conversation.caseId = some caseId := by
  unfold pressed at h
  split at h
  · cases h
  · next conversation =>
    split at h
    · next k hstate hcase =>
      obtain rfl : k = caseId := Option.some.inj h
      exact ⟨conversation, rfl, hstate, hcase⟩
    · cases button <;> cases h
    · cases h

theorem ConfirmInv.press (h : ConfirmInv s) {c : Nat} {button : Service.Button} {id : Uuid}
    (hnew : s.presses c = none)
    (hfree : ∀ conversation, button = .confirm → s.store.get id = some conversation →
      conversation.state = .confirming → s.presses.Free Press.onItsWay id) :
    ConfirmInv { s with presses := s.presses.put c ⟨id, pressed button (s.store.get id)⟩ } := by
  have hidle : ∀ slots, pressed button (s.store.get id) = .asked slots → s.casesOf id = [] ∧
      s.presses.Free Press.onItsWay id ∧ s.store.get id ≠ none := by
    intro slots hasked
    have hway : (⟨id, pressed button (s.store.get id)⟩ : Press).onItsWay = some id := by
      rw [hasked]
      rfl
    obtain ⟨_, hbutton, conversation, hget, hstate⟩ := pressed_onItsWay hway
    have hfree := hfree conversation hbutton hget hstate
    refine ⟨h.idle id hfree ?_, hfree, by simp [hget]⟩
    intro other hother hcreated
    rw [hget] at hother
    obtain rfl := Option.some.inj hother
    rw [hstate] at hcreated
    cases hcreated
  apply h.put
  · intro other hway
    obtain ⟨rfl, hbutton, conversation, hget, hstate⟩ := pressed_onItsWay hway
    exact .inr ⟨hfree conversation hbutton hget hstate, by simp [hget]⟩
  · exact fun slots hasked => (hidle slots hasked).1
  · intro caseId hcase
    obtain ⟨conversation, hget, hstate, hk⟩ := pressed_caseId hcase
    obtain ⟨k, hk', hcases⟩ := h.linked id conversation hget hstate
    rw [hk] at hk'
    obtain rfl := Option.some.inj hk'
    exact hcases
  · rintro other ⟨p, hp, _⟩
    rw [hnew] at hp
    cases hp

theorem holds_of {t : Sessions Press} {c : Nat} {p : Press} {id : Uuid} (hc : t c = some p)
    (h : t.Holds Press.onItsWay c id) : p.onItsWay = some id := by
  obtain ⟨q, hq, hid⟩ := h
  rw [hc] at hq
  obtain rfl := Option.some.inj hq
  exact hid

theorem ConfirmInv.finish (h : ConfirmInv s) {c : Nat} {p : Press} {replies : List Reply}
    (hc : s.presses c = some p)
    (hreplies : ∀ caseId, replies.findSome? Reply.linked = some caseId → p.caseId = some caseId)
    (hway : p.onItsWay = none ∨ s.casesOf p.conversation = []) :
    ConfirmInv { s with presses := s.presses.put c ⟨p.conversation, .over replies⟩ } := by
  apply h.put
  · intro id hid
    cases hid
  · intro slots hasked
    cases hasked
  · intro caseId hcase
    exact h.named c p caseId hc (hreplies caseId hcase)
  · intro id hheld _ _
    have hid := holds_of hc hheld
    rcases hway with hnone | hempty
    · rw [hnone] at hid
      cases hid
    · have hsame : id = p.conversation := by
        unfold Press.onItsWay at hid
        split at hid <;> first
          | exact (Option.some.inj hid).symm
          | cases hid
      rw [hsame]
      exact hempty

theorem casesOf_cons {f : Filing} (id : Uuid) :
    ({ s with filings := f :: s.filings } : ConfirmState).casesOf id =
      if f.conversation = id then f.db.case.id :: s.casesOf id else s.casesOf id := by
  unfold ConfirmState.casesOf
  rw [List.filter_cons]
  by_cases hid : f.conversation = id <;> simp [hid]

/-- **Creation step**: a confirm on its way creates the case of its
    conversation. -/
theorem ConfirmInv.file (h : ConfirmInv s) {c : Nat} {id : Uuid} {slots : IntakeSlots}
    (hc : s.presses c = some ⟨id, .asked slots⟩) (db : CaseDb) :
    ConfirmInv
      { s with
        filings := { conversation := id, db := db } :: s.filings
        presses := s.presses.put c ⟨id, .filed db.case.id⟩ } := by
  have hempty : s.casesOf id = [] := h.asked c id slots hc
  have hheld : s.presses.Holds Press.onItsWay c id := ⟨_, hc, rfl⟩
  have hone : ({ s with filings := { conversation := id, db := db } :: s.filings } :
      ConfirmState).casesOf id = [db.case.id] := by
    rw [casesOf_cons, if_pos rfl, hempty]
  have hothers : ∀ other, other ≠ id →
      ({ s with filings := { conversation := id, db := db } :: s.filings } :
        ConfirmState).casesOf other = s.casesOf other := by
    intro other hne
    rw [casesOf_cons, if_neg (Ne.symm hne)]
  -- whoever knows of a case of a conversation knows of it for another one
  have hnot : ∀ other caseId, s.casesOf other = [caseId] → other ≠ id := by
    rintro other caseId hold rfl
    rw [hempty] at hold
    cases hold
  constructor
  · apply h.exclusive.release
    intro other hother
    obtain rfl : id = other := Option.some.inj hother
    exact hheld
  · intro d other hd
    rcases Sessions.holds_put.mp hd with ⟨_, hp⟩ | ⟨_, hold⟩
    · obtain rfl : id = other := Option.some.inj hp
      exact h.known c id hheld
    · exact h.known d other hold
  · intro d other slots' hd
    rcases Sessions.put_some hd with ⟨_, hp⟩ | ⟨hne, hold⟩
    · cases hp
    · have hother : other ≠ id := by
        intro heq
        exact hne (h.exclusive d c id ⟨_, hold, congrArg some heq⟩ hheld)
      exact (hothers other hother).trans (h.asked d other slots' hold)
  · intro d p caseId hd hcase
    rcases Sessions.put_some hd with ⟨_, rfl⟩ | ⟨_, hold⟩
    · obtain rfl : db.case.id = caseId := Option.some.inj hcase
      exact hone
    · have hknown := h.named d p caseId hold hcase
      exact (hothers _ (hnot _ _ hknown)).trans hknown
  · intro other conversation hget hstate
    obtain ⟨caseId, hk, hknown⟩ := h.linked other conversation hget hstate
    exact ⟨caseId, hk, (hothers other (hnot other caseId hknown)).trans hknown⟩
  · intro other hfree hun
    have hother : other ≠ id := by
      rintro rfl
      exact hfree c (Sessions.holds_put.mpr (.inl ⟨rfl, rfl⟩))
    refine (hothers other hother).trans (h.idle other ?_ hun)
    intro d hd
    obtain rfl := hfree.before hd
    exact hother (Option.some.inj (holds_of hc hd)).symm

theorem ConfirmInv.create (h : ConfirmInv s) {c : Nat} {filer : Filer}
    (hs : s.create env c filer = some s') : ConfirmInv s' := by
  unfold ConfirmState.create at hs
  split at hs
  · next id slots hc =>
    split at hs
    · next db _ =>
      split at hs
      · cases hs
      · obtain rfl := Option.some.inj hs
        exact h.file hc db
    · next e _ =>
      obtain rfl := Option.some.inj hs
      apply h.finish hc _ (.inr (h.asked c id slots hc))
      intro caseId hlinked
      split at hlinked <;> cases hlinked
  · cases hs

theorem step_create (c : Nat) (filer : Filer) {id : Uuid} {slots : IntakeSlots} {db : CaseDb}
    (hc : s.presses c = some ⟨id, .asked slots⟩)
    (hdb : createCase env filer.directory filer.call
      (purchaseRequest slots filer.displayName (prReference filer.day id)) = .ok db)
    (hnew : s.filings.any (fun f => f.db.case.id == db.case.id) = false) :
    (confirmations env).step s (.create c filer) = some
      { s with
        filings := { conversation := id, db := db } :: s.filings
        presses := s.presses.put c ⟨id, .filed db.case.id⟩ } := by
  show s.create env c filer = _
  simp [ConfirmState.create, hc, hdb, hnew]

theorem ConfirmInv.storeCase (h : ConfirmInv s) {c : Nat} {id caseId : Uuid}
    (hc : s.presses c = some ⟨id, .filed caseId⟩) :
    ConfirmInv
      { s with
        store := s.store.setCase id .caseCreated caseId
        presses := s.presses.put c ⟨id, .stored caseId⟩ } := by
  have hcases : s.casesOf id = [caseId] := h.named c _ caseId hc rfl
  have hheld : s.presses.Holds Press.onItsWay c id := ⟨_, hc, rfl⟩
  have hget : ∀ other, (s.store.setCase id .caseCreated caseId).get other =
      if other = id then (s.store.get id).map (fun v =>
        { v with state := .caseCreated, caseId := some caseId }) else s.store.get other :=
    ChannelStore.get_write (fun _ => rfl)
  constructor
  · apply h.exclusive.release
    intro other hother
    cases hother
  · intro d other hd
    rcases Sessions.holds_put.mp hd with ⟨_, hp⟩ | ⟨_, hold⟩
    · cases hp
    · have hknown := h.known d other hold
      show (s.store.setCase id .caseCreated caseId).get other ≠ none
      rw [hget]
      split
      · next heq =>
        rw [heq] at hknown
        simpa using hknown
      · exact hknown
  · intro d other slots hd
    rcases Sessions.put_some hd with ⟨_, hp⟩ | ⟨_, hold⟩
    · cases hp
    · exact h.asked d other slots hold
  · intro d p k hd hk
    rcases Sessions.put_some hd with ⟨_, rfl⟩ | ⟨_, hold⟩
    · obtain rfl : caseId = k := Option.some.inj hk
      exact hcases
    · exact h.named d p k hold hk
  · intro other conversation hother hstate
    rw [show _ = _ from hget other] at hother
    split at hother
    · next heq =>
      obtain ⟨v, _, rfl⟩ := Option.map_eq_some_iff.mp hother
      exact ⟨caseId, rfl, by rw [heq]; exact hcases⟩
    · exact h.linked other conversation hother hstate
  · intro other hfree hun
    -- the conversation of this confirm has its case now
    have hother : other ≠ id := by
      rintro rfl
      obtain ⟨v, hv⟩ := Option.ne_none_iff_exists'.mp (h.known c other hheld)
      refine hun { v with state := .caseCreated, caseId := some caseId } ?_ rfl
      show (s.store.setCase other .caseCreated caseId).get other = _
      rw [hget, if_pos rfl, hv]
      rfl
    apply h.idle other
    · intro d hd
      obtain rfl := hfree.before hd
      exact hother (Option.some.inj (holds_of hc hd)).symm
    · intro conversation hread
      apply hun conversation
      show (s.store.setCase id .caseCreated caseId).get other = _
      rw [hget, if_neg hother]
      exact hread

theorem ConfirmInv.write (h : ConfirmInv s) {c : Nat} (hs : s.write env c = some s')
    (hok : ∀ id, s.rewrites (.write c) = some id → Unfiled s id) : ConfirmInv s' := by
  unfold ConfirmState.write at hs
  split at hs
  · next id hc =>
    obtain rfl := Option.some.inj hs
    have hun : Unfiled s id := hok id (by simp only [ConfirmState.rewrites, hc])
    have hstore : ConfirmInv { s with store := s.store.setState id .collecting } :=
      h.rewrite (fun _ => rfl) (fun _ => by simp) hun
    exact hstore.finish hc (fun _ hlinked => by cases hlinked) (.inl rfl)
  · next id caseId hc =>
    obtain rfl := Option.some.inj hs
    exact h.storeCase hc
  · next id caseId parked hc =>
    obtain rfl := Option.some.inj hs
    have hun : Unfiled s parked.id := hok parked.id (by simp only [ConfirmState.rewrites, hc])
    have hstore : ConfirmInv { s with store := s.store.setState parked.id .collecting } :=
      h.rewrite (fun _ => rfl) (fun _ => by simp) hun
    apply hstore.finish hc _ (.inl rfl)
    intro k hlinked
    split at hlinked
    · exact hlinked
    · cases hlinked
  · cases hs

theorem ConfirmInv.fail (h : ConfirmInv s) {c : Nat} (hs : s.fail c = some s') :
    ConfirmInv s' := by
  unfold ConfirmState.fail at hs
  split at hs
  · next id caseId hc =>
    obtain rfl := Option.some.inj hs
    -- a lost confirm stays on its way: its case exists, and is stored nowhere
    apply h.put
    · intro other hother
      exact .inl ⟨_, hc, hother⟩
    · intro slots hasked
      cases hasked
    · intro k hk
      exact h.named c ⟨id, .filed caseId⟩ k hc hk
    · intro other hheld hnot _
      exact absurd (holds_of hc hheld) hnot
  · cases hs
  · cases hs
  · cases hs
  · next p id phase hfiled hlost hover hc =>
    obtain rfl := Option.some.inj hs
    apply h.finish hc (fun _ hlinked => by cases hlinked)
    cases phase with
    | asked slots => exact .inr (h.asked c id slots hc)
    | filed caseId => exact absurd rfl (hfiled caseId)
    | lost caseId => exact absurd rfl (hlost caseId)
    | _ => exact .inl rfl

theorem ConfirmInv.elsewhere (h : ConfirmInv s) {w : ChatWrite} {store : ChannelStore}
    (hs : w.apply s.store = some store)
    (hok : ∀ id, s.rewrites (.elsewhere w) = some id → Unfiled s id) :
    ConfirmInv { s with store := store } := by
  cases w with
  | create id =>
    simp only [ChatWrite.apply] at hs
    split at hs
    · cases hs
    · next hfresh =>
      obtain rfl := Option.some.inj hs
      have hfresh : s.store.get id = none := by simpa using hfresh
      apply h.store
      · intro other hknown
        rw [ChannelStore.get_create hfresh]
        split
        · exact Option.some_ne_none _
        · exact hknown
      · intro other conversation hget hcreated
        rw [ChannelStore.get_create hfresh] at hget
        split at hget
        · obtain rfl := Option.some.inj hget
          cases hcreated
        · exact hget
      · intro other conversation hget _
        rw [ChannelStore.get_create hfresh]
        split
        · next heq =>
          rw [heq, hfresh] at hget
          cases hget
        · exact hget
  | state id next =>
    simp only [ChatWrite.apply] at hs
    split at hs
    · cases hs
    · next hnext =>
      obtain rfl := Option.some.inj hs
      exact h.rewrite (fun _ => rfl) (fun _ => hnext) (hok id rfl)
  | slots id next merged =>
    simp only [ChatWrite.apply] at hs
    split at hs
    · cases hs
    · next hnext =>
      obtain rfl := Option.some.inj hs
      exact h.rewrite (fun _ => rfl) (fun _ => hnext) (hok id rfl)
  | touch id =>
    obtain rfl := Option.some.inj hs
    exact h.touch id

/-! ## Undisturbed runs -/

theorem ConfirmInv.step {a : ConfirmAction} (h : ConfirmInv s) (hs : s.step env a = some s')
    (hok : Undisturbed ⟨s, a, s'⟩) : ConfirmInv s' := by
  obtain ⟨halone, hstale⟩ := hok
  cases a with
  | press c button id =>
    simp only [ConfirmState.step] at hs
    split at hs
    · cases hs
    · next hnew =>
      obtain rfl := Option.some.inj hs
      apply h.press (by simpa using hnew)
      intro conversation hbutton hget hstate
      exact halone c id conversation (by rw [hbutton]) hget hstate
  | create c filer => exact h.create hs
  | seek c =>
    simp only [ConfirmState.step] at hs
    split at hs
    · next id caseId hc =>
      split at hs
      · obtain rfl := Option.some.inj hs
        exact h.finish hc (fun _ hlinked => hlinked) (.inl rfl)
      · next parked _ =>
        obtain rfl := Option.some.inj hs
        apply h.put
        · intro other hother
          cases hother
        · intro slots hasked
          cases hasked
        · intro k hk
          exact h.named c ⟨id, .stored caseId⟩ k hc hk
        · intro other hheld _ _
          cases holds_of hc hheld
    · cases hs
  | write c => exact h.write hs hstale
  | fail c => exact h.fail hs
  | elsewhere w =>
    obtain ⟨store, hstore, rfl⟩ := Option.map_eq_some_iff.mp hs
    exact h.elsewhere hstore hstale

theorem Press.caseId_of_reports {p : Press} {caseId : Uuid} (h : p.reports = some caseId) :
    p.caseId = some caseId := by
  unfold Press.reports at h
  unfold Press.caseId
  split at h
  · next replies hphase =>
    rw [hphase]
    exact h
  · cases h

theorem ConfirmInv.oneCase (h : ConfirmInv s) (id : Uuid) : OneCase s id where
  one := by
    by_cases hunfiled : Unfiled s id
    · by_cases hfree : s.presses.Free Press.onItsWay id
      · rw [h.idle id hfree hunfiled]
        exact Nat.zero_le 1
      · -- somebody is on the way: about to create, or knowing of the one case
        simp only [Sessions.Free, not_forall, not_not] at hfree
        obtain ⟨c, ⟨conversation, phase⟩, hc, hheld⟩ := hfree
        cases phase with
        | asked slots =>
          obtain rfl : conversation = id := Option.some.inj hheld
          rw [h.asked c conversation slots hc]
          exact Nat.zero_le 1
        | filed caseId | lost caseId =>
          obtain rfl : conversation = id := Option.some.inj hheld
          rw [show s.casesOf conversation = [caseId] from h.named c _ caseId hc rfl]
          exact Nat.le_refl 1
        | _ => cases hheld
    · simp only [Unfiled, not_forall, not_not] at hunfiled
      obtain ⟨conversation, hget, hstate⟩ := hunfiled
      obtain ⟨caseId, _, hcases⟩ := h.linked id conversation hget hstate
      rw [hcases]
      exact Nat.le_refl 1
  same := by
    rintro c p caseId hc rfl hreports
    exact h.named c p caseId hc (Press.caseId_of_reports hreports)

/-- **Main theorem**: in every undisturbed run a conversation creates at most
    one case, and every confirm that returns with a link reports it. -/
theorem one_case_per_conversation (env : Env)
    {es : List (Event ConfirmState ConfirmAction)} {s : ConfirmState}
    (hrun : Exec (confirmations env) es s) (hok : ∀ e ∈ es, Undisturbed e) (id : Uuid) :
    OneCase s id := by
  have hinv : ConfirmInv s :=
    hrun.invariant_of (fun _ => ConfirmInv.initial)
      (fun _ _ _ hinv hs hok => hinv.step hs hok) hok
  exact hinv.oneCase id

end

/-! ## One press, pressed again, and two at once -/

namespace Laptops

def slots : IntakeSlots :=
  { itemSummary := some "laptop", quantity := some 2, estimatedValueVnd := some 100
    deadlineDays := some 30, deliveryLocation := some "HN", supplierNames := ["Minh Long"] }

def talk : Uuid := { text := "talk" }

def asked : ConfirmState :=
  { store :=
      { rows := [{ view := { id := talk, state := .confirming, slots := slots }
                   createdAt := 0, updatedAt := 0 }]
        clock := 1 } }

theorem asked_init : (confirmations Office.env).init asked := by
  refine ⟨rfl, fun _ => rfl, ?_⟩
  intro id conversation hget
  obtain ⟨r, hr, rfl, _⟩ := ChannelStore.mem_of_get hget
  obtain rfl := List.mem_singleton.mp hr
  decide

def filer (caseId : Uuid) : Filer :=
  { call := { Office.call Office.an with
      newId := fun n => if n = 0 then caseId else { text := "other" } }
    directory := Office.directory, displayName := "An", day := "20260105" }

def firstCase : Uuid := { text := "first" }
def secondCase : Uuid := { text := "second" }

def answer (caseId : Uuid) : Except Error CaseDb :=
  createCase Office.env Office.directory (filer caseId).call
    (purchaseRequest slots "An" (prReference "20260105" talk))

theorem answered {caseId : Uuid}
    (h : (answer caseId).toOption.map (·.case.id) = some caseId) :
    ∃ db, answer caseId = .ok db ∧ db.case.id = caseId := by
  cases hanswer : answer caseId with
  | error e =>
    rw [hanswer] at h
    cases h
  | ok db =>
    rw [hanswer] at h
    exact ⟨db, rfl, Option.some.inj h⟩

theorem first_created : ∃ db, answer firstCase = .ok db ∧ db.case.id = firstCase :=
  answered (by decide +kernel)

theorem second_created : ∃ db, answer secondCase = .ok db ∧ db.case.id = secondCase :=
  answered (by decide +kernel)

end Laptops

/-- The case is there when the button is pressed again, and the link is
    repeated. -/
theorem second_press_repeats_link : ∃ s, OneCase s Laptops.talk ∧
    (s.presses 1).bind Press.reports = some Laptops.firstCase ∧
      s.casesOf Laptops.talk = [Laptops.firstCase] := by
  obtain ⟨db, hdb, hid⟩ := Laptops.first_created
  have hpress := (Exec.start Laptops.asked_init).next (.press 0 .confirm Laptops.talk) rfl
  have hcreate := hpress.snoc (step_create 0 (Laptops.filer Laptops.firstCase) rfl hdb rfl)
  have hseek := (hcreate.next (.write 0) rfl).next (.seek 0) rfl
  refine ⟨_, one_case_per_conversation Office.env
    (hseek.next (.press 1 .confirm Laptops.talk) rfl) ?_ Laptops.talk, ?_, ?_⟩
  · intro e he
    simp only [List.mem_cons, List.not_mem_nil, or_false] at he
    rcases he with rfl | rfl | rfl | rfl | rfl
    · -- the second press finds the case created
      apply Undisturbed.of_press
      intro conversation hget hstate
      obtain rfl := Option.some.inj hget
      cases hstate
    · exact .of_own (by simp) rfl
    · exact .of_own (by simp) rfl
    · exact .of_own (by simp) rfl
    · -- the first one finds nobody on the way
      exact .of_press (fun _ _ _ => Sessions.free_empty (fun _ => rfl))
  · rw [← hid]
    rfl
  · rw [← hid]
    rfl

/-- Two presses that both find the conversation waiting create two cases. -/
theorem two_cases_of_one_request : ¬ ∀ (env : Env)
    (es : List (Event ConfirmState ConfirmAction)) (s : ConfirmState),
    Exec (confirmations env) es s → (∀ e ∈ es, e.act.isConfirm = true) → ∀ id, OneCase s id := by
  intro hall
  obtain ⟨db, hdb, hid⟩ := Laptops.first_created
  obtain ⟨db', hdb', hid'⟩ := Laptops.second_created
  have hpress := ((Exec.start Laptops.asked_init).next (.press 0 .confirm Laptops.talk) rfl).next
    (.press 1 .confirm Laptops.talk) rfl
  have hfirst := hpress.snoc (step_create 0 (Laptops.filer Laptops.firstCase) rfl hdb rfl)
  have hfresh : ([⟨Laptops.talk, db⟩] : List Filing).any (fun f =>
      f.db.case.id == db'.case.id) = false := by
    simp only [List.any_cons, List.any_nil, hid, hid']
    decide
  have hsecond := hfirst.snoc (step_create 1 (Laptops.filer Laptops.secondCase) rfl hdb' hfresh)
  have hone : 2 ≤ 1 := (hall Office.env _ _ hsecond (by
    intro e he
    simp only [List.mem_cons, List.not_mem_nil, or_false] at he
    rcases he with rfl | rfl | rfl | rfl <;> rfl) Laptops.talk).one
  omega

end DigitalWorker.Conversation
