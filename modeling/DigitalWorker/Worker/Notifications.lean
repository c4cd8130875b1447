import DigitalWorker.Framework.Machine
import DigitalWorker.Framework.Rows
import DigitalWorker.Framework.Sessions
import DigitalWorker.Preparation.Store
import Mathlib.Algebra.Group.Nat.Defs

/-! # The outbox of notification cards and its workers

    A card is a job in a table. A delivery worker claims a job that is due, or
    one whose claim has grown stale, sends the card and records what became of
    it. Claim and record are transactions of their own; the record finds the job
    by its id and by the status `processing`.

    Any number of workers share one outbox and one clock. A worker may be slow or
    die between any two steps, and need not hear what became of a transaction.
-/

namespace DigitalWorker.Worker

open Framework

/-! ## The table -/

/-- `IntakeNotificationType`: the cards of a case, and those of the law watch and
    of rework support. -/
inductive NotificationType where
  | intake (type : IntakeNotificationType)
  | lawChangeDetected
  | reworkSupportOffered
  | reworkSupportRequired
  | reworkExplanationEscalated
  deriving DecidableEq

inductive NotificationJobStatus where
  | queued
  | processing
  | sent
  | failed
  | cancelled
  deriving DecidableEq

theorem five_pos : 0 < 5 := by decide

/-- A row of `tender.approval_notification_jobs`. -/
structure IntakeNotificationJob where
  id : Uuid
  tenantId : Uuid
  workspaceId : Uuid
  caseId : Uuid
  eventType : NotificationType
  recipientUserId : Uuid
  dueAt : DateTime
  idempotencyKey : String
  payload : Dict := []
  status : NotificationJobStatus := .queued
  attempts : Nat := 0
  maxAttempts : Nat := 5
  lastError : Option String := none
  slackChannelId : Option String := none
  slackMessageTs : Option String := none
  claimedAt : Option DateTime := none
  sentAt : Option DateTime := none
  updatedAt : DateTime
  positive : 0 < maxAttempts := by exact DigitalWorker.Worker.five_pos

/-- `sent`, `failed` and `cancelled` are the ends of a job. -/
def NotificationJobStatus.terminal : NotificationJobStatus → Bool
  | .queued | .processing => false
  | .sent | .failed | .cancelled => true

/-- `timedelta(seconds=n)`. -/
def seconds (n : Nat) : Int := n * 1000000

structure IntakeNotificationDelivery where
  job : IntakeNotificationJob
  recipientSubject : String
  caseState : CaseState

/-- What the store and the consumer are configured with. -/
structure NotifierConfig where
  staleAfterSeconds : Nat := 120
  /-- `platform.users`, by id: the subject. -/
  users : Uuid → Option String
  /-- The Slack member of a subject. -/
  userMap : String → Option String
  repr : Json → String

/-! ## Claiming -/

section

variable (config : NotifierConfig)

def IntakeNotificationJob.stale (now : DateTime) (r : IntakeNotificationJob) : Bool :=
  match r.claimedAt with
  | some claimed => claimed < now - seconds config.staleAfterSeconds
  | none => false

/-- The `WHERE` clause of `claim_next`. -/
def IntakeNotificationJob.due (now : DateTime) (r : IntakeNotificationJob) : Bool :=
  r.dueAt ≤ now && (r.status == .queued || (r.status == .processing && r.stale config now))

def IntakeNotificationJob.claimed (now : DateTime) (r : IntakeNotificationJob) :
    IntakeNotificationJob :=
  { r with
    status := .processing, attempts := r.attempts + 1, claimedAt := some now, updatedAt := now }

def IntakeNotificationJob.taken (now : DateTime) (r : IntakeNotificationJob) :
    IntakeNotificationJob :=
  { r with
    attempts := r.attempts + 1, claimedAt := some now }

end

/-! ## Delivering -/

/-- How a delivery comes out: the call of the store that records it. -/
inductive Outcome where
  | sent (channel ts : String)
  | cancelled (reason : String)
  | failed (error : String)
  | retry (error : String)
  deriving DecidableEq

def permanentSlackErrors : List String :=
  ["account_inactive", "channel_not_found", "invalid_auth", "invalid_member_id", "missing_scope",
    "not_allowed_token_type", "token_expired", "token_revoked", "user_not_found"]

def slackErrorMessages : List (String × String) :=
  [("account_inactive", "Ứng dụng Slack không còn hoạt động trong workspace."),
    ("channel_not_found", "Slack không tìm thấy cuộc trò chuyện với thành viên."),
    ("invalid_auth", "Token Slack không hợp lệ."),
    ("invalid_member_id", "Member ID Slack không đúng định dạng."),
    ("missing_scope", "Ứng dụng Slack chưa được cấp đủ quyền gửi tin nhắn."),
    ("not_allowed_token_type", "Loại token Slack hiện tại không được hỗ trợ."),
    ("token_expired", "Token Slack đã hết hạn."),
    ("token_revoked", "Token Slack đã bị thu hồi hoặc ứng dụng đã bị gỡ."),
    ("user_not_found", "Slack không tìm thấy thành viên. Hãy kiểm tra Member ID và bảo đảm " ++
      "thành viên thuộc đúng workspace đã cài ứng dụng.")]

/-- `_slack_failure`, on the `slack_error` of the exception (empty for an
    exception that carries none): the text to record and whether to give up. -/
def slackFailure (code : String) : String × Bool :=
  if code = "" then ("Chưa thể kết nối tới Slack. Hệ thống sẽ thử lại tự động.", false)
  else
    let message := match slackErrorMessages.find? (fun p => p.1 == code) with
      | some p => p.2
      | none => "Slack từ chối yêu cầu gửi thông báo."
    (message ++ " (mã: " ++ code ++ ")", permanentSlackErrors.contains code)

def expectedState (checkpoint : String) : Option CaseState :=
  if checkpoint = "CP1" then some .cp1Pending
  else if checkpoint = "CP2" then some .cp2Pending
  else if checkpoint = "CP3" then some .cp3Pending
  else if checkpoint = "CP4" then some .receivingBids
  else none

/-- What the notifier answers: the message sent, or the `slack_error` of the
    exception. -/
abbrev SendAnswer := Except String (String × String)

/-- `SlackApprovalConsumer.__call__` between the claim and the record. -/
def deliver (config : NotifierConfig) (delivery : IntakeNotificationDelivery)
    (answer : SendAnswer) : Outcome :=
  let job := delivery.job
  let state := delivery.caseState
  let expected := expectedState ((job.payload.getD "checkpoint" (.str "")).pyStr config.repr)
  if (job.eventType = .intake .approvalRequested ∨ job.eventType = .intake .approvalEscalated) ∧
      state ≠ .draft then
    .cancelled ("case no longer pending intake (" ++ state.value ++ ")")
  else if job.eventType = .intake .cpApprovalRequested ∧ expected.isSome ∧ expected ≠ some state then
    .cancelled ("checkpoint no longer pending (" ++ state.value ++ ")")
  else
    match config.userMap delivery.recipientSubject with
    | none | some "" => .failed "Chưa cấu hình Member ID Slack cho người nhận."
    | some _ =>
      match answer with
      | .ok (channel, ts) => .sent channel ts
      | .error code =>
        let (error, permanent) := slackFailure code
        if permanent then .failed error else .retry error

/-! ## Recording -/

/-- `2 ** max(attempts - 1, 0)`, at most a minute. -/
def retryDelay (attempts : Nat) : Nat := min (2 ^ (attempts - 1)) 60

def Outcome.values (job : IntakeNotificationJob) (now : DateTime) (r : IntakeNotificationJob) :
    Outcome → IntakeNotificationJob
  | .sent channel ts => { r with
      status := .sent, slackChannelId := some channel, slackMessageTs := some ts
      sentAt := some now, lastError := none, updatedAt := now }
  | .cancelled reason => { r with
      status := .cancelled, lastError := some (take reason 2000), updatedAt := now }
  | .failed error => { r with
      status := .failed, claimedAt := none, lastError := some (take error 2000), updatedAt := now }
  | .retry error =>
    if job.maxAttempts ≤ job.attempts then { r with
      status := .failed, lastError := some (take error 2000), updatedAt := now }
    else { r with
      status := .queued, dueAt := now + seconds (retryDelay job.attempts), claimedAt := none
      lastError := some (take error 2000), updatedAt := now }

/-- `_update`: only a row that is `processing` is written. -/
def Outcome.record (job : IntakeNotificationJob) (now : DateTime) (outcome : Outcome)
    (r : IntakeNotificationJob) : IntakeNotificationJob :=
  if r.status = .processing then outcome.values job now r else r

/-! ## The machine -/

inductive NotifierPhase where
  | idle
  | delivering (delivery : IntakeNotificationDelivery)
  | recording (delivery : IntakeNotificationDelivery) (outcome : Outcome)
  /-- The process is gone. -/
  | dead

def NotifierPhase.delivery : NotifierPhase → Option IntakeNotificationDelivery
  | .delivering delivery => some delivery
  | .recording delivery _ => some delivery
  | .idle | .dead => none

structure Outbox where
  jobs : List IntakeNotificationJob := []
  /-- `tender.preparation_cases`, by id: the state. -/
  cases : Uuid → Option CaseState := fun _ => none
  clock : DateTime := 0
  workers : Sessions NotifierPhase := fun _ => none

inductive OutboxAction where
  | tick (now : DateTime)
  | caseMoves (caseId : Uuid) (state : CaseState)
  | enqueue (job : IntakeNotificationJob)
  | start (w : Nat)
  /-- `claim_next` returns the row of `id`; `skipped` are the rows that other
      claims have locked at that moment. -/
  | claim (w : Nat) (id : Uuid) (skipped : List Uuid) (now : DateTime) (ending : Ending)
  | deliver (w : Nat) (answer : SendAnswer)
  | record (w : Nat) (now : DateTime) (ending : Ending)
  | crash (w : Nat)

namespace Outbox

def eligible (config : NotifierConfig) (s : Outbox) (now : DateTime) :
    List IntakeNotificationJob :=
  s.jobs.filter (fun r => r.due config now && (config.users r.recipientUserId).isSome &&
    (s.cases r.caseId).isSome)

def mayClaim (config : NotifierConfig) (s : Outbox) (now : DateTime) (skipped : List Uuid)
    (r : IntakeNotificationJob) : Bool :=
  let found := (s.eligible config now).filter (fun q => !skipped.contains q.id)
  found.any (fun q => q.id == r.id) && found.all (fun q => r.dueAt ≤ q.dueAt)

end Outbox

def deliveryOf (config : NotifierConfig) (s : Outbox) (now : DateTime)
    (r : IntakeNotificationJob) : Option IntakeNotificationDelivery :=
  match config.users r.recipientUserId, s.cases r.caseId with
  | some subject, some state =>
    some { job := r.taken now, recipientSubject := subject, caseState := state }
  | _, _ => none

def outboxStep (config : NotifierConfig) (s : Outbox) : OutboxAction → Option Outbox
  | .tick now => if s.clock ≤ now then some { s with clock := now } else none
  | .caseMoves caseId state =>
    some { s with cases := Function.update s.cases caseId (some state) }
  | .enqueue job =>
    -- recipients are members or the creator of the case, so they are users
    if job.id ∉ s.jobs.map (·.id) ∧ job.status = .queued ∧ job.attempts = 0 ∧
        job.claimedAt = none ∧ (config.users job.recipientUserId).isSome ∧
        (s.cases job.caseId).isSome then
      some { s with jobs := insertOnce IntakeNotificationJob.idempotencyKey s.jobs job }
    else none
  | .start w =>
    match s.workers w with
    | none => some { s with workers := s.workers.put w .idle }
    | some _ => none
  | .claim w id skipped now ending =>
    match s.workers w, Rows.lookup (·.id) s.jobs id with
    | some .idle, some r =>
      if now ≤ s.clock ∧ s.mayClaim config now skipped r = true then
        match deliveryOf config s now r with
        | some delivery => some { s with
            jobs := Rows.update (·.id) id (ending.change (·.claimed now)) s.jobs
            workers := s.workers.put w
              (if ending = .committed then .delivering delivery else .idle) }
        | none => none
      else none
    | _, _ => none
  | .deliver w answer =>
    match s.workers w with
    | some (.delivering delivery) =>
      some { s with workers := s.workers.put w (.recording delivery (deliver config delivery answer)) }
    | _ => none
  | .record w now ending =>
    match s.workers w with
    | some (.recording delivery outcome) =>
      if now ≤ s.clock then
        some { s with
          jobs := Rows.update (·.id) delivery.job.id
            (ending.change (outcome.record delivery.job now)) s.jobs
          workers := s.workers.put w .idle }
      else none
    | _ => none
  | .crash w =>
    match s.workers w with
    | none | some .dead => none
    | some _ => some { s with workers := s.workers.put w .dead }

def outbox (config : NotifierConfig) : Machine Outbox OutboxAction where
  init s := s.jobs = [] ∧ ∀ w, s.workers w = none
  step := outboxStep config

end DigitalWorker.Worker
