import Mathlib.Data.List.Dedup
import DigitalWorker.Kernel.Basic

/-! # Returned cases and the support ladder

    A case handed back to its author leaves a rework event. From the recent
    events of one person the rule pack derives a support level: none, a nudge,
    or a block that holds new work until a written explanation is approved.
-/

namespace DigitalWorker

/-! ## The rule pack -/

/-- One entry of the closed catalogue an approver picks from. -/
structure ReworkReason where
  code : String
  label : String
  guidance : String
  deriving DecidableEq

structure ReworkSupportRules where
  policyVersion : String
  enabledFrom : Option DateTime
  nudgeWindowDays : Int
  nudgeThreshold : Int
  blockWindowDays : Int
  blockThreshold : Int
  generalGuidance : String
  reasonCodes : List ReworkReason
  deriving DecidableEq

namespace ReworkSupportRules

def isEnabled (rules : ReworkSupportRules) : Bool :=
  0 < rules.nudgeThreshold || 0 < rules.blockThreshold

def isKnown (rules : ReworkSupportRules) (code : String) : Bool :=
  rules.reasonCodes.any (fun r => r.code == code)

/-- `rules.reason(code)`; a missing or empty code has no entry. -/
def reason (rules : ReworkSupportRules) (code : Option String) : Option ReworkReason :=
  match code with
  | none => none
  | some "" => none
  | some c => rules.reasonCodes.find? (fun r => r.code == c)

def labelFor (rules : ReworkSupportRules) (code : Option String) : String :=
  match rules.reason code with
  | some r => r.label
  | none => ""

def guidanceFor (rules : ReworkSupportRules) (code : Option String) : String :=
  match rules.reason code with
  | some r => if blank r.guidance then strip rules.generalGuidance else strip r.guidance
  | none => strip rules.generalGuidance

def rankOf (rules : ReworkSupportRules) (code : String) : Nat :=
  rules.reasonCodes.findIdx (fun r => r.code == code)

end ReworkSupportRules

/-! ## The records -/

inductive ReworkCheckpoint where
  | intake
  | cp1
  | cp2
  deriving DecidableEq

structure ReworkEvent where
  id : Uuid
  caseId : Uuid
  /-- Whose case it was; the key the tally groups by. -/
  creatorUserId : Uuid
  decidedByUserId : Uuid
  checkpoint : ReworkCheckpoint
  reasonCode : String
  reasonText : String
  policyVersion : String
  occurredAt : DateTime
  voidedAt : Option DateTime := none
  deriving DecidableEq

def ReworkEvent.voided (e : ReworkEvent) : Bool := e.voidedAt.isSome

inductive ExplanationStatus where
  | pending
  | approved
  | rejected
  deriving DecidableEq

/-- What someone wrote about what is getting in the way, and its decision. -/
structure ExplanationRecord where
  id : Uuid
  creatorUserId : Uuid
  status : ExplanationStatus := .pending
  decidedAt : Option DateTime := none
  deriving DecidableEq

/-! ## Recording a return -/

def fallbackReasonCode : String := "other"

/-- `normalise_reason_code`: a blank code falls back, an unknown one is refused. -/
def normaliseReasonCode (reasonCode : String) (rules : ReworkSupportRules) :
    Except Error String :=
  let code := strip reasonCode
  if code = "" then .ok fallbackReasonCode
  else if rules.isKnown code then .ok code
  else .error { kind := .domain, message := "unknown rework reason code"
                details := [("reason_code", code)] }

/-- `record_rework_event`: the events with one more, in the caller's
    transaction; nothing is written while the feature is switched off. -/
def recordReworkEvent (rules : ReworkSupportRules) (events : List ReworkEvent)
    (eventId caseId creator decidedBy : Uuid) (checkpoint : ReworkCheckpoint)
    (reasonCode reasonText : String) (now : DateTime) : Except Error (List ReworkEvent) :=
  if rules.isEnabled then do
    raiseIf (blank reasonText) (domainError "returning a case requires a reason")
    let code ← normaliseReasonCode reasonCode rules
    return { id := eventId, caseId := caseId, creatorUserId := creator
             decidedByUserId := decidedBy, checkpoint := checkpoint
             reasonCode := code, reasonText := strip reasonText
             policyVersion := rules.policyVersion, occurredAt := now } :: events
  else .ok events

/-! ## Assessment -/

inductive SupportLevel where
  | none
  | nudge
  | block
  deriving DecidableEq

/-- What the support ladder says about one person right now. -/
structure ReworkAssessment where
  available : Bool
  level : SupportLevel
  nudgeCount : Nat
  blockCount : Nat
  nudgeWindowDays : Int
  nudgeThreshold : Int
  blockWindowDays : Int
  blockThreshold : Int
  policyVersion : String
  topReasonCode : Option String := Option.none
  topReasonLabel : String := ""
  guidance : String := ""
  countedEventIds : List Uuid := []
  deriving DecidableEq

/-- `ReworkAssessment.unavailable`: could not compute, so nothing blocks. -/
def ReworkAssessment.unavailable (rules : ReworkSupportRules) : ReworkAssessment :=
  { available := false, level := .none, nudgeCount := 0, blockCount := 0
    nudgeWindowDays := rules.nudgeWindowDays, nudgeThreshold := rules.nudgeThreshold
    blockWindowDays := rules.blockWindowDays, blockThreshold := rules.blockThreshold
    policyVersion := rules.policyVersion }

/-- `ReworkAssessment.disabled`: turned off in the rule pack. -/
def ReworkAssessment.disabled (rules : ReworkSupportRules) : ReworkAssessment :=
  { ReworkAssessment.unavailable rules with available := true }

/-- `_counts_within`: the events of the last `n` days. -/
def countsWithin (events : List ReworkEvent) (now : DateTime) (n : Int) : List ReworkEvent :=
  if n ≤ 0 then []
  else events.filter (fun e => now - days n ≤ e.occurredAt && e.occurredAt ≤ now)

/-- `_top_reason`: the most frequent reason, ties broken by catalogue order. -/
def topReason (events : List ReworkEvent) (rules : ReworkSupportRules) : Option String :=
  let codes := (events.map (·.reasonCode)).filter (· ≠ "")
  let highest := (codes.map codes.count).foldl max 0
  let before (a b : String) : Bool :=
    rules.rankOf a < rules.rankOf b || (rules.rankOf a == rules.rankOf b && a < b)
  match codes.dedup.filter (fun c => codes.count c == highest) with
  | [] => none
  | c :: cs => some (cs.foldl (fun best c => if before c best then c else best) c)

/-- The events that count at all: not a mis-click, and not older than the day
    the feature was switched on. -/
def considered (rules : ReworkSupportRules) (e : ReworkEvent) : Bool :=
  !e.voided && match rules.enabledFrom with
    | none => true
    | some start => start ≤ e.occurredAt

def assessRework (events : List ReworkEvent) (now : DateTime) (rules : ReworkSupportRules) :
    ReworkAssessment :=
  if rules.isEnabled then
    let counted := events.filter (considered rules)
    let nudgeEvents := countsWithin counted now rules.nudgeWindowDays
    let blockEvents := countsWithin counted now rules.blockWindowDays
    -- blocking is tested first: when both fire, the stricter level wins
    let level : SupportLevel :=
      if 0 < rules.blockThreshold ∧ rules.blockThreshold ≤ blockEvents.length then .block
      else if 0 < rules.nudgeThreshold ∧ rules.nudgeThreshold ≤ nudgeEvents.length then .nudge
      else .none
    let windowEvents := if level = .block then blockEvents else nudgeEvents
    let top := if level = .none then none else topReason windowEvents rules
    { available := true, level := level
      nudgeCount := nudgeEvents.length, blockCount := blockEvents.length
      nudgeWindowDays := rules.nudgeWindowDays, nudgeThreshold := rules.nudgeThreshold
      blockWindowDays := rules.blockWindowDays, blockThreshold := rules.blockThreshold
      policyVersion := rules.policyVersion
      topReasonCode := top, topReasonLabel := rules.labelFor top
      guidance := if level = .none then "" else rules.guidanceFor top
      countedEventIds := windowEvents.map (·.id) }
  else .disabled rules

/-! ## The guard -/

structure ReworkStore where
  events : List ReworkEvent
  explanations : List ExplanationRecord
  deriving DecidableEq

/-- `list_for_creator`: everything from `since` onwards, voided rows included. -/
def listForCreator (store : ReworkStore) (creator : Uuid) (since : DateTime) :
    List ReworkEvent :=
  store.events.filter (fun e => e.creatorUserId == creator && since ≤ e.occurredAt)

def hasApprovedSince (store : ReworkStore) (creator : Uuid) (since : DateTime) : Bool :=
  store.explanations.any (fun x => x.creatorUserId == creator && x.status == .approved &&
    match x.decidedAt with
    | some t => since ≤ t
    | none => false)

namespace ReworkGuard

/-- `_assess`: one read covering the longer window, then the verdict; a block is
    lifted by an approved explanation. -/
def assessStore (rules : ReworkSupportRules) (store : ReworkStore) (creator : Uuid)
    (now : DateTime) : ReworkAssessment :=
  let span := max rules.nudgeWindowDays rules.blockWindowDays
  let since := now - days span
  let assessment := assessRework (listForCreator store creator since) now rules
  if assessment.level ≠ .block then assessment
  else if hasApprovedSince store creator since then
    { assessment with level := if assessment.nudgeCount ≠ 0 then .nudge else .none }
  else assessment

/-- `assess`: never raises. A store that cannot be read blocks nobody. -/
def assess (rules : ReworkSupportRules) (store : Except Error ReworkStore) (creator : Uuid)
    (now : DateTime) : ReworkAssessment :=
  if rules.isEnabled then
    match store with
    | .ok s => assessStore rules s creator now
    | .error _ => .unavailable rules
  else .disabled rules

def requireNotBlocked (rules : ReworkSupportRules) (store : Except Error ReworkStore)
    (creator : Uuid) (now : DateTime) : Except Error Unit :=
  let a := assess rules store creator now
  raiseIf (a.level = .block) (conflictError
    ("Hồ sơ gần đây phải chỉnh lại " ++ toString a.blockCount ++ " lần trong " ++
      toString a.blockWindowDays ++ " ngày. Bạn gửi phần mô tả bối cảnh để " ++
      "bên mua sắm xem và hỗ trợ, sau đó tạo hồ sơ mới tiếp nhé. " ++
      "Hồ sơ đang làm dở vẫn sửa và lưu được bình thường.")
    [("reason", "rework_support_required"), ("block_count", toString a.blockCount),
      ("block_window_days", toString a.blockWindowDays), ("policy_version", a.policyVersion)])

end ReworkGuard

end DigitalWorker
