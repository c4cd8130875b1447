import DigitalWorker.Preparation.Store

/-! # The law under a waiting package

    A package cites an article and derives a deadline from it. While it waits for
    its decisions the law is read again: what was drafted is compared with what
    the sources now say, the comparison is recorded, and a change is reported to
    whoever holds the decision. Nothing else happens to the case.
-/

namespace DigitalWorker

open Framework

/-- What the sources said about the window for preparing bids, at some moment. -/
structure LegalPosition where
  minBidPreparationDays : Option Int
  articleRef : String
  sourceQuote : String
  deriving DecidableEq

/-- `int(v) if isinstance(v, int) else None`; a truth value is an integer. -/
def Json.int? : Json → Option Int
  | .num n => some n
  | .bool b => some (if b then 1 else 0)
  | _ => none

/-- `str(d.get(key) or "")`. -/
def Dict.textOr (repr : Json → String) (d : Dict) (key : String) : String :=
  match d.get? key with
  | some v => if v.truthy then v.pyStr repr else ""
  | none => ""

namespace LegalPosition

def fromArtifact (repr : Json → String) (content : Dict) : Option LegalPosition :=
  match (content.get? "legal_constraints").bind Json.dict? with
  | none => none
  | some constraints =>
    match (constraints.get? "extracted").bind Json.dict? with
    -- drafted with no verified constraint
    | none => none
    | some extracted => some
      { minBidPreparationDays := (extracted.get? "min_bid_preparation_days").bind Json.int?
        articleRef := extracted.textOr repr "article_ref"
        sourceQuote := extracted.textOr repr "source_quote" }

variable (casefold : String → String)

/-- `article_ref.strip().casefold()`. -/
def article (p : LegalPosition) : String := casefold (strip p.articleRef)

/-- `differs_from`: the wording is not compared. -/
def differsFrom (p other : LegalPosition) : Bool :=
  p.minBidPreparationDays != other.minBidPreparationDays ||
    p.article casefold != other.article casefold

def daysText : Option Int → String
  | none => "None"
  | some n => toString n

def fingerprint (sha256 : String → String) (p : LegalPosition) : String :=
  String.ofList
    ((sha256 (daysText p.minBidPreparationDays ++ "|" ++ p.article casefold)).toList.take 16)

end LegalPosition

structure WatchedRow where
  case : PreparationCase
  updatedAt : DateTime
  deriving DecidableEq

/-- A job of the outbox that reports a change. -/
structure LawAlert where
  id : Uuid
  caseId : Uuid
  recipient : Uuid
  dueAt : DateTime
  idempotencyKey : String
  payload : Dict

structure LawStore where
  rows : List WatchedRow
  artifacts : Uuid → List PreparationArtifact := fun _ => []
  alerts : List LawAlert := []

/-- `_LAW_REVIEW_STATES`: from the drafted approach to the opening. -/
def lawReviewStates : List CaseState :=
  [.approachReady, .cp1Pending, .buildingSolicitation, .packageReady, .cp2Pending,
    .packageOfficial, .published, .receivingBids]

/-- `_CHECKPOINT_FOR_STATE.get(state, "CP2")`. -/
def lawCheckpoint : CaseState → String
  | .approachReady | .cp1Pending => "CP1"
  | _ => "CP2"

def lawGuard (caseId : Uuid) (fingerprint : String) : String := caseId.text ++ ":" ++ fingerprint

def alertKey (guard : String) : String := "law-change:" ++ guard

namespace LawStore

variable (store : LawStore)

/-- The rows `list_pending_law_review` selects from. -/
def waiting : List WatchedRow := store.rows.filter (fun r => lawReviewStates.contains r.case.state)

/-- `notifications.enqueue`: `ON CONFLICT DO NOTHING` on the idempotency key. -/
def enqueue (job : LawAlert) : LawStore :=
  { store with alerts := insertOnce LawAlert.idempotencyKey store.alerts job }

def Queued (guard : String) : Prop := alertKey guard ∈ store.alerts.map (·.idempotencyKey)

instance (guard : String) : Decidable (store.Queued guard) :=
  inferInstanceAs (Decidable (_ ∈ _))

end LawStore

/-! ## The two transactions of a review -/

section

variable (env : Env) (casefold : String → String) (store : LawStore) (case : PreparationCase)
  (drafted current : LegalPosition)

/-- `json` of a number of days. -/
def daysJson : Option Int → Json
  | none => .null
  | some n => .num n

/-- What `_record` writes down. -/
def lawReviewContent (now : DateTime) (changed : Bool) : Dict :=
  [("reviewed_at", .str (env.isoformat now)), ("changed", .bool changed),
    ("drafted_with", .obj
      [("min_bid_preparation_days", daysJson drafted.minBidPreparationDays),
        ("article_ref", .str drafted.articleRef)]),
    ("sources_now_say", .obj
      [("min_bid_preparation_days", daysJson current.minBidPreparationDays),
        ("article_ref", .str current.articleRef),
        ("source_quote", .str (String.ofList (current.sourceQuote.toList.take 400)))])]

/-- `_record`: an artifact, and nothing on the case. -/
def LawStore.recorded (id actor : Uuid) (now : DateTime) (changed : Bool) : LawStore :=
  let db : CaseDb := { case := case, artifacts := store.artifacts case.id }
  let content := lawReviewContent env drafted current now changed
  { store with
    artifacts := Function.update store.artifacts case.id
      (db.addApplicationArtifact env id actor .lawReview content .draft).artifacts }

def alertLines : List String :=
  let cited := fun p : LegalPosition => if p.articleRef = "" then "" else " (" ++ p.articleRef ++ ")"
  ["Khi soạn hồ sơ: tối thiểu " ++ LegalPosition.daysText drafted.minBidPreparationDays ++
      " ngày" ++ cited drafted,
    "Nguồn hiện nay: tối thiểu " ++ LegalPosition.daysText current.minBidPreparationDays ++
      " ngày" ++ cited current] ++
  (if current.sourceQuote = "" then []
    else ["«" ++ String.ofList (current.sourceQuote.toList.take 300) ++ "»"]) ++
  ["Phiếu duyệt vẫn còn hiệu lực — đây là thông tin để bạn quyết. " ++
    "Muốn áp mốc mới thì sửa hồ sơ, hệ thống sẽ thu hồi phiếu và chạy lại phép kiểm."]

def alertJob (id recipient : Uuid) (now : DateTime) : LawAlert :=
  { id := id, caseId := case.id, recipient := recipient, dueAt := now
    idempotencyKey := alertKey (lawGuard case.id (current.fingerprint casefold env.sha256))
    payload := [("title", .str ("Luật đã thay đổi — " ++ case.title)),
      ("lines", .arr ((alertLines drafted current).map .str)), ("case_id", .str case.id.text),
      ("article_ref", .str current.articleRef),
      ("before", daysJson drafted.minBidPreparationDays),
      ("after", daysJson current.minBidPreparationDays)] }

def lawRecipient (directory : Directory) (rules : ProcurementRules) : Option Uuid :=
  directory.approver rules case.estimatedValueMinor (lawCheckpoint case.state)

/-- `_alert`: where nobody holds either role, it returns. -/
def LawStore.alerted (directory : Directory) (rules : ProcurementRules) (id : Uuid)
    (now : DateTime) : LawStore :=
  match lawRecipient case directory rules with
  | none => store
  | some recipient => store.enqueue (alertJob env casefold case drafted current id recipient now)

def changeText : String :=
  case.title ++ ": " ++ LegalPosition.daysText drafted.minBidPreparationDays ++ " → " ++
    LegalPosition.daysText current.minBidPreparationDays ++ " ngày (" ++
    (if current.articleRef = "" then "căn cứ mới" else current.articleRef) ++ ")"

end

/-! ## Small facts -/

variable {env : Env} {casefold : String → String} {store : LawStore} {case : PreparationCase}
  {drafted current : LegalPosition} {directory : Directory} {rules : ProcurementRules}
  {id actor : Uuid} {now : DateTime} {changed : Bool} {guard : String}

@[simp] theorem recorded_rows :
    (store.recorded env case drafted current id actor now changed).rows = store.rows := rfl

@[simp] theorem recorded_alerts :
    (store.recorded env case drafted current id actor now changed).alerts = store.alerts := rfl

@[simp] theorem alerted_rows :
    (store.alerted env casefold case drafted current directory rules id now).rows = store.rows := by
  unfold LawStore.alerted
  split <;> rfl

theorem alerted_queued :
    (store.alerted env casefold case drafted current directory rules id now).Queued guard ↔
      store.Queued guard ∨ ((lawRecipient case directory rules).isSome = true ∧
        alertKey guard = alertKey (lawGuard case.id (current.fingerprint casefold env.sha256))) := by
  unfold LawStore.alerted LawStore.Queued
  cases lawRecipient case directory rules with
  | none => simp
  | some recipient =>
    show _ ∈ (insertOnce _ _ _).map _ ↔ _
    rw [mem_keys_insertOnce, or_comm]
    simp [alertJob]

theorem alerted_nodup (h : (store.alerts.map (·.idempotencyKey)).Nodup) :
    ((store.alerted env casefold case drafted current directory rules id now).alerts.map
      (·.idempotencyKey)).Nodup := by
  unfold LawStore.alerted
  split
  · exact h
  · unfold LawStore.enqueue insertOnce
    dsimp only
    split
    · exact h
    · next hfresh =>
      rw [List.map_cons, List.nodup_cons]
      exact ⟨hfresh, h⟩

end DigitalWorker
