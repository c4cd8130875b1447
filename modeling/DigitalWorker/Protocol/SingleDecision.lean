import DigitalWorker.Framework.DecidedOnce
import DigitalWorker.Protocol.Explanations

/-! # Two people decide at once

    An explanation is decided once, and a recorded return is voided once. Any number of
    calls work on the same rows under READ COMMITTED: each reads the row and refuses one
    that is decided, and writes with an update pinned to a row that is still open. How
    many rows the update matched is asked by neither handler.
-/

namespace DigitalWorker

open Framework

/-! ## Explanations -/

namespace DecideExplanation

variable (rules : ExplanationRules) (d : DecideExplanation)

/-- `DecideExplanationHandler.handle`, from its checks to the decision on the record it
    read. -/
def decided (x : Explanation) : Except Error Explanation := do
  authorize d.context "approvals.decide" "preparation_explanation" d.explanationId.text
  raiseIf (rules.supporterRole ≠ "" ∧ ¬ rules.supporterRole ∈ d.context.roles)
    (conflictError "phần mô tả này dành cho vai trò khác xem"
      [("required_role", rules.supporterRole)])
  x.decide d.approve d.context.principalId d.now d.comment

variable {rules} {d} {x y : Explanation}

theorem decided_ok (h : d.decided rules x = .ok y) : x.status = .pending ∧ y.id = x.id ∧
    y.status = (if d.approve then .approved else .rejected) := by
  simp only [decided, Explanation.decide, authorize, raiseIf_bind_ok] at h
  obtain ⟨-, -, hpending, -, -, hy⟩ := h
  obtain rfl := Except.ok.inj hy
  exact ⟨by simpa using hpending, rfl, rfl⟩

end DecideExplanation

/-- The columns of `explanations.save`. -/
def Explanation.saved (x row : Explanation) : Explanation :=
  { row with
    status := x.status, decidedBy := x.decidedBy, decidedAt := x.decidedAt
    decisionComment := x.decisionComment }

/-- `preparation_explanations`, with the outcome, the decider and the note of a row. -/
def explanationTable (rules : ExplanationRules) :
    OnceTable Explanation Uuid DecideExplanation (ExplanationStatus × Option Uuid × String)
      Error where
  key := (·.id)
  isOpen x := x.status == .pending
  target := (·.explanationId)
  prepare d x := d.decided rules x
  write := Explanation.saved
  decision x := (x.status, x.decidedBy, x.decisionComment)
  prepare_key h := (DecideExplanation.decided_ok h).2.1
  write_key _ _ := rfl
  write_open h r' := by
    have hstatus := (DecideExplanation.decided_ok h).2.2
    show (_ == ExplanationStatus.pending) = false
    simp only [Explanation.saved, hstatus]
    split <;> rfl
  write_decision _ _ := rfl

/-- A row of `tender.preparation_rework_events`. -/
structure RecordedReturn extends ReworkEvent where
  voidedBy : Option Uuid := none
  voidReason : String := ""

/-- A call of `VoidReworkEventHandler`. -/
structure VoidReturn where
  context : AccessContext
  eventId : Uuid
  reason : String
  now : DateTime

/-- `VoidReworkEventHandler.handle`, from its checks to the values of the update. -/
def VoidReturn.voided (v : VoidReturn) (e : RecordedReturn) : Except Error RecordedReturn := do
  authorize v.context "approvals.decide" "preparation_rework_event" v.eventId.text
  raiseIf (blank v.reason) (domainError "undoing a recorded return requires a reason")
  raiseIf e.voided (conflictError "this record has already been corrected" [])
  return { e with
    voidedAt := some v.now, voidedBy := some v.context.principalId, voidReason := strip v.reason }

theorem VoidReturn.voided_ok {v : VoidReturn} {e e' : RecordedReturn}
    (h : v.voided e = .ok e') : e'.id = e.id ∧ e'.voidedAt = some v.now := by
  simp only [VoidReturn.voided, authorize, raiseIf_bind_ok] at h
  obtain ⟨-, -, -, he⟩ := h
  obtain rfl := Except.ok.inj he
  exact ⟨rfl, rfl⟩

/-- The columns of `rework_events.void`. -/
def RecordedReturn.corrected (e row : RecordedReturn) : RecordedReturn :=
  { row with voidedAt := e.voidedAt, voidedBy := e.voidedBy, voidReason := e.voidReason }

/-- `preparation_rework_events`, with the mark, the corrector and the reason of a row. -/
def returnTable : OnceTable RecordedReturn Uuid VoidReturn (Bool × Option Uuid × String) Error where
  key := (·.id)
  isOpen e := !e.voided
  target := (·.eventId)
  prepare v e := v.voided e
  write := RecordedReturn.corrected
  decision e := (e.voided, e.voidedBy, e.voidReason)
  prepare_key h := (VoidReturn.voided_ok h).1
  write_key _ _ := rfl
  write_open h r' := by
    have hat := (VoidReturn.voided_ok h).2
    simp [RecordedReturn.corrected, ReworkEvent.voided, hat]
  write_decision _ _ := rfl

/-- **Single decision**: on explanations and on recorded returns, at most one call takes
    effect on a row, and in a run whose updates find their row open, or decided the same
    way, every call that returned left its outcome, its decider and its note there. -/
theorem single_decision (rules : ExplanationRules) :
    (∀ es s, Exec (explanationTable rules).desk es s → (explanationTable rules).Once s ∧
      ((∀ e ∈ es, (explanationTable rules).FindsOpen e) → (explanationTable rules).Truthful s)) ∧
    ∀ es s, Exec returnTable.desk es s → returnTable.Once s ∧
      ((∀ e ∈ es, returnTable.FindsOpen e) → returnTable.Truthful s) :=
  ⟨fun _ _ h => OnceTable.decided_once h, fun _ _ h => OnceTable.decided_once h⟩

/-! ## One of two -/

namespace TwoReaders

def author : Uuid := { text := "an" }
def head : Uuid := { text := "binh" }
def deputy : Uuid := { text := "chi" }

def rules : ExplanationRules :=
  { policyVersion := "v1", enabledFrom := none, nudgeWindowDays := 30, nudgeThreshold := 1
    blockWindowDays := 30, blockThreshold := 1, generalGuidance := "", reasonCodes := []
    explanationMinChars := 1, supporterRole := "", escalateAfterHours := 48 }

def waiting : Explanation :=
  { id := { text := "x-1" }, creatorUserId := author, workspaceId := { text := "workspace" }
    caseId := none, contextText := "?", difficultyText := "", supportRequestText := ""
    policyVersion := "v1", submittedAt := 0, countedEventIds := [], nudgeCount := 1
    blockCount := 1, topReasonCode := "" }

def decides (reader : Uuid) (approve : Bool) : DecideExplanation :=
  { context := { principalId := reader, scopes := ["approvals.decide"] }
    explanationId := waiting.id, approve := approve, comment := "!", now := 1 }

def schedule : List (OnceAction DecideExplanation) :=
  [.read 0 (decides head true), .read 1 (decides deputy false), .save 0, .commit 0, .save 1,
    .commit 1]

def desk : OnceDesk Explanation := { rows := [{ committed := waiting }] }

def unheard (s : OnceDesk Explanation) : Bool :=
  match s.calls 1, s.rows with
  | some (.returned x _), [r] =>
    x.status == .rejected && r.committed.status == .approved && x.id == r.committed.id
  | _, _ => false

/-- **Unheard**: the verdict of one of two concurrent readers is dropped in silence. -/
theorem rejected_unheard : ∃ es s, Exec (explanationTable rules).desk es s ∧
    unheard s = true ∧ ¬ (explanationTable rules).Truthful s := by
  have hinit : (explanationTable rules).desk.init desk := by
    refine ⟨by simp [desk], ?_, fun _ => rfl⟩
    intro r hr
    rw [List.mem_singleton.mp hr]
  obtain ⟨es, s, hexec, hunheard⟩ :=
    Machine.exec_of_runs hinit (show (explanationTable rules).desk.runs desk schedule
      (fun _ s => unheard s) = true by decide +kernel)
  refine ⟨es, s, hexec, hunheard, ?_⟩
  intro htruthful
  unfold unheard at hunheard
  split at hunheard
  · next x m r hcall hrows =>
    obtain ⟨r', hr', -, -, hdecision⟩ := htruthful 1 x m hcall
    rw [hrows, List.mem_singleton] at hr'
    subst hr'
    have hstatus : r'.committed.status = x.status := congrArg Prod.fst hdecision
    simp [hstatus] at hunheard
    rw [hunheard.1.1] at hunheard
    exact absurd hunheard.1.2 (by decide)
  · cases hunheard

end TwoReaders

end DigitalWorker
