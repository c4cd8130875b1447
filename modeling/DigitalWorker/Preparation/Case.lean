import DigitalWorker.Kernel.Basic

/-! # The DW01 preparation case

    The aggregate that carries an approved purchase request from intake to an
    official solicitation package, and on through publication and bid opening.
    It owns its state machine: every transition below is one method of the
    aggregate, checks what the method checks, and raises the version by one.

    `advance` is the exception to the guards. It moves to any state it is told
    to; the workflow nodes decide which.
-/

namespace DigitalWorker

inductive CaseState where
  | draft
  | intakeRejected
  | intakeReady
  | analyzing
  | waitingClarification
  | approachReady
  | cp1Pending
  | cp1Rejected
  | cp1Approved
  | buildingSolicitation
  | packageReady
  | cp2Pending
  | cp2Rejected
  | cp2Approved
  | packageOfficial
  | published
  | cp3Pending
  | receivingBids
  | cp4Ready
  | completed
  | failed
  deriving DecidableEq

namespace CaseState

def value : CaseState → String
  | draft => "draft"
  | intakeRejected => "intake_rejected"
  | intakeReady => "intake_ready"
  | analyzing => "analyzing"
  | waitingClarification => "waiting_clarification"
  | approachReady => "approach_ready"
  | cp1Pending => "cp1_pending"
  | cp1Rejected => "cp1_rejected"
  | cp1Approved => "cp1_approved"
  | buildingSolicitation => "building_solicitation"
  | packageReady => "package_ready"
  | cp2Pending => "cp2_pending"
  | cp2Rejected => "cp2_rejected"
  | cp2Approved => "cp2_approved"
  | packageOfficial => "package_official"
  | published => "published"
  | cp3Pending => "cp3_pending"
  | receivingBids => "receiving_bids"
  | cp4Ready => "cp4_ready"
  | completed => "completed"
  | failed => "failed"

/-- `_AMENDABLE`: the states in which the requester can still change what they
    asked for. -/
def amendable : List CaseState :=
  [draft, intakeReady, analyzing, waitingClarification, approachReady, cp1Pending, cp1Rejected,
    cp1Approved, buildingSolicitation, packageReady, cp2Pending, cp2Rejected]

def acceptsAmendment (s : CaseState) : Bool := amendable.contains s

/-- The states `start_run` accepts. -/
def startable (s : CaseState) : Bool := [intakeReady, waitingClarification].contains s

def unverified (s : CaseState) : Bool := [draft, intakeRejected].contains s

theorem unverified_of_startable {s : CaseState} : s.startable = true → s.unverified = false := by
  cases s <;> decide

theorem draft_of_amendable {s : CaseState} :
    s.acceptsAmendment = true → s.unverified = true → s = .draft := by
  cases s <;> decide

end CaseState

/-! ## The aggregate -/

structure PreparationCase where
  id : Uuid
  createdBy : Uuid
  title : String := ""
  sourcePrRef : String := ""
  estimatedValueMinor : Int := 0
  currency : String := "VND"
  deadline : Option String := none
  ownerName : String := ""
  methodKey : Option String := none
  state : CaseState := .draft
  currentStep : String := "intake"
  lastRunId : Option Uuid := none
  currentOfficialArtifactId : Option Uuid := none
  exportRef : Option String := none
  intakeVerifiedBy : Option Uuid := none
  intakeVerifiedAt : Option DateTime := none
  bidsCloseAt : Option DateTime := none
  version : Nat := 1
  deriving DecidableEq

namespace PreparationCase

def verifyIntake (c : PreparationCase) (verifiedBy : Uuid) (verifiedAt : DateTime) :
    Except Error PreparationCase := do
  raiseIf (verifiedBy = c.createdBy) (domainError "case creator cannot verify their own intake")
  raiseIf (c.state ≠ .draft) (domainError "only a draft case can be intake-verified")
  return { c with
    intakeVerifiedBy := some verifiedBy
    intakeVerifiedAt := some verifiedAt
    state := .intakeReady
    currentStep := "intake"
    version := c.version + 1 }

def rejectIntake (c : PreparationCase) (rejectedBy : Uuid) : Except Error PreparationCase := do
  raiseIf (rejectedBy = c.createdBy) (domainError "case creator cannot reject their own intake")
  raiseIf (c.state ≠ .draft) (domainError "only a draft case can be intake-rejected")
  return { c with
    state := .intakeRejected
    currentStep := "intake"
    version := c.version + 1 }

/-! ### Derivation -/

def reopenForAmendment (c : PreparationCase) : Except Error PreparationCase := do
  raiseIf (!c.state.acceptsAmendment)
    (domainError ("case cannot be amended from state " ++ c.state.value))
  return { c with state := .intakeReady, currentStep := "intake", version := c.version + 1 }

def startRun (c : PreparationCase) (runId : Uuid) : Except Error PreparationCase := do
  raiseIf (!c.state.startable) (domainError ("case cannot run from state " ++ c.state.value))
  return { c with
    state := .analyzing
    currentStep := "analyzing"
    lastRunId := some runId
    version := c.version + 1 }

def advance (c : PreparationCase) (state : CaseState) (step : String)
    (methodKey : Option String := none) : PreparationCase :=
  { c with
    state := state
    currentStep := step
    methodKey := methodKey <|> c.methodKey
    version := c.version + 1 }

def lockOfficial (c : PreparationCase) (artifactId : Uuid) (exportRef : String) :
    Except Error PreparationCase := do
  raiseIf (blank exportRef) (domainError "export_ref must not be blank")
  return { c with
    state := .packageOfficial
    currentStep := "official"
    currentOfficialArtifactId := some artifactId
    exportRef := some exportRef
    version := c.version + 1 }

def reopenAfterClarification (c : PreparationCase) : Except Error PreparationCase := do
  raiseIf (c.state ≠ .waitingClarification) (domainError "case is not waiting for clarification")
  return { c with state := .intakeReady, currentStep := "intake", version := c.version + 1 }

/-! ### Publication, addenda and bids -/

def recordPublication (c : PreparationCase) (bidsCloseAt : Option DateTime) :
    Except Error PreparationCase := do
  raiseIf (c.state ≠ .packageOfficial) (domainError "only an official package can be published")
  return { c with
    state := .published
    currentStep := "publication"
    bidsCloseAt := bidsCloseAt
    version := c.version + 1 }

def recordSubmission (c : PreparationCase) : Except Error PreparationCase := do
  raiseIf (c.state ≠ .published && c.state ≠ .receivingBids)
    (domainError "case is not accepting supplier submissions")
  return { c with state := .receivingBids, currentStep := "submissions", version := c.version + 1 }

def submitAddendum (c : PreparationCase) : Except Error PreparationCase := do
  raiseIf (c.state ≠ .published) (domainError "addendum can only be raised after publication")
  return { c with state := .cp3Pending, currentStep := "cp3", version := c.version + 1 }

def resolveCp3 (c : PreparationCase) (extendBidsByDays : Int) : Except Error PreparationCase := do
  raiseIf (c.state ≠ .cp3Pending) (domainError "case is not waiting for CP3")
  return { c with
    bidsCloseAt :=
      if 0 < extendBidsByDays then c.bidsCloseAt.map (· + days extendBidsByDays) else c.bidsCloseAt
    state := .published
    currentStep := "publication"
    version := c.version + 1 }

def markCp4Ready (c : PreparationCase) : Except Error PreparationCase := do
  raiseIf (c.state ≠ .receivingBids) (domainError "case has no supplier submissions to open")
  return { c with state := .cp4Ready, currentStep := "cp4", version := c.version + 1 }

def complete (c : PreparationCase) : PreparationCase :=
  { c with state := .completed, currentStep := "completed", version := c.version + 1 }

def completeCp4Handoff (c : PreparationCase) : Except Error PreparationCase := do
  raiseIf (c.state ≠ .receivingBids)
    (domainError "case has no supplier submissions to hand off")
  return { c with state := .completed, currentStep := "completed", version := c.version + 1 }

end PreparationCase

/-! ## What each transition can do

    The guards it passed and the case it produced. -/

namespace PreparationCase

variable {c c' : PreparationCase}

theorem verifyIntake_ok {v : Uuid} {t : DateTime} :
    c.verifyIntake v t = .ok c' ↔ v ≠ c.createdBy ∧ c.state = .draft ∧
      c' = { c with
        intakeVerifiedBy := some v
        intakeVerifiedAt := some t
        state := .intakeReady
        currentStep := "intake"
        version := c.version + 1 } := by
  rw [verifyIntake, raiseIf_bind_ok, raiseIf_pure]
  simp

theorem rejectIntake_ok {v : Uuid} :
    c.rejectIntake v = .ok c' ↔ v ≠ c.createdBy ∧ c.state = .draft ∧
      c' = { c with
        state := .intakeRejected
        currentStep := "intake"
        version := c.version + 1 } := by
  rw [rejectIntake, raiseIf_bind_ok, raiseIf_pure]
  simp

theorem reopenForAmendment_ok :
    c.reopenForAmendment = .ok c' ↔ c.state.acceptsAmendment = true ∧
      c' = { c with state := .intakeReady, currentStep := "intake", version := c.version + 1 } := by
  rw [reopenForAmendment, raiseIf_pure]
  simp

theorem startRun_ok {r : Uuid} :
    c.startRun r = .ok c' ↔ c.state.startable = true ∧
      c' = { c with
        state := .analyzing
        currentStep := "analyzing"
        lastRunId := some r
        version := c.version + 1 } := by
  rw [startRun, raiseIf_pure]
  simp

theorem lockOfficial_ok {a : Uuid} {ref : String} :
    c.lockOfficial a ref = .ok c' ↔ blank ref = false ∧
      c' = { c with
        state := .packageOfficial
        currentStep := "official"
        currentOfficialArtifactId := some a
        exportRef := some ref
        version := c.version + 1 } := by
  rw [lockOfficial, raiseIf_pure]

theorem reopenAfterClarification_ok :
    c.reopenAfterClarification = .ok c' ↔ c.state = .waitingClarification ∧
      c' = { c with state := .intakeReady, currentStep := "intake", version := c.version + 1 } := by
  rw [reopenAfterClarification, raiseIf_pure]
  simp

theorem recordPublication_ok {close : Option DateTime} :
    c.recordPublication close = .ok c' ↔ c.state = .packageOfficial ∧
      c' = { c with
        state := .published
        currentStep := "publication"
        bidsCloseAt := close
        version := c.version + 1 } := by
  rw [recordPublication, raiseIf_pure]
  simp

theorem recordSubmission_ok :
    c.recordSubmission = .ok c' ↔ (c.state = .published ∨ c.state = .receivingBids) ∧
      c' = { c with
        state := .receivingBids
        currentStep := "submissions"
        version := c.version + 1 } := by
  rw [recordSubmission, raiseIf_pure]
  simp [Decidable.or_iff_not_imp_left]

theorem submitAddendum_ok :
    c.submitAddendum = .ok c' ↔ c.state = .published ∧
      c' = { c with state := .cp3Pending, currentStep := "cp3", version := c.version + 1 } := by
  rw [submitAddendum, raiseIf_pure]
  simp

theorem resolveCp3_ok {d : Int} :
    c.resolveCp3 d = .ok c' ↔ c.state = .cp3Pending ∧
      c' = { c with
        bidsCloseAt := if 0 < d then c.bidsCloseAt.map (· + days d) else c.bidsCloseAt
        state := .published
        currentStep := "publication"
        version := c.version + 1 } := by
  rw [resolveCp3, raiseIf_pure]
  simp

theorem markCp4Ready_ok :
    c.markCp4Ready = .ok c' ↔ c.state = .receivingBids ∧
      c' = { c with state := .cp4Ready, currentStep := "cp4", version := c.version + 1 } := by
  rw [markCp4Ready, raiseIf_pure]
  simp

theorem completeCp4Handoff_ok :
    c.completeCp4Handoff = .ok c' ↔ c.state = .receivingBids ∧
      c' = { c with state := .completed, currentStep := "completed", version := c.version + 1 } := by
  rw [completeCp4Handoff, raiseIf_pure]
  simp

end PreparationCase

end DigitalWorker
