import DigitalWorker.Framework.OptimisticLock
import DigitalWorker.Protocol.Steps

/-! # The case under concurrent handlers

    `preparation_cases` keeps a case column by column. The repository reads a row
    back through the constructor of the aggregate, and updates the columns the
    aggregate changes, pinned to the version before the one the handler holds.

    Any number of handlers load the case, change what they hold and save it. A
    handler that called exactly one method saves exactly when its read is still the
    row. One that called more would be refused on the row it read, and accepted on a
    row that others moved on.
-/

namespace DigitalWorker

open Framework

/-! ## States by their stored text -/

namespace CaseState

def members : List CaseState :=
  [draft, intakeRejected, intakeReady, analyzing, waitingClarification, approachReady, cp1Pending,
    cp1Rejected, cp1Approved, buildingSolicitation, packageReady, cp2Pending, cp2Rejected,
    cp2Approved, packageOfficial, published, cp3Pending, receivingBids, cp4Ready, completed, failed]

/-- `CaseState(value)`; no member has another text. -/
def ofValue (value : String) : Option CaseState := members.find? (fun s => s.value == value)

theorem ofValue_value (s : CaseState) : ofValue s.value = some s := by
  cases s <;> decide

end CaseState

/-- The columns of `preparation_cases` the aggregate works with. -/
structure CaseRow where
  id : Uuid
  title : String
  sourcePrRef : String
  estimatedValueMinor : Int
  currency : String
  deadline : Option String
  ownerName : String
  methodKey : Option String
  state : String
  currentStep : String
  lastRunId : Option Uuid
  currentOfficialArtifactId : Option Uuid
  exportRef : Option String
  intakeVerifiedBy : Option Uuid
  intakeVerifiedAt : Option DateTime
  bidsCloseAt : Option DateTime
  createdBy : Uuid
  version : Nat
  deriving DecidableEq

/-- `_case_from_row`: nothing where the state is unknown, or where the
    constructor of the aggregate refuses the title. -/
def caseFromRow (row : CaseRow) : Option PreparationCase :=
  match CaseState.ofValue row.state with
  | none => none
  | some state =>
    if blank row.title then none
    else some
      { id := row.id
        title := row.title
        createdBy := row.createdBy
        sourcePrRef := row.sourcePrRef
        estimatedValueMinor := row.estimatedValueMinor
        currency := row.currency
        deadline := row.deadline
        ownerName := row.ownerName
        methodKey := row.methodKey
        state := state
        currentStep := row.currentStep
        lastRunId := row.lastRunId
        currentOfficialArtifactId := row.currentOfficialArtifactId
        exportRef := row.exportRef
        intakeVerifiedBy := row.intakeVerifiedBy
        intakeVerifiedAt := row.intakeVerifiedAt
        bidsCloseAt := row.bidsCloseAt
        version := row.version }

namespace CaseRow

/-- `add`: the columns it leaves out start empty. -/
def add (case : PreparationCase) : CaseRow :=
  { id := case.id
    title := case.title
    sourcePrRef := case.sourcePrRef
    estimatedValueMinor := case.estimatedValueMinor
    currency := case.currency
    deadline := case.deadline
    ownerName := case.ownerName
    methodKey := case.methodKey
    state := case.state.value
    currentStep := case.currentStep
    lastRunId := none
    currentOfficialArtifactId := none
    exportRef := none
    intakeVerifiedBy := none
    intakeVerifiedAt := none
    bidsCloseAt := none
    createdBy := case.createdBy
    version := case.version }

/-- The columns `save` writes. -/
def written (row : CaseRow) (case : PreparationCase) : CaseRow :=
  { row with
    title := case.title
    estimatedValueMinor := case.estimatedValueMinor
    deadline := case.deadline
    state := case.state.value
    currentStep := case.currentStep
    methodKey := case.methodKey
    lastRunId := case.lastRunId
    currentOfficialArtifactId := case.currentOfficialArtifactId
    exportRef := case.exportRef
    intakeVerifiedBy := case.intakeVerifiedBy
    intakeVerifiedAt := case.intakeVerifiedAt
    bidsCloseAt := case.bidsCloseAt
    version := case.version }

/-- The columns `save` leaves. -/
def kept (row : CaseRow) : Uuid × String × String × String × Uuid :=
  (row.id, row.sourcePrRef, row.currency, row.ownerName, row.createdBy)

end CaseRow

namespace PreparationCase

/-- The fields that have no column in `save`. -/
def kept (c : PreparationCase) : Uuid × String × String × String × Uuid :=
  (c.id, c.sourcePrRef, c.currency, c.ownerName, c.createdBy)

end PreparationCase

/-! ## The changes of the aggregate -/

/-- The methods of `PreparationCase`. -/
inductive CaseMethod where
  | verifyIntake (verifiedBy : Uuid) (verifiedAt : DateTime)
  | rejectIntake (rejectedBy : Uuid)
  | reopenForAmendment
  | startRun (runId : Uuid)
  | advance (state : CaseState) (step : String) (methodKey : Option String)
  | lockOfficial (artifactId : Uuid) (exportRef : String)
  | complete
  | recordPublication (bidsCloseAt : Option DateTime)
  | recordSubmission
  | submitAddendum
  | resolveCp3 (extendBidsByDays : Int)
  | markCp4Ready
  | completeCp4Handoff
  | reopenAfterClarification
  deriving DecidableEq

def CaseMethod.run (c : PreparationCase) : CaseMethod → Except Error PreparationCase
  | .verifyIntake verifiedBy verifiedAt => c.verifyIntake verifiedBy verifiedAt
  | .rejectIntake rejectedBy => c.rejectIntake rejectedBy
  | .reopenForAmendment => c.reopenForAmendment
  | .startRun runId => c.startRun runId
  | .advance state step methodKey => .ok (c.advance state step methodKey)
  | .lockOfficial artifactId exportRef => c.lockOfficial artifactId exportRef
  | .complete => .ok c.complete
  | .recordPublication bidsCloseAt => c.recordPublication bidsCloseAt
  | .recordSubmission => c.recordSubmission
  | .submitAddendum => c.submitAddendum
  | .resolveCp3 extendBidsByDays => c.resolveCp3 extendBidsByDays
  | .markCp4Ready => c.markCp4Ready
  | .completeCp4Handoff => c.completeCp4Handoff
  | .reopenAfterClarification => c.reopenAfterClarification

inductive CaseChange where
  | method (m : CaseMethod)
  | demand (estimatedValueMinor : Int) (deadline : Option String)
  deriving DecidableEq

namespace CaseChange

def apply : CaseChange → PreparationCase → Option PreparationCase
  | .method m, c => (m.run c).toOption
  | .demand value deadline, c => some { c with estimatedValueMinor := value, deadline := deadline }

def bump : CaseChange → Nat
  | .method _ => 1
  | .demand _ _ => 0

end CaseChange

/-! ## What every method keeps -/

section

variable {c c' : PreparationCase} {m : CaseMethod} {change : CaseChange}

/-- **Method lemma**: a method that succeeds counts the version up by one, and
    keeps the title and the fields `save` does not write. -/
theorem CaseMethod.run_ok (h : m.run c = .ok c') :
    c'.version = c.version + 1 ∧ c'.title = c.title ∧ c'.kept = c.kept := by
  cases m with
  | verifyIntake v t =>
    obtain ⟨_, _, rfl⟩ := PreparationCase.verifyIntake_ok.mp h
    exact ⟨rfl, rfl, rfl⟩
  | rejectIntake v =>
    obtain ⟨_, _, rfl⟩ := PreparationCase.rejectIntake_ok.mp h
    exact ⟨rfl, rfl, rfl⟩
  | reopenForAmendment =>
    obtain ⟨_, rfl⟩ := PreparationCase.reopenForAmendment_ok.mp h
    exact ⟨rfl, rfl, rfl⟩
  | startRun r =>
    obtain ⟨_, rfl⟩ := PreparationCase.startRun_ok.mp h
    exact ⟨rfl, rfl, rfl⟩
  | advance state step methodKey =>
    obtain rfl := Except.ok.inj h
    exact ⟨rfl, rfl, rfl⟩
  | lockOfficial a ref =>
    obtain ⟨_, rfl⟩ := PreparationCase.lockOfficial_ok.mp h
    exact ⟨rfl, rfl, rfl⟩
  | complete =>
    obtain rfl := Except.ok.inj h
    exact ⟨rfl, rfl, rfl⟩
  | recordPublication close =>
    obtain ⟨_, rfl⟩ := PreparationCase.recordPublication_ok.mp h
    exact ⟨rfl, rfl, rfl⟩
  | recordSubmission =>
    obtain ⟨_, rfl⟩ := PreparationCase.recordSubmission_ok.mp h
    exact ⟨rfl, rfl, rfl⟩
  | submitAddendum =>
    obtain ⟨_, rfl⟩ := PreparationCase.submitAddendum_ok.mp h
    exact ⟨rfl, rfl, rfl⟩
  | resolveCp3 d =>
    obtain ⟨_, rfl⟩ := PreparationCase.resolveCp3_ok.mp h
    exact ⟨rfl, rfl, rfl⟩
  | markCp4Ready =>
    obtain ⟨_, rfl⟩ := PreparationCase.markCp4Ready_ok.mp h
    exact ⟨rfl, rfl, rfl⟩
  | completeCp4Handoff =>
    obtain ⟨_, rfl⟩ := PreparationCase.completeCp4Handoff_ok.mp h
    exact ⟨rfl, rfl, rfl⟩
  | reopenAfterClarification =>
    obtain ⟨_, rfl⟩ := PreparationCase.reopenAfterClarification_ok.mp h
    exact ⟨rfl, rfl, rfl⟩

theorem CaseChange.apply_ok (h : change.apply c = some c') :
    c'.version = c.version + change.bump ∧ c'.title = c.title ∧ c'.kept = c.kept := by
  cases change with
  | method m =>
    have hrun : m.run c = .ok c' := by
      simp only [CaseChange.apply] at h
      cases hr : m.run c with
      | error e =>
        rw [hr] at h
        cases h
      | ok r =>
        rw [hr] at h
        exact congrArg _ (Option.some.inj h)
    exact CaseMethod.run_ok hrun
  | demand value deadline =>
    obtain rfl := Option.some.inj h
    exact ⟨rfl, rfl, rfl⟩

end

/-! ## The versioned table -/

section

variable {row : CaseRow} {c : PreparationCase}

theorem caseFromRow_some (h : caseFromRow row = some c) :
    c.version = row.version ∧ c.kept = row.kept ∧ blank c.title = false := by
  unfold caseFromRow at h
  split at h
  · cases h
  · split at h
    · cases h
    · next htitle =>
      obtain rfl := Option.some.inj h
      exact ⟨rfl, rfl, by simpa using htitle⟩

/-- **Round trip**: a saved case is loaded again, field by field. -/
theorem caseFromRow_written (hkept : c.kept = row.kept) (htitle : blank c.title = false) :
    caseFromRow (row.written c) = some c := by
  simp only [PreparationCase.kept, CaseRow.kept, Prod.mk.injEq] at hkept
  obtain ⟨hid, hsource, hcurrency, howner, hcreated⟩ := hkept
  simp only [caseFromRow, CaseRow.written, CaseState.ofValue_value, htitle, Bool.false_eq_true,
    if_false, ← hid, ← hsource, ← hcurrency, ← howner, ← hcreated]

theorem caseFromRow_add (htitle : blank c.title = false) (hrun : c.lastRunId = none)
    (hofficial : c.currentOfficialArtifactId = none) (hexport : c.exportRef = none)
    (hby : c.intakeVerifiedBy = none) (hat : c.intakeVerifiedAt = none)
    (hclose : c.bidsCloseAt = none) : caseFromRow (CaseRow.add c) = some c := by
  cases c
  simp only at htitle hrun hofficial hexport hby hat hclose
  subst hrun hofficial hexport hby hat hclose
  simp [caseFromRow, CaseRow.add, CaseState.ofValue_value, htitle]

end

def caseTable :
    VersionedTable CaseRow PreparationCase CaseChange (Uuid × String × String × String × Uuid) where
  rowVersion := CaseRow.version
  objVersion := PreparationCase.version
  rowKey := CaseRow.kept
  objKey := PreparationCase.kept
  load := caseFromRow
  store := CaseRow.written
  apply := CaseChange.apply
  bump := CaseChange.bump
  Valid c := blank c.title = false
  load_version h := (caseFromRow_some h).1
  load_key h := (caseFromRow_some h).2.1
  load_valid h := (caseFromRow_some h).2.2
  store_version := rfl
  store_key := rfl
  apply_version h := (CaseChange.apply_ok h).1
  apply_key h := (CaseChange.apply_ok h).2.2
  apply_valid h hvalid := by rw [(CaseChange.apply_ok h).2.1]; exact hvalid
  load_store := caseFromRow_written

/-- `save`: the update pinned to the version before. -/
def CaseRow.save (row : CaseRow) (case : PreparationCase) : Except Error CaseRow :=
  match caseTable.update row case with
  | some row' => .ok row'
  | none => .error (conflictError "preparation case was modified concurrently"
      [("case_id", case.id.text)])

/-! ## Handlers over one row -/

abbrev CaseSession := Session CaseRow PreparationCase CaseChange

abbrev CaseStore := SharedRow Nat CaseRow PreparationCase CaseChange

def caseStore : Machine CaseStore (SessionAction Nat CaseChange) :=
  caseTable.machine (fun row => (caseFromRow row).isSome = true)

def transitions (x : CaseSession) : Nat := caseTable.bumps x.changes

def OneTransition (c c' : PreparationCase) : Prop :=
  ∃ changes, caseTable.replay changes c = some c' ∧ caseTable.bumps changes = 1

def SaveCommits (e : Event CaseStore (SessionAction Nat CaseChange)) (x : CaseSession) : Prop :=
  e.post.row.version = e.pre.row.version + 1 ∧ caseFromRow e.post.row = some x.object

def SaveRefused (e : Event CaseStore (SessionAction Nat CaseChange)) (i : Nat) : Prop :=
  e.post.row = e.pre.row ∧ e.post.sessions i = none

structure SaveLinear (e : Event CaseStore (SessionAction Nat CaseChange)) (i : Nat)
    (x : CaseSession) : Prop where
  outcome : SaveCommits e x ∨ SaveRefused e i
  fresh : transitions x = 1 → x.loaded = e.pre.row →
    SaveCommits e x ∧ ∃ c, caseFromRow e.pre.row = some c ∧ OneTransition c x.object
  /-- With one method on a stale read, it is refused. -/
  stale : transitions x = 1 → x.loaded ≠ e.pre.row → SaveRefused e i
  /-- With more methods, or none, on the row as it is, it is refused. -/
  miscounted : transitions x ≠ 1 → x.loaded = e.pre.row → SaveRefused e i

section

variable {es : List (Event CaseStore (SessionAction Nat CaseChange))} {s s' : CaseStore}

theorem save_linear {i : Nat} {x : CaseSession} (hsound : caseTable.Sound s.row x)
    (hx : s.sessions i = some x) (hs : caseTable.step s (.save i) = some s') :
    SaveLinear ⟨s, .save i, s'⟩ i x := by
  rcases VersionedTable.save_cases hsound hx hs with
    ⟨hmatch, hversion, hload⟩ | ⟨hmatch, hrow, hended⟩
  · have hcommits : SaveCommits ⟨s, .save i, s'⟩ x := ⟨hversion, hload⟩
    refine ⟨.inl hcommits, ?_, ?_, ?_⟩
    · intro hone hfresh
      have hfresh : x.loaded = s.row := hfresh
      obtain ⟨c, hc, hreplay⟩ := hsound.replayed
      rw [hfresh] at hc
      exact ⟨hcommits, c, hc, x.changes, hreplay, hone⟩
    · intro hone hstale
      exact absurd ((hsound.single hone).mp hmatch) hstale
    · intro hmany hfresh
      exact absurd hmatch (VersionedTable.Sound.only_single hfresh hmany)
  · have hrefused : SaveRefused ⟨s, .save i, s'⟩ i := ⟨hrow, hended⟩
    refine ⟨.inr hrefused, ?_, fun _ _ => hrefused, fun _ _ => hrefused⟩
    intro hone hfresh
    exact absurd ((hsound.single hone).mpr hfresh) hmatch

/-- **Main theorem**: in every interleaving of handlers, a step that is no save
    leaves the row, and every save is linear. -/
theorem case_store_linearizable (hrun : Exec caseStore es s) :
    ∀ e ∈ es, ((∀ i, e.act ≠ .save i) → e.post.row = e.pre.row) ∧
      ∀ i x, e.act = .save i → e.pre.sessions i = some x → SaveLinear e i x := by
  intro e he
  obtain ⟨_, _, _, hpre, hs⟩ := hrun.split he
  refine ⟨fun hother => VersionedTable.step_row hs hother, ?_⟩
  intro i x hact hx
  obtain ⟨pre, act, post⟩ := e
  subst hact
  exact save_linear (VersionedTable.session_sound hpre i x hx) hx hs

end

/-! ## The handlers of the component -/

section

variable {env : Env} {directory : Directory} {call : Call} {db db' : CaseDb} {w w' : World}
  {a : Action} {c c' : PreparationCase}

theorem OneTransition.of_method {m : CaseMethod} (h : m.run c = .ok c') : OneTransition c c' := by
  refine ⟨[.method m], ?_, rfl⟩
  show (m.run c).toOption = some c'
  rw [h]
  rfl

theorem Handler.run_one_transition {h : Handler} (hrun : h.run env directory call db = .ok db') :
    db'.case = db.case ∨ OneTransition db.case db'.case := by
  cases h with
  | verifyIntake ref comment =>
    have hcase := (verifyIntake_ok hrun).1
    exact .inr (.of_method (m := .verifyIntake _ _) hcase)
  | rejectIntake comment reasonCode =>
    have hcase := (rejectIntake_ok hrun).1
    exact .inr (.of_method (m := .rejectIntake _) hcase)
  | answerClarifications answers =>
    obtain ⟨_, _, db₁, hdb₁, _, _, hcase⟩ := answerClarifications_ok hrun
    split at hcase
    · exact .inr (.of_method (m := .reopenAfterClarification) hcase)
    · left
      rw [hcase, hdb₁]
      rfl
  | recordPublication cmd =>
    obtain ⟨close, hcase⟩ := (recordPublication_ok hrun).1
    exact .inr (.of_method (m := .recordPublication close) hcase)
  | autoPublish sent =>
    obtain ⟨close, hcase⟩ := (autoPublish_ok hrun).1
    exact .inr (.of_method (m := .recordPublication close) hcase)
  | proposeAddendum cmd => exact .inl (proposeAddendum_ok hrun).1
  | submitAddendum cmd =>
    have hcase := (submitAddendum_ok hrun).1
    exact .inr (.of_method (m := .submitAddendum) hcase)
  | decideCp3 cmd =>
    obtain ⟨extension, hcase⟩ := (decideCp3_ok hrun).2.1
    exact .inr (.of_method (m := .resolveCp3 extension) hcase)
  | recordSubmission cmd =>
    have hcase := (recordSubmission_ok hrun).1
    exact .inr (.of_method (m := .recordSubmission) hcase)
  | requestCp4 => exact .inl (requestCp4_ok hrun).1
  | completeCp4 cmd =>
    have hcase := (completeCp4_ok hrun).2.1
    exact .inr (.of_method (m := .completeCp4Handoff) hcase)

theorem NodeMove.one_transition {n : NodeName} {st st' : PreparationState}
    (h : NodeMove n st st' c c') : c' = c ∨ OneTransition c c' := by
  have hadvance : ∀ state step key, OneTransition c (c.advance state step key) :=
    fun state step key => .of_method (m := .advance state step key) rfl
  cases n with
  | completenessCheck | applyCp1 | draftSolicitationPackage | applyCp2 =>
    have h : c' = c.advance _ _ _ := h
    rw [h]
    exact .inr (hadvance _ _ _)
  | draftProcurementApproach =>
    obtain ⟨key, rfl⟩ := h
    exact .inr (hadvance _ _ _)
  | approachGate | packageGate =>
    obtain ⟨gate, _, rfl⟩ := h
    exact .inr (hadvance _ _ _)
  | finalizeOfficial =>
    obtain ⟨artifactId, ref, hlock⟩ := h
    exact .inr (.of_method (m := .lockOfficial artifactId ref) hlock)
  | loadCase | extractRequirements | cp1Review | draftEvaluationCriteria
  | buildSupplierShortlist | runRiskCheck | cp2Review | closeFailed | closeIncomplete =>
    exact .inl h

theorem step_one_transition (hs : w.step env a = some w') :
    w'.db.case = w.db.case ∨ OneTransition w.db.case w'.db.case := by
  rcases step_case hs with h | ⟨call, h, rfl, _⟩ | ⟨call, cmd, _, haccepts, value, deadline, hcase⟩ |
    ⟨call, trigger, r, _, hstart⟩ | ⟨r, inp, record, n, st, _, _, _, hmove⟩
  · exact .inl h
  · obtain ⟨db, hrun, rfl⟩ := World.step_handle hs
    exact Handler.run_one_transition hrun
  · -- an amendment sets the figures and reopens the case in one save
    refine .inr ⟨[.method .reopenForAmendment, .demand value deadline], ?_, rfl⟩
    show ((CaseMethod.reopenForAmendment.run
      { w.db.case with estimatedValueMinor := value, deadline := deadline }).toOption) = _
    rw [hcase]
    have hreopen : CaseMethod.reopenForAmendment.run
        { w.db.case with estimatedValueMinor := value, deadline := deadline } = .ok _ :=
      PreparationCase.reopenForAmendment_ok.mpr ⟨haccepts, rfl⟩
    rw [hreopen]
    rfl
  · exact .inr (.of_method (m := .startRun r) hstart)
  · exact hmove.one_transition

theorem OneTransition.version (h : OneTransition c c') : c'.version = c.version + 1 := by
  obtain ⟨changes, hreplay, hone⟩ := h
  have hversion : c'.version = c.version + caseTable.bumps changes :=
    VersionedTable.replay_version hreplay
  rw [hversion, hone]

theorem OneTransition.saved {row : CaseRow} (h : OneTransition c c')
    (hrow : caseFromRow row = some c) :
    ∃ row', row.save c' = .ok row' ∧ caseFromRow row' = some c' := by
  have hnext := h.version
  obtain ⟨changes, hreplay, _⟩ := h
  obtain ⟨hversion, hkey, hvalid⟩ := caseFromRow_some hrow
  have hkept : c'.kept = c.kept := VersionedTable.replay_key hreplay
  have htitle : blank c'.title = false := VersionedTable.replay_valid hreplay hvalid
  have hupdate : caseTable.update row c' = some (row.written c') :=
    if_pos (show row.version + 1 = c'.version by omega)
  refine ⟨row.written c', ?_, caseFromRow_written (hkept.trans hkey) htitle⟩
  rw [CaseRow.save, hupdate]

theorem createCase_stored {cmd : CreatePreparationCaseCommand}
    (h : createCase env directory call cmd = .ok db) :
    db.case.version = 1 ∧ caseFromRow (CaseRow.add db.case) = some db.case := by
  simp only [createCase, authorize, requireFeature, ↓raiseIf_bind_ok, bind_ok] at h
  obtain ⟨_, _, _, _, _, htitle, _, _, _, _, _, h⟩ := h
  obtain rfl := Except.ok.inj h
  simp only [CaseDb.send_case]
  exact ⟨rfl, caseFromRow_add htitle rfl rfl rfl rfl rfl rfl⟩

/-- **Refinement**: along every run of the component the case is what a row is loaded
    as. Whatever changes it is one method of it, which the pinned update of the row
    accepts and the version counts. -/
theorem saved_by_method {es : List (Event World Action)} (h : Exec (preparation env) es w) :
    (∃ row, caseFromRow row = some w.db.case) ∧
    w.db.case.version = 1 + es.countP (fun e => e.post.db.case ≠ e.pre.db.case) ∧
    ∀ e ∈ es, e.post.db.case = e.pre.db.case ∨
      (OneTransition e.pre.db.case e.post.db.case ∧ ∀ row, caseFromRow row = some e.pre.db.case →
        ∃ row', row.save e.post.db.case = .ok row' ∧ caseFromRow row' = some e.post.db.case) := by
  induction h with
  | start hw =>
    obtain ⟨_, _, hcreate, _⟩ := hw
    obtain ⟨hversion, hrow⟩ := createCase_stored hcreate
    exact ⟨⟨_, hrow⟩, hversion, by simp⟩
  | @snoc es s s' a _ hs ih =>
    obtain ⟨⟨row, hrow⟩, hcount, hevents⟩ := ih
    rcases step_one_transition hs with hsame | hone
    · rw [List.countP_cons_of_neg (by simpa using hsame), hsame]
      refine ⟨⟨row, hrow⟩, hcount, ?_⟩
      exact List.forall_mem_cons.mpr ⟨.inl hsame, hevents⟩
    · have hversion := hone.version
      have hmoved : s'.db.case ≠ s.db.case := by
        intro hsame
        rw [hsame] at hversion
        omega
      obtain ⟨row', _, hrow'⟩ := hone.saved hrow
      rw [List.countP_cons_of_pos (by simpa using hmoved)]
      refine ⟨⟨row', hrow'⟩, by omega, ?_⟩
      exact List.forall_mem_cons.mpr ⟨.inr ⟨hone, fun _ hrow => hone.saved hrow⟩, hevents⟩

end

namespace Office

def newCase : PreparationCase := { id := { text := "case" }, createdBy := an, title := "Máy chủ" }

def newStore : CaseStore := { row := CaseRow.add newCase, sessions := fun _ => none }

theorem newStore_init : caseStore.init newStore := ⟨by decide, fun _ => rfl⟩

def raced : List (SessionAction Nat CaseChange) :=
  [.load 0, .load 1, .change 1 (.method (.verifyIntake binh 7)), .save 1]

theorem cp1_version : ∃ es w, Exec (preparation env) es w ∧ w.db.case.state = .cp1Pending ∧
    w.db.case.version = 1 + es.countP (fun e => e.post.db.case ≠ e.pre.db.case) := by
  obtain ⟨es, w, hexec, hstate, _⟩ := cp1_reached
  exact ⟨es, w, hexec, hstate, (saved_by_method hexec).2.1⟩

/-- The handler that lost the race with one method is refused. -/
theorem stale_refused : ∃ es s, Exec caseStore es s ∧
    ∃ e ∈ es, e.act = .save 0 ∧ SaveRefused e 0 := by
  have hruns : caseStore.runs newStore
      (raced ++ [.change 0 (.method (.verifyIntake chi 8)), .save 0])
      (fun es _ => es.any (fun e => e.act == .save 0 && (match e.pre.sessions 0 with
        | some x => transitions x == 1 && x.loaded != e.pre.row
        | none => false))) = true := by
    decide +kernel
  obtain ⟨es, s, hrun, htest⟩ := Machine.exec_of_runs newStore_init hruns
  obtain ⟨e, he, htest⟩ := List.any_eq_true.mp htest
  rw [Bool.and_eq_true, beq_iff_eq] at htest
  obtain ⟨hact, htest⟩ := htest
  split at htest
  · next x hx =>
    simp only [Bool.and_eq_true, beq_iff_eq, bne_iff_ne] at htest
    obtain ⟨hone, hstale⟩ := htest
    obtain ⟨_, hsave⟩ := case_store_linearizable hrun e he
    exact ⟨es, s, hrun, e, he, hact, (hsave 0 x hact hx).stale hone hstale⟩
  · cases htest

/-- The same handler with two methods commits over the update it has not read:
    the case is verified by Chi, and nothing is left of Binh's verification. -/
theorem update_lost : ∃ es s, Exec caseStore es s ∧ ∃ e ∈ es, ∃ x, e.act = .save 0 ∧
    e.pre.sessions 0 = some x ∧ x.loaded ≠ e.pre.row ∧ e.post.row ≠ e.pre.row ∧
    e.pre.row.intakeVerifiedBy = some binh ∧ e.post.row.intakeVerifiedBy = some chi := by
  have hruns : caseStore.runs newStore
      (raced ++ [.change 0 (.method (.verifyIntake chi 8)),
        .change 0 (.method (.startRun run)), .save 0])
      (fun es _ => es.any (fun e => e.act == .save 0 && (match e.pre.sessions 0 with
        | some x => x.loaded != e.pre.row && e.post.row != e.pre.row &&
            e.pre.row.intakeVerifiedBy == some binh && e.post.row.intakeVerifiedBy == some chi
        | none => false))) = true := by
    decide +kernel
  obtain ⟨es, s, hrun, htest⟩ := Machine.exec_of_runs newStore_init hruns
  obtain ⟨e, he, htest⟩ := List.any_eq_true.mp htest
  rw [Bool.and_eq_true, beq_iff_eq] at htest
  obtain ⟨hact, htest⟩ := htest
  split at htest
  · next x hx =>
    simp only [Bool.and_eq_true, beq_iff_eq, bne_iff_ne] at htest
    obtain ⟨⟨⟨hstale, hwritten⟩, hbefore⟩, hafter⟩ := htest
    exact ⟨es, s, hrun, e, he, x, hact, hx, hstale, hwritten, hbefore, hafter⟩
  · cases htest

end Office

end DigitalWorker
