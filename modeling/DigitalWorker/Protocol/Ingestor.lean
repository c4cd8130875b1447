import DigitalWorker.Protocol.Mailroom
import DigitalWorker.Protocol.Workspace

/-! # The ingestor of bids

    A poll takes a batch of mails out of the mailbox and deals with them one after
    the other. A mail that is read as a bid costs two transactions: one records the
    bid, the next asks for the opening.

    A refusal by a handler is caught, and the mail reported; any other exception
    leaves the loop, and what the batch still holds is not looked at.
-/

namespace DigitalWorker

open Framework

/-! ## The handlers, for a case that may not exist -/

namespace Workspace

variable (env : Env) (s : Workspace)

def registerOf (caseId : Uuid) : Option (List Dict) :=
  (s.caseOf caseId).map (fun w => registerItems w.db)

def keysOf (caseId : Uuid) : List String := ((s.caseOf caseId).map (·.db.keys)).getD []

/-- `cases.save`. -/
def replace (caseId : Uuid) (w : World) : Workspace :=
  { s with worlds := s.worlds.map (fun v => if v.db.case.id = caseId then w else v) }

/-- `RecordPreparationSubmissionHandler.handle`. -/
def recordSubmission (call : Call) (caseId : Uuid) (cmd : RecordSubmissionCommand) :
    Except Error Workspace :=
  match s.caseOf caseId with
  | some w => do
    let db ← DigitalWorker.recordSubmission env w.directory call cmd w.db
    return s.replace caseId { w with db := db }
  | none => do
    authorize call.context "tender.write" "supplier_submission" caseId.text
    raiseIf (!(["on_time", "late", "replacement"].contains cmd.receiptStatus))
      (domainError "invalid supplier submission receipt status")
    .error (notFoundError "preparation case not found" [])

/-- `RequestCp4Handler.handle`; it returns the number of bids. -/
def requestCp4 (call : Call) (caseId : Uuid) : Except Error (Workspace × Nat) :=
  match s.caseOf caseId with
  | some w => do
    let db ← DigitalWorker.requestCp4 env w.directory call w.db
    return (s.replace caseId { w with db := db }, (submissions w.db).length)
  | none => do
    authorize call.context "tender.write" "preparation_cp4" caseId.text
    .error (notFoundError "preparation case not found" [])

end Workspace

/-! ## The ingestor -/

structure IngestReport where
  recorded : Nat := 0
  cp4Requested : Bool := false
  skipped : List String := []
  deriving DecidableEq

/-- `EmailSubmissionIngestor`, with the cases it acts on and the poll under way. -/
structure Ingestor where
  workspace : Workspace
  cp4Requested : List Uuid := []
  /-- The mails of the batch that the loop has not come to. -/
  left : List InboundMail := []
  /-- The case of the bid just recorded, until the loop has dealt with CP4. -/
  pending : Option Uuid := none
  report : IngestReport := {}
  /-- An exception has left the loop. -/
  raised : Bool := false

/-- What a call of a handler can meet besides its own checks: a domain error, such
    as a lost race for the row, or another exception. -/
inductive HandlerFault where
  | refused (e : Error)
  | raised
  deriving DecidableEq

def skipText (m : InboundMail) : String :=
  if (caseTag m.subject).isNone then m.messageId ++ ": subject has no [DW01:<case>] tag"
  else m.messageId ++ ": no attachment (bid file required)"

def refusedText (m : InboundMail) (e : Error) : String := m.messageId ++ ": " ++ e.message

namespace Ingestor

variable (env : Env) (lower : String → String) (minSubmissionsForCp4 : Int) (s : Ingestor)

/-- A poll begins with what `fetch_new` returned. -/
def begin (batch : List InboundMail) : Ingestor :=
  { s with left := batch, pending := none, report := {}, raised := false }

def atEnd : Bool := s.left.isEmpty && s.pending.isNone

/-- `skipped.append(…)`, and on to the rest. -/
def skip (rest : List InboundMail) (text : String) : Ingestor :=
  { s with left := rest, report := { s.report with skipped := s.report.skipped ++ [text] } }

def accept (caseId : Uuid) (rest : List InboundMail) (workspace : Workspace) : Ingestor :=
  { s with
    workspace := workspace
    left := rest
    pending := some caseId
    report := { s.report with recorded := s.report.recorded + 1 } }

def fail : Ingestor := { s with left := [], pending := none, raised := true }

/-- The first half of the loop's body: the mail `m`, with `rest` after it. -/
def takeMail (call : Call) (view : Option (List PreparationArtifact))
    (fault : Option HandlerFault) (m : InboundMail) (rest : List InboundMail) : Ingestor :=
  match readMail m with
  | .skipped => s.skip rest (skipText m)
  -- `uuid.UUID` is called outside the try
  | .unparsable => s.fail
  | .bid caseId name bytes =>
    match fault with
    | some .raised => s.fail
    | some (.refused e) => s.skip rest (refusedText m e)
    | none =>
      match s.workspace.recordSubmission env call caseId
          (mailSubmission env lower view call.now m name bytes) with
      | .error e => s.skip rest (refusedText m e)
      | .ok workspace => s.accept caseId rest workspace

/-- `if count >= self.min_submissions_for_cp4`. -/
def counted (caseId : Uuid) (count : Nat) : Ingestor :=
  if minSubmissionsForCp4 ≤ count then
    { s with
      pending := none
      cp4Requested := caseId :: s.cp4Requested
      report := { s.report with cp4Requested := true } }
  else { s with pending := none }

def askForCp4 (call : Call) (fault : Option HandlerFault) (caseId : Uuid) : Ingestor :=
  if s.cp4Requested.contains caseId then { s with pending := none }
  else
    match fault with
    | some .raised => s.fail
    -- `except DWError: count = 0`
    | some (.refused _) => s.counted minSubmissionsForCp4 caseId 0
    | none =>
      match s.workspace.requestCp4 env call caseId with
      | .error _ => s.counted minSubmissionsForCp4 caseId 0
      | .ok (workspace, count) =>
        { s with workspace := workspace }.counted minSubmissionsForCp4 caseId count

end Ingestor

inductive PollAction where
  /-- Anybody else acts on the cases. -/
  | others (a : WorkspaceAction)
  /-- The loop comes to its next mail; `view` is what `get_case` returned. -/
  | take (call : Call) (view : Option (List PreparationArtifact)) (fault : Option HandlerFault)
  /-- The loop comes to CP4 for the bid it has recorded. -/
  | ask (call : Call) (fault : Option HandlerFault)

def Ingestor.step (env : Env) (lower : String → String) (minSubmissionsForCp4 : Int)
    (s : Ingestor) : PollAction → Option Ingestor
  | .others a =>
    match s.workspace.step env a with
    | some workspace => some { s with workspace := workspace }
    | none => none
  | .take call view fault =>
    match s.pending, s.left with
    | none, m :: rest => some (s.takeMail env lower call view fault m rest)
    | _, _ => none
  | .ask call fault =>
    match s.pending with
    | some caseId => some (s.askForCp4 env minSubmissionsForCp4 call fault caseId)
    | none => none

/-- `poll_once`, from the moment it has fetched the batch, on cases of any kind. -/
def pollOnce (env : Env) (lower : String → String) (minSubmissionsForCp4 : Int)
    (batch : List InboundMail) : Machine Ingestor PollAction where
  init s := (∀ w ∈ s.workspace.worlds, Reachable (preparation env) w) ∧ s = s.begin batch
  step := Ingestor.step env lower minSubmissionsForCp4

/-! ## The cases after a step -/

section

variable {env : Env} {s s' : Workspace} {c : Uuid}

theorem Workspace.caseOf_replace_self {w w' : World} (hw : s.caseOf c = some w)
    (hid : w'.db.case.id = c) : (s.replace c w').caseOf c = some w' := by
  unfold Workspace.caseOf Workspace.replace at *
  generalize s.worlds = worlds at *
  induction worlds with
  | nil => cases hw
  | cons v worlds ih =>
    rw [List.map_cons, List.find?_cons]
    by_cases hv : v.db.case.id = c
    · rw [if_pos hv, hid, beq_self_eq_true]
    · have hskip : (v.db.case.id == c) = false := beq_false_of_ne hv
      rw [List.find?_cons, hskip] at hw
      rw [if_neg hv, hskip]
      exact ih hw

theorem Workspace.caseOf_replace_ne {caseId : Uuid} {w' : World} (hid : w'.db.case.id = caseId)
    (hc : c ≠ caseId) : (s.replace caseId w').caseOf c = s.caseOf c := by
  have hskip : (caseId == c) = false := beq_false_of_ne (Ne.symm hc)
  unfold Workspace.caseOf Workspace.replace
  dsimp only
  induction s.worlds with
  | nil => rfl
  | cons v worlds ih =>
    rw [List.map_cons, List.find?_cons, List.find?_cons]
    by_cases hv : v.db.case.id = caseId
    · rw [if_pos hv, hid, hv, hskip]
      exact ih
    · rw [if_neg hv, ih]

theorem Workspace.caseOf_restaffed (directory : Directory) :
    Workspace.caseOf { s with
      directory := directory
      worlds := s.worlds.map (fun w => { w with directory := directory }) } c =
      (s.caseOf c).map (fun w => { w with directory := directory }) := by
  unfold Workspace.caseOf
  exact List.find?_map ..

theorem Workspace.step_registerOf {a : WorkspaceAction} (hs : s.step env a = some s')
    {items : List Dict} (hitems : s.registerOf c = some items) :
    ∃ items', s'.registerOf c = some items' ∧ items <+: items' := by
  obtain ⟨w, hw, rfl⟩ := Option.map_eq_some_iff.mp hitems
  unfold Workspace.registerOf
  cases a with
  | restaff directory =>
    obtain rfl := Option.some.inj hs
    rw [Workspace.caseOf_restaffed, hw]
    exact ⟨_, rfl, List.prefix_rfl⟩
  | openCase call cmd =>
    simp only [Workspace.step] at hs
    split at hs
    · cases hs
    · next db hcreate =>
      split at hs
      · cases hs
      · next hfresh =>
        obtain rfl := Option.some.inj hs
        have hid : (db.case.id == c) = false := by
          apply beq_false_of_ne
          intro hid
          rw [hid, hw] at hfresh
          exact hfresh rfl
        have hsame : Workspace.caseOf
            { s with worlds := { directory := s.directory, db := db } :: s.worlds } c = some w := by
          unfold Workspace.caseOf
          rw [List.find?_cons]
          simp only [hid]
          exact hw
        rw [hsame]
        exact ⟨_, rfl, List.prefix_rfl⟩
  | act caseId b =>
    simp only [Workspace.step] at hs
    split at hs
    · cases hs
    · next v hv =>
      split at hs
      · split at hs
        · cases hs
        · next w' hstep =>
          obtain rfl := Option.some.inj hs
          have hid : w'.db.case.id = caseId := (step_caseId hstep).trans (caseOf_some hv).2
          show ∃ items', ((s.replace caseId w').caseOf c).map _ = some items' ∧ _
          by_cases hc : c = caseId
          · subst hc
            obtain rfl : v = w := Option.some.inj (hv.symm.trans hw)
            rw [Workspace.caseOf_replace_self hw hid]
            exact ⟨_, rfl, step_register_grows hstep⟩
          · rw [Workspace.caseOf_replace_ne hid hc, hw]
            exact ⟨_, rfl, List.prefix_rfl⟩
      · cases hs
  | otherWorkers requests =>
    simp only [Workspace.step] at hs
    split at hs
    · cases hs
    · obtain rfl := Option.some.inj hs
      exact ⟨_, congrArg _ hw, List.prefix_rfl⟩

theorem Workspace.recordSubmission_step {call : Call} {caseId : Uuid}
    {cmd : RecordSubmissionCommand} (h : s.recordSubmission env call caseId cmd = .ok s') :
    ∃ w db, s.caseOf caseId = some w ∧
      DigitalWorker.recordSubmission env w.directory call cmd w.db = .ok db ∧
      db.case.id = caseId ∧ s' = s.replace caseId { w with db := db } ∧
      s.step env (.act caseId (.handle call (.recordSubmission cmd))) = some s' := by
  unfold Workspace.recordSubmission at h
  split at h
  · next w hw =>
    obtain ⟨db, hrecord, hsave⟩ := bind_ok.mp h
    obtain rfl := Except.ok.inj hsave
    have hstep : w.step env (.handle call (.recordSubmission cmd)) = some { w with db := db } := by
      simp only [World.step, Handler.run, hrecord]
    have hid : db.case.id = caseId := (step_caseId hstep).trans (caseOf_some hw).2
    refine ⟨w, db, hw, hrecord, hid, rfl, ?_⟩
    simp only [Workspace.step, hw, Workspace.admits, Workspace.seenFrom, hstep, if_true]
    rfl
  · simp only [authorize, ↓raiseIf_bind_ok] at h
    obtain ⟨_, _, h⟩ := h
    cases h

theorem Workspace.recordSubmission_ok {call : Call} {caseId : Uuid}
    {cmd : RecordSubmissionCommand} (h : s.recordSubmission env call caseId cmd = .ok s') :
    (∃ items document, document.filename = cmd.file.filename ∧
      document.contentHash = env.sha256 cmd.file.content ∧ s.registerOf caseId = some items ∧
      s'.registerOf caseId = some (items ++ [bidItem env call cmd document])) ∧
    ∀ c, c ≠ caseId → s'.registerOf c = s.registerOf c := by
  obtain ⟨w, db, hw, hrecord, hid, rfl, _⟩ := Workspace.recordSubmission_step h
  obtain ⟨document, hname, hhash, _, hitems⟩ := recordSubmission_rows hrecord
  unfold Workspace.registerOf
  constructor
  · refine ⟨registerItems w.db, document, hname, hhash, by rw [hw]; rfl, ?_⟩
    rw [@Workspace.caseOf_replace_self s caseId w _ hw hid, ← hitems]
    rfl
  · intro c hc
    rw [@Workspace.caseOf_replace_ne s c caseId _ hid hc]

theorem Workspace.requestCp4_step {call : Call} {caseId : Uuid} {count : Nat}
    (h : s.requestCp4 env call caseId = .ok (s', count)) :
    ∃ w db, s.caseOf caseId = some w ∧
      DigitalWorker.requestCp4 env w.directory call w.db = .ok db ∧ db.case.id = caseId ∧
      registerItems db = registerItems w.db ∧ s' = s.replace caseId { w with db := db } ∧
      count = (submissions w.db).length ∧
      s.step env (.act caseId (.handle call .requestCp4)) = some s' := by
  unfold Workspace.requestCp4 at h
  split at h
  · next w hw =>
    obtain ⟨db, hrequest, hsave⟩ := bind_ok.mp h
    obtain ⟨rfl, rfl⟩ := Prod.mk.inj (Except.ok.inj hsave)
    have hstep : w.step env (.handle call .requestCp4) = some { w with db := db } := by
      simp only [World.step, Handler.run, hrequest]
    have hid : db.case.id = caseId := (step_caseId hstep).trans (caseOf_some hw).2
    have hregister := step_register hstep (fun _ _ hact => by cases hact)
    refine ⟨w, db, hw, hrequest, hid, hregister, rfl, rfl, ?_⟩
    simp only [Workspace.step, hw, Workspace.admits, Workspace.seenFrom, hstep, if_true]
    rfl
  · simp only [authorize, ↓raiseIf_bind_ok] at h
    cases h.2

theorem Workspace.requestCp4_registers {call : Call} {caseId : Uuid} {count : Nat}
    (h : s.requestCp4 env call caseId = .ok (s', count)) :
    s'.registerOf c = s.registerOf c := by
  obtain ⟨w, db, hw, _, hid, hregister, rfl, _⟩ := Workspace.requestCp4_step h
  unfold Workspace.registerOf
  by_cases hc : c = caseId
  · rw [hc, hw, @Workspace.caseOf_replace_self s caseId w _ hw hid]
    exact congrArg some hregister
  · rw [@Workspace.caseOf_replace_ne s c caseId _ hid hc]

end

/-! ## What the loop makes of a mail -/

def isBid (m : InboundMail) : Bool :=
  match readMail m with
  | .bid _ _ _ => true
  | _ => false

def breaks (fault : Option HandlerFault) (m : InboundMail) : Bool :=
  readMail m == .unparsable || (isBid m && fault == some .raised)

variable {env : Env} {lower : String → String} {min : Int} {s : Ingestor} {call : Call}
  {view : Option (List PreparationArtifact)} {fault : Option HandlerFault} {m : InboundMail}
  {rest : List InboundMail}

theorem skipText_eq (m : InboundMail) : ∃ reason, skipText m = m.messageId ++ ": " ++ reason := by
  unfold skipText
  split
  · exact ⟨"subject has no [DW01:<case>] tag", by rw [String.append_assoc]; rfl⟩
  · exact ⟨"no attachment (bid file required)", by rw [String.append_assoc]; rfl⟩

theorem Ingestor.takeMail_cases :
    (breaks fault m = true ∧ s.takeMail env lower call view fault m rest = s.fail) ∨
    (breaks fault m = false ∧ ∃ reason, s.takeMail env lower call view fault m rest =
      s.skip rest (m.messageId ++ ": " ++ reason)) ∨
    (breaks fault m = false ∧ ∃ caseId name bytes workspace,
      readMail m = .bid caseId name bytes ∧ fault = none ∧
      s.workspace.recordSubmission env call caseId
        (mailSubmission env lower view call.now m name bytes) = .ok workspace ∧
      s.takeMail env lower call view fault m rest = s.accept caseId rest workspace) := by
  unfold Ingestor.takeMail breaks isBid
  cases hread : readMail m with
  | skipped =>
    obtain ⟨reason, htext⟩ := skipText_eq m
    exact .inr (.inl ⟨rfl, reason, by rw [← htext]⟩)
  | unparsable => exact .inl ⟨rfl, rfl⟩
  | bid caseId name bytes =>
    cases fault with
    | some fault =>
      cases fault with
      | raised => exact .inl ⟨rfl, rfl⟩
      | refused e => exact .inr (.inl ⟨rfl, e.message, rfl⟩)
    | none =>
      dsimp only
      split
      · next e _ => exact .inr (.inl ⟨rfl, e.message, rfl⟩)
      · next workspace hrecord =>
        exact .inr (.inr ⟨rfl, caseId, name, bytes, workspace, rfl, rfl, hrecord, rfl⟩)

/-- The loop has dealt with CP4, and goes on. -/
structure Ingestor.MovesOn (s s' : Ingestor) : Prop where
  pending : s'.pending = none
  left : s'.left = s.left
  raised : s'.raised = s.raised
  recorded : s'.report.recorded = s.report.recorded
  skipped : s'.report.skipped = s.report.skipped
  registers : ∀ c, s'.workspace.registerOf c = s.workspace.registerOf c

theorem Ingestor.counted_movesOn (caseId : Uuid) (count : Nat) :
    s.MovesOn (s.counted min caseId count) := by
  unfold Ingestor.counted
  split <;> exact ⟨rfl, rfl, rfl, rfl, rfl, fun _ => rfl⟩

def Ingestor.breaksAsking (s : Ingestor) (fault : Option HandlerFault) (caseId : Uuid) : Bool :=
  !(s.cp4Requested.contains caseId) && fault == some .raised

theorem Ingestor.askForCp4_cases {caseId : Uuid} :
    (s.breaksAsking fault caseId = true ∧ s.askForCp4 env min call fault caseId = s.fail) ∨
    (s.breaksAsking fault caseId = false ∧ s.MovesOn (s.askForCp4 env min call fault caseId)) := by
  unfold Ingestor.askForCp4 Ingestor.breaksAsking
  by_cases hasked : s.cp4Requested.contains caseId = true
  · right
    rw [if_pos hasked, hasked]
    exact ⟨rfl, rfl, rfl, rfl, rfl, rfl, fun _ => rfl⟩
  · rw [if_neg hasked, Bool.eq_false_iff.mpr hasked]
    cases fault with
    | some fault =>
      cases fault with
      | raised => exact .inl ⟨rfl, rfl⟩
      | refused e => exact .inr ⟨rfl, Ingestor.counted_movesOn caseId 0⟩
    | none =>
      right
      refine ⟨rfl, ?_⟩
      dsimp only
      split
      · exact Ingestor.counted_movesOn caseId 0
      · next workspace count hrequest =>
        have hmoves := @Ingestor.counted_movesOn min { s with workspace := workspace } caseId count
        refine ⟨hmoves.pending, hmoves.left, hmoves.raised, hmoves.recorded, hmoves.skipped, ?_⟩
        intro c
        rw [hmoves.registers c]
        exact Workspace.requestCp4_registers hrequest

end DigitalWorker
