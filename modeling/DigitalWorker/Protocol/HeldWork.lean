import DigitalWorker.Framework.Rows
import DigitalWorker.Preparation.ReworkBlock
import DigitalWorker.Protocol.Workspace

/-! # Whose work a block holds

    People whose cases keep coming back are asked for an explanation before they
    open or run another one. The tally is over all cases of a tenant, so the desk
    is a workspace, together with the explanations people filed and the returns
    that were marked as mis-clicks.

    The guard can only ask about the person who calls. A run is
    started at four entries, by three instances of the run handler, and may be called
    for by somebody else than the creator, or by nobody the guard is asked about.
    Whether an instance was built with the guard is a parameter.
-/

namespace DigitalWorker

open Framework

section

/-! ## Entries -/

inductive Entry where
  /-- `POST …/run`. -/
  | button
  /-- In chat, when the last clarification is answered. -/
  | answers
  /-- After an amendment. -/
  | amendment
  /-- After the verification of an intake. -/
  | verification
  deriving DecidableEq

/-- A verification calls `handle_auto`; the others call `handle`. -/
def Entry.trigger : Entry → RunTrigger
  | .verification => .autoIntake
  | _ => .manual

/-- Which entries use an instance that was given the guard. -/
abbrev Wiring := Entry → Bool

/-- The wiring of `build_container`: `run_case` has the guard, and the instances
    built for amendments and verifications have none. -/
def containerWiring : Wiring
  | .button | .answers => true
  | .amendment | .verification => false

/-- What an instance without the guard reads of the configuration. -/
def Env.unguarded (env : Env) : Env := { env with reworkRules := none }

def Env.wired (env : Env) (wiring : Wiring) (entry : Entry) : Env :=
  if wiring entry then env else env.unguarded

structure SupportDesk where
  cases : Workspace
  explanations : List ExplanationRecord := []
  /-- The events marked as mis-clicks, and when. -/
  corrections : List (Uuid × DateTime) := []

namespace SupportDesk

def corrected (s : SupportDesk) (e : ReworkEvent) : ReworkEvent :=
  match s.corrections.find? (·.1 == e.id) with
  | some c => { e with voidedAt := some c.2 }
  | none => e

def rows (s : SupportDesk) : ReworkStore :=
  { events := (s.cases.worlds.flatMap (·.db.reworkEvents)).map s.corrected
    explanations := s.explanations }

end SupportDesk

def Call.reading (call : Call) (store : ReworkStore) : Call :=
  { call with reworkStore := .ok store }

inductive SupportRequest where
  /-- A chat turn that reads as a new request. -/
  | draft (call : Call)
  | openCase (call : Call) (cmd : CreatePreparationCaseCommand)
  /-- The run gets the identifier the handler draws. -/
  | start (entry : Entry) (call : Call) (caseId runId : Uuid)

def SupportRequest.call : SupportRequest → Call
  | .draft call | .openCase call _ | .start _ call _ _ => call

namespace SupportDesk

variable (env : Env) (wiring : Wiring) (s : SupportDesk) (store : ReworkStore)

/-- `RunPreparationHandler`, for a case that may not exist. -/
def runCase (entry : Entry) (call : Call) (caseId runId : Uuid) : Except Error Unit :=
  match s.cases.caseOf caseId with
  | some w => do
    let _ ← startRun (env.wired wiring entry) call entry.trigger runId w.db
    return ()
  | none => do
    match entry.trigger with
    | .manual => do
      authorize call.context "tender.write" "preparation_case" caseId.text
      (env.wired wiring entry).requireNotBlocked call
    | .autoIntake => .ok ()
    requireFeature env.plans call.context tenderFeature
    .error (notFoundError "preparation case not found" [("case_id", caseId.text)])

def answer : SupportRequest → Except Error Unit
  | .draft call => env.requireNotBlocked (call.reading store)
  | .openCase call cmd => do
    let _ ← createCase env s.cases.directory (call.reading store) cmd
    return ()
  | .start entry call caseId runId => s.runCase env wiring entry (call.reading store) caseId runId

def perform : SupportRequest → Option Workspace
  | .draft _ => none
  | .openCase call cmd => s.cases.step env (.openCase (call.reading s.rows) cmd)
  | .start entry call caseId runId =>
    s.cases.step (env.wired wiring entry)
      (.act caseId (.start (call.reading s.rows) entry.trigger runId))

end SupportDesk

/-! ## Steps -/

inductive SupportAction where
  | request (r : SupportRequest)
  /-- Everything else that happens to the cases. -/
  | work (a : WorkspaceAction)
  /-- Explanations are filed and decided. -/
  | explain (explanations : List ExplanationRecord)
  /-- A return is marked as a mis-click. -/
  | correct (eventId : Uuid) (time : DateTime)

def WorkspaceAction.isRequest : WorkspaceAction → Bool
  | .openCase _ _ | .act _ (.start _ _ _) => true
  | _ => false

def SupportDesk.step (env : Env) (wiring : Wiring) (s : SupportDesk) :
    SupportAction → Option SupportDesk
  | .request r => some { s with cases := (s.perform env wiring r).getD s.cases }
  | .work a =>
    if a.isRequest then none
    else
      match s.cases.step env a with
      | none => none
      | some cases => some { s with cases := cases }
  | .explain explanations => some { s with explanations := explanations }
  | .correct eventId time => some { s with corrections := (eventId, time) :: s.corrections }

def supportDesk (env : Env) (wiring : Wiring) : Machine SupportDesk SupportAction where
  init s := s.cases.worlds = [] ∧ s.cases.others = [] ∧ s.explanations = [] ∧ s.corrections = []
  step := SupportDesk.step env wiring

/-! ## What happens to the cases besides -/

variable {env : Env} {wiring : Wiring} {s s' : SupportDesk}

theorem supportDesk_caseIds {es : List (Event SupportDesk SupportAction)}
    (h : Exec (supportDesk env wiring) es s) :
    (s.cases.worlds.map (·.db.case.id)).Nodup := by
  apply h.invariant (P := fun s => (s.cases.worlds.map (·.db.case.id)).Nodup)
  · intro s hs
    rw [hs.1]
    exact List.nodup_nil
  · intro s a s' hids hs
    cases a with
    | request r =>
      obtain rfl := Option.some.inj hs
      show (((s.perform env wiring r).getD s.cases).worlds.map (·.db.case.id)).Nodup
      cases hperform : s.perform env wiring r with
      | none => exact hids
      | some cases =>
        cases r with
        | draft call => cases hperform
        | openCase call cmd =>
          have hstep : s.cases.step env (.openCase (call.reading s.rows) cmd) = some cases :=
            hperform
          exact Workspace.step_caseIds hstep hids
        | start entry call caseId runId =>
          have hstep : s.cases.step (env.wired wiring entry)
              (.act caseId (.start (call.reading s.rows) entry.trigger runId)) = some cases :=
            hperform
          exact Workspace.step_caseIds hstep hids
    | work a =>
      have hs : s.step env wiring (.work a) = some s' := hs
      simp only [SupportDesk.step] at hs
      split at hs
      · cases hs
      · split at hs
        · cases hs
        · next cases hstep =>
          obtain rfl := Option.some.inj hs
          exact Workspace.step_caseIds hstep hids
    | explain explanations =>
      obtain rfl := Option.some.inj hs
      exact hids
    | correct eventId time =>
      obtain rfl := Option.some.inj hs
      exact hids

end

/-! ## Refusals for a block -/

def ReworkStore.without (store : ReworkStore) (person : Uuid) : ReworkStore :=
  { store with events := store.events.filter (fun e => e.creatorUserId != person) }

def blockNotice {α : Type} : Except Error α → Bool
  | .ok _ => false
  | .error e => e.details.contains ("reason", "rework_support_required")

def SupportAction.At : SupportAction → DateTime → Prop
  | .request r, t => t = r.call.now
  | _, _ => True

namespace SupportDesk

section

variable (rules : ReworkSupportRules) (env : Env) (wiring : Wiring)

def refusedFor (s : SupportDesk) (r : SupportRequest) (person : Uuid) : Bool :=
  blockNotice (s.answer env wiring s.rows r) &&
    !blockNotice (s.answer env wiring (s.rows.without person) r)

def creatorOf (s : SupportDesk) : SupportRequest → Option Uuid
  | .draft call | .openCase call _ => some call.context.principalId
  | .start _ _ caseId _ => (s.cases.caseOf caseId).map (·.db.case.createdBy)

/-- **The property**, of a step of the desk. -/
structure HeldAndFair (e : Event SupportDesk SupportAction) : Prop where
  /-- No case comes into existence whose creator is blocked. -/
  cases : ∀ w ∈ e.post.cases.worlds,
    (∀ v ∈ e.pre.cases.worlds, v.db.case.id ≠ w.db.case.id) →
    ∀ t, e.act.At t → ¬ ReworkGuard.Blocks rules e.pre.rows w.db.case.createdBy t
  /-- No run starts of a case whose creator is blocked. -/
  runs : ∀ w ∈ e.post.cases.worlds, ∀ r, w.runs r ≠ none →
    (∀ v ∈ e.pre.cases.worlds, v.db.case.id = w.db.case.id → v.runs r = none) →
    ∀ t, e.act.At t → ¬ ReworkGuard.Blocks rules e.pre.rows w.db.case.createdBy t
  /-- A request is refused for no block but that of the creator of its case. -/
  fair : ∀ r, e.act = .request r → ∀ person, refusedFor env wiring e.pre r person = true →
    ∀ creator, creatorOf e.pre r = some creator → person = creator

/-! ## The condition -/

def asks (entry : Entry) (call : Call) : Bool :=
  entry.trigger == .manual && wiring entry && isAllowed call.context "tender.write"

def inOrder (entry : Entry) (call : Call) (runId : Uuid) (w : World) : Bool :=
  (w.runs runId).isNone && (entry.trigger == .autoIntake || isAllowed call.context "tender.write") &&
    hasFeature env.plans call.context tenderFeature && w.db.case.state.startable

def Finds (s : SupportDesk) (entry : Entry) (call : Call) : Prop :=
  asks wiring entry call = true ∧
    ReworkGuard.Blocks rules s.rows call.context.principalId call.now

/-- **The condition**: whom the guard finds blocked is the creator, and where the
    creator is blocked and nothing else stops the run, the guard finds it. -/
def Attributed (s : SupportDesk) : SupportAction → Prop
  | .request (.start entry call caseId runId) => ∀ w, s.cases.caseOf caseId = some w →
    (Finds rules wiring s entry call → call.context.principalId = w.db.case.createdBy) ∧
    (inOrder env entry call runId w = true →
      ReworkGuard.Blocks rules s.rows w.db.case.createdBy call.now → Finds rules wiring s entry call)
  | _ => True

end

/-! ## What the guard says -/

section

variable {α β : Type} {rules : ReworkSupportRules} {env : Env} {call : Call} {store : ReworkStore}
  {person other : Uuid} {t : DateTime}

theorem blockNotice_bind {x : Except Error α} {f : α → Except Error β} :
    blockNotice (x >>= f) = true ↔
      blockNotice x = true ∨ ∃ a, x = .ok a ∧ blockNotice (f a) = true := by
  cases x with
  | error e => simp [bind, Except.bind, blockNotice]
  | ok a => simp [bind, Except.bind, blockNotice]

theorem blockNotice_raiseIf {cond : Bool} {e : Error} :
    blockNotice (raiseIf cond e) = (cond && e.details.contains ("reason", "rework_support_required")) := by
  cases cond
  · rfl
  · rfl

theorem not_blocks_without_self : ¬ ReworkGuard.Blocks rules (store.without person) person t := by
  rw [ReworkGuard.assess_block_iff]
  rintro ⟨⟨hthreshold, _⟩, hload, _⟩
  have hnone : ReworkGuard.countedTimes rules (store.without person) person = [] := by
    rw [ReworkGuard.countedTimes, ReworkStore.without, List.filter_filter, List.map_eq_nil_iff,
      List.filter_eq_nil_iff]
    intro e _
    by_cases he : e.creatorUserId = person
    · simp [he]
    · simp [he]
  rw [ReworkGuard.blockLoad, hnone] at hload
  simp only [load, List.countP_nil] at hload
  omega

theorem blocks_without_other (h : other ≠ person) :
    ReworkGuard.Blocks rules (store.without other) person t ↔
      ReworkGuard.Blocks rules store person t := by
  have hsame : ReworkGuard.countedTimes rules (store.without other) person =
      ReworkGuard.countedTimes rules store person := by
    rw [ReworkGuard.countedTimes, ReworkGuard.countedTimes, ReworkStore.without, List.filter_filter]
    congr 1
    apply List.filter_congr
    intro e _
    by_cases he : e.creatorUserId = person
    · have hne : (person != other) = true := by simpa using h.symm
      simp [he, hne]
    · simp [he]
  rw [ReworkGuard.assess_block_iff, ReworkGuard.assess_block_iff, ReworkGuard.blockLoad, hsame]
  rfl

theorem requireNotBlocked_ok (henv : env.reworkRules = some rules) :
    env.requireNotBlocked (call.reading store) = .ok () ↔
      ¬ ReworkGuard.Blocks rules store call.context.principalId call.now := by
  unfold Env.requireNotBlocked ReworkGuard.requireNotBlocked
  rw [henv]
  simp only [raiseIf_ok, decide_eq_false_iff_not]
  rfl

theorem requireNotBlocked_notice (henv : env.reworkRules = some rules) :
    blockNotice (env.requireNotBlocked (call.reading store)) = true ↔
      ReworkGuard.Blocks rules store call.context.principalId call.now := by
  unfold Env.requireNotBlocked ReworkGuard.requireNotBlocked
  rw [henv]
  simp only [blockNotice_raiseIf, conflictError, Bool.and_eq_true, decide_eq_true_eq]
  rw [and_iff_left (by simp)]
  rfl

theorem unguarded_ok : env.unguarded.requireNotBlocked call = .ok () := rfl

end

/-! ## What a request is told -/

section

variable {rules : ReworkSupportRules} {env : Env} {wiring : Wiring} {s : SupportDesk}
  {store : ReworkStore} {r : SupportRequest} {person : Uuid}

def asked (env : Env) (wiring : Wiring) : SupportRequest → Bool
  | .draft _ => true
  | .openCase call _ => isAllowed call.context "tender.write" &&
    hasFeature env.plans call.context tenderFeature
  | .start entry call _ _ => asks wiring entry call

variable {context : AccessContext} {call : Call} {entry : Entry}

theorem authorize_notice {action resourceType resourceId : String} :
    blockNotice (authorize context action resourceType resourceId) = false := by
  unfold authorize
  rw [blockNotice_raiseIf]
  by_cases hid : resourceId = ""
  · simp [hid]
  · simp [hid]

theorem requireFeature_notice {feature : String} :
    blockNotice (requireFeature env.plans context feature) = false := by
  unfold requireFeature
  rw [blockNotice_raiseIf]
  simp

theorem authorize_ok {action resourceType resourceId : String} {u : Unit} :
    authorize context action resourceType resourceId = .ok u ↔ isAllowed context action = true := by
  unfold authorize
  simp

theorem requireFeature_ok {feature : String} {u : Unit} :
    requireFeature env.plans context feature = .ok u ↔
      hasFeature env.plans context feature = true := by
  unfold requireFeature
  simp

theorem createCase_notice (wiring : Wiring) {directory : Directory}
    {cmd : CreatePreparationCaseCommand} (henv : env.reworkRules = some rules) :
    blockNotice (createCase env directory (call.reading store) cmd) = true ↔
      asked env wiring (.openCase call cmd) = true ∧
        ReworkGuard.Blocks rules store call.context.principalId call.now := by
  simp only [createCase, blockNotice_bind, authorize_notice, requireFeature_notice,
    requireNotBlocked_notice henv, blockNotice_raiseIf, domainError, List.contains_nil,
    Bool.and_false, Bool.false_eq_true, false_or]
  simp [asked, authorize_ok, requireFeature_ok, blockNotice, pure, Except.pure, Call.reading,
    and_assoc]

theorem wired_notice (henv : env.reworkRules = some rules) :
    blockNotice ((env.wired wiring entry).requireNotBlocked (call.reading store)) = true ↔
      wiring entry = true ∧ ReworkGuard.Blocks rules store call.context.principalId call.now := by
  unfold Env.wired
  by_cases hwired : wiring entry = true
  · rw [if_pos hwired, requireNotBlocked_notice henv]
    simp [hwired]
  · rw [if_neg hwired, unguarded_ok]
    simp [hwired, blockNotice]

theorem wired_ok (henv : env.reworkRules = some rules) :
    (env.wired wiring entry).requireNotBlocked (call.reading store) = .ok () ↔
      ¬ (wiring entry = true ∧ ReworkGuard.Blocks rules store call.context.principalId call.now) := by
  unfold Env.wired
  by_cases hwired : wiring entry = true
  · rw [if_pos hwired, requireNotBlocked_ok henv]
    simp [hwired]
  · rw [if_neg hwired, unguarded_ok]
    simp [hwired]

theorem requireMayRun_notice {db : CaseDb}
    (henv : env.reworkRules = some rules) :
    blockNotice (requireMayRun (env.wired wiring entry) (call.reading store) entry.trigger db) =
        true ↔
      asks wiring entry call = true ∧
        ReworkGuard.Blocks rules store call.context.principalId call.now := by
  cases htrigger : entry.trigger with
  | autoIntake => simp [requireMayRun, asks, htrigger, blockNotice]
  | manual =>
    simp only [requireMayRun, blockNotice_bind, authorize_notice, authorize_ok, wired_notice henv,
      asks, htrigger]
    simp [Call.reading]
    tauto

theorem caseStartRun_notice {c : PreparationCase} {runId : Uuid} :
    blockNotice (c.startRun runId) = false := by
  rw [PreparationCase.startRun, Bool.eq_false_iff, ne_eq, blockNotice_bind, blockNotice_raiseIf]
  simp [domainError, blockNotice, pure, Except.pure]

theorem saveCase_notice {db : CaseDb} {c : PreparationCase} :
    blockNotice (db.saveCase c) = false := by
  unfold CaseDb.saveCase
  split
  · rfl
  · simp [blockNotice, conflictError]

theorem startRun_notice {runId : Uuid} {db : CaseDb}
    (henv : env.reworkRules = some rules) :
    blockNotice (startRun (env.wired wiring entry) (call.reading store) entry.trigger runId db) =
        true ↔
      asks wiring entry call = true ∧
        ReworkGuard.Blocks rules store call.context.principalId call.now := by
  simp only [startRun, blockNotice_bind, requireMayRun_notice henv, requireFeature_notice,
    caseStartRun_notice, saveCase_notice, Bool.false_eq_true, false_or]
  simp [blockNotice, pure, Except.pure]

theorem runCase_notice {caseId runId : Uuid}
    (henv : env.reworkRules = some rules) :
    blockNotice (s.runCase env wiring entry (call.reading store) caseId runId) = true ↔
      asks wiring entry call = true ∧
        ReworkGuard.Blocks rules store call.context.principalId call.now := by
  unfold runCase
  split
  · next w _ =>
    rw [blockNotice_bind, startRun_notice henv]
    simp [blockNotice, pure, Except.pure]
  · cases htrigger : entry.trigger with
    | autoIntake =>
      simp only [blockNotice_bind, requireFeature_notice]
      simp [asks, htrigger, blockNotice, notFoundError]
    | manual =>
      simp only [blockNotice_bind, requireFeature_notice, authorize_notice, authorize_ok,
        wired_notice henv, asks, htrigger]
      simp [Call.reading, blockNotice, notFoundError]
      tauto

/-- **What a request is told**: of a block, exactly when the guard is asked about
    its caller and blocks the caller. -/
theorem answer_notice (henv : env.reworkRules = some rules) :
    blockNotice (s.answer env wiring store r) = true ↔
      asked env wiring r = true ∧
        ReworkGuard.Blocks rules store r.call.context.principalId r.call.now := by
  cases r with
  | draft call =>
    rw [answer, requireNotBlocked_notice henv]
    simp [asked, SupportRequest.call]
  | openCase call cmd =>
    rw [answer, blockNotice_bind, createCase_notice wiring henv]
    simp [SupportRequest.call, blockNotice, pure, Except.pure]
  | start entry call caseId runId => exact runCase_notice henv

/-- **Refusals**: a request is refused for the block of its caller, if for any. -/
theorem refusedFor_iff (henv : env.reworkRules = some rules) :
    refusedFor env wiring s r person = true ↔
      person = r.call.context.principalId ∧ asked env wiring r = true ∧
        ReworkGuard.Blocks rules s.rows r.call.context.principalId r.call.now := by
  rw [refusedFor, Bool.and_eq_true, Bool.not_eq_true', ← Bool.not_eq_true, answer_notice henv,
    answer_notice henv]
  by_cases hperson : person = r.call.context.principalId
  · subst hperson
    simp [not_blocks_without_self]
  · rw [blocks_without_other hperson]
    simp [hperson]

end

/-! ## What a request does -/

section

variable {rules : ReworkSupportRules} {env : Env} {wiring : Wiring} {s : SupportDesk}
  {cases : Workspace} {call : Call} {entry : Entry} {caseId runId : Uuid} {w : World}

theorem startRun_succeeds (henv : env.reworkRules = some rules) {db : CaseDb} {store : ReworkStore} :
    (∃ x, startRun (env.wired wiring entry) (call.reading store) entry.trigger runId db = .ok x) ↔
      ¬ (asks wiring entry call = true ∧
        ReworkGuard.Blocks rules store call.context.principalId call.now) ∧
      (entry.trigger == .autoIntake || isAllowed call.context "tender.write") = true ∧
      hasFeature env.plans call.context tenderFeature = true ∧ db.case.state.startable = true := by
  have hmay : requireMayRun (env.wired wiring entry) (call.reading store) entry.trigger db = .ok () ↔
      ¬ (asks wiring entry call = true ∧
        ReworkGuard.Blocks rules store call.context.principalId call.now) ∧
      (entry.trigger == .autoIntake || isAllowed call.context "tender.write") = true := by
    cases htrigger : entry.trigger with
    | autoIntake => simp [requireMayRun, asks, htrigger]
    | manual =>
      simp only [requireMayRun, bind_ok, authorize_ok, wired_ok henv, asks, htrigger]
      simp [Call.reading]
      tauto
  have hplans : (env.wired wiring entry).plans = env.plans := by
    unfold Env.wired
    split
    · rfl
    · rfl
  have hsave : ∀ c, db.case.startRun runId = .ok c → ∃ rows, (db.notifyProgress "run_started"
      (take runId.hex 12)).saveCase c = .ok rows := by
    intro c hc
    obtain ⟨_, rfl⟩ := PreparationCase.startRun_ok.mp hc
    exact ⟨_, if_pos rfl⟩
  constructor
  · rintro ⟨x, h⟩
    simp only [startRun, bind_ok] at h
    obtain ⟨_, hguard, _, hfeature, c, hc, _⟩ := h
    obtain ⟨hfound, hallowed⟩ := hmay.mp hguard
    rw [hplans] at hfeature
    exact ⟨hfound, hallowed, requireFeature_ok.mp hfeature, (PreparationCase.startRun_ok.mp hc).1⟩
  · rintro ⟨hfound, hallowed, hfeature, hstate⟩
    have hc := PreparationCase.startRun_ok (r := runId) |>.mpr ⟨hstate, rfl⟩
    obtain ⟨rows, hrows⟩ := hsave _ hc
    refine ⟨(rows, runActor (call.reading store) entry.trigger db), ?_⟩
    simp only [startRun, bind_ok]
    refine ⟨(), hmay.mpr ⟨hfound, hallowed⟩, (), ?_, _, hc, rows, hrows, rfl⟩
    rw [hplans]
    exact requireFeature_ok.mpr hfeature

theorem perform_start_some (henv : env.reworkRules = some rules)
    (h : s.perform env wiring (.start entry call caseId runId) = some cases) :
    ∃ w w', s.cases.caseOf caseId = some w ∧ inOrder env entry call runId w = true ∧
      ¬ Finds rules wiring s entry call ∧
      cases.worlds = s.cases.worlds.map (fun v => if v.db.case.id = caseId then w' else v) ∧
      w'.db.case.id = w.db.case.id ∧ w'.db.case.createdBy = w.db.case.createdBy ∧
      w'.runs runId ≠ none ∧ ∀ r, r ≠ runId → w'.runs r = w.runs r := by
  simp only [perform, Workspace.step] at h
  split at h
  · cases h
  · next w hw =>
    have hadmits : s.cases.admits (.start (call.reading s.rows) entry.trigger runId) = true := rfl
    rw [if_pos hadmits] at h
    split at h
    · cases h
    · next w' hstep =>
      obtain rfl := Option.some.inj h
      have hstep : w.step (env.wired wiring entry)
          (.start (call.reading s.rows) entry.trigger runId) = some w' := hstep
      obtain ⟨hfresh, db, actor, hrun, rfl⟩ := World.step_start hstep
      obtain ⟨hfound, hallowed, hfeature, hstate⟩ := (startRun_succeeds henv).mp ⟨_, hrun⟩
      obtain ⟨_, hcase⟩ := PreparationCase.startRun_ok.mp (startRun_ok hrun).1
      refine ⟨w, _, hw, ?_, hfound, rfl, ?_, ?_, ?_, ?_⟩
      · simp only [inOrder, hfresh, hallowed, hfeature, hstate, Option.isNone_none, Bool.and_self]
      · rw [hcase]
      · rw [hcase]
      · simp
      · intro r hr
        exact RunStore.put_ne _ _ hr

theorem perform_start_of (henv : env.reworkRules = some rules)
    (hw : s.cases.caseOf caseId = some w) (horder : inOrder env entry call runId w = true)
    (hfound : ¬ Finds rules wiring s entry call) :
    ∃ cases, s.perform env wiring (.start entry call caseId runId) = some cases := by
  simp only [inOrder, Bool.and_eq_true, Option.isNone_iff_eq_none] at horder
  obtain ⟨⟨⟨hfresh, hallowed⟩, hfeature⟩, hstate⟩ := horder
  have hsucceeds : ∃ x, startRun (env.wired wiring entry) (call.reading s.rows) entry.trigger runId
      w.db = .ok x := (startRun_succeeds henv).mpr ⟨hfound, hallowed, hfeature, hstate⟩
  obtain ⟨⟨db, actor⟩, hrun⟩ := hsucceeds
  have hstart : w.start (env.wired wiring entry) (call.reading s.rows) entry.trigger runId =
      some { w with
        db := db
        runs := w.runs.put runId
          { requestedBy := actor, status := .running, position := .running .loadCase, state := {} } } := by
    unfold World.start
    rw [if_neg (by simp [hfresh])]
    rw [hrun]
  have hadmits : s.cases.admits (.start (call.reading s.rows) entry.trigger runId) = true := rfl
  have hstep : w.step (env.wired wiring entry)
      (s.cases.seenFrom w (.start (call.reading s.rows) entry.trigger runId)) = _ := hstart
  simp only [perform, Workspace.step, hw, if_pos hadmits, hstep]
  exact ⟨_, rfl⟩

theorem createCase_creator {directory : Directory} {cmd : CreatePreparationCaseCommand} {db : CaseDb}
    (h : createCase env directory call cmd = .ok db) :
    db.case.createdBy = call.context.principalId ∧ env.requireNotBlocked call = .ok () := by
  simp only [createCase, authorize, requireFeature, ↓raiseIf_bind_ok, bind_ok] at h
  obtain ⟨_, _, _, _, hguard, _, _, _, _, _, _, h⟩ := h
  obtain rfl := Except.ok.inj h
  exact ⟨by simp, hguard⟩

theorem perform_open_some (henv : env.reworkRules = some rules) {cmd : CreatePreparationCaseCommand}
    (h : s.perform env wiring (.openCase call cmd) = some cases) :
    ∃ w, cases.worlds = w :: s.cases.worlds ∧ w.db.case.createdBy = call.context.principalId ∧
      (∀ r, w.runs r = none) ∧
      ¬ ReworkGuard.Blocks rules s.rows call.context.principalId call.now := by
  simp only [perform, Workspace.step] at h
  split at h
  · cases h
  · next db hcreate =>
    split at h
    · cases h
    · obtain rfl := Option.some.inj h
      obtain ⟨hcreator, hguard⟩ := createCase_creator hcreate
      exact ⟨_, rfl, hcreator, fun _ => rfl, (requireNotBlocked_ok henv).mp hguard⟩

end

/-! ## What else happens -/

section

variable {rules : ReworkSupportRules} {env : Env} {wiring : Wiring} {s s' : SupportDesk}

def NoNews (s s' : SupportDesk) : Prop :=
  ∀ w' ∈ s'.cases.worlds, ∃ w ∈ s.cases.worlds, w.db.case.id = w'.db.case.id ∧
    ∀ r, w.runs r = none → w'.runs r = none

theorem NoNews.of_worlds (h : s'.cases.worlds = s.cases.worlds) : NoNews s s' := by
  intro w hw
  rw [h] at hw
  exact ⟨w, hw, rfl, fun _ hr => hr⟩

theorem NoNews.heldAndFair {a : SupportAction} (h : NoNews s s')
    (hfair : ∀ r, a = .request r → ∀ person, refusedFor env wiring s r person = true →
      ∀ creator, creatorOf s r = some creator → person = creator) :
    HeldAndFair rules env wiring ⟨s, a, s'⟩ := by
  constructor
  · intro w' hw' hnew
    obtain ⟨w, hw, hid, _⟩ := h w' hw'
    exact absurd hid (hnew w hw)
  · intro w' hw' r hr hnew
    obtain ⟨w, hw, hid, hruns⟩ := h w' hw'
    exact absurd (hruns r (hnew w hw hid)) hr
  · exact hfair

theorem noNews_work {a : WorkspaceAction} {cases : Workspace} (ha : a.isRequest = false)
    (hs : s.cases.step env a = some cases) : NoNews s { s with cases := cases } := by
  cases a with
  | openCase call cmd => cases ha
  | restaff directory =>
    obtain rfl := Option.some.inj hs
    intro w' hw'
    obtain ⟨w, hw, rfl⟩ := List.mem_map.mp hw'
    exact ⟨w, hw, rfl, fun _ hr => hr⟩
  | otherWorkers requests =>
    simp only [Workspace.step] at hs
    split at hs
    · cases hs
    · obtain rfl := Option.some.inj hs
      exact .of_worlds rfl
  | act caseId b =>
    simp only [Workspace.step] at hs
    split at hs
    · cases hs
    · next w hw =>
      split at hs
      · split at hs
        · cases hs
        · next w' hstep =>
          obtain rfl := Option.some.inj hs
          have hstart : ∀ call trigger r, s.cases.seenFrom w b ≠ .start call trigger r := by
            intro call trigger r heq
            cases b <;> first | (cases heq; done) | (cases heq; cases ha)
          intro u hu
          obtain ⟨v, hv, rfl⟩ := List.mem_map.mp hu
          by_cases hid : v.db.case.id = caseId
          · rw [if_pos hid]
            refine ⟨w, (caseOf_some hw).1, (step_caseId hstep).symm, ?_⟩
            intro r hr
            exact World.step_noRow hstep hstart hr
          · rw [if_neg hid]
            exact ⟨v, hv, rfl, fun _ hr => hr⟩
      · cases hs

/-! ## One step -/

/-- **A start**: it is held, and refused to nobody else, when it is attributed. -/
theorem start_iff (henv : env.reworkRules = some rules)
    (hids : (s.cases.worlds.map (·.db.case.id)).Nodup) {entry : Entry} {call : Call}
    {caseId runId : Uuid}
    (hs : s.step env wiring (.request (.start entry call caseId runId)) = some s') :
    HeldAndFair rules env wiring ⟨s, .request (.start entry call caseId runId), s'⟩ ↔
      Attributed rules env wiring s (.request (.start entry call caseId runId)) := by
  obtain rfl := Option.some.inj hs
  have hrefused : ∀ person, refusedFor env wiring s (.start entry call caseId runId) person = true ↔
      person = call.context.principalId ∧ Finds rules wiring s entry call :=
    fun person => refusedFor_iff henv
  constructor
  · intro h w hw
    refine ⟨?_, ?_⟩
    · intro hfinds
      apply h.fair _ rfl _ ((hrefused _).mpr ⟨rfl, hfinds⟩)
      simp [creatorOf, hw]
    · -- an orderly start that the guard does not find goes through
      intro horder hblocks
      by_contra hfinds
      obtain ⟨cases, hperform⟩ := perform_start_of (s := s) henv hw horder hfinds
      obtain ⟨v, w', hv, _, _, hworlds, hid, hcreator, hrun, _⟩ := perform_start_some henv hperform
      obtain rfl : w = v := Option.some.inj (hw.symm.trans hv)
      obtain ⟨hmem, hcaseId⟩ := caseOf_some hw
      have hpost : w' ∈ ((s.perform env wiring (.start entry call caseId runId)).getD
          s.cases).worlds := by
        rw [hperform, Option.getD_some, hworlds]
        exact List.mem_map.mpr ⟨w, hmem, if_pos hcaseId⟩
      have hfresh : ∀ u ∈ s.cases.worlds, u.db.case.id = w'.db.case.id → u.runs runId = none := by
        intro u hu huid
        obtain rfl : u = w := Rows.eq_of_key hids hu hmem (huid.trans hid)
        simp only [inOrder, Bool.and_eq_true, Option.isNone_iff_eq_none] at horder
        exact horder.1.1.1
      apply h.runs w' hpost runId hrun hfresh call.now rfl
      show ReworkGuard.Blocks rules s.rows w'.db.case.createdBy call.now
      rw [hcreator]
      exact hblocks
  · intro h
    have hfair : ∀ person, refusedFor env wiring s (.start entry call caseId runId) person = true →
        ∀ creator, creatorOf s (.start entry call caseId runId) = some creator →
        person = creator := by
      intro person hperson creator hcreator
      obtain ⟨rfl, hfinds⟩ := (hrefused person).mp hperson
      obtain ⟨w, hw, rfl⟩ := Option.map_eq_some_iff.mp hcreator
      exact (h w hw).1 hfinds
    cases hperform : s.perform env wiring (.start entry call caseId runId) with
    | none =>
      apply NoNews.heldAndFair (NoNews.of_worlds rfl)
      intro r hr
      obtain rfl := SupportAction.request.inj hr
      exact hfair
    | some cases =>
      obtain ⟨w, w', hw, horder, hfinds, hworlds, hid, hcreator, _, hruns⟩ :=
        perform_start_some henv hperform
      obtain ⟨hmem, hcaseId⟩ := caseOf_some hw
      have hnot : ¬ ReworkGuard.Blocks rules s.rows w.db.case.createdBy call.now :=
        fun hblocks => hfinds ((h w hw).2 horder hblocks)
      constructor
      · intro u hu hnew
        obtain ⟨v, hv, rfl⟩ := List.mem_map.mp (hworlds ▸ hu)
        by_cases hvid : v.db.case.id = caseId
        · rw [if_pos hvid] at hnew
          exact absurd hid.symm (hnew w hmem)
        · rw [if_neg hvid] at hnew
          exact absurd rfl (hnew v hv)
      · intro u hu r hr hnew t ht
        obtain rfl : t = call.now := ht
        obtain ⟨v, hv, rfl⟩ := List.mem_map.mp (hworlds ▸ hu)
        by_cases hvid : v.db.case.id = caseId
        · rw [if_pos hvid, hcreator]
          exact hnot
        · rw [if_neg hvid] at hr hnew
          exact absurd (hnew v hv rfl) hr
      · intro r hr
        obtain rfl := SupportAction.request.inj hr
        exact hfair

theorem step_iff (henv : env.reworkRules = some rules)
    (hids : (s.cases.worlds.map (·.db.case.id)).Nodup) {a : SupportAction}
    (hs : s.step env wiring a = some s') :
    HeldAndFair rules env wiring ⟨s, a, s'⟩ ↔ Attributed rules env wiring s a := by
  have hquiet : ∀ r, r.call.context.principalId ∈ creatorOf s r → a = .request r → NoNews s s' →
      HeldAndFair rules env wiring ⟨s, a, s'⟩ := by
    intro r hcaller ha hnews
    apply hnews.heldAndFair
    intro r' hr' person hperson creator hcreator
    obtain rfl : r = r' := SupportAction.request.inj (ha.symm.trans hr')
    obtain ⟨rfl, _⟩ := (refusedFor_iff henv).mp hperson
    exact Option.some.inj (hcaller.symm.trans hcreator)
  cases a with
  | request r =>
    cases r with
    | draft call =>
      obtain rfl := Option.some.inj hs
      apply iff_of_true ?_ trivial
      exact hquiet (.draft call) rfl rfl (.of_worlds rfl)
    | openCase call cmd =>
      apply iff_of_true ?_ trivial
      obtain rfl := Option.some.inj hs
      cases hperform : s.perform env wiring (.openCase call cmd) with
      | none =>
        have hnews : NoNews s { s with cases := none.getD s.cases } := .of_worlds rfl
        rw [hperform] at hquiet
        exact hquiet (.openCase call cmd) rfl rfl hnews
      | some cases =>
        obtain ⟨w, hworlds, hcreator, hruns, hblocks⟩ := perform_open_some henv hperform
        have hcases : ∀ u ∈ cases.worlds, u = w ∨ u ∈ s.cases.worlds := by
          intro u hu
          rw [hworlds] at hu
          exact List.mem_cons.mp hu
        constructor
        · intro u hu hnew t ht
          obtain rfl : t = call.now := ht
          rcases hcases u hu with rfl | hold
          · rw [hcreator]
            exact hblocks
          · exact absurd rfl (hnew u hold)
        · intro u hu r hr hnew
          rcases hcases u hu with rfl | hold
          · exact absurd (hruns r) hr
          · exact absurd (hnew u hold rfl) hr
        · intro r hr person hperson creator hcreator
          obtain rfl := SupportAction.request.inj hr
          obtain ⟨rfl, _⟩ := (refusedFor_iff henv).mp hperson
          exact Option.some.inj hcreator
    | start entry call caseId runId => exact start_iff henv hids hs
  | work a =>
    apply iff_of_true ?_ trivial
    simp only [step] at hs
    split at hs
    · cases hs
    · next hwork =>
      split at hs
      · cases hs
      · next cases hstep =>
        obtain rfl := Option.some.inj hs
        apply (noNews_work (by simpa using hwork) hstep).heldAndFair
        intro r hr
        cases hr
  | explain explanations =>
    apply iff_of_true ?_ trivial
    obtain rfl := Option.some.inj hs
    have hnews : NoNews s { s with explanations := explanations } := .of_worlds rfl
    apply hnews.heldAndFair
    intro r hr
    cases hr
  | correct eventId time =>
    apply iff_of_true ?_ trivial
    obtain rfl := Option.some.inj hs
    have hnews : NoNews s { s with corrections := (eventId, time) :: s.corrections } :=
      .of_worlds rfl
    apply hnews.heldAndFair
    intro r hr
    cases hr

theorem event_iff (henv : env.reworkRules = some rules)
    {es : List (Event SupportDesk SupportAction)} (h : Exec (supportDesk env wiring) es s)
    {e : Event SupportDesk SupportAction} (he : e ∈ es) :
    HeldAndFair rules env wiring e ↔ Attributed rules env wiring e.pre e.act := by
  obtain ⟨_, earlier, _, hpre, hstep⟩ := h.split he
  exact step_iff henv (supportDesk_caseIds hpre) hstep

/-- **Main theorem**: a history holds the work of blocked creators, and nobody
    else's, exactly when every start in it is attributed. -/
theorem held_iff (henv : env.reworkRules = some rules)
    {es : List (Event SupportDesk SupportAction)} (h : Exec (supportDesk env wiring) es s) :
    (∀ e ∈ es, HeldAndFair rules env wiring e) ↔
      ∀ e ∈ es, Attributed rules env wiring e.pre e.act := by
  constructor
  · intro hheld e he
    exact (event_iff henv h he).mp (hheld e he)
  · intro hall e he
    exact (event_iff henv h he).mpr (hall e he)

end

instance (rules : ReworkSupportRules) (wiring : Wiring) (s : SupportDesk) (entry : Entry)
    (call : Call) : Decidable (Finds rules wiring s entry call) :=
  inferInstanceAs (Decidable (_ ∧ _))

instance (rules : ReworkSupportRules) (env : Env) (wiring : Wiring) (s : SupportDesk) :
    (a : SupportAction) → Decidable (Attributed rules env wiring s a)
  | .request (.start entry call caseId runId) =>
    match hw : s.cases.caseOf caseId with
    | none => .isTrue (fun w h => by rw [hw] at h; cases h)
    | some w => decidable_of_iff
        ((Finds rules wiring s entry call → call.context.principalId = w.db.case.createdBy) ∧
          (inOrder env entry call runId w = true →
            ReworkGuard.Blocks rules s.rows w.db.case.createdBy call.now →
            Finds rules wiring s entry call))
        ⟨fun h v hv => by obtain rfl := Option.some.inj (hw.symm.trans hv); exact h, fun h => h w hw⟩
  | .request (.draft _) | .request (.openCase _ _) | .work _ | .explain _ | .correct _ _ =>
    .isTrue trivial

end SupportDesk

/-! ## Two cases of one requester

    One return is enough to block here. The first case comes back, and the second
    is verified after that. -/

namespace HeldOffice

open Office SupportDesk

def rules : ReworkSupportRules :=
  { policyVersion := "v1", enabledFrom := none, nudgeWindowDays := 30, nudgeThreshold := 1
    blockWindowDays := 30, blockThreshold := 1, generalGuidance := ""
    reasonCodes := [{ code := "budget", label := "Ngân sách", guidance := "" }] }

def env : Env := { Office.env with reworkRules := some rules }

def callFor (user caseId : Uuid) : Call :=
  { Office.call user with newId := fun n => if n = 0 then caseId else { text := "other" } }

def first : Uuid := { text := "first" }
def second : Uuid := { text := "second" }

def desk : SupportDesk := { cases := { directory := directory } }

theorem desk_init : (supportDesk env containerWiring).init desk := ⟨rfl, rfl, rfl, rfl⟩

def oneReturned : List SupportAction :=
  [.request (.openCase (callFor an first) request),
    .request (.openCase (callFor an second) request),
    .work (.act first (.handle (call binh) (.rejectIntake "thiếu ngân sách" "budget"))),
    .work (.act second (.handle (call binh) (.verifyIntake "PR-1" "đủ hồ sơ")))]

/-- The verification starts the run of its creator, who is blocked by then. -/
theorem verified_and_run : ∃ es s, Exec (supportDesk env containerWiring) es s ∧
    ¬ ∀ e ∈ es, HeldAndFair rules env containerWiring e := by
  have hruns : (supportDesk env containerWiring).runs desk
      (oneReturned ++ [.request (.start .verification (call binh) second run)])
      (fun es _ => !decide (∀ e ∈ es, SupportDesk.Attributed rules env containerWiring e.pre e.act)) = true := by
    decide +kernel
  obtain ⟨es, s, hexec, htest⟩ := Machine.exec_of_runs desk_init hruns
  refine ⟨es, s, hexec, ?_⟩
  intro hheld
  have hall : ∀ e ∈ es, SupportDesk.Attributed rules env containerWiring e.pre e.act :=
    fun e he => (event_iff rfl hexec he).mp (hheld e he)
  simp only [Bool.not_eq_true', decide_eq_false_iff_not] at htest
  exact htest hall

/-- A blocked requester who presses the button on a case of their own is refused:
    the history is held. -/
theorem own_run_held : ∃ es s, Exec (supportDesk env containerWiring) es s ∧
    (∀ e ∈ es, HeldAndFair rules env containerWiring e) ∧
    (s.cases.caseOf second).all (fun w => (w.runs run).isNone) = true := by
  have hruns : (supportDesk env containerWiring).runs desk
      (oneReturned ++ [.request (.start .button (call an) second run)])
      (fun es s => decide (∀ e ∈ es, SupportDesk.Attributed rules env containerWiring e.pre e.act) &&
        (s.cases.caseOf second).all (fun w => (w.runs run).isNone)) = true := by
    decide +kernel
  obtain ⟨es, s, hexec, htest⟩ := Machine.exec_of_runs desk_init hruns
  rw [Bool.and_eq_true, decide_eq_true_eq] at htest
  exact ⟨es, s, hexec, (held_iff rfl hexec).mpr htest.1, htest.2⟩

-- An amendment of the same requester is followed by a run: that instance asks nobody.
example : (supportDesk env containerWiring).runs desk
    (oneReturned ++ [.request (.start .amendment (call an) second run)])
    (fun es _ => !decide (∀ e ∈ es, SupportDesk.Attributed rules env containerWiring e.pre e.act)) = true := by
  decide +kernel

end HeldOffice

end DigitalWorker
