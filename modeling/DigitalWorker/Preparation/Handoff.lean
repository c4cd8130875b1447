import DigitalWorker.Framework.Machine
import DigitalWorker.Preparation.Store

/-! # Handing a sealed case over to evaluation

    `HandoffToEvaluationHandler.handle` works in three transactions: it reads
    the sealed case and looks for an evaluation recorded earlier, lets another
    component create the evaluation case, and records the new identifier on a
    fresh version of the handoff artifact. Nothing is held from one transaction
    to the next.
-/

namespace DigitalWorker.Handoff

open Framework

/-! ## The handler -/

/-- What a call has gathered before it creates the evaluation case: the number
    of documents to upload and the files that could not be read as text. -/
structure Assembled where
  uploads : Nat
  unreadable : List String
  supplierCount : Nat
  deriving DecidableEq

structure HandoffResult where
  evaluationCaseId : String
  supplierCount : Int
  unreadable : List String
  reused : Bool
  deriving DecidableEq

/-- `int(str(value or 0))`, for the counts the code stores. -/
def countOf : Json → Int
  | .num n => n
  | _ => 0

def submissionsOf (documents : List PreparationDocument) : List PreparationDocument :=
  documents.filter (fun d => d.kind == .supplierSubmission)

/-- The first transaction and the assembly of the uploads. `readText` is what
    storage answers for a key: the text, or nothing if the bytes are no text. -/
def readHandoff (env : Env) (db : CaseDb) (context : AccessContext)
    (readText : String → Option String) : Except Error (HandoffResult ⊕ Assembled) := do
  authorize context "tender.write" "preparation_case" db.case.id.text
  raiseIf (db.case.state ≠ .completed)
    (conflictError "the package is not sealed yet — CP4 must complete first"
      [("case_id", db.case.id.text), ("state", db.case.state.value)])
  match db.latestContent .evaluationHandoff with
  | none => .error (conflictError "no evaluation handoff on this case"
      [("case_id", db.case.id.text)])
  | some handoff =>
    let existing := handoff.getD "evaluation_case_id" .null
    if existing.truthy then
      return .inl
        { evaluationCaseId := existing.pyStr env.repr
          supplierCount := countOf (handoff.getD "submission_count" (.num 0))
          unreadable := [], reused := true }
    else do
      let markdown := match db.latestContent .officialPackageManifest with
        | some manifest => manifest.getD "package_markdown" .null
        | none => .str ""
      let packageMarkdown := if markdown.truthy then markdown.pyStr env.repr else ""
      raiseIf (blank packageMarkdown)
        (conflictError "the official package has no readable content to hand over"
          [("case_id", db.case.id.text)])
      let submissions := submissionsOf db.documents
      raiseIf submissions.isEmpty (domainError "no supplier submission to evaluate")
      return .inr
        { uploads := submissions.length + 1
          unreadable := (submissions.filter (fun d => (readText d.storageKey).isNone)).map
            (·.filename)
          supplierCount := submissions.length }

/-- The checks of `CreateTenderCaseHandler.handle` that the uploads of a handoff
    do not satisfy by construction. -/
def createChecks (env : Env) (context : AccessContext) : Except Error Unit := do
  authorize context "tender.write" "tender_case" ""
  requireFeature env.plans context "tender_worker"

def recordHandoff (env : Env) (db : CaseDb) (context : AccessContext) (artifactId : Uuid)
    (evaluationCaseId : Uuid) (a : Assembled) : Except Error CaseDb :=
  match db.latestContent .evaluationHandoff with
  | none => .error { kind := .assertion, message := "" }
  | some content =>
    .ok (db.addApplicationArtifact env artifactId context.principalId .evaluationHandoff
      (((content.set "evaluation_case_id" (.str evaluationCaseId.text)).set
        "handed_over_documents" (.num a.uploads)).set
        "unreadable_submissions" (.arr (a.unreadable.map .str))) .official)

/-! ## Calls in flight -/

inductive CallPhase where
  /-- The first transaction found no recorded handoff. -/
  | assembled (a : Assembled)
  /-- The evaluation case is committed and not yet recorded. -/
  | created (a : Assembled) (evaluationCaseId : Uuid)
  /-- The call ended in an error after creating the evaluation case. -/
  | lost (evaluationCaseId : Uuid)
  /-- The call returned, or ended in an error without creating anything. -/
  | over
  deriving DecidableEq

def CallPhase.isOpen : CallPhase → Bool
  | .assembled _ => true
  | .created _ _ => true
  | .lost _ => true
  | .over => false

structure State where
  db : CaseDb
  /-- The DW02 evaluation cases created for this case. -/
  evaluations : List Uuid
  calls : Nat → Option CallPhase

def setCall (calls : Nat → Option CallPhase) (c : Nat) (p : CallPhase) :
    Nat → Option CallPhase :=
  fun d => if d = c then some p else calls d

@[simp] theorem setCall_self {calls : Nat → Option CallPhase} {c : Nat} {p : CallPhase} :
    setCall calls c p c = some p := by simp [setCall]

@[simp] theorem setCall_ne {calls : Nat → Option CallPhase} {c d : Nat} {p : CallPhase}
    (h : d ≠ c) : setCall calls c p d = calls d := by simp [setCall, h]

def recorded (db : CaseDb) : Bool :=
  match db.latestContent .evaluationHandoff with
  | some content => (content.getD "evaluation_case_id" .null).truthy
  | none => false

inductive Action where
  /-- A new call runs its first transaction. -/
  | read (c : Nat) (context : AccessContext) (readText : String → Option String)
  /-- The evaluation component creates a case under a new identifier. -/
  | create (c : Nat) (context : AccessContext) (evaluationCaseId : Uuid)
  /-- The call records the identifier. -/
  | record (c : Nat) (context : AccessContext) (artifactId : Uuid)
  /-- The call ends in an error: storage, database, or the process died. -/
  | fail (c : Nat)

def step (env : Env) (s : State) : Action → Option State
  | .read c context readText =>
    if s.calls c ≠ none then none
    else match readHandoff env s.db context readText with
      | .ok (.inr a) => some { s with calls := setCall s.calls c (.assembled a) }
      | _ => some { s with calls := setCall s.calls c .over }
  | .create c context id =>
    match s.calls c, createChecks env context with
    | some (.assembled a), .ok _ =>
      if id ∈ s.evaluations then none
      else some { s with
        evaluations := id :: s.evaluations
        calls := setCall s.calls c (.created a id) }
    | _, _ => none
  | .record c context artifactId =>
    match s.calls c with
    | some (.created a id) =>
      match recordHandoff env s.db context artifactId id a with
      | .ok db => some { s with db := db, calls := setCall s.calls c .over }
      | .error _ => none
    | _ => none
  | .fail c =>
    match s.calls c with
    | some (.assembled _) => some { s with calls := setCall s.calls c .over }
    | some (.created _ id) => some { s with calls := setCall s.calls c (.lost id) }
    | _ => none

def machine (env : Env) : Machine State Action where
  init := fun s => s.evaluations = [] ∧ recorded s.db = false ∧ ∀ c, s.calls c = none
  step := step env

/-! ## What the two transactions say about the record -/

section

variable {env : Env} {db db' : CaseDb} {context : AccessContext}
  {readText : String → Option String} {a : Assembled}

theorem readHandoff_unrecorded (h : readHandoff env db context readText = .ok (.inr a)) :
    recorded db = false := by
  rw [readHandoff, bind_ok] at h
  obtain ⟨_, _, h⟩ := h
  rw [raiseIf_bind_ok] at h
  obtain ⟨_, h⟩ := h
  cases hc : db.latestContent .evaluationHandoff with
  | none => simp [hc] at h
  | some content =>
    simp only [hc] at h
    by_cases hex : (content.getD "evaluation_case_id" .null).truthy = true
    · simp [hex, pure, Except.pure] at h
    · simpa [recorded, hc] using hex

theorem recordHandoff_recorded {artifactId id : Uuid}
    (h : recordHandoff env db context artifactId id a = .ok db') : recorded db' = true := by
  unfold recordHandoff at h
  cases hc : db.latestContent .evaluationHandoff with
  | none => simp [hc] at h
  | some content =>
    simp only [hc, Except.ok.injEq] at h
    subst h
    rw [recorded, CaseDb.latestContent_addApplicationArtifact_self]
    simp only [Dict.getD]
    rw [Dict.get?_set_ne _ _ (by decide), Dict.get?_set_ne _ _ (by decide),
      Dict.get?_set_self]
    simp [Json.truthy, id.nonempty]

end

/-! ## The invariant of runs without overlap -/

def Undisturbed (s : State) : Prop := ∀ c p, s.calls c = some p → p.isOpen = false

/-- **The condition**: a call that finds no recorded handoff starts while no
    other call is open, and none was lost after creating an evaluation case. -/
def NoOverlap (e : Event State Action) : Prop :=
  match e.act with
  | .read _ _ _ => recorded e.pre.db = true ∨ Undisturbed e.pre
  | _ => True

/-- What holds between the transactions of calls that do not overlap. -/
structure HandoffInv (s : State) : Prop where
  /-- At most one call is open. -/
  one_open : ∀ c c' p p', s.calls c = some p → s.calls c' = some p' →
    p.isOpen = true → p'.isOpen = true → c = c'
  /-- While a call is about to create, nothing has been created. -/
  assembled_first : ∀ c a, s.calls c = some (.assembled a) → s.evaluations = []
  /-- With no open call, an unrecorded case has no evaluation. -/
  unrecorded_empty : Undisturbed s → recorded s.db = false → s.evaluations = []
  at_most_one : s.evaluations.length ≤ 1

theorem HandoffInv.initial {env : Env} {s : State} (h : (machine env).init s) :
    HandoffInv s := by
  obtain ⟨hev, _, hcalls⟩ := h
  refine ⟨?_, ?_, ?_, ?_⟩
  · intro c c' p p' hc
    rw [hcalls c] at hc
    cases hc
  · intro c a hc
    rw [hcalls c] at hc
    cases hc
  · intro _ _
    exact hev
  · rw [hev]
    decide

private theorem one_open_close {s : State} (hinv : HandoffInv s) {c : Nat} {p : CallPhase}
    (hp : p.isOpen = true → ∃ q, s.calls c = some q ∧ q.isOpen = true) :
    ∀ d d' q q', setCall s.calls c p d = some q → setCall s.calls c p d' = some q' →
      q.isOpen = true → q'.isOpen = true → d = d' := by
  -- an open entry after the update was open before it, at the same call
  have hback : ∀ d q, setCall s.calls c p d = some q → q.isOpen = true →
      ∃ r, s.calls d = some r ∧ r.isOpen = true := by
    intro d q hd hq
    by_cases hdc : d = c
    · subst hdc
      rw [setCall_self] at hd
      obtain rfl := Option.some.inj hd
      exact hp hq
    · rw [setCall_ne hdc] at hd
      exact ⟨q, hd, hq⟩
  intro d d' q q' hd hd' hq hq'
  obtain ⟨r, hr, hro⟩ := hback d q hd hq
  obtain ⟨r', hr', hro'⟩ := hback d' q' hd' hq'
  exact hinv.one_open d d' r r' hr hr' hro hro'

private theorem no_other_assembled {s : State} (hinv : HandoffInv s) {c d : Nat} {q : CallPhase}
    {a : Assembled} (hc : s.calls c = some q) (hq : q.isOpen = true)
    (hd : s.calls d = some (.assembled a)) : d = c :=
  hinv.one_open d c _ _ hd hc rfl hq

theorem HandoffInv.read {env : Env} {s s' : State} {c : Nat} {context : AccessContext}
    {readText : String → Option String} (hinv : HandoffInv s)
    (hstep : step env s (.read c context readText) = some s')
    (hok : recorded s.db = true ∨ Undisturbed s) : HandoffInv s' := by
  simp only [step] at hstep
  split at hstep
  · cases hstep
  · next hnew =>
    rw [not_not] at hnew
    split at hstep
    · next a hread =>
      obtain rfl := Option.some.inj hstep
      have hun : recorded s.db = false := readHandoff_unrecorded hread
      have hquiet : Undisturbed s := by
        rcases hok with h | h
        · rw [hun] at h
          cases h
        · exact h
      have hempty : s.evaluations = [] := hinv.unrecorded_empty hquiet hun
      -- the new call is the only open one
      have honly : ∀ d q, setCall s.calls c (.assembled a) d = some q → q.isOpen = true →
          d = c := by
        intro d q hd hq
        by_contra hdc
        rw [setCall_ne hdc] at hd
        rw [hquiet d q hd] at hq
        cases hq
      refine ⟨?_, fun _ _ _ => hempty, fun _ _ => hempty, hinv.at_most_one⟩
      intro d d' q q' hd hd' hq hq'
      rw [honly d q hd hq, honly d' q' hd' hq']
    · obtain rfl := Option.some.inj hstep
      refine ⟨one_open_close hinv (by simp [CallPhase.isOpen]), ?_, ?_, hinv.at_most_one⟩
      · intro d a hd
        by_cases hdc : d = c
        · subst hdc
          simp at hd
        · exact hinv.assembled_first d a ((setCall_ne hdc).symm.trans hd)
      · intro hquiet hun
        refine hinv.unrecorded_empty ?_ hun
        intro d q hd
        have hdc : d ≠ c := by
          rintro rfl
          rw [hnew] at hd
          cases hd
        exact hquiet d q ((setCall_ne hdc).trans hd)

theorem HandoffInv.create {env : Env} {s s' : State} {c : Nat} {context : AccessContext}
    {id : Uuid} (hinv : HandoffInv s)
    (hstep : step env s (.create c context id) = some s') : HandoffInv s' := by
  simp only [step] at hstep
  split at hstep
  · next a _ hc _ =>
    split at hstep
    · cases hstep
    · obtain rfl := Option.some.inj hstep
      have hempty : s.evaluations = [] := hinv.assembled_first c a hc
      refine ⟨one_open_close hinv (fun _ => ⟨_, hc, rfl⟩), ?_, ?_, by simp [hempty]⟩
      · intro d b hd
        by_cases hdc : d = c
        · subst hdc
          simp at hd
        · have hd' : s.calls d = some (.assembled b) := (setCall_ne hdc).symm.trans hd
          exact absurd (no_other_assembled hinv hc rfl hd') hdc
      · intro hquiet
        have := hquiet c (.created a id) setCall_self
        cases this
  · cases hstep

theorem HandoffInv.record {env : Env} {s s' : State} {c : Nat} {context : AccessContext}
    {artifactId : Uuid} (hinv : HandoffInv s)
    (hstep : step env s (.record c context artifactId) = some s') : HandoffInv s' := by
  simp only [step] at hstep
  split at hstep
  · next a id hc =>
    split at hstep
    · next db hdb =>
      obtain rfl := Option.some.inj hstep
      refine ⟨one_open_close hinv (by simp [CallPhase.isOpen]), ?_, ?_, hinv.at_most_one⟩
      · intro d b hd
        by_cases hdc : d = c
        · subst hdc
          simp at hd
        · have hd' : s.calls d = some (.assembled b) := (setCall_ne hdc).symm.trans hd
          exact absurd (no_other_assembled hinv hc rfl hd') hdc
      · intro _ hun
        rw [show recorded db = true from recordHandoff_recorded hdb] at hun
        cases hun
    · cases hstep
  · cases hstep

theorem HandoffInv.fail {env : Env} {s s' : State} {c : Nat} (hinv : HandoffInv s)
    (hstep : step env s (.fail c) = some s') : HandoffInv s' := by
  simp only [step] at hstep
  split at hstep
  · next a hc =>
    obtain rfl := Option.some.inj hstep
    have hempty : s.evaluations = [] := hinv.assembled_first c a hc
    exact ⟨one_open_close hinv (by simp [CallPhase.isOpen]), fun _ _ _ => hempty,
      fun _ _ => hempty, hinv.at_most_one⟩
  · next a id hc =>
    obtain rfl := Option.some.inj hstep
    refine ⟨one_open_close hinv (fun _ => ⟨_, hc, rfl⟩), ?_, ?_, hinv.at_most_one⟩
    · intro d b hd
      by_cases hdc : d = c
      · subst hdc
        simp at hd
      · exact hinv.assembled_first d b ((setCall_ne hdc).symm.trans hd)
    · intro hquiet
      -- a lost call stays open: its evaluation exists and is recorded nowhere
      have := hquiet c (.lost id) setCall_self
      cases this
  · cases hstep

theorem HandoffInv.step {env : Env} {s s' : State} {a : Action} (hinv : HandoffInv s)
    (hstep : step env s a = some s') (hok : NoOverlap ⟨s, a, s'⟩) : HandoffInv s' := by
  cases a with
  | read c context readText => exact hinv.read hstep hok
  | create c context id => exact hinv.create hstep
  | record c context artifactId => exact hinv.record hstep
  | fail c => exact hinv.fail hstep

/-- **Main theorem**: in every run without overlapping or lost calls at most one
    evaluation case is created. -/
theorem at_most_one_evaluation (env : Env) {es : List (Event State Action)} {s : State}
    (hrun : Exec (machine env) es s) (hok : ∀ e ∈ es, NoOverlap e) :
    s.evaluations.length ≤ 1 := by
  have hinv : HandoffInv s :=
    hrun.invariant_of (fun _ => HandoffInv.initial)
      (fun _ _ _ hinv hstep hok => hinv.step hstep hok) hok
  exact hinv.at_most_one

/-! ## A sealed case, handed over once and twice -/

def demoEnv : Env :=
  { sha256 := id, repr := fun _ => "", isoformat := fun _ => ""
    plans := [("professional", ["tender_worker"])]
    rules := { methods := [] }, reworkRules := none }

def demoContext : AccessContext :=
  { principalId := { text := "an" }, scopes := ["tender.write"] }

def sealedDb : CaseDb :=
  { case := { id := { text := "case" }, createdBy := { text := "an" }, state := .completed }
    documents := [{ id := { text := "doc" }, kind := .supplierSubmission, title := "Hồ sơ dự thầu"
                    filename := "bid.txt", storageKey := "bid", contentHash := "h"
                    uploadedBy := { text := "binh" } }]
    artifacts := [
      { id := { text := "a1" }, artifactType := .evaluationHandoff, artifactVersion := 1
        status := .official, content := [("submission_count", .num 1)]
        createdBy := { text := "binh" }, contentHash := "h1" },
      { id := { text := "a2" }, artifactType := .officialPackageManifest, artifactVersion := 1
        status := .official, content := [("package_markdown", .str "# Hồ sơ mời thầu")]
        createdBy := { text := "an" }, contentHash := "h2" }] }

def sealedState : State := { db := sealedDb, evaluations := [], calls := fun _ => none }

theorem sealedState_init : (machine demoEnv).init sealedState :=
  ⟨rfl, by decide, fun _ => rfl⟩

def gathered : Assembled := { uploads := 2, unreadable := [], supplierCount := 1 }

def readState : State :=
  { sealedState with calls := setCall sealedState.calls 0 (.assembled gathered) }

def createdState : State :=
  { readState with
    evaluations := [{ text := "dw02-a" }]
    calls := setCall readState.calls 0 (.created gathered { text := "dw02-a" }) }

/-- One call alone creates its one evaluation case. -/
theorem one_call_creates_one : ∃ es s, Exec (machine demoEnv) es s ∧
    s.evaluations = [{ text := "dw02-a" }] ∧ s.evaluations.length ≤ 1 := by
  have hread : (machine demoEnv).step sealedState
      (.read 0 demoContext (fun _ => some "bid")) = some readState := rfl
  have hcreate : (machine demoEnv).step readState
      (.create 0 demoContext { text := "dw02-a" }) = some createdState := rfl
  have hrun := ((Exec.start sealedState_init).snoc hread).snoc hcreate
  refine ⟨_, createdState, hrun, rfl, at_most_one_evaluation demoEnv hrun ?_⟩
  intro e he
  rcases List.mem_cons.mp he with rfl | he
  · trivial
  · obtain rfl := List.mem_singleton.mp he
    right
    intro c p hc
    cases hc

/-- Two calls that both read before either records create two evaluation cases
    of the same tender. -/
theorem two_evaluations : ¬ ∀ (env : Env) (es : List (Event State Action)) (s : State),
    Exec (machine env) es s → s.evaluations.length ≤ 1 := by
  intro hall
  have hruns : (machine demoEnv).runs sealedState
      [.read 0 demoContext (fun _ => some "bid"), .read 1 demoContext (fun _ => some "bid"),
        .create 0 demoContext { text := "dw02-a" }, .create 1 demoContext { text := "dw02-b" }]
      (fun _ s => decide (2 ≤ s.evaluations.length)) = true := by decide
  obtain ⟨es, s, hrun, htwo⟩ := Machine.exec_of_runs sealedState_init hruns
  have hone := hall demoEnv es s hrun
  have htwo : 2 ≤ s.evaluations.length := of_decide_eq_true htwo
  omega

end DigitalWorker.Handoff
