import DigitalWorker.Preparation.LegalTerms
import DigitalWorker.Protocol.Deadlines
import DigitalWorker.Protocol.Frames

/-! # The legal submission window

    The window a package is published with was settled by the run that drafted
    the approach, checked by the run whose CP2 gate passed, and read from the
    latest approach by whoever publishes. The three are the same run's as long as
    runs do not overlap.
-/

namespace DigitalWorker

open Framework

/-! ## What the events are about -/

def passedNode (n : NodeName) (e : Event World Action) : Option Uuid :=
  match e.act with
  | .node runId _ =>
    match e.pre.runs runId, e.post.runs runId with
    | some before, some after =>
      if before.position = .running n ∧ after.position ≠ .raised n then some runId else none
    | _, _ => none
  | _ => none

def gatePassed (w : World) (runId : Uuid) : Bool :=
  match w.runs runId with
  | some record =>
    match record.state.packageGate with
    | some gate => gate.passed
    | none => false
  | none => false

def passedGate? (e : Event World Action) : Option Uuid :=
  match passedNode .packageGate e with
  | some runId => if gatePassed e.post runId then some runId else none
  | none => none

def knownMinima (e : Event World Action) : List Int :=
  match e.act with
  | .node runId inp =>
    match e.pre.runs runId with
    | some record => record.state.draftedLegalMin.toList ++ inp.liveLegalMin.toList
    | none => []
  | _ => []

def publishedAt (e : Event World Action) : Option DateTime :=
  match e.act with
  | .handle call (.recordPublication _) => some call.now
  | .handle call (.autoPublish _) => some call.now
  | _ => none

/-! ## What the history says -/

def lastDraft : List (Event World Action) → Option Uuid
  | [] => none
  | e :: es => passedNode .draftProcurementApproach e <|> lastDraft es

def gateWindow : List (Event World Action) → Option Int
  | [] => none
  | e :: es =>
    if (passedNode .packageGate e).isSome then
      if (passedGate? e).isSome then appliedWindow e.post.db else none
    else gateWindow es

def draftedSince : List (Event World Action) → Bool
  | [] => false
  | e :: es =>
    if (passedNode .packageGate e).isSome then false
    else (passedNode .draftProcurementApproach e).isSome || draftedSince es

/-- **The property**: a passed gate finds a window on the approach that is at
    least every minimum known, and a package with a passed gate closes exactly
    that window after its publication. -/
def WindowLawful (es : List (Event World Action)) (e : Event World Action) : Prop :=
  (∀ runId, passedGate? e = some runId →
    ∃ window, appliedWindow e.post.db = some window ∧ ∀ n ∈ knownMinima e, n ≤ window) ∧
  ∀ t window, publishedAt e = some t → gateWindow es = some window →
    e.post.db.case.bidsCloseAt = some (t + days window)

def DigestTells (env : Env) (e : Event World Action) : Prop :=
  ∀ runId inp record method, e.act = .node runId inp → e.pre.runs runId = some record →
    record.position = .running .draftProcurementApproach →
    env.rules.selectMethod record.state.estimatedValueMinor = .ok method →
    ∀ a, latest e.pre.db.artifacts .procurementApproach = some a →
      a.contentHash = env.contentHash (approachContent inp record.state method) →
      appliedWindow e.pre.db = some (draftWindow method inp)

/-- **The condition**: the run whose gate passes drafted the latest approach, no
    approach is drafted between the gate and the publication, and no two
    approaches share a digest unless they share the window. -/
def WindowUndisturbed (env : Env) (es : List (Event World Action)) (e : Event World Action) :
    Prop :=
  (∀ runId, passedGate? e = some runId → lastDraft es = some runId) ∧
  ((publishedAt e).isSome = true → (gateWindow es).isSome = true → draftedSince es = false) ∧
  DigestTells env e

/-! ## What a step does to the terms and the window -/

section

variable {env : Env} {w w' : World} {a : Action} {n : NodeName} {runId : Uuid}

theorem RunRecord.passed_ne_raised {record : RunRecord} {st : PreparationState} {m : NodeName} :
    (record.passed n st).position ≠ .raised m := by
  unfold RunRecord.passed
  simp only
  split
  · intro h
    cases h
  · split
    · intro h
      cases h
    · intro h
      cases h

theorem passedNode_some (hs : w.step env a = some w')
    (h : passedNode n ⟨w, a, w'⟩ = some runId) :
    ∃ inp record st, a = .node runId inp ∧ w.runs runId = some record ∧
      record.position = .running n ∧
      runNode env w.directory (World.runContext runId record) inp n record.state w.db =
        (w'.db, .ok st) ∧
      w'.runs = w.runs.put runId (record.passed n st) := by
  unfold passedNode at h
  split at h
  · next r inp hact =>
    have hact : a = .node r inp := hact
    subst hact
    obtain ⟨record, m, hrecord, hposition, hcases⟩ := World.step_node hs
    simp only [hrecord] at h
    rcases hcases with ⟨db, e, _, rfl⟩ | ⟨db, st, writes, hrun, rfl⟩
    · -- a node that raised was not passed
      simp only [RunStore.put_self, hposition] at h
      split at h
      · next hboth =>
        obtain ⟨hm, hne⟩ := hboth
        cases hm
        exact absurd rfl hne
      · cases h
    · simp only [RunStore.put_self, hposition] at h
      split at h
      · next hboth =>
        obtain rfl := Option.some.inj h
        obtain ⟨hm, _⟩ := hboth
        cases hm
        exact ⟨inp, record, st, rfl, hrecord, hposition, hrun, rfl⟩
      · cases h
  · cases h

theorem passedNode_of_passed {inp : NodeInput} {record : RunRecord} {st : PreparationState}
    (hrecord : w.runs runId = some record) (hposition : record.position = .running n)
    (hpassed : w'.runs runId = some (record.passed n st)) :
    passedNode n ⟨w, .node runId inp, w'⟩ = some runId := by
  unfold passedNode
  simp only [hrecord, hpassed]
  rw [if_pos ⟨hposition, RunRecord.passed_ne_raised⟩]

def KeepsTerms (runs runs' : RunStore) : Prop :=
  ∀ r record, runs r = some record → ∃ record', runs' r = some record' ∧
    SameTerms record.state record'.state

theorem KeepsTerms.refl {runs : RunStore} : KeepsTerms runs runs := by
  intro r record hr
  exact ⟨record, hr, .rfl⟩

theorem KeepsTerms.put {runs : RunStore} {r : Uuid} {record : RunRecord}
    (h : ∀ old, runs r = some old → SameTerms old.state record.state) :
    KeepsTerms runs (runs.put r record) := by
  intro r' old hold
  by_cases hr : r' = r
  · subst hr
    exact ⟨record, RunStore.put_self _ _ _, h old hold⟩
  · exact ⟨old, (RunStore.put_ne _ _ hr).trans hold, .rfl⟩

theorem resumed_terms {record : RunRecord} {d : Decision} {m : NodeName} {st : PreparationState}
    (h : record.resumed d = some (m, st)) : SameTerms record.state st := by
  unfold RunRecord.resumed at h
  split at h
  · obtain ⟨m', _, heq⟩ := Option.map_eq_some_iff.mp h
    rw [← (Prod.mk.inj heq).2]
    exact .answerReview
  · obtain ⟨m', _, heq⟩ := Option.map_eq_some_iff.mp h
    rw [← (Prod.mk.inj heq).2]
    exact .answerReview
  · obtain ⟨_, rfl⟩ := Prod.mk.inj (Option.some.inj h)
    exact .rfl
  · cases h
  · cases h

/-- **Step lemma**: whatever is not a draft of the approach leaves the window on
    the approach and the terms of every run. -/
theorem step_keeps_terms (hs : w.step env a = some w')
    (hdraft : passedNode .draftProcurementApproach ⟨w, a, w'⟩ = none) :
    appliedWindow w'.db = appliedWindow w.db ∧ KeepsTerms w.runs w'.runs := by
  have hfiled := World.step_filed hs
  cases a with
  | node r inp =>
    obtain ⟨record, m, hrecord, hposition, hcases⟩ := World.step_node hs
    rcases hcases with ⟨db, e, hrun, rfl⟩ | ⟨db, st, writes, hrun, rfl⟩
    · refine ⟨runNode_window hrun (fun _ => ⟨e, rfl⟩), KeepsTerms.put ?_⟩
      intro old hold
      obtain rfl := Option.some.inj (hold.symm.trans hrecord)
      exact .rfl
    · have hm : m ≠ .draftProcurementApproach := by
        rintro rfl
        rw [passedNode_of_passed hrecord hposition (RunStore.put_self _ _ _)] at hdraft
        cases hdraft
      refine ⟨runNode_window hrun (fun h => absurd h hm), KeepsTerms.put ?_⟩
      intro old hold
      obtain rfl := Option.some.inj (hold.symm.trans hrecord)
      exact runNode_terms hrun hm
  | handle call h =>
    obtain ⟨db, hrun, rfl⟩ := World.step_handle hs
    refine ⟨appliedWindow_congr (hfiled.latestContent_eq ?_), .refl⟩
    cases h <;> simp [World.files, Handler.writes]
  | start call trigger r =>
    refine ⟨appliedWindow_congr (hfiled.latestContent_eq (by simp [World.files])), ?_⟩
    obtain ⟨hfresh, db, actor, _, rfl⟩ := World.step_start hs
    refine KeepsTerms.put ?_
    intro old hold
    rw [hfresh] at hold
    cases hold
  | createApproval r requestId now =>
    obtain ⟨record, m, writes, hrecord, _, _, rfl⟩ := World.step_createApproval hs
    refine ⟨rfl, KeepsTerms.put ?_⟩
    intro old hold
    obtain rfl := Option.some.inj (hold.symm.trans hrecord)
    exact .rfl
  | setStatus write =>
    obtain ⟨record, status, approvalRequestId, writes, hrecord, rfl⟩ := World.step_setStatus hs
    refine ⟨rfl, KeepsTerms.put ?_⟩
    intro old hold
    obtain rfl := Option.some.inj (hold.symm.trans hrecord)
    exact .rfl
  | resume d =>
    obtain ⟨_, hcases⟩ := World.step_resume hs
    rcases hcases with rfl | ⟨record, m, st, hrecord, hresumed, rfl⟩
    · exact ⟨rfl, .refl⟩
    · refine ⟨rfl, KeepsTerms.put ?_⟩
      intro old hold
      obtain rfl := Option.some.inj (hold.symm.trans hrecord)
      exact resumed_terms hresumed
  | _ =>
    rw [(World.step_frame hs).runs rfl]
    exact ⟨appliedWindow_congr (hfiled.latestContent_eq (by simp [World.files])), .refl⟩

end

/-! ## The invariant -/

/-- What holds after a run that met the condition. -/
structure WindowInv (es : List (Event World Action)) (w : World) : Prop where
  /-- The latest approach and the state of the run that drafted it agree on the
      window, which respects the minimum the run drafted with. -/
  draft : ∀ runId, lastDraft es = some runId → ∃ record, w.runs runId = some record ∧
    appliedWindow w.db = some record.state.solicitationWindowDays ∧
    ∀ n, record.state.draftedLegalMin = some n → n ≤ record.state.solicitationWindowDays
  atLeast : ∀ window, appliedWindow w.db = some window → 7 ≤ window
  /-- Since the gate the approach has kept its window, unless it was drafted. -/
  gate : ∀ window, gateWindow es = some window → draftedSince es = false →
    appliedWindow w.db = some window

section

variable {env : Env} {es : List (Event World Action)} {w w' : World} {a : Action}

theorem WindowInv.initial (h : (preparation env).init w) : WindowInv [] w := by
  obtain ⟨call, cmd, hcreate, _⟩ := h
  have hopened := createCase_ok hcreate
  have hnone : appliedWindow w.db = none := by
    rw [appliedWindow_eq, CaseDb.latestContent]
    cases hl : latest w.db.artifacts .procurementApproach with
    | none => rfl
    | some b =>
      obtain ⟨hmem, htype⟩ := latest_mem hl
      rw [hopened.artifacts b hmem] at htype
      cases htype
  refine ⟨?_, ?_, ?_⟩
  · intro runId h
    cases h
  · intro window h
    rw [hnone] at h
    cases h
  · intro window h
    cases h

theorem draft_settles (hs : w.step env a = some w')
    (hok : DigestTells env ⟨w, a, w'⟩) {runId : Uuid}
    (hdraft : passedNode .draftProcurementApproach ⟨w, a, w'⟩ = some runId) :
    (∃ record, w'.runs runId = some record ∧
      appliedWindow w'.db = some record.state.solicitationWindowDays ∧
      ∀ n, record.state.draftedLegalMin = some n → n ≤ record.state.solicitationWindowDays) ∧
    ∀ window, appliedWindow w'.db = some window → 7 ≤ window := by
  obtain ⟨inp, record, st, hact, hrecord, hposition, hrun, hruns⟩ := passedNode_some hs hdraft
  obtain ⟨method, hmethod, hwindow, hmin, hrows⟩ := draft_terms hrun
  have happlied : appliedWindow w'.db = some (draftWindow method inp) := by
    rcases hrows with ⟨b, hb, hhash, hsame⟩ | hnew
    · rw [hsame]
      exact hok runId inp record method hact hrecord hposition hmethod b hb hhash
    · exact hnew
  constructor
  · refine ⟨record.passed _ st, by rw [hruns]; exact RunStore.put_self _ _ _, ?_, ?_⟩
    · rw [happlied]
      exact congrArg some hwindow.symm
    · intro n hn
      have hn : st.draftedLegalMin = some n := hn
      rw [hmin] at hn
      show n ≤ st.solicitationWindowDays
      rw [hwindow]
      exact le_draftWindow hn
  · intro window h
    rw [happlied] at h
    rw [← Option.some.inj h]
    exact draftWindow_ge method inp

theorem lastDraft_cons_some {e : Event World Action} {r : Uuid}
    (h : passedNode .draftProcurementApproach e = some r) : lastDraft (e :: es) = some r := by
  simp [lastDraft, h]

theorem lastDraft_cons_none {e : Event World Action}
    (h : passedNode .draftProcurementApproach e = none) : lastDraft (e :: es) = lastDraft es := by
  simp [lastDraft, h]

theorem gateWindow_cons {e : Event World Action} :
    gateWindow (e :: es) = if (passedNode .packageGate e).isSome then
      if (passedGate? e).isSome then appliedWindow e.post.db else none
    else gateWindow es := rfl

theorem passedNode_unique {n m : NodeName} {r r' : Uuid} (hs : w.step env a = some w')
    (hn : passedNode n ⟨w, a, w'⟩ = some r) (hm : passedNode m ⟨w, a, w'⟩ = some r') : n = m := by
  obtain ⟨_, record, _, hact, hrecord, hposition, _, _⟩ := passedNode_some hs hn
  obtain ⟨_, record', _, hact', hrecord', hposition', _, _⟩ := passedNode_some hs hm
  rw [hact] at hact'
  cases hact'
  obtain rfl := Option.some.inj (hrecord.symm.trans hrecord')
  rw [hposition] at hposition'
  cases hposition'
  rfl

theorem WindowInv.step (hinv : WindowInv es w) (hs : w.step env a = some w')
    (hok : DigestTells env ⟨w, a, w'⟩) : WindowInv (⟨w, a, w'⟩ :: es) w' := by
  cases hdraft : passedNode .draftProcurementApproach ⟨w, a, w'⟩ with
  | some runId =>
    obtain ⟨hrecord, hatLeast⟩ := draft_settles hs hok hdraft
    have hnogate : passedNode .packageGate ⟨w, a, w'⟩ = none := by
      cases hgate : passedNode .packageGate ⟨w, a, w'⟩ with
      | none => rfl
      | some r => cases passedNode_unique hs hdraft hgate
    refine ⟨?_, hatLeast, ?_⟩
    · intro r hr
      rw [lastDraft_cons_some hdraft] at hr
      rw [← Option.some.inj hr]
      exact hrecord
    · intro window _ hsince
      simp [draftedSince, hdraft, hnogate] at hsince
  | none =>
    obtain ⟨hwindow, hterms⟩ := step_keeps_terms hs hdraft
    refine ⟨?_, ?_, ?_⟩
    · intro r hr
      rw [lastDraft_cons_none hdraft] at hr
      obtain ⟨record, hrecord, happlied, hmin⟩ := hinv.draft r hr
      obtain ⟨record', hrecord', hsame⟩ := hterms r record hrecord
      refine ⟨record', hrecord', ?_, ?_⟩
      · rw [hwindow, hsame.window]
        exact happlied
      · rw [hsame.window, hsame.legalMin]
        exact hmin
    · rw [hwindow]
      exact hinv.atLeast
    · intro window hgate hsince
      rw [hwindow]
      rw [gateWindow_cons] at hgate
      by_cases hdecided : (passedNode .packageGate ⟨w, a, w'⟩).isSome = true
      · -- the gate is decided in this very step
        rw [if_pos hdecided] at hgate
        split at hgate
        · rw [← hwindow]
          exact hgate
        · cases hgate
      · rw [if_neg hdecided] at hgate
        refine hinv.gate window hgate ?_
        simpa [draftedSince, hdraft, hdecided] using hsince

/-- **Step**: a gate of the run that drafted finds its window lawful, and a
    publication that follows a gate undisturbed closes after that window. -/
theorem WindowInv.lawful (hinv : WindowInv es w) (hs : w.step env a = some w')
    (hok : WindowUndisturbed env es ⟨w, a, w'⟩) : WindowLawful es ⟨w, a, w'⟩ := by
  obtain ⟨hdrafter, hsince, _⟩ := hok
  constructor
  · intro runId hgate
    obtain ⟨record, hrecord, happlied, hmin⟩ := hinv.draft runId (hdrafter runId hgate)
    have hpos := hinv.atLeast _ happlied
    unfold passedGate? at hgate
    split at hgate
    · next r hpassed =>
      split at hgate
      · next hverdict =>
        obtain rfl := Option.some.inj hgate
        obtain ⟨inp, record', st, hact, hrecord', hposition, hrun, hruns⟩ :=
          passedNode_some hs hpassed
        obtain rfl := Option.some.inj (hrecord.symm.trans hrecord')
        have hact : a = .node r inp := hact
        subst hact
        have hgate' : ∃ gate, st.packageGate = some gate ∧ gate.passed = true := by
          have hpost : w'.runs r = some (record.passed .packageGate st) := by
            rw [hruns]
            exact RunStore.put_self _ _ _
          simp only [gatePassed, hpost] at hverdict
          split at hverdict
          · next gate hg => exact ⟨gate, hg, hverdict⟩
          · cases hverdict
        refine ⟨record.state.solicitationWindowDays, ?_, ?_⟩
        · show appliedWindow w'.db = _
          rw [runNode_window hrun (fun h => by cases h)]
          exact happlied
        · intro n hn
          simp only [knownMinima, hrecord, List.mem_append, Option.mem_toList] at hn
          exact packageGateNode_window hrun hgate' (by omega) hn
      · cases hgate
    · cases hgate
  · intro t window hpublished hgate
    have happlied : appliedWindow w.db = some window :=
      hinv.gate window hgate (hsince (by rw [hpublished]; rfl) (by rw [hgate]; rfl))
    have hpos := hinv.atLeast window happlied
    have hcloses : bidsCloseAtOf w.db t = some (t + days window) :=
      (bidsCloseAtOf_eq_days (by omega)).mpr happlied
    show w'.db.case.bidsCloseAt = _
    rw [← hcloses]
    unfold publishedAt at hpublished
    split at hpublished
    · next call cmd hact =>
      obtain rfl := Option.some.inj hpublished
      have hact : a = .handle call (.recordPublication cmd) := hact
      subst hact
      obtain ⟨db, hrun, rfl⟩ := World.step_handle hs
      exact recordPublication_closing hrun
    · next call sent hact =>
      obtain rfl := Option.some.inj hpublished
      have hact : a = .handle call (.autoPublish sent) := hact
      subst hact
      obtain ⟨db, hrun, rfl⟩ := World.step_handle hs
      exact autoPublish_closing hrun
    · cases hpublished

end

/-- **Main theorem**: in every run that meets the condition all along, every
    passed gate finds a lawful window, and the register of a package with a
    passed gate closes exactly that window after its publication. -/
theorem window_lawful {env : Env} {es : List (Event World Action)} {w : World}
    (hrun : Exec (preparation env) es w) (hok : Along (WindowUndisturbed env) es) :
    Along WindowLawful es := by
  refine (hrun.along (fun _ => WindowInv.initial) ?_ hok).1
  intro es s a s' hinv hs hok
  exact ⟨hinv.lawful hs hok, hinv.step hs hok.2.2⟩

namespace Office

def criteriaEnv : Env :=
  { env with
    rules := { env.rules with
      mandatoryCriteria := [("M1", "Năng lực pháp lý")]
      weightedCriteria := [("W1", "Giá", 100)] } }

theorem criteria_init : (preparation criteriaEnv).init opened := by
  obtain ⟨first, cmd, hcreate, hrest⟩ := opened_init
  exact ⟨first, cmd, hcreate, hrest⟩

def undisturbedTest (es : List (Event World Action)) (e : Event World Action) : Bool :=
  (match passedGate? e with
    | some runId => lastDraft es == some runId
    | none => true) &&
  ((publishedAt e).isNone || !draftedSince es) &&
  match e.act with
  | .node runId _ =>
    match e.pre.runs runId with
    | some record => record.position != .running .draftProcurementApproach ||
        (latest e.pre.db.artifacts .procurementApproach).isNone
    | none => true
  | _ => true

theorem undisturbed_of_test {es : List (Event World Action)} {e : Event World Action}
    (h : undisturbedTest es e = true) : WindowUndisturbed criteriaEnv es e := by
  simp only [undisturbedTest, Bool.and_eq_true, Bool.or_eq_true, Bool.not_eq_true'] at h
  obtain ⟨⟨hdrafter, hsince⟩, hfirst⟩ := h
  refine ⟨?_, ?_, ?_⟩
  · intro runId hgate
    rw [hgate] at hdrafter
    simpa using hdrafter
  · intro hpublished _
    rcases hsince with hnone | hsince
    · rw [Option.isNone_iff_eq_none] at hnone
      rw [hnone] at hpublished
      cases hpublished
    · exact hsince
  · intro runId inp record method hact hrecord hposition _ a ha _
    simp only [hact, hrecord, hposition, ha] at hfirst
    simp at hfirst

/-- A package drafted with a legal minimum of fourteen days closes lawfully. -/
theorem window_fourteen : ∃ es w, Exec (preparation criteriaEnv) es w ∧
    w.db.case.state = .published ∧ (∃ e ∈ es, (passedGate? e).isSome = true) ∧
    Along WindowLawful es := by
  have hruns : (preparation criteriaEnv).runs opened (toOfficial (some 14) ++ [invite])
      (fun es w => w.db.case.state == .published &&
        es.any (fun e => (passedGate? e).isSome) &&
        decide (Along (fun es e => undisturbedTest es e = true) es)) = true := by
    decide +kernel
  obtain ⟨es, w, hrun, htest⟩ := Machine.exec_of_runs criteria_init hruns
  simp only [Bool.and_eq_true, beq_iff_eq, decide_eq_true_eq] at htest
  obtain ⟨⟨hpublished, hpassed⟩, hok⟩ := htest
  exact ⟨es, w, hrun, hpublished, List.any_eq_true.mp hpassed,
    window_lawful hrun (hok.mono (fun _ _ => undisturbed_of_test))⟩

def secondRun : Uuid := { text := "second" }

def overlappingRuns : List Action :=
  [.handle (call binh) (.verifyIntake "PR-1" "đủ hồ sơ"), .start (call an) .manual run] ++
    List.replicate 5 (.node run (legalInput (some 14))) ++ raiseRequest run cp1Request ++
    approve binh run cp1Request ++ List.replicate 4 (.node run nodeInput) ++
    [.amend (call an) { estimatedValueMinor := some 200 }, .withdraw [],
      .start (call an) .manual secondRun] ++
    List.replicate 4 (.node secondRun (legalInput none)) ++
    List.replicate 2 (.node run nodeInput) ++
    raiseRequest run cp2Request ++ approve binh run cp2Request ++
    [.node run nodeInput, .node run { nodeInput with manifestRef := "manifest" }, invite]

/-- The gate of the first run passes over an approach of seven days, and the
    package closes after seven days. -/
theorem window_unlawful : ∃ es w, Exec (preparation criteriaEnv) es w ∧ ¬ Along WindowLawful es ∧
    w.db.case.bidsCloseAt = some (days 7) ∧
    ∃ e ∈ es, (passedGate? e).isSome = true ∧ knownMinima e = [14] := by
  have hruns : (preparation criteriaEnv).runs opened overlappingRuns
      (fun es w => w.db.case.bidsCloseAt == some (days 7) && es.any (fun e =>
        (passedGate? e).isSome && knownMinima e == [14] &&
          appliedWindow e.post.db == some 7)) = true := by
    decide +kernel
  obtain ⟨es, w, hrun, htest⟩ := Machine.exec_of_runs criteria_init hruns
  rw [Bool.and_eq_true] at htest
  obtain ⟨hcloses, hgate⟩ := htest
  obtain ⟨e, he, hgate⟩ := List.any_eq_true.mp hgate
  simp only [Bool.and_eq_true, beq_iff_eq] at hgate
  obtain ⟨⟨hpassed, hminima⟩, happlied⟩ := hgate
  refine ⟨es, w, hrun, ?_, eq_of_beq hcloses, e, he, hpassed, hminima⟩
  intro hlawful
  obtain ⟨earlier, hlawful, _⟩ := hlawful.of_mem he
  obtain ⟨runId, hrunId⟩ := Option.isSome_iff_exists.mp hpassed
  obtain ⟨window, hwindow, hle⟩ := hlawful runId hrunId
  have hseven : window = 7 := by
    rw [happlied] at hwindow
    exact (Option.some.inj hwindow).symm
  have hfourteen := hle 14 (by rw [hminima]; exact List.mem_singleton_self 14)
  omega

end Office

end DigitalWorker
