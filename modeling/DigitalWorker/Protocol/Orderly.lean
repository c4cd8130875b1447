import DigitalWorker.Protocol.LegalWindow

/-! # The run a decision belongs to

    An amendment sends the case back to the start of the derivation and withdraws
    the checkpoint that is pending when it looks. The run that raised it is not
    stopped: one that is executing goes on, raises its request afterwards, and an
    approval of it takes effect on the amended case.
-/

namespace DigitalWorker

open Framework

/-! ## What the history says -/

def startedRuns : List (Event World Action) → List Uuid
  | [] => []
  | e :: es =>
    match e.act with
    | .start _ _ runId => runId :: startedRuns es
    | _ => startedRuns es

def startedSinceAmend (runId : Uuid) : List (Event World Action) → Bool
  | [] => false
  | e :: es =>
    match e.act with
    | .amend _ _ => false
    | .start _ _ r => r == runId || startedSinceAmend runId es
    | _ => startedSinceAmend runId es

def Current (es : List (Event World Action)) (w : World) (runId : Uuid) : Prop :=
  w.db.case.lastRunId = some runId ∧ startedSinceAmend runId es = true

instance {es : List (Event World Action)} {w : World} {runId : Uuid} :
    Decidable (Current es w runId) :=
  inferInstanceAs (Decidable (_ ∧ _))

/-- **The property**: a node that moves the case, be it the approval of a
    checkpoint, the sealing of the package or any other, belongs to the current
    run. -/
def DecisionCurrent (es : List (Event World Action)) (e : Event World Action) : Prop :=
  ∀ n runId, passedNode n e = some runId → writesCase n = true → Current es e.pre runId

/-! ## The condition -/

/-- The graph is executing, and its next node is not one of the two that end the
    run without touching the case. -/
def Position.goesOn : Position → Bool
  | .running n => n != .closeFailed && n != .closeIncomplete
  | _ => false

def executing (w : World) (runId : Uuid) : Bool :=
  match w.runs runId with
  | some record => record.position.goesOn
  | none => false

/-- No run is going on, and no committed decision is about to set one going. -/
def quiet (es : List (Event World Action)) (w : World) : Bool :=
  (startedRuns es).all (fun runId => !executing w runId) && w.resumptions.isEmpty

/-- **The condition**: an amendment and a start find the case quiet, and a
    decision is given on a request of the current run. -/
def Orderly (es : List (Event World Action)) (e : Event World Action) : Prop :=
  match e.act with
  | .amend _ _ => quiet es e.pre = true
  | .start _ _ _ => quiet es e.pre = true
  | .decide _ cmd =>
    ∀ runId, (getRequest e.pre.requests cmd.approvalId).bind (·.runId) = some runId →
      Current es e.pre runId
  | _ => True

/-! ## The invariant -/

structure CurrentRuns (es : List (Event World Action)) (w : World) : Prop where
  started : ∀ runId record, w.runs runId = some record → runId ∈ startedRuns es
  going : ∀ runId, executing w runId = true → Current es w runId
  due : ∀ d ∈ w.resumptions, Current es w d.runId

section

variable {env : Env} {es : List (Event World Action)} {w w' : World} {a : Action} {runId : Uuid}

def Action.isInner : Action → Bool
  | .amend _ _ | .start _ _ _ => false
  | _ => true

theorem startedRuns_inner (ha : a.isInner = true) :
    startedRuns (⟨w, a, w'⟩ :: es) = startedRuns es := by
  cases a <;> first | rfl | cases ha

theorem startedSinceAmend_inner (ha : a.isInner = true) :
    startedSinceAmend runId (⟨w, a, w'⟩ :: es) = startedSinceAmend runId es := by
  cases a <;> first | rfl | cases ha

theorem step_lastRunId (hs : w.step env a = some w') (ha : a.isInner = true) :
    w'.db.case.lastRunId = w.db.case.lastRunId := by
  rcases step_case hs with h | ⟨_, _, _, hmove⟩ | ⟨_, _, rfl, _⟩ | ⟨_, _, _, rfl, _⟩ |
    ⟨_, _, _, _, _, _, _, _, hmove⟩
  · rw [h]
  · exact hmove.lastRunId
  · cases ha
  · cases ha
  · exact hmove.sameIdentity.lastRunId

theorem Current.inner (h : Current es w runId) (hs : w.step env a = some w')
    (ha : a.isInner = true) : Current (⟨w, a, w'⟩ :: es) w' runId := by
  obtain ⟨hlast, hsince⟩ := h
  exact ⟨(step_lastRunId hs ha).trans hlast, (startedSinceAmend_inner ha).trans hsince⟩

theorem CurrentRuns.inner (hinv : CurrentRuns es w) (hs : w.step env a = some w')
    (ha : a.isInner = true)
    (hruns : ∀ r record, w'.runs r = some record → ∃ record, w.runs r = some record)
    (hgoing : ∀ r, executing w' r = true → Current es w r)
    (hdue : ∀ d ∈ w'.resumptions, Current es w d.runId) :
    CurrentRuns (⟨w, a, w'⟩ :: es) w' := by
  refine ⟨?_, ?_, ?_⟩
  · intro r record hr
    rw [startedRuns_inner ha]
    obtain ⟨before, hbefore⟩ := hruns r record hr
    exact hinv.started r before hbefore
  · intro r hr
    exact (hgoing r hr).inner hs ha
  · intro d hd
    exact (hdue d hd).inner hs ha

theorem executing_some {record : RunRecord} (h : w.runs runId = some record) :
    executing w runId = record.position.goesOn := by
  unfold executing
  rw [h]

theorem executing_put {r : Uuid} {record : RunRecord} (hne : runId ≠ r)
    (hw : w'.runs = w.runs.put r record) : executing w' runId = executing w runId := by
  unfold executing
  rw [hw, RunStore.put_ne _ _ hne]

theorem runs_put {r r' : Uuid} {old record record' : RunRecord} (hold : w.runs r = some old)
    (hw : w'.runs = w.runs.put r record) (hr' : w'.runs r' = some record') :
    ∃ record, w.runs r' = some record := by
  by_cases hr : r' = r
  · exact ⟨old, hr ▸ hold⟩
  · rw [hw, RunStore.put_ne _ _ hr] at hr'
    exact ⟨record', hr'⟩

theorem CurrentRuns.idle (hinv : CurrentRuns es w) (hquiet : quiet es w = true) :
    (∀ r, executing w r = false) ∧ w.resumptions = [] := by
  unfold quiet at hquiet
  rw [Bool.and_eq_true, List.all_eq_true, List.isEmpty_iff] at hquiet
  obtain ⟨hidle, hresumptions⟩ := hquiet
  refine ⟨?_, hresumptions⟩
  intro r
  cases hr : w.runs r with
  | none =>
    unfold executing
    rw [hr]
  | some record => simpa using hidle r (hinv.started r record hr)

theorem executing_node {inp : NodeInput} (hs : w.step env (.node runId inp) = some w')
    {r : Uuid} (hr : executing w' r = true) : executing w r = true := by
  obtain ⟨record, n, record', hrecord, hposition, hruns, hafter⟩ := World.step_node_row hs
  by_cases hne : r = runId
  · subst hne
    have hrecord' : w'.runs r = some record' := by
      rw [hruns]
      exact RunStore.put_self _ _ _
    rw [executing_some hrecord'] at hr
    rw [executing_some hrecord, hposition]
    rcases hafter with hraised | ⟨st, rfl⟩
    · rw [hraised] at hr
      cases hr
    · -- the two closing nodes end the run
      cases n <;> first | rfl | cases hr
  · rwa [executing_put hne hruns] at hr

theorem CurrentRuns.step (hinv : CurrentRuns es w) (hs : w.step env a = some w')
    (hok : Orderly es ⟨w, a, w'⟩) : CurrentRuns (⟨w, a, w'⟩ :: es) w' := by
  cases a with
  | start call trigger r =>
    obtain ⟨hidle, hresumptions⟩ := hinv.idle hok
    obtain ⟨_, db, actor, hstart, rfl⟩ := World.step_start hs
    obtain ⟨_, hcase⟩ := PreparationCase.startRun_ok.mp (startRun_ok hstart).1
    refine ⟨?_, ?_, ?_⟩
    · intro r' record hr'
      show r' ∈ r :: startedRuns es
      by_cases hne : r' = r
      · rw [hne]
        exact List.mem_cons_self
      · have hr' : w.runs.put r _ r' = some record := hr'
        rw [RunStore.put_ne _ _ hne] at hr'
        exact List.mem_cons_of_mem _ (hinv.started r' record hr')
    · intro r' hr'
      by_cases hne : r' = r
      · subst hne
        refine ⟨?_, ?_⟩
        · show db.case.lastRunId = some r'
          rw [hcase]
        · show (r' == r' || startedSinceAmend r' es) = true
          simp
      · rw [executing_put hne rfl, hidle r'] at hr'
        cases hr'
    · intro d hd
      have hd : d ∈ w.resumptions := hd
      rw [hresumptions] at hd
      cases hd
  | amend call cmd =>
    obtain ⟨hidle, hresumptions⟩ := hinv.idle hok
    obtain ⟨db, _, rfl⟩ := World.step_amend hs
    refine ⟨hinv.started, ?_, ?_⟩
    · intro r hr
      have hr : executing w r = true := hr
      rw [hidle r] at hr
      cases hr
    · intro d hd
      have hd : d ∈ w.resumptions := hd
      rw [hresumptions] at hd
      cases hd
  | node r inp =>
    refine hinv.inner hs rfl ?_ (fun r' hr' => hinv.going r' (executing_node hs hr')) ?_
    · intro r' record' hr'
      obtain ⟨record, n, hrecord, _, hcases⟩ := World.step_node hs
      rcases hcases with ⟨_, _, _, rfl⟩ | ⟨_, _, _, _, rfl⟩
      · exact runs_put hrecord rfl hr'
      · exact runs_put hrecord rfl hr'
    · obtain ⟨record, n, hrecord, _, hcases⟩ := World.step_node hs
      rcases hcases with ⟨_, _, _, rfl⟩ | ⟨_, _, _, _, rfl⟩
      · exact hinv.due
      · exact hinv.due
  | createApproval r requestId now =>
    obtain ⟨record, n, writes, hrecord, _, _, rfl⟩ := World.step_createApproval hs
    refine hinv.inner hs rfl (fun r' _ hr' => runs_put hrecord rfl hr') ?_ hinv.due
    intro r' hr'
    by_cases hne : r' = r
    · -- the run waits now
      subst hne
      rw [executing_some (RunStore.put_self _ _ _)] at hr'
      cases hr'
    · rw [executing_put hne rfl] at hr'
      exact hinv.going r' hr'
  | setStatus write =>
    obtain ⟨record, status, approvalRequestId, writes, hrecord, rfl⟩ := World.step_setStatus hs
    refine hinv.inner hs rfl (fun r' _ hr' => runs_put hrecord rfl hr') ?_ hinv.due
    intro r' hr'
    apply hinv.going r'
    by_cases hne : r' = write.runId
    · subst hne
      rw [executing_some (RunStore.put_self _ _ _)] at hr'
      rw [executing_some hrecord]
      exact hr'
    · rwa [executing_put hne rfl] at hr'
  | decide call cmd =>
    obtain ⟨q, saved, hq, _, _, _, rfl⟩ := World.step_decide hs
    refine hinv.inner hs rfl (fun r' record hr' => ⟨record, hr'⟩) hinv.going ?_
    intro d hd
    have hok : ∀ r, (getRequest w.requests cmd.approvalId).bind (·.runId) = some r →
        Current es w r := hok
    rw [hq] at hok
    simp only at hd
    split at hd
    · next r hr =>
      rcases List.mem_cons.mp hd with rfl | hd
      · exact hok r hr
      · exact hinv.due d hd
    · exact hinv.due d hd
  | resume d =>
    obtain ⟨hmem, hcases⟩ := World.step_resume hs
    have hcurrent := hinv.due d hmem
    have herase : ∀ d' ∈ w.resumptions.erase d, Current es w d'.runId := fun d' hd' =>
      hinv.due d' (List.mem_of_mem_erase hd')
    rcases hcases with rfl | ⟨record, n, st, hrecord, _, rfl⟩
    · exact hinv.inner hs rfl (fun r' record hr' => ⟨record, hr'⟩) hinv.going herase
    · refine hinv.inner hs rfl (fun r' _ hr' => runs_put hrecord rfl hr') ?_ herase
      intro r' hr'
      by_cases hne : r' = d.runId
      · rw [hne]
        exact hcurrent
      · rw [executing_put hne rfl] at hr'
        exact hinv.going r' hr'
  | _ =>
    have hruns := (World.step_frame hs).runs rfl
    refine hinv.inner hs rfl ?_ ?_ ?_
    · rw [hruns]
      exact fun r' record hr' => ⟨record, hr'⟩
    · unfold executing
      rw [hruns]
      exact hinv.going
    · rw [(World.step_frame hs).resumptions rfl]
      exact hinv.due

theorem CurrentRuns.decisionCurrent (hinv : CurrentRuns es w) (hs : w.step env a = some w') :
    DecisionCurrent es ⟨w, a, w'⟩ := by
  intro n r hpassed hwrites
  obtain ⟨inp, record, st, _, hrecord, hposition, _, _⟩ := passedNode_some hs hpassed
  apply hinv.going r
  rw [executing_some hrecord, hposition]
  cases n <;> first | rfl | cases hwrites

theorem CurrentRuns.initial (h : (preparation env).init w) : CurrentRuns [] w := by
  obtain ⟨_, _, _, _, _, hruns, hresumptions, _⟩ := h
  refine ⟨?_, ?_, ?_⟩
  · intro r record hr
    rw [hruns r] at hr
    cases hr
  · intro r hr
    unfold executing at hr
    rw [hruns r] at hr
    cases hr
  · intro d hd
    rw [hresumptions] at hd
    cases hd

end

/-- **Main theorem**: in every run that meets the condition all along, every node
    that moves the case belongs to the last run, started after the last
    amendment. -/
theorem last_run_moves {env : Env} {es : List (Event World Action)} {w : World}
    (hrun : Exec (preparation env) es w) (hok : Along Orderly es) : Along DecisionCurrent es := by
  refine (hrun.along (fun _ => CurrentRuns.initial) ?_ hok).1
  intro es s a s' hinv hs hok
  exact ⟨hinv.decisionCurrent hs, hinv.step hs hok⟩

namespace Office

def orderlyTest (es : List (Event World Action)) (e : Event World Action) : Bool :=
  match e.act with
  | .amend _ _ => quiet es e.pre
  | .start _ _ _ => quiet es e.pre
  | .decide _ cmd =>
    match (getRequest e.pre.requests cmd.approvalId).bind (·.runId) with
    | some runId => decide (Current es e.pre runId)
    | none => true
  | _ => true

theorem orderly_of_test {es : List (Event World Action)} {e : Event World Action}
    (h : orderlyTest es e = true) : Orderly es e := by
  obtain ⟨pre, act, post⟩ := e
  cases act with
  | amend call cmd => exact h
  | start call trigger runId => exact h
  | decide call cmd =>
    intro runId hrun
    have hrun : (getRequest pre.requests cmd.approvalId).bind (·.runId) = some runId := hrun
    simp only [orderlyTest, hrun, decide_eq_true_eq] at h
    exact h
  | _ => trivial

def amendedAtRest : List Action :=
  toCp1 ++ [.amend (call an) { estimatedValueMinor := some 200 }, .withdraw [], .notifyAmended,
    .start (call an) .manual secondRun] ++ List.replicate 5 (.node secondRun nodeInput) ++
    raiseRequest secondRun cp2Request ++ approve binh secondRun cp2Request ++
    [.node secondRun nodeInput]

theorem fresh_approval : ∃ es w, Exec (preparation env) es w ∧
    w.db.case.state = .cp1Approved ∧ Along DecisionCurrent es := by
  have hruns : (preparation env).runs opened amendedAtRest (fun es w =>
      w.db.case.state == .cp1Approved &&
        decide (Along (fun es e => orderlyTest es e = true) es)) = true := by
    decide +kernel
  obtain ⟨es, w, hrun, htest⟩ := Machine.exec_of_runs opened_init hruns
  simp only [Bool.and_eq_true, beq_iff_eq, decide_eq_true_eq] at htest
  obtain ⟨happroved, hok⟩ := htest
  exact ⟨es, w, hrun, happroved, last_run_moves hrun (hok.mono (fun _ _ => orderly_of_test))⟩

def amendedOnTheWay : List Action :=
  [.handle (call binh) (.verifyIntake "PR-1" "đủ hồ sơ"), .start (call an) .manual run] ++
    List.replicate 3 (.node run nodeInput) ++
    [.amend (call an) { estimatedValueMinor := some 200 }, .withdraw []] ++
    List.replicate 2 (.node run nodeInput) ++ raiseRequest run cp1Request ++
    approve binh run cp1Request ++ [.node run nodeInput]

/-- The approval of a run that was started before the amendment takes effect. -/
theorem stale_approval : ∃ es w, Exec (preparation env) es w ∧ ¬ Along DecisionCurrent es ∧
    w.db.case.state = .cp1Approved ∧ ∃ e earlier, es = e :: earlier ∧
      passedNode .applyCp1 e = some run ∧ startedSinceAmend run earlier = false := by
  have hruns : (preparation env).runs opened amendedOnTheWay (fun es w =>
      w.db.case.state == .cp1Approved && (match es with
        | e :: earlier => passedNode .applyCp1 e == some run && !startedSinceAmend run earlier
        | [] => false)) = true := by
    decide +kernel
  obtain ⟨es, w, hrun, htest⟩ := Machine.exec_of_runs opened_init hruns
  rw [Bool.and_eq_true, beq_iff_eq] at htest
  obtain ⟨happroved, htest⟩ := htest
  split at htest
  · next e earlier =>
    simp only [Bool.and_eq_true, beq_iff_eq, Bool.not_eq_true'] at htest
    obtain ⟨hpassed, hstale⟩ := htest
    refine ⟨_, w, hrun, ?_, happroved, e, earlier, rfl, hpassed, hstale⟩
    intro hcurrent
    have hsince := (hcurrent.1 .applyCp1 run hpassed rfl).2
    rw [hstale] at hsince
    cases hsince
  · cases htest

end Office

end DigitalWorker
