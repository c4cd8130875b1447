import DigitalWorker.Protocol.LiveRuns

/-! # Official is final

    A package that is official leaves that state by publication only, and no
    amendment and no start is accepted any more. A node is held to nothing of the
    kind: `advance` moves the case from any state to any other. What keeps an
    official case where it is, is that no run is left to move it.
-/

namespace DigitalWorker

open Framework

/-! ## The property and its condition -/

def reachedOfficial (es : List (Event World Action)) : Bool :=
  es.any (fun e => e.post.db.case.state == .packageOfficial)

/-- **The property**: once the package has been official, the case accepts no
    amendment and no start, its sealed artifact stays, and no node moves it. -/
def Final (es : List (Event World Action)) (e : Event World Action) : Prop :=
  reachedOfficial es = true →
    e.post.db.case.state.acceptsAmendment = false ∧ e.post.db.case.state.startable = false ∧
    e.post.db.case.currentOfficialArtifactId = e.pre.db.case.currentOfficialArtifactId ∧
    ∀ r inp, e.act = .node r inp → e.post.db.case = e.pre.db.case

/-- **The condition**: a run that seals a package is the only one alive. -/
def SealsAlone (es : List (Event World Action)) (e : Event World Action) : Prop :=
  ∀ r, passedNode .finalizeOfficial e = some r →
    (startedRuns es).all (fun r' => r' == r || !alive e.pre r') = true

/-! ## The invariant -/

def CaseState.isOfficial (s : CaseState) : Bool :=
  [packageOfficial, published, cp3Pending, receivingBids, completed].contains s

theorem CaseState.closed_of_official {s : CaseState} :
    s.isOfficial = true → s.acceptsAmendment = false ∧ s.startable = false := by
  cases s <;> decide

structure Sealed (env : Env) (es : List (Event World Action)) (w : World) : Prop where
  books : Bookkeeping env w
  started : ∀ r record, w.runs r = some record → r ∈ startedRuns es
  official : reachedOfficial es = true →
    w.db.case.state.isOfficial = true ∧ ∀ r, alive w r = false
  reached : w.db.case.state = .packageOfficial → reachedOfficial es = true

section

variable {env : Env} {es : List (Event World Action)} {w w' : World} {a : Action}

theorem Handler.transitions_official (h : Handler) : ∀ m ∈ h.transitions,
    m.1.isOfficial = true → m.2.isOfficial = true := by
  cases h <;> simp only [Handler.transitions] <;> decide

theorem Handler.run_official {h : Handler} {directory : Directory} {call : Call} {db db' : CaseDb}
    (hrun : h.run env directory call db = .ok db') (hofficial : db.case.state.isOfficial = true) :
    db'.case.state.isOfficial = true ∧
      db'.case.currentOfficialArtifactId = db.case.currentOfficialArtifactId := by
  rcases Handler.run_transition hrun with hcase | ⟨hmoves, hartifact⟩
  · rw [hcase]
    exact ⟨hofficial, rfl⟩
  · exact ⟨h.transitions_official _ hmoves hofficial, hartifact⟩

theorem node_idle {r : Uuid} {inp : NodeInput} (hs : w.step env (.node r inp) = some w')
    (hidle : alive w r = false) : w'.db.case = w.db.case := by
  obtain ⟨record, n, hrecord, hposition, hcases⟩ := World.step_node hs
  have hn : n = .closeIncomplete := by
    by_contra hn
    have halive : alive w r = true := by
      rw [alive_iff, underway_some hrecord, hposition]
      left
      simpa [Position.underway] using hn
    rw [halive] at hidle
    cases hidle
  rcases hcases with ⟨db, e, hrun, rfl⟩ | ⟨db, st, writes, hrun, rfl⟩
  · exact runNode_error hrun
  · have hmove := runNode_ok hrun
    rw [hn] at hmove
    exact hmove

theorem official_step (hs : w.step env a = some w')
    (hofficial : w.db.case.state.isOfficial = true) (hidle : ∀ r, alive w r = false) :
    a.starts = false ∧ w'.db.case.state.isOfficial = true ∧
      w'.db.case.currentOfficialArtifactId = w.db.case.currentOfficialArtifactId ∧
      ∀ r inp, a = .node r inp → w'.db.case = w.db.case := by
  obtain ⟨hamend, hstart⟩ := CaseState.closed_of_official hofficial
  cases a with
  | handle call h =>
    obtain ⟨db, hrun, rfl⟩ := World.step_handle hs
    obtain ⟨hstate, hartifact⟩ := Handler.run_official hrun hofficial
    exact ⟨rfl, hstate, hartifact, fun r inp h => by cases h⟩
  | amend call cmd =>
    obtain ⟨db, hrun, rfl⟩ := World.step_amend hs
    obtain ⟨haccepts, _⟩ := amendCase_ok hrun
    rw [hamend] at haccepts
    cases haccepts
  | start call trigger r =>
    obtain ⟨_, db, actor, hrun, _⟩ := World.step_start hs
    obtain ⟨hstartable, _⟩ := PreparationCase.startRun_ok.mp (startRun_ok hrun).1
    rw [hstart] at hstartable
    cases hstartable
  | node r inp =>
    have hcase := node_idle hs (hidle r)
    rw [hcase]
    exact ⟨rfl, hofficial, rfl, fun _ _ _ => rfl⟩
  | _ =>
    have hcase : w'.db.case = w.db.case := by
      rcases step_case hs with hcase | ⟨_, _, h, _⟩ | ⟨_, _, h, _⟩ | ⟨_, _, _, h, _⟩ |
        ⟨_, _, _, _, _, h, _⟩
      · exact hcase
      · cases h
      · cases h
      · cases h
      · cases h
    rw [hcase]
    exact ⟨rfl, hofficial, rfl, fun _ _ _ => rfl⟩

theorem official_sealed (hs : w.step env a = some w')
    (hbefore : w.db.case.state ≠ .packageOfficial) (hafter : w'.db.case.state = .packageOfficial) :
    ∃ r inp record st, a = .node r inp ∧ w.runs r = some record ∧
      record.position = .running .finalizeOfficial ∧
      w'.runs = w.runs.put r (record.passed .finalizeOfficial st) ∧
      w'.requests = w.requests ∧ w'.resumptions = w.resumptions := by
  have hmoved : w'.db.case ≠ w.db.case := by
    intro hcase
    rw [hcase] at hafter
    exact hbefore hafter
  cases a with
  | handle call h =>
    exfalso
    obtain ⟨db, hrun, rfl⟩ := World.step_handle hs
    rcases Handler.run_transition hrun with hcase | ⟨hmoves, _⟩
    · exact hmoved hcase
    · have hafter : db.case.state = .packageOfficial := hafter
      rw [hafter] at hmoves
      cases h <;> simp [Handler.transitions] at hmoves
  | amend call cmd =>
    exfalso
    obtain ⟨db, hrun, rfl⟩ := World.step_amend hs
    obtain ⟨_, ⟨value, deadline, hcase⟩, _⟩ := amendCase_ok hrun
    have hafter : db.case.state = .packageOfficial := hafter
    rw [hcase] at hafter
    cases hafter
  | start call trigger r =>
    exfalso
    obtain ⟨_, db, actor, hrun, rfl⟩ := World.step_start hs
    obtain ⟨_, hcase⟩ := PreparationCase.startRun_ok.mp (startRun_ok hrun).1
    have hafter : db.case.state = .packageOfficial := hafter
    rw [hcase] at hafter
    cases hafter
  | node r inp =>
    obtain ⟨record, n, hrecord, hposition, hcases⟩ := World.step_node hs
    rcases hcases with ⟨db, e, hrun, rfl⟩ | ⟨db, st, writes, hrun, rfl⟩
    · exact absurd (runNode_error hrun) hmoved
    · rcases (runNode_ok hrun).official hafter with rfl | hcase
      · exact ⟨r, inp, record, st, rfl, hrecord, hposition, rfl, rfl, rfl⟩
      · exact absurd hcase hmoved
  | _ =>
    exfalso
    rcases step_case hs with hcase | ⟨_, _, h, _⟩ | ⟨_, _, h, _⟩ | ⟨_, _, _, h, _⟩ |
      ⟨_, _, _, _, _, h, _⟩
    · exact hmoved hcase
    · cases h
    · cases h
    · cases h
    · cases h

theorem Sealed.sealing (h : Sealed env es w) (hs : w.step env a = some w')
    (hbefore : w.db.case.state ≠ .packageOfficial) (hafter : w'.db.case.state = .packageOfficial)
    (hok : SealsAlone es ⟨w, a, w'⟩) : ∀ r, alive w' r = false := by
  intro r'
  obtain ⟨r, inp, record, st, rfl, hrecord, hposition, hruns, hrequests, hresumptions⟩ :=
    official_sealed hs hbefore hafter
  have hpassed : w'.runs r = some (record.passed .finalizeOfficial st) := by
    rw [hruns]
    exact RunStore.put_self _ _ _
  have halone := hok r (passedNode_of_passed hrecord hposition hpassed)
  rw [List.all_eq_true] at halone
  by_contra hr'
  have halive' : alive w' r' = true := by simpa using hr'
  have halive : alive w r' = true := alive_step hs rfl halive'
  by_cases hne : r' = r
  · -- the run that sealed has finished, and nobody asks about it
    subst hne
    rcases alive_iff.mp halive' with hunderway | hasked
    · rw [underway_some hpassed] at hunderway
      cases hunderway
    · have hsame : asked w' r' = asked w r' := by
        unfold asked
        rw [hrequests, hresumptions]
      rw [hsame, h.books.not_asked hrecord hposition] at hasked
      cases hasked
  · have hrow : ∃ row, w.runs r' = some row := by
      rcases alive_iff.mp halive with hunderway | hasked
      · unfold underway at hunderway
        split at hunderway
        · next row hrow => exact ⟨row, hrow⟩
        · cases hunderway
      · obtain ⟨row, n, hw⟩ := h.books.waits hasked
        exact ⟨row, hw.1⟩
    obtain ⟨row, hrow⟩ := hrow
    have hdead := halone r' (h.started r' row hrow)
    simp only [Bool.or_eq_true, beq_iff_eq, Bool.not_eq_true'] at hdead
    rcases hdead with heq | hdead
    · exact hne heq
    · have hdead : alive w r' = false := hdead
      rw [halive] at hdead
      cases hdead

/-- **Step lemma**: a step that meets the condition has the property and keeps the
    invariant. -/
theorem Sealed.step (h : Sealed env es w) (hs : w.step env a = some w')
    (hok : SealsAlone es ⟨w, a, w'⟩) :
    Final es ⟨w, a, w'⟩ ∧ Sealed env (⟨w, a, w'⟩ :: es) w' := by
  have hbooks := bookkeeping_step h.books hs
  have hstarted := startedRuns_mem hs h.started
  have hcons : reachedOfficial (⟨w, a, w'⟩ :: es) =
      (w'.db.case.state == .packageOfficial || reachedOfficial es) := rfl
  have hreached : w'.db.case.state = .packageOfficial →
      reachedOfficial (⟨w, a, w'⟩ :: es) = true := by
    intro hstate
    rw [hcons, hstate]
    rfl
  by_cases hbefore : reachedOfficial es = true
  · obtain ⟨hofficial, hidle⟩ := h.official hbefore
    obtain ⟨hstarts, hstate, hartifact, hnode⟩ := official_step hs hofficial hidle
    obtain ⟨hamend, hstart⟩ := CaseState.closed_of_official hstate
    refine ⟨fun _ => ⟨hamend, hstart, hartifact, hnode⟩, hbooks, hstarted, ?_, hreached⟩
    refine fun _ => ⟨hstate, ?_⟩
    intro r
    by_contra halive
    have hbefore := alive_step hs hstarts (by simpa using halive)
    rw [hidle r] at hbefore
    cases hbefore
  · refine ⟨fun hnow => absurd hnow hbefore, hbooks, hstarted, ?_, hreached⟩
    intro hnow
    -- this very step made the package official
    have hafter : w'.db.case.state = .packageOfficial := by
      rw [hcons, Bool.or_eq_true, beq_iff_eq] at hnow
      exact hnow.resolve_right hbefore
    have hfirst : w.db.case.state ≠ .packageOfficial := fun hstate => hbefore (h.reached hstate)
    refine ⟨?_, h.sealing hs hfirst hafter hok⟩
    rw [hafter]
    rfl

theorem Sealed.initial (h : (preparation env).init w) : Sealed env [] w := by
  have hbooks := bookkeeping_init h
  obtain ⟨call, cmd, hcreate, _, _, hruns, _⟩ := h
  refine ⟨hbooks, ?_, ?_, ?_⟩
  · intro r record hr
    rw [hruns] at hr
    cases hr
  · intro hreached
    cases hreached
  · intro hstate
    rw [(createCase_ok hcreate).state] at hstate
    cases hstate

end

/-- **Main theorem**: in every run of the case in which packages are sealed by the
    only run alive, an official package is final. -/
theorem official_final {env : Env} {es : List (Event World Action)} {w : World}
    (hrun : Exec (preparation env) es w) (hok : Along SealsAlone es) : Along Final es := by
  refine (hrun.along (fun _ => Sealed.initial) ?_ hok).1
  intro es s a s' hinv hs hok
  exact hinv.step hs hok

namespace Office

def sealsAloneTest (es : List (Event World Action)) (e : Event World Action) : Bool :=
  match passedNode .finalizeOfficial e with
  | some r => (startedRuns es).all (fun r' => r' == r || !alive e.pre r')
  | none => true

theorem sealsAlone_of_test {es : List (Event World Action)} {e : Event World Action}
    (h : sealsAloneTest es e = true) : SealsAlone es e := by
  intro r hr
  unfold sealsAloneTest at h
  rw [hr] at h
  exact h

/-- The package is sealed by its only run, published and extended. -/
theorem published_final : ∃ es w, Exec (preparation env) es w ∧
    w.db.case.state = .published ∧ reachedOfficial es = true ∧ Along Final es := by
  have hruns : (preparation env).runs opened (toOfficial (some 14) ++ invite :: amendBids)
      (fun es w => w.db.case.state == .published && reachedOfficial es &&
        decide (Along (fun es e => sealsAloneTest es e = true) es)) = true := by
    decide +kernel
  obtain ⟨es, w, hrun, htest⟩ := Machine.exec_of_runs opened_init hruns
  simp only [Bool.and_eq_true, beq_iff_eq, decide_eq_true_eq] at htest
  obtain ⟨⟨hpublished, hreached⟩, hok⟩ := htest
  have halone := hok.mono (fun _ _ => sealsAlone_of_test)
  exact ⟨es, w, hrun, hpublished, hreached, official_final hrun halone⟩

def draftedAfterSealing : List Action :=
  [.handle (call binh) (.verifyIntake "PR-1" "đủ hồ sơ"), .start (call an) .manual run] ++
    List.replicate 3 (.node run nodeInput) ++ runToCp1 an secondRun cp1Request ++
    approve binh secondRun cp1Request ++ List.replicate 6 (.node secondRun nodeInput) ++
    raiseRequest secondRun cp2Request ++ approve binh secondRun cp2Request ++
    [.node secondRun nodeInput, .node secondRun { nodeInput with manifestRef := "manifest" },
      invite, .node run nodeInput]

/-- A published case is back in a state in which amendments are accepted. -/
theorem official_lost : ∃ es w, Exec (preparation env) es w ∧ reachedOfficial es = true ∧
    w.db.case.state = .approachReady ∧ w.db.case.state.acceptsAmendment = true ∧
    ¬ Along Final es := by
  have hruns : (preparation env).runs opened draftedAfterSealing (fun es w =>
      w.db.case.state == .approachReady && reachedOfficial es.tail &&
        (match es with
          | e :: _ => e.post.db.case.state.acceptsAmendment
          | [] => false)) = true := by
    decide +kernel
  obtain ⟨es, w, hrun, htest⟩ := Machine.exec_of_runs opened_init hruns
  simp only [Bool.and_eq_true, beq_iff_eq] at htest
  obtain ⟨⟨hstate, hreached⟩, hlast⟩ := htest
  split at hlast
  · next e earlier =>
    have hreached : reachedOfficial earlier = true := hreached
    refine ⟨e :: earlier, w, hrun, ?_, hstate, by rw [hstate]; rfl, ?_⟩
    · show (e.post.db.case.state == .packageOfficial || reachedOfficial earlier) = true
      rw [hreached, Bool.or_true]
    · intro hfinal
      have hclosed := (hfinal.1 hreached).1
      rw [hlast] at hclosed
      cases hclosed
  · cases hlast

end Office

end DigitalWorker
