import DigitalWorker.Framework.Ledger
import DigitalWorker.Framework.Rows
import DigitalWorker.Preparation.ReworkEvents
import DigitalWorker.Protocol.Decisions
import DigitalWorker.Protocol.Reviews

/-! # The tally of returns

    A return at intake is on record in the transaction that makes it. A return at a
    checkpoint is a decision first; the run is resumed with it, and the node that
    applies it puts it on record. What a run owes the record between the two follows
    from where it stands.
-/

namespace DigitalWorker

open Framework

/-! ## What a run owes -/

def ReviewCheckpoint.rework : ReviewCheckpoint → ReworkCheckpoint
  | .cp1 => .cp1
  | .cp2 => .cp2

def PreparationCase.turnedDown (c : PreparationCase) (rc : RunContext) (cp : ReviewCheckpoint)
    (d : Decision) : Option Return :=
  if d.approved then none
  else some (c.returned (decider rc d) cp.rework d.reasonCode (rejectionText d.comment))

def RunRecord.applying (record : RunRecord) : Option ReviewCheckpoint :=
  match record.position with
  | .running .applyCp1 => some .cp1
  | .running .applyCp2 => some .cp2
  | _ => none

def RunRecord.waitingAt (record : RunRecord) : Option ReviewCheckpoint :=
  match record.position with
  | .waiting .cp1Review => some .cp1
  | .waiting .cp2Review => some .cp2
  | _ => none

def RunRecord.owed (record : RunRecord) (c : PreparationCase) (r : Uuid)
    (asked : Option Resumption) : Option Return :=
  match record.applying with
  | some cp =>
    c.turnedDown (World.runContext r record) cp (decisionOf (cp.decision record.state))
  | none =>
    match record.waitingAt with
    | some cp => asked.bind fun d => c.turnedDown (World.runContext r record) cp d.decision
    | none => none

def World.asked (w : World) (r : Uuid) : Option Resumption :=
  Rows.lookup Resumption.runId w.resumptions r

def World.owes (w : World) (r : Uuid) : Option Return :=
  (w.runs r).bind fun record => record.owed w.db.case r (w.asked r)

/-! ## The property and its condition -/

def returnOf (e : Event World Action) : Option Return :=
  match e.act with
  | .handle call (.rejectIntake comment reasonCode) =>
    some (e.pre.db.case.returned call.context.principalId .intake reasonCode comment)
  | .decide call cmd =>
    if cmd.approve then none
    else ((getRequest e.pre.requests cmd.approvalId).bind reviewOf).map fun cp =>
      e.pre.db.case.returned call.context.principalId cp.rework cmd.reasonCode cmd.comment
  | _ => none

def LosesReturn (env : Env) (e : Event World Action) : Prop :=
  match e.act with
  | .resume d => d.decision.approved = false ∧
    ∀ record, e.pre.runs d.runId = some record → record.status ≠ .waitingApproval
  | .node r inp => ∃ record cp, e.pre.runs r = some record ∧ record.applying = some cp ∧
    (decisionOf (cp.decision record.state)).approved = false ∧
    ¬ (inp.fault = none ∧ RejectionRecordable env (decisionOf (cp.decision record.state)))
  | _ => False

def tally (env : Env) : Ledger World Action Uuid Return where
  announces := returnOf
  waits := World.owes
  record w := w.db.returns
  loses := LosesReturn env

/-- **The property**: the events on record are the accepted returns, one for one. -/
def TallyExact (es : List (Event World Action)) (w : World) : Prop :=
  (es.filterMap returnOf).Perm w.db.returns

instance (es : List (Event World Action)) (w : World) : Decidable (TallyExact es w) :=
  inferInstanceAs (Decidable (List.Perm _ _))

/-! ## Where a run stands and what it owes -/

section

variable {record : RunRecord} {c : PreparationCase} {r : Uuid} {asked : Option Resumption}
  {cp : ReviewCheckpoint}

theorem RunRecord.applying_eq_some :
    record.applying = some cp ↔ record.position = .running cp.applyNode := by
  unfold RunRecord.applying
  constructor
  · intro h
    split at h
    · next hposition =>
      obtain rfl := Option.some.inj h
      exact hposition
    · next hposition =>
      obtain rfl := Option.some.inj h
      exact hposition
    · cases h
  · intro h
    rw [h]
    cases cp <;> rfl

theorem RunRecord.waitingAt_eq_some :
    record.waitingAt = some cp ↔ record.position = .waiting cp.reviewNode := by
  unfold RunRecord.waitingAt
  constructor
  · intro h
    split at h
    · next hposition =>
      obtain rfl := Option.some.inj h
      exact hposition
    · next hposition =>
      obtain rfl := Option.some.inj h
      exact hposition
    · cases h
  · intro h
    rw [h]
    cases cp <;> rfl

theorem RunRecord.owed_applying (h : record.position = .running cp.applyNode) :
    record.owed c r asked =
      c.turnedDown (World.runContext r record) cp (decisionOf (cp.decision record.state)) := by
  unfold RunRecord.owed
  rw [applying_eq_some.mpr h]

theorem RunRecord.owed_waiting (h : record.position = .waiting cp.reviewNode) :
    record.owed c r asked =
      asked.bind fun d => c.turnedDown (World.runContext r record) cp d.decision := by
  have hnot : record.applying = none := by
    unfold RunRecord.applying
    rw [h]
  unfold RunRecord.owed
  rw [hnot, waitingAt_eq_some.mpr h]

theorem RunRecord.owed_elsewhere (happlies : ∀ cp : ReviewCheckpoint, record.position ≠ .running cp.applyNode)
    (hwaits : ∀ cp : ReviewCheckpoint, record.position ≠ .waiting cp.reviewNode) :
    record.owed c r asked = none := by
  have hnot : record.applying = none := by
    cases h : record.applying with
    | none => rfl
    | some cp => exact absurd (applying_eq_some.mp h) (happlies cp)
  have hnowhere : record.waitingAt = none := by
    cases h : record.waitingAt with
    | none => rfl
    | some cp => exact absurd (waitingAt_eq_some.mp h) (hwaits cp)
  unfold RunRecord.owed
  rw [hnot, hnowhere]

theorem PreparationCase.returned_congr {c c' : PreparationCase} (hid : c'.id = c.id)
    (hcreator : c'.createdBy = c.createdBy) : c'.returned = c.returned := by
  funext decidedBy checkpoint code text
  unfold PreparationCase.returned
  rw [hid, hcreator]

theorem RunRecord.owed_congr {c c' : PreparationCase} (hid : c'.id = c.id)
    (hcreator : c'.createdBy = c.createdBy) : record.owed c' r asked = record.owed c r asked := by
  unfold RunRecord.owed PreparationCase.turnedDown
  rw [PreparationCase.returned_congr hid hcreator]

end

/-! ## Writers of the record -/

section

variable {env : Env} {directory : Directory} {call : Call} {db db' : CaseDb} {rc : RunContext}
  {inp : NodeInput} {st st' : PreparationState} {rules : ReworkSupportRules}

/-- **Handler lemma**: only a rejected intake is put on record. -/
theorem Handler.run_returns {h : Handler} (hrun : h.run env directory call db = .ok db')
    (hother : ∀ comment code, h ≠ .rejectIntake comment code) : db'.returns = db.returns := by
  cases h with
  | verifyIntake ref comment => exact verifyIntake_returns hrun
  | rejectIntake comment code => exact absurd rfl (hother comment code)
  | answerClarifications answers => exact answerClarifications_returns hrun
  | recordPublication cmd => exact recordPublication_returns hrun
  | autoPublish sent => exact autoPublish_returns hrun
  | proposeAddendum cmd => exact proposeAddendum_returns hrun
  | submitAddendum cmd => exact submitAddendum_returns hrun
  | decideCp3 cmd => exact decideCp3_returns hrun
  | recordSubmission cmd => exact recordSubmission_returns hrun
  | requestCp4 => exact requestCp4_returns hrun
  | completeCp4 cmd => exact completeCp4_returns hrun

theorem runNode_apply (cp : ReviewCheckpoint) :
    runNode env directory rc inp cp.applyNode st db =
      match cp with
      | .cp1 => applyCp1 env rc inp st db
      | .cp2 => applyCp2 env rc inp st db := by
  cases cp <;> rfl

/-- **Node lemma**: a node that applies a decision leaves the state of its run, and
    puts a rejection on record. -/
theorem applyNode_returns {cp : ReviewCheckpoint} (hrules : env.reworkRules = some rules)
    (henabled : rules.isEnabled = true)
    (h : runNode env directory rc inp cp.applyNode st db = (db', .ok st')) :
    db'.returns =
      (db.case.turnedDown rc cp (decisionOf (cp.decision st))).toList ++ db.returns := by
  have hrecorded : ∀ {checkpoint : ReworkCheckpoint} {d : Decision} {mid : CaseDb},
      recordRejection env rc inp checkpoint d db = .ok mid → mid.returns =
        (if d.approved then [] else
          [db.case.returned (decider rc d) checkpoint d.reasonCode (rejectionText d.comment)]) ++
        db.returns := by
    intro checkpoint d mid hrecord
    by_cases happroved : d.approved = true
    · rw [if_pos happroved, recordRejection_approved happroved hrecord]
      rfl
    · rw [if_neg happroved]
      rw [Bool.not_eq_true] at happroved
      exact recordRejection_returns hrules henabled happroved hrecord
  have hlist : ∀ (cp : ReviewCheckpoint) (d : Decision),
      (db.case.turnedDown rc cp d).toList = if d.approved then [] else
        [db.case.returned (decider rc d) cp.rework d.reasonCode (rejectionText d.comment)] := by
    intro cp d
    unfold PreparationCase.turnedDown
    split
    · rfl
    · rfl
  rw [hlist, runNode_apply] at *
  cases cp with
  | cp1 =>
    simp only [applyCp1] at h
    have htxn := runTransaction_ok h
    simp only [id_eq, bind_ok] at htxn
    obtain ⟨mid, hrecord, rows, hsave, hret⟩ := htxn
    obtain ⟨rfl, _⟩ := Prod.mk.inj (Except.ok.inj hret)
    rw [saveCase_returns hsave, notifyProgress_returns]
    exact hrecorded hrecord
  | cp2 =>
    simp only [applyCp2] at h
    have htxn := runTransaction_ok h
    simp only [id_eq, bind_ok] at htxn
    obtain ⟨mid, hrecord, rows, hsave, hret⟩ := htxn
    obtain ⟨rfl, _⟩ := Prod.mk.inj (Except.ok.inj hret)
    rw [saveCase_returns hsave, notifyProgress_returns]
    exact hrecorded hrecord

theorem applyNode_succeeds (cp : ReviewCheckpoint) :
    (∃ db' st', runNode env directory rc inp cp.applyNode st db = (db', .ok st')) ↔
      inp.fault = none ∧ RejectionRecordable env (decisionOf (cp.decision st)) := by
  rw [runNode_apply]
  cases cp with
  | cp1 => exact applyCp1_succeeds
  | cp2 => exact applyCp2_succeeds

theorem approachGate_approves
    (h : runNode env directory rc inp .approachGate st db = (db', .ok st'))
    (hnone : st.cp1Decision = none) :
    ∀ d, st'.cp1Decision = some d → d.approved = true := by
  simp only [runNode, approachGateNode] at h
  split at h
  · cases (Prod.mk.inj h).2
  · have htxn := runTransaction_ok h
    simp only [bind_ok] at htxn
    obtain ⟨_, _, hret⟩ := htxn
    obtain ⟨_, rfl⟩ := Prod.mk.inj (Except.ok.inj hret)
    intro d hd
    simp only [hnone] at hd
    split at hd
    · obtain rfl := Option.some.inj hd
      rfl
    · cases hd

end

/-! ## Steps -/

section

variable {env : Env} {w w' : World} {a : Action} {rules : ReworkSupportRules} {r : Uuid}

theorem step_createdBy (hs : w.step env a = some w') :
    w'.db.case.createdBy = w.db.case.createdBy := by
  rcases step_case hs with hcase | ⟨_, _, _, hmove⟩ | ⟨_, _, _, _, _, _, hcase⟩ |
    ⟨_, _, _, _, hstart⟩ | ⟨_, _, _, _, _, _, _, _, hmove⟩
  · rw [hcase]
  · exact hmove.createdBy
  · rw [hcase]
  · obtain ⟨_, hcase⟩ := PreparationCase.startRun_ok.mp hstart
    rw [hcase]
  · exact hmove.sameIdentity.createdBy

theorem lookup_congr {ρ κ : Type} [DecidableEq κ] {key : ρ → κ} {rows rows' : List ρ} {k : κ}
    (h : (rows.map key).Nodup) (h' : (rows'.map key).Nodup)
    (hsame : ∀ x, key x = k → (x ∈ rows' ↔ x ∈ rows)) :
    Rows.lookup key rows' k = Rows.lookup key rows k := by
  cases hfound : Rows.lookup key rows k with
  | some x =>
    obtain ⟨hmem, hkey⟩ := Rows.lookup_some hfound
    rw [← hkey]
    exact Rows.lookup_of_mem h' ((hsame x hkey).mpr hmem)
  | none =>
    cases hfound' : Rows.lookup key rows' k with
    | none => rfl
    | some x =>
      obtain ⟨hmem, hkey⟩ := Rows.lookup_some hfound'
      have hlookup := Rows.lookup_of_mem h ((hsame x hkey).mp hmem)
      rw [hkey, hfound] at hlookup
      cases hlookup

theorem World.Unasked.asked_eq (h : w.Unasked r) : w.asked r = none := by
  cases hasked : w.asked r with
  | none => rfl
  | some d =>
    obtain ⟨hmem, hrun⟩ := Rows.lookup_some hasked
    exact absurd hrun (h.2 d hmem)

theorem owes_congr (hs : w.step env a = some w') (hrow : w'.runs r = w.runs r)
    (hasked : w'.asked r = w.asked r) : w'.owes r = w.owes r := by
  unfold World.owes
  rw [hrow, hasked]
  cases w.runs r with
  | none => rfl
  | some record => exact RunRecord.owed_congr (step_caseId hs) (step_createdBy hs)

theorem owes_of_frame (hs : w.step env a = some w') (hruns : w'.runs = w.runs)
    (hresumptions : w'.resumptions = w.resumptions) (r : Uuid) : w'.owes r = w.owes r := by
  apply owes_congr hs
  · rw [hruns]
  · unfold World.asked
    rw [hresumptions]

theorem owes_of_put {r' : Uuid} {record' : RunRecord} (hs : w.step env a = some w')
    (hruns : w'.runs = w.runs.put r' record') (hresumptions : w'.resumptions = w.resumptions)
    (hown : w'.owes r' = w.owes r') (r : Uuid) : w'.owes r = w.owes r := by
  by_cases hr : r = r'
  · rw [hr]
    exact hown
  · apply owes_congr hs
    · rw [hruns, RunStore.put_ne _ _ hr]
    · unfold World.asked
      rw [hresumptions]

theorem owes_of_row {record : RunRecord} (h : w.runs r = some record) :
    w.owes r = record.owed w.db.case r (w.asked r) := by
  unfold World.owes
  rw [h]
  rfl

theorem next_applyNode {n : NodeName} {st : PreparationState} {cp : ReviewCheckpoint}
    (h : next n st = some cp.applyNode) (hreview : isReview n = false) :
    n = .approachGate ∧ cp = .cp1 ∧ ∃ d, st.cp1Decision = some d := by
  cases n with
  | approachGate =>
    have hroute : routeAfterApproachGate st = cp.applyNode := Option.some.inj h
    unfold routeAfterApproachGate at hroute
    split at hroute
    · split at hroute
      · cases cp <;> cases hroute
      · split at hroute
        · next hdecided =>
          refine ⟨rfl, ?_, Option.isSome_iff_exists.mp hdecided⟩
          cases cp with
          | cp1 => rfl
          | cp2 => cases hroute
        · cases cp <;> cases hroute
    · cases cp <;> cases hroute
  | applyCp1 =>
    have hroute : routeAfterCp1 st = cp.applyNode := Option.some.inj h
    unfold routeAfterCp1 at hroute
    split at hroute <;> cases cp <;> cases hroute
  | applyCp2 =>
    have hroute : routeAfterCp2 st = cp.applyNode := Option.some.inj h
    unfold routeAfterCp2 at hroute
    split at hroute <;> cases cp <;> cases hroute
  | cp1Review | cp2Review => cases hreview
  | finalizeOfficial | closeFailed | closeIncomplete => cases h
  | _ => cases cp <;> cases h

theorem RunRecord.passed_owed {record : RunRecord} {n : NodeName} {st : PreparationState}
    {c : PreparationCase} {asked : Option Resumption} (hreview : isReview n = false)
    (happroves : n = .approachGate → ∀ d, st.cp1Decision = some d → d.approved = true) :
    (record.passed n st).owed c r asked = none := by
  by_cases happlies : ∃ cp : ReviewCheckpoint, (record.passed n st).position = .running cp.applyNode
  · obtain ⟨cp, hposition⟩ := happlies
    obtain ⟨hnext, _⟩ := RunRecord.passed_running hposition
    obtain ⟨hgate, rfl, d, hd⟩ := next_applyNode hnext hreview
    rw [owed_applying hposition]
    have happroved := happroves hgate d hd
    have hdecision : decisionOf (ReviewCheckpoint.cp1.decision (record.passed n st).state) = d := by
      show decisionOf st.cp1Decision = d
      rw [hd]
      rfl
    unfold PreparationCase.turnedDown
    rw [hdecision, if_pos happroved]
  · rw [not_exists] at happlies
    apply owed_elsewhere happlies
    intro cp hposition
    unfold RunRecord.passed at hposition
    dsimp only at hposition
    split at hposition
    · cases hposition
    · split at hposition <;> cases hposition

theorem RunRecord.raised_owed {record : RunRecord} {n : NodeName} {c : PreparationCase}
    {asked : Option Resumption} :
    RunRecord.owed { record with position := .raised n } c r asked = none := by
  apply owed_elsewhere
  · intro cp hposition
    cases hposition
  · intro cp hposition
    cases hposition

/-- An action that announces nothing, touches no debt and no record. -/
theorem moves_idle (hannounces : returnOf ⟨w, a, w'⟩ = none)
    (howes : ∀ r, w'.owes r = w.owes r) (hreturns : w'.db.returns = w.db.returns)
    (hkeeps : ¬ LosesReturn env ⟨w, a, w'⟩) : (tally env).Moves ⟨w, a, w'⟩ :=
  .idle hannounces howes hreturns hkeeps

theorem handle_moves {call : Call} {h : Handler} (hrules : env.reworkRules = some rules)
    (henabled : rules.isEnabled = true) (hs : w.step env (.handle call h) = some w') :
    (tally env).Moves ⟨w, .handle call h, w'⟩ := by
  have hsame : ∀ r, w'.owes r = w.owes r := by
    obtain ⟨db, _, hw'⟩ := World.step_handle hs
    exact owes_of_frame hs (by rw [hw']) (by rw [hw'])
  obtain ⟨db, hrun, rfl⟩ := World.step_handle hs
  by_cases hreject : ∃ comment code, h = .rejectIntake comment code
  · obtain ⟨comment, code, rfl⟩ := hreject
    exact .records rfl hsame (rejectIntake_returns hrules henabled hrun) id
  · have hother : ∀ comment code, h ≠ .rejectIntake comment code :=
      fun comment code heq => hreject ⟨comment, code, heq⟩
    refine moves_idle ?_ hsame (Handler.run_returns hrun hother) id
    unfold returnOf
    split
    · next heq =>
      obtain ⟨_, rfl⟩ := Action.handle.inj heq
      exact absurd rfl (hother _ _)
    · next heq => cases heq
    · rfl

/-- **Decision lemma**: a rejection is owed from the moment it is committed. -/
theorem decide_moves {call : Call} {cmd : DecideCommand} (hbooks : Bookkeeping env w)
    (hplaces : Places env w) (hs : w.step env (.decide call cmd) = some w') :
    (tally env).Moves ⟨w, .decide call cmd, w'⟩ := by
  obtain ⟨q, saved, hq, hpending, haccepted, hsave, hw'⟩ := World.step_decide hs
  obtain ⟨hmem, _⟩ := getRequest_mem hq
  obtain ⟨hprep, r, _, hrun, _⟩ := hbooks.origin q hmem
  obtain ⟨record, n, hwaits⟩ := hbooks.pending q hmem hpending r hrun
  obtain ⟨cp, rfl, hreview⟩ := hplaces.asked q hmem hpending r record n hrun hwaits.1 hwaits.2.1
  have hresumptions : w'.resumptions =
      { runId := r, decision := resumeDecision call cmd } :: w.resumptions := by
    rw [hw', hrun]
  have hrow : w'.runs = w.runs := by rw [hw']
  have hcase : w'.db = w.db := by rw [hw']
  -- before, nobody had decided about the run
  have hbefore : w.asked r = none := by
    cases hasked : w.asked r with
    | none => rfl
    | some d =>
      obtain ⟨hd, hdrun⟩ := Rows.lookup_some hasked
      have hnone := (hbooks.decided d hd).2 q hmem hpending
      exact absurd hrun (hdrun ▸ hnone)
  have hafter : w'.asked r = some { runId := r, decision := resumeDecision call cmd } := by
    unfold World.asked Rows.lookup
    rw [hresumptions, List.find?_cons_of_pos (by simp)]
  have hothers : ∀ r', r' ≠ r → w'.owes r' = w.owes r' := by
    intro r' hr'
    apply owes_congr hs (by rw [hrow])
    unfold World.asked Rows.lookup
    rw [hresumptions, List.find?_cons_of_neg]
    simpa using fun heq => hr' heq.symm
  have howed : w.owes r = none := by
    rw [owes_of_row hwaits.1, RunRecord.owed_waiting hwaits.2.1, hbefore]
    rfl
  have howes : w'.owes r = w.db.case.turnedDown (World.runContext r record) cp
      (resumeDecision call cmd) := by
    have hrow' : w'.runs r = some record := by
      rw [hrow]
      exact hwaits.1
    rw [owes_of_row hrow', RunRecord.owed_waiting hwaits.2.1, hafter, hcase]
    rfl
  have hreturns : w'.db.returns = w.db.returns := by rw [hcase]
  by_cases happrove : cmd.approve = true
  · have hnone : w'.owes r = none := by
      rw [howes]
      exact if_pos happrove
    refine moves_idle ?_ ?_ hreturns id
    · exact if_pos happrove
    · intro r'
      by_cases hr' : r' = r
      · rw [hr', hnone, howed]
      · exact hothers r' hr'
  · have hcomment : blank cmd.comment = false := by
      unfold Refused at haccepted
      simp only [not_or, not_and, hprep] at haccepted
      simpa using haccepted.2.2.2
    have hreturn : w'.owes r = some (w.db.case.returned call.context.principalId cp.rework
        cmd.reasonCode cmd.comment) := by
      rw [howes]
      have hrejected : ¬ (resumeDecision call cmd).approved = true := happrove
      unfold PreparationCase.turnedDown PreparationCase.returned
      rw [if_neg hrejected]
      simp only [decider, resumeDecision, Option.getD_some, filedCode_strip,
        rejectionText_of hcomment]
    refine .defers (k := r) ?_ ⟨howed, hreturn, hothers⟩ hreturns id
    show (if cmd.approve then none else ((getRequest w.requests cmd.approvalId).bind reviewOf).map
      fun cp => w.db.case.returned call.context.principalId cp.rework cmd.reasonCode cmd.comment) = _
    rw [if_neg happrove, hq, Option.bind_some, hreview]
    rfl

/-- **Resumption lemma**: a run that is marked as waiting goes on with what it owes;
    otherwise a rejection is lost. -/
theorem resume_moves {d : Resumption} (hbooks : Bookkeeping env w)
    (hs : w.step env (.resume d) = some w') : (tally env).Moves ⟨w, .resume d, w'⟩ := by
  obtain ⟨hmem, _⟩ := World.step_resume hs
  have hbooks' := bookkeeping_step hbooks hs
  obtain ⟨⟨record, n, hwaits⟩, _⟩ := hbooks.decided d hmem
  obtain ⟨cp, rfl⟩ := ReviewCheckpoint.of_isReview hwaits.2.2
  have hasked : w.asked d.runId = some d := Rows.lookup_of_mem hbooks.decidedOnce hmem
  have howes : w.owes d.runId =
      w.db.case.turnedDown (World.runContext d.runId record) cp d.decision := by
    rw [owes_of_row hwaits.1, RunRecord.owed_waiting hwaits.2.1, hasked]
    rfl
  have hresumptions : w'.resumptions = w.resumptions.erase d := by
    obtain ⟨_, rfl | ⟨_, _, _, _, _, rfl⟩⟩ := World.step_resume hs
    · rfl
    · rfl
  have hlist : ∀ x, x ∈ w.resumptions.erase d ↔ x ≠ d ∧ x ∈ w.resumptions :=
    fun x => (List.Nodup.of_map _ hbooks.decidedOnce).mem_erase_iff
  have hother : ∀ r', r' ≠ d.runId → w'.asked r' = w.asked r' := by
    intro r' hr'
    apply lookup_congr hbooks.decidedOnce hbooks'.decidedOnce
    intro x hx
    rw [hresumptions, hlist, and_iff_right]
    intro heq
    exact hr' (by rw [← hx, heq])
  have hgone : w'.asked d.runId = none := by
    cases hfound : w'.asked d.runId with
    | none => rfl
    | some x =>
      obtain ⟨hx, hkey⟩ := Rows.lookup_some hfound
      rw [hresumptions, hlist] at hx
      exact absurd (Rows.eq_of_key hbooks.decidedOnce hx.2 hmem hkey) hx.1
  simp only [World.step, World.resume, if_pos hmem, hwaits.1] at hs
  split at hs
  · next hstatus =>
    -- the call raises, and the decision stands without a run
    obtain rfl := Option.some.inj hs
    have hothers : ∀ r', r' ≠ d.runId →
        World.owes { w with resumptions := w.resumptions.erase d } r' = w.owes r' := by
      intro r' hr'
      unfold World.owes
      rw [hother r' hr']
    have hnone : World.owes { w with resumptions := w.resumptions.erase d } d.runId = none := by
      have hrow : ({ w with resumptions := w.resumptions.erase d } : World).runs d.runId =
          some record := hwaits.1
      rw [owes_of_row hrow, RunRecord.owed_waiting hwaits.2.1, hgone]
      rfl
    by_cases happroved : d.decision.approved = true
    · have howed : w.owes d.runId = none := by
        rw [howes]
        exact if_pos happroved
      refine moves_idle rfl ?_ rfl ?_
      · intro r'
        by_cases hr' : r' = d.runId
        · rw [hr', hnone, howed]
        · exact hothers r' hr'
      · intro hloses
        rw [hloses.1] at happroved
        cases happroved
    · rw [Bool.not_eq_true] at happroved
      have howed : w.owes d.runId = some (w.db.case.returned
          (decider (World.runContext d.runId record) d.decision) cp.rework d.decision.reasonCode
          (rejectionText d.decision.comment)) := by
        rw [howes]
        exact if_neg (by simp [happroved])
      refine .drops (k := d.runId) rfl ⟨howed, hnone, hothers⟩ rfl ⟨happroved, ?_⟩
      · intro record' hrecord'
        obtain rfl := Option.some.inj (hwaits.1.symm.trans hrecord')
        exact hstatus
  · next hstatus =>
    have hresumed : record.resumed d.decision =
        some (cp.applyNode, answerReview cp.reviewNode d.decision record.state) := by
      unfold RunRecord.resumed
      rw [hwaits.2.1]
      simp only [cp.next_answered, Option.map_some]
    rw [hresumed] at hs
    obtain rfl := Option.some.inj hs
    refine moves_idle rfl ?_ rfl ?_
    · intro r'
      by_cases hr' : r' = d.runId
      · subst hr'
        rw [howes, owes_of_row (RunStore.put_self _ _ _), RunRecord.owed_applying rfl]
        show _ = w.db.case.turnedDown _ cp d.decision
        have hdecision := cp.decision_answered d.decision record.state
        simp only [hdecision]
        rfl
      · unfold World.owes
        rw [hother r' hr']
        show ((w.runs.put d.runId _) r').bind _ = _
        rw [RunStore.put_ne _ _ hr']
    · intro hloses
      exact hloses.2 record hwaits.1 (not_not.mp hstatus)

/-- **Node lemma**: the node that applies a rejection puts it on record, or raises and
    loses it. -/
theorem node_moves {inp : NodeInput} (hrules : env.reworkRules = some rules)
    (henabled : rules.isEnabled = true) (hplaces : Places env w)
    (hs : w.step env (.node r inp) = some w') : (tally env).Moves ⟨w, .node r inp, w'⟩ := by
  obtain ⟨record, n, hrecord, hposition, hcases⟩ := World.step_node hs
  have hreview := hplaces.running r record n hrecord hposition
  -- whatever the node was, its run owes nothing afterwards, and the others what they did
  have hafter : w'.owes r = none := by
    rcases hcases with ⟨db, e, hrun, rfl⟩ | ⟨db, st, writes, hrun, rfl⟩
    · rw [owes_of_row (RunStore.put_self _ _ _)]
      exact RunRecord.raised_owed
    · rw [owes_of_row (RunStore.put_self _ _ _)]
      apply RunRecord.passed_owed hreview
      intro hgate
      subst hgate
      have hnone := hplaces.undecided r record _ hrecord hposition rfl
      exact approachGate_approves hrun hnone
  have hothers : ∀ r', r' ≠ r → w'.owes r' = w.owes r' := by
    intro r' hr'
    rcases hcases with ⟨db, e, hrun, rfl⟩ | ⟨db, st, writes, hrun, rfl⟩
    · apply owes_congr hs
      · exact RunStore.put_ne _ _ hr'
      · rfl
    · apply owes_congr hs
      · exact RunStore.put_ne _ _ hr'
      · rfl
  by_cases happlies : ∃ cp : ReviewCheckpoint, n = cp.applyNode
  · obtain ⟨cp, rfl⟩ := happlies
    have howed : w.owes r = w.db.case.turnedDown (World.runContext r record) cp
        (decisionOf (cp.decision record.state)) := by
      rw [owes_of_row hrecord, RunRecord.owed_applying hposition]
    have hloses : LosesReturn env ⟨w, .node r inp, w'⟩ ↔
        (decisionOf (cp.decision record.state)).approved = false ∧
        ¬ (inp.fault = none ∧ RejectionRecordable env (decisionOf (cp.decision record.state))) := by
      constructor
      · rintro ⟨record', cp', hrecord', happlying, hlost⟩
        obtain rfl := Option.some.inj (hrecord.symm.trans hrecord')
        obtain rfl := Option.some.inj
          ((RunRecord.applying_eq_some.mpr hposition).symm.trans happlying)
        exact hlost
      · intro hlost
        exact ⟨record, cp, hrecord, RunRecord.applying_eq_some.mpr hposition, hlost⟩
    by_cases happroved : (decisionOf (cp.decision record.state)).approved = true
    · have hnone : w.owes r = none := by
        rw [howed]
        exact if_pos happroved
      refine moves_idle rfl ?_ ?_ ?_
      · intro r'
        by_cases hr' : r' = r
        · rw [hr', hafter, hnone]
        · exact hothers r' hr'
      · rcases hcases with ⟨db, e, hrun, rfl⟩ | ⟨db, st, writes, hrun, rfl⟩
        · exact runNode_error_returns hrun
        · have hreturns := applyNode_returns hrules henabled hrun
          rw [PreparationCase.turnedDown, if_pos happroved] at hreturns
          exact hreturns
      · rw [hloses, happroved]
        exact fun h => Bool.noConfusion h.1
    · rw [Bool.not_eq_true] at happroved
      let x := w.db.case.returned (decider (World.runContext r record)
        (decisionOf (cp.decision record.state))) cp.rework
        (decisionOf (cp.decision record.state)).reasonCode
        (rejectionText (decisionOf (cp.decision record.state)).comment)
      have hreturn : w.db.case.turnedDown (World.runContext r record) cp
          (decisionOf (cp.decision record.state)) = some x := if_neg (by simp [happroved])
      have hbefore : w.owes r = some x := howed.trans hreturn
      have hsucceeds := @applyNode_succeeds env w.directory w.db (World.runContext r record) inp
        record.state cp
      rcases hcases with ⟨db, e, hrun, rfl⟩ | ⟨db, st, writes, hrun, rfl⟩
      · refine .drops (k := r) rfl ⟨hbefore, hafter, hothers⟩ (runNode_error_returns hrun) ?_
        refine hloses.mpr ⟨happroved, ?_⟩
        rw [← hsucceeds, hrun]
        intro hok
        obtain ⟨db', st', hok⟩ := hok
        cases (Prod.mk.inj hok).2
      · have hreturns := applyNode_returns hrules henabled hrun
        rw [hreturn] at hreturns
        refine .settles (k := r) rfl ⟨hbefore, hafter, hothers⟩ hreturns ?_
        rw [show (tally env).loses = LosesReturn env from rfl, hloses]
        intro hlost
        exact hlost.2 (hsucceeds.mp ⟨db, st, hrun⟩)
  · have happly : ∀ cp : ReviewCheckpoint, n ≠ cp.applyNode :=
      fun cp heq => happlies ⟨cp, heq⟩
    have hbefore : w.owes r = none := by
      rw [owes_of_row hrecord]
      apply RunRecord.owed_elsewhere
      · intro cp hat
        exact happly cp (Position.running.inj (hposition.symm.trans hat))
      · intro cp hat
        rw [hposition] at hat
        cases hat
    refine moves_idle rfl ?_ ?_ ?_
    · intro r'
      by_cases hr' : r' = r
      · rw [hr', hafter, hbefore]
      · exact hothers r' hr'
    · rcases hcases with ⟨db, e, hrun, rfl⟩ | ⟨db, st, writes, hrun, rfl⟩
      · exact runNode_returns hrun (happly .cp1) (happly .cp2)
      · exact runNode_returns hrun (happly .cp1) (happly .cp2)
    · rintro ⟨record', cp, hrecord', happlying, _⟩
      obtain rfl := Option.some.inj (hrecord.symm.trans hrecord')
      have hat := RunRecord.applying_eq_some.mp happlying
      exact happly cp (Position.running.inj (hposition.symm.trans hat))

theorem step_moves (hrules : env.reworkRules = some rules) (henabled : rules.isEnabled = true)
    (hbooks : Bookkeeping env w) (hplaces : Places env w) (hs : w.step env a = some w') :
    (tally env).Moves ⟨w, a, w'⟩ := by
  cases a with
  | handle call h => exact handle_moves hrules henabled hs
  | decide call cmd => exact decide_moves hbooks hplaces hs
  | resume d => exact resume_moves hbooks hs
  | node r inp => exact node_moves hrules henabled hplaces hs
  | restaff directory =>
    obtain rfl := Option.some.inj hs
    exact moves_idle rfl (fun _ => rfl) rfl id
  | amend call cmd =>
    have hsame : ∀ r, w'.owes r = w.owes r := by
      obtain ⟨db, _, hw'⟩ := World.step_amend hs
      exact owes_of_frame hs (by rw [hw']) (by rw [hw'])
    obtain ⟨db, hamend, rfl⟩ := World.step_amend hs
    exact moves_idle rfl hsame (amendCase_returns hamend) id
  | withdraw others =>
    obtain ⟨_, notices, hw'⟩ := World.step_withdraw hs
    have hsame := owes_of_frame hs (by rw [hw']) (by rw [hw'])
    exact moves_idle rfl hsame (by rw [hw']) id
  | notifyAmended =>
    have hsame : ∀ r, w'.owes r = w.owes r := by
      have hw' := World.step_notifyAmended hs
      exact owes_of_frame hs (by rw [hw']) (by rw [hw'])
    obtain rfl := World.step_notifyAmended hs
    exact moves_idle rfl hsame send_returns id
  | start call trigger r =>
    obtain ⟨hfresh, db, actor, hstart, hw'⟩ := World.step_start hs
    have hrow : w'.runs r = some { requestedBy := actor, status := .running
                                   position := .running .loadCase, state := {} } := by
      rw [hw']
      exact RunStore.put_self _ _ _
    have hown : w'.owes r = w.owes r := by
      rw [owes_of_row hrow, RunRecord.owed_elsewhere]
      · unfold World.owes
        rw [hfresh]
        rfl
      · intro cp hat
        cases cp <;> cases hat
      · intro cp hat
        cases hat
    refine moves_idle rfl (owes_of_put hs (by rw [hw']) (by rw [hw']) hown) ?_ id
    rw [hw']
    exact startRun_returns hstart
  | createApproval r requestId now =>
    obtain ⟨record, n, writes, hrecord, hposition, _, hw'⟩ := World.step_createApproval hs
    have hunasked : w.Unasked r := by
      apply hbooks.unasked
      intro old m hwaits
      have hat := hwaits.position hrecord
      rw [hposition] at hat
      cases hat
    have hasked : w'.asked r = none := by
      rw [← hunasked.asked_eq]
      unfold World.asked
      rw [hw']
    have hrow : w'.runs r = some { record with position := .waiting n } := by
      rw [hw']
      exact RunStore.put_self _ _ _
    have hown : w'.owes r = w.owes r := by
      obtain ⟨cp, rfl, _⟩ := hplaces.stopped r record n hrecord hposition
      rw [owes_of_row hrow, RunRecord.owed_waiting rfl, hasked, owes_of_row hrecord,
        RunRecord.owed_elsewhere]
      · rfl
      · intro cp' hat
        rw [hposition] at hat
        cases hat
      · intro cp' hat
        rw [hposition] at hat
        cases hat
    exact moves_idle rfl (owes_of_put hs (by rw [hw']) (by rw [hw']) hown) (by rw [hw']) id
  | setStatus write =>
    obtain ⟨record, status, approvalRequestId, writes, hrecord, hw'⟩ := World.step_setStatus hs
    have hrow : w'.runs write.runId =
        some { record with status := status, approvalRequestId := approvalRequestId } := by
      rw [hw']
      exact RunStore.put_self _ _ _
    have hown : w'.owes write.runId = w.owes write.runId := by
      rw [owes_of_row hrow, owes_of_row hrecord, hw']
      rfl
    exact moves_idle rfl (owes_of_put hs (by rw [hw']) (by rw [hw']) hown) (by rw [hw']) id

end

/-! ## The tally over histories -/

section

variable {env : Env} {rules : ReworkSupportRules} {es : List (Event World Action)} {w : World}

theorem createCase_returns {directory : Directory} {call : Call} {db : CaseDb}
    {cmd : CreatePreparationCaseCommand} (h : createCase env directory call cmd = .ok db) :
    db.returns = [] := by
  simp only [createCase, authorize, requireFeature, ↓raiseIf_bind_ok, bind_ok] at h
  obtain ⟨_, _, _, _, _, _, _, _, _, _, _, h⟩ := h
  obtain rfl := Except.ok.inj h
  simp only [send_returns, addApplicationArtifact_returns]
  rfl

theorem tally_init (hw : (preparation env).init w) :
    (tally env).record w = [] ∧ ∀ r, (tally env).waits w r = none := by
  obtain ⟨call, cmd, hcreate, _, _, hruns, _⟩ := hw
  refine ⟨createCase_returns hcreate, ?_⟩
  intro r
  show (w.runs r).bind _ = none
  rw [hruns]
  rfl

/-- **The tally of returns** is exact at a moment of a history when no run owes it a
    return, and no event before lost one; and only then. -/
theorem returns_exact_iff (hrules : env.reworkRules = some rules)
    (henabled : rules.isEnabled = true) (h : Exec (preparation env) es w) :
    TallyExact es w ↔ (∀ r, w.owes r = none) ∧ ∀ e ∈ es, ¬ LosesReturn env e := by
  have hinit : ∀ s, (preparation env).init s → Bookkeeping env s ∧ Places env s :=
    fun s hs => ⟨bookkeeping_init hs, places_init hs⟩
  have hsteps := h.pre_invariant hinit fun s a s' hinv hs =>
    ⟨bookkeeping_step hinv.1 hs, places_step hinv.1 hinv.2 hs⟩
  apply Ledger.exact_iff (L := tally env) (fun s hs => tally_init hs) h
  intro e he
  obtain ⟨⟨hbooks, hplaces⟩, hs⟩ := hsteps e he
  exact step_moves hrules henabled hbooks hplaces hs

end

/-! ## Two rejections at CP1 -/

namespace Office

def rejected (reasonCode : String) : List Action :=
  toCp1 ++ [.decide (call binh) (rejectCp1 reasonCode),
    .resume { runId := run, decision := resumeDecision (call binh) (rejectCp1 reasonCode) },
    .node run nodeInput]

/-- A reason the rules know: no run owes a return, and none was lost. -/
theorem return_filed : ∃ es w, Exec (preparation env) es w ∧ w.db.returns.length = 1 ∧
    (∀ r, w.owes r = none) ∧ ∀ e ∈ es, ¬ LosesReturn env e := by
  have hruns : (preparation env).runs opened (rejected "budget")
      (fun es w => decide (TallyExact es w) && w.db.returns.length == 1) = true := by
    decide +kernel
  obtain ⟨es, w, hexec, htest⟩ := Machine.exec_of_runs opened_init hruns
  simp only [Bool.and_eq_true, decide_eq_true_eq, beq_iff_eq] at htest
  exact ⟨es, w, hexec, htest.2, (returns_exact_iff rfl (by decide) hexec).mp htest.1⟩

/-- A reason they do not know: the rejection is stored as a decision, nothing is under
    way any more, and no event was recorded. -/
theorem return_unfiled : ∃ es w, Exec (preparation env) es w ∧ w.decisions.length = 1 ∧
    w.resumptions = [] ∧ w.db.returns = [] ∧ ¬ TallyExact es w := by
  have hruns : (preparation env).runs opened (rejected "thiếu chữ ký")
      (fun es w => decide (w.decisions.length = 1 ∧ w.resumptions = [] ∧ w.db.returns = [] ∧
        ¬ TallyExact es w)) = true := by
    decide +kernel
  obtain ⟨es, w, hexec, htest⟩ := Machine.exec_of_runs opened_init hruns
  rw [decide_eq_true_eq] at htest
  exact ⟨es, w, hexec, htest⟩

end Office

end DigitalWorker
