import DigitalWorker.Protocol.CaseStore
import DigitalWorker.Protocol.LegalWindow
import DigitalWorker.Protocol.Transitions

/-! # Submissions and their cards

    Whatever waits for a decision announces itself with one card, and the outbox
    swallows a card whose key it has seen. The key of a gate's card is a digest of
    the verdict alone, and there is one verdict that passes; the key of a filing
    or a proposal is a digest of its text. So the card of a submission is new
    exactly when no earlier submission of the case was the same.
-/

namespace DigitalWorker

open Framework CaseDb

inductive Submission where
  | cp1
  | cp2
  /-- An addendum filed for CP3, by the digest of its file. -/
  | addendum (digest : String)
  /-- A proposal of an addendum, by the digest of its change. -/
  | proposal (digest : String)
  deriving DecidableEq

namespace Submission

def key (env : Env) (caseId : Uuid) : Submission → String
  | cp1 => cardKey caseId "CP1" (gateDedupe env)
  | cp2 => cardKey caseId "CP2" (gateDedupe env)
  | addendum digest => cardKey caseId "CP3" digest
  | proposal digest => jobKey caseId .addmProposal digest

def eventType : Submission → IntakeNotificationType
  | proposal _ => .addendumProposed
  | _ => .cpApprovalRequested

def recipient (env : Env) (w : World) : Submission → Option Uuid
  | cp1 => w.directory.approver env.rules w.db.case.estimatedValueMinor "CP1"
  | cp2 => w.directory.approver env.rules w.db.case.estimatedValueMinor "CP2"
  | _ => w.directory.recipient "approver"

end Submission

def agentDecides (env : Env) (e : Event World Action) : Bool :=
  match e.act with
  | .node runId inp =>
    match e.pre.runs runId with
    | some record =>
      match env.rules.selectMethod record.state.estimatedValueMinor with
      | .ok method => autopilot env inp method (approachVerdict env record.state method)
      | .error _ => false
    | none => false
  | _ => false

def submissionOf (env : Env) (e : Event World Action) : Option Submission :=
  if (passedNode .approachGate e).isSome then
    if e.post.db.case.state = .cp1Pending ∧ agentDecides env e = false then some .cp1 else none
  else if (passedNode .packageGate e).isSome then
    if e.post.db.case.state = .cp2Pending then some .cp2 else none
  else
    match e.act with
    | .handle _ (.submitAddendum cmd) => some (.addendum (take (env.sha256 cmd.file.content) 12))
    | .handle _ (.proposeAddendum cmd) =>
      some (.proposal (take (env.sha256 (strip cmd.changeSummary)) 12))
    | _ => none

def submissionsOf (env : Env) (es : List (Event World Action)) : List Submission :=
  es.filterMap (submissionOf env)

structure Staffed (env : Env) (w : World) : Prop where
  cp1 : (w.directory.approver env.rules w.db.case.estimatedValueMinor "CP1").isSome = true
  cp2 : (w.directory.approver env.rules w.db.case.estimatedValueMinor "CP2").isSome = true
  approver : (w.directory.recipient "approver").isSome = true

theorem Staffed.recipient {env : Env} {w : World} (h : Staffed env w) (s : Submission) :
    (s.recipient env w).isSome = true := by
  cases s with
  | cp1 => exact h.cp1
  | cp2 => exact h.cp2
  | addendum digest => exact h.approver
  | proposal digest => exact h.approver

/-- **The property**: the submission of the event, if there is one, gains a card
    under a key that no card of the case had. -/
def SubmissionReaches (env : Env) (e : Event World Action) : Prop :=
  ∀ s, submissionOf env e = some s →
    NewCard s.eventType (s.key env e.pre.db.case.id) e.pre.db e.post.db

/-! ## Keys tell submissions apart -/

section

variable {env : Env} {caseId : Uuid} {s s' : Submission}

theorem Submission.key_decision (env : Env) (caseId : Uuid) (s : Submission) :
    ∃ kind rest, kind.isDecision = true ∧ s.key env caseId = jobKey caseId kind rest := by
  cases s with
  | cp1 => exact ⟨.cpcard, _, rfl, rfl⟩
  | cp2 => exact ⟨.cpcard, _, rfl, rfl⟩
  | addendum digest => exact ⟨.cpcard, _, rfl, rfl⟩
  | proposal digest => exact ⟨.addmProposal, _, rfl, rfl⟩

theorem Submission.key_inj : s.key env caseId = s'.key env caseId ↔ s = s' := by
  have hcards : ∀ {cp cp' d d' : String}, cp ∈ ["CP1", "CP2", "CP3"] →
      cp' ∈ ["CP1", "CP2", "CP3"] → (cardKey caseId cp d = cardKey caseId cp' d' ↔ cp = cp' ∧ d = d') := by
    intro cp cp' d d' hcp hcp'
    have hfree : ∀ t ∈ ["CP1", "CP2", "CP3"], ':' ∉ t.toList := by decide
    exact cardKey_inj (hfree cp hcp) (hfree cp' hcp')
  have hmixed : ∀ {cp d d' : String}, cardKey caseId cp d ≠ jobKey caseId .addmProposal d' := by
    intro cp d d' h
    cases (jobKey_inj.mp h).1
  constructor
  · intro h
    cases s <;> cases s' <;>
      simp_all [Submission.key, jobKey_inj, Ne.symm hmixed]
  · rintro rfl
    rfl

theorem SendsCards.silent {db db' : CaseDb} {new : List String} (h : SendsCards new db db')
    (hnew : ∀ s : Submission, s.key env db.case.id ∉ new) (s : Submission) :
    s.key env db.case.id ∈ db'.keys ↔ s.key env db.case.id ∈ db.keys := by
  obtain ⟨kind, rest, hkind, hkey⟩ := s.key_decision env db.case.id
  have hs := hnew s
  rw [hkey] at hs ⊢
  rw [h kind rest hkind]
  simp [hs]

end

/-! ## What a step submits -/

def Sends (env : Env) (w : World) (sub : Option Submission) (db' : CaseDb) : Prop :=
  match sub with
  | some s => SendsCard s.eventType (s.recipient env w) (s.key env w.db.case.id) w.db db'
  | none => SendsCards [] w.db db'

def SendsSubmission (env : Env) (sub : Option Submission) (db db' : CaseDb) : Prop :=
  match sub with
  | some s => ∃ user, SendsCard s.eventType (some user) (s.key env db.case.id) db db'
  | none => ∀ s : Submission, s.key env db.case.id ∈ db'.keys ↔ s.key env db.case.id ∈ db.keys

section

variable {env : Env} {w w' : World} {a : Action}

theorem SendsSubmission.silent {db db' : CaseDb} (h : SendsCards [] db db') :
    SendsSubmission env none db db' :=
  SendsCards.silent h (fun _ => List.not_mem_nil)

theorem SendsSubmission.card {db db' : CaseDb} {s : Submission} {recipient : Option Uuid}
    (h : SendsCard s.eventType recipient (s.key env db.case.id) db db')
    (hstaffed : recipient.isSome = true) : SendsSubmission env (some s) db db' := by
  obtain ⟨user, rfl⟩ := Option.isSome_iff_exists.mp hstaffed
  exact ⟨user, h⟩

theorem requestCp4_silent {directory : Directory} {call : Call} {db db' : CaseDb}
    (h : requestCp4 env directory call db = .ok db') : SendsSubmission env none db db' := by
  have hjobs := (requestCp4_ok h).2
  refine SendsCards.silent (SendsCards.card hjobs rfl) ?_
  intro s hmem
  split at hmem
  · have hkey := List.mem_singleton.mp hmem
    cases s with
    | cp1 =>
      have hcp := ((cardKey_inj (by decide) (by decide)).mp hkey).1
      exact absurd hcp (by decide)
    | cp2 =>
      have hcp := ((cardKey_inj (by decide) (by decide)).mp hkey).1
      exact absurd hcp (by decide)
    | addendum digest =>
      have hcp := ((cardKey_inj (by decide) (by decide)).mp hkey).1
      exact absurd hcp (by decide)
    | proposal digest => cases (jobKey_inj.mp hkey).1
  · exact List.not_mem_nil hmem

theorem Sends.submits {sub : Option Submission} {db' : CaseDb} (h : Sends env w sub db')
    (hstaffed : Staffed env w) : SendsSubmission env sub w.db db' := by
  cases sub with
  | none => exact .silent h
  | some s => exact .card h (hstaffed.recipient s)

theorem handle_sends {call : Call} {h : Handler} (hs : w.step env (.handle call h) = some w')
    (hcp4 : h ≠ .requestCp4) :
    Sends env w (submissionOf env ⟨w, .handle call h, w'⟩) w'.db := by
  obtain ⟨db, hrun, rfl⟩ := World.step_handle hs
  cases h with
  | submitAddendum cmd => exact .of_jobs (submitAddendum_ok hrun).2
  | proposeAddendum cmd => exact .of_jobs (proposeAddendum_ok hrun).2.2
  | requestCp4 => exact absurd rfl hcp4
  | verifyIntake ref comment => exact (verifyIntake_ok hrun).2
  | rejectIntake comment reasonCode => exact (rejectIntake_ok hrun).2
  | answerClarifications answers =>
    obtain ⟨_, _, _, _, _, hjobs, _⟩ := answerClarifications_ok hrun
    exact .of_jobs hjobs
  | recordPublication cmd => exact (recordPublication_ok hrun).2
  | autoPublish sent => exact (autoPublish_ok hrun).2
  | decideCp3 cmd => exact (decideCp3_ok hrun).2.2
  | recordSubmission cmd => exact (recordSubmission_ok hrun).2
  | completeCp4 cmd => exact (completeCp4_ok hrun).2.2

theorem passedNode_of_raised {runId : Uuid} {inp : NodeInput} {record : RunRecord} {n m : NodeName}
    (hrecord : w.runs runId = some record) (hposition : record.position = .running n)
    (hraised : w'.runs runId = some { record with position := .raised n }) :
    passedNode m ⟨w, .node runId inp, w'⟩ = none := by
  unfold passedNode
  simp only [hrecord, hraised, hposition]
  rw [if_neg]
  rintro ⟨hm, hne⟩
  cases hm
  exact hne rfl

theorem passedNode_ne {runId : Uuid} {inp : NodeInput} {record : RunRecord} {n m : NodeName}
    (hrecord : w.runs runId = some record) (hposition : record.position = .running n)
    (hm : m ≠ n) : passedNode m ⟨w, .node runId inp, w'⟩ = none := by
  cases hpassed : passedNode m ⟨w, .node runId inp, w'⟩ with
  | none => rfl
  | some r =>
    exfalso
    unfold passedNode at hpassed
    simp only [hrecord] at hpassed
    split at hpassed
    · next before after hbefore hafter =>
      obtain rfl := Option.some.inj hbefore
      split at hpassed
      · next hboth =>
        rw [hposition] at hboth
        cases hboth.1
        exact hm rfl
      · cases hpassed
    · cases hpassed

theorem node_sends {runId : Uuid} {inp : NodeInput}
    (hs : w.step env (.node runId inp) = some w') :
    Sends env w (submissionOf env ⟨w, .node runId inp, w'⟩) w'.db := by
  obtain ⟨record, n, hrecord, hposition, hcases⟩ := World.step_node hs
  rcases hcases with ⟨db, e, hrun, hw'⟩ | ⟨db, st, writes, hrun, hw'⟩
  · have hpost : w'.runs runId = some { record with position := .raised n } := by
      rw [hw']
      exact RunStore.put_self _ _ _
    have hnone : ∀ m, passedNode m ⟨w, .node runId inp, w'⟩ = none := fun m =>
      passedNode_of_raised hrecord hposition hpost
    have hdb : w'.db = db := by rw [hw']
    rw [← hdb] at hrun
    simp only [submissionOf, hnone, Option.isSome_none, Bool.false_eq_true, if_false]
    exact runNode_error_cards hrun
  · have hpost : w'.runs runId = some (record.passed n st) := by
      rw [hw']
      exact RunStore.put_self _ _ _
    have hdb : w'.db = db := by rw [hw']
    rw [← hdb] at hrun
    by_cases hcp1 : n = .approachGate
    · subst hcp1
      obtain ⟨method, hmethod, hcards⟩ := approachGateNode_ok_cards hrun
      obtain ⟨method', hmethod', _, hcase⟩ := approachGateNode_case hrun
      obtain rfl := Except.ok.inj (hmethod.symm.trans hmethod')
      have hpassed : passedNode .approachGate ⟨w, .node runId inp, w'⟩ = some runId :=
        passedNode_of_passed hrecord hposition hpost
      have hagent : agentDecides env ⟨w, .node runId inp, w'⟩ =
          autopilot env inp method (approachVerdict env record.state method) := by
        simp only [agentDecides, hrecord, hmethod]
      simp only [submissionOf, hpassed, Option.isSome_some, if_true, hagent, hcase]
      by_cases hgate : (approachVerdict env record.state method).passed = true
      · by_cases hauto : autopilot env inp method (approachVerdict env record.state method) = true
        · rw [if_neg (by simp [hauto])]
          rw [if_neg (by simp [hauto])] at hcards
          exact hcards
        · rw [if_pos ⟨by simp [hgate, PreparationCase.advance], by simpa using hauto⟩]
          rw [if_pos (by simp [hgate, hauto])] at hcards
          exact hcards
      · rw [if_neg (by simp [hgate, PreparationCase.advance])]
        rw [if_neg (by simp [hgate])] at hcards
        exact hcards
    · by_cases hcp2 : n = .packageGate
      · subst hcp2
        obtain ⟨method, hmethod, hcards⟩ := packageGateNode_ok_cards hrun
        obtain ⟨method', hmethod', _, hcase⟩ := packageGateNode_case hrun
        obtain rfl := Except.ok.inj (hmethod.symm.trans hmethod')
        have hother : passedNode .approachGate ⟨w, .node runId inp, w'⟩ = none :=
          passedNode_ne hrecord hposition (fun h => by cases h)
        have hpassed : passedNode .packageGate ⟨w, .node runId inp, w'⟩ = some runId :=
          passedNode_of_passed hrecord hposition hpost
        simp only [submissionOf, hother, hpassed, Option.isSome_none, Option.isSome_some,
          Bool.false_eq_true, if_false, if_true, hcase]
        by_cases hgate : (packageVerdict env inp record.state method).passed = true
        · rw [if_pos (by simp [hgate, PreparationCase.advance])]
          rw [if_pos hgate] at hcards
          exact hcards
        · rw [if_neg (by simp [hgate, PreparationCase.advance])]
          rw [if_neg hgate] at hcards
          exact hcards
      · have hother : ∀ m, m = .approachGate ∨ m = .packageGate →
            passedNode m ⟨w, .node runId inp, w'⟩ = none := by
          rintro m (rfl | rfl)
          · exact passedNode_ne hrecord hposition (Ne.symm hcp1)
          · exact passedNode_ne hrecord hposition (Ne.symm hcp2)
        simp only [submissionOf, hother _ (.inl rfl), hother _ (.inr rfl), Option.isSome_none,
          Bool.false_eq_true, if_false]
        exact runNode_ok_cards hrun hcp1 hcp2

/-- **Step lemma**: every step but the request to open the bids sends the card of its
    submission, if it has one, and no decision card otherwise. -/
theorem step_sends (hs : w.step env a = some w') (hcp4 : ∀ call, a ≠ .handle call .requestCp4) :
    Sends env w (submissionOf env ⟨w, a, w'⟩) w'.db := by
  cases a with
  | handle call h =>
    apply handle_sends hs
    rintro rfl
    exact hcp4 call rfl
  | node runId inp => exact node_sends hs
  | amend call cmd =>
    obtain ⟨db, hamend, rfl⟩ := World.step_amend hs
    obtain ⟨_, _, _, _, hjobs⟩ := amendCase_ok hamend
    exact .of_jobs hjobs
  | start call trigger runId =>
    obtain ⟨_, db, actor, hstart, rfl⟩ := World.step_start hs
    exact (startRun_ok hstart).2.2.2
  | notifyAmended =>
    obtain rfl := World.step_notifyAmended hs
    exact .send rfl rfl rfl rfl
  | _ => exact .of_keys (by rw [(World.step_frame hs).db rfl])

theorem step_submits (hs : w.step env a = some w') (hstaffed : Staffed env w) :
    SendsSubmission env (submissionOf env ⟨w, a, w'⟩) w.db w'.db := by
  by_cases hcp4 : ∃ call, a = .handle call .requestCp4
  · obtain ⟨call, rfl⟩ := hcp4
    obtain ⟨db, hrun, rfl⟩ := World.step_handle hs
    exact requestCp4_silent hrun
  · apply (step_sends hs ?_).submits hstaffed
    intro call hact
    exact hcp4 ⟨call, hact⟩

theorem SendsSubmission.keys {sub : Option Submission} {db db' : CaseDb}
    (h : SendsSubmission env sub db db') (s : Submission) :
    s.key env db.case.id ∈ db'.keys ↔ s ∈ sub ∨ s.key env db.case.id ∈ db.keys := by
  cases sub with
  | none =>
    rw [h s]
    simp
  | some new =>
    obtain ⟨user, hcard⟩ := h
    obtain ⟨kind, rest, hkind, hkey⟩ := s.key_decision env db.case.id
    have htaken := hcard.sendsCards kind rest hkind
    rw [← hkey] at htaken
    rw [htaken]
    simp only [Option.isSome_some, if_true, List.mem_singleton, Submission.key_inj,
      Option.mem_some_iff, eq_comm]

theorem SendsSubmission.newCard_iff {s : Submission} {db db' : CaseDb}
    (h : SendsSubmission env (some s) db db') :
    NewCard s.eventType (s.key env db.case.id) db db' ↔ s.key env db.case.id ∉ db.keys := by
  obtain ⟨user, hcard⟩ := h
  obtain ⟨kind, rest, hkind, hkey⟩ := s.key_decision env db.case.id
  rw [hkey] at hcard ⊢
  exact hcard.newCard_iff hkind

end

/-! ## What a run submits -/

section

variable {env : Env} {es : List (Event World Action)} {w : World}

theorem submissionsOf_cons {e : Event World Action} :
    submissionsOf env (e :: es) = (submissionOf env e).toList ++ submissionsOf env es := by
  unfold submissionsOf
  cases h : submissionOf env e with
  | none => simp [h]
  | some s => simp [h]

/-- **Run lemma**: after a run, the keys of submissions that are taken are those of
    the submissions of the run. -/
theorem submitted_keys (hrun : Exec (preparation env) es w)
    (hstaffed : ∀ e ∈ es, Staffed env e.pre) :
    ∀ s : Submission, s.key env w.db.case.id ∈ w.db.keys ↔ s ∈ submissionsOf env es := by
  induction hrun with
  | start hinit =>
    obtain ⟨call, cmd, hcreate, _⟩ := hinit
    have hopened := createCase_ok hcreate
    intro s
    obtain ⟨kind, rest, hkind, hkey⟩ := s.key_decision env _
    rw [hkey]
    constructor
    · intro hmem
      exact absurd hmem (hopened.keys kind rest hkind)
    · intro hmem
      cases hmem
  | @snoc es v v' a _ hs ih =>
    have hkeys := ih (fun e he => hstaffed e (List.mem_cons_of_mem _ he))
    have hsub := step_submits hs (hstaffed _ List.mem_cons_self)
    intro s
    rw [step_caseId hs, hsub.keys s, hkeys s, submissionsOf_cons, List.mem_append,
      Option.mem_toList, Option.mem_def]

/-- **Main theorem**: with the approver roles staffed throughout a run, every
    submission of it gains a new card exactly when no two of them are the same. -/
theorem submissions_reach (hrun : Exec (preparation env) es w)
    (hstaffed : ∀ e ∈ es, Staffed env e.pre) :
    (∀ e ∈ es, SubmissionReaches env e) ↔ (submissionsOf env es).Nodup := by
  induction hrun with
  | start _ => simp [submissionsOf]
  | @snoc es v v' a hprev hs ih =>
    have hearlier : ∀ e ∈ es, Staffed env e.pre := fun e he =>
      hstaffed e (List.mem_cons_of_mem _ he)
    have hih := ih hearlier
    have hkeys := submitted_keys hprev hearlier
    have hsub := step_submits hs (hstaffed _ List.mem_cons_self)
    -- the last step reaches its approver exactly when its submission is none of the earlier ones
    have hlast : SubmissionReaches env ⟨v, a, v'⟩ ↔
        ∀ s, submissionOf env ⟨v, a, v'⟩ = some s → s ∉ submissionsOf env es := by
      constructor
      · intro hreaches s hs'
        have hnew := hreaches s hs'
        rw [hs'] at hsub
        rw [← hkeys s]
        exact hsub.newCard_iff.mp hnew
      · intro hfresh s hs'
        rw [hs'] at hsub
        refine hsub.newCard_iff.mpr ?_
        rw [hkeys s]
        exact hfresh s hs'
    rw [List.forall_mem_cons, hih, hlast, submissionsOf_cons]
    cases submissionOf env ⟨v, a, v'⟩ with
    | none => simp
    | some s => simp [List.nodup_cons]

end

namespace Office

def staffedTest (w : World) : Bool :=
  (w.directory.approver env.rules w.db.case.estimatedValueMinor "CP1").isSome &&
    (w.directory.approver env.rules w.db.case.estimatedValueMinor "CP2").isSome &&
    (w.directory.recipient "approver").isSome

theorem staffed_of_test {w : World} (h : staffedTest w = true) : Staffed env w := by
  simp only [staffedTest, Bool.and_eq_true] at h
  obtain ⟨⟨hcp1, hcp2⟩, happrover⟩ := h
  exact ⟨hcp1, hcp2, happrover⟩

/-- The first submission to CP1 reaches the approver. -/
theorem first_submission : ∃ es w, Exec (preparation env) es w ∧
    .cp1 ∈ submissionsOf env es ∧ ∀ e ∈ es, SubmissionReaches env e := by
  have hruns : (preparation env).runs opened toCp1 (fun es _ =>
      submissionsOf env es == [.cp1] && es.all (fun e => staffedTest e.pre)) = true := by
    decide +kernel
  obtain ⟨es, w, hrun, htest⟩ := Machine.exec_of_runs opened_init hruns
  rw [Bool.and_eq_true, beq_iff_eq] at htest
  obtain ⟨hsubmissions, hstaffed⟩ := htest
  rw [List.all_eq_true] at hstaffed
  refine ⟨es, w, hrun, by rw [hsubmissions]; exact List.mem_singleton_self _, ?_⟩
  rw [submissions_reach hrun (fun e he => staffed_of_test (hstaffed e he)), hsubmissions]
  exact List.nodup_singleton _

def resubmitted : List Action :=
  toCp1 ++ [.amend (call an) { estimatedValueMinor := some 200 }, .withdraw [], .notifyAmended,
    .start (call an) .manual secondRun] ++ List.replicate 5 (.node secondRun nodeInput)

/-- The second submission finds its key taken: the approver is sent nothing. -/
theorem resubmission_unseen : ∃ es w, Exec (preparation env) es w ∧
    (∀ e ∈ es, Staffed env e.pre) ∧ ∃ e ∈ es, submissionOf env e = some .cp1 ∧
      ¬ SubmissionReaches env e := by
  have hruns : (preparation env).runs opened resubmitted (fun es _ =>
      es.all (fun e => staffedTest e.pre) && es.any (fun e =>
        submissionOf env e == some .cp1 &&
          e.pre.db.keys.contains (Submission.cp1.key env e.pre.db.case.id))) = true := by
    decide +kernel
  obtain ⟨es, w, hrun, htest⟩ := Machine.exec_of_runs opened_init hruns
  rw [Bool.and_eq_true, List.all_eq_true, List.any_eq_true] at htest
  obtain ⟨hstaffed, e, he, htest⟩ := htest
  rw [Bool.and_eq_true, beq_iff_eq, List.contains_iff_mem] at htest
  obtain ⟨hsubmission, htaken⟩ := htest
  refine ⟨es, w, hrun, fun e he => staffed_of_test (hstaffed e he), e, he, hsubmission, ?_⟩
  intro hreaches
  exact (hreaches .cp1 hsubmission).1 htaken

end Office

end DigitalWorker
