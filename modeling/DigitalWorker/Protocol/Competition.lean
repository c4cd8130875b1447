import DigitalWorker.Preparation.Suppliers
import DigitalWorker.Protocol.Reviews

/-! # Minimum competition

    A purchase goes to tender only with the number of suppliers its method asks
    for. The gates count entries of a list. Along every path that writes the
    list, entries are non-blank names; only the path that opens a case makes
    sure that they are different names.
-/

namespace DigitalWorker

open Framework

/-! ## The property and the condition -/

/-- **The property**: a run that passes a gate invites at least the minimum of
    its method, in different suppliers. -/
def EnoughInvited (env : Env) (e : Event World Action) : Prop :=
  ∀ r record method gate, e.post.runs r = some record →
    env.rules.selectMethod record.state.estimatedValueMinor = .ok method →
    gate.passed = true →
    (passedNode .approachGate e = some r → record.state.approachGate = some gate →
      Competes (invitedNames env record.state.supplierCandidates) method.minSuppliers) ∧
    (passedNode .packageGate e = some r → record.state.packageGate = some gate →
      Competes (invitedNames env record.state.shortlist) method.minSuppliers)

def amendedNames (e : Event World Action) : List String :=
  match e.act with
  | .amend _ cmd => cmd.givenNames
  | _ => []

/-- **The condition**: an amendment that gives a list of suppliers reaches no
    minimum of the rule set by repetition. -/
def AmendsFairly (env : Env) (e : Event World Action) : Prop :=
  FairNames env.rules (amendedNames e)

instance (env : Env) (e : Event World Action) : Decidable (AmendsFairly env e) :=
  inferInstanceAs (Decidable (FairNames _ _))

/-! ## What is stored, and what a run holds -/

/-- The stored list names everybody, and repeats nobody over a minimum. -/
structure FairList (rules : ProcurementRules) (names : List String) : Prop where
  named : ∀ s ∈ names, blank s = false
  fair : FairNames rules names

def StoresFairly (env : Env) (db : CaseDb) : Prop :=
  ∃ source names, db.latestContent .supplierInput = some (supplierContent source names) ∧
    FairList env.rules names

structure InvitesFairly (env : Env) (record : RunRecord) : Prop where
  fresh : record.position = .running .loadCase → record.state = {}
  candidates : ∃ names, record.state.supplierCandidates = supplierRows names ∧
    FairList env.rules names
  planned : record.state.supplierCountPlanned ≤ record.state.supplierCandidates.length
  shortlist : record.state.shortlist = [] ∨
    record.state.shortlist = shortlistOf env record.state.supplierCandidates

/-- What holds in every state of a run that meets the condition. -/
structure Fairly (env : Env) (w : World) : Prop where
  stored : StoresFairly env w.db
  runs : ∀ r record, w.runs r = some record → InvitesFairly env record

section

variable {env : Env} {names : List String} {st st' : PreparationState}

theorem FairList.nil {rules : ProcurementRules} : FairList rules [] :=
  ⟨fun _ h => absurd h List.not_mem_nil, .of_nodup List.nodup_nil⟩

theorem FairList.given {cmd : AmendCaseCommand} {rules : ProcurementRules}
    (h : FairNames rules cmd.givenNames) : FairList rules cmd.givenNames :=
  ⟨fun _ hs => strip_named hs, h⟩

theorem InvitesFairly.of_state {record record' : RunRecord} (h : InvitesFairly env record)
    (hcandidates : record'.state.supplierCandidates = record.state.supplierCandidates)
    (hplanned : record'.state.supplierCountPlanned = record.state.supplierCountPlanned)
    (hshortlist : record'.state.shortlist = record.state.shortlist)
    (hposition : record'.position = .running .loadCase → record'.state = {}) :
    InvitesFairly env record' := by
  refine ⟨hposition, ?_, ?_, ?_⟩
  · rw [hcandidates]
    exact h.candidates
  · rw [hcandidates, hplanned]
    exact h.planned
  · rw [hcandidates, hshortlist]
    exact h.shortlist

theorem InvitesFairly.loaded {n : NodeName} {record : RunRecord}
    (hrows : st.supplierCandidates = supplierRows names) (hfair : FairList env.rules names)
    (hplanned : st.supplierCountPlanned = 0) (hshortlist : st.shortlist = [])
    (hposition : (record.passed n st).position ≠ .running .loadCase) :
    InvitesFairly env (record.passed n st) := by
  refine ⟨fun h => absurd h hposition, ⟨names, hrows, hfair⟩, ?_, .inl hshortlist⟩
  show st.supplierCountPlanned ≤ _
  omega

theorem InvitesFairly.copied {n : NodeName} {record : RunRecord} (h : InvitesFairly env record)
    (hcopies : CopiesSuppliers env record.state st)
    (hposition : (record.passed n st).position ≠ .running .loadCase) :
    InvitesFairly env (record.passed n st) := by
  refine ⟨fun hp => absurd hp hposition, ?_, ?_, ?_⟩
  · show ∃ names, st.supplierCandidates = _ ∧ _
    rw [hcopies.candidates]
    exact h.candidates
  · show st.supplierCountPlanned ≤ st.supplierCandidates.length
    have hbefore := h.planned
    rw [hcopies.candidates]
    rcases hcopies.planned with hplanned | hplanned <;> omega
  · show st.shortlist = [] ∨ st.shortlist = shortlistOf env st.supplierCandidates
    rw [hcopies.candidates]
    rcases hcopies.shortlist with hsame | hcopy
    · rw [hsame]
      exact h.shortlist
    · exact .inr hcopy

end

/-! ## Steps -/

section

variable {env : Env} {w w' : World} {a : Action}

theorem Fairly.initial (h : (preparation env).init w) : Fairly env w := by
  obtain ⟨call, cmd, hcreate, _, _, hruns, _⟩ := h
  constructor
  · exact ⟨_, _, createCase_suppliers hcreate, supplierCandidates_named,
      .of_nodup supplierCandidates_nodup⟩
  · intro r record hr
    rw [hruns] at hr
    cases hr

/-- **Step lemma**: the stored list changes by a fair amendment only. -/
theorem step_storesFairly (h : StoresFairly env w.db) (hs : w.step env a = some w')
    (hok : AmendsFairly env ⟨w, a, w'⟩) : StoresFairly env w'.db := by
  obtain ⟨source, names, hlatest, hfair⟩ := h
  have hfiled := World.step_filed hs
  by_cases hwrites : ArtifactType.supplierInput ∈ (w.files a).2
  · cases a with
    | amend call cmd =>
      obtain ⟨db, hamend, rfl⟩ := World.step_amend hs
      rcases amendCase_suppliers hamend with hsame | hgiven
      · exact ⟨source, names, hsame.trans hlatest, hfair⟩
      · exact ⟨_, _, hgiven, .given hok⟩
    | handle call hd => cases hd <;> simp [World.files, Handler.writes] at hwrites
    | node r inp =>
      -- no node writes the list
      simp only [World.files] at hwrites
      split at hwrites
      · split at hwrites
        · next n _ => cases n <;> simp [NodeName.writes] at hwrites
        · simp at hwrites
      · simp at hwrites
    | _ => simp [World.files] at hwrites
  · exact ⟨source, names, (hfiled.latestContent_eq hwrites).trans hlatest, hfair⟩

theorem node_invitesFairly {rc : RunContext} {inp : NodeInput} {n : NodeName}
    {record : RunRecord} {st : PreparationState} {db db' : CaseDb} {directory : Directory}
    (hstored : StoresFairly env db) (h : InvitesFairly env record)
    (hposition : record.position = .running n)
    (hrun : runNode env directory rc inp n record.state db = (db', .ok st)) :
    InvitesFairly env (record.passed n st) := by
  by_cases hn : n = .loadCase
  · subst hn
    obtain ⟨source, names, hlatest, hfair⟩ := hstored
    obtain ⟨hcandidates, hplanned, hshortlist⟩ := loadCase_suppliers hrun
    rw [hlatest] at hcandidates
    rw [h.fresh hposition] at hplanned hshortlist
    exact .loaded (hcandidates.trans dictItems_supplierContent) hfair hplanned hshortlist
      RunRecord.passed_hasLoaded.1
  · exact h.copied (runNode_suppliers hrun hn) RunRecord.passed_hasLoaded.1

theorem step_invitesFairly (h : Fairly env w) (hbooks : Bookkeeping env w)
    (hs : w.step env a = some w') {r : Uuid} {record' : RunRecord}
    (hr : w'.runs r = some record') : InvitesFairly env record' := by
  have hmove := step_run hbooks hs r
  rw [hr] at hmove
  generalize hrow : w.runs r = row at hmove
  cases hmove with
  | stays => exact h.runs r record' hrow
  | starts _ hstate =>
    refine ⟨fun _ => hstate, ⟨[], ?_, .nil⟩, ?_, .inl ?_⟩ <;> simp [hstate, supplierRows]
  | raises _ hposition _ =>
    exact (h.runs r _ hrow).of_state rfl rfl rfl (fun hp => by cases hp)
  | passes _ hposition hrun => exact node_invitesFairly h.stored (h.runs r _ hrow) hposition hrun
  | asks _ => exact (h.runs r _ hrow).of_state rfl rfl rfl (fun hp => by cases hp)
  | writes => exact (h.runs r _ hrow).of_state rfl rfl rfl (h.runs r _ hrow).fresh
  | @resumes record d cp _ _ _ _ =>
    have hanswered : ∀ n, (answerReview n d.decision record.state).supplierCandidates =
          record.state.supplierCandidates ∧
        (answerReview n d.decision record.state).supplierCountPlanned =
          record.state.supplierCountPlanned ∧
        (answerReview n d.decision record.state).shortlist = record.state.shortlist := by
      intro n
      unfold answerReview
      split <;> exact ⟨rfl, rfl, rfl⟩
    obtain ⟨hcandidates, hplanned, hshortlist⟩ := hanswered cp.reviewNode
    refine (h.runs r _ hrow).of_state hcandidates hplanned hshortlist ?_
    intro hp
    cases cp <;> cases hp

theorem Fairly.step (h : Fairly env w) (hbooks : Bookkeeping env w)
    (hs : w.step env a = some w') (hok : AmendsFairly env ⟨w, a, w'⟩) : Fairly env w' :=
  ⟨step_storesFairly h.stored hs hok, fun _ _ hr => step_invitesFairly h hbooks hs hr⟩

theorem Fairly.enough (h : Fairly env w) (hs : w.step env a = some w') :
    EnoughInvited env ⟨w, a, w'⟩ := by
  intro r record' method gate hr hmethod hgate
  constructor
  · intro hpassed hverdict
    obtain ⟨inp, record, st, _, hrecord, hposition, hrun, hruns⟩ := passedNode_some hs hpassed
    obtain rfl : record.passed .approachGate st = record' := by
      rw [hruns, RunStore.put_self] at hr
      exact Option.some.inj hr
    have hinvites := h.runs r record hrecord
    obtain ⟨names, hrows, hfair⟩ := hinvites.candidates
    have hcopies := runNode_suppliers hrun (by decide)
    have hvalue := runNode_value hrun (by decide)
    obtain ⟨method', hmethod', hverdict', _⟩ := approachGateNode_case hrun
    obtain rfl : method' = method := by
      have hmethod : env.rules.selectMethod st.estimatedValueMinor = .ok method := hmethod
      rw [hvalue, hmethod'] at hmethod
      exact Except.ok.inj hmethod
    obtain rfl : approachVerdict env record.state method' = gate := by
      have hverdict : st.approachGate = some gate := hverdict
      rw [hverdict'] at hverdict
      exact Option.some.inj hverdict
    show Competes (invitedNames env st.supplierCandidates) _
    rw [hcopies.candidates, hrows, invitedNames_supplierRows]
    have hcount := approachGate_count hgate
    have hplanned := hinvites.planned
    rw [hrows, supplierRows, List.length_map] at hplanned
    exact hfair.fair.competes hfair.named (selectMethod_mem hmethod') (by omega)
  · intro hpassed hverdict
    obtain ⟨inp, record, st, _, hrecord, hposition, hrun, hruns⟩ := passedNode_some hs hpassed
    obtain rfl : record.passed .packageGate st = record' := by
      rw [hruns, RunStore.put_self] at hr
      exact Option.some.inj hr
    have hinvites := h.runs r record hrecord
    obtain ⟨names, hrows, hfair⟩ := hinvites.candidates
    have hvalue := runNode_value hrun (by decide)
    obtain ⟨method', hmethod', hverdict', _⟩ := packageGateNode_case hrun
    obtain rfl : method' = method := by
      have hmethod : env.rules.selectMethod st.estimatedValueMinor = .ok method := hmethod
      rw [hvalue, hmethod'] at hmethod
      exact Except.ok.inj hmethod
    obtain rfl : packageVerdict env inp record.state method' = gate := by
      have hverdict : st.packageGate = some gate := hverdict
      rw [hverdict'] at hverdict
      exact Option.some.inj hverdict
    have hcount := solicitationGate_count hgate
    have hkept : st.shortlist = record.state.shortlist := packageGate_shortlist hrun
    show Competes (invitedNames env st.shortlist) _
    rw [hkept]
    rcases hinvites.shortlist with hnil | hcopy
    · -- nobody is invited where nobody is asked for
      rw [hnil] at hcount ⊢
      exact ⟨[], List.nodup_nil, fun _ hmem => absurd hmem List.not_mem_nil, hcount⟩
    · have hnames : invitedNames env record.state.shortlist = names := by
        rw [hcopy, hrows, invitedNames_shortlistOf hfair.named]
      have hlen : record.state.shortlist.length = names.length := by
        rw [← hnames, invitedNames, List.length_map]
      rw [hnames]
      exact hfair.fair.competes hfair.named (selectMethod_mem hmethod') (by omega)

end

/-- **Main theorem**: in every run whose amendments reach no minimum by
    repeating a name, every gate that passes has its minimum of suppliers. -/
theorem enough_invited {env : Env} {es : List (Event World Action)} {w : World}
    (hrun : Exec (preparation env) es w) (hok : ∀ e ∈ es, AmendsFairly env e) :
    ∀ e ∈ es, EnoughInvited env e := by
  have hevents : ∀ e ∈ es, (Bookkeeping env e.pre ∧ Fairly env e.pre) ∧
      (preparation env).step e.pre e.act = some e.post :=
    hrun.pre_of (P := fun w => Bookkeeping env w ∧ Fairly env w)
      (fun _ hw => ⟨bookkeeping_init hw, .initial hw⟩)
      (fun _ _ _ h hs hfair => ⟨bookkeeping_step h.1 hs, h.2.step h.1 hs hfair⟩) hok
  intro e he
  obtain ⟨⟨_, hfairly⟩, hs⟩ := hevents e he
  exact hfairly.enough hs

namespace Office

def threeEnv : Env :=
  { env with
    rules := { env.rules with
      methods :=
        [{ key := "rfq", label := "Chào giá cạnh tranh", maxValue := none, minSuppliers := 3 }] } }

theorem three_init : (preparation threeEnv).init opened := by
  obtain ⟨first, cmd, hcreate, hrest⟩ := opened_init
  exact ⟨first, cmd, hcreate, hrest⟩

def amendedSuppliersRun (names : List String) : List Action :=
  [.handle (call binh) (.verifyIntake "PR-1" "đủ hồ sơ"),
    .amend (call an) { supplierNames := some names }, .withdraw [],
    .start (call an) .manual run] ++ List.replicate 5 (.node run nodeInput)

def passesCp1 (e : Event World Action) : Bool :=
  passedNode .approachGate e == some run && match e.post.runs run with
    | some record => (record.state.approachGate.map (·.passed)).getD false
    | none => false

/-- Three suppliers are named, and the gate passes. -/
theorem three_suppliers : ∃ es w, Exec (preparation threeEnv) es w ∧
    (∃ e ∈ es, passesCp1 e = true) ∧ ∀ e ∈ es, EnoughInvited threeEnv e := by
  have hruns : (preparation threeEnv).runs opened
      (amendedSuppliersRun ["Minh Long", "An Phát", "Hòa Bình"])
      (fun es _ => es.any passesCp1 && decide (∀ e ∈ es, AmendsFairly threeEnv e)) = true := by
    decide +kernel
  obtain ⟨es, w, hrun, htest⟩ := Machine.exec_of_runs three_init hruns
  simp only [Bool.and_eq_true, decide_eq_true_eq] at htest
  obtain ⟨hpassed, hfair⟩ := htest
  exact ⟨es, w, hrun, List.any_eq_true.mp hpassed, enough_invited hrun hfair⟩

def outnumbered (e : Event World Action) : Bool :=
  passedNode .approachGate e == some run && match e.post.runs run with
    | some record =>
      (record.state.approachGate.map (·.passed)).getD false &&
        match threeEnv.rules.selectMethod record.state.estimatedValueMinor with
        | .ok method =>
          (invitedNames threeEnv record.state.supplierCandidates).dedup.length <
            method.minSuppliers
        | .error _ => false
    | none => false

/-- One supplier is named three times, and the gate that asks for three passes. -/
theorem one_supplier_thrice : ¬ ∀ (env : Env) (es : List (Event World Action)) (w : World),
    Exec (preparation env) es w → ∀ e ∈ es, EnoughInvited env e := by
  intro hall
  have hruns : (preparation threeEnv).runs opened
      (amendedSuppliersRun ["Minh Long", "Minh Long", "Minh Long "])
      (fun es _ => es.any outnumbered) = true := by
    decide +kernel
  obtain ⟨es, w, hrun, htest⟩ := Machine.exec_of_runs three_init hruns
  obtain ⟨e, he, htest⟩ := List.any_eq_true.mp htest
  simp only [outnumbered, Bool.and_eq_true, beq_iff_eq] at htest
  obtain ⟨hpassed, htest⟩ := htest
  split at htest
  · next record hrecord =>
    rw [Bool.and_eq_true] at htest
    obtain ⟨hverdict, htest⟩ := htest
    split at htest
    · next method hmethod =>
      cases hgate : record.state.approachGate with
      | none => simp [hgate] at hverdict
      | some gate =>
        simp only [hgate, Option.map_some, Option.getD_some] at hverdict
        have hcompetes :=
          (hall threeEnv es w hrun e he run record method gate hrecord hmethod hverdict).1
            hpassed hgate
        have hle := hcompetes.le_dedup
        simp only [decide_eq_true_eq] at htest
        omega
    · cases htest
  · cases htest

end Office

end DigitalWorker
