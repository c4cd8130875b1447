import DigitalWorker.Evaluation.Frames

/-! # Who is judged, and who is recommended

    One analysis of one case, from the intake of its documents to the gate. The
    suppliers that bid are those with a submission; the engine scores whatever
    names the findings of the model carry.
-/

namespace DigitalWorker.Evaluation

/-! ## An analysis -/

section

variable (svc : TenderServices) (rc : RunContext) (inputs : TenderNode → NodeInput)

def stage (p : TenderState × Stores) (n : TenderNode) : Except Error (TenderState × Stores) :=
  match runTenderNode svc rc (inputs n) n p.1 p.2 with
  | (s, .ok st) => .ok (st, s)
  | (_, .error e) => .error e

def nodesBeforeGate : List TenderNode :=
  [.intakeCase, .parseDocuments, .classifyDocuments, .extractRequirements,
    .buildRequirementMatrix, .retrievePoliciesAndHistory, .extractSupplierResponses,
    .scoreCompliance, .identifyGapsAndRisks, .draftRecommendation]

def analyse (s : Stores) : Except Error (TenderState × Stores) :=
  nodesBeforeGate.foldlM (stage svc rc inputs) ({}, s)

end

def bidders (documents : List TenderDocument) : List String :=
  (documents.filter (fun d => d.kind == .supplierSubmission)).filterMap (·.supplierName)

/-! ## The property and the condition -/

structure JudgesBidders (bidders : List String) (outcome : GateOutcome) : Prop where
  real : ∀ name, outcome.topSupplier = some name → name ∈ bidders
  everyone : ∀ name ∈ bidders, (outcome.scores.map (·.supplierName)).count name = 1

def TenderDb.scoreOf (policy : ScoringPolicy) (db : TenderDb) (name : String) : SupplierScore :=
  scoreSupplier policy name (db.listRequirements.toOption.getD []) db.listFindings

/-- **The condition**, on what the gate finds: the model said something about
    every bidder, and no supplier that it made up is eligible before all
    eligible bidders. -/
structure BiddersLead (policy : ScoringPolicy) (bidders : List String) (st : TenderState)
    (db : TenderDb) : Prop where
  assessed : ∀ name ∈ bidders, ∃ f ∈ st.assessedFindings, f.supplierName = name
  strangers : ∀ f ∈ st.assessedFindings, f.supplierName ∉ bidders →
    (db.scoreOf policy f.supplierName).eligible = true →
    ∃ g ∈ st.assessedFindings, g.supplierName ∈ bidders ∧
      (db.scoreOf policy g.supplierName).eligible = true ∧
      ranksBefore (db.scoreOf policy g.supplierName) (db.scoreOf policy f.supplierName)

/-! ## What the gate reads -/

section

variable {svc : TenderServices} {rc : RunContext} {inputs : TenderNode → NodeInput}
  {inp : NodeInput} {s s' : Stores} {st st' : TenderState}

theorem stage_ok {n : TenderNode} : stage svc rc inputs (st, s) n = .ok (st', s') ↔
    runTenderNode svc rc (inputs n) n st s = (s', .ok st') := by
  unfold stage
  split
  · next s₁ st₁ h => simp [h, and_comm]
  · next s₁ e h => simp [h]

def SameNames (st : TenderState) (db : TenderDb) : Prop :=
  ∀ name, (∃ f ∈ db.findings, f.supplierName = name) ↔
    ∃ f ∈ st.assessedFindings, f.supplierName = name

theorem scoreCompliance_names (h : scoreCompliance svc inp st s = .ok (st', s')) :
    SameNames st' s'.db := by
  obtain ⟨rfl, rfl⟩ := scoreCompliance_ok h
  intro name
  constructor
  · rintro ⟨f, hf, rfl⟩
    obtain ⟨g, hg, rfl⟩ := List.mem_map.mp hf
    obtain ⟨⟨a, i⟩, ha, rfl⟩ := List.mem_map.mp hg
    exact ⟨a, (List.mem_zipIdx' ha).2 ▸ List.getElem_mem _, rfl⟩
  · rintro ⟨a, ha, rfl⟩
    obtain ⟨i, hi, rfl⟩ := List.getElem_of_mem ha
    refine ⟨_, List.mem_map.mpr ⟨_, List.mem_map.mpr ⟨(st.assessedFindings[i], i), ?_, rfl⟩, rfl⟩,
      rfl⟩
    exact List.mk_mem_zipIdx_iff_getElem?.mpr (List.getElem?_eq_getElem hi)

theorem analyse_names {s₀ : Stores} (h : analyse svc rc inputs s₀ = .ok (st, s)) :
    SameNames st s.db := by
  have hsplit : nodesBeforeGate =
      [.intakeCase, .parseDocuments, .classifyDocuments, .extractRequirements,
        .buildRequirementMatrix, .retrievePoliciesAndHistory, .extractSupplierResponses] ++
      [.scoreCompliance, .identifyGapsAndRisks, .draftRecommendation] := rfl
  rw [analyse, hsplit, List.foldlM_append, bind_ok] at h
  obtain ⟨⟨st₁, s₁⟩, _, h⟩ := h
  simp only [List.foldlM_cons, List.foldlM_nil, bind_ok] at h
  obtain ⟨⟨st₂, s₂⟩, hscore, ⟨st₃, s₃⟩, hrisks, ⟨st₄, s₄⟩, hdraft, hlast⟩ := h
  obtain ⟨rfl, rfl⟩ := Prod.mk.inj (Except.ok.inj hlast)
  have hscored := committed_ok.mp (stage_ok.mp hscore)
  have hnames := scoreCompliance_names hscored
  -- the two nodes after it touch neither the findings nor the names
  have hran : (s₂, identifyGapsAndRisks _ st₂ s₂) = (s₃, .ok st₃) := stage_ok.mp hrisks
  have hran' : (s₃, draftRecommendation _ st₃) = (s₄, .ok st₄) := stage_ok.mp hdraft
  obtain ⟨rfl, hgaps⟩ := Prod.mk.inj hran
  obtain ⟨rfl, hdrafted⟩ := Prod.mk.inj hran'
  obtain ⟨risks, rfl⟩ := identifyGapsAndRisks_ok hgaps
  obtain ⟨draft, rfl⟩ := draftRecommendation_ok hdrafted
  exact hnames

end

/-! ## Judging -/

section

variable {policy : ScoringPolicy} {requirements : List Requirement}
  {findings : List ComplianceFinding} {draft : Option String} {outcome : GateOutcome}
  {names : List String}

theorem everyone_iff (h : evaluate policy requirements findings draft = .ok outcome) :
    (∀ name ∈ names, (outcome.scores.map (·.supplierName)).count name = 1) ↔
      ∀ name ∈ names, ∃ f ∈ findings, f.supplierName = name := by
  constructor
  · intro hcount name hname
    have hone := hcount name hname
    rw [scores_count h] at hone
    by_contra hnone
    rw [if_neg hnone] at hone
    omega
  · intro hnamed name hname
    rw [scores_count h, if_pos (hnamed name hname)]

theorem real_iff (h : evaluate policy requirements findings draft = .ok outcome) :
    (∀ name, outcome.topSupplier = some name → name ∈ names) ↔
      ∀ f ∈ findings, f.supplierName ∉ names →
        (scoreSupplier policy f.supplierName requirements findings).eligible = true →
        ∃ g ∈ findings, g.supplierName ∈ names ∧
          (scoreSupplier policy g.supplierName requirements findings).eligible = true ∧
          ranksBefore (scoreSupplier policy g.supplierName requirements findings)
            (scoreSupplier policy f.supplierName requirements findings) := by
  constructor
  · intro hreal f hf _ heligible
    have hmem := (mem_scores h).mpr ⟨f, hf, rfl⟩
    -- somebody is on top, and that is a bidder
    obtain ⟨name, htop⟩ := evaluate_top_isSome h hmem heligible
    obtain ⟨t, ht, rfl, hte, hfirst⟩ := (evaluate_top h).mp htop
    obtain ⟨g, hg, rfl⟩ := (mem_scores h).mp ht
    exact ⟨g, hg, hreal _ htop, hte, hfirst _ hmem heligible⟩
  · intro hstrangers name htop
    obtain ⟨t, ht, rfl, hte, hfirst⟩ := (evaluate_top h).mp htop
    obtain ⟨f, hf, rfl⟩ := (mem_scores h).mp ht
    by_contra hstranger
    obtain ⟨g, hg, hbidder, hge, hbefore⟩ := hstrangers f hf hstranger hte
    have hsame := ranksBefore_antisymm (hfirst _ ((mem_scores h).mpr ⟨g, hg, rfl⟩) hge) hbefore
    apply hstranger
    show f.supplierName ∈ names
    rw [show f.supplierName = g.supplierName from hsame]
    exact hbidder

end

/-- **Main theorem**: the analysis of a case judges exactly its bidders if and
    only if the model names every bidder and no stranger leads. -/
theorem judges_bidders_iff (svc : TenderServices) (rc : RunContext)
    (inputs : TenderNode → NodeInput) {s₀ s s' : Stores} {st st' : TenderState}
    (hanalyse : analyse svc rc inputs s₀ = .ok (st, s))
    (hgate : deterministicComplianceGate svc (inputs .deterministicComplianceGate) st s =
      .ok (st', s')) :
    (∃ outcome, st'.gateResult = some outcome ∧
      JudgesBidders (bidders s₀.db.documents) outcome) ↔
    BiddersLead svc.policy (bidders s₀.db.documents) st s.db := by
  obtain ⟨requirements, outcome, hrequirements, houtcome, rfl, rfl⟩ := gate_ok hgate
  have hnames := analyse_names hanalyse
  have hlisted : ∀ name, (∃ f ∈ s.db.listFindings, f.supplierName = name) ↔
      ∃ f ∈ st.assessedFindings, f.supplierName = name := by
    intro name
    rw [← hnames name]
    simp only [TenderDb.mem_listFindings]
  have hscore : ∀ name, s.db.scoreOf svc.policy name =
      scoreSupplier svc.policy name requirements s.db.listFindings := by
    intro name
    rw [TenderDb.scoreOf, hrequirements]
    rfl
  constructor
  · rintro ⟨_, hresult, hreal, heveryone⟩
    obtain rfl := Option.some.inj hresult
    refine ⟨fun name hname => (hlisted name).mp ((everyone_iff houtcome).mp heveryone name hname),
      ?_⟩
    intro f hf hstranger heligible
    rw [hscore] at heligible
    obtain ⟨f', hf', hname⟩ := (hlisted f.supplierName).mpr ⟨f, hf, rfl⟩
    rw [← hname] at hstranger heligible
    obtain ⟨g, hg, hbidder, hge, hbefore⟩ :=
      (real_iff houtcome).mp hreal f' hf' hstranger heligible
    obtain ⟨g', hg', hname'⟩ := (hlisted g.supplierName).mp ⟨g, hg, rfl⟩
    refine ⟨g', hg', ?_, ?_, ?_⟩
    · rw [hname']
      exact hbidder
    · rw [hscore, hname']
      exact hge
    · rw [hscore, hscore, hname', ← hname]
      exact hbefore
  · intro hlead
    refine ⟨outcome, rfl, ?_, ?_⟩
    · apply (real_iff houtcome).mpr
      intro f hf hstranger heligible
      obtain ⟨f', hf', hname⟩ := (hlisted f.supplierName).mp ⟨f, hf, rfl⟩
      rw [← hname] at hstranger
      obtain ⟨g, hg, hbidder, hge, hbefore⟩ :=
        hlead.strangers f' hf' hstranger (by rw [hscore, hname]; exact heligible)
      obtain ⟨g', hg', hname'⟩ := (hlisted g.supplierName).mpr ⟨g, hg, rfl⟩
      rw [hscore] at hge
      rw [hscore, hscore] at hbefore
      refine ⟨g', hg', ?_, ?_, ?_⟩
      · rw [hname']
        exact hbidder
      · rw [hname']
        exact hge
      · rw [hname', ← hname]
        exact hbefore
    · apply (everyone_iff houtcome).mpr
      intro name hname
      exact (hlisted name).mpr (hlead.assessed name hname)

/-! ## A misspelt name

    One bidder, Minh Long, and a model that may call him Minh Lon. -/

namespace Tender

def gateway : Knowledge.Gateway :=
  { uuid5 := fun name => ⟨"uuid5:" ++ name, by simp⟩, sha256 := id, embed := fun _ => [], uriOf := id
    structureAwareChunks := fun text => [⟨0, 0, "", 0, text.length, text⟩] }

def services : TenderServices :=
  { policy := { policyVersion := "1" }, gateway := gateway, forms := ⟨id, id⟩, sha256 := id
    tenantId := { text := "tenant" }, workspaceId := { text := "workspace" } }

def run : RunContext := { runId := { text := "run" }, actorId := { text := "an" } }

def rfq : TenderDocument :=
  { id := { text := "d1" }, caseId := { text := "case" }, kind := .rfq, title := "Hồ sơ mời thầu"
    storageKey := "d1", contentHash := "", submitted := by decide }

def submission : TenderDocument :=
  { id := { text := "d2" }, caseId := { text := "case" }, kind := .supplierSubmission, title := "Hồ sơ dự thầu"
    storageKey := "d2", contentHash := "", supplierName := some "Minh Long"
    submitted := by decide +kernel }

def start : Stores :=
  { db := {
      case := { id := { text := "case" }, title := "Máy chủ", createdBy := { text := "an" }, titled := by decide +kernel }
      documents := [rfq, submission] } }

theorem req01_coded : startsWith "REQ-01" "REQ-" = true ∧ "REQ-01".length = 6 := by
  decide +kernel

theorem ninety_in_range : (0 : ℚ) ≤ 90 ∧ (90 : ℚ) ≤ 100 := by norm_num

theorem eighty_in_range : (0 : ℚ) ≤ 80 ∧ (80 : ℚ) ≤ 100 := by norm_num

theorem minhLong_named : "Minh Long" ≠ "" := by decide

def priced : ExtractedRequirement :=
  { code := "REQ-01", statement := "Giá dự thầu", kind := .weighted, weight := 1
    coded := req01_coded, stated := by decide, inRange := by decide +kernel }

def misspelt : AssessedFinding :=
  { supplierName := "Minh Lon", requirementCode := "REQ-01", claimedCompliant := true
    rawScore := 90, named := by decide, coded := req01_coded, inRange := ninety_in_range }

def spelt : AssessedFinding :=
  { supplierName := "Minh Long", requirementCode := "REQ-01", claimedCompliant := true
    rawScore := 80, named := minhLong_named, coded := req01_coded, inRange := eighty_in_range }

def answers (findings : List AssessedFinding) (draft : RecommendationDraft) : NodeInput :=
  { newId := fun i => ⟨"id" ++ toString i, by simp⟩, objectText := fun key => .ok key
    extracted := .ok [priced], assessment := .ok findings, draft := .ok draft
    putObject := fun key => .ok key }

def draftOf (name : String) (named : name ≠ "") : RecommendationDraft :=
  { recommendedSupplier := name, rationale := "Giá tốt nhất", confidence := 1
    named := named, argued := by decide, inRange := by decide +kernel }

def judged (findings : List AssessedFinding) (draft : RecommendationDraft) :
    Except Error TenderState := do
  let (st, s) ← analyse services run (fun _ => answers findings draft) start
  let (st, _) ← deterministicComplianceGate services (answers findings draft) st s
  return st

def named (findings : List AssessedFinding) (draft : RecommendationDraft) :
    Option (Option String × List String) :=
  (judged findings draft).toOption.bind (fun st => st.gateResult.map (fun outcome =>
    (outcome.topSupplier, outcome.scores.map (·.supplierName))))

theorem judged_of_named {findings : List AssessedFinding} {draft : RecommendationDraft}
    {top : Option String} {names : List String}
    (h : named findings draft = some (top, names)) : ∃ st s st' s' outcome,
      analyse services run (fun _ => answers findings draft) start = .ok (st, s) ∧
      deterministicComplianceGate services (answers findings draft) st s = .ok (st', s') ∧
      st'.gateResult = some outcome ∧ outcome.topSupplier = top ∧
      outcome.scores.map (·.supplierName) = names := by
  rw [named, Option.bind_eq_some_iff] at h
  obtain ⟨st', hjudged, h⟩ := h
  obtain ⟨outcome, hresult, h⟩ := Option.map_eq_some_iff.mp h
  obtain ⟨htop, hnames⟩ := Prod.mk.inj h
  cases hrun : judged findings draft with
  | error e =>
    rw [hrun] at hjudged
    cases hjudged
  | ok st'' =>
    rw [hrun] at hjudged
    obtain rfl := Option.some.inj hjudged
    simp only [judged, bind_ok] at hrun
    obtain ⟨⟨st, s⟩, hanalyse, ⟨st₁, s'⟩, hgate, hlast⟩ := hrun
    obtain rfl := Except.ok.inj hlast
    exact ⟨st, s, st₁, s', outcome, hanalyse, hgate, hresult, htop, hnames⟩

theorem bidders_start : bidders start.db.documents = ["Minh Long"] := by decide +kernel

theorem named_spelt : named [spelt] (draftOf "Minh Long" (by decide)) =
    some (some "Minh Long", ["Minh Long"]) := by
  decide +kernel

theorem named_misspelt : named [misspelt] (draftOf "Minh Lon" (by decide)) =
    some (some "Minh Lon", ["Minh Lon"]) := by
  decide +kernel

end Tender

/-- Where the model spells the name, its bidder leads. -/
theorem spelt_leads : ∃ st s,
    analyse Tender.services Tender.run (fun _ => Tender.answers [Tender.spelt]
      (Tender.draftOf "Minh Long" (by decide))) Tender.start = .ok (st, s) ∧
    BiddersLead Tender.services.policy (bidders Tender.start.db.documents) st s.db := by
  obtain ⟨st, s, st', s', outcome, hanalyse, hgate, hresult, htop, hnames⟩ :=
    Tender.judged_of_named Tender.named_spelt
  refine ⟨st, s, hanalyse, (judges_bidders_iff _ _ _ hanalyse hgate).mp ⟨outcome, hresult, ?_⟩⟩
  rw [Tender.bidders_start]
  constructor
  · intro name hname
    rw [htop] at hname
    exact List.mem_singleton.mpr (Option.some.inj hname).symm
  · intro name hname
    rw [hnames, List.mem_singleton.mp hname]
    decide

/-- A supplier that never bid is recommended, and the bidder is not in the
    table. -/
theorem typo_recommended : ∃ st s st' s' outcome,
    analyse Tender.services Tender.run (fun _ => Tender.answers [Tender.misspelt]
      (Tender.draftOf "Minh Lon" (by decide))) Tender.start = .ok (st, s) ∧
    deterministicComplianceGate Tender.services (Tender.answers [Tender.misspelt]
      (Tender.draftOf "Minh Lon" (by decide))) st s = .ok (st', s') ∧
    st'.gateResult = some outcome ∧ outcome.topSupplier = some "Minh Lon" ∧
    "Minh Lon" ∉ bidders Tender.start.db.documents ∧
    "Minh Long" ∈ bidders Tender.start.db.documents ∧
    "Minh Long" ∉ outcome.scores.map (·.supplierName) ∧
    ¬ JudgesBidders (bidders Tender.start.db.documents) outcome := by
  obtain ⟨st, s, st', s', outcome, hanalyse, hgate, hresult, htop, hnames⟩ :=
    Tender.judged_of_named Tender.named_misspelt
  have hstranger : "Minh Lon" ∉ bidders Tender.start.db.documents := by
    rw [Tender.bidders_start]
    decide
  refine ⟨st, s, st', s', outcome, hanalyse, hgate, hresult, htop, hstranger, ?_, ?_, ?_⟩
  · rw [Tender.bidders_start]
    decide
  · rw [hnames]
    decide
  · intro hjudges
    exact hstranger (hjudges.real _ htop)

end DigitalWorker.Evaluation
