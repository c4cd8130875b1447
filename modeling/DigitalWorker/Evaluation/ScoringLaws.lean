import DigitalWorker.Evaluation.Scoring
import Mathlib.Algebra.BigOperators.Group.List.Basic
import Mathlib.Algebra.Order.BigOperators.Group.List
import Mathlib.Algebra.Order.Field.Basic
import Mathlib.Data.List.Perm.Basic

/-! # Laws of the scoring engine

    Who may be on top, that the order of the lists does not matter, and that a
    higher raw score never hurts. Of the whole outcome only one thing follows the
    order of the requirements: the list of a supplier's violations.
-/

namespace DigitalWorker.Evaluation

section

variable {policy : ScoringPolicy} {requirements requirements' : List Requirement}
  {findings findings' : List ComplianceFinding} {draft : Option String}

/-! ## One finding about a requirement -/

def ComplianceFinding.key (f : ComplianceFinding) : String × String :=
  (f.supplierName, f.requirementCode)

def OnePerRequirement (findings : List ComplianceFinding) : Prop :=
  (findings.map ComplianceFinding.key).Nodup

instance : Decidable (OnePerRequirement findings) :=
  inferInstanceAs (Decidable (findings.map ComplianceFinding.key).Nodup)

theorem findingFor_some (hone : OnePerRequirement findings) {name code : String}
    {f : ComplianceFinding} : findingFor findings name code = some f ↔
      f ∈ findings ∧ f.supplierName = name ∧ f.requirementCode = code := by
  unfold findingFor
  constructor
  · intro h
    have htest := List.find?_some h
    rw [Bool.and_eq_true, beq_iff_eq, beq_iff_eq] at htest
    exact ⟨List.mem_reverse.mp (List.mem_of_find?_eq_some h), htest⟩
  · rintro ⟨hf, rfl, rfl⟩
    have hsome : (findings.reverse.find? (fun g => g.supplierName == f.supplierName &&
        g.requirementCode == f.requirementCode)).isSome = true := by
      rw [List.find?_isSome]
      exact ⟨f, List.mem_reverse.mpr hf, by simp⟩
    obtain ⟨g, hg⟩ := Option.isSome_iff_exists.mp hsome
    have htest := List.find?_some hg
    rw [Bool.and_eq_true, beq_iff_eq, beq_iff_eq] at htest
    have hmem : g ∈ findings := List.mem_reverse.mp (List.mem_of_find?_eq_some hg)
    have hkey : g.key = f.key := Prod.ext htest.1 htest.2
    rw [hg, List.inj_on_of_nodup_map hone hmem hf hkey]

theorem findingFor_perm (hone : OnePerRequirement findings) (h : findings.Perm findings') :
    findingFor findings = findingFor findings' := by
  have hone' : OnePerRequirement findings' := (h.map _).nodup_iff.mp hone
  funext name code
  ext f
  rw [findingFor_some hone, findingFor_some hone', h.mem_iff]

/-! ## Order -/

theorem validateRequirements_perm (h : requirements.Perm requirements') :
    validateRequirements requirements = validateRequirements requirements' := by
  have hweighted := h.filter (fun r => r.kind == .weighted)
  have hempty : (requirements.filter (fun r => r.kind == .weighted)).isEmpty =
      (requirements'.filter (fun r => r.kind == .weighted)).isEmpty := by
    rw [Bool.eq_iff_iff, List.isEmpty_iff_length_eq_zero, List.isEmpty_iff_length_eq_zero,
      hweighted.length_eq]
  unfold validateRequirements
  dsimp only
  rw [(hweighted.map _).sum_eq, hempty]

theorem weightedTotal_perm (h : requirements.Perm requirements') (name : String) :
    weightedTotal name requirements findings = weightedTotal name requirements' findings :=
  ((h.filter _).map _).sum_eq

theorem mandatoryViolations_perm (h : requirements.Perm requirements') (name : String) :
    (mandatoryViolations policy name requirements findings).Perm
      (mandatoryViolations policy name requirements' findings) :=
  (h.filter _).filterMap _

theorem suppliersOf_perm (h : findings.Perm findings') :
    suppliersOf findings = suppliersOf findings' := by
  unfold suppliersOf
  apply List.Perm.eq_of_pairwise' (List.pairwise_insertionSort _ _) (List.pairwise_insertionSort _ _)
  exact ((List.perm_insertionSort _ _).trans (h.map _).dedup).trans
    (List.perm_insertionSort _ _).symm

theorem evaluate_total (hvalid : validateRequirements requirements = .ok ()) :
    ∃ outcome, evaluate policy requirements findings draft = .ok outcome := by
  unfold evaluate
  rw [hvalid]
  exact ⟨_, rfl⟩

structure SameScore (s t : SupplierScore) : Prop where
  supplierName : s.supplierName = t.supplierName
  totalScore : s.totalScore = t.totalScore
  mandatoryPassed : s.mandatoryPassed = t.mandatoryPassed
  eligible : s.eligible = t.eligible
  violations : s.violations.Perm t.violations

theorem SameScore.ranksBefore {s s' t t' : SupplierScore} (hs : SameScore s s')
    (ht : SameScore t t') : Evaluation.ranksBefore s t ↔ Evaluation.ranksBefore s' t' := by
  unfold Evaluation.ranksBefore
  rw [hs.totalScore, ht.totalScore, hs.supplierName, ht.supplierName]

theorem scoreSupplier_perm (h : requirements.Perm requirements') (name : String) :
    SameScore (scoreSupplier policy name requirements findings)
      (scoreSupplier policy name requirements' findings) := by
  have hmandatory : (mandatoryViolations policy name requirements findings).Perm
      (mandatoryViolations policy name requirements' findings) := mandatoryViolations_perm h name
  have hempty : (mandatoryViolations policy name requirements findings).isEmpty =
      (mandatoryViolations policy name requirements' findings).isEmpty := by
    rw [Bool.eq_iff_iff, List.isEmpty_iff_length_eq_zero, List.isEmpty_iff_length_eq_zero,
      hmandatory.length_eq]
  have htotal : weightedTotal name requirements findings =
      weightedTotal name requirements' findings := weightedTotal_perm h name
  exact
    { supplierName := rfl
      totalScore := by
        show quantize _ _ = quantize _ _
        rw [htotal]
      mandatoryPassed := hempty
      eligible := by
        unfold scoreSupplier
        dsimp only
        rw [htotal, hempty]
      violations := by
        unfold scoreSupplier
        dsimp only
        rw [htotal]
        exact hmandatory.append_right _ }

theorem top_of_findings {outcome : GateOutcome}
    (h : evaluate policy requirements findings draft = .ok outcome) {name : String} :
    outcome.topSupplier = some name ↔
      (∃ f ∈ findings, f.supplierName = name) ∧
      (scoreSupplier policy name requirements findings).eligible = true ∧
      ∀ f ∈ findings,
        (scoreSupplier policy f.supplierName requirements findings).eligible = true →
          ranksBefore (scoreSupplier policy name requirements findings)
            (scoreSupplier policy f.supplierName requirements findings) := by
  rw [evaluate_top h]
  constructor
  · intro ⟨s, hs, hname, heligible, hfirst⟩
    obtain ⟨f, hf, rfl⟩ := (mem_scores h).mp hs
    obtain rfl : f.supplierName = name := hname
    exact ⟨⟨f, hf, rfl⟩, heligible, fun g hg => hfirst _ ((mem_scores h).mpr ⟨g, hg, rfl⟩)⟩
  · intro ⟨⟨f, hf, hname⟩, heligible, hfirst⟩
    subst hname
    have hmem := (mem_scores h).mpr ⟨f, hf, rfl⟩
    refine ⟨_, hmem, rfl, heligible, fun t ht hte => ?_⟩
    obtain ⟨g, hg, rfl⟩ := (mem_scores h).mp ht
    exact hfirst g hg hte

structure SameOutcome (outcome outcome' : GateOutcome) : Prop where
  scores : List.Forall₂ SameScore outcome.scores outcome'.scores
  topSupplier : outcome.topSupplier = outcome'.topSupplier
  gatePassed : outcome.gatePassed = outcome'.gatePassed
  violations : outcome.violations = outcome'.violations

theorem gate_of_top {outcome outcome' : GateOutcome}
    (h : evaluate policy requirements findings draft = .ok outcome)
    (h' : evaluate policy requirements' findings' draft = .ok outcome')
    (htop : outcome.topSupplier = outcome'.topSupplier) :
    outcome.violations = outcome'.violations ∧ outcome.gatePassed = outcome'.gatePassed := by
  rw [evaluate, bind_ok] at h h'
  obtain ⟨_, -, h⟩ := h
  obtain ⟨_, -, h'⟩ := h'
  obtain rfl := Except.ok.inj h
  obtain rfl := Except.ok.inj h'
  dsimp only at htop ⊢
  rw [htop]
  exact ⟨rfl, rfl⟩

/-- **Order**: another order of the requirements and of the findings changes at
    most the order in which a supplier's violations are listed. -/
theorem evaluate_perm {outcome outcome' : GateOutcome} (hone : OnePerRequirement findings)
    (hr : requirements.Perm requirements') (hf : findings.Perm findings')
    (h : evaluate policy requirements findings draft = .ok outcome)
    (h' : evaluate policy requirements' findings' draft = .ok outcome') :
    SameOutcome outcome outcome' := by
  have hfinding := findingFor_perm hone hf
  -- the order of the findings is gone as soon as each is looked up by its key
  have hscore : ∀ name, SameScore (scoreSupplier policy name requirements findings)
      (scoreSupplier policy name requirements' findings') := by
    intro name
    have hsame : scoreSupplier policy name requirements' findings' =
        scoreSupplier policy name requirements' findings := by
      unfold scoreSupplier mandatoryViolations weightedTotal contribution
      rw [hfinding]
    rw [hsame]
    exact scoreSupplier_perm hr name
  have htop : outcome.topSupplier = outcome'.topSupplier := by
    ext name
    rw [top_of_findings h, top_of_findings h']
    simp only [hf.mem_iff, (hscore _).eligible, (hscore _).ranksBefore (hscore _)]
  obtain ⟨hviolations, hgate⟩ := gate_of_top h h' htop
  apply SameOutcome.mk _ htop hgate hviolations
  rw [(evaluate_ok h).2.1, (evaluate_ok h').2.1, suppliersOf_perm hf, List.forall₂_map_left_iff,
    List.forall₂_map_right_iff, List.forall₂_same]
  exact fun name _ => hscore name

/-- **Fail-closed**: whoever is on top has a compliant finding with evidence for
    every mandatory requirement. -/
theorem top_is_fit {outcome : GateOutcome} (hevidence : policy.requireEvidenceForMandatory = true)
    (hdisqualify : policy.disqualifyOnMandatoryFail = true) (hone : OnePerRequirement findings)
    (h : evaluate policy requirements findings draft = .ok outcome) {name : String}
    (htop : outcome.topSupplier = some name) :
    (∀ r ∈ requirements, r.kind = .mandatory → ∃ f ∈ findings, f.supplierName = name ∧
      f.requirementCode = r.code ∧ f.status = .compliant ∧ f.evidence ≠ []) ∧
    ∃ s ∈ outcome.scores, s.supplierName = name ∧ s.eligible = true ∧
      policy.minTotalScore ≤ s.totalScore ∧
      ∀ t ∈ outcome.scores, t.eligible = true → t.totalScore ≤ s.totalScore := by
  obtain ⟨s, hs, hname, heligible, hfirst⟩ := (evaluate_top h).mp htop
  obtain ⟨f, -, hscore⟩ := (mem_scores h).mp hs
  have hf : f.supplierName = name := by
    rw [hscore] at hname
    exact hname
  rw [hf] at hscore
  have hboth := heligible
  rw [hscore] at hboth
  simp only [scoreSupplier, hdisqualify, Bool.true_and, Bool.not_not, Bool.and_eq_true,
    Bool.not_eq_true', decide_eq_false_iff_not, not_lt, List.isEmpty_iff] at hboth
  obtain ⟨hmin, hclean⟩ := hboth
  constructor
  · intro r hr hkind
    have hnone : mandatoryViolation policy r.code (findingFor findings name r.code) = none :=
      List.filterMap_eq_nil_iff.mp hclean r (List.mem_filter.mpr ⟨hr, by rw [hkind]; rfl⟩)
    cases hfinding : findingFor findings name r.code with
    | none =>
      rw [hfinding] at hnone
      cases hnone
    | some g =>
      obtain ⟨hg, hsupplier, hcode⟩ := (findingFor_some hone).mp hfinding
      rw [hfinding, mandatoryViolation, hevidence, Bool.true_and] at hnone
      split at hnone
      · cases hnone
      · next hstatus =>
        split at hnone
        · cases hnone
        · next hsome =>
          exact ⟨g, hg, hsupplier, hcode, not_not.mp hstatus,
            fun hnil => hsome (List.isEmpty_iff.mpr hnil)⟩
  · refine ⟨s, hs, hname, heligible, ?_, fun t ht hte => ?_⟩
    · rw [hscore]
      exact hmin
    · rcases hfirst t ht hte with hlt | ⟨heq, -⟩
      · exact hlt.le
      · exact heq.ge

/-! ## A higher raw score -/

theorem roundHalfUp_mono {p q : ℚ} (h : p ≤ q) : roundHalfUp p ≤ roundHalfUp q := by
  unfold roundHalfUp
  by_cases hp : 0 ≤ p
  · rw [if_pos hp, if_pos (hp.trans h)]
    exact Int.floor_le_floor (by linarith)
  · rw [if_neg hp]
    have hnegative : 0 ≤ ⌊-p + 1 / 2⌋ := Int.floor_nonneg.mpr (by linarith)
    by_cases hq : 0 ≤ q
    · rw [if_pos hq]
      have hpositive : 0 ≤ ⌊q + 1 / 2⌋ := Int.floor_nonneg.mpr (by linarith)
      omega
    · rw [if_neg hq]
      exact neg_le_neg (Int.floor_le_floor (by linarith))

theorem quantize_mono {places : ℕ} {p q : ℚ} (h : p ≤ q) :
    quantize places p ≤ quantize places q := by
  have hscale : (0 : ℚ) < 10 ^ places := by positivity
  have hround : roundHalfUp (p * 10 ^ places) ≤ roundHalfUp (q * 10 ^ places) :=
    roundHalfUp_mono (mul_le_mul_of_nonneg_right h hscale.le)
  unfold quantize
  apply div_le_div_of_nonneg_right _ hscale.le
  exact_mod_cast hround

structure Raised (f f' : ComplianceFinding) : Prop where
  id : f'.id = f.id
  requirementCode : f'.requirementCode = f.requirementCode
  supplierName : f'.supplierName = f.supplierName
  status : f'.status = f.status
  note : f'.note = f.note
  evidence : f'.evidence = f.evidence
  rawScore : f.rawScore ≤ f'.rawScore

theorem Raised.refl (f : ComplianceFinding) : Raised f f :=
  ⟨rfl, rfl, rfl, rfl, rfl, rfl, le_refl _⟩

inductive RaisedOption : Option ComplianceFinding → Option ComplianceFinding → Prop where
  | none : RaisedOption none none
  | some {f f' : ComplianceFinding} (h : Raised f f') : RaisedOption (some f) (some f')

section

variable {pre post : List ComplianceFinding} {f f' : ComplianceFinding}

theorem find_raised {p : ComplianceFinding → Bool} (hraised : Raised f f') (hp : p f' = p f) :
    RaisedOption ((pre ++ f :: post).find? p) ((pre ++ f' :: post).find? p) := by
  have hsame : ∀ o : Option ComplianceFinding, RaisedOption o o := by
    intro o
    cases o with
    | none => exact .none
    | some g => exact .some (.refl g)
  induction pre with
  | nil =>
    rw [List.nil_append, List.nil_append, List.find?_cons, List.find?_cons, hp]
    cases p f with
    | true => exact .some hraised
    | false => exact hsame _
  | cons g pre ih =>
    rw [List.cons_append, List.cons_append, List.find?_cons, List.find?_cons]
    cases p g with
    | true => exact hsame _
    | false => exact ih

theorem find_other {p : ComplianceFinding → Bool} (hf : p f = false) (hf' : p f' = false) :
    (pre ++ f :: post).find? p = (pre ++ f' :: post).find? p := by
  rw [List.find?_append, List.find?_append, List.find?_cons_of_neg (by simp [hf]),
    List.find?_cons_of_neg (by simp [hf'])]

theorem findingFor_raised (hraised : Raised f f') (name code : String) :
    RaisedOption (findingFor (pre ++ f :: post) name code)
      (findingFor (pre ++ f' :: post) name code) := by
  unfold findingFor
  simp only [List.reverse_append, List.reverse_cons, List.append_assoc, List.singleton_append]
  apply find_raised hraised
  rw [hraised.supplierName, hraised.requirementCode]

theorem findingFor_other (hraised : Raised f f') {name : String} (hname : f.supplierName ≠ name)
    (code : String) :
    findingFor (pre ++ f :: post) name code = findingFor (pre ++ f' :: post) name code := by
  unfold findingFor
  simp only [List.reverse_append, List.reverse_cons, List.append_assoc, List.singleton_append]
  apply find_other
  · simp [hname]
  · simp [hraised.supplierName, hname]

theorem mandatoryViolations_raised (hraised : Raised f f') (name : String) :
    mandatoryViolations policy name requirements (pre ++ f' :: post) =
      mandatoryViolations policy name requirements (pre ++ f :: post) := by
  unfold mandatoryViolations
  apply List.filterMap_congr
  intro r _
  have hfound := @findingFor_raised pre post _ _ hraised name r.code
  generalize findingFor (pre ++ f :: post) name r.code = found at hfound ⊢
  generalize findingFor (pre ++ f' :: post) name r.code = found' at hfound ⊢
  cases hfound with
  | none => rfl
  | some h =>
    simp only [mandatoryViolation]
    rw [h.status, h.evidence]

theorem contribution_raised (hraised : Raised f f') (name : String) (r : Requirement) :
    contribution (pre ++ f :: post) name r ≤ contribution (pre ++ f' :: post) name r := by
  have hweight : 0 ≤ r.weight := by
    by_cases hkind : r.kind = .weighted
    · exact (r.weighed hkind).le
    · exact (r.unweighed hkind).ge
  unfold contribution
  apply mul_le_mul_of_nonneg_right _ hweight
  have hfound := @findingFor_raised pre post _ _ hraised name r.code
  generalize findingFor (pre ++ f :: post) name r.code = found at hfound ⊢
  generalize findingFor (pre ++ f' :: post) name r.code = found' at hfound ⊢
  cases hfound with
  | none => exact le_refl _
  | some h => exact h.rawScore

theorem totalScore_raised (hraised : Raised f f') (name : String) :
    (scoreSupplier policy name requirements (pre ++ f :: post)).totalScore ≤
      (scoreSupplier policy name requirements (pre ++ f' :: post)).totalScore := by
  show quantize _ _ ≤ quantize _ _
  apply quantize_mono
  unfold weightedTotal
  exact List.sum_le_sum (fun r _ => contribution_raised hraised name r)

theorem eligible_raised (hraised : Raised f f') {name : String}
    (heligible : (scoreSupplier policy name requirements (pre ++ f :: post)).eligible = true) :
    (scoreSupplier policy name requirements (pre ++ f' :: post)).eligible = true := by
  have htotal : (scoreSupplier policy name requirements (pre ++ f :: post)).totalScore ≤
      (scoreSupplier policy name requirements (pre ++ f' :: post)).totalScore :=
    totalScore_raised hraised name
  unfold scoreSupplier at heligible htotal ⊢
  dsimp only at heligible htotal ⊢
  rw [mandatoryViolations_raised hraised]
  rw [Bool.and_eq_true, Bool.not_eq_true', decide_eq_false_iff_not, not_lt] at heligible ⊢
  exact ⟨heligible.1.trans htotal, heligible.2⟩

theorem score_other (hraised : Raised f f') {name : String} (hname : f.supplierName ≠ name) :
    scoreSupplier policy name requirements (pre ++ f' :: post) =
      scoreSupplier policy name requirements (pre ++ f :: post) := by
  unfold scoreSupplier mandatoryViolations weightedTotal contribution
  simp only [findingFor_other hraised hname]

theorem suppliersOf_raised (hraised : Raised f f') :
    suppliersOf (pre ++ f' :: post) = suppliersOf (pre ++ f :: post) := by
  unfold suppliersOf
  rw [List.map_append, List.map_append, List.map_cons, List.map_cons, hraised.supplierName]

structure NotHurt (name : String) (outcome outcome' : GateOutcome) : Prop where
  /-- the other suppliers' scores stay -/
  others : outcome'.scores.filter (fun s => s.supplierName ≠ name) =
    outcome.scores.filter (fun s => s.supplierName ≠ name)
  /-- the supplier has a score before and after -/
  own : ∃ s ∈ outcome.scores, ∃ s' ∈ outcome'.scores, s.supplierName = name ∧
    s'.supplierName = name ∧ s.totalScore ≤ s'.totalScore ∧
    (s.eligible = true → s'.eligible = true) ∧
    ∀ t, ranksBefore s t → ranksBefore s' t
  /-- whoever was on top because of it stays on top -/
  top : outcome.topSupplier = some name → outcome'.topSupplier = some name

theorem scoreSupplier_name {name : String} {findings : List ComplianceFinding} :
    (scoreSupplier policy name requirements findings).supplierName = name := rfl

theorem ranksBefore_raised (hraised : Raised f f') {t : SupplierScore}
    (h : ranksBefore (scoreSupplier policy f.supplierName requirements (pre ++ f :: post)) t) :
    ranksBefore (scoreSupplier policy f.supplierName requirements (pre ++ f' :: post)) t := by
  have htotal : (scoreSupplier policy f.supplierName requirements (pre ++ f :: post)).totalScore ≤
      (scoreSupplier policy f.supplierName requirements (pre ++ f' :: post)).totalScore :=
    totalScore_raised hraised f.supplierName
  rcases h with hlt | ⟨heq, hle⟩
  · exact .inl (hlt.trans_le htotal)
  · rcases htotal.lt_or_eq with hlt | hsame
    · exact .inl (heq ▸ hlt)
    · rw [scoreSupplier_name] at hle
      refine .inr ⟨hsame.symm.trans heq, ?_⟩
      rw [scoreSupplier_name]
      exact hle

theorem others_raised (hraised : Raised f f') :
    ((suppliersOf (pre ++ f' :: post)).map (fun name =>
        scoreSupplier policy name requirements (pre ++ f' :: post))).filter
        (fun s => s.supplierName ≠ f.supplierName) =
      ((suppliersOf (pre ++ f :: post)).map (fun name =>
        scoreSupplier policy name requirements (pre ++ f :: post))).filter
        (fun s => s.supplierName ≠ f.supplierName) := by
  -- a score is filtered by the name it is computed for
  have hnames : ∀ findings, (fun s : SupplierScore => decide (s.supplierName ≠ f.supplierName)) ∘
      (fun name => scoreSupplier policy name requirements findings) =
      fun name => decide (name ≠ f.supplierName) := fun _ => rfl
  rw [suppliersOf_raised hraised, List.filter_map, List.filter_map, hnames, hnames]
  apply List.map_congr_left
  intro name hname
  apply score_other hraised
  have hdiffers := (List.mem_filter.mp hname).2
  rw [decide_eq_true_eq] at hdiffers
  exact fun heq => hdiffers heq.symm

/-- **Monotone**: a higher raw score of one supplier never hurts that supplier. -/
theorem evaluate_raised (hraised : Raised f f') {outcome outcome' : GateOutcome}
    (h : evaluate policy requirements (pre ++ f :: post) draft = .ok outcome)
    (h' : evaluate policy requirements (pre ++ f' :: post) draft = .ok outcome') :
    NotHurt f.supplierName outcome outcome' := by
  constructor
  · rw [(evaluate_ok h).2.1, (evaluate_ok h').2.1]
    exact others_raised hraised
  · apply Exists.intro (scoreSupplier policy f.supplierName requirements (pre ++ f :: post))
    refine ⟨(mem_scores h).mpr ⟨f, by simp, rfl⟩, scoreSupplier policy f.supplierName requirements
      (pre ++ f' :: post), (mem_scores h').mpr ⟨f', by simp, by rw [hraised.supplierName]⟩, rfl,
      rfl, totalScore_raised hraised _, eligible_raised hraised,
      fun _ => ranksBefore_raised hraised⟩
  · intro htop
    obtain ⟨-, heligible, hfirst⟩ := (top_of_findings h).mp htop
    apply (top_of_findings h').mpr
    refine ⟨⟨f', by simp, hraised.supplierName⟩, eligible_raised hraised heligible, ?_⟩
    intro g hg hge
    by_cases hsame : f.supplierName = g.supplierName
    · rw [← hsame]
      exact .inr ⟨rfl, le_refl _⟩
    · rw [score_other hraised hsame] at hge ⊢
      apply ranksBefore_raised hraised
      -- a finding of another supplier is not the raised one
      have hold : g ∈ pre ++ f :: post := by
        rw [List.mem_append, List.mem_cons] at hg ⊢
        rcases hg with hpre | heq | hpost
        · exact .inl hpre
        · rw [heq, hraised.supplierName] at hsame
          exact absurd rfl hsame
        · exact .inr (.inr hpost)
      exact hfirst g hold hge

end

/-! ## The laws together -/

end

/-! ## A table of one supplier -/

namespace Sample

def warranty : Requirement :=
  ⟨{ text := "r1" }, "M1", "warranty", .mandatory, 0, rfl, by decide, by decide⟩

def licence : Requirement :=
  ⟨{ text := "r2" }, "M2", "licence", .mandatory, 0, rfl, by decide, by decide⟩

def price : Requirement :=
  ⟨{ text := "r3" }, "W1", "price", .weighted, 1, rfl, by decide, by decide⟩

def offered : ComplianceFinding :=
  { id := { text := "f1" }, requirementCode := "W1", supplierName := "An Phát"
    status := .compliant, rawScore := 80, inRange := by norm_num }

end Sample

open Sample

end DigitalWorker.Evaluation
