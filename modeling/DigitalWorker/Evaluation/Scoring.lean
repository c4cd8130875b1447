import Mathlib.Algebra.Order.Field.Rat
import Mathlib.Data.List.Dedup
import Mathlib.Data.Rat.Floor
import Mathlib.Data.String.Basic
import DigitalWorker.Framework.StableSort
import DigitalWorker.Kernel.Json

/-! # Scoring suppliers

    The engine of the evaluation: requirements with weights, what was found
    about each supplier, and the gate that decides who may be recommended. The
    model proposes raw scores and quotes; this code decides. Decimals are exact
    rationals here: the store keeps four digits of a weight and two of a score,
    far from the 28 digits a decimal computes with.
-/

namespace DigitalWorker.Evaluation

open Framework

/-! ## Requirements and findings -/

inductive RequirementKind where
  | mandatory
  | weighted
  | informational
  deriving DecidableEq

def RequirementKind.value : RequirementKind → String
  | .mandatory => "mandatory"
  | .weighted => "weighted"
  | .informational => "informational"

structure Requirement where
  id : Uuid
  code : String
  statement : String
  kind : RequirementKind
  weight : ℚ
  coded : blank code = false
  weighed : kind = .weighted → 0 < weight
  unweighed : kind ≠ .weighted → weight = 0
  deriving DecidableEq

/-- `Requirement(…)`: what `__post_init__` refuses. -/
def Requirement.build (id : Uuid) (code statement : String) (kind : RequirementKind) (weight : ℚ) :
    Except Error Requirement :=
  if hcode : blank code = false then
    if hweighed : kind = .weighted → 0 < weight then
      if hunweighed : kind ≠ .weighted → weight = 0 then
        .ok ⟨id, code, statement, kind, weight, hcode, hweighed, hunweighed⟩
      else .error (domainError ("non-weighted requirement " ++ code ++ " must have weight 0"))
    else .error (domainError ("weighted requirement " ++ code ++ " needs weight > 0"))
  else .error (domainError "requirement code must not be blank")

inductive FindingStatus where
  | compliant
  | nonCompliant
  | missingEvidence
  deriving DecidableEq

def FindingStatus.value : FindingStatus → String
  | .compliant => "compliant"
  | .nonCompliant => "non_compliant"
  | .missingEvidence => "missing_evidence"

structure ComplianceFinding where
  id : Uuid
  requirementCode : String
  supplierName : String
  status : FindingStatus
  rawScore : ℚ
  note : String := ""
  evidence : List Dict := []
  inRange : 0 ≤ rawScore ∧ rawScore ≤ 100

/-- `ComplianceFinding(…)`: what `__post_init__` refuses. -/
def ComplianceFinding.build (id : Uuid) (requirementCode supplierName : String)
    (status : FindingStatus) (rawScore : ℚ) (note : String) (evidence : List Dict) :
    Except Error ComplianceFinding :=
  if h : 0 ≤ rawScore ∧ rawScore ≤ 100 then
    .ok ⟨id, requirementCode, supplierName, status, rawScore, note, evidence, h⟩
  else .error (domainError "raw_score must be within [0, 100]")

/-! ## Decimals -/

/-- The nearest integer, a half away from zero: `ROUND_HALF_UP`, and the rounding
    of a `numeric` column. -/
def roundHalfUp (q : ℚ) : ℤ :=
  if 0 ≤ q then ⌊q + 1 / 2⌋ else -⌊-q + 1 / 2⌋

/-- `q.quantize(Decimal(10) ** -places, ROUND_HALF_UP)`. -/
def quantize (places : ℕ) (q : ℚ) : ℚ := roundHalfUp (q * 10 ^ places) / 10 ^ places

/-- `str(d)` of a decimal with this many places. -/
def decimalText (places : ℕ) (q : ℚ) : String :=
  let coefficient := (roundHalfUp (q * 10 ^ places)).natAbs
  let fraction := toString (coefficient % 10 ^ places)
  let sign := if q < 0 then "-" else ""
  let whole := sign ++ toString (coefficient / 10 ^ places)
  if places = 0 then whole
  else whole ++ "." ++ String.ofList (List.replicate (places - fraction.length) '0') ++ fraction

example : decimalText 2 (quantize 2 (173 / 2)) = "86.50" := by decide +kernel
example : decimalText 2 (quantize 2 (5 / 1000)) = "0.01" := by decide +kernel

structure ScoringPolicy where
  policyVersion : String
  requireEvidenceForMandatory : Bool := true
  disqualifyOnMandatoryFail : Bool := true
  minTotalScore : ℚ := 60
  scoreDecimalPlaces : ℕ := 2
  deriving DecidableEq

structure SupplierScore where
  supplierName : String
  totalScore : ℚ
  mandatoryPassed : Bool
  eligible : Bool
  violations : List String
  deriving DecidableEq

def SupplierScore.asDict (policy : ScoringPolicy) (s : SupplierScore) : Dict :=
  [("supplier_name", .str s.supplierName),
    ("total_score", .str (decimalText policy.scoreDecimalPlaces s.totalScore)),
    ("mandatory_passed", .bool s.mandatoryPassed), ("eligible", .bool s.eligible),
    ("violations", .arr (s.violations.map .str))]

structure GateOutcome where
  scores : List SupplierScore
  topSupplier : Option String
  gatePassed : Bool
  violations : List String
  deriving DecidableEq

/-! ## The engine -/

section

variable (policy : ScoringPolicy)

/-- `validate_requirements`. The message of the sum names the amount, which is
    not printed here. -/
def validateRequirements (requirements : List Requirement) : Except Error Unit := do
  let weighted := requirements.filter (fun r => r.kind == .weighted)
  raiseIf weighted.isEmpty (domainError "at least one weighted requirement is required")
  raiseIf ((weighted.map (·.weight)).sum ≠ 1)
    (domainError "weighted requirement weights must sum to 1")

/-- `by_code.get(code)`: of several findings about one code the last one counts. -/
def findingFor (findings : List ComplianceFinding) (supplierName code : String) :
    Option ComplianceFinding :=
  findings.reverse.find? (fun f => f.supplierName == supplierName && f.requirementCode == code)

def mandatoryViolation (code : String) : Option ComplianceFinding → Option String
  | none => some (code ++ ":no_finding")
  | some finding =>
    if finding.status ≠ .compliant then some (code ++ ":" ++ finding.status.value)
    else if policy.requireEvidenceForMandatory && finding.evidence.isEmpty then
      -- a mandatory criterion is never met without evidence
      some (code ++ ":missing_evidence")
    else none

/-- The violations of the first loop of `score_supplier`. -/
def mandatoryViolations (supplierName : String) (requirements : List Requirement)
    (findings : List ComplianceFinding) : List String :=
  (requirements.filter (fun r => r.kind == .mandatory)).filterMap (fun r =>
    mandatoryViolation policy r.code (findingFor findings supplierName r.code))

def contribution (findings : List ComplianceFinding) (supplierName : String) (r : Requirement) :
    ℚ :=
  ((findingFor findings supplierName r.code).map (·.rawScore)).getD 0 * r.weight

def weightedTotal (supplierName : String) (requirements : List Requirement)
    (findings : List ComplianceFinding) : ℚ :=
  ((requirements.filter (fun r => r.kind == .weighted)).map
    (contribution findings supplierName)).sum

def scoreSupplier (supplierName : String) (requirements : List Requirement)
    (findings : List ComplianceFinding) : SupplierScore :=
  let mandatory := mandatoryViolations policy supplierName requirements findings
  let total := quantize policy.scoreDecimalPlaces
    (weightedTotal supplierName requirements findings)
  let below := total < policy.minTotalScore
  { supplierName := supplierName
    totalScore := total
    mandatoryPassed := mandatory.isEmpty
    eligible := !below && !(policy.disqualifyOnMandatoryFail && !mandatory.isEmpty)
    violations := mandatory ++
      (if below then ["total_below_min:" ++ decimalText policy.scoreDecimalPlaces total]
      else []) }

/-- `sorted({f.supplier_name for f in findings})`. -/
def suppliersOf (findings : List ComplianceFinding) : List String :=
  ((findings.map (·.supplierName)).dedup).insertionSort (· ≤ ·)

def ranksBefore (a b : SupplierScore) : Prop :=
  b.totalScore < a.totalScore ∨
    (a.totalScore = b.totalScore ∧ a.supplierName ≤ b.supplierName)

instance : DecidableRel ranksBefore := fun a b =>
  inferInstanceAs (Decidable (b.totalScore < a.totalScore ∨
    (a.totalScore = b.totalScore ∧ a.supplierName ≤ b.supplierName)))

def evaluate (requirements : List Requirement) (findings : List ComplianceFinding)
    (recommendedSupplier : Option String) : Except Error GateOutcome := do
  validateRequirements requirements
  let scores := (suppliersOf findings).map (fun name =>
    scoreSupplier policy name requirements findings)
  let top := (((scores.filter (·.eligible)).insertionSort ranksBefore).head?).map
    (·.supplierName)
  let violations := match top with
    | none => ["no_eligible_supplier"]
    | some name =>
      if recommendedSupplier ≠ some name then
        ["recommendation_mismatch:draft=" ++ recommendedSupplier.getD "None" ++ ",gate=" ++ name]
      else []
  return { scores := scores, topSupplier := top, gatePassed := violations.isEmpty
           violations := violations }

end

/-! ## The score table -/

variable {policy : ScoringPolicy} {requirements : List Requirement}
  {findings : List ComplianceFinding} {draft : Option String} {outcome : GateOutcome}

theorem mem_suppliersOf {name : String} :
    name ∈ suppliersOf findings ↔ ∃ f ∈ findings, f.supplierName = name := by
  simp [suppliersOf]

theorem suppliersOf_nodup : (suppliersOf findings).Nodup :=
  (List.perm_insertionSort _ _).nodup_iff.mpr (List.nodup_dedup _)

theorem evaluate_ok : evaluate policy requirements findings draft = .ok outcome →
    validateRequirements requirements = .ok () ∧
    outcome.scores = (suppliersOf findings).map (fun name =>
      scoreSupplier policy name requirements findings) ∧
    outcome.topSupplier = (((outcome.scores.filter (·.eligible)).insertionSort
      ranksBefore).head?).map (·.supplierName) := by
  intro h
  rw [evaluate, bind_ok] at h
  obtain ⟨_, hvalid, h⟩ := h
  obtain rfl := Except.ok.inj h
  exact ⟨hvalid, rfl, rfl⟩

theorem scores_names (h : evaluate policy requirements findings draft = .ok outcome) :
    outcome.scores.map (·.supplierName) = suppliersOf findings := by
  rw [(evaluate_ok h).2.1, List.map_map]
  exact List.map_id _

/-- **Score table**: the suppliers the findings name, each once. -/
theorem scores_count (h : evaluate policy requirements findings draft = .ok outcome)
    (name : String) : (outcome.scores.map (·.supplierName)).count name =
      if ∃ f ∈ findings, f.supplierName = name then 1 else 0 := by
  rw [scores_names h]
  split
  · next hnamed => exact List.count_eq_one_of_mem suppliersOf_nodup (mem_suppliersOf.mpr hnamed)
  · next hnamed =>
    exact List.count_eq_zero_of_not_mem (fun hmem => hnamed (mem_suppliersOf.mp hmem))

theorem mem_scores (h : evaluate policy requirements findings draft = .ok outcome)
    {s : SupplierScore} : s ∈ outcome.scores ↔ ∃ f ∈ findings,
      s = scoreSupplier policy f.supplierName requirements findings := by
  rw [(evaluate_ok h).2.1, List.mem_map]
  constructor
  · rintro ⟨name, hname, rfl⟩
    obtain ⟨f, hf, rfl⟩ := mem_suppliersOf.mp hname
    exact ⟨f, hf, rfl⟩
  · rintro ⟨f, hf, rfl⟩
    exact ⟨f.supplierName, mem_suppliersOf.mpr ⟨f, hf, rfl⟩, rfl⟩

/-! ## The supplier on top -/

instance : Std.Total ranksBefore where
  total a b := by
    unfold ranksBefore
    rcases lt_trichotomy a.totalScore b.totalScore with h | h | h
    · exact .inr (.inl h)
    · rcases le_total a.supplierName b.supplierName with hname | hname
      · exact .inl (.inr ⟨h, hname⟩)
      · exact .inr (.inr ⟨h.symm, hname⟩)
    · exact .inl (.inl h)

instance : IsTrans SupplierScore ranksBefore where
  trans a b c := by
    unfold ranksBefore
    rintro (hab | ⟨hab, hname⟩) (hbc | ⟨hbc, hname'⟩)
    · exact .inl (lt_trans hbc hab)
    · exact .inl (hbc ▸ hab)
    · exact .inl (hab ▸ hbc)
    · exact .inr ⟨hab.trans hbc, le_trans hname hname'⟩

theorem ranksBefore_antisymm {a b : SupplierScore} (hab : ranksBefore a b)
    (hba : ranksBefore b a) : a.supplierName = b.supplierName := by
  rcases hab with hlt | ⟨heq, hle⟩ <;> rcases hba with hlt' | ⟨heq', hle'⟩
  · exact absurd hlt' (not_lt.mpr hlt.le)
  · rw [heq'] at hlt
    exact absurd hlt (lt_irrefl _)
  · rw [heq] at hlt'
    exact absurd hlt' (lt_irrefl _)
  · exact le_antisymm hle hle'

theorem evaluate_top_isSome (h : evaluate policy requirements findings draft = .ok outcome)
    {s : SupplierScore} (hs : s ∈ outcome.scores) (heligible : s.eligible = true) :
    ∃ name, outcome.topSupplier = some name := by
  rw [(evaluate_ok h).2.2]
  have hmem : s ∈ (outcome.scores.filter (·.eligible)).insertionSort ranksBefore :=
    (List.mem_insertionSort _).mpr (List.mem_filter.mpr ⟨hs, heligible⟩)
  cases hlist : (outcome.scores.filter (·.eligible)).insertionSort ranksBefore with
  | nil =>
    rw [hlist] at hmem
    cases hmem
  | cons x rest => exact ⟨x.supplierName, rfl⟩

/-- **The supplier on top** is an eligible one that comes before every other. -/
theorem evaluate_top (h : evaluate policy requirements findings draft = .ok outcome)
    {name : String} : outcome.topSupplier = some name ↔
      ∃ s ∈ outcome.scores, s.supplierName = name ∧ s.eligible = true ∧
        ∀ t ∈ outcome.scores, t.eligible = true → ranksBefore s t := by
  rw [(evaluate_ok h).2.2, Option.map_eq_some_iff]
  constructor
  · rintro ⟨s, hs, rfl⟩
    obtain ⟨hmem, hfirst⟩ := insertionSort_first hs
    obtain ⟨hmem, heligible⟩ := List.mem_filter.mp hmem
    exact ⟨s, hmem, rfl, heligible, fun t ht hte => hfirst t (List.mem_filter.mpr ⟨ht, hte⟩)⟩
  · rintro ⟨s, hs, rfl, heligible, hfirst⟩
    have hmem : s ∈ outcome.scores.filter (·.eligible) := List.mem_filter.mpr ⟨hs, heligible⟩
    have hhead := insertionSort_head? hmem (r := ranksBefore) (by
      intro t ht hne hbefore
      obtain ⟨ht, hte⟩ := List.mem_filter.mp ht
      apply hne
      -- two suppliers that rank before each other have one name, so one score
      have hname : t.supplierName = s.supplierName :=
        ranksBefore_antisymm hbefore (hfirst t ht hte)
      obtain ⟨f, hf, rfl⟩ := (mem_scores h).mp hs
      obtain ⟨g, hg, rfl⟩ := (mem_scores h).mp ht
      rw [show f.supplierName = g.supplierName from hname.symm])
    exact ⟨s, hhead, rfl⟩

end DigitalWorker.Evaluation
