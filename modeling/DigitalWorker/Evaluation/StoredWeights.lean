import DigitalWorker.Evaluation.Case
import DigitalWorker.Evaluation.ScoringLaws

/-! # Weights that come back from the store

    The weights are checked when the matrix is built, before the requirements are
    stored; the gate scores with the list it reads back. The column keeps four
    decimals. The two lists score alike exactly when the weights have no more.
-/

namespace DigitalWorker.Evaluation

open Framework

section

variable {db db' : TenderDb} {requirements stored : List Requirement}

/-! ## Reading the rows back -/

/-- The row of a requirement: `weight Numeric(6, 4)`. -/
def Requirement.row (r : Requirement) : RequirementRow :=
  { id := r.id, code := r.code, statement := r.statement, kind := r.kind
    weight := quantize 4 r.weight }

theorem build_self (r : Requirement) :
    Requirement.build r.id r.code r.statement r.kind r.weight = .ok r := by
  unfold Requirement.build
  rw [dif_pos r.coded, dif_pos r.weighed, dif_pos r.unweighed]

theorem build_fields {id : Uuid} {code statement : String} {kind : RequirementKind} {weight : ℚ}
    {r : Requirement} (h : Requirement.build id code statement kind weight = .ok r) :
    r.code = code ∧ r.kind = kind ∧ r.weight = weight := by
  unfold Requirement.build at h
  split at h
  · split at h
    · split at h
      · obtain rfl := Except.ok.inj h
        exact ⟨rfl, rfl, rfl⟩
      · cases h
    · cases h
  · cases h

theorem mapM_forall₂ {ε α β : Type} {f : α → Except ε β} {xs : List α} {ys : List β} :
    xs.mapM f = .ok ys ↔ List.Forall₂ (fun x y => f x = .ok y) xs ys := by
  induction xs generalizing ys with
  | nil =>
    rw [List.mapM_nil, List.forall₂_nil_left_iff]
    exact ⟨fun h => (Except.ok.inj h).symm, fun h => by rw [h]; rfl⟩
  | cons x xs ih =>
    rw [List.mapM_cons, bind_ok, List.forall₂_cons_left_iff]
    constructor
    · intro ⟨y, hy, h⟩
      rw [bind_ok] at h
      obtain ⟨rest, hrest, h⟩ := h
      exact ⟨y, rest, hy, ih.mp hrest, (Except.ok.inj h).symm⟩
    · intro ⟨y, rest, hy, hrest, hys⟩
      refine ⟨y, hy, ?_⟩
      rw [bind_ok]
      exact ⟨rest, ih.mpr hrest, by rw [hys]; rfl⟩

theorem partner {α β : Type} {R : α → β → Prop} {xs : List α} {ys : List β}
    (h : List.Forall₂ R xs ys) {x : α} (hx : x ∈ xs) : ∃ y ∈ ys, R x y := by
  induction h with
  | nil => cases hx
  | cons hxy _ ih =>
    rcases List.mem_cons.mp hx with rfl | hx
    · exact ⟨_, List.mem_cons_self, hxy⟩
    · obtain ⟨y, hy, hR⟩ := ih hx
      exact ⟨y, List.mem_cons_of_mem _ hy, hR⟩

theorem replaceRequirements_rows (h : db.replaceRequirements requirements = .ok db') :
    (requirements.map (·.code)).Nodup ∧ db'.requirements = requirements.map Requirement.row := by
  rw [TenderDb.replaceRequirements, raiseIf_pure] at h
  obtain ⟨hnodup, rfl⟩ := h
  simp only [Bool.not_eq_false', decide_eq_true_eq] at hnodup
  exact ⟨hnodup, rfl⟩

theorem listRequirements_built (hlist : db'.listRequirements = .ok stored) :
    List.Forall₂ (fun (row : RequirementRow) (s : Requirement) =>
        s.code = row.code ∧ s.kind = row.kind ∧ s.weight = row.weight)
      (db'.requirements.insertionSort (fun a b => a.code ≤ b.code)) stored :=
  (mapM_forall₂.mp hlist).imp (fun _ _ => build_fields)

theorem stored_weight (h : db.replaceRequirements requirements = .ok db')
    (hlist : db'.listRequirements = .ok stored) {r : Requirement} (hr : r ∈ requirements) :
    ∃ s ∈ stored, s.code = r.code ∧ s.kind = r.kind ∧ s.weight = quantize 4 r.weight := by
  have hrow : r.row ∈ db'.requirements.insertionSort (fun a b => a.code ≤ b.code) := by
    rw [List.mem_insertionSort, (replaceRequirements_rows h).2]
    exact List.mem_map_of_mem hr
  exact partner (listRequirements_built hlist) hrow

theorem stored_codes (h : db.replaceRequirements requirements = .ok db')
    (hlist : db'.listRequirements = .ok stored) : (stored.map (·.code)).Nodup := by
  have hcodes : (db'.requirements.insertionSort (fun a b => a.code ≤ b.code)).map (·.code) =
      stored.map (·.code) := by
    rw [← List.forall₂_eq_eq_eq, List.forall₂_map_left_iff, List.forall₂_map_right_iff]
    exact (listRequirements_built hlist).imp (fun _ _ hfields => hfields.1.symm)
  rw [← hcodes, ((List.perm_insertionSort _ _).map _).nodup_iff, (replaceRequirements_rows h).2,
    List.map_map]
  exact (replaceRequirements_rows h).1

/-! ## Weights of four decimals -/

def FourDecimals (w : ℚ) : Prop := ∃ k : ℤ, w = k / 10 ^ 4

theorem quantize_self {places : ℕ} (k : ℤ) :
    quantize places (k / 10 ^ places) = k / 10 ^ places := by
  have hscale : (10 : ℚ) ^ places ≠ 0 := by positivity
  have hround : roundHalfUp (k : ℚ) = k := by
    unfold roundHalfUp
    have hhalf : ∀ n : ℤ, ⌊(n : ℚ) + 1 / 2⌋ = n := by
      intro n
      rw [Int.floor_eq_iff]
      constructor <;> linarith
    split
    · exact hhalf k
    · rw [← Int.cast_neg, hhalf, neg_neg]
  unfold quantize
  rw [div_mul_cancel₀ _ hscale, hround]

theorem listRequirements_exact (h : db.replaceRequirements requirements = .ok db')
    (hexact : ∀ r ∈ requirements, FourDecimals r.weight) :
    ∃ stored, db'.listRequirements = .ok stored ∧ requirements.Perm stored := by
  refine ⟨requirements.insertionSort (fun a b => a.code ≤ b.code), ?_,
    (List.perm_insertionSort _ _).symm⟩
  unfold TenderDb.listRequirements
  have hsort : (requirements.map Requirement.row).insertionSort (fun a b => a.code ≤ b.code) =
      (requirements.insertionSort (fun a b => a.code ≤ b.code)).map Requirement.row :=
    (List.map_insertionSort (fun a b : Requirement => a.code ≤ b.code)
      (fun a b : RequirementRow => a.code ≤ b.code) Requirement.row requirements
      (fun _ _ _ _ => Iff.rfl)).symm
  rw [(replaceRequirements_rows h).2, hsort, mapM_forall₂, List.forall₂_map_left_iff,
    List.forall₂_same]
  intro r hr
  obtain ⟨k, hk⟩ := hexact r ((List.mem_insertionSort _).mp hr)
  have hweight : quantize 4 r.weight = r.weight := by
    rw [hk]
    exact quantize_self k
  show Requirement.build r.id r.code r.statement r.kind (quantize 4 r.weight) = _
  rw [hweight, build_self]

theorem contribution_single {f : ComplianceFinding} {r : Requirement} :
    contribution [f] f.supplierName r =
      if r.code = f.requirementCode then f.rawScore * r.weight else 0 := by
  unfold contribution findingFor
  by_cases hcode : r.code = f.requirementCode
  · simp [hcode]
  · simp [hcode, Ne.symm hcode]

theorem weightedTotal_single (hnodup : (requirements.map (·.code)).Nodup) {r : Requirement}
    (hr : r ∈ requirements) (hkind : r.kind = .weighted) {f : ComplianceFinding}
    (hcode : f.requirementCode = r.code) :
    weightedTotal f.supplierName requirements [f] = f.rawScore * r.weight := by
  have hmem : r ∈ requirements.filter (fun r => r.kind == .weighted) :=
    List.mem_filter.mpr ⟨hr, by rw [hkind]; rfl⟩
  have hcodes : ((requirements.filter (fun r => r.kind == .weighted)).map (·.code)).Nodup :=
    hnodup.sublist (List.filter_sublist.map _)
  unfold weightedTotal
  generalize requirements.filter (fun r => r.kind == .weighted) = weighted at hmem hcodes
  have hperm := List.perm_cons_erase hmem
  rw [(hperm.map _).nodup_iff, List.map_cons, List.nodup_cons] at hcodes
  have hrest : ∀ x ∈ (weighted.erase r).map (contribution [f] f.supplierName), x = 0 := by
    intro x hx
    obtain ⟨s, hs, rfl⟩ := List.mem_map.mp hx
    rw [contribution_single, if_neg]
    intro heq
    -- two requirements of one code
    exact hcodes.1 (List.mem_map.mpr ⟨s, hs, heq.trans hcode⟩)
  rw [(hperm.map _).sum_eq, List.map_cons, List.sum_cons, List.sum_eq_zero hrest, add_zero,
    contribution_single, if_pos hcode.symm]

/-! ## What the gate reads -/

def Survives (db' : TenderDb) (requirements : List Requirement) : Prop :=
  ∃ stored, db'.listRequirements = .ok stored ∧ validateRequirements stored = .ok () ∧
    ∀ policy supplierName findings,
      (scoreSupplier policy supplierName stored findings).totalScore =
        (scoreSupplier policy supplierName requirements findings).totalScore

theorem quantize_half {q : ℚ} (hq : 0 ≤ q) :
    (q < 1 / 200 → quantize 2 q = 0) ∧ (q = 1 / 200 → quantize 2 q = 1 / 100) := by
  constructor
  · intro hlt
    have hround : roundHalfUp (q * 10 ^ 2) = 0 := by
      unfold roundHalfUp
      rw [if_pos (by positivity), Int.floor_eq_zero_iff]
      constructor <;> linarith
    rw [quantize, hround, Int.cast_zero, zero_div]
  · intro heq
    rw [heq]
    decide +kernel

theorem weights_told_apart {w w' : ℚ} (hw : 0 < w) (hlt : w < w') (hbound : 1 / 10 ^ 4 ≤ w') :
    ∃ raw, (0 ≤ raw ∧ raw ≤ 100) ∧ quantize 2 (raw * w) ≠ quantize 2 (raw * w') := by
  have hw' : 0 < w' := hw.trans hlt
  refine ⟨1 / 200 / w', ⟨by positivity, ?_⟩, ?_⟩
  · rw [div_le_iff₀ hw']
    linarith
  · have hless : 1 / 200 / w' * w < 1 / 200 := by
      rw [div_mul_eq_mul_div, div_lt_iff₀ hw']
      linarith
    have hhalf : 1 / 200 / w' * w' = 1 / 200 := div_mul_cancel₀ _ hw'.ne'
    rw [(quantize_half (by positivity)).1 hless, (quantize_half (by positivity)).2 hhalf]
    norm_num

/-- **Stored weights**: an accepted list is accepted again, with the same totals,
    exactly when every weight has at most four decimals. -/
theorem weights_survive_iff (hvalid : validateRequirements requirements = .ok ())
    (h : db.replaceRequirements requirements = .ok db') :
    Survives db' requirements ↔ ∀ r ∈ requirements, FourDecimals r.weight := by
  constructor
  · intro ⟨stored, hlist, _, htotals⟩ r hr
    by_cases hkind : r.kind = .weighted
    · obtain ⟨s, hs, hcode, hskind, hweight⟩ := stored_weight h hlist hr
      -- both totals of a supplier with one finding about this requirement
      have hsame : ∀ raw, 0 ≤ raw ∧ raw ≤ 100 →
          quantize 2 (raw * s.weight) = quantize 2 (raw * r.weight) := by
        intro raw hrange
        have htotal := htotals { policyVersion := "" } "" [{
          id := r.id, requirementCode := r.code, supplierName := "", status := .compliant
          rawScore := raw, inRange := hrange }]
        unfold scoreSupplier at htotal
        dsimp only at htotal
        rw [weightedTotal_single (f := ⟨r.id, r.code, "", .compliant, raw, "", [], hrange⟩)
          (stored_codes h hlist) hs (hskind.trans hkind) hcode.symm,
          weightedTotal_single (f := ⟨r.id, r.code, "", .compliant, raw, "", [], hrange⟩)
          (replaceRequirements_rows h).1 hr hkind rfl] at htotal
        exact htotal
      -- a weight that came back is not zero, so it is at least one unit of the column
      have hleast : 1 / 10 ^ 4 ≤ s.weight := by
        have hpositive := s.weighed (hskind.trans hkind)
        rw [hweight, quantize] at hpositive ⊢
        have hunits : (0 : ℚ) < roundHalfUp (r.weight * 10 ^ 4) :=
          (div_pos_iff_of_pos_right (by positivity)).mp hpositive
        apply div_le_div_of_nonneg_right _ (by positivity)
        exact_mod_cast hunits
      have hexact : s.weight = r.weight := by
        rcases lt_trichotomy s.weight r.weight with hlt | heq | hlt
        · obtain ⟨raw, hrange, hdiffer⟩ :=
            weights_told_apart (s.weighed (hskind.trans hkind)) hlt (hleast.trans hlt.le)
          exact absurd (hsame raw hrange) hdiffer
        · exact heq
        · obtain ⟨raw, hrange, hdiffer⟩ := weights_told_apart (r.weighed hkind) hlt hleast
          exact absurd (hsame raw hrange).symm hdiffer
      exact ⟨roundHalfUp (r.weight * 10 ^ 4), hexact.symm.trans hweight⟩
    · exact ⟨0, by rw [r.unweighed hkind]; norm_num⟩
  · intro hexact
    obtain ⟨stored, hlist, hperm⟩ := listRequirements_exact h hexact
    refine ⟨stored, hlist, ?_, ?_⟩
    · rw [← validateRequirements_perm hperm]
      exact hvalid
    · intro policy supplierName findings
      exact ((scoreSupplier_perm hperm supplierName).totalScore).symm

end

/-! ## Three requirements of a third -/

namespace Sample

def third (id : Uuid) (code : String) (weight : ℚ) (hcode : blank code = false)
    (hweight : 0 < weight) : Requirement :=
  ⟨id, code, "criterion", .weighted, weight, hcode, fun _ => hweight, fun h => absurd rfl h⟩

theorem w1_coded : blank "W1" = false := rfl

def thirds : List Requirement :=
  [third { text := "r1" } "W1" 0.33333 w1_coded (by norm_num),
    third { text := "r2" } "W2" 0.33333 rfl (by norm_num),
    third { text := "r3" } "W3" 0.33334 rfl (by norm_num)]

def storedThirds : List Requirement :=
  [third { text := "r1" } "W1" 0.3333 w1_coded (by norm_num),
    third { text := "r2" } "W2" 0.3333 rfl (by norm_num),
    third { text := "r3" } "W3" 0.3333 rfl (by norm_num)]

def emptyCase : TenderDb :=
  { case := { id := { text := "c1" }, title := "pumps", createdBy := { text := "u1" }
              titled := rfl } }

end Sample

open Sample

/-- A weight of one is stored as it is. -/
theorem whole_weight_survives :
    Survives { emptyCase with requirements := [price.row] } [price] :=
  (@weights_survive_iff emptyCase _ [price] (by decide +kernel) rfl).mpr
    (by
      intro r hr
      obtain rfl := List.mem_singleton.mp hr
      exact ⟨10000, by norm_num [price]⟩)

/-- Three weights that sum to one come back with a sum of 0.9999 and are refused. -/
theorem thirds_of_five_digits :
    validateRequirements thirds = .ok () ∧
    ∃ db', emptyCase.replaceRequirements thirds = .ok db' ∧
      db'.listRequirements = .ok storedThirds ∧ validateRequirements storedThirds =
        .error (domainError "weighted requirement weights must sum to 1") ∧
      ¬ Survives db' thirds := by
  have hlist :
      { emptyCase with requirements := thirds.map Requirement.row : TenderDb }.listRequirements =
        .ok storedThirds := by decide +kernel
  have hrefused : validateRequirements storedThirds =
      .error (domainError "weighted requirement weights must sum to 1") := by decide +kernel
  refine ⟨by decide +kernel, _, rfl, hlist, hrefused, ?_⟩
  intro ⟨stored, hstored, hvalid, _⟩
  obtain rfl := Except.ok.inj (hlist.symm.trans hstored)
  rw [hrefused] at hvalid
  cases hvalid

end DigitalWorker.Evaluation
