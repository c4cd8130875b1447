import DigitalWorker.Preparation.Nodes

/-! # Is a package safe to publish?

    `AssessTenderReadinessHandler` reads the artifacts of a case and reports what
    stands against publishing it: checks of its own first, then the advice of a model.
    A value it cannot read raises in Python; the checks are `none` there.
-/

namespace DigitalWorker

/-! ## Findings -/

inductive Severity where
  | blocker
  | risk
  | warning
  deriving DecidableEq

def Severity.weight : Severity → Int
  | .blocker => 25
  | .risk => 10
  | .warning => 4

structure Finding where
  severity : Severity
  code : String
  title : String
  detail : String
  deriving DecidableEq

structure ReadinessReport where
  ready : Bool
  score : Int
  findings : List Finding
  deriving DecidableEq

structure RedTeamFinding where
  isRisk : Bool
  title : String
  detail : String
  deriving DecidableEq

/-- The call of the model: there is no gateway, the call raises, or findings arrive. -/
inductive SecondOpinion where
  | unwired
  | failed
  | arrived (findings : List RedTeamFinding)

/-! ## Reading stored values -/

/-- `_items`: the dictionaries among what `value or []` yields. -/
def readItems : Json → Option (List Dict)
  | .arr items => some (items.filterMap Json.dict?)
  | .num n => if n = 0 then some [] else none
  | .bool b => if b then none else some []
  -- the characters of a text and the keys of a dictionary are no dictionaries
  | .null | .str _ | .obj _ => some []

/-- `int(value or 0)`. -/
def readInt : Json → Option Int
  | .null => some 0
  | .bool b => some (if b then 1 else 0)
  | .num n => some n
  | .str s => if s = "" then some 0 else (strip s).toInt?
  | .arr items => if items.isEmpty then some 0 else none
  | .obj fields => if fields.isEmpty then some 0 else none

/-- One turn of the loop that fills `latest`. -/
def keepNewest (current : Option PreparationArtifact) (a : PreparationArtifact) :
    Option PreparationArtifact :=
  match current with
  | none => some a
  | some b => if b.artifactVersion < a.artifactVersion then some a else some b

/-- The entry of `latest` under a type, over the artifacts as they are listed. -/
def currentOf (listed : List PreparationArtifact) (kind : String) : Option PreparationArtifact :=
  (listed.filter (fun a => a.artifactType.value == kind)).foldl keepNewest none

/-! ## Checks -/

namespace Readiness

variable (env : Env) (latest : String → Option PreparationArtifact)

def packageExists : List Finding :=
  if (latest "solicitation_package").isSome then []
  else
    [{ severity := .blocker, code := "no_package"
       title := "Chưa có hồ sơ mời thầu để phát hành"
       detail := "Hồ sơ chưa chạy tới bước dựng HSMT, nên chưa có gì để rà soát." }]

def driftTitle (kind : String) : String := "«" ++ kind ++ "» đã đổi sau khi niêm phong"

def driftOf (entry : Dict) : Option (List Finding) :=
  let kind := (entry.getD "type" (.str "")).pyStr env.repr
  (readInt (entry.getD "version" (.num 0))).map fun sealedVersion =>
    match latest kind with
    | none => []
    | some current =>
      if (current.artifactVersion : Int) ≤ sealedVersion then []
      else
        [{ severity := .blocker, code := "package_drift", title := driftTitle kind
           detail := "Bản niêm phong dùng v" ++ toString sealedVersion ++ ", hiện tại đã là v" ++
             toString current.artifactVersion ++ ". Phê duyệt đang gắn với v" ++
             toString sealedVersion ++ ", không được dùng để phát hành bản mới." }]

def packageDrift : Option (List Finding) :=
  match latest "official_package_manifest" with
  | none => some []
  | some manifest => do
    let entries ← readItems (manifest.content.getD "artifacts" .null)
    let found ← entries.mapM (driftOf env latest)
    return found.flatten

def criteriaWeights : Option (List Finding) :=
  match latest "evaluation_criteria" with
  | none => some []
  | some criteria => do
    let weighted ← readItems (criteria.content.getD "weighted" .null)
    let weights ← weighted.mapM (fun item => readInt (item.getD "weight" (.num 0)))
    let total := weights.sum
    let required := env.rules.weightedTotalMustEqual
    return if total = required then []
      else
        [{ severity := .blocker, code := "criteria_weight"
           title := "Tổng trọng số tiêu chí là " ++ toString total ++ ", không phải " ++
             toString required
           detail := "Rule pack yêu cầu tổng trọng số đúng bằng " ++ toString required ++
             ". Chấm điểm trên thang lệch sẽ không so sánh được giữa các nhà thầu." }]

def supplierShortfall (valueMinor : Int) : Option (List Finding) :=
  match latest "supplier_shortlist" with
  | none => some []
  | some shortlist => do
    let suppliers ← readItems (shortlist.content.getD "shortlist" .null)
    let method ← (env.rules.selectMethod valueMinor).toOption
    return if method.minSuppliers ≤ suppliers.length then []
      else
        [{ severity := .blocker, code := "supplier_shortfall"
           title := "Mới có " ++ toString suppliers.length ++ "/" ++
             toString method.minSuppliers ++ " nhà cung cấp tối thiểu"
           detail := "Hình thức mua sắm theo rule pack đòi tối thiểu " ++
             toString method.minSuppliers ++ " nhà cung cấp cho gói giá trị này." }]

def answeredForReadiness : Option (List String) :=
  match latest "clarification_response" with
  | none => some []
  | some response =>
    (readItems (response.content.getD "answers" .null)).map
      (·.map fun item => (item.getD "clarification_id" (.str "")).pyStr env.repr)

def openBlocking (answered : List String) (items : List Dict) : List Dict :=
  items.filter fun item => (item.getD "blocking" .null).truthy &&
    !answered.contains ((item.getD "id" (.str "")).pyStr env.repr)

def openClarifications : Option (List Finding) :=
  match latest "clarification_list" with
  | none => some []
  | some listing => do
    let answered ← answeredForReadiness env latest
    let items ← readItems (listing.content.getD "items" .null)
    let blocking := openBlocking env answered items
    return if blocking.isEmpty then []
      else
        [{ severity := .blocker, code := "open_clarification"
           title := "Còn " ++ toString blocking.length ++ " điểm làm rõ bắt buộc chưa trả lời"
           detail := "; ".intercalate ((blocking.take 3).map fun item =>
             take ((item.getD "question" (.str "")).pyStr env.repr) 120) }]

def redTeam (opinion : SecondOpinion) : List Finding :=
  if (latest "solicitation_package").isNone && (latest "evaluation_criteria").isNone then []
  else
    match opinion with
    | .unwired => []
    | .failed =>
      [{ severity := .warning, code := "redteam_unavailable"
         title := "Chưa chạy được rà soát cạnh tranh"
         detail := "Các kiểm tra theo rule pack ở trên vẫn có hiệu lực." }]
    | .arrived findings =>
      (findings.filter (fun f => !blank f.title)).map fun f =>
        { severity := if f.isRisk then .risk else .warning, code := "red_team"
          title := strip f.title, detail := strip f.detail }

end Readiness

open Readiness

/-! ## The report -/

def readinessFindings (env : Env) (opinion : SecondOpinion) (db : CaseDb) :
    Option (List Finding) := do
  let latest := currentOf db.artifacts.reverse
  let drift ← packageDrift env latest
  let weights ← criteriaWeights env latest
  let suppliers ← supplierShortfall env latest db.case.estimatedValueMinor
  let clarifications ← Readiness.openClarifications env latest
  return packageExists latest ++ drift ++ weights ++ suppliers ++ clarifications ++
    redTeam latest opinion

def reportOf (findings : List Finding) : ReadinessReport :=
  { ready := !findings.any (fun f => f.severity == .blocker)
    score := max 0 (100 - (findings.map (·.severity.weight)).sum)
    findings := findings }

/-- `AssessTenderReadinessHandler.handle`; `none` where a stored value does not read. -/
def assessReadiness (env : Env) (context : AccessContext) (opinion : SecondOpinion) (db : CaseDb) :
    Except Error (Option ReadinessReport) := do
  authorize context "tender.read" "preparation_case" db.case.id.text
  return (readinessFindings env opinion db).map reportOf

variable {env : Env} {context : AccessContext} {opinion : SecondOpinion} {db : CaseDb}
  {latest : String → Option PreparationArtifact} {findings : List Finding}
  {report : ReadinessReport}

theorem assessReadiness_ok (h : assessReadiness env context opinion db = .ok (some report)) :
    ∃ findings, readinessFindings env opinion db = some findings ∧ report = reportOf findings := by
  simp only [assessReadiness, authorize, ↓raiseIf_bind_ok] at h
  obtain ⟨_, hret⟩ := h
  obtain ⟨findings, hfindings, rfl⟩ := Option.map_eq_some_iff.mp (Except.ok.inj hret)
  exact ⟨findings, hfindings, rfl⟩

/-! ### Which check a finding is of -/

def OfCode (code : String) (findings : List Finding) : Prop := ∀ f ∈ findings, f.code = code

theorem OfCode.singleton {f : Finding} : OfCode f.code [f] := by
  intro f' hf'
  rw [List.mem_singleton.mp hf']

theorem OfCode.not_mem {code : String} {fs : List Finding} {f : Finding} (h : OfCode code fs)
    (hne : f.code ≠ code) : f ∉ fs := fun hmem => hne (h f hmem)

theorem OfCode.nil {code : String} : OfCode code [] := by
  intro f hf
  cases hf

theorem OfCode.found {f : Finding} {p : Prop} [Decidable p] :
    OfCode f.code (if p then [] else [f]) := by
  split
  · exact .nil
  · exact .singleton

theorem packageExists_code : OfCode "no_package" (packageExists latest) := .found

theorem criteriaWeights_code (h : criteriaWeights env latest = some findings) :
    OfCode "criteria_weight" findings := by
  unfold criteriaWeights at h
  split at h
  · obtain rfl := Option.some.inj h
    exact .nil
  · simp only [bind, Option.bind_eq_some_iff, pure, Option.some.injEq] at h
    obtain ⟨_, _, _, _, rfl⟩ := h
    exact .found

theorem supplierShortfall_code {value : Int} (h : supplierShortfall env latest value = some findings) :
    OfCode "supplier_shortfall" findings := by
  unfold supplierShortfall at h
  split at h
  · obtain rfl := Option.some.inj h
    exact .nil
  · simp only [bind, Option.bind_eq_some_iff, pure, Option.some.injEq] at h
    obtain ⟨_, _, _, _, rfl⟩ := h
    exact .found

theorem openClarifications_code (h : Readiness.openClarifications env latest = some findings) :
    OfCode "open_clarification" findings := by
  unfold Readiness.openClarifications at h
  split at h
  · obtain rfl := Option.some.inj h
    exact .nil
  · simp only [bind, Option.bind_eq_some_iff, pure, Option.some.injEq] at h
    obtain ⟨_, _, _, _, rfl⟩ := h
    exact .found

theorem driftOf_code {entry : Dict} (h : driftOf env latest entry = some findings) :
    OfCode "package_drift" findings := by
  obtain ⟨_, _, rfl⟩ := Option.map_eq_some_iff.mp h
  split
  · exact .nil
  · exact .found

theorem mem_of_mapM {α β : Type} {f : α → Option β} {xs : List α} {ys : List β}
    (h : xs.mapM f = some ys) {y : β} (hy : y ∈ ys) : ∃ x ∈ xs, f x = some y := by
  induction xs generalizing ys with
  | nil =>
    obtain rfl := Option.some.inj h
    cases hy
  | cons x xs ih =>
    simp only [List.mapM_cons, bind, Option.bind_eq_some_iff, pure, Option.some.injEq] at h
    obtain ⟨y₀, hx, rest, hrest, rfl⟩ := h
    rcases List.mem_cons.mp hy with rfl | hy
    · exact ⟨x, List.mem_cons_self, hx⟩
    · obtain ⟨x', hx', hfx'⟩ := ih hrest hy
      exact ⟨x', List.mem_cons_of_mem _ hx', hfx'⟩

theorem packageDrift_code (h : packageDrift env latest = some findings) :
    OfCode "package_drift" findings := by
  unfold packageDrift at h
  split at h
  · obtain rfl := Option.some.inj h
    exact .nil
  · simp only [bind, Option.bind_eq_some_iff, pure, Option.some.injEq] at h
    obtain ⟨entries, _, found, hfound, rfl⟩ := h
    intro f hf
    obtain ⟨fs, hfs, hmem⟩ := List.mem_flatten.mp hf
    obtain ⟨entry, _, hentry⟩ := mem_of_mapM hfound hfs
    exact driftOf_code hentry f hmem

theorem redTeam_code {f : Finding} (h : f ∈ redTeam latest opinion) :
    f.code = "red_team" ∨ f.code = "redteam_unavailable" := by
  unfold redTeam at h
  split at h
  · cases h
  · split at h
    · cases h
    · right
      rw [List.mem_singleton.mp h]
    · left
      obtain ⟨_, _, rfl⟩ := List.mem_map.mp h
      rfl

/-- **A report, check by check**: the drift it reports is what the drift check found,
    and the open clarifications what their check found. -/
theorem readinessFindings_of (h : readinessFindings env opinion db = some findings) :
    ∃ drift clarifications, packageDrift env (currentOf db.artifacts.reverse) = some drift ∧
      Readiness.openClarifications env (currentOf db.artifacts.reverse) = some clarifications ∧
      (∀ f, f.code = "package_drift" → (f ∈ findings ↔ f ∈ drift)) ∧
      ∀ f, f.code = "open_clarification" → (f ∈ findings ↔ f ∈ clarifications) := by
  simp only [readinessFindings, bind, Option.bind_eq_some_iff, pure, Option.some.injEq] at h
  obtain ⟨drift, hdrift, weights, hweights, suppliers, hsuppliers, clarifications,
    hclarifications, rfl⟩ := h
  have hexists := @packageExists_code (currentOf db.artifacts.reverse)
  have hdrifts := packageDrift_code hdrift
  have hweight := criteriaWeights_code hweights
  have hshort := supplierShortfall_code hsuppliers
  have hopen := openClarifications_code hclarifications
  have hred : ∀ {f : Finding}, f.code ≠ "red_team" → f.code ≠ "redteam_unavailable" →
      f ∉ redTeam (currentOf db.artifacts.reverse) opinion := by
    intro f hadvice hfailed hmem
    rcases redTeam_code hmem with hcode | hcode
    · exact hadvice hcode
    · exact hfailed hcode
  refine ⟨drift, clarifications, hdrift, hclarifications, ?_, ?_⟩
  · intro f hcode
    have hadvice := hred (f := f) (by simp [hcode]) (by simp [hcode])
    simp [hexists.not_mem, hweight.not_mem, hshort.not_mem, hopen.not_mem, hadvice, hcode]
  · intro f hcode
    have hadvice := hred (f := f) (by simp [hcode]) (by simp [hcode])
    simp [hexists.not_mem, hdrifts.not_mem, hweight.not_mem, hshort.not_mem, hadvice, hcode]

end DigitalWorker
