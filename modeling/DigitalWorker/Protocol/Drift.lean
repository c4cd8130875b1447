import DigitalWorker.Preparation.Readiness
import DigitalWorker.Protocol.LegalWindow
import DigitalWorker.Protocol.Versions

/-! # Drift of a sealed package

    The manifest lists every artifact there is when the package is sealed, each of
    its versions on a line. The readiness check takes a line at a time: it reports a
    type when any line of it is older than the current version.
-/

namespace DigitalWorker

open Framework Readiness

/-! ## The property and its condition -/

def ReadinessReport.ReportsDrift (report : ReadinessReport) (t : ArtifactType) : Prop :=
  ∃ f ∈ report.findings, f.severity = .blocker ∧ f.code = "package_drift" ∧
    f.title = driftTitle t.value

def MovedOn (listed sealedRows : List PreparationArtifact) (t : ArtifactType) : Prop :=
  ∃ current, currentOf listed t.value = some current ∧
    (∃ a ∈ sealedRows, a.artifactType = t) ∧
    ∀ a ∈ sealedRows, a.artifactType = t → a.artifactVersion < current.artifactVersion

/-- **The condition**: a type that has not moved past one of its sealed versions was
    sealed in no older version. -/
def SealedOnce (listed sealedRows : List PreparationArtifact) : Prop :=
  ∀ a ∈ sealedRows, ∀ b ∈ sealedRows, a.artifactType = b.artifactType → ∀ current,
    currentOf listed a.artifactType.value = some current →
    current.artifactVersion ≤ b.artifactVersion → current.artifactVersion ≤ a.artifactVersion

structure Seals (manifest : PreparationArtifact) (sealedRows : List PreparationArtifact) : Prop where
  lines : manifest.content.get? "artifacts" = some (.arr (sealedRows.map manifestLine))
  version : manifest.artifactVersion = nextVersion sealedRows.reverse .officialPackageManifest

/-! ## The current version of a type -/

theorem ArtifactType.value_injective : Function.Injective ArtifactType.value := by
  intro t t' h
  let all : List ArtifactType :=
    [.intakeVerification, .supplierInput, .demandSnapshot, .completenessReport,
      .clarificationList, .clarificationResponse, .procurementApproach, .solicitationPackage,
      .evaluationCriteria, .supplierShortlist, .riskComplianceCheck, .officialPackageManifest,
      .publicationRecord, .addendumDraft, .addendumDecision, .submissionRegister, .lawReview,
      .bidOpeningRecord, .evaluationHandoff, .reviewRecommendation]
  have hread : ∀ t : ArtifactType, all.find? (fun u => u.value == t.value) = some t := by
    intro t
    cases t <;> decide
  have hsame := hread t
  rw [h, hread t'] at hsame
  exact (Option.some.inj hsame).symm

section

variable {listed : List PreparationArtifact} {a : PreparationArtifact} {t : ArtifactType}

theorem foldl_keepNewest_mem (start : Option PreparationArtifact)
    (h : listed.foldl keepNewest start = some a) : a ∈ listed ∨ start = some a := by
  induction listed generalizing start with
  | nil => exact .inr h
  | cons b rest ih =>
    rcases ih (keepNewest start b) h with hmem | hstart
    · exact .inl (List.mem_cons_of_mem _ hmem)
    · cases start with
      | none =>
        obtain rfl := Option.some.inj hstart
        exact .inl List.mem_cons_self
      | some c =>
        unfold keepNewest at hstart
        dsimp only at hstart
        split at hstart
        · obtain rfl := Option.some.inj hstart
          exact .inl List.mem_cons_self
        · exact .inr hstart

theorem currentOf_mem (h : currentOf listed t.value = some a) : a ∈ listed ∧ a.artifactType = t := by
  rcases foldl_keepNewest_mem none h with hmem | hnone
  · obtain ⟨hin, htype⟩ := List.mem_filter.mp hmem
    exact ⟨hin, ArtifactType.value_injective (by simpa using htype)⟩
  · cases hnone

theorem foldl_keepNewest_spec (start : Option PreparationArtifact)
    (h : listed.foldl keepNewest start = some a) :
    (∀ b ∈ listed, b.artifactVersion ≤ a.artifactVersion) ∧
      ∀ b, start = some b → b.artifactVersion ≤ a.artifactVersion := by
  induction listed generalizing start with
  | nil =>
    constructor
    · intro b hb
      cases hb
    · intro b hb
      obtain rfl := Option.some.inj (hb.symm.trans h)
      exact Nat.le_refl _
  | cons c rest ih =>
    obtain ⟨hrest, hstart⟩ := ih (keepNewest start c) h
    cases start with
    | none =>
      have hc := hstart c rfl
      constructor
      · intro b hb
        rcases List.mem_cons.mp hb with rfl | hb
        · exact hc
        · exact hrest b hb
      · intro b hb
        cases hb
    | some d =>
      by_cases hnewer : d.artifactVersion < c.artifactVersion
      · have hc := hstart c (if_pos hnewer)
        constructor
        · intro b hb
          rcases List.mem_cons.mp hb with rfl | hb
          · exact hc
          · exact hrest b hb
        · intro b hb
          obtain rfl := Option.some.inj hb
          omega
      · have hd := hstart d (if_neg hnewer)
        constructor
        · intro b hb
          rcases List.mem_cons.mp hb with rfl | hb
          · omega
          · exact hrest b hb
        · intro b hb
          obtain rfl := Option.some.inj hb
          exact hd

theorem foldl_keepNewest_none (start : Option PreparationArtifact)
    (h : listed.foldl keepNewest start = none) : listed = [] ∧ start = none := by
  induction listed generalizing start with
  | nil => exact ⟨rfl, h⟩
  | cons c rest ih =>
    obtain ⟨_, hnone⟩ := ih (keepNewest start c) h
    cases start with
    | none => cases hnone
    | some d =>
      unfold keepNewest at hnone
      dsimp only at hnone
      split at hnone <;> cases hnone

/-- **The latest artifact**, found in two ways: if no version is stored twice, the check
    and the repository agree on it. -/
theorem currentOf_eq_latest {rows : List PreparationArtifact}
    (honce : (rows.map (fun a => (a.artifactType, a.artifactVersion))).Nodup) (t : ArtifactType) :
    currentOf rows.reverse t.value = latest rows t := by
  cases hcurrent : currentOf rows.reverse t.value with
  | some a =>
    obtain ⟨hmem, htype⟩ := currentOf_mem hcurrent
    rw [List.mem_reverse] at hmem
    obtain ⟨b, hb, hle⟩ := latest_spec hmem htype
    obtain ⟨hbmem, hbtype⟩ := latest_mem hb
    have hnewest := (foldl_keepNewest_spec none hcurrent).1 b
      (List.mem_filter.mpr ⟨List.mem_reverse.mpr hbmem, by simp [hbtype]⟩)
    have hsame : (a.artifactType, a.artifactVersion) = (b.artifactType, b.artifactVersion) := by
      rw [htype, hbtype, Nat.le_antisymm hle hnewest]
    rw [hb, List.inj_on_of_nodup_map honce hmem hbmem hsame]
  | none =>
    cases hb : latest rows t with
    | none => rfl
    | some b =>
      obtain ⟨hbmem, hbtype⟩ := latest_mem hb
      obtain ⟨hnil, _⟩ := foldl_keepNewest_none none hcurrent
      have hin : b ∈ rows.reverse.filter (fun a => a.artifactType.value == t.value) :=
        List.mem_filter.mpr ⟨List.mem_reverse.mpr hbmem, by simp [hbtype]⟩
      rw [hnil] at hin
      cases hin

theorem nextVersion_gt (h : a ∈ listed) :
    a.artifactVersion < nextVersion listed a.artifactType := by
  obtain ⟨b, hb, hle⟩ := latest_spec h rfl
  unfold nextVersion
  rw [hb]
  show a.artifactVersion < b.artifactVersion + 1
  omega

end

/-! ## What the check finds -/

section

variable {env : Env} {context : AccessContext} {opinion : SecondOpinion} {db : CaseDb}
  {latest : String → Option PreparationArtifact} {report : ReadinessReport}
  {manifest : PreparationArtifact} {sealedRows later : List PreparationArtifact} {t : ArtifactType}

def manifestEntry (a : PreparationArtifact) : Dict :=
  [("type", .str a.artifactType.value), ("version", .num a.artifactVersion),
    ("content_hash", .str a.contentHash)]

theorem manifestLines_entries (rows : List PreparationArtifact) :
    (rows.map manifestLine).filterMap Json.dict? = rows.map manifestEntry := by
  have hlines : Json.dict? ∘ manifestLine = some ∘ manifestEntry := rfl
  rw [List.filterMap_map, hlines, List.filterMap_eq_map]

theorem driftOf_line (a : PreparationArtifact) :
    ∃ found, driftOf env latest (manifestEntry a) = some found ∧
      ∀ t : ArtifactType, (∃ f ∈ found, f.title = driftTitle t.value) ↔
        a.artifactType = t ∧ ∃ current, latest t.value = some current ∧
          a.artifactVersion < current.artifactVersion := by
  have htitle : ∀ t u : ArtifactType, driftTitle t.value = driftTitle u.value ↔ t = u := by
    intro t u
    constructor
    · intro heq
      have hkinds : "«" ++ t.value = "«" ++ u.value := (String.append_left_inj _).mp heq
      exact ArtifactType.value_injective ((String.append_right_inj _).mp hkinds)
    · intro heq
      rw [heq]
  refine ⟨_, rfl, ?_⟩
  intro t
  have hkind : ((manifestEntry a).getD "type" (.str "")).pyStr env.repr = a.artifactType.value :=
    rfl
  simp only [hkind]
  cases hlatest : latest a.artifactType.value with
  | none =>
    constructor
    · rintro ⟨f, hf, _⟩
      cases hf
    · rintro ⟨rfl, current, hcurrent, _⟩
      rw [hlatest] at hcurrent
      cases hcurrent
  | some current =>
    by_cases hle : (current.artifactVersion : Int) ≤ (a.artifactVersion : Int)
    · simp only [if_pos hle]
      constructor
      · rintro ⟨f, hf, _⟩
        cases hf
      · rintro ⟨rfl, current', hcurrent, hlt⟩
        rw [hlatest] at hcurrent
        obtain rfl := Option.some.inj hcurrent
        omega
    · simp only [if_neg hle, List.mem_singleton, exists_eq_left]
      rw [htitle]
      constructor
      · rintro rfl
        exact ⟨rfl, current, hlatest, by omega⟩
      · rintro ⟨rfl, _⟩
        rfl

theorem driftLines_found (rows : List PreparationArtifact) {found : List (List Finding)}
    (h : (rows.map manifestEntry).mapM (driftOf env latest) = some found)
    (t : ArtifactType) : (∃ f ∈ found.flatten, f.title = driftTitle t.value) ↔
      ∃ a ∈ rows, a.artifactType = t ∧ ∃ current, latest t.value = some current ∧
        a.artifactVersion < current.artifactVersion := by
  induction rows generalizing found with
  | nil =>
    obtain rfl := Option.some.inj h
    simp
  | cons a rows ih =>
    obtain ⟨first, hfirst, hline⟩ := @driftOf_line env latest a
    simp only [List.map_cons, List.mapM_cons, hfirst, bind, Option.bind_some, Option.bind_eq_some_iff, pure,
      Option.some.injEq] at h
    obtain ⟨rest, hrest, rfl⟩ := h
    have hrows := ih hrest
    simp only [List.flatten_cons, List.mem_append, or_and_right, exists_or, hline, hrows,
      List.mem_cons, exists_eq_left]

/-- **Drift lemma**: a type is reported when some line of it is older than its current
    version. -/
theorem reportsDrift_iff (hcurrent : currentOf db.artifacts.reverse "official_package_manifest" =
      some manifest) (hseals : Seals manifest sealedRows)
    (h : assessReadiness env context opinion db = .ok (some report)) (t : ArtifactType) :
    report.ReportsDrift t ↔ ∃ a ∈ sealedRows, a.artifactType = t ∧
      ∃ current, currentOf db.artifacts.reverse t.value = some current ∧
        a.artifactVersion < current.artifactVersion := by
  obtain ⟨findings, hfindings, rfl⟩ := assessReadiness_ok h
  obtain ⟨drift, _, hdrift, _, hof, _⟩ := readinessFindings_of hfindings
  have hdrift' := hdrift
  unfold packageDrift at hdrift'
  rw [hcurrent] at hdrift'
  simp only [Dict.getD, hseals.lines, Option.getD_some, readItems, manifestLines_entries, bind,
    Option.bind_some, Option.bind_eq_some_iff, pure, Option.some.injEq] at hdrift'
  obtain ⟨found, hfound, rfl⟩ := hdrift'
  rw [← driftLines_found sealedRows hfound t]
  have hcode := packageDrift_code hdrift
  constructor
  · rintro ⟨f, hf, _, hfcode, htitle⟩
    exact ⟨f, (hof f hfcode).mp hf, htitle⟩
  · rintro ⟨f, hf, htitle⟩
    refine ⟨f, (hof f (hcode f hf)).mpr hf, ?_, hcode f hf, htitle⟩
    obtain ⟨fs, hfs, hmem⟩ := List.mem_flatten.mp hf
    obtain ⟨entry, _, hentry⟩ := mem_of_mapM hfound hfs
    obtain ⟨_, _, rfl⟩ := Option.map_eq_some_iff.mp hentry
    split at hmem
    · cases hmem
    · split at hmem
      · cases hmem
      · rw [List.mem_singleton.mp hmem]

/-- **Drift is reported exactly**, and not at all right after the sealing, if and only
    if no type that stands where it was sealed was sealed in an older version as well,
    and, right after the sealing, no manifest was sealed. -/
theorem drift_exact_iff (hlisted : db.artifacts.reverse = sealedRows ++ manifest :: later)
    (hcurrent : currentOf db.artifacts.reverse "official_package_manifest" = some manifest)
    (hseals : Seals manifest sealedRows)
    (h : assessReadiness env context opinion db = .ok (some report)) :
    (∀ t, report.ReportsDrift t ↔ MovedOn db.artifacts.reverse sealedRows t) ∧
        (later = [] → ∀ t, ¬ report.ReportsDrift t) ↔
      SealedOnce db.artifacts.reverse sealedRows ∧
        (later = [] → ∀ a ∈ sealedRows, a.artifactType ≠ .officialPackageManifest) := by
  have hreports := reportsDrift_iff hcurrent hseals h
  constructor
  · rintro ⟨hexact, hnow⟩
    constructor
    · intro a ha b hb htype current hat hle
      by_contra hlt
      obtain ⟨current', hat', _, hall⟩ := (hexact a.artifactType).mp
        ((hreports a.artifactType).mpr ⟨a, ha, rfl, current, hat, by omega⟩)
      obtain rfl := Option.some.inj (hat.symm.trans hat')
      have hnewer := hall b hb htype.symm
      omega
    · intro hlater a ha htype
      have hnewer := @nextVersion_gt sealedRows.reverse a (List.mem_reverse.mpr ha)
      rw [htype, ← hseals.version] at hnewer
      exact hnow hlater .officialPackageManifest
        ((hreports _).mpr ⟨a, ha, htype, manifest, hcurrent, hnewer⟩)
  · rintro ⟨honce, hfirst⟩
    constructor
    · intro t
      rw [hreports]
      constructor
      · rintro ⟨a, ha, rfl, current, hat, hlt⟩
        refine ⟨current, hat, ⟨a, ha, rfl⟩, ?_⟩
        intro b hb htype
        by_contra hle
        have hnewer := honce a ha b hb htype.symm current hat (by omega)
        omega
      · rintro ⟨current, hat, ⟨a, ha, htype⟩, hall⟩
        exact ⟨a, ha, htype, current, hat, hall a ha htype⟩
    · intro hlater t hreport
      obtain ⟨a, ha, rfl, current, hat, hlt⟩ := (hreports t).mp hreport
      -- what is current is sealed too, unless it is the manifest
      obtain ⟨hmem, htype⟩ := currentOf_mem hat
      rw [hlisted, hlater] at hmem
      rcases List.mem_append.mp hmem with hmem | hmem
      · have hle := honce a ha current hmem htype.symm current hat (Nat.le_refl _)
        omega
      · obtain rfl := List.mem_singleton.mp hmem
        have hkind := (@currentOf_mem _ _ .officialPackageManifest hcurrent).2
        exact hfirst hlater a ha (htype.symm.trans hkind)

/-! ## Sealing -/

end

/-! ## Two packages -/

namespace Office

def reader : AccessContext :=
  { principalId := chi, roles := ["platform_admin"], scopes := ["tender.read"] }

def package : PreparationArtifact :=
  { id := run, artifactType := .solicitationPackage, artifactVersion := 1, status := .draft
    content := [], createdBy := an, contentHash := "hash" }

def manifest : PreparationArtifact :=
  { id := cp2Request, artifactType := .officialPackageManifest, artifactVersion := 1
    status := .official, content := [("artifacts", .arr [manifestLine package])], createdBy := an
    contentHash := "seal" }

def sealedOnce : CaseDb := { opened.db with artifacts := [manifest, package] }

/-- It is reported exactly: not at all. -/
theorem sealed_once_quiet : ∃ report,
    assessReadiness env reader .unwired sealedOnce = .ok (some report) ∧
      (∀ t, report.ReportsDrift t ↔ MovedOn sealedOnce.artifacts.reverse [package] t) ∧
      ∀ t, ¬ report.ReportsDrift t := by
  have hreport : assessReadiness env reader .unwired sealedOnce = .ok (some (reportOf [])) := by
    decide +kernel
  have honce : SealedOnce sealedOnce.artifacts.reverse [package] := by
    intro a ha b hb _ current _ hle
    rw [List.mem_singleton.mp ha]
    rw [List.mem_singleton.mp hb] at hle
    exact hle
  have hnone : ∀ a ∈ [package], a.artifactType ≠ .officialPackageManifest := by
    intro a ha
    rw [List.mem_singleton.mp ha]
    decide
  obtain ⟨hexact, hnow⟩ := (@drift_exact_iff _ _ _ _ _ manifest [package] [] rfl rfl
    ⟨rfl, rfl⟩ hreport).mpr ⟨honce, fun _ => hnone⟩
  exact ⟨reportOf [], hreport, hexact, hnow rfl⟩

def approachDrifts (w : World) : Bool :=
  match assessReadiness env reader .unwired w.db with
  | .ok (some report) => report.findings.any (fun f => f.severity == .blocker &&
      f.code == "package_drift" && f.title == driftTitle ArtifactType.procurementApproach.value)
  | _ => false

/-- A package right after `finalize_official` sealed it: the approach was drafted and then
    stored again with the verdict of its gate, so it is reported to have moved. -/
theorem sealed_package_drifts : ∃ e es w report, Exec (preparation env) (e :: es) w ∧
    (passedNode .finalizeOfficial e).isSome = true ∧
      assessReadiness env reader .unwired w.db = .ok (some report) ∧
      report.ReportsDrift .procurementApproach := by
  have hruns : (preparation env).runs opened (toOfficial (some 14))
      (fun es w => (es.head?.bind (passedNode .finalizeOfficial)).isSome && approachDrifts w) = true := by
    decide +kernel
  obtain ⟨es, w, hexec, htest⟩ := Machine.exec_of_runs opened_init hruns
  rw [Bool.and_eq_true] at htest
  obtain ⟨hpassed, hdrifts⟩ := htest
  cases es with
  | nil => cases hpassed
  | cons e es =>
    simp only [approachDrifts] at hdrifts
    split at hdrifts
    · next report hreport =>
      obtain ⟨f, hf, hfound⟩ := List.any_eq_true.mp hdrifts
      simp only [Bool.and_eq_true, beq_iff_eq] at hfound
      exact ⟨e, es, w, report, hexec, hpassed, hreport, f, hf, hfound.1.1, hfound.1.2, hfound.2⟩
    · cases hdrifts

end Office

end DigitalWorker
