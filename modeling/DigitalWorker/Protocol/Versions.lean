import DigitalWorker.Protocol.Frames
import DigitalWorker.Protocol.Transitions

/-! # The versions of the artifacts

    Nodes, handlers, the amendment, the answer to clarifications and the
    verification all read the artifacts of a case, plan a version and write it
    later, in transactions that overlap as they like. The unique index on case,
    type and version refuses a commit whose version somebody else committed first.
-/

namespace DigitalWorker

open Framework

/-! ## The log of a case -/

def artifactLog (env : Env) : Machine (LogState PreparationArtifact) (LogAction Write) :=
  versionedLog PreparationArtifact.artifactType PreparationArtifact.artifactVersion
    (Write.plan env)
    (fun rows => ∃ directory call cmd db, createCase env directory call cmd = .ok db ∧
      rows = db.artifacts)

abbrev storedVersions (rows : List PreparationArtifact) (t : ArtifactType) : List Nat :=
  versionsOf PreparationArtifact.artifactType PreparationArtifact.artifactVersion rows t

abbrev DenseArtifacts (rows : List PreparationArtifact) : Prop :=
  Dense PreparationArtifact.artifactType PreparationArtifact.artifactVersion rows

section

variable {env : Env} {rows : List PreparationArtifact} {t : ArtifactType}

theorem createCase_dense {directory : Directory} {call : Call} {cmd : CreatePreparationCaseCommand}
    {db : CaseDb} (h : createCase env directory call cmd = .ok db) :
    DenseArtifacts db.artifacts := by
  simp only [createCase, authorize, requireFeature, ↓raiseIf_bind_ok, bind_ok] at h
  obtain ⟨_, _, _, _, _, _, _, _, _, _, _, h⟩ := h
  obtain rfl := Except.ok.inj h
  simp only [CaseDb.send_artifacts, CaseDb.addApplicationArtifact, CaseDb.addArtifact]
  refine ⟨List.nodup_singleton _, ?_⟩
  intro a ha
  left
  rw [List.mem_singleton.mp ha]
  rfl

/-- `latest` finds an artifact of the type when there is one, and none is newer. -/
theorem latest_spec {a : PreparationArtifact} (ha : a ∈ rows) (ht : a.artifactType = t) :
    ∃ b, latest rows t = some b ∧ a.artifactVersion ≤ b.artifactVersion := by
  induction rows with
  | nil => cases ha
  | cons c rest ih =>
    by_cases hc : c.artifactType = t
    · simp only [latest, hc, if_true]
      rcases List.mem_cons.mp ha with rfl | ha
      · split
        · next d _ =>
          split
          · exact ⟨d, rfl, by omega⟩
          · exact ⟨a, rfl, by omega⟩
        · exact ⟨a, rfl, by omega⟩
      · obtain ⟨b, hb, hle⟩ := ih ha
        simp only [hb]
        split
        · exact ⟨b, rfl, hle⟩
        · exact ⟨c, rfl, by omega⟩
    · rw [latest_cons_ne hc]
      rcases List.mem_cons.mp ha with rfl | ha
      · exact absurd ht hc
      · exact ih ha

theorem latest_version (h : DenseArtifacts rows) (t : ArtifactType) :
    (latest rows t).map PreparationArtifact.artifactVersion =
      if (storedVersions rows t).length = 0 then none
      else some (storedVersions rows t).length := by
  have hperm : (storedVersions rows t).Perm (List.range' 1 (storedVersions rows t).length) :=
    h.versions_perm t
  cases hl : latest rows t with
  | none =>
    -- no row of the type, so no version of it
    have hnil : storedVersions rows t = [] := by
      rw [List.eq_nil_iff_forall_not_mem]
      intro v hv
      obtain ⟨a, ha, htype, _⟩ := mem_versionsOf.mp hv
      obtain ⟨b, hb, _⟩ := latest_spec ha htype
      rw [hl] at hb
      cases hb
    rw [hnil]
    rfl
  | some b =>
    obtain ⟨hmem, htype⟩ := latest_mem hl
    have hb : b.artifactVersion ∈ storedVersions rows t := mem_versionsOf.mpr ⟨b, hmem, htype, rfl⟩
    have hpos : 0 < (storedVersions rows t).length := List.length_pos_of_mem hb
    have hle : b.artifactVersion ≤ (storedVersions rows t).length := by
      have := hperm.mem_iff.mp hb
      rw [List.mem_range'_1] at this
      omega
    -- version n is stored, and `latest` is at least as new
    have hge : (storedVersions rows t).length ≤ b.artifactVersion := by
      have hn : (storedVersions rows t).length ∈ storedVersions rows t := by
        rw [hperm.mem_iff, List.mem_range'_1]
        omega
      obtain ⟨a, ha, hatype, haver⟩ := mem_versionsOf.mp hn
      obtain ⟨c, hc, hnewest⟩ := latest_spec ha hatype
      rw [hl] at hc
      obtain rfl := Option.some.inj hc
      omega
    rw [if_neg (by omega), Option.map_some]
    exact congrArg some (by omega)

end

/-- **Main theorem**: after every run of overlapping writers the committed versions
    of a type are 1 to n, `latest` finds version n, and every row committed
    before is still there as it was. -/
theorem artifact_versions (env : Env) {es : List (Event (LogState PreparationArtifact)
    (LogAction Write))} {s : LogState PreparationArtifact} (hrun : Exec (artifactLog env) es s) :
    (∀ t, (storedVersions s.committed t).Perm
      (List.range' 1 (storedVersions s.committed t).length)) ∧
    (∀ t, (latest s.committed t).map PreparationArtifact.artifactVersion =
      if (storedVersions s.committed t).length = 0 then none
      else some (storedVersions s.committed t).length) ∧
    ∀ e ∈ es, e.pre.committed <:+ s.committed := by
  have hdense : DenseArtifacts s.committed := by
    refine hrun.dense ?_ (fun _ _ _ => Write.plan_continues)
    rintro rows ⟨directory, call, cmd, db, hcreate, rfl⟩
    exact createCase_dense hcreate
  exact ⟨hdense.versions_perm, latest_version hdense, hrun.committed_suffix⟩

namespace Office

def runSnapshot : Write := .node { text := "s1" } an .demandSnapshot [("unknowns", .arr [])] .draft
def amendSnapshot : Write :=
  .application { text := "s2" } an .demandSnapshot [("changes", .arr [])] .draft

/-- Both read before either commits; the one that loses tries again. -/
def overlapping : List (LogAction Write) :=
  [.begin 0, .begin 1, .write 0 runSnapshot 0, .write 1 amendSnapshot 0, .commit 0, .commit 1,
    .begin 1, .write 1 amendSnapshot 0, .commit 1]

theorem overlapping_versions : ∃ es s, Exec (artifactLog env) es s ∧
    storedVersions s.committed .demandSnapshot = [2, 1] ∧
    (storedVersions s.committed .demandSnapshot).Perm (List.range' 1 2) := by
  have hinit : (artifactLog env).init ⟨opened.db.artifacts, fun _ => none⟩ := by
    obtain ⟨call, cmd, hcreate, _⟩ := opened_init
    exact ⟨⟨_, call, cmd, opened.db, hcreate, rfl⟩, fun _ => rfl⟩
  have hruns : (artifactLog env).runs ⟨opened.db.artifacts, fun _ => none⟩ overlapping
      (fun _ s => storedVersions s.committed .demandSnapshot == [2, 1]) = true := by
    decide +kernel
  obtain ⟨es, s, hrun, htest⟩ := Machine.exec_of_runs hinit hruns
  have hversions : storedVersions s.committed .demandSnapshot = [2, 1] := eq_of_beq htest
  have hperm := (artifact_versions env hrun).1 .demandSnapshot
  rw [hversions] at hperm
  exact ⟨es, s, hrun, hversions, hversions ▸ hperm⟩

end Office

/-! ## The world writes through the log -/

section

variable {env : Env} {ts : List ArtifactType} {rows rows' : List PreparationArtifact}

theorem lt_nextVersion {a : PreparationArtifact} (ha : a ∈ rows) {t : ArtifactType}
    (ht : a.artifactType = t) : a.artifactVersion < nextVersion rows t := by
  obtain ⟨b, hb, hle⟩ := latest_spec ha ht
  simp only [nextVersion, hb]
  omega

def Unrepeated (rows : List PreparationArtifact) : Prop :=
  (rows.map (fun a => (a.artifactType, a.artifactVersion))).Nodup

theorem Unrepeated.cons {a : PreparationArtifact} (h : Unrepeated rows)
    (hnew : ∀ b ∈ rows, b.artifactType = a.artifactType → b.artifactVersion ≠ a.artifactVersion) :
    Unrepeated (a :: rows) := by
  unfold Unrepeated
  rw [List.map_cons, List.nodup_cons]
  refine ⟨?_, h⟩
  intro hmem
  obtain ⟨b, hb, hsame⟩ := List.mem_map.mp hmem
  obtain ⟨htype, hversion⟩ := Prod.mk.inj hsame
  exact hnew b hb htype hversion

theorem Appends.unrepeated (h : Appends env ts rows rows') (hts : .intakeVerification ∉ ts)
    (hrows : Unrepeated rows) : Unrepeated rows' := by
  induction h with
  | refl => exact hrows
  | tail _ hstep ih =>
    obtain ⟨w, hw, rfl⟩ := hstep
    unfold Write.apply planned
    split
    · next a ha =>
      apply ih.cons
      intro b hb htype hversion
      rcases Write.plan_version ha with ⟨_, hintake⟩ | hnext
      · exact hts (hintake ▸ hw)
      · have hless := lt_nextVersion hb htype
        omega
    · exact ih

theorem Appends.mem_type (h : Appends env ts rows rows') :
    ∀ a ∈ rows', a ∈ rows ∨ a.artifactType ∈ ts := by
  induction h with
  | refl => exact fun a ha => .inl ha
  | tail _ hstep ih =>
    obtain ⟨w, hw, rfl⟩ := hstep
    intro a ha
    unfold Write.apply planned at ha
    split at ha
    · next b hb =>
      rcases List.mem_cons.mp ha with rfl | ha
      · exact .inr (Write.plan_type hb ▸ hw)
      · exact ih a ha
    · exact ih a ha

theorem Appends.writes (h : Appends env ts rows rows') :
    ∃ ws : List Write, rows' = ws.foldl (planned (Write.plan env)) rows := by
  induction h with
  | refl => exact ⟨[], rfl⟩
  | tail _ hstep ih =>
    obtain ⟨w, _, rfl⟩ := hstep
    obtain ⟨ws, rfl⟩ := ih
    refine ⟨ws ++ [w], ?_⟩
    rw [List.foldl_append]
    rfl

theorem step_is_transaction {w w' : World} {a : Action} {s : LogState PreparationArtifact} {t : Nat}
    {les : List (Event (LogState PreparationArtifact) (LogAction Write))}
    (hs : w.step env a = some w') (hlog : s.committed = w.db.artifacts)
    (hfree : s.pending t = none) (hunique : Unrepeated w'.db.artifacts) :
    ∃ ws les', (artifactLog env).run les s (transaction t ws) =
      some (les', { s with committed := w'.db.artifacts }) := by
  obtain ⟨ws, hws⟩ := (World.step_filed hs).artifacts.writes
  rw [← hlog] at hws
  unfold Unrepeated at hunique
  rw [hws] at hunique ⊢
  obtain ⟨les', hrun⟩ := run_transaction hfree hunique
  exact ⟨ws, les', hrun⟩

/-! ## The index never stops the world -/

/-- The writer of the intake verification does not look for the version it writes. -/
structure IndexFits (w : World) : Prop where
  unrepeated : Unrepeated w.db.artifacts
  draft : w.db.case.state = .draft → ∀ a ∈ w.db.artifacts, a.artifactType ≠ .intakeVerification

theorem verifyIntake_artifacts {call : Call} {ref comment : String} {db db' : CaseDb}
    (h : verifyIntake env call ref comment db = .ok db') :
    ∃ a, a.artifactType = .intakeVerification ∧ db'.artifacts = a :: db.artifacts := by
  simp only [verifyIntake, authorize, ↓raiseIf_bind_ok, bind_ok] at h
  obtain ⟨_, _, _, _, _, case, _, hsave⟩ := h
  obtain ⟨_, rfl⟩ := CaseDb.saveCase_ok.mp hsave
  refine ⟨_, ?_, CaseDb.send_artifacts⟩
  rfl

theorem files_not_intake {w : World} {a : Action}
    (ha : ∀ call ref comment, a ≠ .handle call (.verifyIntake ref comment)) :
    ArtifactType.intakeVerification ∉ (w.files a).2 := by
  cases a with
  | handle call h =>
    cases h with
    | verifyIntake ref comment => exact absurd rfl (ha call ref comment)
    | _ => simp [World.files, Handler.writes]
  | node r inp =>
    simp only [World.files]
    split
    · split
      · next n _ => cases n <;> simp [NodeName.writes]
      · simp
    · simp
  | _ => simp [World.files]

theorem IndexFits.step {w w' : World} {a : Action} (h : IndexFits w)
    (hs : w.step env a = some w') : IndexFits w' := by
  by_cases hverify : ∃ call ref comment, a = .handle call (.verifyIntake ref comment)
  · obtain ⟨call, ref, comment, rfl⟩ := hverify
    obtain ⟨db, hrun, rfl⟩ := World.step_handle hs
    obtain ⟨row, htype, hrows⟩ := verifyIntake_artifacts hrun
    obtain ⟨_, hstate, hcase⟩ := PreparationCase.verifyIntake_ok.mp (verifyIntake_ok hrun).1
    constructor
    · show Unrepeated db.artifacts
      rw [hrows]
      apply h.unrepeated.cons
      intro b hb hsame
      exact absurd (hsame.trans htype) (h.draft hstate b hb)
    · intro hdraft
      have hdraft : db.case.state = .draft := hdraft
      rw [hcase] at hdraft
      cases hdraft
  · have hts := files_not_intake (w := w) (fun call ref comment ha => hverify ⟨call, ref, comment, ha⟩)
    have happends := (World.step_filed hs).artifacts
    constructor
    · exact happends.unrepeated hts h.unrepeated
    · intro hdraft b hb
      have hbefore : w.db.case.state = .draft := by
        by_contra hnot
        -- nothing leads back to a draft
        rcases step_moved hs (by rw [hdraft]; exact fun heq => hnot heq.symm) with
          ⟨_, hd, _, hmoves⟩ | hrestarted | ⟨_, _, _, n, _, _, _, htarget⟩
        · rw [hdraft] at hmoves
          cases hd <;> simp [Handler.transitions] at hmoves
        · rw [hdraft] at hrestarted
          simp at hrestarted
        · rw [hdraft] at htarget
          cases n <;> simp [NodeName.targets] at htarget
      rcases happends.mem_type b hb with hold | hnew
      · exact h.draft hbefore b hold
      · exact fun heq => hts (heq ▸ hnew)

theorem IndexFits.initial {w : World} (hw : (preparation env).init w) : IndexFits w := by
  obtain ⟨_, _, hcreate, _⟩ := hw
  constructor
  · exact (createCase_dense hcreate).unique
  · intro _ a ha heq
    rw [(createCase_ok hcreate).artifacts a ha] at heq
    cases heq

end

namespace Office

end Office

end DigitalWorker
