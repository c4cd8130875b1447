import DigitalWorker.Framework.VersionedLog
import DigitalWorker.Preparation.Amend
import DigitalWorker.Preparation.Handoff
import DigitalWorker.Preparation.NodeWrites
import DigitalWorker.Preparation.Tendering

/-! # The writers of artifacts

    Four pieces of code append an artifact: the nodes, the handlers' common
    writer, the answer to clarifications and the verification of the intake.
    Each plans one row from the rows it reads. Whatever a node or a handler
    writes, it writes through these, and only under the types listed for it; the
    latest artifact of every other type stays what it was.
-/

namespace DigitalWorker

open Framework

/-! ## The rows the writers plan -/

inductive Write where
  /-- `PreparationNodes._add_artifact`. -/
  | node (id createdBy : Uuid) (t : ArtifactType) (content : Dict) (status : ArtifactStatus)
  /-- `_add_application_artifact`. -/
  | application (id actor : Uuid) (t : ArtifactType) (content : Dict) (status : ArtifactStatus)
  /-- `AnswerPreparationClarificationsHandler.handle`. -/
  | clarificationResponse (id user : Uuid) (content : Dict)
  /-- `VerifyPreparationIntakeHandler.handle`. -/
  | intakeVerification (id user : Uuid) (content : Dict)

namespace Write

def artifactType : Write → ArtifactType
  | node _ _ t _ _ => t
  | application _ _ t _ _ => t
  | clarificationResponse _ _ _ => .clarificationResponse
  | intakeVerification _ _ _ => .intakeVerification

def plan (env : Env) (w : Write) (rows : List PreparationArtifact) : Option PreparationArtifact :=
  match w with
  | node id createdBy t content status =>
    match latest rows t with
    | some a =>
      if a.contentHash = env.contentHash content then none
      else some
        { id := id, artifactType := t, artifactVersion := a.artifactVersion + 1, status := status
          content := content, createdBy := createdBy, contentHash := env.contentHash content }
    | none => some
      { id := id, artifactType := t, artifactVersion := 1, status := status, content := content
        createdBy := createdBy, contentHash := env.contentHash content }
  | application id actor t content status => some
    { id := id, artifactType := t
      artifactVersion := match latest rows t with | some a => a.artifactVersion + 1 | none => 1
      status := status, content := content, createdBy := actor
      contentHash := env.contentHash content }
  | clarificationResponse id user content => some
    { id := id, artifactType := .clarificationResponse
      artifactVersion := match latest rows .clarificationResponse with
        | some a => a.artifactVersion + 1
        | none => 1
      status := .submitted, content := content, createdBy := user
      contentHash := env.contentHash content }
  | intakeVerification id user content => some
    { id := id, artifactType := .intakeVerification, artifactVersion := 1, status := .approved
      content := content, createdBy := user, contentHash := env.contentHash content }

def apply (env : Env) (w : Write) (rows : List PreparationArtifact) : List PreparationArtifact :=
  planned (plan env) rows w

variable {env : Env} {w : Write} {rows : List PreparationArtifact} {a : PreparationArtifact}

theorem plan_type (h : w.plan env rows = some a) : a.artifactType = w.artifactType := by
  cases w with
  | node id createdBy t content status =>
    simp only [plan] at h
    split at h
    · split at h
      · cases h
      · rw [← Option.some.inj h]
        rfl
    · rw [← Option.some.inj h]
      rfl
  | application id actor t content status =>
    rw [← Option.some.inj h]
    rfl
  | clarificationResponse id user content =>
    rw [← Option.some.inj h]
    rfl
  | intakeVerification id user content =>
    rw [← Option.some.inj h]
    rfl

theorem plan_version (h : w.plan env rows = some a) :
    (a.artifactVersion = 1 ∧ w.artifactType = .intakeVerification) ∨
      a.artifactVersion = nextVersion rows a.artifactType := by
  cases w with
  | node id createdBy t content status =>
    right
    simp only [plan] at h
    split at h
    · next b hb =>
      split at h
      · cases h
      · rw [← Option.some.inj h]
        show _ = nextVersion rows t
        rw [nextVersion, hb]
    · next hnone =>
      rw [← Option.some.inj h]
      show _ = nextVersion rows t
      rw [nextVersion, hnone]
  | application id actor t content status =>
    right
    rw [← Option.some.inj h]
    rfl
  | clarificationResponse id user content =>
    right
    rw [← Option.some.inj h]
    rfl
  | intakeVerification id user content =>
    left
    rw [← Option.some.inj h]
    exact ⟨rfl, rfl⟩

theorem plan_continues (h : w.plan env rows = some a) :
    Continues PreparationArtifact.artifactType PreparationArtifact.artifactVersion rows a := by
  rcases plan_version h with ⟨hone, _⟩ | hnext
  · exact .inl hone
  · cases hl : latest rows a.artifactType with
    | none =>
      left
      rw [hnext, nextVersion, hl]
    | some b =>
      have hver : a.artifactVersion = b.artifactVersion + 1 := by rw [hnext, nextVersion, hl]
      obtain ⟨hmem, htype⟩ := latest_mem hl
      by_cases hzero : b.artifactVersion = 0
      · left
        omega
      · exact .inr ⟨by omega, b, hmem, htype, by omega⟩

theorem apply_latest_ne {t : ArtifactType} (h : w.artifactType ≠ t) :
    latest (w.apply env rows) t = latest rows t := by
  unfold apply planned
  split
  · next b hb =>
    apply latest_cons_ne
    rw [plan_type hb]
    exact h
  · rfl

theorem suffix_apply : rows <:+ w.apply env rows := by
  unfold apply planned
  split
  · exact List.suffix_cons _ _
  · exact List.suffix_refl _

end Write

/-! ## The operations of the rows are these writers -/

namespace CaseDb

variable {env : Env} {db : CaseDb} {id actor : Uuid} {t : ArtifactType} {content : Dict}
  {status : ArtifactStatus}

theorem addNodeArtifact_artifacts :
    (db.addNodeArtifact env id t content status).artifacts =
      (Write.node id db.case.createdBy t content status).apply env db.artifacts := by
  unfold addNodeArtifact Write.apply planned
  simp only [Write.plan]
  cases hl : latest db.artifacts t with
  | none => simp [addApplicationArtifact, addArtifact, nextVersion, hl]
  | some a =>
    by_cases hhash : a.contentHash = env.contentHash content
    · simp [hhash]
    · simp [hhash, addApplicationArtifact, addArtifact, nextVersion, hl]

theorem addClarificationResponse_artifacts :
    (db.addApplicationArtifact env id actor .clarificationResponse content .submitted).artifacts =
      (Write.clarificationResponse id actor content).apply env db.artifacts := rfl

end CaseDb

/-! ## What a transaction appends -/

def AppendsOne (env : Env) (ts : List ArtifactType) (rows rows' : List PreparationArtifact) :
    Prop :=
  ∃ w : Write, w.artifactType ∈ ts ∧ rows' = w.apply env rows

/-- Writers appended, one after the other, under the types `ts`. -/
def Appends (env : Env) (ts : List ArtifactType) :
    List PreparationArtifact → List PreparationArtifact → Prop :=
  Relation.ReflTransGen (AppendsOne env ts)

namespace Appends

variable {env : Env} {ts us : List ArtifactType} {rows rows' rows'' : List PreparationArtifact}

theorem refl : Appends env ts rows rows := Relation.ReflTransGen.refl

theorem trans (h : Appends env ts rows rows') (h' : Appends env ts rows' rows'') :
    Appends env ts rows rows'' := Relation.ReflTransGen.trans h h'

theorem write (h : Appends env ts rows rows') {w : Write} (hw : w.artifactType ∈ ts) :
    Appends env ts rows (w.apply env rows') :=
  Relation.ReflTransGen.tail h ⟨w, hw, rfl⟩

theorem latest_eq (h : Appends env ts rows rows') {t : ArtifactType} (ht : t ∉ ts) :
    latest rows' t = latest rows t := by
  induction h with
  | refl => rfl
  | tail _ hstep ih =>
    obtain ⟨w, hw, rfl⟩ := hstep
    rw [Write.apply_latest_ne, ih]
    intro heq
    exact ht (heq ▸ hw)

theorem suffix (h : Appends env ts rows rows') : rows <:+ rows' := by
  induction h with
  | refl => exact List.suffix_refl rows
  | tail _ hstep ih =>
    obtain ⟨w, _, rfl⟩ := hstep
    exact ih.trans Write.suffix_apply

theorem nodeArtifact {db : CaseDb} {id : Uuid} {t : ArtifactType} {content : Dict}
    {status : ArtifactStatus} (h : Appends env ts rows db.artifacts) (ht : t ∈ ts) :
    Appends env ts rows (db.addNodeArtifact env id t content status).artifacts := by
  rw [CaseDb.addNodeArtifact_artifacts]
  exact h.write ht

theorem applicationArtifact {db : CaseDb} {id actor : Uuid} {t : ArtifactType} {content : Dict}
    {status : ArtifactStatus} (h : Appends env ts rows db.artifacts) (ht : t ∈ ts) :
    Appends env ts rows (db.addApplicationArtifact env id actor t content status).artifacts :=
  h.write (w := .application id actor t content status) ht

end Appends

/-! ## What a transaction leaves alone -/

/-- A transaction writes artifacts of the types `ts`, and no document. -/
structure Wrote (env : Env) (ts : List ArtifactType) (db db' : CaseDb) : Prop where
  documents : db'.documents = db.documents
  artifacts : Appends env ts db.artifacts db'.artifacts

namespace Wrote

variable {env : Env} {ts : List ArtifactType} {db mid db' : CaseDb}

theorem refl : Wrote env ts db db := ⟨rfl, .refl⟩

theorem congr (h : Wrote env ts db mid) (hdocuments : db'.documents = mid.documents)
    (hartifacts : db'.artifacts = mid.artifacts) : Wrote env ts db db' :=
  ⟨hdocuments.trans h.documents, hartifacts ▸ h.artifacts⟩

theorem nodeArtifact (h : Wrote env ts db mid) {id : Uuid} {t : ArtifactType} {content : Dict}
    {status : ArtifactStatus} (ht : t ∈ ts) :
    Wrote env ts db (mid.addNodeArtifact env id t content status) :=
  ⟨CaseDb.addNodeArtifact_documents.trans h.documents, h.artifacts.nodeArtifact ht⟩

theorem applicationArtifact (h : Wrote env ts db mid) {id actor : Uuid} {t : ArtifactType}
    {content : Dict} {status : ArtifactStatus} (ht : t ∈ ts) :
    Wrote env ts db (mid.addApplicationArtifact env id actor t content status) :=
  ⟨h.documents, h.artifacts.applicationArtifact ht⟩

theorem send (h : Wrote env ts db mid) {eventType : IntakeNotificationType}
    {recipient : Option Uuid} {key : String} :
    Wrote env ts db (mid.send eventType recipient key) :=
  h.congr CaseDb.send_documents CaseDb.send_artifacts

theorem saveCase (h : Wrote env ts db mid) {c : PreparationCase}
    (hsave : mid.saveCase c = .ok db') : Wrote env ts db db' := by
  obtain ⟨_, rfl⟩ := CaseDb.saveCase_ok.mp hsave
  exact h.congr rfl rfl

theorem latest_eq (h : Wrote env ts db db') {t : ArtifactType} (ht : t ∉ ts) :
    latest db'.artifacts t = latest db.artifacts t :=
  h.artifacts.latest_eq ht

theorem latestContent_eq (h : Wrote env ts db db') {t : ArtifactType} (ht : t ∉ ts) :
    db'.latestContent t = db.latestContent t := by
  rw [CaseDb.latestContent, CaseDb.latestContent, h.latest_eq ht]

end Wrote

/-! ## The nodes -/

variable {env : Env} {directory : Directory} {rc : RunContext} {inp : NodeInput}
  {st : PreparationState} {db db' : CaseDb} {ts : List ArtifactType}
  {r : Except Error PreparationState}

theorem NodeWrites.wrote {rejects asks : Bool}
    (h : NodeWrites env directory ts rejects asks db db') : Wrote env ts db db' := by
  induction h with
  | refl => exact .refl
  | progress _ ih => exact ih.send
  | artifact ht _ ih => exact ih.nodeArtifact ht
  | saveCase hsave _ _ ih => exact ih.saveCase hsave
  | reject _ _ ih => exact ih.congr rfl rfl
  | ask _ _ ih => exact ih.send

/-- **Node lemma**: a node, raised or not, writes artifacts of its own types. -/
theorem runNode_wrote {n : NodeName} (h : runNode env directory rc inp n st db = (db', r)) :
    Wrote env n.writes db db' :=
  (runNode_writes h).wrote

end DigitalWorker
