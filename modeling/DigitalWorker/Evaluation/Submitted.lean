import Mathlib.Data.List.Pairwise
import DigitalWorker.Framework.Dicts
import DigitalWorker.Framework.Occurrence
import DigitalWorker.Evaluation.Packs

/-! # What is read of the submissions

    A supplier may have submitted several documents. The intake lists all of them
    and each is parsed; the assessment and the grounding of its quotes then take
    one text for a supplier, from a dictionary that is filled document by
    document under the name of the supplier.
-/

namespace DigitalWorker.Evaluation

open Framework TenderWorld

/-! ## The texts by supplier -/

def supplierKey (kind : DocumentKind) (m : DocumentMeta) : Option String :=
  if m.kind = kind ∧ m.supplierName ≠ some "" then m.supplierName else none

def TenderState.textsByKind (st : TenderState) (kind : DocumentKind) : List (String × String) :=
  dictOf (supplierKey kind) (fun m => st.textOf m.id) st.documentMeta

theorem textsByKind_lookup (st : TenderState) (kind : DocumentKind) (supplier : String) :
    (st.textsByKind kind).lookup supplier =
      ((st.supplierDocuments (fun m => m.kind == kind) supplier).getLast?).map
        (fun m => st.textOf m.id) := by
  have hkey : ∀ m : DocumentMeta, (supplierKey kind m == some supplier) =
      ((m.kind == kind) && m.supplierName == some supplier && m.supplierName != some "") := by
    intro m
    unfold supplierKey
    by_cases hkind : m.kind = kind
    · by_cases hnamed : m.supplierName = some ""
      · simp [hnamed]
      · simp [hkind, hnamed]
    · simp [hkind]
  rw [TenderState.textsByKind, lookup_dictOf]
  simp only [hkey]
  rfl

theorem textByKind_eq (st : TenderState) (kind : DocumentKind) (supplier : String) :
    st.textByKind kind supplier = ((st.textsByKind kind).lookup supplier).getD "" := by
  rw [textsByKind_lookup]
  rfl

/-! ## The property and the condition -/

def PartOf (text whole : String) : Prop := text.toList <:+: whole.toList

instance (text whole : String) : Decidable (PartOf text whole) :=
  inferInstanceAs (Decidable (text.toList <:+: whole.toList))

def submissionsOf (documents : List TenderDocument) (supplier : String) : List TenderDocument :=
  documents.filter (fun d => d.kind == .supplierSubmission && d.supplierName == some supplier)

structure ReadsAll (documents : List TenderDocument) (st : TenderState) : Prop where
  assessed : ∀ supplier, ∀ d ∈ submissionsOf documents supplier, ∃ text,
    (st.textsByKind .supplierSubmission).lookup supplier = some text ∧ PartOf (st.textOf d.id) text
  grounded : ∀ supplier, ∀ d ∈ submissionsOf documents supplier,
    PartOf (st.textOf d.id) (st.textByKind .supplierSubmission supplier)

/-- **The condition**, on the documents and the texts parsed from them: the last
    submission of a supplier says everything the others say. -/
def LastSaysAll (documents : List TenderDocument) (text : Uuid → String) : Prop :=
  ∀ supplier, ∀ d ∈ submissionsOf documents supplier, ∀ last,
    (submissionsOf documents supplier).getLast? = some last → PartOf (text d.id) (text last.id)

theorem lastSaysAll_of_nodup {documents : List TenderDocument} (h : (bidders documents).Nodup)
    (text : Uuid → String) : LastSaysAll documents text := by
  intro supplier d hd last hlast
  have hnodup : (documents.filter (fun d => d.kind == .supplierSubmission)).Pairwise
      (fun a b => ∀ name, a.supplierName = some name → ∀ name', b.supplierName = some name' →
        name ≠ name') := by
    rw [bidders, List.Nodup, List.pairwise_filterMap] at h
    exact h
  have hsame : d = last := by
    by_contra hne
    have hlast' := List.mem_of_getLast? hlast
    unfold submissionsOf at hd hlast'
    simp only [List.mem_filter, Bool.and_eq_true, beq_iff_eq] at hd hlast'
    have hd' : d ∈ documents.filter (fun d => d.kind == .supplierSubmission) :=
      List.mem_filter.mpr ⟨hd.1, beq_iff_eq.mpr hd.2.1⟩
    have hl' : last ∈ documents.filter (fun d => d.kind == .supplierSubmission) :=
      List.mem_filter.mpr ⟨hlast'.1, beq_iff_eq.mpr hlast'.2.1⟩
    have hsymm : Std.Symm (fun a b : TenderDocument => ∀ name, a.supplierName = some name →
        ∀ name', b.supplierName = some name' → name ≠ name') :=
      ⟨fun a b hab name hb name' ha => (hab name' ha name hb).symm⟩
    exact hnodup.forall hd' hl' hne _ hd.2.2 _ hlast'.2.2 rfl
  rw [hsame]
  exact List.infix_refl _

/-! ## What a run knows of the documents -/

section

variable {svc : TenderServices} {env : Env} {rc : RunContext} {inp : NodeInput} {s s' : Stores}
  {st st' : TenderState} {w w' : TenderWorld} {runId : Uuid}

abbrev DocumentCore := Uuid × DocumentKind × Option String

def DocumentMeta.core (m : DocumentMeta) : DocumentCore := (m.id, m.kind, m.supplierName)

def TenderDocument.core (d : TenderDocument) : DocumentCore := (d.id, d.kind, d.supplierName)

theorem linkDocuments_core (before after : List DocumentMeta) (documents : List TenderDocument) :
    (linkDocuments before after documents).map TenderDocument.core =
      documents.map TenderDocument.core := by
  unfold linkDocuments
  rw [List.map_map]
  refine List.map_congr_left (fun d _ => ?_)
  dsimp only [Function.comp_apply]
  split
  · split <;> rfl
  · rfl

theorem classifyDocument_core {text : String} {ingest : Knowledge.IngestInput} {m m' : DocumentMeta}
    {lib lib' : Knowledge.Library}
    (h : classifyDocument svc rc text ingest m lib = (lib', .ok m')) : m'.core = m.core := by
  unfold classifyDocument at h
  split at h
  · obtain rfl := Except.ok.inj (Prod.mk.inj h).2
    rfl
  · split at h
    · obtain rfl := Except.ok.inj (Prod.mk.inj h).2
      rfl
    · split at h
      · cases (Prod.mk.inj h).2
      · dsimp only at h
        split at h
        · cases (Prod.mk.inj h).2
        · obtain rfl := Except.ok.inj (Prod.mk.inj h).2
          rfl

theorem classifyLoop_core {metas metas' : List DocumentMeta} {i : Nat}
    {lib lib' : Knowledge.Library}
    (h : classifyLoop svc rc inp st i metas lib = (lib', .ok metas')) :
    metas'.map DocumentMeta.core = metas.map DocumentMeta.core := by
  induction metas generalizing i lib lib' metas' with
  | nil =>
    obtain rfl := Except.ok.inj (Prod.mk.inj h).2
    rfl
  | cons m rest ih =>
    unfold classifyLoop at h
    split at h
    · cases (Prod.mk.inj h).2
    · next m' hm =>
      split at h
      · cases (Prod.mk.inj h).2
      · next rest' hrest =>
        obtain rfl := Except.ok.inj (Prod.mk.inj h).2
        rw [List.map_cons, List.map_cons, ih hrest, classifyDocument_core hm]

def Stores.cores (s : Stores) : List DocumentCore := s.db.documents.map TenderDocument.core

theorem classifyDocuments_cores : (classifyDocuments svc rc inp st s).1.cores = s.cores := by
  unfold classifyDocuments
  split
  · rfl
  · split
    · rfl
    · exact linkDocuments_core _ _ _

theorem committed_cores {r : Except Error (TenderState × Stores)}
    (h : ∀ st' s', r = .ok (st', s') → s'.cores = s.cores) : (committed s r).1.cores = s.cores := by
  cases r with
  | error e => rfl
  | ok p => exact h p.1 p.2 rfl

theorem closeAndWriteMemory_cores : (closeAndWriteMemory inp st s).1.cores = s.cores := by
  unfold closeAndWriteMemory
  split
  · rfl
  · next db hclosed =>
    unfold closeCase at hclosed
    split at hclosed
    · rw [bind_ok] at hclosed
      obtain ⟨_, _, h⟩ := hclosed
      obtain rfl := Except.ok.inj h
      rfl
    · simp only [bind_ok] at hclosed
      obtain ⟨case, _, _, _, h⟩ := hclosed
      obtain rfl := Except.ok.inj h
      rfl

/-- **Documents**: a node keeps what is read of them, however it ends. -/
theorem runTenderNode_cores {n : TenderNode} : (runTenderNode svc rc inp n st s).1.cores = s.cores := by
  cases n with
  | classifyDocuments => exact classifyDocuments_cores
  | buildRequirementMatrix =>
    apply committed_cores
    intro st' s' h
    simp only [buildRequirementMatrix, bind_ok, raiseFault_ok] at h
    obtain ⟨_, _, _, _, db, hdb, _, _, h⟩ := h
    obtain ⟨rfl, rfl⟩ := Prod.mk.inj (Except.ok.inj h)
    obtain ⟨_, rfl⟩ := TenderDb.replaceRequirements_ok hdb
    rfl
  | scoreCompliance =>
    apply committed_cores
    intro st' s' h
    obtain ⟨-, rfl⟩ := scoreCompliance_ok h
    rfl
  | deterministicComplianceGate =>
    apply committed_cores
    intro st' s' h
    obtain ⟨_, _, _, _, -, rfl⟩ := gate_ok h
    rfl
  | exportEvaluationPack =>
    apply committed_cores
    intro st' s' h
    rcases (exportEvaluationPack_ok h).1 with ⟨_, _, _, _, _, _, rfl⟩ | rfl <;> rfl
  | closeAndWriteMemory => exact closeAndWriteMemory_cores
  | _ => rfl

def TenderState.cores (st : TenderState) : List DocumentCore :=
  st.documentMeta.map DocumentMeta.core

theorem closeAndWriteMemory_listed (h : closeAndWriteMemory inp st s = (s', .ok st')) :
    st'.cores = st.cores := by
  unfold closeAndWriteMemory at h
  split at h
  · cases (Prod.mk.inj h).2
  · have hstate := (Prod.mk.inj h).2
    rw [bind_ok] at hstate
    obtain ⟨_, _, hstate⟩ := hstate
    obtain rfl := Except.ok.inj hstate
    rfl

/-- **Listed**: the intake lists the documents of the case, and the other nodes
    leave the list alone. -/
theorem runTenderNode_listed {n : TenderNode}
    (h : runTenderNode svc rc inp n st s = (s', .ok st')) :
    st'.cores = if n = .intakeCase then s.cores else st.cores := by
  cases n with
  | intakeCase =>
    obtain ⟨-, h⟩ := Prod.mk.inj h
    simp only [intakeCase, bind_ok] at h
    obtain ⟨_, _, _, _, h⟩ := h
    obtain rfl := Except.ok.inj h
    rw [if_pos rfl, TenderState.cores, List.map_map]
    rfl
  | parseDocuments =>
    obtain ⟨-, h⟩ := Prod.mk.inj h
    simp only [parseDocuments, bind_ok] at h
    obtain ⟨_, _, _, _, h⟩ := h
    obtain rfl := Except.ok.inj h
    rfl
  | classifyDocuments =>
    have hran : classifyDocuments svc rc inp st s = (s', .ok st') := h
    unfold classifyDocuments at hran
    split at hran
    · cases (Prod.mk.inj hran).2
    · next library metas hloop =>
      split at hran
      · cases (Prod.mk.inj hran).2
      · obtain rfl := Except.ok.inj (Prod.mk.inj hran).2
        exact classifyLoop_core hloop
  | extractRequirements =>
    obtain ⟨-, h⟩ := Prod.mk.inj h
    simp only [extractRequirements, bind_ok] at h
    obtain ⟨_, _, _, _, _, _, h⟩ := h
    obtain rfl := Except.ok.inj h
    rfl
  | buildRequirementMatrix =>
    have hran := committed_ok.mp h
    simp only [buildRequirementMatrix, bind_ok] at hran
    obtain ⟨_, _, _, _, _, _, _, _, hran⟩ := hran
    obtain ⟨rfl, -⟩ := Prod.mk.inj (Except.ok.inj hran)
    rfl
  | retrievePoliciesAndHistory =>
    obtain ⟨-, h⟩ := Prod.mk.inj h
    simp only [retrievePoliciesAndHistory, bind_ok] at h
    obtain ⟨_, _, h⟩ := h
    obtain rfl := Except.ok.inj h
    rfl
  | extractSupplierResponses =>
    obtain ⟨-, h⟩ := Prod.mk.inj h
    simp only [extractSupplierResponses, bind_ok] at h
    obtain ⟨_, _, h⟩ := h
    obtain rfl := Except.ok.inj h
    rfl
  | scoreCompliance =>
    obtain ⟨rfl, -⟩ := scoreCompliance_ok (committed_ok.mp h)
    rfl
  | identifyGapsAndRisks =>
    obtain ⟨_, rfl⟩ := identifyGapsAndRisks_ok (Prod.mk.inj h).2
    rfl
  | draftRecommendation =>
    obtain ⟨_, rfl⟩ := draftRecommendation_ok (Prod.mk.inj h).2
    rfl
  | deterministicComplianceGate =>
    obtain ⟨_, _, _, _, rfl, -⟩ := gate_ok (committed_ok.mp h)
    rfl
  | humanReview =>
    obtain rfl := Except.ok.inj (Prod.mk.inj h).2
    rfl
  | exportEvaluationPack =>
    obtain ⟨-, _, _, rfl⟩ := exportEvaluationPack_ok (committed_ok.mp h)
    rfl
  | closeAndWriteMemory => exact closeAndWriteMemory_listed h

def TenderPosition.pastIntake : TenderPosition → Bool
  | .running n | .raised n => n != .intakeCase
  | .interrupted | .waiting | .finished => true

def Listed (w : TenderWorld) : Prop :=
  ∀ runId r, w.runs runId = some r → r.position.pastIntake = true → r.state.cores = w.stores.cores

theorem Listed.putRun {w₁ : TenderWorld} {r : TenderRun} (h : Listed w) (hruns : w₁.runs = w.runs)
    (hcores : w₁.stores.cores = w.stores.cores)
    (hr : r.position.pastIntake = true → r.state.cores = w.stores.cores) :
    Listed (w₁.putRun runId r) := by
  intro runId' r' hrun hpast
  rw [show (w₁.putRun runId r).stores = w₁.stores from rfl, hcores]
  rcases putRun_some hrun with ⟨rfl, rfl⟩ | hkept
  · exact hr hpast
  · rw [hruns] at hkept
    exact h runId' r' hkept hpast

theorem Listed.step (h : Listed w) {a : TenderAction} (hs : step svc env w a = some w') :
    Listed w' := by
  cases a with
  | analyze call runId =>
    obtain ⟨_, db, hok, rfl⟩ := step_analyze hs
    simp only [analyzeCase, bind_ok] at hok
    obtain ⟨_, _, _, _, hok⟩ := hok
    obtain rfl := Except.ok.inj hok
    exact h.putRun rfl rfl (fun hpast => by cases hpast)
  | node runId inp =>
    obtain ⟨r, n, s, result, writes, hrun, hposition, hran, -, rfl⟩ := step_node hs
    have hcores : s.cores = w.stores.cores := by
      have hkept : (runTenderNode svc ⟨runId, r.requestedBy⟩ inp n r.state w.stores).1.cores =
          w.stores.cores := runTenderNode_cores
      rw [hran] at hkept
      exact hkept
    refine @Listed.putRun w _ { w with stores := s, statusWrites := writes } _ h rfl hcores ?_
    cases result with
    | error e =>
      -- the checkpoint stands before the node
      intro hpast
      refine h runId r hrun ?_
      rw [hposition]
      exact hpast
    | ok st' =>
      intro _
      have hlisted := runTenderNode_listed hran
      show st'.cores = _
      rw [hlisted]
      by_cases hn : n = .intakeCase
      · rw [if_pos hn]
      · rw [if_neg hn]
        refine h runId r hrun ?_
        rw [hposition]
        exact bne_iff_ne.mpr hn
  | createApproval runId requestId now =>
    obtain ⟨r, _, hrun, hposition, _, rfl⟩ := step_createApproval hs
    refine h.putRun rfl rfl (fun _ => h runId r hrun ?_)
    rw [hposition]
    rfl
  | setStatus write =>
    obtain ⟨r, r₁, _, hrun, hposition, hstate, rfl⟩ := step_setStatus hs
    refine h.putRun rfl rfl (fun hpast => ?_)
    rw [hstate]
    rw [hposition] at hpast
    exact h _ r hrun hpast
  | decide call cmd =>
    obtain ⟨_, _, _, _, rfl⟩ := step_decide hs
    exact h
  | resume p =>
    obtain ⟨-, rfl | ⟨r₁, hresumable, rfl⟩⟩ := step_resume hs
    · exact h
    · refine h.putRun rfl rfl (fun hpast => ?_)
      obtain ⟨r, hrun, ⟨hposition, -, hstate⟩ | ⟨n, hposition, hposition', hstate⟩⟩ :=
        resumable_some hresumable
      · rw [hstate]
        refine h _ r hrun ?_
        rcases hposition with hposition | hposition <;> rw [hposition] <;> rfl
      · rw [hstate]
        refine h _ r hrun ?_
        rw [hposition]
        rw [hposition'] at hpast
        exact hpast

theorem listed {es : List (Event TenderWorld TenderAction)}
    (h : Exec (evaluation svc env) es w) : Listed w := by
  refine h.invariant (P := Listed) ?_ (fun _ _ _ hp hs => hp.step hs)
  intro w hinit runId r hr
  rw [hinit.1 runId] at hr
  cases hr

theorem textByKind_last {documents : List TenderDocument}
    (h : st.cores = documents.map TenderDocument.core) {supplier : String} (hne : supplier ≠ "") :
    (st.textsByKind .supplierSubmission).lookup supplier =
      ((submissionsOf documents supplier).getLast?).map (fun d => st.textOf d.id) := by
  let named : DocumentCore → Bool := fun c =>
    c.2.1 == .supplierSubmission && c.2.2 == some supplier
  have hstate : (st.supplierDocuments (fun m => m.kind == .supplierSubmission) supplier).map
      DocumentMeta.core = st.cores.filter named := by
    rw [TenderState.cores, List.filter_map]
    refine congrArg (List.map _) (List.filter_congr (fun m _ => ?_))
    by_cases hm : m.supplierName = some supplier
    · simp [named, DocumentMeta.core, hm, hne]
    · simp [named, DocumentMeta.core, hm]
  have hcase : (submissionsOf documents supplier).map TenderDocument.core =
      (documents.map TenderDocument.core).filter named := by
    rw [List.filter_map]
    rfl
  have hsame := congrArg List.getLast? (hstate.trans (h ▸ hcase.symm))
  rw [List.getLast?_map, List.getLast?_map] at hsame
  rw [textsByKind_lookup]
  cases hm : (st.supplierDocuments (fun m => m.kind == .supplierSubmission) supplier).getLast? with
  | none =>
    rw [hm] at hsame
    rw [Option.map_eq_none_iff.mp hsame.symm]
    rfl
  | some m =>
    rw [hm] at hsame
    obtain ⟨d, hd, hcore⟩ := Option.map_eq_some_iff.mp hsame.symm
    rw [hd]
    exact congrArg (fun c : DocumentCore => some (st.textOf c.1)) hcore.symm

/-- **Main theorem**: in every run, when the assessment or the grounding is due,
    every submission is read exactly if the last one of each supplier says
    everything. -/
theorem reads_all_iff {es : List (Event TenderWorld TenderAction)}
    (h : Exec (evaluation svc env) es w) {r : TenderRun} {n : TenderNode}
    (hdue : w.due runId = some (r, n))
    (hreads : n = .extractSupplierResponses ∨ n = .scoreCompliance) :
    ReadsAll w.stores.db.documents r.state ↔ LastSaysAll w.stores.db.documents r.state.textOf := by
  obtain ⟨hrun, hposition⟩ := due_some.mp hdue
  have hlisted : r.state.cores = w.stores.db.documents.map TenderDocument.core := by
    refine listed h runId r hrun ?_
    rw [hposition]
    rcases hreads with rfl | rfl <;> rfl
  have hlast : ∀ supplier, ∀ d ∈ submissionsOf w.stores.db.documents supplier,
      (r.state.textsByKind .supplierSubmission).lookup supplier =
        ((submissionsOf w.stores.db.documents supplier).getLast?).map
          (fun d => r.state.textOf d.id) := by
    intro supplier d hd
    refine textByKind_last hlisted ?_
    rintro rfl
    -- a submission has a supplier
    unfold submissionsOf at hd
    simp only [List.mem_filter, Bool.and_eq_true, beq_iff_eq] at hd
    have hblank := d.submitted hd.2.1
    rw [hd.2.2] at hblank
    exact absurd hblank (by decide)
  constructor
  · intro hall supplier d hd last hl
    have hgrounded := hall.grounded supplier d hd
    rw [textByKind_eq, hlast supplier d hd, hl] at hgrounded
    exact hgrounded
  · intro hall
    have hpart : ∀ supplier, ∀ d ∈ submissionsOf w.stores.db.documents supplier, ∃ text,
        (r.state.textsByKind .supplierSubmission).lookup supplier = some text ∧
          PartOf (r.state.textOf d.id) text := by
      intro supplier d hd
      obtain ⟨last, hl⟩ := Option.isSome_iff_exists.mp
        (List.getLast?_isSome.mpr (List.ne_nil_of_mem hd))
      refine ⟨_, ?_, hall supplier d hd last hl⟩
      rw [hlast supplier d hd, hl]
      rfl
    refine ⟨hpart, fun supplier d hd => ?_⟩
    obtain ⟨text, hlookup, htext⟩ := hpart supplier d hd
    rw [textByKind_eq, hlookup]
    exact htext

end

/-! ### Two documents of one bid

    Minh Long submits its technical and its financial proposal. -/

namespace Tender

def financial : TenderDocument :=
  { submission with id := { text := "d3" }, title := "Đề xuất tài chính", storageKey := "d3" }

def caseOf (documents : List TenderDocument) : TenderWorld :=
  { stores := { start with db := { start.db with documents := documents } } }

def toAssessment : List TenderAction :=
  .analyze (Office.call Office.an) first ::
    List.replicate 6 (.node first (answers [] (draftOf "Minh Long" minhLong_named)))

def assesses (test : List TenderDocument → TenderState → Bool) (w : TenderWorld) : Bool :=
  match w.due first with
  | some (r, .extractSupplierResponses) => test w.stores.db.documents r.state
  | _ => false

theorem caseOf_init (documents : List TenderDocument) :
    (evaluation services Office.env).init (caseOf documents) :=
  ⟨fun _ => rfl, rfl, rfl, rfl, rfl⟩

theorem assesses_some {test : List TenderDocument → TenderState → Bool} {w : TenderWorld}
    (h : assesses test w = true) : ∃ r, w.due first = some (r, .extractSupplierResponses) ∧
      test w.stores.db.documents r.state = true := by
  unfold assesses at h
  split at h
  · next r hdue => exact ⟨r, hdue, h⟩
  · cases h

theorem single_runs : (evaluation services Office.env).runs (caseOf [rfq, submission, rival])
    toAssessment (fun _ => assesses (fun documents _ =>
      Decidable.decide (bidders documents).Nodup)) = true := by
  decide +kernel

theorem double_runs : (evaluation services Office.env).runs (caseOf [rfq, submission, financial])
    toAssessment (fun _ => assesses (fun documents st =>
      (submissionsOf documents "Minh Long").any (fun d => !Decidable.decide
        (PartOf (st.textOf d.id) (st.textByKind .supplierSubmission "Minh Long"))))) = true := by
  decide +kernel

end Tender

/-- Where every supplier submitted one document, all are read. -/
theorem single_documents_read : ∃ es w r,
    Exec (evaluation Tender.services Office.env) es w ∧
    w.due Tender.first = some (r, .extractSupplierResponses) ∧
    ReadsAll w.stores.db.documents r.state := by
  obtain ⟨es, w, hexec, htest⟩ := Machine.exec_of_runs (Tender.caseOf_init _) Tender.single_runs
  obtain ⟨r, hdue, hnodup⟩ := Tender.assesses_some htest
  refine ⟨es, w, r, hexec, hdue, (reads_all_iff hexec hdue (.inl rfl)).mpr ?_⟩
  exact lastSaysAll_of_nodup (of_decide_eq_true hnodup) _

/-- Of the two documents the first one is dropped. -/
theorem technical_proposal_dropped : ¬ ∀ (svc : TenderServices) (env : Env)
    (es : List (Event TenderWorld TenderAction)) (w : TenderWorld) (runId : Uuid) (r : TenderRun)
    (n : TenderNode), Exec (evaluation svc env) es w → w.due runId = some (r, n) →
    n = .extractSupplierResponses ∨ n = .scoreCompliance →
    ReadsAll w.stores.db.documents r.state := by
  intro hclaim
  obtain ⟨es, w, hexec, htest⟩ := Machine.exec_of_runs (Tender.caseOf_init _) Tender.double_runs
  obtain ⟨r, hdue, hany⟩ := Tender.assesses_some htest
  obtain ⟨d, hd, hdropped⟩ := List.any_eq_true.mp hany
  have hread := (hclaim _ _ es w _ r _ hexec hdue (.inl rfl)).grounded _ d hd
  rw [Bool.not_eq_true', decide_eq_false_iff_not] at hdropped
  exact hdropped hread

end DigitalWorker.Evaluation
