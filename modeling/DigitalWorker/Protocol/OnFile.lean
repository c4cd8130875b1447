import DigitalWorker.Protocol.Payloads
import DigitalWorker.Protocol.Register

/-! # What is on file in each state

    A handler that decides something rests on what an earlier one filed: the
    verification on the source document, CP3 on the draft of the addendum, the
    opening on the bids. Nothing on file is taken away, so each state has what the
    next decision needs. No action leaves a case ready for CP4: the handler that
    asks for the opening does not move it.
-/

namespace DigitalWorker

open Framework

structure OnFile (db : CaseDb) : Prop where
  source : db.documents ≠ []
  draft : db.case.state = .cp3Pending → (latest db.artifacts .addendumDraft).isSome = true
  bids : db.case.state = .receivingBids → submissions db ≠ []
  notReady : db.case.state ≠ .cp4Ready

section

variable {env : Env} {directory : Directory} {call : Call} {db db' : CaseDb}

theorem latest_isSome_iff {artifacts : List PreparationArtifact} {t : ArtifactType} :
    (latest artifacts t).isSome = true ↔ ∃ a ∈ artifacts, a.artifactType = t := by
  constructor
  · intro h
    obtain ⟨a, ha⟩ := Option.isSome_iff_exists.mp h
    exact ⟨a, latest_mem ha⟩
  · intro h
    obtain ⟨a, hmem, htype⟩ := h
    induction artifacts with
    | nil => cases hmem
    | cons b rest ih =>
      by_cases hb : b.artifactType = t
      · simp only [latest, hb, if_true]
        split
        · split <;> rfl
        · rfl
      · rw [latest_cons_ne hb]
        rcases List.mem_cons.mp hmem with rfl | hmem
        · exact absurd htype hb
        · exact ih hmem

theorem Filed.keeps {ks : List DocumentKind} {ts : List ArtifactType}
    (h : Filed env ks ts db db') :
    (db.documents ≠ [] → db'.documents ≠ []) ∧
      ((latest db.artifacts .addendumDraft).isSome = true →
        (latest db'.artifacts .addendumDraft).isSome = true) ∧
      (submissions db ≠ [] → submissions db' ≠ []) := by
  obtain ⟨new, hnew, _⟩ := h.documents
  refine ⟨?_, ?_, ?_⟩
  · intro hne
    rw [hnew]
    exact List.append_ne_nil_of_left_ne_nil hne new
  · intro hsome
    obtain ⟨a, ha, htype⟩ := latest_isSome_iff.mp hsome
    exact latest_isSome_iff.mpr ⟨a, h.artifacts.suffix.subset ha, htype⟩
  · intro hne
    unfold submissions at *
    rw [hnew, List.filter_append]
    exact List.append_ne_nil_of_left_ne_nil hne _

theorem submitAddendum_draft {cmd : SubmitAddendumCommand}
    (h : submitAddendum env directory call cmd db = .ok db') :
    (latest db'.artifacts .addendumDraft).isSome = true := by
  simp only [submitAddendum, authorize, ↓raiseIf_bind_ok, bind_ok] at h
  obtain ⟨_, _, _, document, _, case, _, hsave⟩ := h
  obtain ⟨_, rfl⟩ := CaseDb.saveCase_ok.mp hsave
  apply latest_isSome_iff.mpr
  show ∃ a ∈ (CaseDb.send _ _ _ _).artifacts, a.artifactType = .addendumDraft
  rw [CaseDb.send_artifacts]
  exact ⟨_, List.mem_cons_self, rfl⟩

/-- **Handler lemma**: the state a handler leaves has what it needs on file. -/
theorem Handler.run_onFile {h : Handler} (hrun : h.run env directory call db = .ok db')
    (hfile : OnFile db) : OnFile db' := by
  obtain ⟨hsource, hdraft, hbids⟩ := (Handler.run_filed hrun).keeps
  rcases Handler.run_transition hrun with hcase | ⟨hmoves, _⟩
  · -- the case stays where it was, and so does what is on file
    constructor
    · exact hsource hfile.source
    · rw [hcase]
      exact fun hstate => hdraft (hfile.draft hstate)
    · rw [hcase]
      exact fun hstate => hbids (hfile.bids hstate)
    · rw [hcase]
      exact hfile.notReady
  · constructor
    · exact hsource hfile.source
    · intro hstate
      rw [hstate] at hmoves
      cases h with
      | submitAddendum cmd => exact submitAddendum_draft hrun
      | _ => simp [Handler.transitions] at hmoves
    · intro hstate
      rw [hstate] at hmoves
      cases h with
      | recordSubmission cmd =>
        obtain ⟨document, _, _, hsubmissions, _⟩ := recordSubmission_rows hrun
        rw [hsubmissions]
        simp
      | _ => simp [Handler.transitions] at hmoves
    · intro hstate
      rw [hstate] at hmoves
      cases h <;> simp [Handler.transitions] at hmoves

end

variable {env : Env} {w w' : World} {a : Action}

theorem OnFile.filed {ks : List DocumentKind} {ts : List ArtifactType} (h : OnFile w.db)
    (hfiled : Filed env ks ts w.db w'.db)
    (hcase : w'.db.case.state = w.db.case.state ∨
      w'.db.case.state ∉ [.cp3Pending, .receivingBids, .cp4Ready]) : OnFile w'.db := by
  obtain ⟨hsource, hdraft, hbids⟩ := hfiled.keeps
  rcases hcase with hsame | hother
  · constructor
    · exact hsource h.source
    · rw [hsame]
      exact fun hstate => hdraft (h.draft hstate)
    · rw [hsame]
      exact fun hstate => hbids (h.bids hstate)
    · rw [hsame]
      exact h.notReady
  · simp only [List.mem_cons, List.not_mem_nil, or_false, not_or] at hother
    constructor
    · exact hsource h.source
    · exact fun hstate => absurd hstate hother.1
    · exact fun hstate => absurd hstate hother.2.1
    · exact hother.2.2

theorem onFile_step (h : OnFile w.db) (hs : w.step env a = some w') : OnFile w'.db := by
  have hfiled := World.step_filed hs
  rcases step_case hs with hcase | ⟨call, hd, rfl, _⟩ | ⟨_, _, _, _, _, _, hcase⟩ |
    ⟨_, _, _, _, hstart⟩ | ⟨_, _, _, n, _, _, _, _, hmove⟩
  · exact h.filed hfiled (.inl (congrArg PreparationCase.state hcase))
  · obtain ⟨db, hrun, rfl⟩ := World.step_handle hs
    exact Handler.run_onFile hrun h
  · refine h.filed hfiled (.inr ?_)
    rw [hcase]
    simp
  · refine h.filed hfiled (.inr ?_)
    obtain ⟨_, hcase⟩ := PreparationCase.startRun_ok.mp hstart
    rw [hcase]
    simp
  · rcases hmove.target with hcase | htarget
    · exact h.filed hfiled (.inl (congrArg PreparationCase.state hcase))
    · refine h.filed hfiled (.inr ?_)
      -- no target of a node needs anything
      have hnone : ∀ m : NodeName, ∀ s ∈ m.targets,
          s ∉ [CaseState.cp3Pending, .receivingBids, .cp4Ready] := by
        intro m
        cases m <;> decide
      exact hnone n _ htarget

theorem onFile_init (hw : (preparation env).init w) : OnFile w.db := by
  obtain ⟨call, cmd, hcreate, _⟩ := hw
  have hstate := (createCase_ok hcreate).state
  obtain ⟨d, hd, _⟩ := createCase_documents hcreate
  constructor
  · rw [hd]
    simp
  · rw [hstate]
    exact fun h => by cases h
  · rw [hstate]
    exact fun h => by cases h
  · rw [hstate]
    decide

theorem onFile {es : List (Event World Action)} (h : Exec (preparation env) es w) :
    OnFile w.db :=
  h.invariant (P := fun w => OnFile w.db) (fun _ hw => onFile_init hw)
    (fun _ _ _ hfile hs => onFile_step hfile hs)

end DigitalWorker
