import DigitalWorker.Preparation.Writers

/-! # The submission window of a run

    A run settles the submission window once, when it drafts the approach: the
    default of the method or the verified legal minimum, whichever is longer. It
    writes the window on the approach and carries it in its own state, together
    with the minimum it found. The CP2 gate compares the window in the state
    with that minimum and with the one asked for at signature time.
-/

namespace DigitalWorker

/-! ## The window an approach applies -/

def contentWindow (content : Dict) : Option Int :=
  match (content.getD "legal_constraints" .null).dict? with
  | some constraints => windowDays (constraints.getD "applied_window_days" .null)
  | none => none

theorem appliedWindow_eq (db : CaseDb) :
    appliedWindow db = (db.latestContent .procurementApproach).bind contentWindow := by
  unfold appliedWindow
  cases db.latestContent .procurementApproach with
  | none => rfl
  | some content => rfl

theorem appliedWindow_congr {db db' : CaseDb}
    (h : db'.latestContent .procurementApproach = db.latestContent .procurementApproach) :
    appliedWindow db' = appliedWindow db := by
  rw [appliedWindow_eq, appliedWindow_eq, h]

def draftWindow (method : Method) (inp : NodeInput) : Int :=
  max (defaultWindowDays method.key) (inp.legalMin.getD 0)

def approachContent (inp : NodeInput) (st : PreparationState) (method : Method) : Dict :=
  [("method", .obj [("key", .str method.key), ("label", .str method.label)]),
    ("min_suppliers", .num method.minSuppliers),
    ("supplier_count_planned", .num st.supplierCandidates.length),
    ("legal_constraints", .obj
      [("extracted", match inp.legalMin with
          | some n => .obj [("min_bid_preparation_days", .num n)]
          | none => .null),
        ("default_window_days", .num (defaultWindowDays method.key)),
        ("applied_window_days", .num (draftWindow method inp))])]

theorem contentWindow_set_gate {content : Dict} {v : Json} :
    contentWindow (content.set "gate" v) = contentWindow content := by
  unfold contentWindow Dict.getD
  rw [Dict.get?_set_ne _ _ (by decide)]

theorem defaultWindowDays_ge (key : String) : 7 ≤ defaultWindowDays key := by
  unfold defaultWindowDays
  by_cases htender : key = "open_tender"
  · rw [if_pos htender]
    omega
  · rw [if_neg htender]
    by_cases hrfq : key = "rfq"
    · rw [if_pos hrfq]
      omega
    · rw [if_neg hrfq]

theorem draftWindow_ge (method : Method) (inp : NodeInput) : 7 ≤ draftWindow method inp := by
  have hdefault := defaultWindowDays_ge method.key
  unfold draftWindow
  omega

theorem le_draftWindow {method : Method} {inp : NodeInput} {n : Int} (h : inp.legalMin = some n) :
    n ≤ draftWindow method inp := by
  have hmin : inp.legalMin.getD 0 = n := by rw [h]; rfl
  unfold draftWindow
  omega

/-! ## What a run carries -/

/-- The window and the minimum of a run are those of another moment of it. -/
structure SameTerms (st st' : PreparationState) : Prop where
  window : st'.solicitationWindowDays = st.solicitationWindowDays
  legalMin : st'.draftedLegalMin = st.draftedLegalMin

theorem SameTerms.rfl {st : PreparationState} : SameTerms st st := ⟨Eq.refl _, Eq.refl _⟩

theorem SameTerms.answerReview {n : NodeName} {d : Decision} {st : PreparationState} :
    SameTerms st (answerReview n d st) := by
  unfold DigitalWorker.answerReview
  split <;> exact ⟨Eq.refl _, Eq.refl _⟩

variable {env : Env} {directory : Directory} {rc : RunContext} {inp : NodeInput}
  {st st' : PreparationState} {db db' : CaseDb}

/-- **Terms lemma**: only the draft of the approach sets the terms of a run. -/
theorem runNode_terms {n : NodeName}
    (h : runNode env directory rc inp n st db = (db', .ok st'))
    (hn : n ≠ .draftProcurementApproach) : SameTerms st st' :=
  ⟨(runNode_state h).window hn, (runNode_state h).legalMin hn⟩

theorem draft_terms (h : draftProcurementApproach env inp st db = (db', .ok st')) :
    ∃ method, env.rules.selectMethod st.estimatedValueMinor = .ok method ∧
      st'.solicitationWindowDays = draftWindow method inp ∧ st'.draftedLegalMin = inp.legalMin ∧
      ((∃ a, latest db.artifacts .procurementApproach = some a ∧
          a.contentHash = env.contentHash (approachContent inp st method) ∧
          appliedWindow db' = appliedWindow db) ∨
        appliedWindow db' = some (draftWindow method inp)) := by
  simp only [draftProcurementApproach] at h
  have htxn := runTransaction_ok h
  simp only [bind_ok] at htxn
  obtain ⟨method, hmethod, rows, hsave, hret⟩ := htxn
  obtain ⟨hdb, hst⟩ := Prod.mk.inj (Except.ok.inj hret)
  obtain ⟨_, hrows⟩ := CaseDb.saveCase_ok.mp hsave
  refine ⟨method, hmethod, by rw [← hst]; rfl, by rw [← hst], ?_⟩
  -- the rows are those of the artifact; the cards and the case do not matter
  have hartifacts : db'.artifacts = (CaseDb.addNodeArtifact env
      (db.notifyProgress "working_approach"
        ("wa-" ++ take (env.contentHash [("c", .str db.case.id.text)]) 10)) (inp.newId 0)
      .procurementApproach (approachContent inp st method)).artifacts := by
    rw [← hdb, hrows]
    exact CaseDb.send_artifacts
  rw [appliedWindow_congr (CaseDb.latestContent_congr hartifacts)]
  rcases @CaseDb.addNodeArtifact_cases env (db.notifyProgress "working_approach"
      ("wa-" ++ take (env.contentHash [("c", .str db.case.id.text)]) 10)) (inp.newId 0)
      .procurementApproach (approachContent inp st method) .draft with ⟨heq, a, ha, hhash⟩ | heq
  · left
    refine ⟨a, ?_, hhash, ?_⟩
    · rw [← ha]
      exact congrArg (latest · _) CaseDb.send_artifacts.symm
    · rw [heq]
      exact appliedWindow_congr CaseDb.notifyProgress_latestContent
  · right
    rw [heq, appliedWindow_eq, CaseDb.latestContent_addApplicationArtifact_self]
    rfl

theorem persistVerdict_window {result : GateResult} :
    appliedWindow (persistVerdict env inp .procurementApproach result db) = appliedWindow db := by
  unfold persistVerdict
  split
  · next content hcontent =>
    rcases @CaseDb.addNodeArtifact_cases env db (inp.newId 0) .procurementApproach
        (content.set "gate" (.obj result.toDict)) .draft with ⟨heq, _⟩ | heq
    · rw [heq]
    · rw [heq, appliedWindow_eq, appliedWindow_eq,
        CaseDb.latestContent_addApplicationArtifact_self, hcontent]
      exact contentWindow_set_gate
  · rfl

theorem reviewWait_window {result : GateResult} {stage dedupe : String} :
    appliedWindow (if result.passed then db.notifyProgress stage dedupe else db) =
      appliedWindow db := by
  split
  · exact appliedWindow_congr CaseDb.notifyProgress_latestContent
  · rfl

theorem approachGateNode_window {r : Except Error PreparationState}
    (h : approachGateNode env directory inp st db = (db', r)) :
    appliedWindow db' = appliedWindow db := by
  unfold approachGateNode at h
  split at h
  · obtain ⟨rfl, _⟩ := Prod.mk.inj h
    rfl
  · next method _ =>
    rcases runTransaction_cases h with ⟨_, _, hdb⟩ | ⟨st', _, hok⟩
    · rcases hdb with rfl | rfl
      · rfl
      · exact reviewWait_window
    · simp only [bind_ok] at hok
      obtain ⟨rows, hsave, hret⟩ := hok
      obtain ⟨rfl, _⟩ := Prod.mk.inj (Except.ok.inj hret)
      obtain ⟨_, rfl⟩ := CaseDb.saveCase_ok.mp hsave
      have hcards := (@approachCards_writes env directory inp
        (persistVerdict env inp .procurementApproach (approachVerdict env st method)
          (if (approachVerdict env st method).passed then
            db.notifyProgress "review_wait_cp1"
              ("rw1-" ++ take (env.contentHash (approachVerdict env st method).toDict) 10)
          else db)) [] false true method (approachVerdict env st method)
        rfl).wrote.latestContent_eq (t := .procurementApproach) (by simp)
      exact (appliedWindow_congr hcards).trans (persistVerdict_window.trans reviewWait_window)

/-- **Window lemma**: every node but the draft leaves the window of the approach. -/
theorem runNode_window {n : NodeName} {r : Except Error PreparationState}
    (h : runNode env directory rc inp n st db = (db', r))
    (hn : n = .draftProcurementApproach → ∃ e, r = .error e) :
    appliedWindow db' = appliedWindow db := by
  by_cases hdraft : n = .draftProcurementApproach
  · -- a draft that raised left at most its working card
    obtain ⟨e, rfl⟩ := hn hdraft
    subst hdraft
    simp only [runNode, draftProcurementApproach] at h
    rcases runTransaction_error h with rfl | rfl
    · rfl
    · exact appliedWindow_congr CaseDb.notifyProgress_latestContent
  · by_cases hgate : n = .approachGate
    · subst hgate
      exact approachGateNode_window h
    · -- no other node writes an approach
      refine appliedWindow_congr ((runNode_wrote h).latestContent_eq ?_)
      cases n <;> first | exact absurd rfl hdraft | exact absurd rfl hgate | simp [NodeName.writes]

/-! ## The verdict of the CP2 gate -/

theorem solicitationGate_window {rules : ProcurementRules} {total : Int} {mandatory : Bool}
    {count : Nat} {method : Method} {missing : List String} {window : Int} {legal : Option Int}
    {note : String}
    (h : (solicitationGate rules total mandatory count method missing window legal note).passed =
      true) (hwindow : window ≠ 0) : ∀ n, legal = some n → n ≤ window := by
  rintro n rfl
  simp only [solicitationGate, GateResult.of, List.isEmpty_iff, List.append_eq_nil_iff,
    failIf] at h
  obtain ⟨⟨⟨⟨_, hline⟩, _⟩, _⟩, _⟩ := h
  by_contra hlt
  rw [if_pos (by simp [hwindow]; omega)] at hline
  cases hline

theorem le_effectiveLegalMinimum {drafted live : Option Int} {n : Int}
    (h : drafted = some n ∨ live = some n) :
    n ≤ 0 ∨ ∃ m, (effectiveLegalMinimum drafted live).1 = some m ∧ n ≤ m := by
  have hle : n ≤ max (drafted.getD 0) (live.getD 0) := by
    rcases h with rfl | rfl
    · exact le_max_left _ _
    · exact le_max_right _ _
  by_cases hzero : max (drafted.getD 0) (live.getD 0) = 0
  · left
    omega
  · right
    refine ⟨max (drafted.getD 0) (live.getD 0), ?_, hle⟩
    show (if max (drafted.getD 0) (live.getD 0) = 0 then none else _) = _
    rw [if_neg hzero]

/-- **Gate lemma**: a passed CP2 gate leaves the window of the run at or above
    the minimum it drafted with and the minimum it was given again. -/
theorem packageGateNode_window (h : packageGateNode env directory inp st db = (db', .ok st'))
    (hpassed : ∃ gate, st'.packageGate = some gate ∧ gate.passed = true)
    (hpos : 0 < st.solicitationWindowDays) {n : Int}
    (hn : st.draftedLegalMin = some n ∨ inp.liveLegalMin = some n) :
    n ≤ st.solicitationWindowDays := by
  unfold packageGateNode at h
  split at h
  · cases (Prod.mk.inj h).2
  · next method _ =>
    have htxn := runTransaction_ok h
    simp only [bind_ok] at htxn
    obtain ⟨_, _, hret⟩ := htxn
    obtain ⟨gate, hgate, hpassed⟩ := hpassed
    rw [← (Prod.mk.inj (Except.ok.inj hret)).2] at hgate
    obtain rfl := Option.some.inj hgate
    have hwindow : (if st.solicitationWindowDays = 0 then defaultWindowDays st.methodKey
        else st.solicitationWindowDays) = st.solicitationWindowDays := if_neg (by omega)
    unfold packageVerdict at hpassed
    simp only [hwindow] at hpassed
    rcases le_effectiveLegalMinimum hn with hzero | ⟨m, hm, hle⟩
    · omega
    · have hmin := solicitationGate_window hpassed (by omega) m hm
      omega

end DigitalWorker
