import DigitalWorker.Preparation.Amend
import DigitalWorker.Preparation.NodeMoves

/-! # What the next run works with

    Three parties write about the demand of a case: extraction stores what it
    read from the purchase request, the requester answers in batches, and an
    amendment stores the figures it changed. The next run reads the latest
    snapshot and the latest batch, whoever wrote them.
-/

namespace DigitalWorker

structure NextRun (env : Env) (db : CaseDb) where
  call : Call
  trigger : RunTrigger
  runId : Uuid
  actor : Uuid
  inputs : NodeName → NodeInput
  started : CaseDb
  loaded : CaseDb × PreparationState
  extracted : CaseDb × PreparationState
  checked : CaseDb × PreparationState
  start : startRun env call trigger runId db = .ok (started, actor)
  load : loadCase env (inputs .loadCase) {} started = (loaded.1, .ok loaded.2)
  extract : extractRequirements env (inputs .extractRequirements) loaded.2 loaded.1 =
    (extracted.1, .ok extracted.2)
  check : completenessCheck env (inputs .completenessCheck) extracted.2 extracted.1 =
    (checked.1, .ok checked.2)

/-- The answers `load_case` finds: those of the latest response. -/
def latestAnswers (env : Env) (db : CaseDb) : List (String × String) :=
  match db.latestContent .clarificationResponse with
  | some content => responseAnswers env content
  | none => []

namespace NextRun

variable {env : Env} {db : CaseDb} (r : NextRun env db)

theorem started_latestContent (t : ArtifactType) :
    r.started.latestContent t = db.latestContent t := by
  obtain ⟨_, _, hartifacts, _⟩ := startRun_ok r.start
  rw [CaseDb.latestContent, hartifacts]
  rfl

theorem loaded_rows : r.loaded.1 = r.started := by
  have h := runTransaction_ok r.load
  exact (Prod.mk.inj (Except.ok.inj h)).1.symm

theorem loaded_answers : r.loaded.2.clarificationAnswers = latestAnswers env db := by
  have h := runTransaction_ok r.load
  rw [← (Prod.mk.inj (Except.ok.inj h)).2]
  show (match r.started.latestContent .clarificationResponse with
    | some content => responseAnswers env content
    | none => []) = _
  rw [r.started_latestContent]
  rfl

private theorem extracted_state {content : Dict}
    (h : db.latestContent .demandSnapshot = some content) : r.extracted.2 =
      { r.loaded.2 with
        requirements := (snapshotLists content).1
        unknowns := (snapshotLists content).2 } := by
  have hloaded : r.loaded.1.latestContent .demandSnapshot = some content := by
    rw [r.loaded_rows, r.started_latestContent, h]
  have hextract := r.extract
  unfold extractRequirements at hextract
  rw [hloaded] at hextract
  have htxn := runTransaction_ok hextract
  exact (Prod.mk.inj (Except.ok.inj htxn)).2.symm

theorem extracted_demand {content : Dict}
    (h : db.latestContent .demandSnapshot = some content) :
    (r.extracted.2.requirements, r.extracted.2.unknowns) = snapshotLists content := by
  rw [r.extracted_state h]

theorem checked_clarifications {content : Dict}
    (h : db.latestContent .demandSnapshot = some content) :
    r.checked.2.clarifications =
      clarificationsOf (latestAnswers env db) (snapshotLists content).2 := by
  have htxn := runTransaction_ok r.check
  simp only [id_eq, bind_ok] at htxn
  obtain ⟨rows, _, hret⟩ := htxn
  rw [← (Prod.mk.inj (Except.ok.inj hret)).2]
  show clarificationsOf r.extracted.2.clarificationAnswers r.extracted.2.unknowns = _
  rw [r.extracted_state h]
  show clarificationsOf r.loaded.2.clarificationAnswers _ = _
  rw [r.loaded_answers]

theorem exists_of_startable (h : db.case.state.startable = true) : Nonempty (NextRun env db) := by
  let call : Call :=
    { context := { principalId := db.case.createdBy, featureFlags := [tenderFeature] }
      newId := fun _ => db.case.id }
  let inp : NodeInput := { newId := fun _ => db.case.id }
  have hstart : ∃ p, startRun env call .autoIntake db.case.id db = .ok p := by
    have hfeature : hasFeature env.plans call.context tenderFeature = true := by
      simp [hasFeature, call]
    simp [startRun, requireMayRun, requireFeature, hfeature, raiseIf, PreparationCase.startRun, h,
      bind, Except.bind, pure, Except.pure, CaseDb.saveCase]
  have hload : ∀ rows, ∃ st, loadCase env inp {} rows = (rows, .ok st) := by
    intro rows
    exact ⟨_, rfl⟩
  have hextract : ∀ st rows, ∃ p : CaseDb × PreparationState,
      extractRequirements env inp st rows = (p.1, .ok p.2) := by
    intro st rows
    unfold extractRequirements
    split
    · exact ⟨(_, _), rfl⟩
    · exact ⟨(_, _), rfl⟩
  have hcheck : ∀ st rows, ∃ p : CaseDb × PreparationState,
      completenessCheck env inp st rows = (p.1, .ok p.2) := by
    intro st rows
    have hsave : ∀ (d : CaseDb) (s : CaseState) (step : String), d.saveCase
        (d.case.advance s step) = .ok { d with case := d.case.advance s step } := by
      intro d s step
      exact CaseDb.saveCase_ok.mpr ⟨rfl, rfl⟩
    simp only [completenessCheck, runTransaction, inp, hsave]
    exact ⟨(_, _), rfl⟩
  obtain ⟨⟨started, actor⟩, hstart⟩ := hstart
  obtain ⟨st₁, hload⟩ := hload started
  obtain ⟨extracted, hextract⟩ := hextract st₁ started
  obtain ⟨checked, hcheck⟩ := hcheck extracted.2 extracted.1
  exact ⟨{ call := call, trigger := .autoIntake, runId := db.case.id, actor := actor
           inputs := fun _ => inp, started := started, loaded := (started, st₁)
           extracted := extracted, checked := checked
           start := hstart, load := hload, extract := hextract, check := hcheck }⟩

end NextRun

/-! ## Questions and answers -/

theorem answerOf_mem {kvs : List (String × String)} {key : String}
    (h : key ∈ kvs.map (·.1)) : (key, answerOf kvs key) ∈ kvs := by
  obtain ⟨kv, hkv, rfl⟩ := List.mem_map.mp h
  unfold answerOf
  cases hfind : kvs.reverse.find? (fun kv' => kv'.1 == kv.1) with
  | none =>
    have hnone := List.find?_eq_none.mp hfind kv (List.mem_reverse.mpr hkv)
    exact absurd (beq_self_eq_true kv.1) hnone
  | some found =>
    have hkey : found.1 = kv.1 := by simpa using List.find?_some hfind
    have hmem := List.mem_reverse.mp (List.mem_of_find?_eq_some hfind)
    rw [← hkey]
    exact hmem

theorem answerOf_not_mem {kvs : List (String × String)} {key : String}
    (h : key ∉ kvs.map (·.1)) : answerOf kvs key = "" := by
  unfold answerOf
  cases hfind : kvs.reverse.find? (fun kv => kv.1 == key) with
  | none => rfl
  | some found =>
    have hkey : found.1 = key := by simpa using List.find?_some hfind
    have hmem := List.mem_reverse.mp (List.mem_of_find?_eq_some hfind)
    exact absurd (hkey ▸ List.mem_map_of_mem hmem) h

theorem blank_answerOf {kvs : List (String × String)} {key : String}
    (h : ∀ kv ∈ kvs, blank kv.2 = false) :
    blank (answerOf kvs key) = false ↔ key ∈ kvs.map (·.1) := by
  constructor
  · intro hblank
    by_contra hmem
    simp [answerOf_not_mem hmem] at hblank
  · intro hmem
    exact h (key, answerOf kvs key) (answerOf_mem hmem)

theorem blockingCount_eq_zero {answers : List (String × String)} {unknowns : List Dict} :
    blockingCount (clarificationsOf answers unknowns) = 0 ↔
      ∀ i < unknowns.length, blank (answerOf answers (clarificationId i)) = false := by
  unfold blockingCount clarificationsOf
  rw [List.countP_eq_zero]
  constructor
  · intro h i hi
    have hmem : clarificationFor answers i unknowns[i] ∈
        unknowns.mapIdx (clarificationFor answers) := by
      rw [List.mem_mapIdx]
      exact ⟨i, hi, rfl⟩
    simpa [clarificationFor] using h _ hmem
  · intro h c hc
    rw [List.mem_mapIdx] at hc
    obtain ⟨i, hi, rfl⟩ := hc
    simp [clarificationFor, h i hi]

/-! ## Amendments -/

section

variable {env : Env} {call : Call} {cmd : AmendCaseCommand} {db db' rows : CaseDb}

theorem snapshotLists_amendment {case : PreparationCase} {changes : List String} :
    snapshotLists (amendmentContent env call cmd case changes) = ([], []) := rfl

def storedDemand (db : CaseDb) : List Dict × List Dict :=
  match db.latestContent .demandSnapshot with
  | some content => snapshotLists content
  | none => ([], [])

def openClarifications (env : Env) (db : CaseDb) : List Clarification :=
  (clarificationsOf (latestAnswers env db) (storedDemand db).2).filter (·.blocking)

theorem demand_after_amendment (hamend : amendCase env call cmd db = .ok db')
    (hrows : rows.latestContent .demandSnapshot = db'.latestContent .demandSnapshot)
    (r : NextRun env rows) : (r.extracted.2.requirements, r.extracted.2.unknowns) = ([], []) := by
  obtain ⟨_, _, ⟨changes, hsnapshot⟩, _, _⟩ := amendCase_ok hamend
  rw [r.extracted_demand (hrows.trans hsnapshot)]
  exact snapshotLists_amendment

/-- **Amendments and the demand**: the next run works with the requirements and
    unknowns there were, and every clarification that was open is still open,
    exactly when there were none of either. -/
theorem amendment_keeps_demand_iff (hamend : amendCase env call cmd db = .ok db')
    (hrows : rows.latestContent .demandSnapshot = db'.latestContent .demandSnapshot)
    (r : NextRun env rows) :
    ((r.extracted.2.requirements, r.extracted.2.unknowns) = storedDemand db ∧
        ∀ c ∈ openClarifications env db, c ∈ r.checked.2.clarifications) ↔
      storedDemand db = ([], []) := by
  have hlists := demand_after_amendment hamend hrows r
  constructor
  · intro h
    rw [← h.1, hlists]
  · intro h
    refine ⟨by rw [hlists, h], ?_⟩
    intro c hc
    have hnone : openClarifications env db = [] := by
      unfold openClarifications
      rw [h]
      rfl
    rw [hnone] at hc
    cases hc

/-! ### A case whose demand is lost -/

def officeEnv : Env :=
  { sha256 := id, repr := fun _ => "", isoformat := fun _ => ""
    plans := [("professional", ["tender_worker"])], rules := { methods := [] }, reworkRules := none }

def officeCall : Call :=
  { context := { principalId := { text := "an" }, scopes := ["tender.write"] }
    newId := fun _ => { text := "id" } }

def serverDemand : List Dict × List Dict :=
  ([[("text", .str "Máy chủ")]], [[("question", .str "Bảo hành bao lâu?")]])

def waitingDb (demand : List Dict × List Dict) : CaseDb :=
  { case := { id := { text := "case" }, createdBy := { text := "an" }
              estimatedValueMinor := 100, state := .waitingClarification }
    artifacts :=
      [{ id := { text := "list" }, artifactType := .clarificationList, artifactVersion := 1
         status := .draft, createdBy := { text := "an" }, contentHash := "list"
         content := clarificationListContent (clarificationsOf [] demand.2) },
        { id := { text := "demand" }, artifactType := .demandSnapshot, artifactVersion := 1
          status := .draft, createdBy := { text := "an" }, contentHash := "demand"
          content := snapshotContent {} demand.1 demand.2 "rule" }] }

def raiseValue : AmendCaseCommand := { estimatedValueMinor := some 200 }

theorem waitingDb_amended (demand : List Dict × List Dict) :
    ∃ db', amendCase officeEnv officeCall raiseValue (waitingDb demand) = .ok db' :=
  ⟨_, rfl⟩

/-- An amendment that changes nothing of an empty demand. -/
theorem empty_demand_kept : ∃ db', amendCase officeEnv officeCall raiseValue (waitingDb ([], [])) =
      .ok db' ∧ ∃ r : NextRun officeEnv db',
        (r.extracted.2.requirements, r.extracted.2.unknowns) = storedDemand (waitingDb ([], [])) := by
  obtain ⟨db', hamend⟩ := waitingDb_amended ([], [])
  obtain ⟨_, ⟨_, _, hcase⟩, _⟩ := amendCase_ok hamend
  obtain ⟨r⟩ := @NextRun.exists_of_startable officeEnv db' (by rw [hcase]; rfl)
  exact ⟨db', hamend, r, ((amendment_keeps_demand_iff hamend rfl r).mpr rfl).1⟩

/-- Raising the value drops the requirement and the open question: the next run
    has nothing to ask. -/
theorem amendment_drops_demand : storedDemand (waitingDb serverDemand) = serverDemand ∧
    ∃ db', amendCase officeEnv officeCall raiseValue (waitingDb serverDemand) = .ok db' ∧
      ∃ r : NextRun officeEnv db',
        ¬ ((r.extracted.2.requirements, r.extracted.2.unknowns) =
            storedDemand (waitingDb serverDemand) ∧
          ∀ c ∈ openClarifications officeEnv (waitingDb serverDemand),
            c ∈ r.checked.2.clarifications) := by
  refine ⟨rfl, ?_⟩
  obtain ⟨db', hamend⟩ := waitingDb_amended serverDemand
  obtain ⟨_, ⟨_, _, hcase⟩, _⟩ := amendCase_ok hamend
  obtain ⟨r⟩ := @NextRun.exists_of_startable officeEnv db' (by rw [hcase]; rfl)
  refine ⟨db', hamend, r, ?_⟩
  intro h
  have hlists := demand_after_amendment hamend rfl r
  rw [h.1] at hlists
  cases (Prod.mk.inj hlists).1

end

/-! ## Answers -/

variable {env : Env} {call : Call} {answers : List ClarificationAnswer} {db db' mid : CaseDb}
  {unknowns : List Dict}

structure AwaitingAnswers (db : CaseDb) (unknowns : List Dict) : Prop where
  snapshot : ∃ content, db.latestContent .demandSnapshot = some content ∧
    (snapshotLists content).2 = unknowns
  listing : ∃ before, db.latestContent .clarificationList =
    some (clarificationListContent (clarificationsOf before unknowns))

theorem dictItems_response (d : Json) :
    dictItems ((responseContent env call answers).getD "items" d) =
      answers.map ClarificationAnswer.toDict := by
  show dictItems (.arr (answers.map (fun a => .obj a.toDict))) = _
  have hmap : answers.map (fun a => Json.obj a.toDict) =
      (answers.map ClarificationAnswer.toDict).map Json.obj := by
    rw [List.map_map]
    rfl
  rw [hmap, dictItems_arr_obj]

theorem responseIds_content (h : answers.any (fun a => blank a.answer) = false) :
    responseIds env (responseContent env call answers) = answers.map (·.clarificationId) := by
  have hkept : (answers.map ClarificationAnswer.toDict).filter
      (fun item => !blank ((item.getD "answer" (.str "")).pyStr env.repr)) =
      answers.map ClarificationAnswer.toDict := by
    rw [List.filter_eq_self]
    intro item hitem
    obtain ⟨a, ha, rfl⟩ := List.mem_map.mp hitem
    have hblank : blank a.answer = false := by
      have := List.any_eq_false.mp h a ha
      simpa using this
    show (!blank (strip a.answer)) = true
    rw [blank_strip, hblank]
    rfl
  unfold responseIds
  rw [dictItems_response, hkept, List.map_map]
  rfl

theorem responseAnswers_content :
    responseAnswers env (responseContent env call answers) =
      answers.map (fun a => (a.clarificationId, strip a.answer)) := by
  unfold responseAnswers
  rw [dictItems_response, List.map_map]
  apply List.map_congr_left
  intro a _
  show (a.clarificationId, strip (strip a.answer)) = _
  rw [strip_strip]

theorem answered_rows (h : answerClarifications env call answers db = .ok db') :
    (∀ t, t ≠ .clarificationResponse → db'.latestContent t = db.latestContent t) ∧
      db'.latestContent .clarificationResponse = some (responseContent env call answers) ∧
      ∀ id, id ∈ answeredIds env db' ↔
        id ∈ answers.map (·.clarificationId) ∨ id ∈ answeredIds env db := by
  obtain ⟨hanswers, _, db₁, rfl, hartifacts, _, _⟩ := answerClarifications_ok h
  have hany : answers.any (fun a => blank a.answer) = false := by
    simp only [Bool.or_eq_false_iff] at hanswers
    exact hanswers.2
  refine ⟨?_, ?_, ?_⟩
  · intro t ht
    rw [CaseDb.latestContent, hartifacts]
    exact CaseDb.latestContent_addApplicationArtifact_ne (Ne.symm ht)
  · rw [CaseDb.latestContent, hartifacts]
    exact CaseDb.latestContent_addApplicationArtifact_self
  · intro id
    have hids := @responseIds_content env call answers hany
    unfold answeredIds responses
    rw [hartifacts]
    simp [CaseDb.addApplicationArtifact, CaseDb.addArtifact, hids]

theorem blockingIds_congr (h : db'.latestContent .clarificationList =
    db.latestContent .clarificationList) : blockingIds env db' = blockingIds env db := by
  unfold blockingIds
  rw [h]

theorem reopened_iff (h : answerClarifications env call answers db = .ok db') :
    db'.case.state = .intakeReady ↔
      ∀ id ∈ blockingIds env db,
        id ∈ answers.map (·.clarificationId) ∨ id ∈ answeredIds env db := by
  obtain ⟨hlatest, _, hanswered⟩ := answered_rows h
  obtain ⟨_, hstate, db₁, rfl, hartifacts, _, hcase⟩ := answerClarifications_ok h
  have hstored : ∀ id, id ∈ answers.map (·.clarificationId) ++ answeredIds env
      (db.addApplicationArtifact env (call.newId 0) call.context.principalId
        .clarificationResponse (responseContent env call answers) .submitted) ↔
      id ∈ answers.map (·.clarificationId) ∨ id ∈ answeredIds env db := by
    intro id
    have := hanswered id
    unfold answeredIds responses at this ⊢
    rw [hartifacts] at this
    rw [List.mem_append, this]
    tauto
  have hblocking : blockingIds env (db.addApplicationArtifact env (call.newId 0)
      call.context.principalId .clarificationResponse (responseContent env call answers)
      .submitted) = blockingIds env db := by
    apply blockingIds_congr
    exact CaseDb.latestContent_addApplicationArtifact_ne (by decide)
  rw [hblocking] at hcase
  split at hcase
  · next hall =>
    obtain ⟨_, hreopen⟩ := PreparationCase.reopenAfterClarification_ok.mp hcase
    constructor
    · intro _ id hid
      have := List.all_eq_true.mp hall id hid
      rw [← hstored id]
      simpa using this
    · intro _
      rw [hreopen]
  · next hall =>
    constructor
    · intro hready
      rw [hcase, CaseDb.addApplicationArtifact_case, hstate] at hready
      cases hready
    · intro hcovered
      exfalso
      apply hall
      rw [List.all_eq_true]
      intro id hid
      have := (hstored id).mpr (hcovered id hid)
      simpa using this

theorem AwaitingAnswers.answered (hw : AwaitingAnswers db unknowns)
    (h : answerClarifications env call answers db = .ok db') : AwaitingAnswers db' unknowns := by
  obtain ⟨hlatest, _, _⟩ := answered_rows h
  obtain ⟨content, hcontent, hunknowns⟩ := hw.snapshot
  obtain ⟨before, hlisting⟩ := hw.listing
  constructor
  · exact ⟨content, by rw [hlatest _ (by decide), hcontent], hunknowns⟩
  · exact ⟨before, by rw [hlatest _ (by decide), hlisting]⟩

theorem AwaitingAnswers.blocking (hw : AwaitingAnswers db unknowns) {id : String}
    (hid : id ∈ blockingIds env db) : ∃ i < unknowns.length, id = clarificationId i := by
  obtain ⟨before, hlisting⟩ := hw.listing
  unfold blockingIds at hid
  rw [hlisting] at hid
  obtain ⟨item, hitem, rfl⟩ := List.mem_map.mp hid
  have hitems : dictItems ((clarificationListContent (clarificationsOf before unknowns)).getD
      "items" .null) = (clarificationsOf before unknowns).map Clarification.toDict := by
    show dictItems (.arr ((clarificationsOf before unknowns).map (fun c => .obj c.toDict))) = _
    have hmap : (clarificationsOf before unknowns).map (fun c => Json.obj c.toDict) =
        ((clarificationsOf before unknowns).map Clarification.toDict).map Json.obj := by
      rw [List.map_map]
      rfl
    rw [hmap, dictItems_arr_obj]
  rw [hitems] at hitem
  obtain ⟨c, hc, rfl⟩ := List.mem_map.mp (List.mem_filter.mp hitem).1
  unfold clarificationsOf at hc
  rw [List.mem_mapIdx] at hc
  obtain ⟨i, hi, rfl⟩ := hc
  exact ⟨i, hi, rfl⟩

theorem AwaitingAnswers.unblocked_iff (hw : AwaitingAnswers db unknowns)
    (h : answerClarifications env call answers db = .ok db') (r : NextRun env db') :
    blockingCount r.checked.2.clarifications = 0 ↔
      ∀ i < unknowns.length, clarificationId i ∈ answers.map (·.clarificationId) := by
  obtain ⟨_, hresponse, _⟩ := answered_rows h
  obtain ⟨hanswers, _⟩ := answerClarifications_ok h
  obtain ⟨content, hcontent, rfl⟩ := (hw.answered h).snapshot
  have hlatest : latestAnswers env db' =
      answers.map (fun a => (a.clarificationId, strip a.answer)) := by
    unfold latestAnswers
    rw [hresponse]
    exact responseAnswers_content
  have hnonblank : ∀ kv ∈ latestAnswers env db', blank kv.2 = false := by
    intro kv hkv
    rw [hlatest] at hkv
    obtain ⟨a, ha, rfl⟩ := List.mem_map.mp hkv
    rw [blank_strip]
    simp only [Bool.or_eq_false_iff, List.any_eq_false] at hanswers
    simpa using hanswers.2 a ha
  have hids : (latestAnswers env db').map (·.1) = answers.map (·.clarificationId) := by
    rw [hlatest, List.map_map]
    rfl
  rw [r.checked_clarifications hcontent, blockingCount_eq_zero]
  constructor
  · intro hall i hi
    rw [← hids]
    exact (blank_answerOf hnonblank).mp (hall i hi)
  · intro hall i hi
    rw [blank_answerOf hnonblank, hids]
    exact hall i hi

/-- `AnswerPreparationClarificationsHandler` on one batch after another. -/
def answerAll (env : Env) (batches : List (Call × List ClarificationAnswer)) (db : CaseDb) :
    Except Error CaseDb :=
  batches.foldlM (fun db b => answerClarifications env b.1 b.2 db) db

theorem answerAll_ok {batches : List (Call × List ClarificationAnswer)}
    (hw : AwaitingAnswers db unknowns) (h : answerAll env batches db = .ok mid) :
    AwaitingAnswers mid unknowns ∧ blockingIds env mid = blockingIds env db ∧
      ∀ id, id ∈ answeredIds env mid ↔
        (∃ b ∈ batches, id ∈ b.2.map (·.clarificationId)) ∨ id ∈ answeredIds env db := by
  induction batches generalizing db with
  | nil =>
    obtain rfl := Except.ok.inj h
    exact ⟨hw, rfl, by simp⟩
  | cons b batches ih =>
    rw [answerAll, List.foldlM_cons, bind_ok] at h
    obtain ⟨db₁, hfirst, hrest⟩ := h
    obtain ⟨hlatest, _, hanswered⟩ := answered_rows hfirst
    obtain ⟨hw', hblocking, hids⟩ := ih (hw.answered hfirst) hrest
    refine ⟨hw', hblocking.trans (blockingIds_congr (hlatest _ (by decide))), ?_⟩
    intro id
    rw [hids id, hanswered id]
    simp only [List.mem_cons, exists_eq_or_imp]
    rw [or_left_comm, or_assoc]

/-- **Handler and workflow on what is answered**: after any sequence of accepted
    batches, the handler reopens the case exactly when the next completeness
    check blocks on nothing, if and only if some listed blocking question is
    answered by no batch at all or the last batch answers every question. -/
theorem reopening_agrees_iff {earlier : List (Call × List ClarificationAnswer)}
    (hw : AwaitingAnswers db unknowns) (hearlier : answerAll env earlier db = .ok mid)
    (hlast : answerClarifications env call answers mid = .ok db') (r : NextRun env db') :
    (db'.case.state = .intakeReady ↔ blockingCount r.checked.2.clarifications = 0) ↔
      (∃ id ∈ blockingIds env db, id ∉ answers.map (·.clarificationId) ∧
        (∀ b ∈ earlier, id ∉ b.2.map (·.clarificationId)) ∧ id ∉ answeredIds env db) ∨
      ∀ i < unknowns.length, clarificationId i ∈ answers.map (·.clarificationId) := by
  obtain ⟨hmid, hblocking, hids⟩ := answerAll_ok hw hearlier
  have hreopened := reopened_iff hlast
  rw [hreopened, hmid.unblocked_iff hlast r, hblocking]
  -- the last batch answering everything answers every listed id
  have hcovers : (∀ i < unknowns.length, clarificationId i ∈ answers.map (·.clarificationId)) →
      ∀ id ∈ blockingIds env db,
        id ∈ answers.map (·.clarificationId) ∨ id ∈ answeredIds env mid := by
    intro hall id hid
    obtain ⟨i, hi, rfl⟩ := hw.blocking hid
    exact .inl (hall i hi)
  constructor
  · intro hagree
    by_cases hlisted : ∀ id ∈ blockingIds env db,
        id ∈ answers.map (·.clarificationId) ∨ id ∈ answeredIds env mid
    · exact .inr (hagree.mp hlisted)
    · left
      push Not at hlisted
      obtain ⟨id, hid, hlast', hstored⟩ := hlisted
      rw [hids id] at hstored
      push Not at hstored
      exact ⟨id, hid, hlast', hstored.1, hstored.2⟩
  · intro hcond
    refine ⟨?_, hcovers⟩
    intro hlisted
    rcases hcond with ⟨id, hid, hlast', hearlier', hbefore⟩ | hall
    · exfalso
      rcases hlisted id hid with hmem | hmem
      · exact hlast' hmem
      · rcases (hids id).mp hmem with ⟨b, hb, hmem⟩ | hmem
        · exact hearlier' b hb hmem
        · exact hbefore hmem
    · exact hall

/-! ### Two questions, answered one at a time -/

def twoQuestions : List Dict × List Dict :=
  ([], [[("question", .str "Bảo hành bao lâu?")], [("question", .str "Giao ở đâu?")]])

def answerTo (id : String) : ClarificationAnswer :=
  { clarificationId := id, question := "", answer := "x", sourceNote := "" }

theorem waitingDb_awaiting : AwaitingAnswers (waitingDb twoQuestions) twoQuestions.2 :=
  ⟨⟨snapshotContent {} twoQuestions.1 twoQuestions.2 "rule", rfl, rfl⟩, ⟨[], rfl⟩⟩

/-- Both questions in one batch: handler and workflow agree. -/
theorem one_batch_agrees : ∃ db', answerClarifications officeEnv officeCall
      [answerTo "c1", answerTo "c2"] (waitingDb twoQuestions) = .ok db' ∧
    ∃ r : NextRun officeEnv db',
      (db'.case.state = .intakeReady ↔ blockingCount r.checked.2.clarifications = 0) := by
  have hlast : ∃ db', answerClarifications officeEnv officeCall
      [answerTo "c1", answerTo "c2"] (waitingDb twoQuestions) = .ok db' ∧
      db'.case.state = .intakeReady := ⟨_, rfl, rfl⟩
  obtain ⟨db', hlast, hstate⟩ := hlast
  obtain ⟨r⟩ := @NextRun.exists_of_startable officeEnv db' (by rw [hstate]; rfl)
  have hearlier : answerAll officeEnv [] (waitingDb twoQuestions) = .ok (waitingDb twoQuestions) :=
    rfl
  exact ⟨db', hlast, r, (reopening_agrees_iff waitingDb_awaiting hearlier hlast r).mpr
    (.inr (by decide))⟩

/-- One question in each batch: the handler reopens the case, and the next run
    still blocks on the first question. -/
theorem split_answers_disagree : ∃ mid db',
    answerAll officeEnv [(officeCall, [answerTo "c1"])] (waitingDb twoQuestions) = .ok mid ∧
    answerClarifications officeEnv officeCall [answerTo "c2"] mid = .ok db' ∧
    ∃ r : NextRun officeEnv db',
      ¬ (db'.case.state = .intakeReady ↔ blockingCount r.checked.2.clarifications = 0) := by
  have hruns : ∃ mid db',
      answerAll officeEnv [(officeCall, [answerTo "c1"])] (waitingDb twoQuestions) = .ok mid ∧
      answerClarifications officeEnv officeCall [answerTo "c2"] mid = .ok db' ∧
      db'.case.state = .intakeReady := ⟨_, _, rfl, rfl, rfl⟩
  obtain ⟨mid, db', hfirst, hlast, hstate⟩ := hruns
  obtain ⟨hmid, _⟩ := answerAll_ok waitingDb_awaiting hfirst
  obtain ⟨r⟩ := @NextRun.exists_of_startable officeEnv db' (by rw [hstate]; rfl)
  refine ⟨mid, db', hfirst, hlast, r, ?_⟩
  intro hagree
  have hall := (hmid.unblocked_iff hlast r).mp (hagree.mp hstate)
  exact absurd (hall 0 (by decide)) (by decide)

end DigitalWorker
