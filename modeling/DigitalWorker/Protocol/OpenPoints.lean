import DigitalWorker.Protocol.Drift

/-! # Open points, as two readers see them

    The handler that stores answers and the readiness check each decide whether a
    blocking point is still open. The handler looks through every stored response for
    the id of a non-empty answer; the check looks into the latest one, for fields the
    handler never writes.
-/

namespace DigitalWorker

open Readiness

/-! ## The property and its condition -/

def ReadinessReport.ReportsOpen (report : ReadinessReport) : Prop :=
  ∃ f ∈ report.findings, f.code = "open_clarification"

def Unanswered (env : Env) (db : CaseDb) : Prop :=
  ∃ id ∈ blockingIds env db, id ∉ answeredIds env db

def ResponsesWritten (env : Env) (db : CaseDb) : Prop :=
  ∀ a ∈ db.artifacts, a.artifactType = .clarificationResponse →
    ∃ call answers, a.content = responseContent env call answers

def OneRowPerVersion (db : CaseDb) : Prop :=
  (db.artifacts.map (fun a => (a.artifactType, a.artifactVersion))).Nodup

def HandlerWaits (env : Env) (db : CaseDb) : Prop :=
  ∀ call answers db', answerClarifications env call answers db = .ok db' →
    (db'.case.state = .waitingClarification ↔ Unanswered env db')

instance (report : ReadinessReport) : Decidable report.ReportsOpen :=
  inferInstanceAs (Decidable (∃ f ∈ report.findings, f.code = "open_clarification"))

instance (env : Env) (db : CaseDb) : Decidable (Unanswered env db) :=
  inferInstanceAs (Decidable (∃ id ∈ blockingIds env db, id ∉ answeredIds env db))

/-! ## What the check sees -/

section

variable {env : Env} {context : AccessContext} {opinion : SecondOpinion} {db : CaseDb}
  {report : ReadinessReport}

theorem readItems_eq {v : Json} {items : List Dict} (h : readItems v = some items) :
    items = dictItems v := by
  unfold readItems at h
  split at h
  · exact (Option.some.inj h).symm
  · split at h
    · exact (Option.some.inj h).symm
    · cases h
  · split at h
    · cases h
    · exact (Option.some.inj h).symm
  · exact (Option.some.inj h).symm
  · exact (Option.some.inj h).symm
  · exact (Option.some.inj h).symm

theorem answeredForReadiness_written (hwritten : ResponsesWritten env db)
    (honce : OneRowPerVersion db) {answered : List String}
    (h : answeredForReadiness env (currentOf db.artifacts.reverse) = some answered) :
    answered = [] := by
  have hlatest := currentOf_eq_latest honce .clarificationResponse
  unfold answeredForReadiness at h
  rw [show currentOf db.artifacts.reverse "clarification_response" =
    latest db.artifacts .clarificationResponse from hlatest] at h
  cases hresponse : latest db.artifacts .clarificationResponse with
  | none =>
    rw [hresponse] at h
    exact (Option.some.inj h).symm
  | some response =>
    obtain ⟨hmem, htype⟩ := latest_mem hresponse
    obtain ⟨call, answers, hcontent⟩ := hwritten response hmem htype
    rw [hresponse] at h
    simp only [hcontent] at h
    exact (Option.some.inj h).symm

/-- **Check lemma**: over such responses the check reports an open point whenever the
    list has a blocking one. -/
theorem reportsOpen_iff (hwritten : ResponsesWritten env db) (honce : OneRowPerVersion db)
    (h : assessReadiness env context opinion db = .ok (some report)) :
    report.ReportsOpen ↔ blockingIds env db ≠ [] := by
  obtain ⟨findings, hfindings, rfl⟩ := assessReadiness_ok h
  obtain ⟨_, clarifications, _, hopen, _, hof⟩ := readinessFindings_of hfindings
  have hreport : (reportOf findings).ReportsOpen ↔ clarifications ≠ [] := by
    constructor
    · rintro ⟨f, hf, hcode⟩
      exact List.ne_nil_of_mem ((hof f hcode).mp hf)
    · intro hne
      obtain ⟨f, hf⟩ := List.exists_mem_of_ne_nil _ hne
      have hcode := openClarifications_code hopen f hf
      exact ⟨f, (hof f hcode).mpr hf, hcode⟩
  rw [hreport]
  have hlatest : currentOf db.artifacts.reverse "clarification_list" =
      latest db.artifacts .clarificationList := currentOf_eq_latest honce .clarificationList
  unfold Readiness.openClarifications at hopen
  unfold blockingIds CaseDb.latestContent
  rw [hlatest] at hopen
  cases hlist : latest db.artifacts .clarificationList with
  | none =>
    rw [hlist] at hopen
    obtain rfl := Option.some.inj hopen
    simp
  | some listing =>
    rw [hlist] at hopen
    simp only [bind, Option.bind_eq_some_iff, pure, Option.some.injEq] at hopen
    obtain ⟨answered, hanswered, items, hitems, rfl⟩ := hopen
    obtain rfl := answeredForReadiness_written hwritten honce hanswered
    obtain rfl := readItems_eq hitems
    have hblocking : openBlocking env [] (dictItems (listing.content.getD "items" .null)) =
        (dictItems (listing.content.getD "items" .null)).filter
          (fun item => (item.getD "blocking" .null).truthy) := by
      unfold openBlocking
      simp
    rw [hblocking]
    by_cases hnone : (dictItems (listing.content.getD "items" .null)).filter
        (fun item => (item.getD "blocking" .null).truthy) = []
    · simp [hnone]
    · simp [List.isEmpty_iff, hnone]

/-! ## What the handler does -/

theorem batch_answered {call : Call} {answers : List ClarificationAnswer}
    (hfilled : ∀ a ∈ answers, blank a.answer = false) {id : String}
    (h : id ∈ answers.map (·.clarificationId)) :
    id ∈ responseIds env (responseContent env call answers) := by
  obtain ⟨a, ha, rfl⟩ := List.mem_map.mp h
  have hitems : dictItems ((responseContent env call answers).getD "items" .null) =
      answers.map (·.toDict) := by
    have hobjects : answers.map (fun a => Json.obj a.toDict) =
        (answers.map (·.toDict)).map Json.obj := by
      rw [List.map_map]
      rfl
    show dictItems (.arr (answers.map (fun a => .obj a.toDict))) = _
    rw [hobjects, dictItems_arr_obj]
  unfold responseIds
  rw [hitems, List.mem_map]
  refine ⟨a.toDict, List.mem_filter.mpr ⟨List.mem_map_of_mem ha, ?_⟩, rfl⟩
  show (!blank (strip a.answer)) = true
  have hblank := hfilled a ha
  unfold blank at hblank ⊢
  rw [strip_strip, hblank]
  rfl

/-- **Handler lemma**: a case waits after a batch exactly as long as a blocking point is
    unanswered. -/
theorem handler_waits : HandlerWaits env db := by
  intro call answers db' h
  obtain ⟨hanswers, hstate, db₁, hdb₁, hartifacts, _, hcase⟩ := answerClarifications_ok h
  have hfilled : ∀ a ∈ answers, blank a.answer = false := by
    intro a ha
    rw [Bool.or_eq_false_iff] at hanswers
    simpa using List.any_eq_false.mp hanswers.2 a ha
  have hblocking : blockingIds env db' = blockingIds env db₁ := by
    unfold blockingIds CaseDb.latestContent
    rw [hartifacts]
  have hanswered : answeredIds env db' = answeredIds env db₁ := by
    unfold answeredIds responses
    rw [hartifacts]
  -- the batch itself is on file, so it adds nothing to what the responses answer
  have hcovers : (blockingIds env db₁).all
      ((answers.map (·.clarificationId) ++ answeredIds env db₁).contains ·) = true ↔
      ¬ Unanswered env db' := by
    have hstored : ∀ id ∈ answers.map (·.clarificationId), id ∈ answeredIds env db₁ := by
      intro id hid
      have hbatch := @batch_answered env call answers hfilled id hid
      unfold answeredIds responses
      rw [hdb₁, List.mem_flatMap]
      exact ⟨_, List.mem_filter.mpr ⟨List.mem_cons_self, rfl⟩, hbatch⟩
    unfold Unanswered
    rw [hblocking, hanswered, List.all_eq_true]
    push Not
    apply forall₂_congr
    intro id _
    rw [List.contains_iff_mem, List.mem_append]
    constructor
    · rintro (hid | hid)
      · exact hstored id hid
      · exact hid
    · exact .inr
  by_cases hall : Unanswered env db'
  · rw [if_neg (fun hc => hcovers.mp hc hall)] at hcase
    rw [hcase, hdb₁]
    exact iff_of_true hstate (by rw [← hdb₁, ← hcase]; exact hall)
  · rw [if_pos (hcovers.mpr hall)] at hcase
    obtain ⟨_, hreopened⟩ := PreparationCase.reopenAfterClarification_ok.mp hcase
    rw [hreopened]
    exact iff_of_false (by simp) hall

/-- **Readiness and the handler agree** about open points if and only if the latest list
    has no blocking point, or one of them is unanswered; the handler by itself always
    waits for what is unanswered. -/
theorem open_points_agree_iff (hwritten : ResponsesWritten env db) (honce : OneRowPerVersion db)
    (h : assessReadiness env context opinion db = .ok (some report)) :
    (report.ReportsOpen ↔ Unanswered env db) ∧ HandlerWaits env db ↔
      blockingIds env db = [] ∨ Unanswered env db := by
  rw [and_iff_left handler_waits, reportsOpen_iff hwritten honce h]
  constructor
  · intro hagree
    by_cases hnone : blockingIds env db = []
    · exact .inl hnone
    · exact .inr (hagree.mp hnone)
  · rintro (hnone | hopen)
    · refine iff_of_false (not_not.mpr hnone) ?_
      rintro ⟨id, hid, _⟩
      rw [hnone] at hid
      cases hid
    · refine iff_of_true ?_ hopen
      obtain ⟨id, hid, _⟩ := hopen
      exact List.ne_nil_of_mem hid

end

/-! ## One point, before and after its answer -/

namespace Office

def asked : CaseDb :=
  { opened.db with
    case := { opened.db.case with state := .waitingClarification }
    artifacts :=
      [{ id := run, artifactType := .clarificationList, artifactVersion := 1, status := .draft
         content := [("items", .arr [.obj [("id", .str "c1"), ("question", .str "Bảo hành?"),
           ("blocking", .bool true)]])]
         createdBy := an, contentHash := "list" }] }

def answer : ClarificationAnswer :=
  { clarificationId := "c1", question := "Bảo hành?", answer := "36 tháng", sourceNote := "" }

/-- Before the answer they agree. -/
theorem open_point_seen : ∃ report,
    assessReadiness env reader .unwired asked = .ok (some report) ∧
      (report.ReportsOpen ↔ Unanswered env asked) ∧ HandlerWaits env asked := by
  have hwritten : ResponsesWritten env asked := by
    intro a ha htype
    rw [List.mem_singleton.mp ha] at htype
    cases htype
  have hopen : Unanswered env asked := by decide +kernel
  have hsome : ∃ report, assessReadiness env reader .unwired asked = .ok (some report) := by
    refine ⟨_, rfl⟩
  obtain ⟨report, hreport⟩ := hsome
  exact ⟨report, hreport, (open_points_agree_iff hwritten (List.nodup_singleton _) hreport).mpr
    (.inr hopen)⟩

def stillReported (result : Except Error CaseDb) : Bool :=
  match result with
  | .ok db' => db'.case.state == .intakeReady && decide (¬ Unanswered env db') &&
    (match assessReadiness env reader .unwired db' with
      | .ok (some report) => decide report.ReportsOpen
      | _ => false)
  | .error _ => false

/-- The handler stores the answer and reopens the case; readiness reports the point as
    open all the same. -/
theorem answered_point_reported : ∃ db' report,
    answerClarifications env (call an) [answer] asked = .ok db' ∧
      db'.case.state = .intakeReady ∧ ¬ Unanswered env db' ∧
      assessReadiness env reader .unwired db' = .ok (some report) ∧ report.ReportsOpen := by
  have htest : stillReported (answerClarifications env (call an) [answer] asked) = true := by
    decide +kernel
  simp only [stillReported] at htest
  split at htest
  · next db' hrun =>
    simp only [Bool.and_eq_true, beq_iff_eq, decide_eq_true_eq] at htest
    obtain ⟨⟨hstate, hanswered⟩, hreport⟩ := htest
    split at hreport
    · next report hassess =>
      exact ⟨db', report, hrun, hstate, hanswered, hassess, by simpa using hreport⟩
    · cases hreport
  · cases htest

end Office

end DigitalWorker
