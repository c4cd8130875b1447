import DigitalWorker.Preparation.Routing
import DigitalWorker.Worker.Notifications

/-! # Explanations, and who is told of them

    Whoever is blocked writes an explanation and waits for somebody to read it. A
    card goes to a holder of the supporter role when it is written, and another one
    to an administrator when it is still undecided at a sweep after the deadline.

    The outbox keeps one job per idempotency key, so sweeps may be repeated. A job
    belongs to a case: an explanation without one gets no card at all, neither when
    it is written nor later.
-/

namespace DigitalWorker

open Framework

/-- `timedelta(hours=n)`. -/
def hours (n : Int) : Int := n * 3600000000

/-! ## The records -/

/-- The rule pack with its `explanation` section. -/
structure ExplanationRules extends ReworkSupportRules where
  explanationMinChars : Int
  supporterRole : String
  escalateAfterHours : Int

/-- A row of `tender.preparation_explanations`. -/
structure Explanation extends ExplanationRecord where
  workspaceId : Uuid
  caseId : Option Uuid
  contextText : String
  difficultyText : String
  supportRequestText : String
  policyVersion : String
  submittedAt : DateTime
  countedEventIds : List Uuid
  nudgeCount : Nat
  blockCount : Nat
  topReasonCode : String
  decidedBy : Option Uuid := none
  decisionComment : String := ""

def ExplanationStatus.value : ExplanationStatus → String
  | .pending => "pending"
  | .approved => "approved"
  | .rejected => "rejected"

def Explanation.decide (x : Explanation) (approve : Bool) (decidedBy : Uuid)
    (decidedAt : DateTime) (comment : String) : Except Error Explanation := do
  raiseIf (x.status ≠ .pending) (conflictError "this explanation has already been decided"
    [("explanation_id", x.id.text), ("status", x.status.value)])
  raiseIf (decidedBy = x.creatorUserId) (conflictError
    "separation of duties: the author cannot decide their own explanation"
    [("explanation_id", x.id.text)])
  raiseIf (blank comment) (conflictError
    "a decision on an explanation needs a note back to the author"
    [("explanation_id", x.id.text)])
  return { x with
    status := if approve then .approved else .rejected
    decidedBy := some decidedBy, decidedAt := some decidedAt
    decisionComment := strip comment }

/-- What the handlers of one tenant read and write. -/
structure ExplanationDesk where
  directory : Directory := []
  cases : List Uuid := []
  events : List ReworkEvent := []
  explanations : List Explanation := []
  jobs : List Worker.IntakeNotificationJob := []

def ExplanationDesk.store (s : ExplanationDesk) : ReworkStore :=
  { events := s.events, explanations := s.explanations.map (·.toExplanationRecord) }

/-! ## Submitting -/

structure SubmitExplanationCommand where
  contextText : String
  difficultyText : String := ""
  supportRequestText : String := ""
  caseId : Option Uuid := none

/-- A call of `SubmitExplanationHandler`: what it is given, what the clock says to the
    guard and to the handler, the identifiers drawn, and why the guard cannot read the
    tally, if it cannot. -/
structure SubmitExplanation where
  context : AccessContext
  workspaceId : Uuid
  command : SubmitExplanationCommand
  outage : Option Error := none
  assessedAt : DateTime
  now : DateTime
  recordId : Uuid
  jobId : Uuid

def supporterLines (assessment : ReworkAssessment) (creatorLabel : String) : List String :=
  [creatorLabel ++ " có " ++ toString assessment.blockCount ++ " hồ sơ phải chỉnh lại " ++
    "trong " ++ toString assessment.blockWindowDays ++ " ngày."] ++
  (if assessment.topReasonLabel = "" then []
    else ["Hay gặp nhất: " ++ assessment.topReasonLabel ++ "."]) ++
  ["Bạn xem phần mô tả bối cảnh rồi trao đổi giúp để gỡ vướng nhé."]

def explanationKey (id : Uuid) : String := "dw01:rework:explanation:" ++ id.text

def escalationKey (id : Uuid) : String := "dw01:rework:escalated:" ++ id.text

namespace SubmitExplanation

variable (c : SubmitExplanation)

def record (assessment : ReworkAssessment) : Explanation :=
  { id := c.recordId, creatorUserId := c.context.principalId, workspaceId := c.workspaceId
    caseId := c.command.caseId
    contextText := strip c.command.contextText
    difficultyText := strip c.command.difficultyText
    supportRequestText := strip c.command.supportRequestText
    policyVersion := assessment.policyVersion, submittedAt := c.now
    countedEventIds := assessment.countedEventIds
    nudgeCount := assessment.nudgeCount, blockCount := assessment.blockCount
    topReasonCode := assessment.topReasonCode.getD "" }

def card (tenantId caseId recipient : Uuid) (assessment : ReworkAssessment) :
    Worker.IntakeNotificationJob :=
  { id := c.jobId, tenantId := tenantId, workspaceId := c.workspaceId, caseId := caseId
    eventType := .reworkSupportRequired, recipientUserId := recipient, dueAt := c.now
    idempotencyKey := explanationKey c.recordId
    payload := [("explanation_id", .str c.recordId.text),
      ("lines", .arr ((supporterLines assessment "Người tạo hồ sơ").map .str)),
      ("block_count", .num assessment.blockCount)]
    updatedAt := c.now }

end SubmitExplanation

namespace ExplanationDesk

variable (rules : ExplanationRules) (tenantId : Uuid) (s : ExplanationDesk)

/-- `self.guard.assess(context)`. -/
def assessment (c : SubmitExplanation) : ReworkAssessment :=
  ReworkGuard.assess rules.toReworkSupportRules
    (match c.outage with
      | none => .ok s.store
      | some e => .error e)
    c.context.principalId c.assessedAt

def summons (c : SubmitExplanation) : Option Worker.IntakeNotificationJob :=
  if (s.assessment rules c).level = .block then do
    let caseId ← c.command.caseId
    let recipient ← s.directory.recipient rules.supporterRole (some c.context.principalId)
    return c.card tenantId caseId recipient (s.assessment rules c)
  else none

/-- `SubmitExplanationHandler.handle`. -/
def submit (c : SubmitExplanation) : Except Error ExplanationDesk := do
  authorize c.context "tender.write" "preparation_case" ""
  let text := strip c.command.contextText
  raiseIf (text.length < rules.explanationMinChars)
    { kind := .domain, message := "phần mô tả bối cảnh còn quá ngắn"
      details := [("min_chars", toString rules.explanationMinChars),
        ("got", toString text.length)] }
  raiseIf (blank text) (domainError "an explanation needs the context in the author's words")
  -- the constraints of the table are checked at the insert
  raiseIf (s.explanations.any (·.id = c.recordId))
    (Identity.integrityError "preparation_explanations_pkey")
  raiseIf (c.command.caseId.any (!s.cases.contains ·))
    (Identity.integrityError "preparation_explanations_case_id_fkey")
  return { s with
    explanations := c.record (s.assessment rules c) :: s.explanations
    jobs := insertAll (·.idempotencyKey) s.jobs (s.summons rules tenantId c).toList }

end ExplanationDesk

/-- A call of `DecideExplanationHandler`. -/
structure DecideExplanation where
  context : AccessContext
  explanationId : Uuid
  approve : Bool
  comment : String
  now : DateTime

namespace ExplanationDesk

variable (rules : ExplanationRules) (tenantId : Uuid) (s : ExplanationDesk)

/-- `explanations.save`: the decision, and only on a row that is still pending. -/
def save (x : Explanation) : ExplanationDesk :=
  { s with explanations := s.explanations.map (fun row =>
      if row.id = x.id ∧ row.status = .pending then
        { row with
          status := x.status, decidedBy := x.decidedBy, decidedAt := x.decidedAt
          decisionComment := x.decisionComment }
      else row) }

/-- `DecideExplanationHandler.handle`. -/
def decide (d : DecideExplanation) : Except Error ExplanationDesk := do
  authorize d.context "approvals.decide" "preparation_explanation" d.explanationId.text
  raiseIf (rules.supporterRole ≠ "" ∧ ¬ rules.supporterRole ∈ d.context.roles)
    (conflictError "phần mô tả này dành cho vai trò khác xem"
      [("required_role", rules.supporterRole)])
  match s.explanations.find? (·.id = d.explanationId) with
  | none => .error (notFoundError "explanation not found" [])
  | some x => do
    let decided ← x.decide d.approve d.context.principalId d.now d.comment
    return s.save decided

/-! ## Escalating -/

def listPendingOverdue (before : DateTime) : List Explanation :=
  (s.explanations.filter (fun x => x.status = .pending ∧ x.submittedAt ≤ before)).mergeSort
    (fun x y => x.submittedAt ≤ y.submittedAt)

/-- The job of one turn of the loop; `none` goes on with the next record. -/
def escalation (now : DateTime) (draw : Uuid → Uuid) (x : Explanation) :
    Option Worker.IntakeNotificationJob := do
  let caseId ← x.caseId
  let recipient ← s.directory.recipient platformAdminRole (some x.creatorUserId)
  return { id := draw x.id, tenantId := tenantId, workspaceId := x.workspaceId, caseId := caseId
           eventType := .reworkExplanationEscalated, recipientUserId := recipient, dueAt := now
           idempotencyKey := escalationKey x.id
           payload := [("explanation_id", .str x.id.text)], updatedAt := now }

def escalations (now : DateTime) (draw : Uuid → Uuid) : List Worker.IntakeNotificationJob :=
  if rules.isEnabled ∧ 0 < rules.escalateAfterHours then
    (s.listPendingOverdue (now - hours rules.escalateAfterHours)).filterMap
      (s.escalation tenantId now draw)
  else []

/-- `EscalateStaleExplanationsHandler.handle`, with the number it returns. -/
def escalate (now : DateTime) (draw : Uuid → Uuid) : ExplanationDesk × Nat :=
  let jobs := s.escalations rules tenantId now draw
  ({ s with jobs := insertAll (·.idempotencyKey) s.jobs jobs }, jobs.length)

end ExplanationDesk

/-! ## The machine -/

inductive ExplanationAction where
  /-- Roles are given and taken. -/
  | staff (directory : Directory)
  | openCase (caseId : Uuid)
  /-- Returns are recorded, or marked as mis-clicks. -/
  | tally (events : List ReworkEvent)
  | submit (c : SubmitExplanation)
  | decide (d : DecideExplanation)
  | sweep (now : DateTime) (draw : Uuid → Uuid)

namespace ExplanationDesk

def step (rules : ExplanationRules) (tenantId : Uuid) (s : ExplanationDesk) :
    ExplanationAction → Option ExplanationDesk
  | .staff directory => some { s with directory := directory }
  | .openCase caseId => some { s with cases := caseId :: s.cases }
  | .tally events => some { s with events := events }
  | .submit c => (s.submit rules tenantId c).toOption
  | .decide d => (s.decide rules d).toOption
  | .sweep now draw => some (s.escalate rules tenantId now draw).1

def machine (rules : ExplanationRules) (tenantId : Uuid) :
    Machine ExplanationDesk ExplanationAction where
  init s := s.explanations = [] ∧ s.jobs = []
  step := step rules tenantId

/-! ## The property -/

def explanationOf (job : Worker.IntakeNotificationJob) : Option String :=
  match job.payload.get? "explanation_id" with
  | some (.str id) => some id
  | _ => none

def jobsAbout (s : ExplanationDesk) (type : Worker.NotificationType) (id : Uuid) :
    List Worker.IntakeNotificationJob :=
  s.jobs.filter (fun job => job.eventType = type ∧ explanationOf job = some id.text)

def OtherHolds (s : ExplanationDesk) (role : String) (person : Uuid) : Prop :=
  ∃ m ∈ s.directory, role ∈ m.roleKeys ∧ m.userId ≠ person

def Blocked (rules : ExplanationRules) (s : ExplanationDesk) (c : SubmitExplanation) : Prop :=
  (s.assessment rules c).level = .block

def Overdue (rules : ExplanationRules) (now : DateTime) (x : Explanation) : Prop :=
  x.status = .pending ∧ x.submittedAt + hours rules.escalateAfterHours < now

/-- **The property**: in the run that ended in `s`, nobody waits unseen. -/
structure NoneUnseen (rules : ExplanationRules)
    (es : List (Event ExplanationDesk ExplanationAction)) (s : ExplanationDesk) : Prop where
  /-- Each explanation of a blocked author queued one card, to somebody else who holds
      the supporter role. -/
  summoned : ∀ e ∈ es, ∀ c, e.act = .submit c → e.pre.Blocked rules c →
    e.pre.OtherHolds rules.supporterRole c.context.principalId →
    ∃ job, s.jobsAbout .reworkSupportRequired c.recordId = [job] ∧
      job.recipientUserId ≠ c.context.principalId ∧
      ∃ m ∈ e.pre.directory, m.userId = job.recipientUserId ∧ rules.supporterRole ∈ m.roleKeys
  /-- Each explanation that a sweep found overdue has one escalation. -/
  escalated : ∀ e ∈ es, ∀ now draw, e.act = .sweep now draw → ∀ x ∈ e.pre.explanations,
    Overdue rules now x → e.pre.OtherHolds platformAdminRole x.creatorUserId →
    ∃ job, s.jobsAbout .reworkExplanationEscalated x.id = [job]

def Linked (rules : ExplanationRules) (e : Event ExplanationDesk ExplanationAction) : Prop :=
  match e.act with
  | .submit c => e.pre.Blocked rules c →
      e.pre.OtherHolds rules.supporterRole c.context.principalId → c.command.caseId ≠ none
  | .sweep now _ => ∀ x ∈ e.pre.explanations, Overdue rules now x →
      e.pre.OtherHolds platformAdminRole x.creatorUserId →
      x.caseId ≠ none ∧ rules.isEnabled = true ∧ 0 < rules.escalateAfterHours
  | _ => True

end ExplanationDesk

/-! ## The keys -/

theorem Uuid.eq_of_text {a b : Uuid} (h : a.text = b.text) : a = b := by
  cases a
  cases b
  simpa using h

theorem explanationKey_inj {a b : Uuid} (h : explanationKey a = explanationKey b) : a = b :=
  Uuid.eq_of_text ((String.append_right_inj _).mp h)

theorem escalationKey_inj {a b : Uuid} (h : escalationKey a = escalationKey b) : a = b :=
  Uuid.eq_of_text ((String.append_right_inj _).mp h)

/-- The two families of keys part after `dw01:rework:e`. -/
theorem explanationKey_ne {a b : Uuid} : explanationKey a ≠ escalationKey b := by
  intro h
  have hchars := congrArg String.toList h
  unfold explanationKey escalationKey at hchars
  rw [String.toList_append, String.toList_append] at hchars
  have hfirst := congrArg (fun l => l[13]?) hchars
  simp at hfirst

namespace ExplanationDesk

section

variable {rules : ExplanationRules} {tenantId : Uuid} {s s' : ExplanationDesk}

/-! ## What the jobs are about -/

structure Genuine (rules : ExplanationRules) (x : Explanation)
    (job : Worker.IntakeNotificationJob) : Prop where
  linked : x.caseId ≠ none
  about : explanationOf job = some x.id.text
  kind : job.eventType = .reworkSupportRequired ∧ job.idempotencyKey = explanationKey x.id ∨
    job.eventType = .reworkExplanationEscalated ∧ job.idempotencyKey = escalationKey x.id ∧
      rules.isEnabled = true ∧ 0 < rules.escalateAfterHours

variable {job : Worker.IntakeNotificationJob} {c : SubmitExplanation} {x : Explanation}

theorem Genuine.of_same {x y : Explanation}
    (h : Genuine rules x job) (hid : y.id = x.id) (hcase : y.caseId = x.caseId) :
    Genuine rules y job := by
  refine ⟨?_, ?_, ?_⟩
  · rw [hcase]
    exact h.linked
  · rw [hid]
    exact h.about
  · rw [hid]
    exact h.kind

theorem Genuine.key_eq {x y : Explanation} {job other : Worker.IntakeNotificationJob}
    (h : Genuine rules x job) (h' : Genuine rules y other)
    (htype : other.eventType = job.eventType) (habout : explanationOf other = explanationOf job) :
    other.idempotencyKey = job.idempotencyKey := by
  have hid : y.id = x.id := by
    rw [h.about, h'.about] at habout
    exact Uuid.eq_of_text (Option.some.inj habout)
  rcases h.kind with ⟨hkind, hkey⟩ | ⟨hkind, hkey, _⟩ <;>
    rcases h'.kind with ⟨hkind', hkey'⟩ | ⟨hkind', hkey', _⟩
  · rw [hkey, hkey', hid]
  · rw [htype, hkind] at hkind'
    cases hkind'
  · rw [htype, hkind] at hkind'
    cases hkind'
  · rw [hkey, hkey', hid]

theorem Genuine.of_escalationKey {id : Uuid}
    (h : Genuine rules x job)
    (hkey : job.idempotencyKey = escalationKey id) :
    job.eventType = .reworkExplanationEscalated ∧ x.id = id := by
  rcases h.kind with ⟨_, hkey'⟩ | ⟨hkind, hkey', _⟩
  · rw [hkey] at hkey'
    exact absurd hkey'.symm explanationKey_ne
  · rw [hkey] at hkey'
    exact ⟨hkind, (escalationKey_inj hkey').symm⟩

theorem Genuine.of_explanationKey {id : Uuid}
    (h : Genuine rules x job)
    (hkey : job.idempotencyKey = explanationKey id) : x.id = id := by
  rcases h.kind with ⟨_, hkey'⟩ | ⟨_, hkey', _⟩
  · rw [hkey] at hkey'
    exact (explanationKey_inj hkey').symm
  · rw [hkey] at hkey'
    exact absurd hkey' explanationKey_ne

theorem recipient_of_otherHolds {role : String} {person : Uuid} (h : s.OtherHolds role person) :
    ∃ user, s.directory.recipient role (some person) = some user := by
  cases hrec : s.directory.recipient role (some person) with
  | some user => exact ⟨user, rfl⟩
  | none =>
    obtain ⟨m, hm, hrole, hother⟩ := h
    have hunheld := Directory.recipient_eq_none.mp hrec m hm hrole
    exact absurd (Option.some.inj hunheld).symm hother

theorem recipient_holds {role : String} {person user : Uuid}
    (h : s.directory.recipient role (some person) = some user) :
    user ≠ person ∧ ∃ m ∈ s.directory, m.userId = user ∧ role ∈ m.roleKeys := by
  obtain ⟨m, ⟨older, younger, hsplit, hrole, hout, _⟩, huser⟩ := Directory.recipient_eq_some.mp h
  have hm : m ∈ s.directory := by
    rw [hsplit]
    simp
  refine ⟨?_, m, hm, huser, hrole⟩
  rintro rfl
  rw [huser] at hout
  exact hout rfl

/-! ## The handlers -/

theorem submit_ok (h : s.submit rules tenantId c = .ok s') :
    (∀ x ∈ s.explanations, x.id ≠ c.recordId) ∧
    s' = { s with
      explanations := c.record (s.assessment rules c) :: s.explanations
      jobs := insertAll (·.idempotencyKey) s.jobs (s.summons rules tenantId c).toList } := by
  unfold submit at h
  obtain ⟨_, _, h⟩ := bind_ok.mp h
  obtain ⟨_, _, h⟩ := bind_ok.mp h
  obtain ⟨_, _, h⟩ := bind_ok.mp h
  obtain ⟨_, hfresh, h⟩ := bind_ok.mp h
  obtain ⟨_, _, h⟩ := bind_ok.mp h
  refine ⟨?_, (Except.ok.inj h).symm⟩
  intro x hx hid
  rw [raiseIf_ok, List.any_eq_false] at hfresh
  exact hfresh x hx (by simpa using hid)

theorem decide_ok {d : DecideExplanation} (h : s.decide rules d = .ok s') :
    s'.jobs = s.jobs ∧ ∃ f : Explanation → Explanation,
      s'.explanations = s.explanations.map f ∧
      ∀ x, (f x).id = x.id ∧ (f x).caseId = x.caseId := by
  unfold decide at h
  obtain ⟨_, _, h⟩ := bind_ok.mp h
  obtain ⟨_, _, h⟩ := bind_ok.mp h
  split at h
  · cases h
  · obtain ⟨decided, _, h⟩ := bind_ok.mp h
    obtain rfl := Except.ok.inj h
    refine ⟨rfl, _, rfl, ?_⟩
    intro x
    split
    · exact ⟨rfl, rfl⟩
    · exact ⟨rfl, rfl⟩

theorem summons_genuine
    (h : s.summons rules tenantId c = some job) :
    Genuine rules (c.record (s.assessment rules c)) job := by
  unfold summons at h
  split at h
  · simp only [Option.bind_eq_bind, Option.bind_eq_some_iff, Option.pure_def,
      Option.some.injEq] at h
    obtain ⟨caseId, hcase, recipient, _, rfl⟩ := h
    refine ⟨?_, rfl, Or.inl ⟨rfl, rfl⟩⟩
    show c.command.caseId ≠ none
    rw [hcase]
    exact Option.some_ne_none _
  · cases h

theorem escalation_genuine {now : DateTime} {draw : Uuid → Uuid}
    (h : job ∈ s.escalations rules tenantId now draw) :
    ∃ x ∈ s.explanations, Genuine rules x job := by
  unfold escalations at h
  split at h
  · next hon =>
    obtain ⟨x, hx, hjob⟩ := List.mem_filterMap.mp h
    simp only [escalation, Option.bind_eq_bind, Option.bind_eq_some_iff, Option.pure_def,
      Option.some.injEq] at hjob
    obtain ⟨caseId, hcase, recipient, _, rfl⟩ := hjob
    have hmem : x ∈ s.explanations := (List.mem_filter.mp (List.mem_mergeSort.mp hx)).1
    refine ⟨x, hmem, ?_, rfl, Or.inr ⟨rfl, rfl, hon⟩⟩
    rw [hcase]
    exact Option.some_ne_none _
  · cases h

/-! ## What a step leaves -/

theorem ok_of_toOption {ε α : Type} {x : Except ε α} {a : α} (h : x.toOption = some a) :
    x = .ok a := by
  cases x with
  | ok b => exact congrArg Except.ok (Option.some.inj h)
  | error e => cases h

structure Wrote (rules : ExplanationRules) (s s' : ExplanationDesk) : Prop where
  kept : ∀ x ∈ s.explanations, ∃ y ∈ s'.explanations, y.id = x.id ∧ y.caseId = x.caseId
  ids : (s.explanations.map (·.id)).Nodup → (s'.explanations.map (·.id)).Nodup
  queued : ∃ jobs, s'.jobs = insertAll (·.idempotencyKey) s.jobs jobs ∧
    ∀ job ∈ jobs, ∃ x ∈ s'.explanations, Genuine rules x job

theorem Wrote.of_same (hx : s'.explanations = s.explanations) (hjobs : s'.jobs = s.jobs) :
    Wrote rules s s' := by
  refine ⟨?_, ?_, [], hjobs, by simp⟩
  · intro x hmem
    rw [hx]
    exact ⟨x, hmem, rfl, rfl⟩
  · rw [hx]
    exact id

theorem submit_wrote (h : s.submit rules tenantId c = .ok s') :
    Wrote rules s s' := by
  obtain ⟨hfresh, rfl⟩ := submit_ok h
  refine ⟨?_, ?_, _, rfl, ?_⟩
  · intro x hx
    exact ⟨x, List.mem_cons_of_mem _ hx, rfl, rfl⟩
  · intro hids
    rw [List.map_cons, List.nodup_cons]
    refine ⟨?_, hids⟩
    intro hmem
    obtain ⟨x, hx, hid⟩ := List.mem_map.mp hmem
    exact hfresh x hx hid
  · intro job hjob
    exact ⟨_, List.mem_cons_self, summons_genuine (Option.mem_toList.mp hjob)⟩

theorem decide_wrote {d : DecideExplanation} (h : s.decide rules d = .ok s') :
    Wrote rules s s' := by
  obtain ⟨hjobs, f, hx, hf⟩ := decide_ok h
  refine ⟨?_, ?_, [], hjobs, by simp⟩
  · intro x hmem
    rw [hx]
    exact ⟨f x, List.mem_map_of_mem hmem, hf x⟩
  · intro hids
    have hsame : s'.explanations.map (·.id) = s.explanations.map (·.id) := by
      rw [hx, List.map_map]
      exact List.map_congr_left fun x _ => (hf x).1
    rwa [hsame]

theorem escalate_wrote {now : DateTime} {draw : Uuid → Uuid} :
    Wrote rules s (s.escalate rules tenantId now draw).1 := by
  refine ⟨fun x hx => ⟨x, hx, rfl, rfl⟩, id, _, rfl, ?_⟩
  intro job hjob
  exact escalation_genuine hjob

theorem step_wrote {a : ExplanationAction} (h : s.step rules tenantId a = some s') :
    Wrote rules s s' := by
  cases a with
  | staff directory =>
    obtain rfl := Option.some.inj h
    exact Wrote.of_same rfl rfl
  | openCase caseId =>
    obtain rfl := Option.some.inj h
    exact Wrote.of_same rfl rfl
  | tally events =>
    obtain rfl := Option.some.inj h
    exact Wrote.of_same rfl rfl
  | submit c => exact submit_wrote (ok_of_toOption h)
  | decide d => exact decide_wrote (ok_of_toOption h)
  | sweep now draw =>
    obtain rfl := Option.some.inj h
    exact escalate_wrote

/-! ## The invariant -/

structure Sound (rules : ExplanationRules) (s : ExplanationDesk) : Prop where
  keys : (s.jobs.map (·.idempotencyKey)).Nodup
  ids : (s.explanations.map (·.id)).Nodup
  genuine : ∀ job ∈ s.jobs, ∃ x ∈ s.explanations, Genuine rules x job

theorem Sound.step (hs : Sound rules s) (h : Wrote rules s s') : Sound rules s' := by
  obtain ⟨jobs, hjobs, hnew⟩ := h.queued
  refine ⟨?_, h.ids hs.ids, ?_⟩
  · rw [hjobs]
    exact nodup_insertAll hs.keys
  · intro job hjob
    rw [hjobs] at hjob
    rcases mem_insertAll hjob with hmem | hmem
    · exact hnew job hmem
    · obtain ⟨x, hx, hgen⟩ := hs.genuine job hmem
      obtain ⟨y, hy, hid, hcase⟩ := h.kept x hx
      exact ⟨y, hy, hgen.of_same hid hcase⟩

theorem sound_init (h : (machine rules tenantId).init s) : Sound rules s := by
  obtain ⟨hx, hjobs⟩ := h
  refine ⟨?_, ?_, ?_⟩
  · simp [hjobs]
  · simp [hx]
  · simp [hjobs]

theorem Sound.jobsAbout_eq (hs : Sound rules s)
    (hjob : job ∈ s.jobs) {id : Uuid} (habout : explanationOf job = some id.text) :
    s.jobsAbout job.eventType id = [job] := by
  unfold jobsAbout
  refine filter_of_nodup hs.keys hjob (by simp [habout]) ?_
  intro other hother hp
  obtain ⟨htype, habout'⟩ := of_decide_eq_true hp
  obtain ⟨x, _, hgen⟩ := hs.genuine job hjob
  obtain ⟨y, _, hgen'⟩ := hs.genuine other hother
  exact hgen.key_eq hgen' htype (by rw [habout, habout'])

theorem Sound.of_jobsAbout (hs : Sound rules s) {type : Worker.NotificationType}
    (hx : x ∈ s.explanations)
    (h : s.jobsAbout type x.id = [job]) : job.eventType = type ∧ Genuine rules x job := by
  have hmem : job ∈ s.jobsAbout type x.id := by
    rw [h]
    exact List.mem_singleton_self job
  obtain ⟨hjob, hp⟩ := List.mem_filter.mp hmem
  obtain ⟨htype, habout⟩ := of_decide_eq_true hp
  obtain ⟨y, hy, hgen⟩ := hs.genuine job hjob
  have hid : y.id = x.id := by
    have hsame := hgen.about
    rw [habout] at hsame
    exact (Uuid.eq_of_text (Option.some.inj hsame)).symm
  -- ids are told apart, so it is the explanation itself
  obtain rfl := List.inj_on_of_nodup_map hs.ids hy hx hid
  exact ⟨htype, hgen⟩

/-! ## Runs -/

variable {es : List (Event ExplanationDesk ExplanationAction)}

theorem exec_sound (h : Exec (machine rules tenantId) es s) : Sound rules s :=
  h.invariant (fun _ => sound_init) (fun _ _ _ hs hstep => hs.step (step_wrote hstep))

structure Kept (s s' : ExplanationDesk) : Prop where
  jobs : ∀ job ∈ s.jobs, job ∈ s'.jobs
  explanations : ∀ x ∈ s.explanations, ∃ y ∈ s'.explanations, y.id = x.id ∧ y.caseId = x.caseId

theorem Kept.refl : Kept s s :=
  ⟨fun _ hjob => hjob, fun x hx => ⟨x, hx, rfl, rfl⟩⟩

theorem Kept.trans {s'' : ExplanationDesk} (h : Kept s s') (h' : Kept s' s'') : Kept s s'' := by
  refine ⟨fun job hjob => h'.jobs job (h.jobs job hjob), ?_⟩
  intro x hx
  obtain ⟨y, hy, hid, hcase⟩ := h.explanations x hx
  obtain ⟨z, hz, hid', hcase'⟩ := h'.explanations y hy
  exact ⟨z, hz, hid'.trans hid, hcase'.trans hcase⟩

theorem Wrote.keeps (h : Wrote rules s s') : Kept s s' := by
  obtain ⟨jobs, hjobs, _⟩ := h.queued
  refine ⟨?_, h.kept⟩
  intro job hjob
  rw [hjobs]
  exact mem_insertAll_of_mem hjob

theorem kept_since (h : Exec (machine rules tenantId) es s) : ∀ e ∈ es, Kept e.post s := by
  induction h with
  | start _ =>
    intro e he
    exact absurd he List.not_mem_nil
  | snoc _ hs ih =>
    intro e he
    rcases List.mem_cons.mp he with rfl | he
    · exact Kept.refl
    · exact (ih e he).trans (step_wrote hs).keeps

/-! ## What a step that is linked does -/

theorem submit_summons (hs : Sound rules s)
    (h : s.submit rules tenantId c = .ok s') (hblock : s.Blocked rules c)
    (hheld : s.OtherHolds rules.supporterRole c.context.principalId)
    (hcase : c.command.caseId ≠ none) :
    ∃ job ∈ s'.jobs, job.eventType = .reworkSupportRequired ∧
      explanationOf job = some c.recordId.text ∧
      s.directory.recipient rules.supporterRole (some c.context.principalId) =
        some job.recipientUserId := by
  obtain ⟨hfresh, rfl⟩ := submit_ok h
  obtain ⟨caseId, hcaseId⟩ := Option.ne_none_iff_exists'.mp hcase
  obtain ⟨user, huser⟩ := recipient_of_otherHolds hheld
  have hsummons : s.summons rules tenantId c =
      some (c.card tenantId caseId user (s.assessment rules c)) := by
    unfold summons
    rw [if_pos (show (s.assessment rules c).level = .block from hblock), hcaseId, huser]
    rfl
  refine ⟨c.card tenantId caseId user (s.assessment rules c), ?_, rfl, rfl, huser⟩
  -- the key is new, as the record is
  have hnew : Accepted (·.idempotencyKey) s.jobs
      (c.card tenantId caseId user (s.assessment rules c)) := by
    intro hkey
    obtain ⟨job, hjob, hkey⟩ := List.mem_map.mp hkey
    obtain ⟨x, hx, hgen⟩ := hs.genuine job hjob
    exact hfresh x hx (hgen.of_explanationKey hkey)
  show _ ∈ insertAll _ s.jobs (s.summons rules tenantId c).toList
  rw [hsummons]
  show _ ∈ insertOnce _ s.jobs _
  rw [insertOnce_of_accepted hnew]
  exact List.mem_cons_self

theorem escalate_overdue (hs : Sound rules s) {now : DateTime} {draw : Uuid → Uuid}
    (hx : x ∈ s.explanations) (hover : Overdue rules now x)
    (hheld : s.OtherHolds platformAdminRole x.creatorUserId) (hcase : x.caseId ≠ none)
    (hon : rules.isEnabled = true ∧ 0 < rules.escalateAfterHours) :
    ∃ job ∈ (s.escalate rules tenantId now draw).1.jobs,
      job.eventType = .reworkExplanationEscalated ∧ explanationOf job = some x.id.text := by
  obtain ⟨caseId, hcaseId⟩ := Option.ne_none_iff_exists'.mp hcase
  obtain ⟨user, huser⟩ := recipient_of_otherHolds hheld
  obtain ⟨hpending, hlate⟩ := hover
  have hlisted : x ∈ s.listPendingOverdue (now - hours rules.escalateAfterHours) := by
    unfold listPendingOverdue
    rw [List.mem_mergeSort, List.mem_filter]
    exact ⟨hx, decide_eq_true ⟨hpending, Int.le_sub_right_of_add_le hlate.le⟩⟩
  have hkey : escalationKey x.id ∈
      (s.escalations rules tenantId now draw).map (·.idempotencyKey) := by
    have hjob : ∃ job, s.escalation tenantId now draw x = some job ∧
        job.idempotencyKey = escalationKey x.id := by
      unfold escalation
      rw [hcaseId, huser]
      exact ⟨_, rfl, rfl⟩
    obtain ⟨job, hjob, hkey⟩ := hjob
    unfold escalations
    rw [if_pos hon, List.mem_map]
    exact ⟨job, List.mem_filterMap.mpr ⟨x, hlisted, hjob⟩, hkey⟩
  have htaken : escalationKey x.id ∈
      (s.escalate rules tenantId now draw).1.jobs.map (·.idempotencyKey) :=
    mem_keys_insertAll.mpr (Or.inl hkey)
  obtain ⟨job, hjob, hsame⟩ := List.mem_map.mp htaken
  have hs' : Sound rules (s.escalate rules tenantId now draw).1 := hs.step escalate_wrote
  obtain ⟨y, _, hgen⟩ := hs'.genuine job hjob
  obtain ⟨htype, hid⟩ := hgen.of_escalationKey hsame
  refine ⟨job, hjob, htype, ?_⟩
  rw [← hid]
  exact hgen.about

/-! ## The property holds exactly of linked runs -/

theorem noneUnseen_of_linked (h : Exec (machine rules tenantId) es s)
    (hlinked : ∀ e ∈ es, Linked rules e) : NoneUnseen rules es s := by
  refine ⟨?_, ?_⟩
  · intro e he c hact hblock hheld
    have hcase : c.command.caseId ≠ none := by
      have hlink := hlinked e he
      simp only [Linked, hact] at hlink
      exact hlink hblock hheld
    obtain ⟨_, _, rfl, hpre, hstep⟩ := h.split he
    rw [hact] at hstep
    obtain ⟨job, hjob, htype, habout, hrec⟩ := submit_summons (exec_sound hpre)
      (ok_of_toOption hstep) hblock hheld hcase
    have hlater : job ∈ s.jobs := (kept_since h e he).jobs job hjob
    refine ⟨job, ?_, recipient_holds hrec⟩
    rw [← htype]
    exact (exec_sound h).jobsAbout_eq hlater habout
  · intro e he now draw hact x hx hover hheld
    have hlink := hlinked e he
    simp only [Linked, hact] at hlink
    obtain ⟨hcase, hon⟩ := hlink x hx hover hheld
    obtain ⟨_, _, rfl, hpre, hstep⟩ := h.split he
    rw [hact] at hstep
    have hpost : (e.pre.escalate rules tenantId now draw).1 = e.post := Option.some.inj hstep
    obtain ⟨job, hjob, htype, habout⟩ : ∃ job ∈ e.post.jobs,
        job.eventType = .reworkExplanationEscalated ∧ explanationOf job = some x.id.text := by
      rw [← hpost]
      exact escalate_overdue (exec_sound hpre) hx hover hheld hcase hon
    have hlater : job ∈ s.jobs := (kept_since h e he).jobs job hjob
    refine ⟨job, ?_⟩
    rw [← htype]
    exact (exec_sound h).jobsAbout_eq hlater habout

theorem linked_of_job (h : Exec (machine rules tenantId) es s)
    {e : Event ExplanationDesk ExplanationAction} (he : e ∈ es)
    (hx : x ∈ e.post.explanations) {type : Worker.NotificationType}
    (hjob : s.jobsAbout type x.id = [job]) :
    x.caseId ≠ none ∧ (type = .reworkExplanationEscalated →
      rules.isEnabled = true ∧ 0 < rules.escalateAfterHours) := by
  obtain ⟨y, hy, hid, hcase⟩ := (kept_since h e he).explanations x hx
  rw [← hid] at hjob
  obtain ⟨htype, hgen⟩ := (exec_sound h).of_jobsAbout hy hjob
  refine ⟨?_, ?_⟩
  · rw [← hcase]
    exact hgen.linked
  · intro hkind
    rcases hgen.kind with ⟨hsummons, _⟩ | ⟨_, _, hon⟩
    · rw [htype, hkind] at hsummons
      cases hsummons
    · exact hon

theorem linked_of_noneUnseen (h : Exec (machine rules tenantId) es s)
    (hseen : NoneUnseen rules es s) : ∀ e ∈ es, Linked rules e := by
  intro e he
  obtain ⟨_, _, _, _, hstep⟩ := h.split he
  unfold Linked
  split
  · next c hact =>
    intro hblock hheld
    obtain ⟨job, hjob, _⟩ := hseen.summoned e he c hact hblock hheld
    rw [hact] at hstep
    obtain ⟨_, hpost⟩ := submit_ok (ok_of_toOption hstep)
    have hmem : c.record (e.pre.assessment rules c) ∈ e.post.explanations := by
      rw [hpost]
      exact List.mem_cons_self
    exact (linked_of_job h he hmem hjob).1
  · next now draw hact =>
    intro x hx hover hheld
    obtain ⟨job, hjob⟩ := hseen.escalated e he now draw hact x hx hover hheld
    rw [hact] at hstep
    have hmem : x ∈ e.post.explanations := by
      rw [← Option.some.inj hstep]
      exact hx
    obtain ⟨hcase, hon⟩ := linked_of_job h he hmem hjob
    exact ⟨hcase, hon rfl⟩
  · trivial

end

/-- **Nobody waits unseen** in a run exactly when each of its steps is linked. -/
theorem noneUnseen_iff (rules : ExplanationRules) (tenantId : Uuid)
    {es : List (Event ExplanationDesk ExplanationAction)} {s : ExplanationDesk}
    (h : Exec (machine rules tenantId) es s) :
    NoneUnseen rules es s ↔ ∀ e ∈ es, Linked rules e :=
  ⟨linked_of_noneUnseen h, noneUnseen_of_linked h⟩

end ExplanationDesk

/-! ## An author who waits unseen -/

namespace WaitingDesk

open ExplanationDesk

def author : Uuid := { text := "an" }
def head : Uuid := { text := "binh" }
def admin : Uuid := { text := "chi" }
def tenant : Uuid := { text := "tenant" }
def openedCase : Uuid := { text := "case-1" }

def rules : ExplanationRules :=
  { policyVersion := "v1", enabledFrom := none, nudgeWindowDays := 30, nudgeThreshold := 1
    blockWindowDays := 30, blockThreshold := 1, generalGuidance := "", reasonCodes := []
    explanationMinChars := 1, supporterRole := "procurement_head", escalateAfterHours := 48 }

def desk : ExplanationDesk :=
  { directory := [{ userId := author, roleKeys := ["requester"] },
      { userId := head, roleKeys := ["procurement_head"] },
      { userId := admin, roleKeys := ["platform_admin"] }]
    cases := [openedCase]
    events := [{ id := { text := "event-1" }, caseId := openedCase, creatorUserId := author
                 decidedByUserId := head, checkpoint := .cp1, reasonCode := "other"
                 reasonText := "", policyVersion := "v1", occurredAt := 0 }] }

def explains (caseId : Option Uuid) : SubmitExplanation :=
  { context := { principalId := author, scopes := ["tender.write"] }
    workspaceId := { text := "workspace" }
    command := { contextText := "?", caseId := caseId }
    assessedAt := hours 1, now := hours 1
    recordId := { text := "x-1" }, jobId := { text := "job-1" } }

def written (caseId : Option Uuid) : ExplanationDesk :=
  (machine rules tenant).next desk (.submit (explains caseId))

def sweeps : ExplanationAction := .sweep (hours 73) (fun _ => { text := "job-2" })

def swept (caseId : Option Uuid) : ExplanationDesk :=
  (machine rules tenant).next (written caseId) sweeps

def history (caseId : Option Uuid) : List (Event ExplanationDesk ExplanationAction) :=
  [⟨written caseId, sweeps, swept caseId⟩, ⟨desk, .submit (explains caseId), written caseId⟩]

theorem history_exec (caseId : Option Uuid)
    (h : ((machine rules tenant).step desk (.submit (explains caseId))).isSome = true) :
    Exec (machine rules tenant) (history caseId) (swept caseId) :=
  ((Exec.start (show (machine rules tenant).init desk from ⟨rfl, rfl⟩)).next _ h).next _ rfl

/-- **Unseen**: both roles are staffed, the author is blocked and writes, and nobody
    decides; there is no job after the sweep. -/
theorem waits_unseen :
    Exec (machine rules tenant) (history none) (swept none) ∧
      desk.Blocked rules (explains none) ∧
      desk.OtherHolds rules.supporterRole author ∧
      desk.OtherHolds platformAdminRole author ∧
      (∃ x ∈ (written none).explanations, x.creatorUserId = author ∧
        Overdue rules (hours 73) x) ∧
      (swept none).jobs.length = 0 ∧ ¬ NoneUnseen rules (history none) (swept none) := by
  have hexec := history_exec none (by decide +kernel)
  have hblock : desk.Blocked rules (explains none) := by
    unfold Blocked
    decide +kernel
  have hheld : desk.OtherHolds rules.supporterRole author :=
    ⟨{ userId := head, roleKeys := ["procurement_head"] }, by decide +kernel⟩
  have hjobs : (swept none).jobs.length = 0 := by decide +kernel
  refine ⟨hexec, hblock, hheld,
    ⟨{ userId := admin, roleKeys := ["platform_admin"] }, by decide +kernel⟩, ?_, hjobs, ?_⟩
  · unfold Overdue
    decide +kernel
  · intro hseen
    obtain ⟨job, hjob, _⟩ := hseen.summoned ⟨desk, .submit (explains none), written none⟩
      (by simp [history]) _ rfl hblock hheld
    unfold jobsAbout at hjob
    rw [List.eq_nil_of_length_eq_zero hjobs] at hjob
    cases hjob

/-- **Seen**: the same from the page of a case. -/
theorem seen_from_case :
    NoneUnseen rules (history (some openedCase)) (swept (some openedCase)) := by
  have hexec := history_exec (some openedCase) (by decide +kernel)
  have hcases : ∀ x ∈ (written (some openedCase)).explanations, x.caseId ≠ none := by
    decide +kernel
  refine (noneUnseen_iff rules tenant hexec).mpr ?_
  intro e he
  unfold history at he
  rcases List.mem_cons.mp he with rfl | he
  · show ∀ x ∈ (written (some openedCase)).explanations, _
    intro x hx _ _
    exact ⟨hcases x hx, by decide +kernel, by decide +kernel⟩
  · obtain rfl := List.mem_singleton.mp he
    intro _ _
    exact Option.some_ne_none _

end WaitingDesk

end DigitalWorker
