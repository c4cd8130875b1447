import DigitalWorker.Preparation.Routing
import DigitalWorker.Protocol.ApprovalMatrix
import DigitalWorker.Protocol.Authority
import DigitalWorker.Protocol.Submissions

/-! # Who is asked to decide

    Five cards ask for a decision: the intake, CP1, CP2, CP3 and CP4. Each is routed
    by a role to the oldest member that holds it. Whether that member may decide is
    checked later, by other code: the scope of the caller, the role on the stamp of
    a request, and the person separation of duties excludes, who is the creator of
    the case, or the one the run acts for. Only the card of the intake is routed
    around the person its own check excludes.
-/

namespace DigitalWorker

open Framework CaseDb

/-! ## What is decided, and by whose hand -/

inductive Item where
  | intake (db : CaseDb)
  /-- What a run asks at CP1 or CP2. -/
  | review (rc : RunContext) (payload : Dict)
  | addendum (db : CaseDb)
  | opening (db : CaseDb)

def Item.Accepts (env : Env) (context : AccessContext) : Item → Prop
  | .intake db => ∃ call, call.context = context ∧
    ((∃ ref comment db', verifyIntake env call ref comment db = .ok db') ∨
      ∃ comment reasonCode db', rejectIntake env call comment reasonCode db = .ok db')
  | .review rc payload => ∃ call cmd now r, call.context = context ∧
    decideRequest env call cmd [approvalFor env rc cmd.approvalId now payload] = .ok r
  | .addendum db => ∃ call cmd db', call.context = context ∧ decideCp3 env call cmd db = .ok db'
  | .opening db => ∃ call cmd db', call.context = context ∧ completeCp4 env call cmd db = .ok db'

def GoesTo (env : Env) (catalogue : List Identity.Role) (directory : Directory) (item : Item)
    (user : Uuid) : Prop :=
  (∃ m ∈ directory, item.Accepts env (m.access catalogue)) →
    ∃ m ∈ directory, m.userId = user ∧ item.Accepts env (m.access catalogue)

def Item.Asks (env : Env) (required : String) (excluded : Uuid) (item : Item) : Prop :=
  ∀ context, item.Accepts env context ↔ context.principalId ≠ excluded ∧
    isAllowed context "approvals.decide" = true ∧ (required = "" ∨ required ∈ context.roles)

section

variable {env : Env} {directory : Directory} {call : Call} {db db' : CaseDb}

def callOf (context : AccessContext) : Call :=
  { context := context, newId := fun _ => context.principalId }

theorem createCase_cards {cmd : CreatePreparationCaseCommand}
    (h : createCase env directory call cmd = .ok db) :
    db.documents ≠ [] ∧ db.case.createdBy = call.context.principalId ∧
      ∃ approver escalation, intakeApprover directory call.context.principalId = some approver ∧
        db.jobs =
          [{ eventType := .approvalEscalated, recipient := escalation
             idempotencyKey := jobKey db.case.id .intake "escalated" },
            { eventType := .approvalRequested, recipient := approver
              idempotencyKey := jobKey db.case.id .intake "requested" }] := by
  simp only [createCase, authorize, requireFeature, ↓raiseIf_bind_ok, bind_ok] at h
  obtain ⟨_, _, _, _, _, _, _, _, _, happrover, hescalation, h⟩ := h
  obtain rfl := Except.ok.inj h
  simp only [Option.isNone_eq_false_iff, Option.isSome_iff_exists] at happrover hescalation
  obtain ⟨approver, happrover⟩ := happrover
  obtain ⟨escalation, hescalation⟩ := hescalation
  refine ⟨by simp, by simp, approver, escalation, happrover, ?_⟩
  rw [happrover, hescalation]
  simp [send, enqueue, insertOnce, addApplicationArtifact, addArtifact, jobKey_inj]

theorem intake_asks {cmd : CreatePreparationCaseCommand}
    (h : createCase env directory call cmd = .ok db) :
    (Item.intake db).Asks env "" db.case.createdBy := by
  obtain ⟨hdocuments, _, _⟩ := createCase_cards h
  have hdraft := (createCase_ok h).state
  intro context
  constructor
  · intro haccepts
    obtain ⟨c, rfl, hverify | hreject⟩ := haccepts
    · obtain ⟨ref, comment, hverify⟩ := hverify
      obtain ⟨hscope, _, hother, _⟩ := verifyIntake_succeeds_iff.mp hverify
      exact ⟨Ne.symm hother, hscope, .inl rfl⟩
    · obtain ⟨comment, reasonCode, db', hreject⟩ := hreject
      obtain ⟨hscope, hother, _⟩ := rejectIntake_requires hreject
      exact ⟨Ne.symm hother, hscope, .inl rfl⟩
  · intro hfits
    obtain ⟨hother, hscope, _⟩ := hfits
    refine ⟨callOf context, rfl, .inl ⟨"PR", "", ?_⟩⟩
    exact verifyIntake_succeeds_iff.mpr ⟨hscope, by decide, Ne.symm hother, hdocuments, hdraft⟩

theorem addendum_asks {cmd : SubmitAddendumCommand}
    (h : submitAddendum env directory call cmd db = .ok db') :
    (Item.addendum db').Asks env "" db'.case.createdBy := by
  obtain ⟨_, hcase⟩ := PreparationCase.submitAddendum_ok.mp (submitAddendum_ok h).1
  have hstate : db'.case.state = .cp3Pending := by rw [hcase]
  have hdraft : (latest db'.artifacts .addendumDraft).isSome = true := by
    have hfiler := submitAddendum_filer h
    unfold addendumFiler latestContent at hfiler
    cases hlatest : latest db'.artifacts .addendumDraft with
    | none => simp [hlatest] at hfiler
    | some draft => rfl
  intro context
  constructor
  · intro haccepts
    obtain ⟨c, cmd, db₁, rfl, hdecide⟩ := haccepts
    obtain ⟨hscope, hother, _⟩ := decideCp3_requires hdecide
    exact ⟨Ne.symm hother, hscope, .inl rfl⟩
  · intro hfits
    obtain ⟨hother, hscope, _⟩ := hfits
    let cmd : DecideCp3Command := { approve := false, approvalReference := "CP3", comment := "" }
    have hdecide : ∃ db₁, decideCp3 env (callOf context) cmd db' = .ok db₁ :=
      decideCp3_succeeds hscope (by decide) (Ne.symm hother) hstate hdraft
        (fun d hd => by cases hd)
    obtain ⟨db₁, hdecide⟩ := hdecide
    exact ⟨callOf context, cmd, db₁, rfl, hdecide⟩

theorem opening_asks (h : requestCp4 env directory call db = .ok db') :
    (Item.opening db').Asks env "" db'.case.createdBy := by
  simp only [requestCp4, authorize, ↓raiseIf_bind_ok, bind_ok] at h
  obtain ⟨_, _, hstate, hbids, hret⟩ := h
  obtain rfl := Except.ok.inj hret
  intro context
  constructor
  · intro haccepts
    obtain ⟨c, cmd, db₁, rfl, hcomplete⟩ := haccepts
    have hmay := completeCp4_mayOpen hcomplete
    exact ⟨Ne.symm hmay.other, hmay.scope, .inl rfl⟩
  · intro hfits
    obtain ⟨hother, hscope, _⟩ := hfits
    let cmd : CompleteCp4Command :=
      { file := { filename := "minutes", content := "minutes" }, openingAt := ""
        witnesses := ["witness"], approvalReference := "CP4", comment := "" }
    have hmay : MayOpen (callOf context) cmd
        (db.send .cpApprovalRequested
          (directory.recipient (env.rules.approverRoleFor db.case.estimatedValueMinor "CP4"))
          (cardKey db.case.id "CP4" ("n" ++ toString (submissions db).length))) := by
      refine ⟨hscope, by decide, by decide, Ne.symm hother, ?_, ?_, by decide⟩
      · rw [send_case]
        simpa using hstate
      · unfold submissions at hbids ⊢
        rw [send_documents]
        simpa using hbids
    obtain ⟨db₁, hcomplete⟩ := @completeCp4_of_mayOpen env _ _ _ hmay
    exact ⟨callOf context, cmd, db₁, rfl, hcomplete⟩

theorem review_asks {rc : RunContext} {payload : Dict} {caseId : Uuid} {cp : ReviewCheckpoint}
    {value : Int} (h : StampedFor env caseId cp value (askedType env payload) payload) :
    (Item.review rc payload).Asks env (env.rules.approverRoleFor value cp.name) rc.actorId := by
  have hrole : ∀ requestId now, (approvalFor env rc requestId now payload).requiredRole env.repr =
      env.rules.approverRoleFor value cp.name := fun requestId now => requiredRole_stamped h
  have hprep : ∀ requestId now,
      (approvalFor env rc requestId now payload).isPreparation = true := by
    intro requestId now
    obtain ⟨_, htype, _⟩ := h
    unfold ApprovalRequest.isPreparation
    show startsWith (askedType env payload) "preparation." = true
    rw [htype]
    cases cp <;> decide
  intro context
  constructor
  · intro haccepts
    obtain ⟨c, cmd, now, ⟨saved, decision, decided⟩, rfl, hdecide⟩ := haccepts
    obtain ⟨q, hq, _, haccepted, _⟩ := decideRequest_ok.mp hdecide
    obtain rfl := List.mem_singleton.mp (getRequest_mem hq).1
    simp only [Refused, not_or, not_and, not_not, hrole, hprep, true_and] at haccepted
    obtain ⟨hscope, hother, hheld, _⟩ := haccepted
    refine ⟨fun heq => hother heq.symm, by simpa using hscope, ?_⟩
    by_cases hblank : env.rules.approverRoleFor value cp.name = ""
    · exact .inl hblank
    · exact .inr (hheld hblank)
  · intro hfits
    obtain ⟨hother, hscope, hheld⟩ := hfits
    let cmd : DecideCommand := { approvalId := rc.runId, approve := true, comment := "ok" }
    have hfound : getRequest [approvalFor env rc rc.runId 0 payload] cmd.approvalId =
        some (approvalFor env rc rc.runId 0 payload) := by
      simp [getRequest, approvalFor, cmd]
    have haccepted : ¬ Refused env (callOf context) cmd (approvalFor env rc rc.runId 0 payload) := by
      simp only [Refused, not_or, not_and, not_not, hrole, hprep]
      have hcomment : blank cmd.comment = false := by
        show blank "ok" = false
        decide
      refine ⟨?_, fun _ heq => hother heq.symm, fun hrequired => ?_, fun _ => ?_⟩
      · rw [Bool.not_eq_false]
        exact hscope
      · exact hheld.resolve_left hrequired
      · rw [hcomment]
        exact Bool.false_ne_true
    obtain ⟨saved, hdecide⟩ := decideRequest_accepts hfound rfl haccepted
    exact ⟨callOf context, cmd, 0, _, rfl, hdecide⟩

end

/-! ## The property -/

def IsDecisionCard (caseId : Uuid) (job : NotificationJob) : Prop :=
  ∃ rest, job.idempotencyKey = jobKey caseId .cpcard rest

/-- What the cards of a step ask to decide, as it stands after the step. -/
def itemOf (e : Event World Action) : Option Item :=
  match e.act with
  | .handle _ (.submitAddendum _) => some (.addendum e.post.db)
  | .handle _ .requestCp4 => some (.opening e.post.db)
  | .node r _ => (e.post.runs r).map fun record =>
    .review (World.runContext r record)
      (if (passedNode .approachGate e).isSome then record.state.cp1Payload
        else record.state.cp2Payload)
  | _ => none

/-- **The property**, of a step: each card of a checkpoint it queues goes to somebody
    who may decide, if anybody may. -/
def ReachesDecider (env : Env) (catalogue : List Identity.Role) (e : Event World Action) : Prop :=
  ∀ job ∈ e.post.db.jobs, job.idempotencyKey ∉ e.pre.db.keys →
    IsDecisionCard e.pre.db.case.id job →
    ∃ item, itemOf e = some item ∧ GoesTo env catalogue e.pre.directory item job.recipient

/-- **The property**, of the opening of a case: so does the card of the intake. -/
def IntakeReaches (env : Env) (catalogue : List Identity.Role) (w : World) : Prop :=
  ∀ job ∈ w.db.jobs, job.eventType = .approvalRequested →
    GoesTo env catalogue w.directory (.intake w.db) job.recipient

/-! ## The condition -/

structure Ask where
  /-- The part of its key after the case. -/
  rest : String := ""
  route : List String
  /-- Whom the routing passes over. -/
  leftOut : Option Uuid := none
  required : String := ""
  excluded : Uuid
  deriving DecidableEq

def Ask.Served (catalogue : List Identity.Role) (directory : Directory) (ask : Ask) : Prop :=
  (∀ m ∈ directory, ¬ m.Fits catalogue ask.required ask.excluded) ∨
  ∀ m, directory.Routes ask.leftOut ask.route m →
    ∃ m' ∈ directory, m'.userId = m.userId ∧ m'.Fits catalogue ask.required ask.excluded

def intakeAsk (creator : Uuid) : Ask :=
  { route := ["approver", "procurement_head"], leftOut := some creator, excluded := creator }

def reviewAsk (env : Env) (db : CaseDb) (record : RunRecord) (cp : ReviewCheckpoint) : Ask :=
  { rest := cp.name ++ ":" ++ gateDedupe env
    route := [env.rules.approverRoleFor db.case.estimatedValueMinor cp.name,
      env.rules.defaultApproverRole]
    required := env.rules.approverRoleFor record.state.estimatedValueMinor cp.name
    excluded := record.requestedBy }

def askOf (env : Env) (e : Event World Action) : Option Ask :=
  match e.act with
  | .handle _ (.submitAddendum cmd) => some
    { rest := "CP3" ++ ":" ++ take (env.sha256 cmd.file.content) 12
      route := ["approver"], excluded := e.pre.db.case.createdBy }
  | .handle _ .requestCp4 => some
    { rest := "CP4" ++ ":" ++ ("n" ++ toString (submissions e.pre.db).length)
      route := [env.rules.approverRoleFor e.pre.db.case.estimatedValueMinor "CP4"]
      excluded := e.pre.db.case.createdBy }
  | .node r _ =>
    match submissionOf env e, e.pre.runs r with
    | some .cp1, some record => some (reviewAsk env e.pre.db record .cp1)
    | some .cp2, some record => some (reviewAsk env e.pre.db record .cp2)
    | _, _ => none
  | _ => none

/-- **The condition**, of a step: the card it may queue is one the outbox has seen
    before, or the member it is routed to fits, or nobody does. -/
def RoutedWell (env : Env) (catalogue : List Identity.Role) (e : Event World Action) : Prop :=
  ∀ ask, askOf env e = some ask →
    jobKey e.pre.db.case.id .cpcard ask.rest ∉ e.pre.db.keys →
    ask.Served catalogue e.pre.directory

instance (catalogue : List Identity.Role) (directory : Directory) (ask : Ask) :
    Decidable (ask.Served catalogue directory) :=
  decidable_of_iff
    ((∀ m ∈ directory, ¬ m.Fits catalogue ask.required ask.excluded) ∨
      ∀ user ∈ directory.routed ask.leftOut ask.route,
        ∃ m' ∈ directory, m'.userId = user ∧ m'.Fits catalogue ask.required ask.excluded)
    (or_congr Iff.rfl
      ⟨fun h m hm => h m.userId (Directory.routed_eq_some.mpr ⟨m, hm, rfl⟩),
        fun h user huser => by
          obtain ⟨m, hm, rfl⟩ := Directory.routed_eq_some.mp huser
          exact h m hm⟩)

instance (env : Env) (catalogue : List Identity.Role) (e : Event World Action) :
    Decidable (RoutedWell env catalogue e) :=
  inferInstanceAs (Decidable (∀ ask ∈ askOf env e,
    jobKey e.pre.db.case.id .cpcard ask.rest ∉ e.pre.db.keys → ask.Served catalogue e.pre.directory))

/-! ## Cards and their routes -/

section

variable {env : Env} {catalogue : List Identity.Role} {directory : Directory} {ask : Ask}
  {item : Item} {db db' : CaseDb} {w w' : World} {a : Action}

/-- **Routing lemma**: whoever a card is routed to may decide its item, if anybody may,
    exactly when the routing serves what the decision asks for. -/
theorem goesTo_iff (hasks : item.Asks env ask.required ask.excluded) :
    (∀ user, directory.routed ask.leftOut ask.route = some user →
      GoesTo env catalogue directory item user) ↔ ask.Served catalogue directory := by
  have hfits : ∀ m : Membership, item.Accepts env (m.access catalogue) ↔
      m.Fits catalogue ask.required ask.excluded := fun m => hasks _
  constructor
  · intro hreaches
    by_cases hnobody : ∀ m ∈ directory, ¬ m.Fits catalogue ask.required ask.excluded
    · exact .inl hnobody
    · right
      intro m hroutes
      push Not at hnobody
      obtain ⟨m₀, hm₀, hfit⟩ := hnobody
      have hrouted := Directory.routed_eq_some.mpr ⟨m, hroutes, rfl⟩
      obtain ⟨m', hm', huser, haccepts⟩ :=
        hreaches m.userId hrouted ⟨m₀, hm₀, (hfits m₀).mpr hfit⟩
      exact ⟨m', hm', huser, (hfits m').mp haccepts⟩
  · intro hserved user hrouted hsomebody
    obtain ⟨m₀, hm₀, haccepts⟩ := hsomebody
    rcases hserved with hnobody | hserved
    · exact absurd ((hfits m₀).mp haccepts) (hnobody m₀ hm₀)
    · obtain ⟨m, hroutes, huser⟩ := Directory.routed_eq_some.mp hrouted
      obtain ⟨m', hm', hsame, hfit⟩ := hserved m hroutes
      exact ⟨m', hm', hsame.trans huser, (hfits m').mpr hfit⟩

theorem sent_iff {eventType : IntakeNotificationType} {recipient : Option Uuid} {rest : String}
    {P : Uuid → Prop}
    (h : SendsCard eventType recipient (jobKey db.case.id .cpcard rest) db db') :
    (∀ job ∈ db'.jobs, job.idempotencyKey ∉ db.keys → IsDecisionCard db.case.id job →
      P job.recipient) ↔
    (jobKey db.case.id .cpcard rest ∉ db.keys → ∀ user, recipient = some user → P user) := by
  obtain ⟨mid, hmid, hjobs⟩ := h
  have hkeys : ∀ rest', jobKey db.case.id .cpcard rest' ∈ mid.keys ↔
      jobKey db.case.id .cpcard rest' ∈ db.keys := by
    intro rest'
    rw [hmid .cpcard rest' rfl]
    simp
  constructor
  · intro hall hfree user hrecipient
    rw [hrecipient] at hjobs
    have hmem : { eventType := eventType, recipient := user
                  idempotencyKey := jobKey db.case.id .cpcard rest } ∈
        (mid.send eventType (some user) (jobKey db.case.id .cpcard rest)).jobs :=
      mem_jobs_send (mt (hkeys rest).mp hfree)
    rw [← hjobs] at hmem
    exact hall _ hmem hfree ⟨rest, rfl⟩
  · intro hsent job hjob hnew hcard
    obtain ⟨rest', hkey⟩ := hcard
    have hnot : job ∉ mid.jobs := by
      intro hmem
      apply hnew
      rw [hkey, ← hkeys rest', ← hkey]
      exact List.mem_map_of_mem hmem
    rw [hjobs] at hjob
    cases hrecipient : recipient with
    | none =>
      rw [hrecipient] at hjob
      exact absurd hjob hnot
    | some user =>
      rw [hrecipient] at hjob
      have hjob : job ∈ insertOnce NotificationJob.idempotencyKey mid.jobs
          { eventType := eventType, recipient := user
            idempotencyKey := jobKey db.case.id .cpcard rest } := hjob
      rcases mem_insertOnce hjob with rfl | hmem
      · exact hsent hnew user hrecipient
      · exact absurd hmem hnot

theorem sent_none {new : List String} {P : NotificationJob → Prop} (h : SendsCards new db db')
    (hnew : ∀ rest, jobKey db.case.id .cpcard rest ∉ new) :
    ∀ job ∈ db'.jobs, job.idempotencyKey ∉ db.keys → IsDecisionCard db.case.id job → P job := by
  intro job hjob hfree hcard
  obtain ⟨rest, hkey⟩ := hcard
  have htaken : jobKey db.case.id .cpcard rest ∈ db'.keys := by
    rw [← hkey]
    exact List.mem_map_of_mem hjob
  rcases (h .cpcard rest rfl).mp htaken with hmem | hmem
  · exact absurd hmem (hnew rest)
  · rw [← hkey] at hmem
    exact absurd hmem hfree

theorem reaches_of_card {e : Event World Action} (hitem : itemOf e = some item)
    (hask : askOf env e = some ask) (hasks : item.Asks env ask.required ask.excluded)
    (hsends : SendsCard .cpApprovalRequested (e.pre.directory.routed ask.leftOut ask.route)
      (jobKey e.pre.db.case.id .cpcard ask.rest) e.pre.db e.post.db) :
    ReachesDecider env catalogue e ↔ RoutedWell env catalogue e := by
  have hitems : ∀ user, (∃ item', itemOf e = some item' ∧
      GoesTo env catalogue e.pre.directory item' user) ↔
      GoesTo env catalogue e.pre.directory item user := by
    intro user
    simp [hitem]
  have hcards := sent_iff (P := fun user => ∃ item', itemOf e = some item' ∧
    GoesTo env catalogue e.pre.directory item' user) hsends
  have hserved : RoutedWell env catalogue e ↔
      (jobKey e.pre.db.case.id .cpcard ask.rest ∉ e.pre.db.keys →
        ask.Served catalogue e.pre.directory) := by
    unfold RoutedWell
    simp [hask]
  rw [hserved, ← goesTo_iff hasks]
  refine hcards.trans ?_
  simp only [hitems]

theorem reaches_of_silent {e : Event World Action} {new : List String}
    (hask : askOf env e = none) (hsends : SendsCards new e.pre.db e.post.db)
    (hnew : ∀ rest, jobKey e.pre.db.case.id .cpcard rest ∉ new) :
    ReachesDecider env catalogue e ↔ RoutedWell env catalogue e := by
  apply iff_of_true
  · exact sent_none hsends hnew
  · intro ask h
    rw [hask] at h
    cases h

theorem submissionOf_node {r : Uuid} {inp : NodeInput} {sub : Submission}
    (h : submissionOf env ⟨w, .node r inp, w'⟩ = some sub) :
    (sub = .cp1 ∧ (passedNode .approachGate ⟨w, .node r inp, w'⟩).isSome = true) ∨
    (sub = .cp2 ∧ (passedNode .approachGate ⟨w, .node r inp, w'⟩).isSome = false ∧
      (passedNode .packageGate ⟨w, .node r inp, w'⟩).isSome = true) := by
  unfold submissionOf at h
  split at h
  · next hcp1 =>
    split at h
    · exact .inl ⟨(Option.some.inj h).symm, hcp1⟩
    · cases h
  · next hcp1 =>
    split at h
    · next hcp2 =>
      split at h
      · exact .inr ⟨(Option.some.inj h).symm, by simpa using hcp1, hcp2⟩
      · cases h
    · cases h

theorem passedNode_isSome {n : NodeName} {r : Uuid} {inp : NodeInput}
    (hs : w.step env (.node r inp) = some w')
    (h : (passedNode n ⟨w, .node r inp, w'⟩).isSome = true) :
    ∃ record st, w.runs r = some record ∧ w'.runs r = some (record.passed n st) ∧
      runNode env w.directory (World.runContext r record) inp n record.state w.db =
        (w'.db, .ok st) := by
  obtain ⟨r', hpassed⟩ := Option.isSome_iff_exists.mp h
  obtain ⟨inp', record, st, hact, hrecord, _, hrun, hruns⟩ := passedNode_some hs hpassed
  obtain ⟨rfl, rfl⟩ := Action.node.inj hact
  refine ⟨record, st, hrecord, ?_, hrun⟩
  rw [hruns, RunStore.put_self]

theorem gate_reaches {cp : ReviewCheckpoint} {r : Uuid} {inp : NodeInput} {record : RunRecord}
    {n : NodeName} {st : PreparationState} {payload : Dict} {gate : GateResult}
    (hitem : itemOf ⟨w, .node r inp, w'⟩ =
      some (.review (World.runContext r (record.passed n st)) payload))
    (hask : askOf env ⟨w, .node r inp, w'⟩ = some (reviewAsk env w.db record cp))
    (hpayload : payload = checkpointPayload env cp.name cp.approvalType w.db.case.id
      record.state.estimatedValueMinor gate)
    (hsends : SendsCard .cpApprovalRequested
      (w.directory.approver env.rules w.db.case.estimatedValueMinor cp.name)
      (cardKey w.db.case.id cp.name (gateDedupe env)) w.db w'.db) :
    ReachesDecider env catalogue ⟨w, .node r inp, w'⟩ ↔
      RoutedWell env catalogue ⟨w, .node r inp, w'⟩ := by
  have hroute : w.directory.routed (reviewAsk env w.db record cp).leftOut
      (reviewAsk env w.db record cp).route =
      w.directory.approver env.rules w.db.case.estimatedValueMinor cp.name :=
    Directory.routed_two
  apply reaches_of_card hitem hask (review_asks (checkpointPayload_stamped hpayload))
  show SendsCard _ (w.directory.routed _ _) _ _ _
  rw [hroute]
  exact hsends

theorem node_reaches {r : Uuid} {inp : NodeInput} (hs : w.step env (.node r inp) = some w') :
    ReachesDecider env catalogue ⟨w, .node r inp, w'⟩ ↔
      RoutedWell env catalogue ⟨w, .node r inp, w'⟩ := by
  have hid : w'.db.case.id = w.db.case.id := step_caseId hs
  have hsends := node_sends hs
  cases hsub : submissionOf env ⟨w, .node r inp, w'⟩ with
  | none =>
    rw [hsub] at hsends
    refine reaches_of_silent ?_ hsends (fun _ => List.not_mem_nil)
    simp only [askOf, hsub]
  | some sub =>
    rw [hsub] at hsends
    rcases submissionOf_node hsub with ⟨rfl, hcp1⟩ | ⟨rfl, hcp1, hcp2⟩
    · obtain ⟨record, st, hrecord, hpost, hrun⟩ := passedNode_isSome hs hcp1
      obtain ⟨gate, hpayload⟩ := approachGateNode_payload hrun
      rw [hid] at hpayload
      have hitem : itemOf ⟨w, .node r inp, w'⟩ =
          some (.review (World.runContext r (record.passed .approachGate st)) st.cp1Payload) := by
        simp only [itemOf, hpost, hcp1]
        rfl
      have hask : askOf env ⟨w, .node r inp, w'⟩ = some (reviewAsk env w.db record .cp1) := by
        simp only [askOf, hsub, hrecord]
      exact gate_reaches hitem hask hpayload hsends
    · obtain ⟨record, st, hrecord, hpost, hrun⟩ := passedNode_isSome hs hcp2
      obtain ⟨gate, hpayload⟩ := packageGateNode_payload hrun
      rw [hid] at hpayload
      have hitem : itemOf ⟨w, .node r inp, w'⟩ =
          some (.review (World.runContext r (record.passed .packageGate st)) st.cp2Payload) := by
        simp only [itemOf, hpost, hcp1]
        rfl
      have hask : askOf env ⟨w, .node r inp, w'⟩ = some (reviewAsk env w.db record .cp2) := by
        simp only [askOf, hsub, hrecord]
      exact gate_reaches hitem hask hpayload hsends

theorem handle_reaches {call : Call} {h : Handler} (hs : w.step env (.handle call h) = some w') :
    ReachesDecider env catalogue ⟨w, .handle call h, w'⟩ ↔
      RoutedWell env catalogue ⟨w, .handle call h, w'⟩ := by
  obtain ⟨db, hrun, hw'⟩ := World.step_handle hs
  have hdb : w'.db = db := by rw [hw']
  rw [← hdb] at hrun
  have hcreator : w'.db.case.createdBy = w.db.case.createdBy := (Handler.run_move hrun).createdBy
  have hsilent : h ≠ .requestCp4 → submissionOf env ⟨w, .handle call h, w'⟩ = none →
      askOf env ⟨w, .handle call h, w'⟩ = none →
      (ReachesDecider env catalogue ⟨w, .handle call h, w'⟩ ↔
        RoutedWell env catalogue ⟨w, .handle call h, w'⟩) := by
    intro hcp4 hsub hask
    have hsends := handle_sends hs hcp4
    rw [hsub] at hsends
    exact reaches_of_silent hask hsends (fun _ => List.not_mem_nil)
  cases h with
  | submitAddendum cmd =>
    have hasks := addendum_asks hrun
    rw [hcreator] at hasks
    refine reaches_of_card rfl rfl hasks (.of_jobs ?_)
    show w'.db.jobs = (w.db.send _ (w.directory.routed none ["approver"]) _).jobs
    rw [Directory.routed_one]
    exact (submitAddendum_ok hrun).2
  | requestCp4 =>
    have hasks := opening_asks hrun
    rw [hcreator] at hasks
    refine reaches_of_card rfl rfl hasks (.of_jobs ?_)
    show w'.db.jobs = (w.db.send _ (w.directory.routed none [_]) _).jobs
    rw [Directory.routed_one]
    exact (requestCp4_ok hrun).2
  | proposeAddendum cmd =>
    have hcard : SendsCard .addendumProposed (w.directory.recipient "approver")
        (proposalKey env w.db.case.id (strip cmd.changeSummary)) w.db w'.db :=
      .of_jobs (proposeAddendum_ok hrun).2.2
    refine reaches_of_silent rfl hcard.sendsCards ?_
    intro rest hmem
    split at hmem
    · have hkey := List.mem_singleton.mp hmem
      cases (jobKey_inj.mp hkey).1
    · cases hmem
  | verifyIntake ref comment => exact hsilent (fun heq => by cases heq) rfl rfl
  | rejectIntake comment reasonCode => exact hsilent (fun heq => by cases heq) rfl rfl
  | answerClarifications answers => exact hsilent (fun heq => by cases heq) rfl rfl
  | recordPublication cmd => exact hsilent (fun heq => by cases heq) rfl rfl
  | autoPublish sent => exact hsilent (fun heq => by cases heq) rfl rfl
  | decideCp3 cmd => exact hsilent (fun heq => by cases heq) rfl rfl
  | recordSubmission cmd => exact hsilent (fun heq => by cases heq) rfl rfl
  | completeCp4 cmd => exact hsilent (fun heq => by cases heq) rfl rfl

/-- **Step lemma**: the cards of a step reach a decider exactly when they are routed
    well. -/
theorem step_reaches (hs : w.step env a = some w') :
    ReachesDecider env catalogue ⟨w, a, w'⟩ ↔ RoutedWell env catalogue ⟨w, a, w'⟩ := by
  have hsilent : (∀ call, a ≠ .handle call .requestCp4) →
      submissionOf env ⟨w, a, w'⟩ = none → askOf env ⟨w, a, w'⟩ = none →
      (ReachesDecider env catalogue ⟨w, a, w'⟩ ↔ RoutedWell env catalogue ⟨w, a, w'⟩) := by
    intro hcp4 hsub hask
    have hsends := step_sends hs hcp4
    rw [hsub] at hsends
    exact reaches_of_silent hask hsends (fun _ => List.not_mem_nil)
  cases a with
  | node r inp => exact node_reaches hs
  | handle call h => exact handle_reaches hs
  | _ => exact hsilent (fun _ heq => by cases heq) rfl rfl

/-- **Opening lemma**: so does the card of the intake. -/
theorem intake_reaches (hw : (preparation env).init w) :
    IntakeReaches env catalogue w ↔
      (intakeAsk w.db.case.createdBy).Served catalogue w.directory := by
  obtain ⟨call, cmd, hcreate, _⟩ := hw
  obtain ⟨_, hcreator, approver, escalation, happrover, hjobs⟩ := createCase_cards hcreate
  have hasks : (Item.intake w.db).Asks env (intakeAsk w.db.case.createdBy).required
      (intakeAsk w.db.case.createdBy).excluded := intake_asks hcreate
  have hrouted : w.directory.routed (intakeAsk w.db.case.createdBy).leftOut
      (intakeAsk w.db.case.createdBy).route = some approver := by
    rw [← happrover, ← hcreator]
    exact Directory.routed_two
  rw [← goesTo_iff hasks, hrouted]
  unfold IntakeReaches
  rw [hjobs]
  simp

end

/-! ## The law -/

def origin (es : List (Event World Action)) (w : World) : World :=
  match es with
  | [] => w
  | e :: es => origin es e.pre

theorem origin_init {env : Env} {es : List (Event World Action)} {w : World}
    (h : Exec (preparation env) es w) : (preparation env).init (origin es w) := by
  induction h with
  | start hw => exact hw
  | snoc _ _ ih => exact ih

/-- **Cards**: in every history, all the cards that ask for a decision go to somebody
    who may decide, if anybody may, exactly when each is routed to a member who fits
    what the decision asks for, or nobody fits it. -/
theorem cards_reach_iff {env : Env} {catalogue : List Identity.Role}
    {es : List (Event World Action)} {w : World} (h : Exec (preparation env) es w) :
    (IntakeReaches env catalogue (origin es w) ∧ ∀ e ∈ es, ReachesDecider env catalogue e) ↔
      (intakeAsk (origin es w).db.case.createdBy).Served catalogue (origin es w).directory ∧
        ∀ e ∈ es, RoutedWell env catalogue e := by
  have hevents : ∀ e ∈ es, (ReachesDecider env catalogue e ↔ RoutedWell env catalogue e) := by
    intro e he
    obtain ⟨_, _, _, _, hs⟩ := h.split he
    exact step_reaches hs
  rw [intake_reaches (origin_init h)]
  refine and_congr Iff.rfl ?_
  constructor
  · intro hreaches e he
    exact (hevents e he).mp (hreaches e he)
  · intro hrouted e he
    exact (hevents e he).mpr (hrouted e he)

namespace RoutingOffice

open Office

def catalogue : List Identity.Role :=
  [{ key := "approver", scopes := ["approvals.decide", "tender.write"] },
    { key := "procurement_head", scopes := ["approvals.decide", "tender.write"] }]

def dung : Uuid := { text := "dung" }

def directory : Directory := Office.directory ++ [{ userId := dung, roleKeys := ["approver"] }]

def toReview (starter : Uuid) : List Action :=
  .restaff directory :: .handle (call binh) (.verifyIntake "PR-1" "đủ hồ sơ") ::
    runToCp1 starter run cp1Request

/-- The run of the requester is reviewed by a specialist. -/
theorem card_to_specialist : ∃ es w, Exec (preparation env) es w ∧ w.requests.length = 1 ∧
    IntakeReaches env catalogue (origin es w) ∧ ∀ e ∈ es, ReachesDecider env catalogue e := by
  have hruns : (preparation env).runs opened (toReview an) (fun es w =>
      w.requests.length == 1 &&
        decide ((intakeAsk (origin es w).db.case.createdBy).Served catalogue
          (origin es w).directory) &&
        es.all (fun e => decide (RoutedWell env catalogue e))) = true := by
    decide +kernel
  obtain ⟨es, w, hexec, htest⟩ := Machine.exec_of_runs opened_init hruns
  simp only [Bool.and_eq_true, beq_iff_eq, decide_eq_true_eq, List.all_eq_true] at htest
  obtain ⟨⟨hrequests, hintake⟩, hrouted⟩ := htest
  exact ⟨es, w, hexec, hrequests, (cards_reach_iff hexec).mpr ⟨hintake, hrouted⟩⟩

/-- The specialist who started the run is asked to approve it. -/
theorem card_to_requester : ∃ es w, Exec (preparation env) es w ∧
    ∃ e ∈ es, ¬ ReachesDecider env catalogue e := by
  have hruns : (preparation env).runs opened (toReview binh) (fun es _ =>
      es.any (fun e => !decide (RoutedWell env catalogue e))) = true := by
    decide +kernel
  obtain ⟨es, w, hexec, htest⟩ := Machine.exec_of_runs opened_init hruns
  simp only [List.any_eq_true, Bool.not_eq_true', decide_eq_false_iff_not] at htest
  obtain ⟨e, he, hrouted⟩ := htest
  obtain ⟨_, _, _, _, hs⟩ := hexec.split he
  exact ⟨es, w, hexec, e, he, mt (step_reaches hs).mp hrouted⟩

end RoutingOffice

end DigitalWorker
