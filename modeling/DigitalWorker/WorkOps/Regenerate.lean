import DigitalWorker.WorkOps.Approved

/-! # Generating the actions of a meeting again

    The policy gate replaces the actions of the meeting; the foreign key of the
    task rows stops it where one of them was dispatched. The handler has committed
    the meeting as in process by then, and nothing takes that back.
-/

namespace DigitalWorker.WorkOps

open Framework Tools

/-! ## What the gate needs -/

structure ActionCandidate.Buildable (c : ActionCandidate) : Prop where
  risk : RiskLevel.ofValue? c.riskLevel ≠ none
  title : blank c.title = false
  confidence : ∀ p, c.resolved = some p → 0 ≤ p.confidence ∧ p.confidence ≤ 1

section

variable {dep : String} {meetingId : Uuid} {db : WorkOpsDb} {actions : List ActionItem}

theorem buildAction_isOk (dep : String) (meetingId id : Uuid) {c : ActionCandidate} :
    (∃ a, buildAction dep meetingId id c = .ok a) ↔ c.Buildable := by
  have hbuild : (∃ a, buildAction.build dep meetingId id c = .ok a) ↔
      RiskLevel.ofValue? c.riskLevel ≠ none ∧ blank c.title = false := by
    unfold buildAction.build
    cases RiskLevel.ofValue? c.riskLevel with
    | none => simp
    | some risk => cases blank c.title <;> simp
  unfold buildAction
  cases hresolved : c.resolved with
  | none =>
    dsimp only
    rw [hbuild]
    constructor
    · rintro ⟨hrisk, htitle⟩
      exact ⟨hrisk, htitle, fun p hp => by rw [hresolved] at hp; cases hp⟩
    · intro h
      exact ⟨h.risk, h.title⟩
  | some p =>
    dsimp only
    by_cases hsure : 0 ≤ p.confidence ∧ p.confidence ≤ 1
    · rw [if_pos (by simpa using hsure), hbuild]
      constructor
      · rintro ⟨hrisk, htitle⟩
        refine ⟨hrisk, htitle, fun p' hp' => ?_⟩
        rw [hresolved] at hp'
        obtain rfl := Option.some.inj hp'
        exact hsure
      · intro h
        exact ⟨h.risk, h.title⟩
    · rw [if_neg (by simpa using hsure)]
      constructor
      · rintro ⟨a, ha⟩
        cases ha
      · intro h
        exact absurd (h.confidence p hresolved) hsure

theorem buildActions_isOk {candidates : List (Uuid × ActionCandidate)} :
    (∃ actions, buildActions dep meetingId candidates = .ok actions) ↔
      ∀ x ∈ candidates, x.2.Buildable := by
  induction candidates with
  | nil => simp [buildActions]
  | cons x rest ih =>
    obtain ⟨id, c⟩ := x
    rw [List.forall_mem_cons, ← buildAction_isOk dep meetingId id, ← ih]
    simp only [buildActions, bind_ok]
    constructor
    · rintro ⟨actions, a, ha, others, hothers, _⟩
      exact ⟨⟨a, ha⟩, others, hothers⟩
    · rintro ⟨⟨a, ha⟩, others, hothers⟩
      exact ⟨a :: others, a, ha, others, hothers, rfl⟩

/-- **Saving a meeting** that was read in this transaction changes this row. -/
theorem saveMeeting_next {m b : MeetingSession} (hm : db.getMeeting b.id = some m)
    (hversion : b.version = m.version + 1) :
    ∃ db', db.saveMeeting b = .ok db' ∧
      ∀ id, db'.getMeeting id = if id = b.id then some b else db.getMeeting id := by
  obtain ⟨hmem, hid⟩ := WorkOpsDb.getMeeting_some hm
  have hmatch : db.meetings.any (fun r => r.id == b.id && r.version + 1 == b.version) = true := by
    rw [List.any_eq_true]
    exact ⟨m, hmem, by simp [hid, hversion]⟩
  unfold WorkOpsDb.saveMeeting
  rw [if_pos hmatch]
  refine ⟨_, rfl, fun id => ?_⟩
  have hkey : ∀ r : MeetingSession, r.id = b.id →
      (if r.version + 1 = b.version then b else r).id = b.id := by
    intro r hr
    split
    · rfl
    · exact hr
  have hread := Rows.lookup_update hkey db.meetings id
  unfold WorkOpsDb.getMeeting at hm ⊢
  rw [hread, hm, Option.map_some, if_pos hversion.symm]

theorem gateTransaction_isOk (inp : GateInput) {m : MeetingSession}
    (hm : db.getMeeting meetingId = some m)
    (hnodup : ((db.otherActions meetingId ++ actions).map ActionItem.id).Nodup) :
    (∃ db', gateTransaction inp meetingId actions db = .ok db') ↔
      (∀ p, inp.fault p = none) ∧ db.hasTasks meetingId = false := by
  obtain ⟨_, hid⟩ := WorkOpsDb.getMeeting_some hm
  obtain ⟨db₁, hsave, _⟩ := saveMeeting_next (b := m.markActionsReady inp.summary inp.analysis)
    (hid.symm ▸ hm) rfl
  obtain ⟨hactions, htasks, _, _⟩ := saveMeeting_ok hsave
  have hhas : db₁.hasTasks meetingId = db.hasTasks meetingId := by
    unfold WorkOpsDb.hasTasks
    rw [hactions, htasks]
  have hothers : db₁.otherActions meetingId = db.otherActions meetingId := by
    unfold WorkOpsDb.otherActions
    rw [hactions]
  have hreplace : (∃ db', db₁.replaceActions meetingId actions = .ok db') ↔
      db.hasTasks meetingId = false := by
    unfold WorkOpsDb.replaceActions
    rw [hhas, hothers, if_pos hnodup]
    cases db.hasTasks meetingId <;> simp
  rw [← hreplace]
  simp only [gateTransaction, bind_ok, statement_ok]
  constructor
  · rintro ⟨db', found, ⟨hload, hfound⟩, h⟩
    obtain rfl := Except.ok.inj hfound
    rw [hm] at h
    obtain ⟨db₂, hdb₂, h⟩ := bind_ok.mp h
    obtain ⟨hfault, hsave'⟩ := statement_ok.mp hdb₂
    obtain ⟨_, hdecisions, h⟩ := bind_ok.mp h
    obtain ⟨hlast, h⟩ := statement_ok.mp h
    rw [hsave] at hsave'
    obtain rfl := Except.ok.inj hsave'
    refine ⟨fun p => ?_, db', h⟩
    cases p with
    | loadMeeting => exact hload
    | saveMeeting => exact hfault
    | replaceDecisions => exact (statement_ok.mp hdecisions).1
    | replaceActions => exact hlast
  · rintro ⟨hquiet, db', h⟩
    refine ⟨db', some m, ⟨hquiet .loadMeeting, by rw [hm]⟩, ?_⟩
    exact bind_ok.mpr ⟨db₁, statement_ok.mpr ⟨hquiet .saveMeeting, hsave⟩,
      bind_ok.mpr ⟨(), statement_ok.mpr ⟨hquiet .replaceDecisions, rfl⟩,
        statement_ok.mpr ⟨hquiet .replaceActions, h⟩⟩⟩

end

/-! ## What becomes of the meeting -/

structure Accepted (d : Deployment) (w : WorkOpsWorld) (call : Call) (g : GenerateInput) : Prop where
  allowed : isAllowed call.context "work_ops.write" = true
  feature : hasFeature d.platform.plans call.context workOpsFeature = true
  starts : g.startFault = none
  meeting : ∃ m, w.db.getMeeting g.meetingId = some m ∧ m.transcriptArtifactId ≠ none
  durable : g.startEnding ≠ .rolledBack

structure GateHolds (g : GenerateInput) (db : WorkOpsDb) : Prop where
  registry : g.storage .registry = none
  audit : g.storage .auditBefore = none
  nodes : g.nodeFault = none
  candidates : ∀ x ∈ g.gate.candidates, x.2.Buildable
  statements : ∀ p, g.gate.fault p = none
  taskless : db.hasTasks g.meetingId = false
  durable : g.gate.ending ≠ .rolledBack

/-- The request gets there: its handler hears of its commit, too. -/
structure ReachesGate (w : WorkOpsWorld) (g : GenerateInput) : Prop extends GateHolds g w.db where
  heard : g.startEnding = .committed

/-- `statuses` of the meetings. -/
def statusOf (db : WorkOpsDb) (id : Uuid) : Option MeetingStatus :=
  (db.getMeeting id).map MeetingSession.status

def TookStatus (db db' : WorkOpsDb) (id : Uuid) (status : MeetingStatus) : Prop :=
  ∀ id', statusOf db' id' = if id' = id then some status else statusOf db id'

section

variable {d : Deployment} {w w' : WorkOpsWorld} {g : GenerateInput} {call : Call}

theorem startMeeting_isOk {db : WorkOpsDb} : (∃ db', startMeeting g db = .ok db') ↔
    g.startFault = none ∧ ∃ m, db.getMeeting g.meetingId = some m ∧ m.transcriptArtifactId ≠ none := by
  constructor
  · rintro ⟨db', h⟩
    obtain ⟨hfault, m, m', hm, hstart, _⟩ := startMeeting_ok h
    refine ⟨hfault, m, hm, fun hnone => ?_⟩
    unfold MeetingSession.startProcessing at hstart
    rw [hnone] at hstart
    cases hstart
  · rintro ⟨hfault, m, hm, htranscript⟩
    obtain ⟨_, hid⟩ := WorkOpsDb.getMeeting_some hm
    have hstart : m.startProcessing g.runId = .ok
        { m with status := .processing, lastRunId := some g.runId, version := m.version + 1 } := by
      unfold MeetingSession.startProcessing
      rw [if_neg (by simpa using htranscript)]
    obtain ⟨db', hsave, _⟩ := saveMeeting_next (b := { m with
      status := .processing, lastRunId := some g.runId, version := m.version + 1 })
      (show db.getMeeting m.id = some m from hid.symm ▸ hm) rfl
    refine ⟨db', statement_ok.mpr ⟨hfault, ?_⟩⟩
    rw [hm]
    exact bind_ok.mpr ⟨_, hstart, hsave⟩

theorem startMeeting_took {db db' : WorkOpsDb} (h : startMeeting g db = .ok db') :
    TookStatus db db' g.meetingId .processing ∧ ∃ m, db'.getMeeting g.meetingId = some m := by
  obtain ⟨_, m, m', hm, hstart, hsave⟩ := startMeeting_ok h
  obtain ⟨_, hid⟩ := WorkOpsDb.getMeeting_some hm
  unfold MeetingSession.startProcessing at hstart
  split at hstart
  · cases hstart
  obtain rfl := Except.ok.inj hstart
  obtain ⟨db₁, hsave₁, hread⟩ := saveMeeting_next (b := { m with
    status := .processing, lastRunId := some g.runId, version := m.version + 1 })
    (show db.getMeeting m.id = some m from hid.symm ▸ hm) rfl
  obtain rfl := Except.ok.inj (hsave₁.symm.trans hsave)
  dsimp only at hread
  rw [hid] at hread
  constructor
  · intro id'
    unfold statusOf
    rw [hread id']
    by_cases hsame : id' = g.meetingId
    · rw [if_pos hsame, if_pos hsame]
      rfl
    · rw [if_neg hsame, if_neg hsame]
  · rw [hread g.meetingId, if_pos rfl]
    exact ⟨_, rfl⟩

theorem policyGate_took (env : TaskEnv) {db : WorkOpsDb} {m : MeetingSession}
    (hm : db.getMeeting g.meetingId = some m) (hunique : db.UniqueIds)
    (hnodup : (g.gate.candidates.map Prod.fst).Nodup)
    (hnew : ∀ a ∈ db.actions, a.id ∉ g.gate.candidates.map Prod.fst) :
    let r := policyGate env g.gate { meetingId := g.meetingId } db
    let holds := (∀ x ∈ g.gate.candidates, x.2.Buildable) ∧ (∀ p, g.gate.fault p = none) ∧
      db.hasTasks g.meetingId = false ∧ g.gate.ending ≠ .rolledBack
    (holds ∧ TookStatus db r.1 g.meetingId .actionsReady) ∨ (¬ holds ∧ r.1 = db) := by
  dsimp only
  unfold policyGate
  cases hbuild : buildActions g.gate.requesterDepartment g.meetingId g.gate.candidates with
  | error e =>
    refine .inr ⟨fun hholds => ?_, rfl⟩
    obtain ⟨actions, hactions⟩ := buildActions_isOk.mpr hholds.1
    rw [hactions] at hbuild
    cases hbuild
  | ok actions =>
    have hbuildable := buildActions_isOk.mp ⟨actions, hbuild⟩
    obtain ⟨hids, _⟩ := buildActions_ok hbuild
    have hall : ((db.otherActions g.meetingId ++ actions).map ActionItem.id).Nodup := by
      rw [List.map_append, hids]
      refine List.nodup_append.mpr ⟨?_, hnodup, ?_⟩
      · exact hunique.sublist (List.filter_sublist.map _)
      · intro x hx y hy hxy
        obtain ⟨a, ha, rfl⟩ := List.mem_map.mp hx
        exact hnew a (List.mem_of_mem_filter ha) (by rwa [hxy])
    have hcommit := gateTransaction_isOk g.gate hm hall
    dsimp only
    cases htx : gateTransaction g.gate g.meetingId actions db with
    | error e =>
      refine .inr ⟨fun hholds => ?_, rfl⟩
      obtain ⟨db', hdb'⟩ := hcommit.mpr ⟨hholds.2.1, hholds.2.2.1⟩
      rw [htx] at hdb'
      cases hdb'
    | ok db' =>
      obtain ⟨hquiet, htaskless⟩ := hcommit.mp ⟨db', htx⟩
      have htook : TookStatus db db' g.meetingId .actionsReady := by
        obtain ⟨_, _, _, _, meeting, db₁, hmeeting, hsave, hmeetings⟩ := gateTransaction_ok htx
        obtain ⟨_, hid⟩ := WorkOpsDb.getMeeting_some hmeeting
        obtain ⟨db₂, hsave₂, hread⟩ := saveMeeting_next
          (b := meeting.markActionsReady g.gate.summary g.gate.analysis)
          (show db.getMeeting meeting.id = some meeting from hid.symm ▸ hmeeting) rfl
        obtain rfl := Except.ok.inj (hsave₂.symm.trans hsave)
        intro id'
        have hread' : db'.getMeeting id' = db₂.getMeeting id' := by
          unfold WorkOpsDb.getMeeting
          rw [hmeetings]
        unfold statusOf
        rw [hread', hread id']
        show Option.map _ (if id' = meeting.id then _ else _) = _
        rw [hid]
        by_cases hsame : id' = g.meetingId
        · rw [if_pos hsame, if_pos hsame]
          rfl
        · rw [if_neg hsame, if_neg hsame]
      dsimp only
      cases hending : g.gate.ending with
      | committed => exact .inl ⟨⟨hbuildable, hquiet, htaskless, by simp⟩, htook⟩
      | rolledBack => exact .inr ⟨fun hholds => hholds.2.2.2 rfl, rfl⟩
      | unacknowledged => exact .inl ⟨⟨hbuildable, hquiet, htaskless, by simp⟩, htook⟩

theorem startRun_took (actor : Uuid) {m : MeetingSession}
    (hm : w.db.getMeeting g.meetingId = some m) (hunique : w.db.UniqueIds)
    (hnodup : (g.gate.candidates.map Prod.fst).Nodup)
    (hnew : ∀ a ∈ w.db.actions, a.id ∉ g.gate.candidates.map Prod.fst) :
    Ends (startRun d actor g) w
      (fun _ w' => (GateHolds g w.db ∧ TookStatus w.db w'.db g.meetingId .actionsReady) ∨
        (¬ GateHolds g w.db ∧ w'.db = w.db))
      (fun _ w' => (GateHolds g w.db ∧ TookStatus w.db w'.db g.meetingId .actionsReady) ∨
        (¬ GateHolds g w.db ∧ w'.db = w.db)) := by
  unfold startRun gateNode
  simp only [ends_bind, ends_raise?, ends_putRun, ends_get, ends_set, ends_fromExcept]
  refine ⟨fun hregistry => ⟨fun haudit => ⟨fun hnodes => ?_, ?_⟩, ?_⟩, ?_⟩
  · show (∀ st', _ → Ends _ _ _ _) ∧ ∀ e, _ → _
    have hgate := policyGate_took d.tools hm hunique hnodup hnew
    have houtcome : (GateHolds g w.db ∧ TookStatus w.db
        (policyGate d.tools g.gate { meetingId := g.meetingId } w.db).1 g.meetingId .actionsReady) ∨
        (¬ GateHolds g w.db ∧
          (policyGate d.tools g.gate { meetingId := g.meetingId } w.db).1 = w.db) := by
      rcases hgate with ⟨⟨hcandidates, hquiet, htaskless, hdurable⟩, htook⟩ | ⟨hnot, hsame⟩
      · exact .inl ⟨⟨hregistry, haudit, hnodes, hcandidates, hquiet, htaskless, hdurable⟩, htook⟩
      · exact .inr ⟨fun h => hnot ⟨h.candidates, h.statements, h.taskless, h.durable⟩, hsame⟩
    constructor
    · intro st' _
      -- the rest of the run leaves the tables alone
      unfold suspend
      simp only [ends_bind, ends_raise?, ends_putRun, ends_modify]
      exact ⟨fun _ => ⟨fun _ => ⟨fun _ => houtcome, fun _ _ => houtcome⟩, fun _ _ => houtcome⟩,
        fun _ _ => houtcome⟩
    · intro e _
      exact houtcome
  · intro e hraise
    exact .inr ⟨(fun h => by rw [h.nodes] at hraise; cases hraise), rfl⟩
  · intro e hraise
    exact .inr ⟨(fun h => by rw [h.audit] at hraise; cases hraise), rfl⟩
  · intro e hraise
    exact .inr ⟨(fun h => by rw [h.registry] at hraise; cases hraise), trivial⟩

/-- **The meeting of a generate request**: a request that is not accepted leaves
    the tables alone; one that gets through its gate leaves the meeting ready; any
    other leaves it in process. -/
theorem generate_took (call : Call) (h : Orderly d w) (hnew : Unissued d w g) :
    let w' := finalState (generateActions d call g) w
    (¬ Accepted d w call g ∧ w'.db = w.db) ∨
    (Accepted d w call g ∧ ReachesGate w g ∧ TookStatus w.db w'.db g.meetingId .actionsReady) ∨
    (Accepted d w call g ∧ ¬ ReachesGate w g ∧
      TookStatus w.db w'.db g.meetingId .processing) := by
  refine Ends.final (P := fun w' : WorkOpsWorld =>
    (¬ Accepted d w call g ∧ w'.db = w.db) ∨
    (Accepted d w call g ∧ ReachesGate w g ∧ TookStatus w.db w'.db g.meetingId .actionsReady) ∨
    (Accepted d w call g ∧ ¬ ReachesGate w g ∧
      TookStatus w.db w'.db g.meetingId .processing)) ?_
  unfold generateActions
  simp only [ends_bind, ends_checked, ends_onTables, ends_pure]
  refine ⟨fun _ hallowed => ⟨fun _ hfeature => ⟨fun e he => ?_, fun db hdb => ?_⟩, ?_⟩, ?_⟩
  · refine .inl ⟨fun hacc => ?_, trivial⟩
    obtain ⟨db', hdb'⟩ := startMeeting_isOk.mpr ⟨hacc.starts, hacc.meeting⟩
    rw [he] at hdb'
    cases hdb'
  · obtain ⟨hstarts, hmeeting⟩ := startMeeting_isOk.mp ⟨db, hdb⟩
    have hallowed' : isAllowed call.context "work_ops.write" = true := by
      simpa [authorize] using hallowed
    have hfeature' : hasFeature d.platform.plans call.context workOpsFeature = true := by
      simpa [requireFeature] using hfeature
    have haccepted : g.startEnding ≠ .rolledBack → Accepted d w call g :=
      fun hdurable => ⟨hallowed', hfeature', hstarts, hmeeting, hdurable⟩
    obtain ⟨htook, m, hm⟩ := startMeeting_took hdb
    obtain ⟨_, _, _, _, _, hsave⟩ := startMeeting_ok hdb
    obtain ⟨hactions, htasks, _, _⟩ := saveMeeting_ok hsave
    refine ⟨fun hcommitted => ?_, fun hback => ?_, fun hunheard => ?_⟩
    · have hacc := haccepted (by simp [hcommitted])
      have hsame : GateHolds g db ↔ ReachesGate w g := by
        have htaskless : db.hasTasks g.meetingId = w.db.hasTasks g.meetingId := by
          unfold WorkOpsDb.hasTasks
          rw [hactions, htasks]
        constructor
        · intro hholds
          exact ⟨{ hholds with taskless := htaskless ▸ hholds.taskless }, hcommitted⟩
        · intro hreaches
          exact { hreaches.toGateHolds with taskless := htaskless.trans hreaches.taskless }
      have hunique : db.UniqueIds := by
        unfold WorkOpsDb.UniqueIds
        rw [hactions]
        exact h.unique
      have hrun := startRun_took (d := d) (w := { w with db := db })
        call.context.principalId hm hunique hnew.nodup
        (fun a ha => hnew.rows a (hactions ▸ ha))
      have hend : ∀ w' : WorkOpsWorld,
          (GateHolds g db ∧ TookStatus db w'.db g.meetingId .actionsReady) ∨
            (¬ GateHolds g db ∧ w'.db = db) →
          (¬ Accepted d w call g ∧ w'.db = w.db) ∨
          (Accepted d w call g ∧ ReachesGate w g ∧
            TookStatus w.db w'.db g.meetingId .actionsReady) ∨
          (Accepted d w call g ∧ ¬ ReachesGate w g ∧
            TookStatus w.db w'.db g.meetingId .processing) := by
        rintro w' (⟨hholds, hready⟩ | ⟨hnot, hdb'⟩)
        · refine .inr (.inl ⟨hacc, hsame.mp hholds, fun id' => ?_⟩)
          rw [hready id', htook id']
          by_cases hid : id' = g.meetingId
          · simp only [if_pos hid]
          · simp only [if_neg hid]
        · refine .inr (.inr ⟨hacc, fun hreaches => hnot (hsame.mpr hreaches), ?_⟩)
          rw [hdb']
          exact htook
      exact hrun.mono (fun _ w' => hend w') (fun _ w' => hend w')
    · exact .inl ⟨fun hacc => hacc.durable hback, trivial⟩
    · refine .inr (.inr ⟨haccepted (by simp [hunheard]), fun hreaches => ?_, htook⟩)
      have hheard := hreaches.heard
      rw [hunheard] at hheard
      cases hheard
  · intro e he
    refine .inl ⟨fun hacc => ?_, trivial⟩
    have hfeature := hacc.feature
    simp [requireFeature, raiseIf, hfeature] at he
  · intro e he
    refine .inl ⟨fun hacc => ?_, trivial⟩
    have hallowed := hacc.allowed
    simp [authorize, raiseIf, hallowed] at he

end

/-! ## Histories -/

section

variable {d : Deployment} {w w' : WorkOpsWorld} {es : List (Event WorkOpsWorld WorkOpsAction)}

/-- **Kept**: what is dispatched before a request, and the task rows there are,
    stay stored to the end of the history. -/
theorem keeps_along (h : Exec (workOps d) es w) : ∀ e ∈ es, Keeps e.pre.db w.db := by
  refine h.history_invariant (P := fun es s => ∀ e ∈ es, Keeps e.pre.db s.db) ?_ ?_
  · intro _ _ e he
    cases he
  · intro es s a s' hexec ih hs e he
    have hkeeps := (orderly_step (orderly_exec hexec) hs).2
    rcases List.mem_cons.mp he with rfl | hold
    · exact hkeeps
    · exact (ih e hold).trans hkeeps

def NoneStuck (db : WorkOpsDb) : Prop := ∀ m ∈ db.meetings, m.status ≠ .processing

theorem noneStuck_iff {db : WorkOpsDb} (hids : (db.meetings.map MeetingSession.id).Nodup) :
    NoneStuck db ↔ ∀ id, statusOf db id ≠ some .processing := by
  constructor
  · intro h id hid
    obtain ⟨m, hm, hstatus⟩ := Option.map_eq_some_iff.mp hid
    exact h m (WorkOpsDb.getMeeting_some hm).1 hstatus
  · intro h m hm hstatus
    refine h m.id (Option.map_eq_some_iff.mpr ⟨m, ?_, hstatus⟩)
    exact Rows.lookup_of_mem hids hm

def GateOk (d : Deployment) (e : Event WorkOpsWorld WorkOpsAction) : Prop :=
  ∀ call g, e.act = .generate call g → Accepted d e.pre call g → ReachesGate e.pre g

/-- **Nothing is lost**: what is dispatched stays stored with its task rows, an
    accepted generate request leaves the meeting ready or with the status it had,
    and no request leaves a meeting in process. -/
structure LosesNothing (d : Deployment) (es : List (Event WorkOpsWorld WorkOpsAction))
    (w : WorkOpsWorld) : Prop where
  kept : ∀ e ∈ es, Keeps e.pre.db w.db
  settled : ∀ e ∈ es, ∀ call g, e.act = .generate call g → Accepted d e.pre call g →
    statusOf e.post.db g.meetingId = some .actionsReady ∨
      statusOf e.post.db g.meetingId = statusOf e.pre.db g.meetingId
  free : ∀ e ∈ es, NoneStuck e.post.db

theorem generate_step {call : Call} {g : GenerateInput} (h : Orderly d w)
    (hs : (workOps d).step w (.generate call g) = some w') :
    (¬ Accepted d w call g ∧ w'.db = w.db) ∨
    (Accepted d w call g ∧ ReachesGate w g ∧ TookStatus w.db w'.db g.meetingId .actionsReady) ∨
    (Accepted d w call g ∧ ¬ ReachesGate w g ∧
      TookStatus w.db w'.db g.meetingId .processing) := by
  obtain ⟨hfresh, rfl⟩ := workOps_step.mp hs
  have htook := generate_took call (h.issue (WorkOpsAction.generate call g).newIds)
    (h.unissued hfresh)
  unfold WorkOpsAction.perform
  rw [finalState_discard]
  -- the identifiers handed out decide nothing
  rcases htook with ⟨hnot, hdb⟩ | ⟨hacc, hreaches, htook⟩ | ⟨hacc, hnot, htook⟩
  · exact .inl ⟨fun hacc => hnot ⟨hacc.allowed, hacc.feature, hacc.starts, hacc.meeting,
      hacc.durable⟩, hdb⟩
  · exact .inr (.inl ⟨⟨hacc.allowed, hacc.feature, hacc.starts, hacc.meeting, hacc.durable⟩,
      ⟨hreaches.toGateHolds, hreaches.heard⟩, htook⟩)
  · exact .inr (.inr ⟨⟨hacc.allowed, hacc.feature, hacc.starts, hacc.meeting, hacc.durable⟩,
      fun hreaches => hnot ⟨hreaches.toGateHolds, hreaches.heard⟩, htook⟩)

theorem noneStuck_step {a : WorkOpsAction} (h : Orderly d w)
    (hs : (workOps d).step w a = some w') (hfree : NoneStuck w.db) (hgate : GateOk d ⟨w, a, w'⟩) :
    NoneStuck w'.db := by
  have hids' := (orderly_step h hs).1.meetings
  cases a with
  | createMeeting call inp =>
    obtain ⟨_, rfl⟩ := workOps_step.mp hs
    have hmeetings := (createMeeting_ends call inp
      (h.issue (WorkOpsAction.createMeeting call inp).newIds)).2
    unfold WorkOpsAction.perform
    rw [finalState_discard]
    intro m hm hstatus
    exact hfree m (hmeetings m hm hstatus) hstatus
  | generate call g =>
    rcases generate_step h hs with ⟨_, hdb⟩ | ⟨_, _, htook⟩ | ⟨hacc, hnot, _⟩
    · rw [hdb]
      exact hfree
    · rw [noneStuck_iff hids']
      intro id
      rw [htook id]
      by_cases hid : id = g.meetingId
      · rw [if_pos hid]
        simp
      · rw [if_neg hid]
        exact (noneStuck_iff h.meetings).mp hfree id
    · exact absurd (hgate call g rfl hacc) hnot
  | decide call cmd inp =>
    obtain ⟨_, rfl⟩ := workOps_step.mp hs
    have hends := decide_ends call cmd inp (h.issue (WorkOpsAction.decide call cmd inp).newIds)
    intro m hm hstatus
    exact hfree m (hends.processing m hm hstatus) hstatus

/-- **Regeneration**: what is dispatched is kept in every history; and no meeting
    stays in process if and only if every accepted generate request gets through
    its gate, which no action with a task may stand behind. -/
theorem regenerate_iff (h : Exec (workOps d) es w) :
    LosesNothing d es w ↔ ∀ e ∈ es, GateOk d e := by
  constructor
  · intro hsafe e he call g hact hacc
    by_contra hnot
    obtain ⟨later, earlier, _, hpre, hs⟩ := h.split he
    rw [hact] at hs
    rcases generate_step (orderly_exec hpre) hs with ⟨hrefused, _⟩ | ⟨_, hreaches, _⟩ | ⟨_, _, htook⟩
    · exact hrefused hacc
    · exact hnot hreaches
    · have hids := (orderly_step (orderly_exec hpre) hs).1.meetings
      refine (noneStuck_iff hids).mp (hsafe.free e he) g.meetingId ?_
      rw [htook g.meetingId, if_pos rfl]
  · intro hgates
    have hinit : ∀ s, (workOps d).init s → Orderly d s ∧ NoneStuck s.db := by
      intro s hs
      rw [hs]
      exact ⟨orderly_init, fun m hm => by cases hm⟩
    have hstep : ∀ s a s', Orderly d s ∧ NoneStuck s.db → (workOps d).step s a = some s' →
        GateOk d ⟨s, a, s'⟩ → Orderly d s' ∧ NoneStuck s'.db := by
      rintro s a s' ⟨horderly, hbefore⟩ hs hok
      exact ⟨(orderly_step horderly hs).1, noneStuck_step horderly hs hbefore hok⟩
    have hfree : ∀ e ∈ es, NoneStuck e.post.db := by
      intro e he
      obtain ⟨hpre, hs⟩ := h.pre_of hinit hstep hgates e he
      exact (hstep _ _ _ hpre hs (hgates e he)).2
    refine ⟨keeps_along h, ?_, hfree⟩
    intro e he call g hact hacc
    obtain ⟨later, earlier, _, hpre, hs⟩ := h.split he
    have hreaches := hgates e he call g hact hacc
    rw [hact] at hs
    rcases generate_step (orderly_exec hpre) hs with ⟨hrefused, _⟩ | ⟨_, _, htook⟩ | ⟨_, hnot, _⟩
    · exact absurd hacc hrefused
    · left
      rw [htook g.meetingId, if_pos rfl]
    · exact absurd hreaches hnot

end

namespace Weekly

def secondRun : GenerateInput :=
  { meetingId := { text := "m" }, runId := { text := "run2" }, requestId := { text := "q2" }
    gate := { candidates := [({ text := "a3" }, candidate "Gửi báo giá")] } }

def generated : WorkOpsWorld :=
  (workOps deployment).next
    ((workOps deployment).next {} (.createMeeting anyCall meetingInput)) (.generate anyCall firstRun)

theorem candidate_buildable (title : String) (h : blank title = false) :
    (candidate title).Buildable := by
  have hrisk : RiskLevel.ofValue? "low" ≠ none := by decide
  refine ⟨hrisk, h, fun p hp => ?_⟩
  obtain rfl := Option.some.inj hp
  exact ⟨by decide +kernel, by decide +kernel⟩

/-- Where the gate has nothing in its way, nothing is lost. -/
theorem first_run_settled : ∃ es, Exec (workOps deployment) es generated ∧
    es.length = 2 ∧ LosesNothing deployment es generated := by
  have hcreated := Exec.next (M := workOps deployment) (.start rfl)
    (.createMeeting anyCall meetingInput) (by decide +kernel)
  have hgenerated := hcreated.next (.generate anyCall firstRun) (by decide +kernel)
  refine ⟨_, hgenerated, rfl, (regenerate_iff hgenerated).mpr ?_⟩
  intro e he call g hact _
  rcases List.mem_cons.mp he with rfl | he
  · cases hact
    refine ⟨⟨rfl, rfl, rfl, ?_, fun _ => rfl, by decide +kernel, by decide⟩, rfl⟩
    intro x hx
    rcases List.mem_cons.mp hx with rfl | hx
    · exact candidate_buildable _ (by decide +kernel)
    · obtain rfl := List.mem_singleton.mp hx
      exact candidate_buildable _ (by decide +kernel)
  · obtain rfl := List.mem_singleton.mp he
    cases hact

theorem regenerated_runs : (workOps deployment).runs {}
    (approvedActions ++ [.generate anyCall secondRun])
    (fun es _ => es.any (fun e => e.post.db.meetings.any (fun m => m.status = .processing))) =
      true := by
  decide +kernel

/-- An action is dispatched, and the actions are generated again: the foreign key
    stops the gate, and the meeting stays in process. -/
theorem regeneration_stuck : ¬ ∀ d es w, Exec (workOps d) es w → LosesNothing d es w := by
  intro hclaim
  obtain ⟨es, w, hexec, htest⟩ := Machine.exec_of_runs rfl regenerated_runs
  obtain ⟨e, he, hstuck⟩ := List.any_eq_true.mp htest
  obtain ⟨m, hm, hstatus⟩ := List.any_eq_true.mp hstuck
  exact (hclaim deployment es w hexec).free e he m hm (by simpa using hstatus)

end Weekly

end DigitalWorker.WorkOps
