import DigitalWorker.WorkOps.Orderly

/-! # Generating actions

    A generate request takes the meeting into processing, runs the nodes up to the
    policy gate, which replaces the actions of the meeting, and leaves the run at
    its review.
-/

namespace DigitalWorker.WorkOps

open Framework Tools

/-! ## The gate -/

section

variable {dep : String} {meetingId : Uuid} {db db' : WorkOpsDb} {actions : List ActionItem}

theorem buildAction_ok {id : Uuid} {c : ActionCandidate} {a : ActionItem}
    (h : buildAction dep meetingId id c = .ok a) :
    a.id = id ∧ a.meetingId = meetingId ∧ a.status = .proposed := by
  have hbuild : ∀ a, buildAction.build dep meetingId id c = .ok a →
      a.id = id ∧ a.meetingId = meetingId ∧ a.status = .proposed := by
    intro a ha
    unfold buildAction.build at ha
    split at ha
    · cases ha
    · split at ha
      · cases ha
      · obtain rfl := Except.ok.inj ha
        exact ⟨rfl, rfl, rfl⟩
  unfold buildAction at h
  split at h
  · split at h
    · exact hbuild a h
    · cases h
  · exact hbuild a h

theorem buildActions_ok {candidates : List (Uuid × ActionCandidate)}
    (h : buildActions dep meetingId candidates = .ok actions) :
    actions.map ActionItem.id = candidates.map Prod.fst ∧
      ∀ a ∈ actions, a.meetingId = meetingId ∧ a.status = .proposed := by
  induction candidates generalizing actions with
  | nil =>
    obtain rfl := Except.ok.inj h
    exact ⟨rfl, fun a ha => by cases ha⟩
  | cons x rest ih =>
    obtain ⟨id, c⟩ := x
    rw [buildActions] at h
    obtain ⟨a, ha, h⟩ := bind_ok.mp h
    obtain ⟨others, hothers, h⟩ := bind_ok.mp h
    obtain rfl := Except.ok.inj h
    obtain ⟨hid, hmeeting, hstatus⟩ := buildAction_ok ha
    obtain ⟨hids, hall⟩ := ih hothers
    constructor
    · rw [List.map_cons, List.map_cons, hid, hids]
    · intro b hb
      rcases List.mem_cons.mp hb with rfl | hmem
      · exact ⟨hmeeting, hstatus⟩
      · exact hall b hmem

theorem statement_ok {α : Type} {fault : Option Raised} {x : Except Raised α} {a : α} :
    statement fault x = .ok a ↔ fault = none ∧ x = .ok a := by
  cases fault <;> simp [statement]

theorem gateTransaction_ok {inp : GateInput} (h : gateTransaction inp meetingId actions db = .ok db') :
    db.hasTasks meetingId = false ∧ db'.actions = db.otherActions meetingId ++ actions ∧
      db'.tasks = db.tasks ∧ (db'.actions.map ActionItem.id).Nodup ∧
      ∃ meeting db₁, db.getMeeting meetingId = some meeting ∧
        db.saveMeeting (meeting.markActionsReady inp.summary inp.analysis) = .ok db₁ ∧
        db'.meetings = db₁.meetings := by
  unfold gateTransaction at h
  obtain ⟨found, hfound, h⟩ := bind_ok.mp h
  obtain ⟨_, hfound⟩ := statement_ok.mp hfound
  obtain rfl := Except.ok.inj hfound
  cases hm : db.getMeeting meetingId with
  | none =>
    rw [hm] at h
    cases h
  | some meeting =>
    rw [hm] at h
    dsimp only at h
    obtain ⟨db₁, hdb₁, h⟩ := bind_ok.mp h
    obtain ⟨_, hsave⟩ := statement_ok.mp hdb₁
    obtain ⟨_, _, h⟩ := bind_ok.mp h
    obtain ⟨_, hreplace⟩ := statement_ok.mp h
    obtain ⟨hactions, htasks, _, _⟩ := saveMeeting_ok hsave
    have hhas : db₁.hasTasks meetingId = db.hasTasks meetingId := by
      unfold WorkOpsDb.hasTasks
      rw [hactions, htasks]
    have hothers : db₁.otherActions meetingId = db.otherActions meetingId := by
      unfold WorkOpsDb.otherActions
      rw [hactions]
    unfold WorkOpsDb.replaceActions at hreplace
    rw [hhas, hothers] at hreplace
    split at hreplace
    · cases hreplace
    · next hnone =>
      split at hreplace
      · next hnodup =>
        obtain rfl := Except.ok.inj hreplace
        exact ⟨by simpa using hnone, rfl, htasks, hnodup, meeting, db₁, rfl, hsave, rfl⟩
      · cases hreplace

theorem policyGate_cases (env : TaskEnv) (inp : GateInput) (st : WorkOpsState) (db : WorkOpsDb) :
    ((policyGate env inp st db).1 = db ∧ ∀ st', (policyGate env inp st db).2 ≠ .ok st') ∨
    ∃ actions db', buildActions inp.requesterDepartment st.meetingId inp.candidates = .ok actions ∧
      gateTransaction inp st.meetingId actions db = .ok db' ∧
      (policyGate env inp st db).1 = db' ∧
      ∀ st', (policyGate env inp st db).2 = .ok st' → st' = { st with
        resolvedActionIds := actions.map ActionItem.id
        approvalPayload :=
          approvalPayload env.isoformat st.meetingId inp.requesterDepartment actions } := by
  unfold policyGate
  cases hbuild : buildActions inp.requesterDepartment st.meetingId inp.candidates with
  | error e => exact .inl ⟨rfl, fun st' h => by cases h⟩
  | ok actions =>
    dsimp only
    cases htx : gateTransaction inp st.meetingId actions db with
    | error e => exact .inl ⟨rfl, fun st' h => by cases h⟩
    | ok db' =>
      dsimp only
      cases inp.ending with
      | committed => exact .inr ⟨actions, db', rfl, htx, rfl, fun st' h => (Except.ok.inj h).symm⟩
      | rolledBack => exact .inl ⟨rfl, fun st' h => by cases h⟩
      | unacknowledged => exact .inr ⟨actions, db', rfl, htx, rfl, fun st' h => by cases h⟩

end

/-! ## New identifiers -/

structure Unissued (d : Deployment) (w : WorkOpsWorld) (g : GenerateInput) : Prop where
  nodup : (g.gate.candidates.map Prod.fst).Nodup
  issued : g.runId ∈ w.issued ∧ ∀ id ∈ g.gate.candidates.map Prod.fst, id ∈ w.issued
  unused : ∀ id ∈ g.gate.candidates.map Prod.fst, Unused d w id
  rows : ∀ a ∈ w.db.actions, a.id ∉ g.gate.candidates.map Prod.fst
  owned : ∀ r record, w.runs r = some record → ∀ id ∈ record.state.resolvedActionIds,
    id ∉ g.gate.candidates.map Prod.fst
  request : ∀ q ∈ w.requests, q.runId ≠ some g.runId

section

variable {d : Deployment} {w w' : WorkOpsWorld} {g : GenerateInput}

theorem Orderly.unissued (h : Orderly d w) {call : Call}
    (hfresh : (WorkOpsAction.generate call g).Fresh w.issued) :
    Unissued d (w.issue (WorkOpsAction.generate call g).newIds) g := by
  obtain ⟨hnodup, hnew⟩ := hfresh
  have hids : ∀ id ∈ g.gate.candidates.map Prod.fst,
      id ∈ (WorkOpsAction.generate call g).newIds :=
    fun id hid => List.mem_cons_of_mem _ (List.mem_cons_of_mem _ hid)
  refine ⟨?_, ⟨?_, ?_⟩, ?_, ?_, ?_, ?_⟩
  · exact (List.nodup_cons.mp (List.nodup_cons.mp hnodup).2).2
  · exact List.mem_append_left _ List.mem_cons_self
  · exact fun id hid => List.mem_append_left _ (hids id hid)
  · exact fun id hid => (h.unused id (hnew id (hids id hid))).of_eq rfl rfl
  · exact fun a ha hid => hnew a.id (hids a.id hid) (h.rows a ha)
  · exact fun r record hr id hmem hid => hnew id (hids id hid) ((h.runs r record hr).2 id hmem)
  · intro q hq hrun
    exact hnew g.runId List.mem_cons_self (h.requestRuns q hq g.runId hrun)

theorem Orderly.gate (h : Orderly d w) (hnew : Unissued d w g) {st : WorkOpsState}
    {actions : List ActionItem} {db' : WorkOpsDb}
    (hbuild : buildActions g.gate.requesterDepartment st.meetingId g.gate.candidates = .ok actions)
    (htx : gateTransaction g.gate st.meetingId actions w.db = .ok db') :
    Orderly d { w with db := db' } ∧ Keeps w.db db' ∧
      AtReview d { w with db := db' } { st with
        resolvedActionIds := actions.map ActionItem.id
        approvalPayload := approvalPayload d.tools.isoformat st.meetingId
          g.gate.requesterDepartment actions } := by
  obtain ⟨hids, hproposed⟩ := buildActions_ok hbuild
  obtain ⟨hnone, hactions, htasks, hnodup, meeting, db₁, _, hsave, hmeetings⟩ :=
    gateTransaction_ok htx
  have hmem : ∀ a ∈ db'.actions, (a ∈ w.db.actions ∧ a.meetingId ≠ st.meetingId) ∨ a ∈ actions := by
    intro a ha
    rw [hactions, List.mem_append] at ha
    refine ha.imp (fun hold => ?_) id
    unfold WorkOpsDb.otherActions at hold
    simpa using List.mem_filter.mp hold
  have hcandidate : ∀ a ∈ actions, a.id ∈ g.gate.candidates.map Prod.fst := by
    intro a ha
    rw [← hids]
    exact List.mem_map_of_mem ha
  -- a dispatched action has a task, so its meeting is not the one of the gate
  have hkept : ∀ a ∈ w.db.actions, a.status = .dispatched → a ∈ db'.actions := by
    intro a ha hdispatched
    obtain ⟨t, ht, hown⟩ := h.recorded a ha hdispatched
    have hmeeting : a.meetingId ≠ st.meetingId := by
      intro hsame
      have hhas : w.db.hasTasks st.meetingId = true := by
        unfold WorkOpsDb.hasTasks
        rw [List.any_eq_true]
        refine ⟨t, ht, List.any_eq_true.mpr ⟨a, ha, ?_⟩⟩
        simp [hown, hsame]
      rw [hnone] at hhas
      cases hhas
    rw [hactions, List.mem_append]
    left
    unfold WorkOpsDb.otherActions
    exact List.mem_filter.mpr ⟨ha, by simpa using hmeeting⟩
  have hread : ∀ id, id ∉ g.gate.candidates.map Prod.fst → ∀ a, db'.getAction id = some a →
      w.db.getAction id = some a := by
    intro id hid a ha
    obtain ⟨hrow, rfl⟩ := WorkOpsDb.getAction_some ha
    rcases hmem a hrow with ⟨hold, _⟩ | hact
    · exact h.unique.getAction hold
    · exact absurd (hcandidate a hact) hid
  refine ⟨?_, ⟨hkept, fun t ht => by rwa [htasks]⟩, ?_⟩
  · refine
      { unique := hnodup, meetings := ?_, rows := ?_
        unused := fun id hid => (h.unused id hid).of_eq rfl htasks
        runs := h.runs, apart := h.apart, review := ?_, requestRuns := h.requestRuns
        single := h.single, pending := h.pending, recorded := ?_, once := h.once }
    · dsimp only
      rw [hmeetings, (saveMeeting_ok hsave).2.2.1]
      exact h.meetings
    · intro a ha
      rcases hmem a ha with ⟨hold, _⟩ | hact
      · exact h.rows a hold
      · exact hnew.issued.2 a.id (hcandidate a hact)
    · intro r record hr hposition
      refine (h.review r record hr hposition).of_rows
        (fun _ _ hunused => hunused.of_eq rfl htasks) ?_
      intro id hid
      exact hread id (hnew.owned r record hr id hid)
    · intro a ha hdispatched
      rcases hmem a ha with ⟨hold, _⟩ | hact
      · obtain ⟨t, ht, hown⟩ := h.recorded a hold hdispatched
        exact ⟨t, by rwa [htasks], hown⟩
      · rw [(hproposed a hact).2] at hdispatched
        cases hdispatched
  · have hstored : ∀ id ∈ actions.map ActionItem.id, ∀ a, db'.getAction id = some a → a ∈ actions := by
      intro id hid a ha
      obtain ⟨hrow, rfl⟩ := WorkOpsDb.getAction_some ha
      rcases hmem a hrow with ⟨hold, _⟩ | hact
      · rw [hids] at hid
        exact absurd hid (hnew.rows a hold)
      · exact hact
    refine ⟨?_, ?_, ?_, ?_⟩
    · dsimp only
      rw [hids]
      exact hnew.nodup
    · intro id hid
      dsimp only at hid
      rw [hids] at hid
      exact (hnew.unused id hid).of_eq rfl htasks
    · exact fun id hid a ha => (hproposed a (hstored id hid a ha)).2
    · intro id hid a ha
      have hact := hstored id hid a ha
      show payloadEntry d.tools.isoformat a ∈ dictItems (.arr (actions.map
        (fun a => .obj (payloadEntry d.tools.isoformat a))))
      have hmap : actions.map (fun a => Json.obj (payloadEntry d.tools.isoformat a)) =
          (actions.map (payloadEntry d.tools.isoformat)).map Json.obj := by
        rw [List.map_map]
        rfl
      rw [hmap, dictItems_arr_obj]
      exact List.mem_map_of_mem hact

theorem Orderly.ask (h : Orderly d w) {q : ApprovalRequest} {r : Uuid} {record : WorkOpsRun}
    (hq : q.runId = some r) (hr : w.runs r = some record) (hreview : record.position = .review)
    (hpayload : q.payload = record.state.approvalPayload)
    (hfirst : ∀ q' ∈ w.requests, q'.runId ≠ some r) :
    Orderly d { w with requests := q :: w.requests } := by
  refine { h with
    unused := fun id hid => (h.unused id hid).of_eq rfl rfl
    review := fun r' record' hr' hposition =>
      (h.review r' record' hr' hposition).of_eq rfl rfl
    requestRuns := ?_, single := ?_, pending := ?_ }
  · intro q' hq' r' hr'
    rcases List.mem_cons.mp hq' with rfl | hold
    · obtain rfl := Option.some.inj (hq.symm.trans hr')
      exact (h.runs r record hr).1
    · exact h.requestRuns q' hold r' hr'
  · intro q₁ hq₁ q₂ hq₂ r' hr₁ hr₂
    rcases List.mem_cons.mp hq₁ with rfl | hold₁ <;> rcases List.mem_cons.mp hq₂ with rfl | hold₂
    · rfl
    · exact absurd (hr₂.trans (hr₁.symm.trans hq)) (hfirst q₂ hold₂)
    · exact absurd (hr₁.trans (hr₂.symm.trans hq)) (hfirst q₁ hold₁)
    · exact h.single q₁ hold₁ q₂ hold₂ r' hr₁ hr₂
  · intro q' hq' hstatus r' hr'
    rcases List.mem_cons.mp hq' with rfl | hold
    · obtain rfl := Option.some.inj (hq.symm.trans hr')
      exact ⟨record, hr, hreview, hpayload⟩
    · exact h.pending q' hold hstatus r' hr'

structure GenerateEnds (d : Deployment) (w w' : WorkOpsWorld) : Prop where
  orderly : Orderly d w'
  keeps : Keeps w.db w'.db
  side : w'.side = w.side

theorem suspend_ends {actor : Uuid} {st : WorkOpsState} (h : GenerateEnds d w w')
    (hissued : g.runId ∈ w'.issued) (hids : ∀ id ∈ st.resolvedActionIds, id ∈ w'.issued)
    (howned : ∀ r record, w'.runs r = some record → ∀ id ∈ st.resolvedActionIds,
      id ∉ record.state.resolvedActionIds)
    (hrequest : ∀ q ∈ w'.requests, q.runId ≠ some g.runId) (hst : AtReview d w' st) :
    Ends (suspend d actor g st) w' (fun _ => GenerateEnds d w) (fun _ => GenerateEnds d w) := by
  have hstopped : Orderly d
      (w'.withRun g.runId { requestedBy := actor, position := .review, state := st }) :=
    h.orderly.put _ hissued hids (fun r' record' _ hr' id hid => howned r' record' hr' id hid)
      (fun _ => hst) (fun q hq _ hrun => absurd hrun (hrequest q hq))
  have hasked := hstopped.ask
    (q := approvalFor d.platform { runId := g.runId, actorId := actor } g.requestId g.now
      st.approvalPayload) rfl (withRun_self w' g.runId _) rfl rfl hrequest
  have hwaiting := hasked.put
    { requestedBy := actor, position := .review, state := st, status := .waitingApproval }
    hissued hids ?_ ?_ ?_
  · unfold suspend
    simp only [ends_bind, ends_raise?, ends_putRun, ends_modify]
    have hend : ∀ w₁, Orderly d w₁ → w₁.db = w'.db → w₁.side = w'.side → GenerateEnds d w w₁ := by
      intro w₁ h₁ hdb hside
      exact ⟨h₁, hdb ▸ h.keeps, hside.trans h.side⟩
    refine ⟨fun _ => ⟨fun _ => ?_, fun _ _ => ?_⟩, fun _ _ => ?_⟩
    · exact ⟨fun _ => hend _ hwaiting rfl rfl, fun _ _ => hend _ hwaiting rfl rfl⟩
    · exact hend _ hasked rfl rfl
    · exact hend _ hstopped rfl rfl
  · intro r' record' hne hr' id hid
    exact howned r' record' ((withRun_ne _ hne).symm.trans hr') id hid
  · exact fun _ => hst.of_eq rfl rfl
  · intro q hq _ hrun
    rcases List.mem_cons.mp hq with rfl | hold
    · exact ⟨rfl, rfl⟩
    · exact absurd hrun (hrequest q hold)

theorem startMeeting_ok {db db' : WorkOpsDb} (h : startMeeting g db = .ok db') :
    g.startFault = none ∧ ∃ m m', db.getMeeting g.meetingId = some m ∧
      m.startProcessing g.runId = .ok m' ∧ db.saveMeeting m' = .ok db' := by
  unfold startMeeting at h
  obtain ⟨hfault, h⟩ := statement_ok.mp h
  refine ⟨hfault, ?_⟩
  cases hm : db.getMeeting g.meetingId with
  | none =>
    rw [hm] at h
    cases h
  | some m =>
    rw [hm] at h
    obtain ⟨m', hm', hsave⟩ := bind_ok.mp h
    exact ⟨m, m', rfl, hm', hsave⟩

theorem startRun_ends {actor : Uuid} (h : GenerateEnds d w w') (hnew : Unissued d w' g) :
    Ends (startRun d actor g) w' (fun _ => GenerateEnds d w) (fun _ => GenerateEnds d w) := by
  generalize hrow : ({ requestedBy := actor, state := { meetingId := g.meetingId } } : WorkOpsRun) =
    row
  have hnone : row.state.resolvedActionIds = [] := by
    rw [← hrow]
  have hstarted : Orderly d (w'.withRun g.runId row) :=
    h.orderly.put _ hnew.issued.1 (by simp [hnone]) (by simp [hnone])
      (fun hposition => by rw [← hrow] at hposition; cases hposition)
      (fun q hq _ hrun => absurd hrun (hnew.request q hq))
  have howned : ∀ r record, (w'.withRun g.runId row).runs r = some record →
      ∀ id ∈ g.gate.candidates.map Prod.fst, id ∉ record.state.resolvedActionIds := by
    intro r record hr id hid hmem
    by_cases hne : r = g.runId
    · subst hne
      rw [withRun_self] at hr
      obtain rfl := Option.some.inj hr
      rw [hnone] at hmem
      cases hmem
    · rw [withRun_ne _ hne] at hr
      exact hnew.owned r record hr id hmem hid
  have hnew₁ : Unissued d (w'.withRun g.runId row) g :=
    ⟨hnew.nodup, hnew.issued, fun id hid => (hnew.unused id hid).of_eq rfl rfl, hnew.rows,
      fun r record hr id hmem hid => howned r record hr id hid hmem, hnew.request⟩
  have hbefore : GenerateEnds d w (w'.withRun g.runId row) :=
    ⟨hstarted, h.keeps, h.side⟩
  unfold startRun gateNode
  simp only [ends_bind, ends_raise?, ends_putRun, ends_get, ends_set, ends_fromExcept, hrow]
  refine ⟨fun _ => ⟨fun _ => ⟨fun _ => ?_, fun _ _ => hbefore⟩, fun _ _ => hbefore⟩, fun _ _ => h⟩
  rcases policyGate_cases d.tools g.gate { meetingId := g.meetingId }
    (w'.withRun g.runId row).db with
    ⟨hsame, hraises⟩ | ⟨actions, db', hbuild, htx, hdb', hstate⟩
  · rw [hsame]
    exact ⟨fun st' hst' => absurd hst' (hraises st'), fun _ _ => hbefore⟩
  · obtain ⟨hgated, hkeeps, hst⟩ := hstarted.gate hnew₁ hbuild htx
    rw [hdb']
    have hgate : GenerateEnds d w { w'.withRun g.runId row with db := db' } := ⟨hgated, h.keeps.trans hkeeps, h.side⟩
    refine ⟨fun st' hst' => ?_, fun _ _ => hgate⟩
    obtain rfl := hstate st' hst'
    have hids := (buildActions_ok hbuild).1
    refine suspend_ends hgate hnew.issued.1 ?_ ?_ hnew.request hst
    · intro id hid
      dsimp only at hid
      rw [hids] at hid
      exact hnew.issued.2 id hid
    · intro r record hr id hid
      dsimp only at hid
      rw [hids] at hid
      exact howned r record hr id hid

/-- **Generating**: wherever the request ends, the world is in order, what was
    dispatched is kept, and no tool is called. -/
theorem generate_ends (call : Call) (h : Orderly d w) (hnew : Unissued d w g) :
    GenerateEnds d w (finalState (generateActions d call g) w) := by
  have hsame : GenerateEnds d w w := ⟨h, .refl _, rfl⟩
  refine Ends.final ?_
  unfold generateActions
  simp only [ends_bind, ends_checked, ends_onTables, ends_pure]
  refine ⟨fun _ _ => ⟨fun _ _ => ⟨fun _ _ => hsame, fun db hdb => ?_⟩, fun _ _ => hsame⟩,
    fun _ _ => hsame⟩
  obtain ⟨_, m, m', _, _, hsave⟩ := startMeeting_ok hdb
  obtain ⟨hactions, htasks, hids, _⟩ := saveMeeting_ok hsave
  have hstarted : GenerateEnds d w { w with db := db } := by
    refine ⟨h.meetingsChange (by rw [hids]; exact h.meetings) hactions htasks,
      ⟨fun a ha _ => ?_, fun t ht => ?_⟩, rfl⟩
    · rw [hactions]
      exact ha
    · rw [htasks]
      exact ht
  have hnew' : Unissued d { w with db := db } g :=
    ⟨hnew.nodup, hnew.issued, fun id hid => (hnew.unused id hid).of_eq rfl htasks,
      (fun a ha => hnew.rows a (hactions ▸ ha)), hnew.owned, hnew.request⟩
  exact ⟨fun _ => startRun_ends hstarted hnew', fun _ => hsame, fun _ => hstarted⟩

/-- **Creating a meeting**: the new one is not in process. -/
theorem createMeeting_ends (call : Call) (inp : CreateMeetingInput) (h : Orderly d w) :
    GenerateEnds d w (finalState (createMeeting d call inp) w) ∧
      ∀ m ∈ (finalState (createMeeting d call inp) w).db.meetings, m.status = .processing →
        m ∈ w.db.meetings := by
  have hsame : GenerateEnds d w w ∧ ∀ m ∈ w.db.meetings, m.status = .processing →
      m ∈ w.db.meetings := ⟨⟨h, .refl _, rfl⟩, fun _ hm _ => hm⟩
  refine Ends.final (P := fun w' : WorkOpsWorld => GenerateEnds d w w' ∧
    ∀ m ∈ w'.db.meetings, m.status = .processing → m ∈ w.db.meetings) ?_
  unfold createMeeting
  simp only [ends_bind, ends_checked, ends_raise?, ends_raiseWhen, ends_onTables, ends_pure]
  refine ⟨fun _ _ => ⟨fun _ _ => ⟨fun _ => ⟨fun _ => ⟨fun _ => ⟨fun _ _ => hsame, fun db hdb => ?_⟩,
    fun _ => hsame⟩, fun _ _ => hsame⟩, fun _ => hsame⟩, fun _ _ => hsame⟩, fun _ _ => hsame⟩
  obtain ⟨_, hadd⟩ := statement_ok.mp hdb
  unfold WorkOpsDb.addMeeting at hadd
  split at hadd
  · cases hadd
  next hnew =>
    obtain rfl := Except.ok.inj hadd
    have hadded : GenerateEnds d w { w with db := { w.db with
        meetings := { id := inp.meetingId, transcriptArtifactId := some inp.artifactId
                      version := 2 } :: w.db.meetings } } := by
      refine ⟨h.meetingsChange ?_ rfl rfl, ⟨fun _ ha _ => ha, fun _ ht => ht⟩, rfl⟩
      refine List.nodup_cons.mpr ⟨?_, h.meetings⟩
      intro hmem
      obtain ⟨m, hm, hid⟩ := List.mem_map.mp hmem
      exact hnew (List.any_eq_true.mpr ⟨m, hm, by simpa using hid⟩)
    have hstatus : ∀ m ∈ ({ id := inp.meetingId, transcriptArtifactId := some inp.artifactId
                            version := 2 } : MeetingSession) :: w.db.meetings,
        m.status = .processing → m ∈ w.db.meetings := by
      intro m hm hprocessing
      rcases List.mem_cons.mp hm with rfl | hold
      · cases hprocessing
      · exact hold
    exact ⟨fun _ => ⟨hadded, hstatus⟩, fun _ => hsame, fun _ => ⟨hadded, hstatus⟩⟩

end

/-! ## Runs of the machine -/

variable {d : Deployment} {w w' : WorkOpsWorld} {es : List (Event WorkOpsWorld WorkOpsAction)}

theorem workOps_step {a : WorkOpsAction} : (workOps d).step w a = some w' ↔
    a.Fresh w.issued ∧ finalState (a.perform d) (w.issue a.newIds) = w' := by
  show (if a.Fresh w.issued then some (finalState (a.perform d) (w.issue a.newIds)) else none) =
    some w' ↔ _
  by_cases hfresh : a.Fresh w.issued
  · simp [hfresh]
  · simp [hfresh]

theorem finalState_discard {ε σ α : Type} (p : Program ε σ α) (s : σ) :
    finalState (do let _ ← p : Program ε σ Unit) s = finalState p s := by
  show finalState (EStateM.bind p fun _ => pure ()) s = finalState p s
  unfold finalState EStateM.bind
  cases p s <;> rfl

/-- **Step**: a request keeps the world in order, and what is dispatched. -/
theorem orderly_step {a : WorkOpsAction} (h : Orderly d w) (hs : (workOps d).step w a = some w') :
    Orderly d w' ∧ Keeps w.db w'.db := by
  obtain ⟨hfresh, rfl⟩ := workOps_step.mp hs
  have hissued := h.issue a.newIds
  cases a with
  | createMeeting call inp =>
    have hends := (createMeeting_ends call inp hissued).1
    unfold WorkOpsAction.perform
    rw [finalState_discard]
    exact ⟨hends.orderly, hends.keeps⟩
  | generate call g =>
    have hends := generate_ends call hissued (h.unissued hfresh)
    unfold WorkOpsAction.perform
    rw [finalState_discard]
    exact ⟨hends.orderly, hends.keeps⟩
  | decide call cmd inp =>
    have hends := decide_ends call cmd inp hissued
    exact ⟨hends.orderly, hends.keeps⟩

theorem orderly_exec (h : Exec (workOps d) es w) : Orderly d w :=
  h.invariant (fun _ hs => hs ▸ orderly_init) (fun _ _ _ hs hstep => (orderly_step hs hstep).1)

end DigitalWorker.WorkOps
