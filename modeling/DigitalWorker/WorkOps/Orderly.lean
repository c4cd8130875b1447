import DigitalWorker.WorkOps.Runs

/-! # What holds between two requests

    The actions of a run that waits for its review are as they were proposed:
    nobody called the tool for them, and the payload of the request shows the
    rows that are still there. A pending request belongs to such a run, and no
    two runs own one action. So a dispatch always begins with its stores in
    order.
-/

namespace DigitalWorker.WorkOps

open Framework Tools

/-! ## The invariant -/

def calledAction (c : ToolCall) : Option String := textField c.rawInput "action_id"

@[simp] theorem calledAction_taskCall (rc : Tools.RunContext) (i : CreateExternalTaskInput) :
    calledAction (taskCall rc i) = some i.actionId.text := rfl

theorem Uuid.text_inj {u v : Uuid} (h : u.text = v.text) : u = v := by
  cases u
  cases v
  simpa using h

structure Unused (d : Deployment) (w : WorkOpsWorld) (id : Uuid) : Prop where
  untouched : Untouched d.tools d.tenantId w.db w.side id
  uncalled : some id.text ∉ w.side.calls.map calledAction

def payloadActions (payload : Dict) : List Dict := dictItems (payload.getD "actions" (.arr []))

structure AtReview (d : Deployment) (w : WorkOpsWorld) (st : WorkOpsState) : Prop where
  nodup : st.resolvedActionIds.Nodup
  unused : ∀ id ∈ st.resolvedActionIds, Unused d w id
  proposed : ∀ id ∈ st.resolvedActionIds, ∀ a, w.db.getAction id = some a → a.status = .proposed
  shown : ∀ id ∈ st.resolvedActionIds, ∀ a, w.db.getAction id = some a →
    payloadEntry d.tools.isoformat a ∈ payloadActions st.approvalPayload

structure Orderly (d : Deployment) (w : WorkOpsWorld) : Prop where
  unique : w.db.UniqueIds
  meetings : (w.db.meetings.map MeetingSession.id).Nodup
  rows : ∀ a ∈ w.db.actions, a.id ∈ w.issued
  unused : ∀ id, id ∉ w.issued → Unused d w id
  runs : ∀ r record, w.runs r = some record →
    r ∈ w.issued ∧ ∀ id ∈ record.state.resolvedActionIds, id ∈ w.issued
  apart : ∀ r record r' record', w.runs r = some record → w.runs r' = some record' →
    ∀ id ∈ record.state.resolvedActionIds, id ∈ record'.state.resolvedActionIds → r = r'
  review : ∀ r record, w.runs r = some record → record.position = .review →
    AtReview d w record.state
  requestRuns : ∀ q ∈ w.requests, ∀ r, q.runId = some r → r ∈ w.issued
  single : ∀ q ∈ w.requests, ∀ q' ∈ w.requests, ∀ r, q.runId = some r → q'.runId = some r →
    q.id = q'.id
  pending : ∀ q ∈ w.requests, q.status = .pending → ∀ r, q.runId = some r →
    ∃ record, w.runs r = some record ∧ record.position = .review ∧
      q.payload = record.state.approvalPayload
  recorded : ∀ a ∈ w.db.actions, a.status = .dispatched → ∃ t ∈ w.db.tasks, t.actionItemId = a.id
  once : (w.side.calls.map calledAction).Nodup

section

variable {d : Deployment} {w w' : WorkOpsWorld} {st : WorkOpsState}

theorem orderly_init : Orderly d {} := by
  constructor
  · exact List.nodup_nil
  · exact List.nodup_nil
  · intro a ha
    cases ha
  · intro id _
    exact ⟨⟨keysUnused_empty _ _ _, (fun t ht => by cases ht), (fun p hp => by cases hp)⟩, by simp⟩
  · intro r record hr
    cases hr
  · intro r record r' record' hr
    cases hr
  · intro r record hr
    cases hr
  · intro q hq
    cases hq
  · intro q hq
    cases hq
  · intro q hq
    cases hq
  · intro a ha
    cases ha
  · exact List.nodup_nil

theorem Unused.of_eq {id : Uuid} (h : Unused d w id) (hside : w'.side = w.side)
    (htasks : w'.db.tasks = w.db.tasks) : Unused d w' id := by
  obtain ⟨⟨hkeys, hrow, htask⟩, hcall⟩ := h
  refine ⟨⟨?_, ?_, ?_⟩, ?_⟩
  · rw [hside]
    exact hkeys
  · rw [htasks]
    exact hrow
  · rw [hside]
    exact htask
  · rw [hside]
    exact hcall

theorem AtReview.of_rows (h : AtReview d w st)
    (hunused : ∀ id ∈ st.resolvedActionIds, Unused d w id → Unused d w' id)
    (hrows : ∀ id ∈ st.resolvedActionIds, ∀ a, w'.db.getAction id = some a →
      w.db.getAction id = some a) : AtReview d w' st :=
  ⟨h.nodup, fun id hid => hunused id hid (h.unused id hid),
    fun id hid a ha => h.proposed id hid a (hrows id hid a ha),
    fun id hid a ha => h.shown id hid a (hrows id hid a ha)⟩

theorem Orderly.issue (h : Orderly d w) (ids : List Uuid) : Orderly d (w.issue ids) where
  unique := h.unique
  meetings := h.meetings
  rows a ha := List.mem_append_right ids (h.rows a ha)
  unused id hid :=
    (h.unused id (fun hold => hid (List.mem_append_right ids hold))).of_eq rfl rfl
  runs r record hr :=
    ⟨List.mem_append_right ids (h.runs r record hr).1,
      fun id hid => List.mem_append_right ids ((h.runs r record hr).2 id hid)⟩
  apart := h.apart
  review r record hr hposition :=
    (h.review r record hr hposition).of_rows (fun _ _ hunused => hunused.of_eq rfl rfl)
      (fun _ _ _ ha => ha)
  requestRuns q hq r hr := List.mem_append_right ids (h.requestRuns q hq r hr)
  single := h.single
  pending := h.pending
  recorded := h.recorded
  once := h.once

theorem Orderly.meetingsChange (h : Orderly d w) {db : WorkOpsDb}
    (hmeetings : (db.meetings.map MeetingSession.id).Nodup) (hactions : db.actions = w.db.actions)
    (htasks : db.tasks = w.db.tasks) : Orderly d { w with db := db } where
  unique := by
    unfold WorkOpsDb.UniqueIds
    rw [hactions]
    exact h.unique
  meetings := hmeetings
  rows a ha := h.rows a (hactions ▸ ha)
  unused id hid := (h.unused id hid).of_eq rfl htasks
  runs := h.runs
  apart := h.apart
  review r record hr hposition := by
    refine (h.review r record hr hposition).of_rows (fun _ _ hunused => hunused.of_eq rfl htasks) ?_
    intro id _ a ha
    unfold WorkOpsDb.getAction at ha ⊢
    rwa [hactions] at ha
  requestRuns := h.requestRuns
  single := h.single
  pending := h.pending
  recorded a ha hstatus := by
    obtain ⟨t, ht, hid⟩ := h.recorded a (hactions ▸ ha) hstatus
    exact ⟨t, htasks ▸ ht, hid⟩
  once := h.once

theorem Orderly.put (h : Orderly d w) {r : Uuid} (record : WorkOpsRun) (hr : r ∈ w.issued)
    (hids : ∀ id ∈ record.state.resolvedActionIds, id ∈ w.issued)
    (happart : ∀ r' record', r' ≠ r → w.runs r' = some record' →
      ∀ id ∈ record.state.resolvedActionIds, id ∉ record'.state.resolvedActionIds)
    (hreview : record.position = .review → AtReview d w record.state)
    (hpending : ∀ q ∈ w.requests, q.status = .pending → q.runId = some r →
      record.position = .review ∧ q.payload = record.state.approvalPayload) :
    Orderly d (w.withRun r record) where
  unique := h.unique
  meetings := h.meetings
  rows := h.rows
  unused id hid := (h.unused id hid).of_eq rfl rfl
  runs r' record' hr' := by
    by_cases hne : r' = r
    · subst hne
      rw [withRun_self] at hr'
      obtain rfl := Option.some.inj hr'
      exact ⟨hr, hids⟩
    · rw [withRun_ne _ hne] at hr'
      exact h.runs r' record' hr'
  apart r₁ record₁ r₂ record₂ h₁ h₂ id hid₁ hid₂ := by
    by_cases hne₁ : r₁ = r <;> by_cases hne₂ : r₂ = r
    · rw [hne₁, hne₂]
    · subst hne₁
      rw [withRun_self] at h₁
      rw [withRun_ne _ hne₂] at h₂
      obtain rfl := Option.some.inj h₁
      exact absurd hid₂ (happart r₂ record₂ hne₂ h₂ id hid₁)
    · subst hne₂
      rw [withRun_self] at h₂
      rw [withRun_ne _ hne₁] at h₁
      obtain rfl := Option.some.inj h₂
      exact absurd hid₁ (happart r₁ record₁ hne₁ h₁ id hid₂)
    · rw [withRun_ne _ hne₁] at h₁
      rw [withRun_ne _ hne₂] at h₂
      exact h.apart r₁ record₁ r₂ record₂ h₁ h₂ id hid₁ hid₂
  review r' record' hr' hposition := by
    have hkeep : ∀ st, AtReview d w st →
        AtReview d (w.withRun r record) st :=
      fun st hst => hst.of_rows (fun _ _ hunused => hunused.of_eq rfl rfl) (fun _ _ _ ha => ha)
    by_cases hne : r' = r
    · subst hne
      rw [withRun_self] at hr'
      obtain rfl := Option.some.inj hr'
      exact hkeep _ (hreview hposition)
    · rw [withRun_ne _ hne] at hr'
      exact hkeep _ (h.review r' record' hr' hposition)
  requestRuns := h.requestRuns
  single := h.single
  pending q hq hstatus r' hr' := by
    by_cases hne : r' = r
    · subst hne
      rw [withRun_self]
      exact ⟨record, rfl, hpending q hq hstatus hr'⟩
    · rw [withRun_ne _ hne]
      exact h.pending q hq hstatus r' hr'
  recorded := h.recorded
  once := h.once

theorem Orderly.move (h : Orderly d w) {r : Uuid} {old record : WorkOpsRun}
    (hold : w.runs r = some old)
    (hids : record.state.resolvedActionIds = old.state.resolvedActionIds)
    (hpassed : record.position ≠ .review)
    (hnone : ∀ q ∈ w.requests, q.status = .pending → q.runId ≠ some r) :
    Orderly d (w.withRun r record) := by
  obtain ⟨hr, howned⟩ := h.runs r old hold
  refine h.put record hr ?_ ?_ ?_ ?_
  · rw [hids]
    exact howned
  · intro r' record' hne hr' id hid hid'
    rw [hids] at hid
    exact hne (h.apart r' record' r old hr' hold id hid' hid)
  · intro hposition
    exact absurd hposition hpassed
  · intro q hq hstatus hrun
    exact absurd hrun (hnone q hq hstatus)

theorem AtReview.inOrder (h : AtReview d w st) (hunique : w.db.UniqueIds) :
    InOrder d.tools d.tenantId w.db w.side st.resolvedActionIds := by
  refine ⟨hunique, ⟨?_, ?_⟩, ?_⟩
  · intro id hid e he
    exact absurd rfl ((h.unused id hid).untouched.noTask (id, e) he)
  · intro id hid a ha hdispatched
    have hproposed := h.proposed id hid a ha
    rw [hdispatched] at hproposed
    cases hproposed
  · intro id hid _ _ _
    exact (h.unused id hid).untouched

end

/-! ## What a dispatch does to the rest -/

section

variable {env : TaskEnv} {rc : Tools.RunContext} {dec : ReviewDecision} {inp : DispatchInput}
  {db : WorkOpsDb} {side : TaskSide} {ids : List Uuid} {st : WorkOpsState}

theorem mem_callsAt {j : Nat} {c : ToolCall} (h : c ∈ callsAt env rc dec inp db ids j) :
    ∃ id a p, ids[j]? = some id ∧ db.getAction id = some a ∧ dec.selects a.id = true ∧
      a.assignee = some p ∧ c = taskCall rc (taskInput env a p) := by
  unfold callsAt at h
  cases hid : ids[j]? with
  | none =>
    rw [hid] at h
    cases h
  | some id =>
    rw [hid] at h
    dsimp only at h
    unfold itemCalls itemReaches at h
    cases hrow : db.getAction id with
    | none =>
      rw [hrow] at h
      cases h
    | some a =>
      rw [hrow] at h
      dsimp only at h
      by_cases hgo : ((inp.fault j .load).isNone && dec.selects a.id && a.status = .proposed &&
          (inp.fault j .save).isNone) = true
      · rw [if_pos hgo] at h
        simp only [Bool.and_eq_true] at hgo
        cases hassignee : a.assignee with
        | none =>
          rw [hassignee] at h
          cases h
        | some p =>
          rw [hassignee] at h
          exact ⟨id, a, p, rfl, hrow, hgo.1.1.2, hassignee, List.mem_singleton.mp h⟩
      · rw [if_neg hgo] at h
        cases h

theorem mem_callsUpTo {n : Nat} {c : ToolCall} (h : c ∈ callsUpTo env rc dec inp db ids n) :
    ∃ j < n, c ∈ callsAt env rc dec inp db ids j := by
  induction n with
  | zero => cases h
  | succ n ih =>
    rw [callsUpTo, List.mem_append] at h
    rcases h with hlast | hbefore
    · exact ⟨n, by omega, hlast⟩
    · obtain ⟨j, hj, hc⟩ := ih hbefore
      exact ⟨j, by omega, hc⟩

theorem callsAt_action {j : Nat} {c : ToolCall} (h : c ∈ callsAt env rc dec inp db ids j) :
    ∃ id, ids[j]? = some id ∧ calledAction c = some id.text := by
  obtain ⟨id, a, p, hid, hrow, _, _, rfl⟩ := mem_callsAt h
  refine ⟨id, hid, ?_⟩
  rw [calledAction_taskCall]
  exact congrArg (fun x : Uuid => some x.text) (WorkOpsDb.getAction_some hrow).2

theorem callsAt_once (j : Nat) :
    ((callsAt env rc dec inp db ids j).map calledAction).Nodup := by
  unfold callsAt
  cases ids[j]? with
  | none => exact List.nodup_nil
  | some id =>
    dsimp only
    unfold itemCalls
    split
    · exact List.nodup_singleton _
    · exact List.nodup_nil

theorem callsUpTo_once (hids : ids.Nodup) (n : Nat) :
    ((callsUpTo env rc dec inp db ids n).map calledAction).Nodup := by
  induction n with
  | zero => exact List.nodup_nil
  | succ n ih =>
    rw [callsUpTo, List.map_append]
    refine List.nodup_append.mpr ⟨callsAt_once n, ih, ?_⟩
    intro x hx y hy hxy
    obtain ⟨c, hc, rfl⟩ := List.mem_map.mp hx
    obtain ⟨c', hc', rfl⟩ := List.mem_map.mp hy
    obtain ⟨j, hj, hc'⟩ := mem_callsUpTo hc'
    obtain ⟨id, hid, haction⟩ := callsAt_action hc
    obtain ⟨id', hid', haction'⟩ := callsAt_action hc'
    rw [haction, haction'] at hxy
    have hsame : id = id' := Uuid.text_inj (Option.some.inj hxy)
    -- two positions of one action
    rw [hsame, ← hid'] at hid
    have hlt : n < ids.length := by
      by_contra hpast
      rw [List.getElem?_eq_none (by omega), hid', eq_comm] at hid
      cases hid
    have := (List.getElem?_inj hlt hids).mp hid
    omega

theorem tasksUpTo_action {n : Nat} {p : Uuid × String}
    (h : p ∈ tasksUpTo env rc dec inp db ids n) : p.1 ∈ ids := by
  induction n with
  | zero => cases h
  | succ n ih =>
    rw [tasksUpTo, List.mem_append] at h
    rcases h with hlast | hbefore
    · have hne : tasksAt env rc dec inp db ids n ≠ [] := List.ne_nil_of_mem hlast
      obtain ⟨id, _, hid, _, _⟩ := tasksAt_spec hne
      rw [tasksAt_action hid hlast]
      exact List.mem_of_getElem? hid
    · exact ih hbefore

/-- What a dispatch leaves, after `n` turns: other rows, tasks and keys are what
    they were, and what it made is about its own actions. -/
structure Beside (env : TaskEnv) (rc : Tools.RunContext) (inp : DispatchInput) (st : WorkOpsState)
    (db : WorkOpsDb) (side : TaskSide) (n : Nat) (s : WorkOpsDb × TaskSide) : Prop where
  unique : s.1.UniqueIds
  keeps : Keeps db s.1
  called : s.2.calls =
    callsUpTo env rc st.approvalDecision inp db st.resolvedActionIds n ++ side.calls
  created : s.2.connector.created =
    tasksUpTo env rc st.approvalDecision inp db st.resolvedActionIds n ++ side.connector.created
  otherRows : ∀ id, id ∉ st.resolvedActionIds → s.1.getAction id = db.getAction id
  otherTasks : ∀ t, t.actionItemId ∉ st.resolvedActionIds → (t ∈ s.1.tasks ↔ t ∈ db.tasks)
  otherKeys : ∀ id, id ∉ st.resolvedActionIds →
    KeysUnused env rc.tenantId id side → KeysUnused env rc.tenantId id s.2
  recorded : ∀ id ∈ st.resolvedActionIds, ∀ a, s.1.getAction id = some a →
    a.status = .dispatched → db.getAction id = some a ∨ ∃ t ∈ s.1.tasks, t.actionItemId = id

/-- **The node beside the rest**. -/
theorem dispatchTasks_beside (rc : Tools.RunContext) (inp : DispatchInput) (hids : st.resolvedActionIds.Nodup)
    (h : InOrder env rc.tenantId db side st.resolvedActionIds) :
    ∃ n, Beside env rc inp st db side n (finalState (dispatchTasks env rc inp st) (db, side)) := by
  rcases dispatchTasks_ends inp hids h with ⟨hat, _⟩ | ⟨n, hundone⟩
  · refine ⟨_, hat.order.unique, hat.keeps, hat.called, hat.created, hat.otherRows,
      hat.otherTasks, hat.otherKeys, ?_⟩
    -- a dispatched action of the list has a task, and the task is on record
    intro id hid a ha hdispatched
    obtain ⟨e, he⟩ := hat.order.books.real id hid a ha hdispatched
    obtain ⟨_, t, _, _, ht, hown, _⟩ := hat.order.books.recorded id hid e he
    exact .inr ⟨t, ht, hown⟩
  · have htables := hundone.tables
    refine ⟨n, ?_, ?_, hundone.called, hundone.created, ?_, ?_, hundone.otherKeys, ?_⟩
    · rw [htables]
      exact h.unique
    · rw [htables]
      exact .refl db
    · intro id _
      rw [htables]
    · intro t _
      rw [htables]
    · intro id _ a ha _
      rw [htables] at ha
      exact .inl ha

theorem onDb_meetings {fault : Option Raised} {f : WorkOpsDb → Except Raised WorkOpsDb}
    {s : WorkOpsDb × TaskSide} (hf : ∀ db db', f db = .ok db' → db'.meetings = db.meetings) :
    Ends (onDb fault f) s (fun _ s' => s'.1.meetings = s.1.meetings)
      (fun _ s' => s'.1.meetings = s.1.meetings) :=
  ends_onDb.mpr ⟨fun _ _ => rfl, fun _ => ⟨fun _ hdb => hf _ _ hdb, fun _ _ => rfl⟩⟩

theorem saveAction_meetings {db' : WorkOpsDb} {a : ActionItem} (h : db.saveAction a = .ok db') :
    db'.meetings = db.meetings := by
  unfold WorkOpsDb.saveAction at h
  split at h
  · obtain rfl := Except.ok.inj h
    rfl
  · cases h

theorem recordExternalTask_meetings {db' : WorkOpsDb} {t : ExternalTask}
    (h : db.recordExternalTask t = .ok db') : db'.meetings = db.meetings := by
  unfold WorkOpsDb.recordExternalTask at h
  split at h
  · cases h
  · split at h
    · obtain rfl := Except.ok.inj h
      rfl
    · obtain rfl := Except.ok.inj h
      rfl

theorem dispatchItem_meetings {k : Nat} {id : Uuid} {s : WorkOpsDb × TaskSide} :
    Ends (dispatchItem env rc dec inp k id) s (fun _ s' => s'.1.meetings = s.1.meetings)
      (fun _ s' => s'.1.meetings = s.1.meetings) := by
  have hsave : ∀ fault a s, Ends (onDb fault (·.saveAction a)) s
      (fun _ s' => s'.1.meetings = s.1.meetings) (fun _ s' => s'.1.meetings = s.1.meetings) :=
    fun _ _ _ => onDb_meetings (fun _ _ h => saveAction_meetings h)
  unfold dispatchItem
  simp only [ends_bind, ends_raise?, ends_get]
  refine ⟨fun _ => ?_, fun _ _ => trivial⟩
  cases s.1.getAction id with
  | none => trivial
  | some a =>
    dsimp only
    split
    · cases a.assignee with
      | none => trivial
      | some p =>
        dsimp only
        unfold dispatchApproved
        simp only [ends_bind, ends_fromExcept]
        refine ⟨fun approved _ => ?_, fun _ _ => trivial⟩
        refine (hsave _ approved s).mono (fun _ s₁ h₁ => ?_) (fun _ _ he => he)
        refine ends_onTool.mpr ⟨fun ref _ => ⟨fun marked _ => ?_, fun _ _ => h₁⟩, fun _ _ => h₁⟩
        refine (hsave _ marked _).mono (fun _ s₂ h₂ => ?_) (fun _ _ he => he.trans h₁)
        refine (onDb_meetings (fun _ _ h => recordExternalTask_meetings h)).mono
          (fun _ s₃ h₃ => ?_) (fun _ _ he => he.trans (h₂.trans h₁))
        exact h₃.trans (h₂.trans h₁)
    · unfold rejectItem
      simp only [ends_bind, ends_fromExcept]
      refine ⟨fun rejected _ => ?_, fun _ _ => trivial⟩
      exact (hsave _ rejected s).mono (fun _ _ h => h) (fun _ _ h => h)

theorem dispatchTasks_meetings (env : TaskEnv) (rc : Tools.RunContext) (inp : DispatchInput)
    (st : WorkOpsState) (db : WorkOpsDb) (side : TaskSide) :
    (finalState (dispatchTasks env rc inp st) (db, side)).1.meetings = db.meetings := by
  refine Ends.final (P := fun s : WorkOpsDb × TaskSide => s.1.meetings = db.meetings)
    (ends_transact.mpr ?_)
  have hloop : Ends (dispatchLoop env rc st.approvalDecision inp st.resolvedActionIds) (db, side)
      (fun _ s => s.1.meetings = db.meetings) (fun _ s => s.1.meetings = db.meetings) := by
    refine Ends.forEach (I := fun _ (s : WorkOpsDb × TaskSide) => s.1.meetings = db.meetings) ?_ rfl
    intro i id s _ hs
    exact dispatchItem_meetings.mono (fun _ _ h => h.trans hs) (fun _ _ h => h.trans hs)
  exact hloop.mono (fun _ _ h => ⟨fun _ => h, fun _ => rfl, fun _ => h⟩) (fun _ _ _ => rfl)

end

/-! ## Deciding keeps the order -/

variable {d : Deployment} {w : WorkOpsWorld}

theorem Orderly.dispatched (h : Orderly d w) {r : Uuid} {record : WorkOpsRun}
    {rc : Tools.RunContext} (hrc : rc.tenantId = d.tenantId) (hr : w.runs r = some record)
    (hpassed : record.position ≠ .review) (hst : AtReview d w record.state) {inp : DispatchInput}
    {n : Nat} {s : WorkOpsDb × TaskSide}
    (hs : Beside d.tools rc inp record.state w.db w.side n s)
    (hmeetings : s.1.meetings = w.db.meetings) :
    Orderly d { w with db := s.1, side := s.2 } := by
  have hother : ∀ id, id ∉ record.state.resolvedActionIds → Unused d w id →
      Unused d { w with db := s.1, side := s.2 } id := by
    intro id hid hunused
    obtain ⟨⟨hkeys, hrow, htask⟩, hcall⟩ := hunused
    refine ⟨⟨?_, ?_, ?_⟩, ?_⟩
    · rw [← hrc] at hkeys ⊢
      exact hs.otherKeys id hid hkeys
    · intro t ht hown
      have hnot : t.actionItemId ∉ record.state.resolvedActionIds := by rwa [hown]
      exact hrow t ((hs.otherTasks t hnot).mp ht) hown
    · intro p hp hown
      dsimp only at hp
      rw [hs.created, List.mem_append] at hp
      rcases hp with hnew | hold
      · exact hid (hown ▸ tasksUpTo_action hnew)
      · exact htask p hold hown
    · dsimp only
      rw [hs.called, List.map_append, List.mem_append, not_or]
      refine ⟨?_, hcall⟩
      intro hmem
      obtain ⟨c, hc, haction⟩ := List.mem_map.mp hmem
      obtain ⟨j, _, hc⟩ := mem_callsUpTo hc
      obtain ⟨id', hid', hown⟩ := callsAt_action hc
      rw [hown] at haction
      rw [Uuid.text_inj (Option.some.inj haction)] at hid'
      exact hid (List.mem_of_getElem? hid')
  refine
    { unique := hs.unique, meetings := ?_, rows := ?_, unused := ?_, runs := h.runs
      apart := h.apart, review := ?_, requestRuns := h.requestRuns, single := h.single
      pending := h.pending, recorded := ?_, once := ?_ }
  · dsimp only
    rw [hmeetings]
    exact h.meetings
  · intro a ha
    by_cases hid : a.id ∈ record.state.resolvedActionIds
    · exact (h.runs r record hr).2 a.id hid
    · have hread := hs.unique.getAction ha
      rw [hs.otherRows a.id hid] at hread
      exact h.rows a (WorkOpsDb.getAction_some hread).1
  · intro id hid
    exact hother id (fun hmem => hid ((h.runs r record hr).2 id hmem)) (h.unused id hid)
  · intro r' record' hr' hposition
    have hne : r' ≠ r := by
      rintro rfl
      obtain rfl := Option.some.inj (hr'.symm.trans hr)
      exact hpassed hposition
    have hdisjoint : ∀ id ∈ record'.state.resolvedActionIds,
        id ∉ record.state.resolvedActionIds :=
      fun id hid' hid => hne (h.apart r' record' r record hr' hr id hid' hid)
    refine (h.review r' record' hr' hposition).of_rows
      (fun id hid => hother id (hdisjoint id hid)) ?_
    intro id hid a ha
    rwa [← hs.otherRows id (hdisjoint id hid)]
  · intro a ha hdispatched
    have hread := hs.unique.getAction ha
    by_cases hid : a.id ∈ record.state.resolvedActionIds
    · rcases hs.recorded a.id hid a hread hdispatched with hold | hrecorded
      · -- the actions of the run were proposed
        have hproposed := hst.proposed a.id hid a hold
        rw [hdispatched] at hproposed
        cases hproposed
      · exact hrecorded
    · rw [hs.otherRows a.id hid] at hread
      obtain ⟨t, ht, hown⟩ := h.recorded a (WorkOpsDb.getAction_some hread).1 hdispatched
      exact ⟨t, hs.keeps.tasks t ht, hown⟩
  · dsimp only
    rw [hs.called, List.map_append]
    refine List.nodup_append.mpr ⟨callsUpTo_once hst.nodup n, h.once, ?_⟩
    intro x hx y hy hxy
    obtain ⟨c, hc, rfl⟩ := List.mem_map.mp hx
    obtain ⟨j, _, hc⟩ := mem_callsUpTo hc
    obtain ⟨id, hid, hown⟩ := callsAt_action hc
    have huncalled := (hst.unused id (List.mem_of_getElem? hid)).uncalled
    rw [← hown, hxy] at huncalled
    exact huncalled hy

theorem Orderly.decided (h : Orderly d w) {call : Call} {cmd : DecideCommand}
    {q : ApprovalRequest} (hq : q ∈ w.requests) {saved : List ApprovalRequest}
    (decisions : List ApprovalDecision)
    (hsave : saveRequest w.requests (decidedRequest call cmd q) = .ok saved) :
    Orderly d { w with requests := saved, decisions := decisions } ∧
      ∀ q' ∈ saved, q'.status = .pending → ∀ r, q.runId = some r → q'.runId ≠ some r := by
  have hdecided : (decidedRequest call cmd q).status ≠ .pending := by
    show (if cmd.approve then ApprovalStatus.approved else .rejected) ≠ .pending
    cases cmd.approve <;> simp
  have hpending : ∀ q' ∈ saved, q'.status = .pending → q' ∈ w.requests ∧ q'.id ≠ q.id := by
    intro q' hq' hstatus
    obtain ⟨q₀, hq₀, _, _, _, _, _, _, hif⟩ := saveRequest_mem hsave hq'
    by_cases hid : q₀.id = (decidedRequest call cmd q).id
    · rw [if_pos hid] at hif
      rw [hif] at hstatus
      exact absurd hstatus hdecided
    · rw [if_neg hid] at hif
      rw [hif]
      exact ⟨hq₀, hid⟩
  refine ⟨{ h with
    unused := fun id hid => (h.unused id hid).of_eq rfl rfl
    review := fun r record hr hposition =>
      (h.review r record hr hposition).of_rows (fun _ _ hu => hu.of_eq rfl rfl) (fun _ _ _ ha => ha)
    requestRuns := ?_, single := ?_, pending := ?_ }, ?_⟩
  · intro q' hq' r hr
    obtain ⟨q₀, hq₀, _, _, hrun, _⟩ := saveRequest_mem hsave hq'
    exact h.requestRuns q₀ hq₀ r (hrun ▸ hr)
  · intro q₁ hq₁ q₂ hq₂ r hr₁ hr₂
    obtain ⟨p₁, hp₁, hid₁, _, hrun₁, _⟩ := saveRequest_mem hsave hq₁
    obtain ⟨p₂, hp₂, hid₂, _, hrun₂, _⟩ := saveRequest_mem hsave hq₂
    rw [hid₁, hid₂]
    exact h.single p₁ hp₁ p₂ hp₂ r (hrun₁ ▸ hr₁) (hrun₂ ▸ hr₂)
  · intro q' hq' hstatus r hr
    exact h.pending q' (hpending q' hq' hstatus).1 hstatus r hr
  · intro q' hq' hstatus r hr hr'
    obtain ⟨hmem, hne⟩ := hpending q' hq' hstatus
    exact hne (h.single q' hmem q hq r hr' hr)

theorem saveMeeting_ok {db db' : WorkOpsDb} {m : MeetingSession} (h : db.saveMeeting m = .ok db') :
    db'.actions = db.actions ∧ db'.tasks = db.tasks ∧
      db'.meetings.map MeetingSession.id = db.meetings.map MeetingSession.id ∧
      ∀ x ∈ db'.meetings, x ∈ db.meetings ∨ x = m := by
  unfold WorkOpsDb.saveMeeting at h
  split at h
  swap
  · cases h
  obtain rfl := Except.ok.inj h
  refine ⟨rfl, rfl, ?_, ?_⟩
  · show (Rows.update MeetingSession.id m.id _ db.meetings).map MeetingSession.id = _
    unfold Rows.update
    rw [List.map_map]
    refine List.map_congr_left (fun r _ => ?_)
    show MeetingSession.id (if r.id = m.id then if r.version + 1 = m.version then m else r else r) = _
    by_cases hid : r.id = m.id
    · rw [if_pos hid]
      split
      · exact hid.symm
      · rfl
    · rw [if_neg hid]
  · intro x hx
    rcases Rows.mem_update.mp hx with ⟨hx, _⟩ | ⟨r, hr, _, rfl⟩
    · exact .inl hx
    · split
      · exact .inr rfl
      · exact .inl hr

theorem closeMeeting_tables (inp : CloseInput) (st : WorkOpsState) (db : WorkOpsDb) :
    (closeMeeting inp st db).1.actions = db.actions ∧
      (closeMeeting inp st db).1.tasks = db.tasks ∧
      (closeMeeting inp st db).1.meetings.map MeetingSession.id =
        db.meetings.map MeetingSession.id ∧
      ∀ m ∈ (closeMeeting inp st db).1.meetings, m.status = .processing → m ∈ db.meetings := by
  have hsame : db.actions = db.actions ∧ db.tasks = db.tasks ∧
      db.meetings.map MeetingSession.id = db.meetings.map MeetingSession.id ∧
      ∀ m ∈ db.meetings, m.status = .processing → m ∈ db.meetings :=
    ⟨rfl, rfl, rfl, fun _ hm _ => hm⟩
  unfold closeMeeting
  dsimp only
  split
  · exact hsame
  · next db' hdb' =>
    have hclosed : db'.actions = db.actions ∧ db'.tasks = db.tasks ∧
        db'.meetings.map MeetingSession.id = db.meetings.map MeetingSession.id ∧
        ∀ m ∈ db'.meetings, m.status = .processing → m ∈ db.meetings := by
      unfold statement at hdb'
      cases hfault : inp.fault with
      | some e =>
        rw [hfault] at hdb'
        cases hdb'
      | none =>
        rw [hfault] at hdb'
        dsimp only at hdb'
        cases hm : db.getMeeting st.meetingId with
        | none =>
          rw [hm] at hdb'
          obtain rfl := Except.ok.inj hdb'
          exact hsame
        | some meeting =>
          rw [hm] at hdb'
          obtain ⟨hactions, htasks, hids, hmem⟩ := saveMeeting_ok hdb'
          refine ⟨hactions, htasks, hids, fun m hmem' hstatus => ?_⟩
          rcases hmem m hmem' with hold | rfl
          · exact hold
          · cases hstatus
    split
    · exact hclosed
    · exact hsame
    · exact hclosed

def Shows (entry : Dict) (c : ToolCall) : Prop :=
  ∃ i : CreateExternalTaskInput, c = taskCall c.runContext i ∧
    entry.get? "action_id" = some (.str i.actionId.text) ∧
    entry.get? "title" = some (.str i.title) ∧
    entry.get? "assignee" = some (.str i.assigneeDisplayName)

/-- The call is covered by a decision that turned `w` into `w'`: it approves the
    request of the run the call is made in, the payload of the request shows the
    call, and if ids are listed, the action is among them. -/
structure Sanctioned (w : WorkOpsWorld) (cmd : DecideCommand) (approved : Option (List String))
    (w' : WorkOpsWorld) (c : ToolCall) : Prop where
  approve : cmd.approve = true
  request : ∃ q, getRequest w.requests cmd.approvalId = some q ∧
    q.runId = some c.runContext.runId ∧
    (∃ q' ∈ w'.requests, q'.id = q.id ∧ q'.status = .approved) ∧
    ∃ entry ∈ payloadActions q.payload, Shows entry c
  listed : ∀ ids, approved = some ids → ∃ id ∈ ids, calledAction c = some id

structure DecideEnds (d : Deployment) (w : WorkOpsWorld) (cmd : DecideCommand)
    (approved : Option (List String)) (w' : WorkOpsWorld) : Prop where
  orderly : Orderly d w'
  keeps : Keeps w.db w'.db
  processing : ∀ m ∈ w'.db.meetings, m.status = .processing → m ∈ w.db.meetings
  called : ∀ c ∈ w'.side.calls, c ∈ w.side.calls ∨ Sanctioned w cmd approved w' c

structure Underway (d : Deployment) (w : WorkOpsWorld) (cmd : DecideCommand)
    (approved : Option (List String)) (r : Uuid) (ids : List Uuid) (w' : WorkOpsWorld) : Prop
    extends DecideEnds d w cmd approved w' where
  left : ∀ q ∈ w'.requests, q.status = .pending → q.runId ≠ some r
  row : ∃ record, w'.runs r = some record ∧ record.state.resolvedActionIds = ids

variable {cmd : DecideCommand} {inp : DecideInput} {r : Uuid} {ids : List Uuid}
  {record : WorkOpsRun} {w' : WorkOpsWorld}

theorem Underway.put (h : Underway d w cmd inp.approvedActionIds r ids w') (record : WorkOpsRun)
    (hids : record.state.resolvedActionIds = ids) (hpassed : record.position ≠ .review) :
    Underway d w cmd inp.approvedActionIds r ids (w'.withRun r record) := by
  obtain ⟨old, hold, holdIds⟩ := h.row
  exact
    { orderly := h.orderly.move hold (hids.trans holdIds.symm) hpassed h.left
      keeps := h.keeps
      processing := h.processing
      called := fun c hc => (h.called c hc).imp id (fun hs => ⟨hs.approve, hs.request, hs.listed⟩)
      left := h.left
      row := ⟨record, withRun_self w' r record, hids⟩ }

theorem settleRun_ends (h : Underway d w cmd inp.approvedActionIds r ids w')
    (hids : record.state.resolvedActionIds = ids) :
    Ends (settleRun inp r record) w' (fun _ => Underway d w cmd inp.approvedActionIds r ids)
      (fun _ => Underway d w cmd inp.approvedActionIds r ids) := by
  unfold settleRun
  simp only [ends_bind, ends_raise?, ends_putRun]
  have hput := h.put { record with position := .finished, status := .completed } hids (by simp)
  exact ⟨fun _ => ⟨fun _ => hput, fun _ _ => hput⟩, fun _ _ => h⟩

theorem closeRun_ends (h : Underway d w cmd inp.approvedActionIds r ids w')
    (hids : record.state.resolvedActionIds = ids) :
    Ends (closeRun inp r record) w' (fun _ => Underway d w cmd inp.approvedActionIds r ids)
      (fun _ => Underway d w cmd inp.approvedActionIds r ids) := by
  obtain ⟨hactions, htasks, hmeetings, hprocessing⟩ :=
    closeMeeting_tables inp.close record.state w'.db
  have hclosed : Underway d w cmd inp.approvedActionIds r ids
      { w' with db := (closeMeeting inp.close record.state w'.db).1 } :=
    { orderly := h.orderly.meetingsChange (by rw [hmeetings]; exact h.orderly.meetings)
        hactions htasks
      keeps := by
        refine h.keeps.trans ⟨fun a ha _ => ?_, fun t ht => ?_⟩
        · rw [hactions]
          exact ha
        · rw [htasks]
          exact ht
      processing := fun m hm hstatus => h.processing m (hprocessing m hm hstatus) hstatus
      called := fun c hc => (h.called c hc).imp id (fun hs => ⟨hs.approve, hs.request, hs.listed⟩)
      left := h.left
      row := h.row }
  unfold closeRun
  simp only [ends_bind, ends_get, ends_set, ends_fromExcept, ends_putRun]
  refine ⟨fun _ _ => ?_, fun _ _ => hclosed⟩
  exact settleRun_ends (hclosed.put { record with position := .finished } hids (by simp))
    hids

theorem AtReview.of_eq {st : WorkOpsState} (h : AtReview d w st) (hside : w'.side = w.side)
    (hdb : w'.db = w.db) : AtReview d w' st := by
  refine h.of_rows (fun _ _ hunused => hunused.of_eq hside (by rw [hdb])) ?_
  intro id _ a ha
  rwa [hdb] at ha

theorem sanctioned_call {call : Call} {q : ApprovalRequest} {n : Nat} {c : ToolCall}
    (hst : AtReview d w' record.state) (hq : getRequest w.requests cmd.approvalId = some q)
    (hrun : q.runId = some r) (hpayload : q.payload = record.state.approvalPayload)
    (hdecision : record.state.approvalDecision =
      { approved := cmd.approve, approvedActionIds := inp.approvedActionIds })
    (hstored : cmd.approve = true → ∃ q' ∈ w'.requests, q'.id = q.id ∧ q'.status = .approved)
    (hc : c ∈ callsUpTo d.tools (resumeContext d call r record) record.state.approvalDecision
      inp.dispatch w'.db record.state.resolvedActionIds n) :
    Sanctioned w cmd inp.approvedActionIds w' c := by
  obtain ⟨j, _, hc⟩ := mem_callsUpTo hc
  obtain ⟨id, a, p, hid, hrow, hselected, hassignee, rfl⟩ := mem_callsAt hc
  have hmem : id ∈ record.state.resolvedActionIds := List.mem_of_getElem? hid
  rw [hdecision] at hselected
  unfold ReviewDecision.selects at hselected
  rw [Bool.and_eq_true] at hselected
  obtain ⟨happrove, hlisted⟩ := hselected
  refine ⟨happrove, ⟨q, hq, hrun, hstored happrove, ?_⟩, ?_⟩
  · -- the row is as the payload shows it
    refine ⟨payloadEntry d.tools.isoformat a, ?_, taskInput d.tools a p, rfl, rfl, rfl, ?_⟩
    · rw [hpayload]
      exact hst.shown id hmem a hrow
    · show some (optionalText (a.assignee.map (·.displayName))) = _
      rw [hassignee]
      rfl
  · intro ids hids
    dsimp only at hlisted
    rw [hids] at hlisted
    exact ⟨a.id.text, by simpa using hlisted, calledAction_taskCall _ _⟩

theorem dispatchRun_ends {call : Call} {q : ApprovalRequest}
    (h : Underway d w cmd inp.approvedActionIds r record.state.resolvedActionIds w')
    (hrow : w'.runs r = some record) (hpassed : record.position ≠ .review)
    (hst : AtReview d w' record.state) (hside : w'.side = w.side)
    (hq : getRequest w.requests cmd.approvalId = some q) (hrun : q.runId = some r)
    (hpayload : q.payload = record.state.approvalPayload)
    (hdecision : record.state.approvalDecision =
      { approved := cmd.approve, approvedActionIds := inp.approvedActionIds })
    (hstored : cmd.approve = true → ∃ q' ∈ w'.requests, q'.id = q.id ∧ q'.status = .approved) :
    Ends (dispatchRun d call inp r record) w'
      (fun _ => Underway d w cmd inp.approvedActionIds r record.state.resolvedActionIds)
      (fun _ => Underway d w cmd inp.approvedActionIds r record.state.resolvedActionIds) := by
  have horder := hst.inOrder h.orderly.unique
  obtain ⟨n, hs⟩ := dispatchTasks_beside (resumeContext d call r record) inp.dispatch
    hst.nodup horder
  have hmeetings := dispatchTasks_meetings d.tools (resumeContext d call r record) inp.dispatch
    record.state w'.db w'.side
  generalize hfinal : finalState (dispatchTasks d.tools (resumeContext d call r record) inp.dispatch
    record.state) (w'.db, w'.side) = s at hs hmeetings
  have hafter : Underway d w cmd inp.approvedActionIds r record.state.resolvedActionIds
      { w' with db := s.1, side := s.2 } :=
    { orderly := h.orderly.dispatched rfl hrow hpassed hst hs hmeetings
      keeps := h.keeps.trans hs.keeps
      processing := fun m hm hstatus => h.processing m (hmeetings ▸ hm) hstatus
      called := by
        intro c hc
        dsimp only at hc
        rw [hs.called, List.mem_append, hside] at hc
        rcases hc with hnew | hold
        · have hcovered := sanctioned_call hst hq hrun hpayload hdecision hstored hnew
          exact .inr ⟨hcovered.approve, hcovered.request, hcovered.listed⟩
        · exact .inl hold
      left := h.left
      row := h.row }
  have hends : Ends (onStores (dispatchTasks d.tools (resumeContext d call r record) inp.dispatch
      record.state)) w'
      (fun _ => Underway d w cmd inp.approvedActionIds r record.state.resolvedActionIds)
      (fun _ => Underway d w cmd inp.approvedActionIds r record.state.resolvedActionIds) := by
    refine ends_onStores.mpr (Ends.of_final (P := fun s : WorkOpsDb × TaskSide =>
      Underway d w cmd inp.approvedActionIds r record.state.resolvedActionIds
        { w' with db := s.1, side := s.2 }) ?_)
    rw [hfinal]
    exact hafter
  unfold dispatchRun
  refine Ends.bind (hends.mono (fun _ w₁ h₁ => ?_) (fun _ _ he => he))
  simp only [ends_bind, ends_putRun]
  exact closeRun_ends (h₁.put { record with position := .closing } rfl (by simp)) rfl

theorem resumeRun_ends {call : Call} {q : ApprovalRequest}
    (h : DecideEnds d w cmd inp.approvedActionIds w') (hside : w'.side = w.side)
    (hq : getRequest w.requests cmd.approvalId = some q) (hrun : q.runId = some r)
    (hrow : w'.runs r = some record) (hreview : record.position = .review)
    (hpayload : q.payload = record.state.approvalPayload)
    (hleft : ∀ q' ∈ w'.requests, q'.status = .pending → q'.runId ≠ some r)
    (hstored : cmd.approve = true → ∃ q' ∈ w'.requests, q'.id = q.id ∧ q'.status = .approved) :
    Ends (resumeRun d call cmd inp r) w' (fun _ => DecideEnds d w cmd inp.approvedActionIds)
      (fun _ => DecideEnds d w cmd inp.approvedActionIds) := by
  unfold resumeRun
  simp only [ends_bind, ends_get, hrow]
  by_cases hstatus : record.status ≠ .waitingApproval
  · rw [if_pos hstatus]
    exact h
  rw [if_neg hstatus]
  simp only [ends_bind, ends_raise?, hreview, ends_putRun]
  refine ⟨fun _ => ⟨fun _ => ?_, fun _ _ => h⟩, fun _ _ => h⟩
  -- the run leaves its review with the answer
  have hst := h.orderly.review r record hrow hreview
  have hunderway : Underway d w cmd inp.approvedActionIds r record.state.resolvedActionIds w' :=
    { h with left := hleft, row := ⟨record, hrow, rfl⟩ }
  generalize hanswer : record.answered
    { approved := cmd.approve, approvedActionIds := inp.approvedActionIds } = answered
  have hids : answered.state.resolvedActionIds = record.state.resolvedActionIds := by
    rw [← hanswer]
    rfl
  have hpassed : answered.position ≠ .review := by
    rw [← hanswer]
    simp [WorkOpsRun.answered]
  have hst' : AtReview d w' answered.state := by
    rw [← hanswer]
    exact ⟨hst.nodup, hst.unused, hst.proposed, hst.shown⟩
  have hanswered := hunderway.put answered hids hpassed
  rw [← hids] at hanswered
  refine (dispatchRun_ends hanswered (withRun_self w' r answered) hpassed
    (hst'.of_eq rfl rfl) hside hq hrun ?_ ?_ hstored).mono ?_ ?_
  · rw [← hanswer]
    exact hpayload
  · rw [← hanswer]
    rfl
  · exact fun _ _ hend => hend.toDecideEnds
  · exact fun _ _ hend => hend.toDecideEnds

/-- **Deciding**: whatever the decision, and wherever it ends, the world stays in
    order, and every new call of the tool is covered. -/
theorem decide_ends (call : Call) (cmd : DecideCommand) (inp : DecideInput) (h : Orderly d w) :
    DecideEnds d w cmd inp.approvedActionIds (finalState (decide d call cmd inp) w) := by
  have hsame : DecideEnds d w cmd inp.approvedActionIds w :=
    ⟨h, .refl _, fun _ hm _ => hm, fun _ hc => .inl hc⟩
  refine Ends.final ?_
  unfold decide
  simp only [ends_bind, ends_get, ends_checked, ends_set]
  refine ⟨fun result hresult => ?_, fun _ _ => hsame⟩
  obtain ⟨saved, decision, decided⟩ := result
  obtain ⟨q, hq, hpending, _, rfl, _, hsave⟩ := decideRequest_ok.mp hresult
  obtain ⟨hmem, hid⟩ := getRequest_mem hq
  obtain ⟨horderly, hleft⟩ := h.decided hmem (decision :: w.decisions) hsave
  have hstart : DecideEnds d w cmd inp.approvedActionIds
      { w with requests := saved, decisions := decision :: w.decisions } :=
    ⟨horderly, .refl _, fun _ hm _ => hm, fun _ hc => .inl hc⟩
  dsimp only
  cases hrun : (decidedRequest call cmd q).runId with
  | none => exact hstart
  | some r =>
    have hrun' : q.runId = some r := hrun
    obtain ⟨record, hrow, hreview, hpayload⟩ := h.pending q hmem hpending r hrun'
    refine resumeRun_ends hstart rfl hq hrun' hrow hreview hpayload
      (fun q' hq' hstatus => hleft q' hq' hstatus r hrun') ?_
    intro happrove
    have hids := saveRequest_ids hsave
    have hstored : q.id ∈ saved.map (·.id) := by
      rw [hids]
      exact List.mem_map_of_mem hmem
    obtain ⟨q', hq', hid'⟩ := List.mem_map.mp hstored
    obtain ⟨q₀, _, hid₀, _, _, _, _, _, hif⟩ := saveRequest_mem hsave hq'
    have hsame : q₀.id = (decidedRequest call cmd q).id := hid₀.symm.trans hid'
    rw [if_pos hsame] at hif
    refine ⟨q', hq', hid', hif.trans ?_⟩
    show (if cmd.approve then ApprovalStatus.approved else .rejected) = .approved
    rw [happrove]
    rfl

end DigitalWorker.WorkOps
