import DigitalWorker.WorkOps.Nodes

/-! # Bookkeeping of the dispatch node

    Tasks are created one by one in the external system; the statuses that say so
    are committed together at the end. An exception in between gives the statuses
    back and keeps the tasks.
-/

namespace DigitalWorker.WorkOps

open Framework Tools

/-! ## What one turn does -/

section

variable (env : TaskEnv) (rc : Tools.RunContext) (d : ReviewDecision) (inp : DispatchInput) (k : Nat)

def itemReaches (row : Option ActionItem) : Option CreateExternalTaskInput :=
  match row with
  | none => none
  | some a =>
    if (inp.fault k .load).isNone && d.selects a.id && a.status = .proposed &&
        (inp.fault k .save).isNone then a.assignee.map (taskInput env a)
    else none

def itemTasks (row : Option ActionItem) : List (Uuid × String) :=
  match itemReaches env d inp k row with
  | some i => toolTasks env rc i (inp.tool k)
  | none => []

def itemCalls (row : Option ActionItem) : List ToolCall :=
  match itemReaches env d inp k row with
  | some i => [taskCall rc i]
  | none => []

def itemRaises (row : Option ActionItem) : Bool :=
  (inp.fault k .load).isSome ||
    match row with
    | none => false
    | some a =>
      if d.selects a.id then
        match a.assignee with
        | none => false
        | some p => a.status ≠ .proposed || (inp.fault k .save).isSome ||
            !(toolResult env rc (taskInput env a p) (inp.tool k)).isOk ||
            (inp.fault k .saveDispatched).isSome || (inp.fault k .recordTask).isSome
      else a.status ≠ .proposed || (inp.fault k .save).isSome

end

structure Untouched (env : TaskEnv) (tenantId : Uuid) (db : WorkOpsDb) (w : TaskSide) (id : Uuid) :
    Prop where
  keys : KeysUnused env tenantId id w
  noRow : ∀ t ∈ db.tasks, t.actionItemId ≠ id
  noTask : ∀ p ∈ w.connector.created, p.1 ≠ id

def Fresh (env : TaskEnv) (tenantId : Uuid) (db : WorkOpsDb) (w : TaskSide) (id : Uuid) : Prop :=
  ∀ a, db.getAction id = some a → a.status = .proposed → Untouched env tenantId db w id

/-- What a turn for `id` does outside: it makes the `calls` and creates the `tasks`,
    and leaves other keys unused, and its own if it creates nothing. -/
structure SideStep (env : TaskEnv) (tenantId id : Uuid) (tasks : List (Uuid × String))
    (calls : List ToolCall) (w w' : TaskSide) : Prop where
  called : w'.calls = calls ++ w.calls
  created : w'.connector.created = tasks ++ w.connector.created
  action : ∀ p ∈ tasks, p.1 = id
  others : ∀ id', id' ≠ id → KeysUnused env tenantId id' w → KeysUnused env tenantId id' w'
  own : tasks = [] → KeysUnused env tenantId id w → KeysUnused env tenantId id w'

/-- What a turn that returns has made of its action. -/
inductive Settled (id : Uuid) (tasks : List (Uuid × String)) (db db' : WorkOpsDb) : Prop where
  | same : tasks = [] → db' = db → Settled id tasks db db'
  | rejected (a₀ a : ActionItem) : tasks = [] → db'.tasks = db.tasks →
      db.getAction id = some a₀ → a₀.status = .proposed →
      db'.getAction id = some a → a.status = .rejected → Settled id tasks db db'
  | dispatched (a₀ a : ActionItem) (t : ExternalTask) : db.getAction id = some a₀ →
      a₀.status = .proposed → db'.getAction id = some a → a.status = .dispatched →
      t ∈ db'.tasks → t.actionItemId = id → (id, t.externalId) ∈ tasks → Settled id tasks db db'

/-- What a turn that returns does to the tables. -/
structure DbStep (id : Uuid) (tasks : List (Uuid × String)) (db db' : WorkOpsDb) : Prop where
  unique : db'.UniqueIds
  others : ∀ id', id' ≠ id → db'.getAction id' = db.getAction id'
  otherTasks : ∀ t, t.actionItemId ≠ id → (t ∈ db'.tasks ↔ t ∈ db.tasks)
  settled : Settled id tasks db db'

section

variable {env : TaskEnv} {rc : Tools.RunContext} {d : ReviewDecision} {inp : DispatchInput} {k : Nat}
  {id : Uuid} {s : WorkOpsDb × TaskSide} {Q : Unit → WorkOpsDb × TaskSide → Prop}
  {E : Raised → WorkOpsDb × TaskSide → Prop}

theorem SideStep.refl (w : TaskSide) : SideStep env rc.tenantId id [] [] w w :=
  ⟨rfl, rfl, by simp, fun _ _ h => h, fun _ h => h⟩

theorem DbStep.refl {db : WorkOpsDb} (h : db.UniqueIds) : DbStep id [] db db :=
  ⟨h, fun _ _ => rfl, fun _ _ => Iff.rfl, .same rfl rfl⟩

theorem callTool_sideStep {i : CreateExternalTaskInput} {m : ToolMeets} {w : TaskSide}
    (h : KeysUnused env rc.tenantId i.actionId w) :
    SideStep env rc.tenantId i.actionId (toolTasks env rc i m) [taskCall rc i] w
      (callTool env rc i m w).1 := by
  obtain ⟨_, hcreated, _, _⟩ := callTool_unused (m := m) h
  refine ⟨rfl, hcreated, fun p hp => toolTasks_action hp, ?_, ?_⟩
  · intro id' hne hunused
    exact hunused.other h hne
  · intro hnone _
    exact h.own hnone

theorem ends_onDb {fault : Option Raised} {f : WorkOpsDb → Except Raised WorkOpsDb} :
    Ends (onDb fault f) s Q E ↔ (∀ e, fault = some e → E e s) ∧
      (fault = none → (∀ db, f s.1 = .ok db → Q () (db, s.2)) ∧ ∀ e, f s.1 = .error e → E e s) := by
  unfold onDb
  simp only [ends_bind, ends_raise?, ends_get, ends_fromExcept, ends_set]
  exact And.comm

theorem ends_onTool {i : CreateExternalTaskInput} {m : ToolMeets}
    {Q : ExternalTaskRef → WorkOpsDb × TaskSide → Prop} :
    Ends (onTool env rc i m) s Q E ↔
      (∀ ref, (callTool env rc i m s.2).2 = .ok ref → Q ref (s.1, (callTool env rc i m s.2).1)) ∧
      ∀ e, (callTool env rc i m s.2).2 = .error e → E e (s.1, (callTool env rc i m s.2).1) := by
  unfold onTool
  simp only [ends_bind, ends_get, ends_set, ends_fromExcept]

theorem saveAction_read {db : WorkOpsDb} {a b : ActionItem} (hunique : db.UniqueIds)
    (ha : db.getAction a.id = some a) (hb : b.id = a.id) (hversion : b.version = a.version + 1)
    (hmeeting : b.meetingId = a.meetingId) :
    ∃ db', db.saveAction b = .ok db' ∧ db'.UniqueIds ∧ db'.tasks = db.tasks ∧
      db'.getAction a.id = some b ∧ ∀ id', id' ≠ a.id → db'.getAction id' = db.getAction id' := by
  rw [← hb] at ha
  have hsave := WorkOpsDb.saveAction_next hunique ha hversion hmeeting
  have hread := WorkOpsDb.getAction_set ha
  refine ⟨_, hsave, ?_, rfl, ?_, ?_⟩
  · show (List.map ActionItem.id (Rows.update ActionItem.id b.id (fun _ => b) db.actions)).Nodup
    have hkeys : List.map ActionItem.id (Rows.update ActionItem.id b.id (fun _ => b) db.actions) =
        db.actions.map ActionItem.id := by
      unfold Rows.update
      rw [List.map_map]
      refine List.map_congr_left (fun r _ => ?_)
      show ActionItem.id (if r.id = b.id then b else r) = r.id
      by_cases hr : r.id = b.id
      · rw [if_pos hr, hr]
      · rw [if_neg hr]
    rw [hkeys]
    exact hunique
  · rw [← hb, hread, if_pos rfl]
  · intro id' hne
    rw [hread, if_neg (by rwa [hb])]

theorem rejectItem_ends {a : ActionItem} (hunique : s.1.UniqueIds)
    (hrow : s.1.getAction a.id = some a) :
    Ends (rejectItem inp k a) s
      (fun _ s' => (a.status = .proposed ∧ inp.fault k .save = none) ∧ s'.2 = s.2 ∧
        DbStep a.id [] s.1 s'.1)
      (fun _ s' => (a.status ≠ .proposed ∨ inp.fault k .save ≠ none) ∧ s'.2 = s.2) := by
  unfold rejectItem
  simp only [ends_bind, ends_fromExcept, ends_onDb, ends_pure]
  constructor
  · intro rejected hrejected
    obtain ⟨hproposed, rfl⟩ := ActionItem.advance_ok.mp hrejected
    refine ⟨fun e hsave => ⟨.inr (by simp [hsave]), trivial⟩, fun hsave => ?_⟩
    obtain ⟨db', hdb', hunique', htasks, hown, hothers⟩ :=
      saveAction_read (b := { a with status := .rejected, version := a.version + 1 })
        hunique hrow rfl rfl rfl
    refine ⟨fun db hdb => ?_, fun e he => ?_⟩
    · rw [hdb'] at hdb
      obtain rfl := Except.ok.inj hdb
      refine ⟨⟨hproposed, hsave⟩, trivial, hunique', hothers, ?_,
        .rejected a _ rfl htasks hrow hproposed hown rfl⟩
      intro t _
      rw [htasks]
    · rw [hdb'] at he
      cases he
  · intro e he
    obtain ⟨hstatus, _⟩ := ActionItem.advance_error.mp he
    exact ⟨.inl hstatus, trivial⟩

theorem recordExternalTask_new {db : WorkOpsDb} {t : ExternalTask} {a : ActionItem}
    (ha : db.getAction t.actionItemId = some a) (hnew : ∀ t' ∈ db.tasks, t'.actionItemId ≠ t.actionItemId) :
    db.recordExternalTask t = .ok { db with tasks := t :: db.tasks } := by
  unfold WorkOpsDb.recordExternalTask
  rw [ha]
  dsimp only
  rw [if_neg]
  intro hany
  obtain ⟨t', ht', hsame⟩ := List.any_eq_true.mp hany
  simp only [Bool.and_eq_true, beq_iff_eq] at hsame
  exact hnew t' ht' hsame.1

theorem dispatchApproved_ends {a : ActionItem} {p : ResolvedAssignee} (hunique : s.1.UniqueIds)
    (hrow : s.1.getAction a.id = some a) (happroved : a.status = .approved)
    (hassignee : a.assignee = some p) (hkeys : KeysUnused env rc.tenantId a.id s.2)
    (hnoRow : ∀ t ∈ s.1.tasks, t.actionItemId ≠ a.id) :
    Ends (dispatchApproved env rc inp k a p) s
      (fun _ s' =>
        ((∃ ref, toolResult env rc (taskInput env a p) (inp.tool k) = .ok ref) ∧
          inp.fault k .saveDispatched = none ∧ inp.fault k .recordTask = none) ∧
        s'.2 = (callTool env rc (taskInput env a p) (inp.tool k) s.2).1 ∧
        s'.1.UniqueIds ∧ (∀ id', id' ≠ a.id → s'.1.getAction id' = s.1.getAction id') ∧
        ∃ b t, s'.1.getAction a.id = some b ∧ b.status = .dispatched ∧
          s'.1.tasks = t :: s.1.tasks ∧ t.actionItemId = a.id ∧
          (a.id, t.externalId) ∈ toolTasks env rc (taskInput env a p) (inp.tool k))
      (fun _ s' =>
        ((∃ e, toolResult env rc (taskInput env a p) (inp.tool k) = .error e) ∨
          inp.fault k .saveDispatched ≠ none ∨ inp.fault k .recordTask ≠ none) ∧
        s'.2 = (callTool env rc (taskInput env a p) (inp.tool k) s.2).1) := by
  have hcall : (callTool env rc (taskInput env a p) (inp.tool k) s.2).2 =
      toolResult env rc (taskInput env a p) (inp.tool k) := (callTool_unused hkeys).1
  unfold dispatchApproved
  simp only [ends_bind, ends_onTool, ends_fromExcept, ends_onDb, ends_pure]
  constructor
  swap
  · intro e he
    exact ⟨.inl ⟨e, hcall.symm.trans he⟩, trivial⟩
  intro ref href
  have htool : toolResult env rc (taskInput env a p) (inp.tool k) = .ok ref := hcall.symm.trans href
  constructor
  swap
  · -- an approved action with an assignee can be marked
    intro e he
    unfold ActionItem.markDispatched at he
    simp [happroved, hassignee] at he
  intro dispatched hmarked
  obtain ⟨_, _, rfl⟩ := ActionItem.markDispatched_ok.mp hmarked
  refine ⟨fun e hfault => ⟨.inr (.inl (by simp [hfault])), trivial⟩, fun hsave => ?_⟩
  obtain ⟨db₁, hdb₁, hunique₁, htasks₁, hown₁, hothers₁⟩ :=
    saveAction_read (b := { a with status := .dispatched, version := a.version + 1 })
      hunique hrow rfl rfl rfl
  constructor
  swap
  · intro e he
    rw [hdb₁] at he
    cases he
  intro db hdb
  rw [hdb₁] at hdb
  obtain rfl := Except.ok.inj hdb
  refine ⟨fun e hfault => ⟨.inr (.inr (by simp [hfault])), trivial⟩, fun hrecord => ?_⟩
  have hnew : ∀ t ∈ db₁.tasks, t.actionItemId ≠ a.id := by
    rw [htasks₁]
    exact hnoRow
  constructor
  · intro db₂ hdb₂
    rw [recordExternalTask_new hown₁ hnew] at hdb₂
    obtain rfl := Except.ok.inj hdb₂
    have hcreated : (a.id, ref.externalId) ∈ toolTasks env rc (taskInput env a p) (inp.tool k) :=
      toolResult_ok htool
    refine ⟨⟨⟨ref, htool⟩, hsave, hrecord⟩, trivial, hunique₁, hothers₁, _,
      { actionItemId := a.id, connector := ref.connector, connectorVersion := ref.connectorVersion
        externalId := ref.externalId, externalUrl := ref.externalUrl }, hown₁, rfl, ?_, rfl,
      hcreated⟩
    rw [htasks₁]
  · intro e he
    rw [recordExternalTask_new hown₁ hnew] at he
    cases he

theorem itemTasks_none {row : Option ActionItem} (h : itemReaches env d inp k row = none) :
    itemTasks env rc d inp k row = [] := by
  rw [itemTasks, h]

theorem itemCalls_none {row : Option ActionItem} (h : itemReaches env d inp k row = none) :
    itemCalls env rc d inp k row = [] := by
  rw [itemCalls, h]

theorem itemTasks_some {row : Option ActionItem} {i : CreateExternalTaskInput}
    (h : itemReaches env d inp k row = some i) :
    itemTasks env rc d inp k row = toolTasks env rc i (inp.tool k) := by
  rw [itemTasks, h]

theorem itemCalls_some {row : Option ActionItem} {i : CreateExternalTaskInput}
    (h : itemReaches env d inp k row = some i) : itemCalls env rc d inp k row = [taskCall rc i] := by
  rw [itemCalls, h]

/-- **One turn**: it raises exactly where it must, makes the calls and creates
    the tasks it says, and if it returns, its action is settled. -/
theorem dispatchItem_ends (hunique : s.1.UniqueIds)
    (hfresh : Fresh env rc.tenantId s.1 s.2 id) :
    Ends (dispatchItem env rc d inp k id) s
      (fun _ s' => itemRaises env rc d inp k (s.1.getAction id) = false ∧
        SideStep env rc.tenantId id (itemTasks env rc d inp k (s.1.getAction id))
          (itemCalls env rc d inp k (s.1.getAction id)) s.2 s'.2 ∧
        DbStep id (itemTasks env rc d inp k (s.1.getAction id)) s.1 s'.1)
      (fun _ s' => itemRaises env rc d inp k (s.1.getAction id) = true ∧
        SideStep env rc.tenantId id (itemTasks env rc d inp k (s.1.getAction id))
          (itemCalls env rc d inp k (s.1.getAction id)) s.2 s'.2) := by
  unfold dispatchItem
  simp only [ends_bind, ends_raise?, ends_get]
  constructor
  swap
  · intro e hload
    have hnone : itemReaches env d inp k (s.1.getAction id) = none := by
      unfold itemReaches
      cases s.1.getAction id <;> simp [hload]
    rw [itemTasks_none hnone, itemCalls_none hnone]
    exact ⟨by simp [itemRaises, hload], .refl _⟩
  intro hload
  cases hrow : s.1.getAction id with
  | none => exact ⟨by simp [itemRaises, hload], .refl _, .refl hunique⟩
  | some a =>
    obtain ⟨_, hid⟩ := WorkOpsDb.getAction_some hrow
    subst hid
    dsimp only
    by_cases hselected : d.selects a.id = true
    swap
    · -- not selected: the action is rejected
      have hnone : itemReaches env d inp k (some a) = none := by
        simp [itemReaches, hselected]
      rw [if_neg hselected, itemTasks_none hnone, itemCalls_none hnone]
      refine (rejectItem_ends hunique hrow).mono ?_ ?_
      · rintro _ s' ⟨⟨hproposed, hsave⟩, hside, hdb⟩
        rw [hside]
        exact ⟨by simp [itemRaises, hload, hselected, hproposed, hsave], .refl _, hdb⟩
      · rintro _ s' ⟨hraises, hside⟩
        rw [hside]
        refine ⟨?_, .refl _⟩
        rcases hraises with hstatus | hsave
        · simp [itemRaises, hselected, hstatus]
        · have hsome := Option.isSome_iff_ne_none.mpr hsave
          simp [itemRaises, hselected, hsome]
    rw [if_pos hselected]
    cases hassignee : a.assignee with
    | none =>
      have hnone : itemReaches env d inp k (some a) = none := by
        simp [itemReaches, hassignee]
      rw [itemTasks_none hnone, itemCalls_none hnone]
      exact ⟨by simp [itemRaises, hload, hselected, hassignee], .refl _, .refl hunique⟩
    | some p =>
      dsimp only
      simp only [ends_bind, ends_fromExcept, ends_onDb]
      constructor
      swap
      · intro e he
        obtain ⟨hstatus, _⟩ := ActionItem.advance_error.mp he
        have hnone : itemReaches env d inp k (some a) = none := by
          simp [itemReaches, hstatus]
        rw [itemTasks_none hnone, itemCalls_none hnone]
        exact ⟨by simp [itemRaises, hselected, hassignee, hstatus], .refl _⟩
      intro approved happroved
      obtain ⟨hproposed, rfl⟩ := ActionItem.advance_ok.mp happroved
      constructor
      · intro e hsave
        have hnone : itemReaches env d inp k (some a) = none := by
          simp [itemReaches, hsave]
        rw [itemTasks_none hnone, itemCalls_none hnone]
        exact ⟨by simp [itemRaises, hselected, hassignee, hsave], .refl _⟩
      intro hsave
      obtain ⟨db₁, hdb₁, hunique₁, htasks₁, hown₁, hothers₁⟩ :=
        saveAction_read (b := { a with status := .approved, version := a.version + 1 })
          hunique hrow rfl rfl rfl
      constructor
      swap
      · intro e he
        rw [hdb₁] at he
        cases he
      intro db hdb
      rw [hdb₁] at hdb
      obtain rfl := Except.ok.inj hdb
      -- the tool is called
      obtain ⟨hkeys, hnoRow, _⟩ := hfresh a hrow hproposed
      have hinput : ∀ status version, taskInput env { a with status := status, version := version } p =
          taskInput env a p := fun _ _ => rfl
      have hreaches : itemReaches env d inp k (some a) = some (taskInput env a p) := by
        simp [itemReaches, hload, hselected, hproposed, hsave, hassignee]
      have hside : SideStep env rc.tenantId a.id (toolTasks env rc (taskInput env a p) (inp.tool k))
          [taskCall rc (taskInput env a p)] s.2
          (callTool env rc (taskInput env a p) (inp.tool k) s.2).1 :=
        callTool_sideStep (i := taskInput env a p) hkeys
      rw [itemTasks_some hreaches, itemCalls_some hreaches]
      refine (dispatchApproved_ends (a := { a with status := .approved, version := a.version + 1 })
        (s := (db₁, s.2)) hunique₁ hown₁ rfl hassignee hkeys ?_).mono ?_ ?_
      · rw [htasks₁]
        exact hnoRow
      · rintro _ s' ⟨⟨⟨ref, href⟩, hsaved, hrecorded⟩, hside', hunique', hothers, b, t, hb, hstatus,
          htasks, hown, ht⟩
        rw [hside']
        rw [hinput] at href
        refine ⟨by simp [itemRaises, hload, hselected, hassignee, hproposed, hsave, href, hsaved,
          hrecorded, Except.isOk, Except.toBool], hside, hunique', ?_, ?_,
          .dispatched a b t hrow hproposed hb hstatus ?_ hown ht⟩
        · intro id' hne
          rw [hothers id' hne, hothers₁ id' hne]
        · intro t' hne
          rw [htasks, htasks₁, List.mem_cons]
          constructor
          · rintro (rfl | hmem)
            · exact absurd hown hne
            · exact hmem
          · exact .inr
        · rw [htasks]
          exact List.mem_cons_self
      · rintro _ s' ⟨hraises, hside'⟩
        rw [hside']
        refine ⟨?_, hside⟩
        rw [hinput] at hraises
        rcases hraises with ⟨e, he⟩ | hfault | hfault
        · simp [itemRaises, hselected, hassignee, he, Except.isOk, Except.toBool]
        · have hsome := Option.isSome_iff_ne_none.mpr hfault
          simp [itemRaises, hselected, hassignee, hsome]
        · have hsome := Option.isSome_iff_ne_none.mpr hfault
          simp [itemRaises, hselected, hassignee, hsome]

end

/-! ## The loop -/

section

variable (env : TaskEnv) (rc : Tools.RunContext) (d : ReviewDecision) (inp : DispatchInput)
  (db : WorkOpsDb) (ids : List Uuid)

/-- The tasks the turn at position `j` creates, over the rows there are. -/
def tasksAt (j : Nat) : List (Uuid × String) :=
  match ids[j]? with
  | some id => itemTasks env rc d inp j (db.getAction id)
  | none => []

/-- The calls of the tool at position `j`. -/
def callsAt (j : Nat) : List ToolCall :=
  match ids[j]? with
  | some id => itemCalls env rc d inp j (db.getAction id)
  | none => []

/-- The turn at position `j` raises. -/
def raisesAt (j : Nat) : Bool :=
  match ids[j]? with
  | some id => itemRaises env rc d inp j (db.getAction id)
  | none => false

/-- The tasks of the first `n` turns. -/
def tasksUpTo : Nat → List (Uuid × String)
  | 0 => []
  | n + 1 => tasksAt env rc d inp db ids n ++ tasksUpTo n

/-- The calls of the first `n` turns. -/
def callsUpTo : Nat → List ToolCall
  | 0 => []
  | n + 1 => callsAt env rc d inp db ids n ++ callsUpTo n

/-- No turn before `k` raises. -/
def RunsTo (k : Nat) : Prop := ∀ j < k, raisesAt env rc d inp db ids j = false

end

/-- **The books are right**: an action that has a task is stored as dispatched, with
    one of its tasks on record, and one that is stored as dispatched has a task. -/
structure Books (db : WorkOpsDb) (w : TaskSide) (ids : List Uuid) : Prop where
  recorded : ∀ id ∈ ids, ∀ e, (id, e) ∈ w.connector.created → ∃ a t, db.getAction id = some a ∧
    a.status = .dispatched ∧ t ∈ db.tasks ∧ t.actionItemId = id ∧
    (id, t.externalId) ∈ w.connector.created
  real : ∀ id ∈ ids, ∀ a, db.getAction id = some a → a.status = .dispatched →
    ∃ e, (id, e) ∈ w.connector.created

structure InOrder (env : TaskEnv) (tenantId : Uuid) (db : WorkOpsDb) (w : TaskSide)
    (ids : List Uuid) : Prop where
  unique : db.UniqueIds
  books : Books db w ids
  fresh : ∀ id ∈ ids, Fresh env tenantId db w id

section

variable {env : TaskEnv} {rc : Tools.RunContext} {d : ReviewDecision} {inp : DispatchInput}
  {db db' : WorkOpsDb} {w w' : TaskSide} {ids : List Uuid} {id : Uuid} {tasks : List (Uuid × String)} {calls : List ToolCall}

theorem itemTasks_proposed {k : Nat} {row : Option ActionItem}
    (h : itemTasks env rc d inp k row ≠ []) : ∃ a, row = some a ∧ a.status = .proposed := by
  unfold itemTasks itemReaches at h
  cases row with
  | none => exact absurd rfl h
  | some a =>
    refine ⟨a, rfl, ?_⟩
    by_contra hstatus
    simp [hstatus] at h

theorem InOrder.turn (h : InOrder env rc.tenantId db w ids)
    (hside : SideStep env rc.tenantId id tasks calls w w') (hdb : DbStep id tasks db db') :
    InOrder env rc.tenantId db' w' ids := by
  -- what the turn leaves of the other actions
  have hcreated : ∀ id', id' ≠ id → ∀ e, (id', e) ∈ w'.connector.created ↔
      (id', e) ∈ w.connector.created := by
    intro id' hne e
    rw [hside.created, List.mem_append]
    constructor
    · rintro (hmem | hmem)
      · exact absurd (hside.action _ hmem) hne
      · exact hmem
    · exact .inr
  have huntouched : ∀ id', id' ≠ id → Untouched env rc.tenantId db w id' →
      Untouched env rc.tenantId db' w' id' := by
    intro id' hne hold
    refine ⟨hside.others id' hne hold.keys, ?_, ?_⟩
    · intro t ht hown
      have hold' := (hdb.otherTasks t (by rw [hown]; exact hne)).mp ht
      exact hold.noRow t hold' hown
    · rintro ⟨id'', e⟩ hp hown
      obtain rfl : id'' = id' := hown
      exact hold.noTask _ ((hcreated _ hne e).mp hp) rfl
  -- what it makes of its own
  have hnoTask : (∃ a₀, db.getAction id = some a₀ ∧ a₀.status = .proposed) → id ∈ ids →
      ∀ e, (id, e) ∉ w.connector.created := by
    rintro ⟨a₀, ha₀, hproposed⟩ hid e hmem
    exact (h.fresh id hid a₀ ha₀ hproposed).noTask _ hmem rfl
  refine ⟨hdb.unique, ⟨?_, ?_⟩, ?_⟩
  · intro id' hid' e he
    by_cases hne : id' = id
    · subst hne
      rcases hdb.settled with ⟨hnone, hsame⟩ | ⟨a₀, a, hnone, htasks, ha₀, hproposed, ha, hstatus⟩ |
        ⟨a₀, a, t, ha₀, hproposed, ha, hstatus, ht, hown, hmem⟩
      · rw [hside.created, hnone] at he ⊢
        rw [hsame]
        exact h.books.recorded _ hid' e he
      · rw [hside.created, hnone] at he
        exact absurd he (hnoTask ⟨a₀, ha₀, hproposed⟩ hid' e)
      · refine ⟨a, t, ha, hstatus, ht, hown, ?_⟩
        rw [hside.created]
        exact List.mem_append_left _ hmem
    · obtain ⟨a, t, ha, hstatus, ht, hown, hmem⟩ :=
        h.books.recorded id' hid' e ((hcreated id' hne e).mp he)
      refine ⟨a, t, ?_, hstatus, ?_, hown, (hcreated id' hne _).mpr hmem⟩
      · rw [hdb.others id' hne]
        exact ha
      · exact (hdb.otherTasks t (by rw [hown]; exact hne)).mpr ht
  · intro id' hid' a ha hstatus
    by_cases hne : id' = id
    · subst hne
      rcases hdb.settled with ⟨hnone, hsame⟩ | ⟨a₀, b, _, _, _, _, hb, hrejected⟩ |
        ⟨a₀, b, t, _, _, _, _, _, _, hmem⟩
      · rw [hsame] at ha
        rw [hside.created, hnone]
        exact h.books.real _ hid' a ha hstatus
      · rw [ha] at hb
        obtain rfl := Option.some.inj hb
        rw [hstatus] at hrejected
        cases hrejected
      · refine ⟨t.externalId, ?_⟩
        rw [hside.created]
        exact List.mem_append_left _ hmem
    · rw [hdb.others id' hne] at ha
      obtain ⟨e, he⟩ := h.books.real id' hid' a ha hstatus
      exact ⟨e, (hcreated id' hne e).mpr he⟩
  · intro id' hid' a ha hproposed
    by_cases hne : id' = id
    · subst hne
      rcases hdb.settled with ⟨hnone, hsame⟩ | ⟨a₀, b, _, _, _, _, hb, hstatus⟩ |
        ⟨a₀, b, t, _, _, hb, hstatus, _, _, _⟩
      · rw [hsame] at ha ⊢
        have hold := h.fresh _ hid' a ha hproposed
        refine ⟨hside.own hnone hold.keys, hold.noRow, ?_⟩
        rw [hside.created, hnone]
        exact hold.noTask
      · rw [ha] at hb
        obtain rfl := Option.some.inj hb
        rw [hproposed] at hstatus
        cases hstatus
      · rw [ha] at hb
        obtain rfl := Option.some.inj hb
        rw [hproposed] at hstatus
        cases hstatus
    · rw [hdb.others id' hne] at ha
      exact huntouched id' hne (h.fresh id' hid' a ha hproposed)

structure Keeps (db db' : WorkOpsDb) : Prop where
  actions : ∀ a ∈ db.actions, a.status = .dispatched → a ∈ db'.actions
  tasks : ∀ t ∈ db.tasks, t ∈ db'.tasks

theorem Keeps.refl (db : WorkOpsDb) : Keeps db db := ⟨fun _ h _ => h, fun _ h => h⟩

theorem Keeps.trans {db₁ db₂ db₃ : WorkOpsDb} (h : Keeps db₁ db₂) (h' : Keeps db₂ db₃) :
    Keeps db₁ db₃ :=
  ⟨fun a ha hstatus => h'.actions a (h.actions a ha hstatus) hstatus,
    fun t ht => h'.tasks t (h.tasks t ht)⟩

theorem DbStep.keeps (hunique : db.UniqueIds) (hfresh : Fresh env rc.tenantId db w id)
    (hdb : DbStep id tasks db db') : Keeps db db' := by
  constructor
  · intro a ha hstatus
    have hread := hunique.getAction ha
    by_cases hne : a.id = id
    · rw [hne] at hread
      rcases hdb.settled with ⟨_, hsame⟩ | ⟨a₀, _, _, _, ha₀, hproposed, _, _⟩ |
        ⟨a₀, _, _, ha₀, hproposed, _, _, _, _, _⟩
      · rw [hsame]
        exact ha
      · rw [hread] at ha₀
        obtain rfl := Option.some.inj ha₀
        rw [hstatus] at hproposed
        cases hproposed
      · rw [hread] at ha₀
        obtain rfl := Option.some.inj ha₀
        rw [hstatus] at hproposed
        cases hproposed
    · rw [← hdb.others a.id hne] at hread
      exact (WorkOpsDb.getAction_some hread).1
  · intro t ht
    by_cases hne : t.actionItemId = id
    · rcases hdb.settled with ⟨_, hsame⟩ | ⟨_, _, _, htasks, _, _, _, _⟩ |
        ⟨a₀, _, _, ha₀, hproposed, _, _, _, _, _⟩
      · rw [hsame]
        exact ht
      · rw [htasks]
        exact ht
      · exact absurd hne ((hfresh a₀ ha₀ hproposed).noRow t ht)
    · exact (hdb.otherTasks t hne).mpr ht

/-- How far a loop that began with `(db, w)` has come at position `k`. -/
structure LoopAt (env : TaskEnv) (rc : Tools.RunContext) (d : ReviewDecision) (inp : DispatchInput)
    (db : WorkOpsDb) (w : TaskSide) (ids : List Uuid) (k : Nat) (s : WorkOpsDb × TaskSide) : Prop where
  runs : RunsTo env rc d inp db ids k
  called : s.2.calls = callsUpTo env rc d inp db ids k ++ w.calls
  created : s.2.connector.created = tasksUpTo env rc d inp db ids k ++ w.connector.created
  order : InOrder env rc.tenantId s.1 s.2 ids
  keeps : Keeps db s.1
  otherRows : ∀ id, id ∉ ids → s.1.getAction id = db.getAction id
  otherTasks : ∀ t, t.actionItemId ∉ ids → (t ∈ s.1.tasks ↔ t ∈ db.tasks)
  otherKeys : ∀ id, id ∉ ids → KeysUnused env rc.tenantId id w → KeysUnused env rc.tenantId id s.2
  rest : ∀ j id, k ≤ j → ids[j]? = some id → s.1.getAction id = db.getAction id
  keys : tasksUpTo env rc d inp db ids k = [] →
    ∀ id, KeysUnused env rc.tenantId id w → KeysUnused env rc.tenantId id s.2

/-- How a loop that began with `(db, w)` is cut off: by the exception of a turn, with
    the tasks created up to there. -/
structure CutAt (env : TaskEnv) (rc : Tools.RunContext) (d : ReviewDecision) (inp : DispatchInput)
    (db : WorkOpsDb) (w : TaskSide) (ids : List Uuid) (k : Nat) (w' : TaskSide) : Prop where
  runs : RunsTo env rc d inp db ids k
  raises : raisesAt env rc d inp db ids k = true
  called : w'.calls = callsUpTo env rc d inp db ids (k + 1) ++ w.calls
  otherKeys : ∀ id, id ∉ ids → KeysUnused env rc.tenantId id w → KeysUnused env rc.tenantId id w'
  created : w'.connector.created = tasksUpTo env rc d inp db ids (k + 1) ++ w.connector.created
  keys : tasksUpTo env rc d inp db ids (k + 1) = [] →
    ∀ id, KeysUnused env rc.tenantId id w → KeysUnused env rc.tenantId id w'

theorem SideStep.keys (h : SideStep env rc.tenantId id tasks calls w w') (hnone : tasks = [])
    (id' : Uuid) (hunused : KeysUnused env rc.tenantId id' w) :
    KeysUnused env rc.tenantId id' w' := by
  by_cases hne : id' = id
  · subst hne
    exact h.own hnone hunused
  · exact h.others id' hne hunused

/-- **The loop**: it runs to its end, or is cut off by the first turn that
    raises. -/
theorem dispatchLoop_ends (hids : ids.Nodup) (h : InOrder env rc.tenantId db w ids) :
    Ends (dispatchLoop env rc d inp ids) (db, w)
      (fun _ s' => LoopAt env rc d inp db w ids ids.length s')
      (fun _ s' => ∃ k, CutAt env rc d inp db w ids k s'.2) := by
  have hstart : LoopAt env rc d inp db w ids 0 (db, w) :=
    ⟨fun j hj => absurd hj (Nat.not_lt_zero j), rfl, rfl, h, .refl db, fun _ _ => rfl,
      fun _ _ => Iff.rfl, fun _ _ hunused => hunused, fun _ _ _ _ => rfl,
      fun _ _ hunused => hunused⟩
  suffices hloop : Ends (forEach (dispatchItem env rc d inp) 0 ids) (db, w)
      (fun _ s' => LoopAt env rc d inp db w ids (0 + ids.length) s')
      (fun _ s' => ∃ k, CutAt env rc d inp db w ids k s'.2) by
    rw [Nat.zero_add] at hloop
    exact hloop
  refine Ends.forEach ?_ hstart
  intro k id s hk hat
  rw [Nat.zero_add] at hat ⊢
  have hid : id ∈ ids := List.mem_of_getElem? hk
  have hrow := hat.rest k id (Nat.le_refl k) hk
  have htasks : tasksAt env rc d inp db ids k = itemTasks env rc d inp k (s.1.getAction id) := by
    unfold tasksAt
    rw [hk, hrow]
  have hcalls : callsAt env rc d inp db ids k = itemCalls env rc d inp k (s.1.getAction id) := by
    unfold callsAt
    rw [hk, hrow]
  have hraises : raisesAt env rc d inp db ids k = itemRaises env rc d inp k (s.1.getAction id) := by
    unfold raisesAt
    rw [hk, hrow]
  have hcalled : ∀ w', SideStep env rc.tenantId id (itemTasks env rc d inp k (s.1.getAction id))
      (itemCalls env rc d inp k (s.1.getAction id)) s.2 w' →
      w'.calls = callsUpTo env rc d inp db ids (k + 1) ++ w.calls := by
    intro w' hside
    rw [hside.called, hat.called, callsUpTo, hcalls, List.append_assoc]
  have hothers : ∀ w', SideStep env rc.tenantId id (itemTasks env rc d inp k (s.1.getAction id))
      (itemCalls env rc d inp k (s.1.getAction id)) s.2 w' →
      ∀ id', id' ∉ ids → KeysUnused env rc.tenantId id' w → KeysUnused env rc.tenantId id' w' := by
    intro w' hside id' hout hunused
    exact hside.others id' (fun hsame => hout (hsame ▸ hid)) (hat.otherKeys id' hout hunused)
  have hcreated : ∀ w', SideStep env rc.tenantId id
      (itemTasks env rc d inp k (s.1.getAction id))
      (itemCalls env rc d inp k (s.1.getAction id)) s.2 w' →
      w'.connector.created = tasksUpTo env rc d inp db ids (k + 1) ++ w.connector.created := by
    intro w' hside
    rw [hside.created, hat.created, tasksUpTo, htasks, List.append_assoc]
  have hkeys : ∀ w', SideStep env rc.tenantId id
      (itemTasks env rc d inp k (s.1.getAction id))
      (itemCalls env rc d inp k (s.1.getAction id)) s.2 w' →
      tasksUpTo env rc d inp db ids (k + 1) = [] →
      ∀ id, KeysUnused env rc.tenantId id w → KeysUnused env rc.tenantId id w' := by
    intro w' hside hnone id' hunused
    obtain ⟨hlast, hbefore⟩ := List.append_eq_nil_iff.mp hnone
    rw [htasks] at hlast
    exact hside.keys hlast id' (hat.keys hbefore id' hunused)
  refine (dispatchItem_ends hat.order.unique (hat.order.fresh id hid)).mono ?_ ?_
  · rintro _ s' ⟨hquiet, hside, hdb⟩
    refine ⟨?_, hcalled _ hside, hcreated _ hside, hat.order.turn hside hdb,
      hat.keeps.trans (hdb.keeps hat.order.unique (hat.order.fresh id hid)), ?_, ?_,
      hothers _ hside, ?_, hkeys _ hside⟩
    · intro j hj
      by_cases hlast : j = k
      · rw [hlast, hraises]
        exact hquiet
      · exact hat.runs j (by omega)
    · intro id' hout
      rw [hdb.others id' (fun hsame => hout (hsame ▸ hid))]
      exact hat.otherRows id' hout
    · intro t hout
      rw [hdb.otherTasks t (fun hsame => hout (hsame ▸ hid))]
      exact hat.otherTasks t hout
    · intro j id' hj hid'
      have hne : id' ≠ id := by
        intro hsame
        rw [hsame] at hid'
        have hlt := (List.getElem?_eq_some_iff.mp hk).1
        have heq : k = j := (List.getElem?_inj hlt hids).mp (hk.trans hid'.symm)
        omega
      rw [hdb.others id' hne]
      exact hat.rest j id' (by omega) hid'
  · rintro _ s' ⟨hloud, hside⟩
    exact ⟨k, hat.runs, hraises.trans hloud, hcalled _ hside, hothers _ hside, hcreated _ hside,
      hkeys _ hside⟩

theorem lt_of_raises {k : Nat} (h : raisesAt env rc d inp db ids k = true) : k < ids.length := by
  by_contra hpast
  unfold raisesAt at h
  rw [List.getElem?_eq_none (by omega)] at h
  cases h

theorem RunsTo.le_of_raises {j k : Nat} (h : RunsTo env rc d inp db ids j)
    (hraises : raisesAt env rc d inp db ids k = true) : j ≤ k := by
  by_contra hlt
  rw [h k (by omega)] at hraises
  cases hraises

theorem tasksUpTo_ne_nil {n : Nat} (h : tasksUpTo env rc d inp db ids n ≠ []) :
    ∃ j < n, tasksAt env rc d inp db ids j ≠ [] := by
  induction n with
  | zero => exact absurd rfl h
  | succ n ih =>
    by_cases hlast : tasksAt env rc d inp db ids n = []
    · have hbefore : tasksUpTo env rc d inp db ids n ≠ [] := by
        intro hnil
        apply h
        rw [tasksUpTo, hlast, hnil]
        rfl
      obtain ⟨j, hj, hne⟩ := ih hbefore
      exact ⟨j, by omega, hne⟩
    · exact ⟨n, by omega, hlast⟩

theorem mem_tasksUpTo {n j : Nat} (hj : j < n) {p : Uuid × String}
    (hp : p ∈ tasksAt env rc d inp db ids j) : p ∈ tasksUpTo env rc d inp db ids n := by
  induction n with
  | zero => exact absurd hj (Nat.not_lt_zero j)
  | succ n ih =>
    rw [tasksUpTo, List.mem_append]
    by_cases hlast : j = n
    · rw [hlast] at hp
      exact .inl hp
    · exact .inr (ih (by omega))

theorem tasksAt_spec {j : Nat} (h : tasksAt env rc d inp db ids j ≠ []) :
    ∃ id a, ids[j]? = some id ∧ db.getAction id = some a ∧ a.status = .proposed := by
  unfold tasksAt at h
  cases hid : ids[j]? with
  | none =>
    rw [hid] at h
    exact absurd rfl h
  | some id =>
    rw [hid] at h
    obtain ⟨a, ha, hproposed⟩ := itemTasks_proposed h
    exact ⟨id, a, rfl, ha, hproposed⟩

theorem tasksAt_action {j : Nat} {p : Uuid × String} (hid : ids[j]? = some id)
    (hp : p ∈ tasksAt env rc d inp db ids j) : p.1 = id := by
  unfold tasksAt at hp
  rw [hid] at hp
  unfold itemTasks at hp
  dsimp only at hp
  split at hp
  · next i hreaches =>
    rw [toolTasks_action hp]
    unfold itemReaches at hreaches
    cases hrow : db.getAction id with
    | none =>
      rw [hrow] at hreaches
      cases hreaches
    | some a =>
      rw [hrow] at hreaches
      dsimp only at hreaches
      split at hreaches
      · obtain ⟨assignee, _, rfl⟩ := Option.map_eq_some_iff.mp hreaches
        exact (WorkOpsDb.getAction_some hrow).2
      · cases hreaches
  · cases hp

end

/-! ## The node -/

section

variable {env : TaskEnv} {rc : Tools.RunContext} {inp : DispatchInput} {st : WorkOpsState}
  {db : WorkOpsDb} {w w' : TaskSide}

/-- What a transaction that is cut off or rolled back leaves: the tables as they
    were, and the tasks of the first `n` turns. -/
structure Undone (env : TaskEnv) (rc : Tools.RunContext) (inp : DispatchInput) (st : WorkOpsState)
    (db : WorkOpsDb) (w : TaskSide) (n : Nat) (s : WorkOpsDb × TaskSide) : Prop where
  tables : s.1 = db
  stops : (n = st.resolvedActionIds.length ∧
      RunsTo env rc st.approvalDecision inp db st.resolvedActionIds n ∧ inp.ending = .rolledBack) ∨
    ∃ k, n = k + 1 ∧ RunsTo env rc st.approvalDecision inp db st.resolvedActionIds k ∧
      raisesAt env rc st.approvalDecision inp db st.resolvedActionIds k = true
  called : s.2.calls =
    callsUpTo env rc st.approvalDecision inp db st.resolvedActionIds n ++ w.calls
  otherKeys : ∀ id, id ∉ st.resolvedActionIds →
    KeysUnused env rc.tenantId id w → KeysUnused env rc.tenantId id s.2
  created : s.2.connector.created =
    tasksUpTo env rc st.approvalDecision inp db st.resolvedActionIds n ++ w.connector.created
  keys : tasksUpTo env rc st.approvalDecision inp db st.resolvedActionIds n = [] →
    ∀ id, KeysUnused env rc.tenantId id w → KeysUnused env rc.tenantId id s.2

/-- **The node**: either its loop ran to the end and was committed, or the tables
    are as they were. -/
theorem dispatchTasks_ends (inp : DispatchInput) (hids : st.resolvedActionIds.Nodup)
    (h : InOrder env rc.tenantId db w st.resolvedActionIds) :
    (LoopAt env rc st.approvalDecision inp db w st.resolvedActionIds st.resolvedActionIds.length
        (finalState (dispatchTasks env rc inp st) (db, w)) ∧ inp.ending ≠ .rolledBack) ∨
      ∃ n, Undone env rc inp st db w n (finalState (dispatchTasks env rc inp st) (db, w)) := by
  refine Ends.final (P := fun s => (LoopAt env rc st.approvalDecision inp db w st.resolvedActionIds
    st.resolvedActionIds.length s ∧ inp.ending ≠ .rolledBack) ∨ ∃ n, Undone env rc inp st db w n s) ?_
  refine ends_transact.mpr ((dispatchLoop_ends hids h).mono ?_ ?_)
  · intro _ s' hat
    refine ⟨?_, ?_, ?_⟩
    · intro hcommitted
      exact .inl ⟨hat, by simp [hcommitted]⟩
    · intro hback
      exact .inr ⟨_, rfl, .inl ⟨rfl, hat.runs, hback⟩, hat.called, hat.otherKeys, hat.created,
        hat.keys⟩
    · intro hunheard
      exact .inl ⟨hat, by simp [hunheard]⟩
  · rintro e s' ⟨k, hcut⟩
    exact .inr ⟨k + 1, rfl, .inr ⟨k, rfl, hcut.runs, hcut.raises⟩, hcut.called, hcut.otherKeys,
      hcut.created, hcut.keys⟩

structure Uncut (env : TaskEnv) (rc : Tools.RunContext) (inp : DispatchInput) (st : WorkOpsState)
    (db : WorkOpsDb) : Prop where
  turns : ∀ k, RunsTo env rc st.approvalDecision inp db st.resolvedActionIds k →
    raisesAt env rc st.approvalDecision inp db st.resolvedActionIds k = true →
    tasksUpTo env rc st.approvalDecision inp db st.resolvedActionIds (k + 1) = []
  commit : RunsTo env rc st.approvalDecision inp db st.resolvedActionIds
      st.resolvedActionIds.length → inp.ending = .rolledBack →
    tasksUpTo env rc st.approvalDecision inp db st.resolvedActionIds
      st.resolvedActionIds.length = []

theorem Uncut.undone (h : Uncut env rc inp st db) {n : Nat} {s : WorkOpsDb × TaskSide}
    (hundone : Undone env rc inp st db w n s) :
    tasksUpTo env rc st.approvalDecision inp db st.resolvedActionIds n = [] := by
  rcases hundone.stops with ⟨rfl, hruns, hback⟩ | ⟨k, rfl, hruns, hraises⟩
  · exact h.commit hruns hback
  · exact h.turns k hruns hraises

/-- **Order**: a node that is not cut off leaves the stores in order. -/
theorem Uncut.inOrder (hids : st.resolvedActionIds.Nodup)
    (h : InOrder env rc.tenantId db w st.resolvedActionIds) (huncut : Uncut env rc inp st db) :
    InOrder env rc.tenantId (finalState (dispatchTasks env rc inp st) (db, w)).1
      (finalState (dispatchTasks env rc inp st) (db, w)).2 st.resolvedActionIds := by
  rcases dispatchTasks_ends inp hids h with ⟨hat, _⟩ | ⟨n, hundone⟩
  · exact hat.order
  · have hnone := huncut.undone hundone
    have hcreated := hundone.created
    rw [hnone, List.nil_append] at hcreated
    rw [hundone.tables]
    refine ⟨h.unique, ⟨?_, ?_⟩, ?_⟩
    · rw [hcreated]
      exact h.books.recorded
    · rw [hcreated]
      exact h.books.real
    · intro id hid a ha hproposed
      have hold := h.fresh id hid a ha hproposed
      refine ⟨hundone.keys hnone id hold.keys, hold.noRow, ?_⟩
      rw [hcreated]
      exact hold.noTask

/-- **Books**: they are right after the node exactly if it is not cut off. -/
theorem books_iff_uncut (hids : st.resolvedActionIds.Nodup)
    (h : InOrder env rc.tenantId db w st.resolvedActionIds) :
    Books (finalState (dispatchTasks env rc inp st) (db, w)).1
        (finalState (dispatchTasks env rc inp st) (db, w)).2 st.resolvedActionIds ↔
      Uncut env rc inp st db := by
  constructor
  swap
  · intro huncut
    exact (huncut.inOrder hids h).books
  intro hbooks
  -- a task of an undone transaction is that of an action stored as proposed
  have hnone : ∀ n, Undone env rc inp st db w n
      (finalState (dispatchTasks env rc inp st) (db, w)) →
      tasksUpTo env rc st.approvalDecision inp db st.resolvedActionIds n = [] := by
    intro n hundone
    by_contra hsome
    obtain ⟨j, hj, hne⟩ := tasksUpTo_ne_nil hsome
    obtain ⟨id, a, hid, ha, hproposed⟩ := tasksAt_spec hne
    obtain ⟨p, hp⟩ := List.exists_mem_of_ne_nil _ hne
    have hown : p.1 = id := tasksAt_action hid hp
    have hcreated : (id, p.2) ∈ (finalState (dispatchTasks env rc inp st)
        (db, w)).2.connector.created := by
      rw [hundone.created, ← hown]
      exact List.mem_append_left _ (mem_tasksUpTo hj hp)
    obtain ⟨b, _, hb, hdispatched, _⟩ :=
      hbooks.recorded id (List.mem_of_getElem? hid) p.2 hcreated
    rw [hundone.tables, ha] at hb
    obtain rfl := Option.some.inj hb
    rw [hproposed] at hdispatched
    cases hdispatched
  rcases dispatchTasks_ends inp hids h with ⟨hat, hdurable⟩ | ⟨n, hundone⟩
  · refine ⟨?_, fun _ hback => absurd hback hdurable⟩
    intro k _ hraises
    rw [hat.runs k (lt_of_raises hraises)] at hraises
    cases hraises
  · have hnil := hnone n hundone
    rcases hundone.stops with ⟨rfl, hruns, _⟩ | ⟨k, rfl, hruns, hraises⟩
    · refine ⟨?_, fun _ _ => hnil⟩
      intro k _ hraises
      rw [hruns k (lt_of_raises hraises)] at hraises
      cases hraises
    · constructor
      · intro k' hruns' hraises'
        obtain rfl : k' = k :=
          Nat.le_antisymm (hruns'.le_of_raises hraises) (hruns.le_of_raises hraises')
        exact hnil
      · intro hruns' _
        rw [hruns' k (lt_of_raises hraises)] at hraises
        cases hraises

end

/-! ## Running it again -/

def TaskSide.restarted (w : TaskSide) (restarts : Bool) : TaskSide :=
  if restarts then { w with connector := { w.connector with store := [] } } else w

def tasksOf (id : Uuid) (w : TaskSide) : List (Uuid × String) :=
  w.connector.created.filter (fun p => p.1 = id)

/-- No action has a second task that came between `w` and `w'`. -/
def NoSecond (ids : List Uuid) (w w' : TaskSide) : Prop :=
  ∀ id ∈ ids, tasksOf id w' = tasksOf id w ∨ (tasksOf id w').length ≤ 1

def OneEach (env : TaskEnv) (rc : Tools.RunContext) (inp : DispatchInput) (st : WorkOpsState)
    (db : WorkOpsDb) : Prop :=
  ∀ k, RunsTo env rc st.approvalDecision inp db st.resolvedActionIds k →
    (tasksAt env rc st.approvalDecision inp db st.resolvedActionIds k).length ≤ 1

section

variable {env : TaskEnv} {rc : Tools.RunContext} {inp : DispatchInput} {st : WorkOpsState}
  {db : WorkOpsDb} {w : TaskSide} {ids : List Uuid}

@[simp] theorem restarted_created (w : TaskSide) (restarts : Bool) :
    (w.restarted restarts).connector.created = w.connector.created := by
  unfold TaskSide.restarted
  split <;> rfl

theorem InOrder.restarted {tenantId : Uuid} (h : InOrder env tenantId db w ids) (restarts : Bool) :
    InOrder env tenantId db (w.restarted restarts) ids := by
  refine ⟨h.unique, ⟨?_, ?_⟩, ?_⟩
  · rw [restarted_created]
    exact h.books.recorded
  · rw [restarted_created]
    exact h.books.real
  · intro id hid a ha hproposed
    have hold := h.fresh id hid a ha hproposed
    refine ⟨?_, hold.noRow, ?_⟩
    · unfold TaskSide.restarted
      split
      · exact ⟨hold.keys.unanswered, rfl⟩
      · exact hold.keys
    · rw [restarted_created]
      exact hold.noTask

/-- The tasks of the action at position `j` among those of the first `n` turns. -/
theorem filter_tasksUpTo {d : ReviewDecision} (hids : ids.Nodup) {j : Nat} {id : Uuid}
    (hid : ids[j]? = some id) (n : Nat) :
    (tasksUpTo env rc d inp db ids n).filter (fun p => p.1 = id) =
      if j < n then tasksAt env rc d inp db ids j else [] := by
  induction n with
  | zero => rfl
  | succ n ih =>
    rw [tasksUpTo, List.filter_append, ih]
    by_cases hlast : j = n
    · subst hlast
      have hall : (tasksAt env rc d inp db ids j).filter (fun p => p.1 = id) =
          tasksAt env rc d inp db ids j := by
        rw [List.filter_eq_self]
        intro p hp
        simpa using tasksAt_action hid hp
      rw [hall, if_neg (Nat.lt_irrefl j), if_pos (Nat.lt_succ_self j), List.append_nil]
    · have hnone : (tasksAt env rc d inp db ids n).filter (fun p => p.1 = id) = [] := by
        rw [List.filter_eq_nil_iff]
        intro p hp hown
        cases hid' : ids[n]? with
        | none =>
          unfold tasksAt at hp
          rw [hid'] at hp
          cases hp
        | some id' =>
          have hsame : p.1 = id' := tasksAt_action hid' hp
          simp only [decide_eq_true_eq] at hown
          rw [← hown, hsame, ← hid'] at hid
          have hlt : j < ids.length := by
            by_contra hpast
            rw [List.getElem?_eq_none (by omega), hid'] at hid
            cases hid
          exact hlast ((List.getElem?_inj hlt hids).mp hid)
      rw [hnone, List.nil_append]
      by_cases hj : j < n
      · rw [if_pos hj, if_pos (by omega)]
      · rw [if_neg hj, if_neg (by omega)]

/-- **Once more**: a run over stores in order creates no second task exactly if
    none of the turns it reaches creates two. -/
theorem noSecond_iff (hids : st.resolvedActionIds.Nodup)
    (h : InOrder env rc.tenantId db w st.resolvedActionIds) :
    NoSecond st.resolvedActionIds w (finalState (dispatchTasks env rc inp st) (db, w)).2 ↔
      OneEach env rc inp st db := by
  -- the turns that are reached are the first `n`
  obtain ⟨n, hcreated, hreached⟩ : ∃ n,
      (finalState (dispatchTasks env rc inp st) (db, w)).2.connector.created =
        tasksUpTo env rc st.approvalDecision inp db st.resolvedActionIds n ++
          w.connector.created ∧
      ∀ k, k < st.resolvedActionIds.length →
        (k < n ↔ RunsTo env rc st.approvalDecision inp db st.resolvedActionIds k) := by
    rcases dispatchTasks_ends inp hids h with ⟨hat, _⟩ | ⟨n, hundone⟩
    · refine ⟨_, hat.created, fun k hk => ⟨fun _ j hj => hat.runs j (by omega), fun _ => hk⟩⟩
    · refine ⟨n, hundone.created, fun k hk => ?_⟩
      rcases hundone.stops with ⟨rfl, hruns, _⟩ | ⟨m, rfl, hruns, hraises⟩
      · exact ⟨fun _ j hj => hruns j (by omega), fun _ => hk⟩
      · constructor
        · intro hlt j hj
          exact hruns j (by omega)
        · intro hruns'
          have hle := hruns'.le_of_raises hraises
          omega
  have htasks : ∀ j id, st.resolvedActionIds[j]? = some id →
      tasksOf id (finalState (dispatchTasks env rc inp st) (db, w)).2 =
        (if j < n then tasksAt env rc st.approvalDecision inp db st.resolvedActionIds j else []) ++
          tasksOf id w := by
    intro j id hid
    unfold tasksOf
    rw [hcreated, List.filter_append, filter_tasksUpTo hids hid]
  -- an action whose turn creates a task had none
  have hfirst : ∀ j id, st.resolvedActionIds[j]? = some id →
      tasksAt env rc st.approvalDecision inp db st.resolvedActionIds j ≠ [] → tasksOf id w = [] := by
    intro j id hid hne
    obtain ⟨id', a, hid', ha, hproposed⟩ := tasksAt_spec hne
    rw [hid] at hid'
    obtain rfl := Option.some.inj hid'
    have hnone := (h.fresh id (List.mem_of_getElem? hid) a ha hproposed).noTask
    unfold tasksOf
    rw [List.filter_eq_nil_iff]
    intro p hp hown
    exact hnone p hp (by simpa using hown)
  constructor
  · intro hno k hruns
    cases hid : st.resolvedActionIds[k]? with
    | none =>
      unfold tasksAt
      rw [hid]
      exact Nat.zero_le 1
    | some id =>
      by_cases hnil : tasksAt env rc st.approvalDecision inp db st.resolvedActionIds k = []
      · rw [hnil]
        exact Nat.zero_le 1
      have hk : k < st.resolvedActionIds.length := (List.getElem?_eq_some_iff.mp hid).1
      have hbefore := hfirst k id hid hnil
      have hafter := htasks k id hid
      rw [if_pos ((hreached k hk).mpr hruns), hbefore, List.append_nil] at hafter
      rcases hno id (List.mem_of_getElem? hid) with hsame | hone
      · rw [hafter, hbefore] at hsame
        exact absurd hsame hnil
      · rwa [hafter] at hone
  · intro hone id hid
    obtain ⟨k, hk⟩ := List.getElem?_of_mem hid
    have hlt : k < st.resolvedActionIds.length := (List.getElem?_eq_some_iff.mp hk).1
    have hafter := htasks k id hk
    by_cases hnil : tasksAt env rc st.approvalDecision inp db st.resolvedActionIds k = []
    · rw [hnil, ite_self, List.nil_append] at hafter
      exact .inl hafter
    · by_cases hreach : k < n
      · rw [if_pos hreach, hfirst k id hk hnil, List.append_nil] at hafter
        rw [hafter]
        exact .inr (hone k ((hreached k hlt).mp hreach))
      · rw [if_neg hreach, List.nil_append] at hafter
        exact .inl hafter

/-- **Dispatch bookkeeping**: the stored statuses tell which actions have a task,
    and running the node again, in this process or a new one, creates no second
    task for one, if and only if no exception and no rollback comes after a task
    was created, and no turn of the second run creates two. -/
theorem dispatch_books_iff (env : TaskEnv) (rc rc' : Tools.RunContext) (inp inp' : DispatchInput)
    (st : WorkOpsState) (db : WorkOpsDb) (w : TaskSide) (restarts : Bool)
    (hids : st.resolvedActionIds.Nodup) (htenant : rc'.tenantId = rc.tenantId)
    (h : InOrder env rc.tenantId db w st.resolvedActionIds) :
    let s := finalState (dispatchTasks env rc inp st) (db, w)
    let again := (s.1, s.2.restarted restarts)
    (Books s.1 s.2 st.resolvedActionIds ∧ NoSecond st.resolvedActionIds again.2
        (finalState (dispatchTasks env rc' inp' st) again).2) ↔
      Uncut env rc inp st db ∧ OneEach env rc' inp' st s.1 := by
  intro s again
  rw [books_iff_uncut hids h]
  apply and_congr_right
  intro huncut
  have horder := (huncut.inOrder hids h).restarted restarts
  rw [← htenant] at horder
  exact noSecond_iff hids horder

end

/-! ### Two tasks, the second of which fails -/

def office : TaskEnv :=
  { connectorName := "mock", connectorVersion := "1.0.0", canonicalHash := Json.dumps, redact := id
    isoformat := fun _ => "2026-01-05T09:00:00+00:00" }

def dispatcherContext : Tools.RunContext :=
  { runId := { text := "run" }, tenantId := { text := "tenant" }, actorId := { text := "an" }
    scopes := ["work_ops.write"], traceId := "trace" }

def chiAssignee : ResolvedAssignee :=
  { personId := { text := "chi" }, displayName := "Chi", department := "general", confidence := 1 }

def quoteAction : ActionItem :=
  { id := { text := "a1" }, meetingId := { text := "m" }, title := "Gửi báo giá"
    assignee := some chiAssignee }

def minutesAction : ActionItem :=
  { id := { text := "a2" }, meetingId := { text := "m" }, title := "Chốt biên bản"
    assignee := some chiAssignee }

def twoActions : WorkOpsDb := { actions := [quoteAction, minutesAction] }

def approvedState : WorkOpsState :=
  { meetingId := { text := "m" }, resolvedActionIds := [{ text := "a1" }, { text := "a2" }]
    approvalDecision := { approved := true } }

def answering (externalId : String) : ToolMeets :=
  { answers := fun _ => .answered externalId none, newId := fun _ => { text := "id" } }

def failing : ToolMeets :=
  { answers := fun _ => .refused { cls := .other "KeyError" }, newId := fun _ => { text := "id" } }

def bothAnswered : DispatchInput :=
  { tool := fun k => if k = 0 then answering "MOCK-1" else answering "MOCK-2" }

def secondFails : DispatchInput :=
  { tool := fun k => if k = 0 then answering "MOCK-1" else failing }

theorem twoActions_inOrder :
    InOrder office dispatcherContext.tenantId twoActions {} approvedState.resolvedActionIds := by
  refine ⟨by unfold WorkOpsDb.UniqueIds; decide, ⟨?_, ?_⟩, ?_⟩
  · intro id _ e he
    cases he
  · intro id _ a ha hdispatched
    obtain ⟨hmem, _⟩ := WorkOpsDb.getAction_some ha
    have hproposed : ∀ a ∈ twoActions.actions, a.status = .proposed := by decide
    rw [hproposed a hmem] at hdispatched
    cases hdispatched
  · intro id _ a _ _
    refine ⟨keysUnused_empty _ _ _, ?_, ?_⟩
    · intro t ht
      cases ht
    · intro p hp
      cases hp

/-- Where both calls are answered, the books are right and stay so. -/
theorem both_dispatched :
    let s := finalState (dispatchTasks office dispatcherContext bothAnswered approvedState)
      (twoActions, {})
    let again := (s.1, s.2.restarted true)
    Books s.1 s.2 approvedState.resolvedActionIds ∧
      NoSecond approvedState.resolvedActionIds again.2
        (finalState (dispatchTasks office dispatcherContext secondFails approvedState) again).2 := by
  refine (dispatch_books_iff office dispatcherContext dispatcherContext bothAnswered secondFails
    approvedState twoActions {} true (by decide) rfl twoActions_inOrder).mpr ⟨⟨?_, ?_⟩, ?_⟩
  · intro k _ hraises
    have hquiet : ∀ k < 2, raisesAt office dispatcherContext approvedState.approvalDecision
        bothAnswered twoActions approvedState.resolvedActionIds k = false := by
      decide +kernel
    have hk : k < 2 := lt_of_raises hraises
    rw [hquiet k hk] at hraises
    cases hraises
  · intro _ hback
    cases hback
  · intro k _
    have hdone : ∀ k < 2, (tasksAt office dispatcherContext approvedState.approvalDecision
        secondFails (finalState (dispatchTasks office dispatcherContext bothAnswered approvedState)
          (twoActions, {})).1 approvedState.resolvedActionIds k).length ≤ 1 := by
      decide +kernel
    by_cases hk : k < 2
    · exact hdone k hk
    · unfold tasksAt
      rw [List.getElem?_eq_none (Nat.le_of_not_lt hk)]
      exact Nat.zero_le 1

/-- The second call fails: the first action has a task and is stored as proposed. -/
theorem first_task_forgotten : ¬ ∀ (env : TaskEnv) (rc rc' : Tools.RunContext)
    (inp inp' : DispatchInput) (st : WorkOpsState) (db : WorkOpsDb) (w : TaskSide)
    (restarts : Bool), st.resolvedActionIds.Nodup → rc'.tenantId = rc.tenantId →
    InOrder env rc.tenantId db w st.resolvedActionIds →
    let s := finalState (dispatchTasks env rc inp st) (db, w)
    let again := (s.1, s.2.restarted restarts)
    Books s.1 s.2 st.resolvedActionIds ∧ NoSecond st.resolvedActionIds again.2
      (finalState (dispatchTasks env rc' inp' st) again).2 := by
  intro hclaim
  have hbooks := (hclaim office dispatcherContext dispatcherContext secondFails bothAnswered
    approvedState twoActions {} false (by decide) rfl twoActions_inOrder).1
  have huncut := (books_iff_uncut (by decide) twoActions_inOrder).mp hbooks
  have hnone := huncut.turns 1 (by unfold RunsTo; decide +kernel) (by decide +kernel)
  have hsome : tasksUpTo office dispatcherContext approvedState.approvalDecision secondFails
      twoActions approvedState.resolvedActionIds 2 ≠ [] := by
    decide +kernel
  exact hsome hnone

end DigitalWorker.WorkOps
