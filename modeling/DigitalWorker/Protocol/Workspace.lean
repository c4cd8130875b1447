import DigitalWorker.Protocol.Payloads

/-! # The cases of one tenant

    The world of one case looks at nothing but that case. A tenant has many, all
    of which share the memberships and one store of approval requests, together
    with the requests other workers raise. A step of the workspace is a step of
    one of its cases, so that what holds of every reachable world holds of every
    case of a reachable workspace.
-/

namespace DigitalWorker

open Framework

structure Workspace where
  directory : Directory
  /-- The cases, the newest first. -/
  worlds : List World := []
  /-- The requests of other workers. -/
  others : List ApprovalRequest := []

namespace Workspace

def requests (s : Workspace) : List ApprovalRequest := s.worlds.flatMap (·.requests) ++ s.others

/-- `cases.get`. -/
def caseOf (s : Workspace) (caseId : Uuid) : Option World :=
  s.worlds.find? (fun w => w.db.case.id == caseId)

end Workspace

inductive WorkspaceAction where
  | restaff (directory : Directory)
  | openCase (call : Call) (cmd : CreatePreparationCaseCommand)
  | act (caseId : Uuid) (a : Action)
  | otherWorkers (requests : List ApprovalRequest)

namespace Workspace

variable (env : Env) (s : Workspace)

/-- Requests get identifiers nobody used before, and the memberships change for
    all cases at once. -/
def admits : Action → Bool
  | .restaff _ => false
  | .createApproval _ requestId _ => !(s.requests.any (fun q => q.id == requestId))
  | _ => true

def seenFrom (w : World) : Action → Action
  | .withdraw _ =>
    .withdraw (s.requests.filter (fun q => !(w.requests.any (fun r => r.id == q.id))))
  | a => a

def step (s : Workspace) : WorkspaceAction → Option Workspace
  | .restaff directory => some
    { s with
      directory := directory
      worlds := s.worlds.map (fun w => { w with directory := directory }) }
  | .openCase call cmd =>
    match createCase env s.directory call cmd with
    | .error _ => none
    | .ok db =>
      if (s.caseOf db.case.id).isSome then none
      else some { s with worlds := { directory := s.directory, db := db } :: s.worlds }
  | .act caseId a =>
    match s.caseOf caseId with
    | none => none
    | some w =>
      if s.admits a then
        match w.step env (s.seenFrom w a) with
        | none => none
        | some w' => some
          { s with worlds := s.worlds.map (fun v => if v.db.case.id = caseId then w' else v) }
      else none
  | .otherWorkers requests =>
    if requests.any (·.isPreparation) then none else some { s with others := requests }

end Workspace

def workspace (env : Env) : Machine Workspace WorkspaceAction where
  init s := s.worlds = [] ∧ s.others = []
  step := Workspace.step env

/-! ## Its cases -/

section

variable {env : Env} {s s' : Workspace} {a : WorkspaceAction}

theorem caseOf_some {caseId : Uuid} {w : World} (h : s.caseOf caseId = some w) :
    w ∈ s.worlds ∧ w.db.case.id = caseId := by
  have hid := List.find?_some h
  exact ⟨List.mem_of_find?_eq_some h, by simpa using hid⟩

theorem Workspace.step_cases (hs : s.step env a = some s') :
    (∃ directory, s'.worlds = s.worlds.map (fun w => { w with directory := directory }) ∧
      s'.others = s.others) ∨
    (∃ call cmd db, createCase env s.directory call cmd = .ok db ∧
      s.caseOf db.case.id = none ∧
      s'.worlds = { directory := s.directory, db := db } :: s.worlds ∧ s'.others = s.others) ∨
    (∃ caseId b w w', s.caseOf caseId = some w ∧ w.step env b = some w' ∧
      s'.worlds = s.worlds.map (fun v => if v.db.case.id = caseId then w' else v) ∧
      s'.others = s.others) ∨
    (s'.worlds = s.worlds ∧ ∀ q ∈ s'.others, q.isPreparation = false) := by
  cases a with
  | restaff directory =>
    obtain rfl := Option.some.inj hs
    exact .inl ⟨directory, rfl, rfl⟩
  | openCase call cmd =>
    right; left
    simp only [Workspace.step] at hs
    split at hs
    · cases hs
    · next db hcreate =>
      split at hs
      · cases hs
      · next hfresh =>
        obtain rfl := Option.some.inj hs
        refine ⟨call, cmd, db, hcreate, ?_, rfl, rfl⟩
        simpa using hfresh
  | act caseId b =>
    right; right; left
    simp only [Workspace.step] at hs
    split at hs
    · cases hs
    · next w hw =>
      split at hs
      · split at hs
        · cases hs
        · next w' hstep =>
          obtain rfl := Option.some.inj hs
          exact ⟨caseId, _, w, w', hw, hstep, rfl, rfl⟩
      · cases hs
  | otherWorkers requests =>
    right; right; right
    simp only [Workspace.step] at hs
    split at hs
    · cases hs
    · next hnone =>
      obtain rfl := Option.some.inj hs
      refine ⟨rfl, ?_⟩
      intro q hq
      simp only [List.any_eq_true, not_exists, not_and, Bool.not_eq_true] at hnone
      exact hnone q hq

theorem Workspace.step_caseIds (hs : s.step env a = some s')
    (h : (s.worlds.map (·.db.case.id)).Nodup) : (s'.worlds.map (·.db.case.id)).Nodup := by
  rcases Workspace.step_cases hs with ⟨directory, hworlds, _⟩ |
    ⟨call, cmd, db, hcreate, hfresh, hworlds, _⟩ | ⟨caseId, b, w, w', hw, hstep, hworlds, _⟩ |
    ⟨hworlds, _⟩
  · rw [hworlds, List.map_map]
    exact h
  · rw [hworlds, List.map_cons, List.nodup_cons]
    refine ⟨?_, h⟩
    intro hmem
    obtain ⟨v, hv, hid⟩ := List.mem_map.mp hmem
    have hnone := List.find?_eq_none.mp hfresh v hv
    simp [hid] at hnone
  · have hsame : s'.worlds.map (·.db.case.id) = s.worlds.map (·.db.case.id) := by
      rw [hworlds, List.map_map]
      apply List.map_congr_left
      intro v _
      show (if v.db.case.id = caseId then w' else v).db.case.id = v.db.case.id
      split
      · next hid => rw [step_caseId hstep, (caseOf_some hw).2, hid]
      · rfl
    rw [hsame]
    exact h
  · rw [hworlds]
    exact h

/-- **Cases are told apart** by their identifiers. -/
theorem workspace_caseIds {es : List (Event Workspace WorkspaceAction)}
    (h : Exec (workspace env) es s) : (s.worlds.map (·.db.case.id)).Nodup := by
  apply h.invariant (P := fun s => (s.worlds.map (·.db.case.id)).Nodup)
  · intro s hs
    rw [hs.1]
    exact List.nodup_nil
  · intro s a s' hids hs
    exact Workspace.step_caseIds hs hids

theorem workspace_others {es : List (Event Workspace WorkspaceAction)}
    (h : Exec (workspace env) es s) : ∀ q ∈ s.others, q.isPreparation = false := by
  apply h.invariant (P := fun s => ∀ q ∈ s.others, q.isPreparation = false)
  · intro s hs
    rw [hs.2]
    exact fun q hq => absurd hq List.not_mem_nil
  · intro s a s' hothers hs
    rcases Workspace.step_cases hs with ⟨_, _, hsame⟩ | ⟨_, _, _, _, _, _, hsame⟩ |
      ⟨_, _, _, _, _, _, _, hsame⟩ | ⟨_, hnew⟩
    · rw [hsame]
      exact hothers
    · rw [hsame]
      exact hothers
    · rw [hsame]
      exact hothers
    · exact hnew

theorem reachable_step {w w' : World} {b : Action} (h : Reachable (preparation env) w)
    (hs : w.step env b = some w') : Reachable (preparation env) w' := by
  obtain ⟨es, hes⟩ := h
  exact ⟨_, hes.snoc hs⟩

theorem Workspace.step_reachable (hs : s.step env a = some s')
    (hreach : ∀ w ∈ s.worlds, Reachable (preparation env) w) :
    ∀ w ∈ s'.worlds, Reachable (preparation env) w := by
  rcases Workspace.step_cases hs with ⟨directory, hworlds, _⟩ |
    ⟨call, cmd, db, hcreate, _, hworlds, _⟩ | ⟨caseId, b, w, w', hw, hstep, hworlds, _⟩ |
    ⟨hworlds, _⟩
  · rw [hworlds]
    intro v hv
    obtain ⟨w, hw, rfl⟩ := List.mem_map.mp hv
    exact reachable_step (b := .restaff directory) (hreach w hw) rfl
  · rw [hworlds]
    intro v hv
    rcases List.mem_cons.mp hv with rfl | hv
    · exact ⟨[], .start ⟨call, cmd, hcreate, rfl, rfl, fun _ => rfl, rfl, rfl, rfl, rfl⟩⟩
    · exact hreach v hv
  · rw [hworlds]
    intro v hv
    obtain ⟨u, hu, rfl⟩ := List.mem_map.mp hv
    by_cases hid : u.db.case.id = caseId
    · rw [if_pos hid]
      exact reachable_step (hreach w (caseOf_some hw).1) hstep
    · rw [if_neg hid]
      exact hreach u hu
  · rw [hworlds]
    exact hreach

/-- **Projection**: every case of a reachable workspace is a reachable world. -/
theorem workspace_projects {es : List (Event Workspace WorkspaceAction)}
    (h : Exec (workspace env) es s) : ∀ w ∈ s.worlds, Reachable (preparation env) w := by
  apply h.invariant (P := fun s => ∀ w ∈ s.worlds, Reachable (preparation env) w)
  · intro s hs
    rw [hs.1]
    exact fun w hw => absurd hw List.not_mem_nil
  · intro s a s' hreach hs
    exact Workspace.step_reachable hs hreach

theorem caseOf_mem (hids : (s.worlds.map (·.db.case.id)).Nodup) {w : World} (hw : w ∈ s.worlds) :
    s.caseOf w.db.case.id = some w :=
  find_of_nodup hids hw

end

/-! ## Requests are told apart -/

variable {env : Env} {w w' : World} {a : Action}

theorem withdrawOne_ids {caseId : Uuid} {acc acc' : List ApprovalRequest × String}
    {q : ApprovalRequest} (h : withdrawOne env caseId acc q = .ok acc') :
    acc'.1.map (·.id) = acc.1.map (·.id) := by
  unfold withdrawOne at h
  split at h
  · simp only [bind_ok] at h
    obtain ⟨_, _, saved, hsave, hret⟩ := h
    obtain rfl := Except.ok.inj hret
    exact saveRequest_ids hsave
  · obtain rfl := Except.ok.inj h
    rfl

theorem withdrawLoop_ids {caseId : Uuid} {qs : List ApprovalRequest}
    {acc acc' : List ApprovalRequest × String}
    (h : qs.foldlM (withdrawOne env caseId) acc = .ok acc') :
    acc'.1.map (·.id) = acc.1.map (·.id) := by
  induction qs generalizing acc with
  | nil =>
    obtain rfl := Except.ok.inj h
    rfl
  | cons q qs ih =>
    rw [List.foldlM_cons, bind_ok] at h
    obtain ⟨mid, hq, hqs⟩ := h
    exact (ih hqs).trans (withdrawOne_ids hq)

theorem withdrawPending_ids {caseId : Uuid} {requests requests' : List ApprovalRequest}
    {withdrawn : String} (h : withdrawPending env caseId requests = .ok (requests', withdrawn)) :
    requests'.map (·.id) = requests.map (·.id) := by
  simp only [withdrawPending, bind_ok] at h
  obtain ⟨acc, hloop, hret⟩ := h
  have hacc := withdrawLoop_ids hloop
  split at hret
  · obtain ⟨rfl, _⟩ := Prod.mk.inj (Except.ok.inj hret)
    rfl
  · obtain ⟨rfl, _⟩ := Prod.mk.inj (Except.ok.inj hret)
    exact hacc

theorem step_withdraw_ids {others : List ApprovalRequest}
    (hs : w.step env (.withdraw others) = some w') :
    w'.requests.map (·.id) = w.requests.map (·.id) := by
  simp only [World.step, World.withdraw] at hs
  split at hs
  · cases hs
  · next hunique =>
    split at hs
    · cases hs
    · next requests withdrawn hrun =>
      obtain rfl := Option.some.inj hs
      have hids := withdrawPending_ids hrun
      show (requests.filter (fun q => w.requests.any (fun r => r.id == q.id))).map (·.id) = _
      have hfilter : (requests.filter (fun q => w.requests.any (fun r => r.id == q.id))).map
          (·.id) =
          (requests.map (·.id)).filter (fun id => w.requests.any (fun r => r.id == id)) := by
        rw [List.filter_map]
        rfl
      rw [hfilter, hids, List.map_append, List.filter_append]
      -- all of the case's own identifiers pass, and none of the others
      have hown : (w.requests.map (·.id)).filter
          (fun id => w.requests.any (fun r => r.id == id)) = w.requests.map (·.id) := by
        rw [List.filter_eq_self]
        intro id hid
        obtain ⟨q, hq, rfl⟩ := List.mem_map.mp hid
        rw [List.any_eq_true]
        exact ⟨q, hq, by simp⟩
      have hothers : (others.map (·.id)).filter
          (fun id => w.requests.any (fun r => r.id == id)) = [] := by
        rw [List.filter_eq_nil_iff]
        intro id hid hfound
        obtain ⟨o, ho, rfl⟩ := List.mem_map.mp hid
        apply hunique
        right
        rw [List.any_eq_true]
        exact ⟨o, ho, hfound⟩
      rw [hown, hothers, List.append_nil]

theorem step_requestIds (hs : w.step env a = some w') :
    w'.requests.map (·.id) = w.requests.map (·.id) ∨
      ∃ id, id ∉ w.requests.map (·.id) ∧
        w'.requests.map (·.id) = id :: w.requests.map (·.id) := by
  cases a with
  | withdraw others => exact .inl (step_withdraw_ids hs)
  | createApproval runId requestId now =>
    obtain ⟨_, _, _, _, _, hfresh, rfl⟩ := World.step_createApproval hs
    right
    refine ⟨requestId, ?_, rfl⟩
    intro hmem
    obtain ⟨q, hq, hid⟩ := List.mem_map.mp hmem
    exact hfresh q hq hid
  | decide call cmd =>
    obtain ⟨_, _, _, _, _, hsave, rfl⟩ := World.step_decide hs
    exact .inl (saveRequest_ids hsave)
  | _ => exact .inl (by rw [(World.step_frame hs).requests rfl])

/-- **Requests are told apart** by their identifiers. -/
theorem requestIds_nodup {es : List (Event World Action)} (h : Exec (preparation env) es w) :
    (w.requests.map (·.id)).Nodup := by
  apply h.invariant (P := fun w => (w.requests.map (·.id)).Nodup)
  · intro w hw
    obtain ⟨_, _, _, hrequests, _⟩ := hw
    rw [hrequests]
    exact List.nodup_nil
  · intro w a w' hids hs
    rcases step_requestIds hs with hsame | ⟨id, hnew, hcons⟩
    · rw [hsame]
      exact hids
    · rw [hcons]
      exact List.nodup_cons.mpr ⟨hnew, hids⟩

end DigitalWorker
