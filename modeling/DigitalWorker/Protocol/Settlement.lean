import DigitalWorker.Protocol.Desk
import DigitalWorker.Protocol.World

/-! # An approval is resolved once

    However the steps of decisions and withdrawals interleave, a request is
    settled by one call. The row lock keeps a second writer waiting, and when its
    wait is over the version it read is gone.
-/

namespace DigitalWorker

open Framework

namespace Desk

/-! ## The property -/

def decisionsOn (w : Desk) (id : Uuid) : List (Nat × ApprovalDecision) :=
  w.decisions.filter (fun d => d.2.requestId = id)

def resumesOf (w : Desk) (id : Uuid) : List RunResumed :=
  w.resumes.filter (fun m => m.requestId = id)

def outcomesOf : ApprovalStatus → List DecisionOutcome
  | .approved => [.approved]
  | .rejected => [.rejected]
  | .pending | .cancelled => []

def Settled (w : Desk) (id : Uuid) : Prop := ∃ q ∈ w.requests, q.id = id ∧ q.status ≠ .pending

instance (w : Desk) (id : Uuid) : Decidable (w.Settled id) :=
  inferInstanceAs (Decidable (∃ q ∈ w.requests, q.id = id ∧ q.status ≠ .pending))

def leaves (id : Uuid) (e : Event Desk DeskAction) : Bool := !e.pre.Settled id && e.post.Settled id

/-- A step that nobody else can tell from no step: nothing is committed, and no run
    is resumed. -/
structure Quiet (e : Event Desk DeskAction) : Prop where
  requests : e.post.requests = e.pre.requests
  decisions : e.post.decisions = e.pre.decisions
  resumes : e.post.resumes = e.pre.resumes

structure CarriesOut (w : Desk) (m : RunResumed) (d : ApprovalDecision) : Prop where
  stored : (m.call, d) ∈ w.decisions
  request : d.requestId = m.requestId
  run : ∃ q ∈ w.requests, q.id = m.requestId ∧ q.runId = some m.runId
  outcome : outcomeOf m.payload.approved = d.outcome
  comment : m.payload.comment = d.comment
  decidedBy : m.payload.decidedBy = some d.decidedBy

/-- **The property**, of a run and the state it reaches. -/
structure ResolvedOnce (es : List (Event Desk DeskAction)) (w : Desk) : Prop where
  /-- Each request leaves the pending status at most once. -/
  leavesOnce : ∀ id, (es.filter (leaves id)).length ≤ 1
  /-- A request has the stored decision its status says, and no other. -/
  decisions : ∀ q ∈ w.requests, (w.decisionsOn q.id).map (·.2.outcome) = outcomesOf q.status
  /-- Its run is resumed at most once. -/
  resumedOnce : ∀ id, (w.resumesOf id).length ≤ 1
  /-- A run is resumed by the call whose decision is stored, with that decision. -/
  resumedBy : ∀ m ∈ w.resumes, ∃ d, w.CarriesOut m d
  /-- A decision that ended well, or raised after its commit, is the stored one. -/
  accepted : ∀ c x, (w.calls c = some (.returned x) ∨ ∃ e, w.calls c = some (.broken x e)) →
    (c, x.decision) ∈ w.decisions
  /-- A call that failed has had no effect. -/
  others : ∀ c error, w.calls c = some (.failed error) → ∀ e ∈ es, e.act.call? = some c → Quiet e

/-! ## What holds of the table and of the calls -/

structure Settles (r v : ApprovalRequest) : Prop where
  pending : r.status = .pending
  settled : v.status ≠ .pending
  id : v.id = r.id
  runId : v.runId = r.runId
  version : v.version = r.version + 1

def Knows (w : Desk) (id : Uuid) (runId : Option Uuid) : Prop :=
  ∃ q ∈ w.requests, q.id = id ∧ q.runId = runId

def Holds (w : Desk) (c : Nat) (id : Uuid) (status : ApprovalStatus) : Prop :=
  ∃ r ∈ w.rows, r.committed.id = id ∧ ∃ v, r.uncommitted = some (c, v) ∧ v.status = status

structure Ruled (w : Desk) (x : Ruling) : Prop where
  version : x.decided.version = 2
  status : x.decided.status = if x.cmd.approve then .approved else .rejected
  decision : x.decision = { requestId := x.decided.id, decidedBy := x.call.context.principalId
                            outcome := outcomeOf x.cmd.approve, comment := x.cmd.comment
                            decidedAt := x.call.now }
  known : w.Knows x.decided.id x.decided.runId

def made : DeskPhase → Option Ruling
  | .committed x | .resuming x | .returned x | .broken x _ => some x
  | _ => none

def Writes (id : Uuid) (status : ApprovalStatus) : Option DeskPhase → Prop
  | some (.saved x) | some (.recorded x) => x.decided.id = id ∧ x.decided.status = status
  | some (.withdrawing _ _ _) => status = .cancelled
  | _ => False

def CallOk (w : Desk) (c : Nat) : DeskPhase → Prop
  | .checked x => w.Ruled x
  | .saved x | .recorded x => w.Ruled x ∧ w.Holds c x.decided.id x.decided.status
  | .committed x | .resuming x | .returned x | .broken x _ =>
    w.Ruled x ∧ (c, x.decision) ∈ w.decisions
  | .withdrawing _ rest _ => ∀ q ∈ rest, q.status = .pending ∧ q.version = 1 ∧ w.Knows q.id q.runId
  | .withdrawn _ | .failed _ => True

def ResumedBy (w : Desk) (m : RunResumed) : Prop :=
  ∃ x, (w.calls m.call = some (.returned x) ∨ ∃ e, w.calls m.call = some (.broken x e)) ∧
    m.requestId = x.decided.id ∧ x.decided.runId = some m.runId ∧
    m.payload = resumeDecision x.call x.cmd

structure Consistent (w : Desk) : Prop where
  ids : (w.requests.map (·.id)).Nodup
  fresh : ∀ q ∈ w.requests, q.status = .pending ↔ q.version = 1
  sound : LockedRow.Sound Settles w.rows
  writers : ∀ r ∈ w.rows, ∀ c v, r.uncommitted = some (c, v) →
    Writes r.committed.id v.status (w.calls c)
  calls : ∀ c p, w.calls c = some p → w.CallOk c p
  decisions : ∀ q ∈ w.requests, (w.decisionsOn q.id).map (·.2.outcome) = outcomesOf q.status
  madeBy : ∀ d ∈ w.decisions, ∃ p x, w.calls d.1 = some p ∧ made p = some x ∧ x.decision = d.2
  resumedBy : ∀ m ∈ w.resumes, w.ResumedBy m
  resumedOnce : (w.resumes.map (·.call)).Nodup

/-! ## Facts that survive a step -/

section

variable {w w' : Desk} {c d : Nat} {p : DeskPhase} {x : Ruling}

theorem Ruled.mono (h : w.Ruled x) (hknows : ∀ id runId, w.Knows id runId → w'.Knows id runId) :
    w'.Ruled x :=
  ⟨h.version, h.status, h.decision, hknows _ _ h.known⟩

theorem CallOk.mono (h : w.CallOk d p) (hknows : ∀ id runId, w.Knows id runId → w'.Knows id runId)
    (hholds : ∀ id status, w.Holds d id status → w'.Holds d id status)
    (hdecisions : ∀ y, y ∈ w.decisions → y ∈ w'.decisions) : w'.CallOk d p := by
  cases p with
  | checked x => exact h.mono hknows
  | saved x => exact ⟨h.1.mono hknows, hholds _ _ h.2⟩
  | recorded x => exact ⟨h.1.mono hknows, hholds _ _ h.2⟩
  | committed x => exact ⟨h.1.mono hknows, hdecisions _ h.2⟩
  | resuming x => exact ⟨h.1.mono hknows, hdecisions _ h.2⟩
  | returned x => exact ⟨h.1.mono hknows, hdecisions _ h.2⟩
  | broken x e => exact ⟨h.1.mono hknows, hdecisions _ h.2⟩
  | withdrawing caseId rest name =>
    intro q hq
    obtain ⟨hpending, hversion, hknown⟩ := h q hq
    exact ⟨hpending, hversion, hknows _ _ hknown⟩
  | withdrawn name => trivial
  | failed e => trivial

theorem Knows.of_requests (h : w'.requests = w.requests) {id : Uuid} {runId : Option Uuid}
    (hk : w.Knows id runId) : w'.Knows id runId := by
  rw [Knows, h]
  exact hk

@[simp] theorem move_rows : (w.move c p).rows = w.rows := rfl
@[simp] theorem move_requests : (w.move c p).requests = w.requests := rfl
@[simp] theorem move_decisions : (w.move c p).decisions = w.decisions := rfl
@[simp] theorem move_resumes : (w.move c p).resumes = w.resumes := rfl
@[simp] theorem move_self : (w.move c p).calls c = some p := Sessions.put_self _ _ _
theorem move_ne (h : d ≠ c) : (w.move c p).calls d = w.calls d := Sessions.put_ne h

theorem move_some {q : DeskPhase} (h : (w.move c p).calls d = some q) :
    (d = c ∧ q = p) ∨ (d ≠ c ∧ w.calls d = some q) :=
  Sessions.put_some h

end

/-! ## What a step does to the invariant -/

section

variable {w : Desk} {c : Nat} {p : DeskPhase} {x : Ruling} {rows : List (LockedRow ApprovalRequest)}

def Open (w : Desk) (c : Nat) : Prop :=
  ∀ x, w.calls c ≠ some (.returned x) ∧ ∀ e, w.calls c ≠ some (.broken x e)

theorem Consistent.not_resumed (h : w.Consistent) (hopen : w.Open c) {m : RunResumed}
    (hm : m ∈ w.resumes) : m.call ≠ c := by
  rintro rfl
  obtain ⟨x, hreturned | ⟨e, hbroken⟩, -⟩ := h.resumedBy m hm
  · exact (hopen x).1 hreturned
  · exact (hopen x).2 e hbroken

variable {q : ApprovalRequest} {a : DeskAction} {w' : Desk} {env : Env}

theorem Consistent.resumedBy_move (h : w.Consistent) (hopen : w.Open c)
    (hcalls : ∀ d, d ≠ c → w'.calls d = w.calls d) {m : RunResumed} (hm : m ∈ w.resumes) :
    w'.ResumedBy m := by
  obtain ⟨x, hphase, hrest⟩ := h.resumedBy m hm
  refine ⟨x, ?_, hrest⟩
  rw [hcalls _ (h.not_resumed hopen hm)]
  exact hphase

/-- **Advancing**: an open call goes to a phase and changes what is written over
    the requests, and nothing is committed. -/
theorem Consistent.advance (h : w.Consistent) (hopen : w.Open c)
    (hrequests : rows.map (·.committed) = w.requests) (hsound : LockedRow.Sound Settles rows)
    (hwriters : ∀ r ∈ rows, ∀ d v, r.uncommitted = some (d, v) →
      (d = c ∧ Writes r.committed.id v.status (some p)) ∨
      (d ≠ c ∧ Writes r.committed.id v.status (w.calls d)))
    (hholds : ∀ d, d ≠ c → ∀ id status, w.Holds d id status →
      ({ w with rows := rows } : Desk).Holds d id status)
    (hp : ({ w with rows := rows } : Desk).CallOk c p)
    (hmade : ∀ q x, w.calls c = some q → made q = some x → made p = some x) :
    (({ w with rows := rows } : Desk).move c p).Consistent := by
  have hreq : (({ w with rows := rows } : Desk).move c p).requests = w.requests := hrequests
  have hknows : ∀ id runId, w.Knows id runId →
      (({ w with rows := rows } : Desk).move c p).Knows id runId :=
    fun id runId hk => hk.of_requests hreq
  constructor
  · rw [hreq]
    exact h.ids
  · rw [hreq]
    exact h.fresh
  · exact hsound
  · intro r hr d v hv
    rcases hwriters r hr d v hv with ⟨rfl, hw⟩ | ⟨hd, hw⟩
    · rw [move_self]
      exact hw
    · rw [move_ne hd]
      exact hw
  · intro d q hq
    rcases move_some hq with ⟨rfl, rfl⟩ | ⟨hd, hq⟩
    · exact hp.mono (fun _ _ hk => hk) (fun _ _ hk => hk) (fun _ hy => hy)
    · exact (h.calls d q hq).mono hknows (hholds d hd) (fun y hy => hy)
  · intro q hq
    rw [hreq] at hq
    exact h.decisions q hq
  · intro d hd
    obtain ⟨q, x, hq, hx, hdecision⟩ := h.madeBy d hd
    by_cases hc : d.1 = c
    · refine ⟨p, x, ?_, hmade q x (by rw [← hc]; exact hq) hx, hdecision⟩
      rw [hc]
      exact move_self
    · refine ⟨q, x, ?_, hx, hdecision⟩
      rw [move_ne hc]
      exact hq
  · intro m hm
    exact h.resumedBy_move hopen (fun d hd => move_ne hd) hm
  · exact h.resumedOnce

/-- **Moving on** without touching the table. -/
theorem Consistent.move (h : w.Consistent) (hopen : w.Open c) (hp : w.CallOk c p)
    (hwrites : ∀ id status, Writes id status (w.calls c) → Writes id status (some p))
    (hmade : ∀ q x, w.calls c = some q → made q = some x → made p = some x) :
    (w.move c p).Consistent := by
  apply h.advance hopen rfl h.sound ?_ (fun d _ id status hd => hd) hp hmade
  intro r hr d v hv
  have hwriter := h.writers r hr d v hv
  by_cases hd : d = c
  · subst hd
    exact .inl ⟨rfl, hwrites _ _ hwriter⟩
  · exact .inr ⟨hd, hwriter⟩

theorem abort_requests : (w.rows.map (LockedRow.rollback c)).map (·.committed) = w.requests := by
  rw [List.map_map]
  exact List.map_congr_left (fun r _ => LockedRow.rollback_committed c r)

/-- **Rolling back**: a call without a committed decision gives its rows back. -/
theorem Consistent.abort (h : w.Consistent) (hopen : w.Open c)
    (hp : (∃ e, p = .failed e) ∨ ∃ name, p = .withdrawn name)
    (hmade : ∀ q, w.calls c = some q → made q = none) : (w.abort c p).Consistent := by
  show (({ w with rows := w.rows.map (LockedRow.rollback c) } : Desk).move c p).Consistent
  apply h.advance hopen abort_requests (h.sound.rollback c)
  · intro r' hr' d v hv
    obtain ⟨r, hr, rfl⟩ := List.mem_map.mp hr'
    obtain ⟨hold, hd⟩ := LockedRow.rollback_uncommitted.mp hv
    rw [LockedRow.rollback_committed]
    exact .inr ⟨hd, h.writers r hr d v hold⟩
  · intro d hd id status hholds
    obtain ⟨r, hr, hid, v, hv, hstatus⟩ := hholds
    refine ⟨r.rollback c, List.mem_map_of_mem hr, ?_, v, ?_, hstatus⟩
    · rw [LockedRow.rollback_committed]
      exact hid
    · exact LockedRow.rollback_uncommitted.mpr ⟨hv, hd⟩
  · obtain ⟨e, rfl⟩ | ⟨name, rfl⟩ := hp
    · trivial
    · trivial
  · intro q x hq hx
    rw [hmade q hq] at hx
    cases hx

theorem save_settles (h : w.Consistent) (hsettled : q.status ≠ .pending)
    (hversion : q.version = 2) {r : LockedRow ApprovalRequest} (hr : r ∈ w.rows)
    (hp : ((r.seen c).version + 1 == q.version) = true) (hfree : r.blocks c = false) :
    Settles r.committed { r.seen c with
      status := q.status, decidedAt := q.decidedAt, version := q.version } := by
  have hseen : (r.seen c).version = 1 := by
    have := eq_of_beq hp
    omega
  cases hown : r.uncommitted with
  | none =>
    have hcommitted : r.seen c = r.committed := by rw [LockedRow.seen, hown]
    rw [hcommitted] at hseen ⊢
    have hmem : r.committed ∈ w.requests := List.mem_map_of_mem hr
    exact ⟨(h.fresh _ hmem).mpr hseen, hsettled, rfl, rfl, by
      show q.version = r.committed.version + 1
      omega⟩
  | some y =>
    obtain ⟨d, v⟩ := y
    -- what the call has written itself is a version on already
    have hd : d = c := by simpa [LockedRow.blocks, hown] using hfree
    have hv : r.seen c = v := by rw [LockedRow.seen, hown]; exact if_pos hd
    have hsettles := h.sound r hr d v hown
    have hmem : r.committed ∈ w.requests := List.mem_map_of_mem hr
    have hone := (h.fresh _ hmem).mp hsettles.pending
    have htwo := hsettles.version
    rw [hv] at hseen
    omega

theorem Consistent.save (h : w.Consistent) (hopen : w.Open c)
    (hsettled : q.status ≠ .pending) (hversion : q.version = 2)
    (hsave : w.save c q = .updated rows)
    (hwrites : ∀ id status, Writes id status (w.calls c) → Writes id status (some p))
    (hq : Writes q.id q.status (some p))
    (hp : ({ w with rows := rows } : Desk).Holds c q.id q.status →
      (∀ id runId, w.Knows id runId → ({ w with rows := rows } : Desk).Knows id runId) →
      ({ w with rows := rows } : Desk).CallOk c p)
    (hmade : ∀ q x, w.calls c = some q → made q = some x → made p = some x) :
    (({ w with rows := rows } : Desk).move c p).Consistent := by
  have hrequests : rows.map (·.committed) = w.requests := LockedRow.update_committed hsave
  have hsound : LockedRow.Sound Settles rows := by
    apply h.sound.update ?_ ?_ hsave
    · intro r hr _ hfree hmatch
      exact save_settles h hsettled hversion hr hmatch hfree
    · have hids := h.ids
      rw [requests, List.map_map] at hids
      exact hids
  obtain ⟨r₀, hr₀, hid₀, hfree, -, rfl⟩ := LockedRow.update_updated hsave
  apply h.advance hopen hrequests hsound
  · intro r' hr' d v hv
    obtain ⟨r, hr, rfl⟩ := List.mem_map.mp hr'
    by_cases hid : r.committed.id = q.id
    · rw [if_pos hid] at hv ⊢
      simp only [Option.some.injEq, Prod.mk.injEq] at hv
      obtain ⟨rfl, rfl⟩ := hv
      left
      refine ⟨rfl, ?_⟩
      show Writes r.committed.id q.status (some p)
      rw [hid]
      exact hq
    · rw [if_neg hid] at hv ⊢
      have hwriter := h.writers r hr d v hv
      by_cases hd : d = c
      · subst hd
        exact .inl ⟨rfl, hwrites _ _ hwriter⟩
      · exact .inr ⟨hd, hwriter⟩
  · intro d hd id status hholds
    obtain ⟨r, hr, hid, v, hv, hstatus⟩ := hholds
    have hne : r.committed.id ≠ q.id := by
      intro heq
      -- the row is written by `d`, so the save of `c` would have waited
      have hmem : r.committed ∈ w.requests := List.mem_map_of_mem hr
      have hmem₀ : r₀.committed ∈ w.requests := List.mem_map_of_mem hr₀
      have hids := h.ids
      rw [requests, List.map_map] at hids
      obtain rfl := Rows.eq_of_key hids hr hr₀ (heq.trans hid₀.symm)
      simp only [LockedRow.blocks, hv] at hfree
      exact hd (by simpa using hfree)
    refine ⟨r, List.mem_map.mpr ⟨r, hr, if_neg hne⟩, hid, v, hv, hstatus⟩
  · apply hp
    · refine ⟨_, List.mem_map.mpr ⟨r₀, hr₀, if_pos hid₀⟩, hid₀, _, rfl, rfl⟩
    · intro id runId hk
      exact Knows.of_requests (show Desk.requests { w with rows := _ } = _ from hrequests) hk
  · exact hmade

def committing (w : Desk) (c : Nat) (ds : List (Nat × ApprovalDecision)) : Desk :=
  { w with rows := w.rows.map (LockedRow.commit c), decisions := ds ++ w.decisions }

theorem mem_committing (ds : List (Nat × ApprovalDecision)) :
    q ∈ (w.committing c ds).requests ↔ ∃ r ∈ w.rows, (r.commit c).committed = q := by
  simp [committing, requests, List.mem_map]

theorem Consistent.commit_same (h : w.Consistent) {r : LockedRow ApprovalRequest}
    (hr : r ∈ w.rows) :
    (r.commit c).committed.id = r.committed.id ∧ (r.commit c).committed.runId = r.committed.runId := by
  rcases h.sound.commit_step hr c with hsame | ⟨v, -, hv, hsettles⟩
  · rw [hsame]
    exact ⟨rfl, rfl⟩
  · rw [hv]
    exact ⟨hsettles.id, hsettles.runId⟩

theorem Consistent.committing_ids (h : w.Consistent) (ds : List (Nat × ApprovalDecision)) :
    (w.committing c ds).requests.map (·.id) = w.requests.map (·.id) := by
  show ((w.rows.map (LockedRow.commit c)).map (·.committed)).map (·.id) =
    (w.rows.map (·.committed)).map (·.id)
  rw [List.map_map, List.map_map, List.map_map]
  exact List.map_congr_left (fun r hr => (h.commit_same hr).1)

theorem Consistent.committing_knows (h : w.Consistent) {ds : List (Nat × ApprovalDecision)}
    {id : Uuid} {runId : Option Uuid} (hk : w.Knows id runId) :
    (w.committing c ds).Knows id runId := by
  obtain ⟨q, hq, hid, hrun⟩ := hk
  obtain ⟨r, hr, rfl⟩ := List.mem_map.mp hq
  obtain ⟨hsame, hrunsame⟩ := @Consistent.commit_same w c h r hr
  exact ⟨_, (mem_committing ds).mpr ⟨r, hr, rfl⟩, hsame.trans hid, hrunsame.trans hrun⟩

/-- **Committing**: a call commits what it has written, with the decisions that go
    with it. -/
theorem Consistent.commit (h : w.Consistent) (hopen : w.Open c)
    {ds : List (Nat × ApprovalDecision)}
    (hown : ∀ r ∈ w.rows, ∀ v, r.uncommitted = some (c, v) →
      (ds.filter (fun d => d.2.requestId = r.committed.id)).map (·.2.outcome) = outcomesOf v.status)
    (hother : ∀ r ∈ w.rows, (∀ v, r.uncommitted ≠ some (c, v)) →
      ds.filter (fun d => d.2.requestId = r.committed.id) = [])
    (hds : ∀ d ∈ ds, d.1 = c ∧ ∃ x, made p = some x ∧ x.decision = d.2)
    (hp : (∀ id runId, w.Knows id runId → (w.committing c ds).Knows id runId) →
      (w.committing c ds).CallOk c p)
    (hmade : ∀ q, w.calls c = some q → made q = none) :
    ((w.committing c ds).move c p).Consistent := by
  have hknows : ∀ id runId, w.Knows id runId → (w.committing c ds).Knows id runId :=
    fun id runId hk => h.committing_knows hk
  constructor
  · rw [move_requests, h.committing_ids]
    exact h.ids
  · intro q hq
    obtain ⟨r, hr, rfl⟩ := (mem_committing ds).mp hq
    have hmem : r.committed ∈ w.requests := List.mem_map_of_mem hr
    rcases h.sound.commit_step hr c with hsame | ⟨v, -, hv, hsettles⟩
    · rw [hsame]
      exact h.fresh _ hmem
    · rw [hv]
      have hone := (h.fresh _ hmem).mp hsettles.pending
      have htwo := hsettles.version
      constructor
      · intro hpending
        exact absurd hpending hsettles.settled
      · intro hversion
        omega
  · exact h.sound.commit c
  · intro r' hr' d v hv
    obtain ⟨r, hr, rfl⟩ := List.mem_map.mp hr'
    obtain ⟨hold, hd⟩ := LockedRow.commit_uncommitted.mp hv
    rw [move_ne hd, (h.commit_same hr).1]
    exact h.writers r hr d v hold
  · intro d q hq
    rcases move_some hq with ⟨rfl, rfl⟩ | ⟨hd, hq⟩
    · exact (hp hknows).mono (fun _ _ hk => hk) (fun _ _ hk => hk) (fun _ hy => hy)
    · refine (h.calls d q hq).mono hknows ?_ (fun y hy => List.mem_append_right _ hy)
      intro id status hholds
      obtain ⟨r, hr, hid, v, hv, hstatus⟩ := hholds
      refine ⟨r.commit c, List.mem_map_of_mem hr, ?_, v, ?_, hstatus⟩
      · rw [(h.commit_same hr).1]
        exact hid
      · exact LockedRow.commit_uncommitted.mpr ⟨hv, hd⟩
  · intro q hq
    obtain ⟨r, hr, rfl⟩ := (mem_committing ds).mp hq
    have hmem : r.committed ∈ w.requests := List.mem_map_of_mem hr
    have hbefore := h.decisions _ hmem
    show ((ds ++ w.decisions).filter (fun d => d.2.requestId =
      (r.commit c).committed.id)).map (·.2.outcome) = outcomesOf (r.commit c).committed.status
    rw [(h.commit_same hr).1, List.filter_append, List.map_append]
    rw [decisionsOn] at hbefore
    rw [hbefore]
    by_cases hwritten : ∃ v, r.uncommitted = some (c, v)
    · obtain ⟨v, hv⟩ := hwritten
      have hsettles := h.sound r hr c v hv
      rw [LockedRow.commit_own hv, hown r hr v hv, hsettles.pending]
      exact List.append_nil _
    · have hnot : ∀ v, r.uncommitted ≠ some (c, v) := fun v hv => hwritten ⟨v, hv⟩
      rw [LockedRow.commit_other hnot, hother r hr hnot]
      rfl
  · intro d hd
    rcases List.mem_append.mp hd with hnew | hold
    · obtain ⟨hc, x, hx, hdecision⟩ := hds d hnew
      refine ⟨p, x, ?_, hx, hdecision⟩
      rw [hc]
      exact move_self
    · obtain ⟨q, x, hq, hx, hdecision⟩ := h.madeBy d hold
      have hd : d.1 ≠ c := by
        intro hc
        rw [hmade q (by rw [← hc]; exact hq)] at hx
        cases hx
      refine ⟨q, x, ?_, hx, hdecision⟩
      rw [move_ne hd]
      exact hq
  · intro m hm
    exact h.resumedBy_move hopen (fun d hd => move_ne hd) hm
  · exact h.resumedOnce

theorem Consistent.raise (h : w.Consistent) (hpending : q.status = .pending)
    (hversion : q.version = 1) (hnew : q.id ∉ w.requests.map (·.id)) :
    ({ w with rows := { committed := q } :: w.rows } : Desk).Consistent := by
  have hknows : ∀ id runId, w.Knows id runId →
      ({ w with rows := { committed := q } :: w.rows } : Desk).Knows id runId := by
    rintro id runId ⟨q', hq', hk⟩
    exact ⟨q', List.mem_cons_of_mem _ hq', hk⟩
  constructor
  · exact List.nodup_cons.mpr ⟨hnew, h.ids⟩
  · intro q' hq'
    rcases List.mem_cons.mp hq' with rfl | hq'
    · exact iff_of_true hpending hversion
    · exact h.fresh q' hq'
  · intro r hr d v hv
    rcases List.mem_cons.mp hr with rfl | hr
    · cases hv
    · exact h.sound r hr d v hv
  · intro r hr d v hv
    rcases List.mem_cons.mp hr with rfl | hr
    · cases hv
    · exact h.writers r hr d v hv
  · intro d p hp
    refine (h.calls d p hp).mono hknows ?_ (fun y hy => hy)
    rintro id status ⟨r, hr, hholds⟩
    exact ⟨r, List.mem_cons_of_mem _ hr, hholds⟩
  · intro q' hq'
    rcases List.mem_cons.mp hq' with rfl | hq'
    · -- every decision is on a request that was there
      rw [hpending]
      show (w.decisions.filter _).map _ = []
      rw [List.map_eq_nil_iff, List.filter_eq_nil_iff]
      intro d hd hid
      obtain ⟨p, x, hp, hx, hdecision⟩ := h.madeBy d hd
      have hruled : w.Ruled x := by
        have hok := h.calls d.1 p hp
        cases p with
        | committed y => cases hx; exact hok.1
        | resuming y => cases hx; exact hok.1
        | returned y => cases hx; exact hok.1
        | broken y e => cases hx; exact hok.1
        | _ => cases hx
      obtain ⟨q₀, hq₀, hid₀, -⟩ := hruled.known
      apply hnew
      rw [List.mem_map]
      refine ⟨q₀, hq₀, ?_⟩
      rw [hid₀, ← of_decide_eq_true hid, ← hdecision, hruled.decision]
    · exact h.decisions q' hq'
  · exact h.madeBy
  · exact h.resumedBy
  · exact h.resumedOnce

theorem Consistent.resume (h : w.Consistent) (hc : w.calls c = some (.resuming x)) {runId : Uuid}
    (hrun : x.decided.runId = some runId)
    (hp : p = .returned x ∨ ∃ e, p = .broken x e) :
    (({ w with
        resumes := { call := c, requestId := x.decided.id, runId := runId
                     payload := resumeDecision x.call x.cmd } :: w.resumes } : Desk).move
      c p).Consistent := by
  have hopen : w.Open c := by
    intro y
    rw [hc]
    exact ⟨by simp, by simp⟩
  have hmoved : (w.move c p).Consistent := by
    apply h.move hopen
    · have hok := h.calls c _ hc
      obtain rfl | ⟨e, rfl⟩ := hp
      · exact hok
      · exact hok
    · intro id status hwrites
      rw [hc] at hwrites
      exact hwrites.elim
    · intro q y hq hy
      rw [hc] at hq
      cases hq
      obtain rfl | ⟨e, rfl⟩ := hp
      · exact hy
      · exact hy
  constructor
  · exact hmoved.ids
  · exact hmoved.fresh
  · exact hmoved.sound
  · exact hmoved.writers
  · intro d q hq
    exact (hmoved.calls d q hq).mono (fun _ _ hk => hk) (fun _ _ hk => hk) (fun _ hy => hy)
  · exact hmoved.decisions
  · exact hmoved.madeBy
  · intro m hm
    rcases List.mem_cons.mp hm with rfl | hm
    · refine ⟨x, ?_, rfl, hrun, rfl⟩
      show (w.move c p).calls c = _ ∨ _
      rw [move_self]
      obtain rfl | ⟨e, rfl⟩ := hp
      · exact .inl rfl
      · exact .inr ⟨e, move_self⟩
    · exact hmoved.resumedBy m hm
  · refine List.nodup_cons.mpr ⟨?_, h.resumedOnce⟩
    intro hmem
    obtain ⟨m, hm, hcall⟩ := List.mem_map.mp hmem
    exact h.not_resumed hopen hm hcall

def isOver : DeskPhase → Bool
  | .returned _ | .broken _ _ => true
  | _ => false

theorem open_of (hc : w.calls c = some p) (hp : isOver p = false) : w.Open c := by
  intro y
  rw [hc]
  constructor
  · rintro hreturned
    cases hreturned
    cases hp
  · rintro e hbroken
    cases hbroken
    cases hp

theorem Ruled.settled (h : w.Ruled x) : x.decided.status ≠ .pending := by
  rw [h.status]
  split <;> simp

theorem Ruled.outcome (h : w.Ruled x) : [x.decision.outcome] = outcomesOf x.decided.status := by
  rw [h.status, h.decision]
  cases x.cmd.approve <;> rfl

/-- **A ruling commits**: the request it has written gets its status, and it is the
    only one. -/
theorem Consistent.commit_ruling (h : w.Consistent) (hc : w.calls c = some (.recorded x))
    (hp : p = .returned x ∨ p = .committed x) :
    ((w.committing c [(c, x.decision)]).move c p).Consistent := by
  obtain ⟨hruled, r₀, hr₀, hid₀, v₀, hv₀, -⟩ := h.calls c _ hc
  have hrequest : x.decision.requestId = x.decided.id := by rw [hruled.decision]
  have hmade : made p = some x := by
    obtain rfl | rfl := hp
    · rfl
    · rfl
  apply h.commit (open_of hc rfl)
  · intro r hr v hv
    have hwrites := h.writers r hr c v hv
    rw [hc] at hwrites
    obtain ⟨hid, hstatus⟩ := hwrites
    rw [List.filter_cons_of_pos (by simp [hrequest, hid]), ← hstatus]
    exact hruled.outcome
  · intro r hr hnot
    rw [List.filter_cons_of_neg]
    · rfl
    · intro hid
      have hid : x.decision.requestId = r.committed.id := of_decide_eq_true hid
      have hids := h.ids
      rw [requests, List.map_map] at hids
      obtain rfl := Rows.eq_of_key hids hr hr₀ ((hid.symm.trans hrequest).trans hid₀.symm)
      exact hnot v₀ hv₀
  · intro d hd
    obtain rfl := List.mem_singleton.mp hd
    exact ⟨rfl, x, hmade, rfl⟩
  · intro hknows
    have hstored : (c, x.decision) ∈ (w.committing c [(c, x.decision)]).decisions :=
      List.mem_cons_self
    obtain rfl | rfl := hp
    · exact ⟨hruled.mono hknows, hstored⟩
    · exact ⟨hruled.mono hknows, hstored⟩
  · intro q hq
    rw [hc] at hq
    cases hq
    rfl

/-- **A withdrawal commits**: what it has written is cancelled. -/
theorem Consistent.commit_withdrawal (h : w.Consistent) {caseId : Uuid}
    {rest : List ApprovalRequest} {name name' : String}
    (hc : w.calls c = some (.withdrawing caseId rest name)) :
    ((w.committing c []).move c (.withdrawn name')).Consistent := by
  apply h.commit (open_of hc rfl)
  · intro r hr v hv
    have hwrites := h.writers r hr c v hv
    rw [hc] at hwrites
    have hcancelled : v.status = .cancelled := hwrites
    rw [hcancelled]
    rfl
  · intro r _ _
    rfl
  · intro d hd
    cases hd
  · intro _
    trivial
  · intro q hq
    rw [hc] at hq
    cases hq
    rfl

theorem Consistent.withdrawNext (h : w.Consistent) {caseId : Uuid}
    {rest : List ApprovalRequest} {name : String}
    (hc : w.calls c = some (.withdrawing caseId (q :: rest) name))
    (hs : w.withdrawNext env c caseId q rest name = some w') : w'.Consistent := by
  have hlisted := h.calls c _ hc
  have hrest : ∀ q' ∈ rest, q'.status = .pending ∧ q'.version = 1 ∧ w.Knows q'.id q'.runId :=
    fun q' hq' => hlisted q' (List.mem_cons_of_mem _ hq')
  have hnone : ∀ q', w.calls c = some q' → made q' = none := by
    intro q' hq'
    rw [hc] at hq'
    cases hq'
    rfl
  unfold Desk.withdrawNext at hs
  split at hs
  · split at hs
    · obtain rfl := Option.some.inj hs
      exact h.abort (open_of hc rfl) (.inl ⟨_, rfl⟩) hnone
    · next cancelled hcancel =>
      obtain ⟨-, rfl⟩ := ApprovalRequest.cancel_ok.mp hcancel
      split at hs
      · cases hs
      · obtain rfl := Option.some.inj hs
        exact h.abort (open_of hc rfl) (.inl ⟨_, rfl⟩) hnone
      · next rows hsave =>
        obtain rfl := Option.some.inj hs
        have hversion : q.version = 1 := (hlisted q List.mem_cons_self).2.1
        apply h.save (open_of hc rfl) (by simp) (by simp [hversion]) hsave
        · intro id status hwrites
          rw [hc] at hwrites
          exact hwrites
        · rfl
        · intro _ hknows q' hq'
          obtain ⟨hpending, hone, hknown⟩ := hrest q' hq'
          exact ⟨hpending, hone, hknows _ _ hknown⟩
        · intro q' y hq' hy
          rw [hnone q' hq'] at hy
          cases hy
  · obtain rfl := Option.some.inj hs
    refine h.move (p := .withdrawing caseId rest name) (open_of hc rfl) hrest ?_ ?_
    · intro id status hwrites
      rw [hc] at hwrites
      exact hwrites
    · intro q' y hq' hy
      rw [hnone q' hq'] at hy
      cases hy

/-- **Step of a call** that is under way. -/
theorem Consistent.proceed (h : w.Consistent)
    (hc : w.calls c = some p) (hs : w.proceed env c a p = some w') : w'.Consistent := by
  have hok := h.calls c p hc
  have hnone : made p = none → ∀ q, w.calls c = some q → made q = none := by
    intro hp q hq
    rw [hc] at hq
    cases hq
    exact hp
  have hkeep : ∀ p', made p' = made p →
      ∀ q y, w.calls c = some q → made q = some y → made p' = some y := by
    intro p' hp' q y hq hy
    rw [hc] at hq
    cases hq
    rw [hp']
    exact hy
  have hwrites : ∀ p', (∀ id status, Writes id status (some p) → Writes id status (some p')) →
      ∀ id status, Writes id status (w.calls c) → Writes id status (some p') := by
    intro p' hp' id status
    rw [hc]
    exact hp' id status
  unfold Desk.proceed at hs
  split at hs
  · next x =>
    split at hs
    · cases hs
    · obtain rfl := Option.some.inj hs
      exact h.abort (open_of hc rfl) (.inl ⟨_, rfl⟩) (hnone rfl)
    · next rows hsave =>
      obtain rfl := Option.some.inj hs
      have hruled : w.Ruled x := hok
      apply h.save (open_of hc rfl) hruled.settled hruled.version hsave
      · exact hwrites _ (fun id status hw => hw.elim)
      · exact ⟨rfl, rfl⟩
      · intro hholds hknows
        exact ⟨hruled.mono hknows, hholds⟩
      · exact hkeep _ rfl
  · next x =>
    obtain rfl := Option.some.inj hs
    exact h.move (open_of hc rfl) hok (hwrites _ (fun id status hw => hw)) (hkeep _ rfl)
  · next x =>
    obtain rfl := Option.some.inj hs
    apply h.commit_ruling hc
    split
    · exact .inl rfl
    · exact .inr rfl
  · next found x =>
    obtain rfl := Option.some.inj hs
    cases found with
    | true => exact h.move (open_of hc rfl) hok (hwrites _ (fun id status hw => hw)) (hkeep _ rfl)
    | false => exact h.move (open_of hc rfl) hok (hwrites _ (fun id status hw => hw)) (hkeep _ rfl)
  · next outcome x =>
    split at hs
    · cases hs
    · next runId hrun =>
      obtain rfl := Option.some.inj hs
      apply h.resume hc hrun
      cases outcome with
      | ok u => exact .inl rfl
      | error e => exact .inr ⟨e, rfl⟩
  · exact h.withdrawNext hc hs
  · split at hs
    · obtain rfl := Option.some.inj hs
      exact h.abort (open_of hc rfl) (.inr ⟨_, rfl⟩) (hnone rfl)
    · obtain rfl := Option.some.inj hs
      exact h.commit_withdrawal hc
  · obtain rfl := Option.some.inj hs
    exact h.abort (open_of hc rfl) (.inl ⟨_, rfl⟩) (hnone rfl)
  · obtain rfl := Option.some.inj hs
    exact h.abort (open_of hc rfl) (.inl ⟨_, rfl⟩) (hnone rfl)
  · obtain rfl := Option.some.inj hs
    exact h.abort (open_of hc rfl) (.inl ⟨_, rfl⟩) (hnone rfl)
  · obtain rfl := Option.some.inj hs
    exact h.abort (open_of hc rfl) (.inl ⟨_, rfl⟩) (hnone rfl)
  · next e x =>
    obtain rfl := Option.some.inj hs
    exact h.move (open_of hc rfl) hok (hwrites _ (fun id status hw => hw)) (hkeep _ rfl)
  · next e x =>
    obtain rfl := Option.some.inj hs
    exact h.move (open_of hc rfl) hok (hwrites _ (fun id status hw => hw)) (hkeep _ rfl)
  · cases hs

theorem Consistent.step (h : w.Consistent)
    (hs : w.step env a = some w') : w'.Consistent := by
  have hbegin : ∀ c p, w.calls c = none → w.CallOk c p → (w.move c p).Consistent := by
    intro c p hc hp
    apply h.move ?_ hp
    · intro id status hwrites
      rw [hc] at hwrites
      exact hwrites.elim
    · intro q y hq
      rw [hc] at hq
      cases hq
    · intro y
      rw [hc]
      exact ⟨by simp, by simp⟩
  unfold Desk.step at hs
  split at hs
  · split at hs
    · next hnew =>
      obtain rfl := Option.some.inj hs
      exact h.raise hnew.1 hnew.2.1 hnew.2.2
    · cases hs
  · next _ c call cmd =>
    split at hs
    · cases hs
    · next hc =>
      have hc : w.calls c = none := by simpa using hc
      split at hs
      · obtain rfl := Option.some.inj hs
        exact hbegin c _ hc trivial
      · next x hx =>
        obtain rfl := Option.some.inj hs
        obtain ⟨q, hq, hpending, rfl⟩ := ruleOn_ok hx
        obtain ⟨hmem, -⟩ := getRequest_mem hq
        have hone := (h.fresh q hmem).mp hpending
        apply hbegin c _ hc
        exact ⟨by simp [decidedRequest, hone], rfl, rfl, q, hmem, rfl, rfl⟩
  · next _ c caseId =>
    split at hs
    · cases hs
    · next hc =>
      have hc : w.calls c = none := by simpa using hc
      obtain rfl := Option.some.inj hs
      apply hbegin c _ hc
      intro q hq
      obtain ⟨hmem, hpending⟩ := listPending_mem hq
      exact ⟨hpending, (h.fresh q hmem).mp hpending, q, hmem, rfl, rfl⟩
  · obtain ⟨p, hp, hs⟩ := Option.bind_eq_some_iff.mp hs
    exact h.proceed hp hs
  · cases hs

theorem Consistent.init (h : (desk env).init w) : w.Consistent := by
  obtain ⟨qs, hids, hpending, rfl⟩ := h
  have hrequests : ({ rows := qs.map (fun q => { committed := q }) } : Desk).requests = qs := by
    show (qs.map (fun q => ({ committed := q } : LockedRow ApprovalRequest))).map (·.committed) = qs
    rw [List.map_map]
    exact List.map_id _
  constructor
  · rw [hrequests]
    exact hids
  · intro q hq
    rw [hrequests] at hq
    exact iff_of_true (hpending q hq).1 (hpending q hq).2
  · intro r hr d v hv
    obtain ⟨q, -, rfl⟩ := List.mem_map.mp hr
    cases hv
  · intro r hr d v hv
    obtain ⟨q, -, rfl⟩ := List.mem_map.mp hr
    cases hv
  · intro c p hp
    cases hp
  · intro q hq
    rw [hrequests] at hq
    rw [(hpending q hq).1]
    rfl
  · intro d hd
    cases hd
  · intro m hm
    cases hm
  · exact List.nodup_nil

/-! ## What a step can do -/

def early : DeskPhase → Bool
  | .checked _ | .saved _ | .recorded _ | .withdrawing _ _ _ | .failed _ => true
  | _ => false

inductive Effect (w : Desk) (c : Nat) (p : DeskPhase) (w' : Desk) : Prop where
  | moves (p' : DeskPhase) (requests : w'.requests = w.requests)
      (decisions : w'.decisions = w.decisions) (resumes : w'.resumes = w.resumes)
      (calls : w'.calls = w.calls.put c p') (earlier : early p' = true → early p = true)
  | commits (ds : List (Nat × ApprovalDecision)) (p' : DeskPhase) (late : early p' = false)
      (result : w' = (w.committing c ds).move c p')
  | resumes (m : RunResumed) (p' : DeskPhase) (late : early p' = false)
      (result : w' = ({ w with resumes := m :: w.resumes } : Desk).move c p')

theorem Effect.of_move (p' : DeskPhase) (hearly : early p' = true → early p = true) :
    Effect w c p (w.move c p') :=
  .moves p' rfl rfl rfl rfl hearly

theorem Effect.of_abort (p' : DeskPhase) (hearly : early p' = true → early p = true) :
    Effect w c p (w.abort c p') :=
  .moves p' abort_requests rfl rfl rfl hearly

theorem Effect.of_save (hsave : w.save c q = .updated rows)
    (p' : DeskPhase) (hearly : early p' = true → early p = true) :
    Effect w c p (({ w with rows := rows } : Desk).move c p') :=
  .moves p' (LockedRow.update_committed hsave) rfl rfl rfl hearly

theorem proceed_effect
    (hs : w.proceed env c a p = some w') : Effect w c p w' := by
  unfold Desk.proceed at hs
  split at hs
  · next x =>
    split at hs
    · cases hs
    · obtain rfl := Option.some.inj hs
      exact .of_abort _ (fun _ => rfl)
    · next rows hsave =>
      obtain rfl := Option.some.inj hs
      exact .of_save hsave _ (fun _ => rfl)
  · obtain rfl := Option.some.inj hs
    exact .of_move _ (fun _ => rfl)
  · next x =>
    obtain rfl := Option.some.inj hs
    refine .commits [(c, x.decision)] _ ?_ rfl
    split
    · rfl
    · rfl
  · next found x =>
    obtain rfl := Option.some.inj hs
    apply Effect.of_move
    cases found with
    | true => exact fun h => h
    | false => exact fun h => h
  · next outcome x =>
    split at hs
    · cases hs
    · next runId hrun =>
      obtain rfl := Option.some.inj hs
      refine .resumes _ _ ?_ rfl
      cases outcome with
      | ok u => rfl
      | error e => rfl
  · unfold Desk.withdrawNext at hs
    split at hs
    · split at hs
      · obtain rfl := Option.some.inj hs
        exact .of_abort _ (fun _ => rfl)
      · split at hs
        · cases hs
        · obtain rfl := Option.some.inj hs
          exact .of_abort _ (fun _ => rfl)
        · next rows hsave =>
          obtain rfl := Option.some.inj hs
          exact .of_save hsave _ (fun _ => rfl)
    · obtain rfl := Option.some.inj hs
      exact .of_move _ (fun _ => rfl)
  · split at hs
    · obtain rfl := Option.some.inj hs
      exact .of_abort _ (fun _ => rfl)
    · obtain rfl := Option.some.inj hs
      exact .commits [] _ rfl rfl
  · obtain rfl := Option.some.inj hs
    exact .of_abort _ (fun _ => rfl)
  · obtain rfl := Option.some.inj hs
    exact .of_abort _ (fun _ => rfl)
  · obtain rfl := Option.some.inj hs
    exact .of_abort _ (fun _ => rfl)
  · obtain rfl := Option.some.inj hs
    exact .of_abort _ (fun _ => rfl)
  · obtain rfl := Option.some.inj hs
    exact .of_move _ (fun h => h)
  · obtain rfl := Option.some.inj hs
    exact .of_move _ (fun h => h)
  · cases hs

/-- **Inversion** of the steps of the desk: a request is raised, a call begins, or a
    call goes on. -/
theorem step_cases (hs : w.step env a = some w') :
    (∃ q, q.status = .pending ∧ q.id ∉ w.requests.map (·.id) ∧ a.call? = none ∧
      w' = { w with rows := { committed := q } :: w.rows }) ∨
    (∃ c p, a.call? = some c ∧ w.calls c = none ∧ w' = w.move c p) ∨
    (∃ c p, a.call? = some c ∧ w.calls c = some p ∧ Effect w c p w') := by
  unfold Desk.step at hs
  split at hs
  · next q =>
    split at hs
    · next hnew =>
      obtain rfl := Option.some.inj hs
      exact .inl ⟨q, hnew.1, hnew.2.2, rfl, rfl⟩
    · cases hs
  · next _ c call cmd =>
    split at hs
    · cases hs
    · next hc =>
      have hc : w.calls c = none := by simpa using hc
      split at hs
      · obtain rfl := Option.some.inj hs
        exact .inr (.inl ⟨c, _, rfl, hc, rfl⟩)
      · obtain rfl := Option.some.inj hs
        exact .inr (.inl ⟨c, _, rfl, hc, rfl⟩)
  · next _ c caseId =>
    split at hs
    · cases hs
    · next hc =>
      have hc : w.calls c = none := by simpa using hc
      obtain rfl := Option.some.inj hs
      exact .inr (.inl ⟨c, _, rfl, hc, rfl⟩)
  · next c _ _ _ hcall =>
    obtain ⟨p, hp, hs⟩ := Option.bind_eq_some_iff.mp hs
    exact .inr (.inr ⟨c, p, hcall, hp, proceed_effect hs⟩)
  · cases hs

theorem Consistent.settled_step (h : w.Consistent)
    (hs : w.step env a = some w') {id : Uuid} (hid : w.Settled id) : w'.Settled id := by
  obtain ⟨q, hq, hqid, hsettled⟩ := hid
  rcases step_cases hs with ⟨q', -, -, -, rfl⟩ | ⟨c, p, -, -, rfl⟩ | ⟨c, p, -, -, heffect⟩
  · exact ⟨q, List.mem_cons_of_mem _ hq, hqid, hsettled⟩
  · exact ⟨q, hq, hqid, hsettled⟩
  · cases heffect with
    | moves p' hrequests _ _ _ _ =>
      rw [← hrequests] at hq
      exact ⟨q, hq, hqid, hsettled⟩
    | commits ds p' _ hw =>
      subst hw
      obtain ⟨r, hr, rfl⟩ := List.mem_map.mp hq
      have hstays : (r.commit c).committed = r.committed := by
        rcases h.sound.commit_step hr c with hsame | ⟨v, -, -, hsettles⟩
        · exact hsame
        · exact absurd hsettles.pending hsettled
      exact ⟨r.committed, (mem_committing ds).mpr ⟨r, hr, hstays⟩, hqid, hsettled⟩
    | resumes m p' _ hw =>
      subst hw
      exact ⟨q, hq, hqid, hsettled⟩

def Unseen (w : Desk) (c : Nat) : Prop := ∀ p, w.calls c = some p → early p = true

theorem unseen_step (hs : w.step env a = some w')
    (hc : w'.Unseen c) : w.Unseen c ∧ (a.call? = some c → Quiet ⟨w, a, w'⟩) := by
  rcases step_cases hs with ⟨q', -, -, hcall, rfl⟩ | ⟨d, p, hcall, hnone, rfl⟩ |
    ⟨d, p, hcall, hp, heffect⟩
  · constructor
    · exact hc
    · intro hc'
      rw [hcall] at hc'
      cases hc'
  · constructor
    · intro p' hp'
      by_cases hd : c = d
      · rw [hd, hnone] at hp'
        cases hp'
      · exact hc p' (by rw [move_ne hd]; exact hp')
    · intro _
      exact ⟨rfl, rfl, rfl⟩
  · have hlater : ∀ {w₀ : Desk} {p' : DeskPhase}, w₀.calls = w.calls → early p' = false →
        (w₀.move d p').Unseen c → c ≠ d ∧ w.Unseen c := by
      intro w₀ p' hcalls hlate hunseen
      have hd : c ≠ d := by
        rintro rfl
        rw [hunseen p' move_self] at hlate
        cases hlate
      refine ⟨hd, fun p'' hp'' => hunseen p'' ?_⟩
      rw [move_ne hd, hcalls]
      exact hp''
    have hown : a.call? = some c → c = d := by
      intro hc'
      rw [hcall] at hc'
      exact (Option.some.inj hc').symm
    cases heffect with
    | moves p' hrequests hdecisions hresumes hcalls hearlier =>
      constructor
      · intro p'' hp''
        by_cases hd : c = d
        · subst hd
          rw [hp] at hp''
          cases hp''
          apply hearlier
          exact hc p' (by rw [hcalls]; exact Sessions.put_self _ _ _)
        · exact hc p'' (by rw [hcalls, Sessions.put_ne hd]; exact hp'')
      · intro _
        exact ⟨hrequests, hdecisions, hresumes⟩
    | commits ds p' hlate hw =>
      subst hw
      obtain ⟨hd, hunseen⟩ := hlater rfl hlate hc
      exact ⟨hunseen, fun hc' => absurd (hown hc') hd⟩
    | resumes m p' hlate hw =>
      subst hw
      obtain ⟨hd, hunseen⟩ := hlater rfl hlate hc
      exact ⟨hunseen, fun hc' => absurd (hown hc') hd⟩

end

/-! ## Runs -/

section

variable {env : Env} {es : List (Event Desk DeskAction)} {w : Desk}

theorem exec_consistent (h : Exec (desk env) es w) : w.Consistent :=
  h.invariant (fun _ hinit => Consistent.init hinit) (fun _ _ _ hprev hs => hprev.step hs)

theorem exec_leaves (h : Exec (desk env) es w) (id : Uuid) :
    (es.filter (leaves id)).length ≤ if w.Settled id then 1 else 0 := by
  refine h.history_invariant
    (P := fun es w => (es.filter (leaves id)).length ≤ if w.Settled id then 1 else 0) ?_ ?_
  · intro w _
    exact Nat.zero_le _
  · intro es w a w' hprev ih hs
    have hpersist : w.Settled id → w'.Settled id := (exec_consistent hprev).settled_step hs
    by_cases hpre : w.Settled id
    · -- settled before: this is no step out of the pending status
      rw [List.filter_cons_of_neg (by simp [leaves, hpre]), if_pos (hpersist hpre)]
      rw [if_pos hpre] at ih
      exact ih
    · rw [if_neg hpre] at ih
      by_cases hpost : w'.Settled id
      · rw [List.filter_cons_of_pos (by simp [leaves, hpre, hpost]), if_pos hpost,
          List.length_cons]
        omega
      · rw [List.filter_cons_of_neg (by simp [leaves, hpost]), if_neg hpost]
        exact ih

theorem exec_quiet (h : Exec (desk env) es w) : ∀ c, w.Unseen c →
    ∀ e ∈ es, e.act.call? = some c → Quiet e := by
  refine h.history_invariant (P := fun es w => ∀ c, w.Unseen c →
    ∀ e ∈ es, e.act.call? = some c → Quiet e) ?_ ?_
  · intro w _ c _ e he
    cases he
  · intro es w a w' _ ih hs c hc e he hcall
    obtain ⟨hbefore, hquiet⟩ := unseen_step hs hc
    rcases List.mem_cons.mp he with rfl | he
    · exact hquiet hcall
    · exact ih c hbefore e he hcall

theorem eq_of_length_le_one {α : Type} {l : List α} (h : l.length ≤ 1) {a b : α} (ha : a ∈ l)
    (hb : b ∈ l) : a = b := by
  match l, h with
  | [x], _ => rw [List.mem_singleton.mp ha, List.mem_singleton.mp hb]

theorem length_le_one_of_eq {α : Type} {l : List α} (hn : l.Nodup)
    (h : ∀ a ∈ l, ∀ b ∈ l, a = b) : l.length ≤ 1 := by
  match l with
  | [] => exact Nat.zero_le _
  | [x] => exact Nat.le_refl _
  | x :: y :: rest =>
    exfalso
    have hxy := h x List.mem_cons_self y (List.mem_cons_of_mem _ List.mem_cons_self)
    have hx := (List.nodup_cons.mp hn).1
    rw [hxy] at hx
    exact hx List.mem_cons_self

theorem Consistent.decision_unique (h : w.Consistent) {d d' : Nat × ApprovalDecision}
    (hd : d ∈ w.decisions) (hd' : d' ∈ w.decisions) (hsame : d.2.requestId = d'.2.requestId)
    {q : ApprovalRequest} (hq : q ∈ w.requests) (hid : d.2.requestId = q.id) : d = d' := by
  have hcount := h.decisions q hq
  have hmem : d ∈ w.decisionsOn q.id := List.mem_filter.mpr ⟨hd, decide_eq_true hid⟩
  have hmem' : d' ∈ w.decisionsOn q.id :=
    List.mem_filter.mpr ⟨hd', decide_eq_true (hsame.symm.trans hid)⟩
  have hlength : (w.decisionsOn q.id).length ≤ 1 := by
    rw [← List.length_map (·.2.outcome), hcount]
    cases q.status <;> decide
  exact eq_of_length_le_one hlength hmem hmem'

theorem Consistent.carriesOut (h : w.Consistent) {m : RunResumed} (hm : m ∈ w.resumes) :
    ∃ d, w.CarriesOut m d := by
  obtain ⟨x, hphase, hrequest, hrun, hpayload⟩ := h.resumedBy m hm
  have hok : w.Ruled x ∧ (m.call, x.decision) ∈ w.decisions := by
    rcases hphase with hreturned | ⟨e, hbroken⟩
    · exact h.calls _ _ hreturned
    · exact h.calls _ _ hbroken
  obtain ⟨hruled, hstored⟩ := hok
  obtain ⟨q, hq, hid, hqrun⟩ := hruled.known
  refine ⟨x.decision, hstored, ?_, ⟨q, hq, ?_, ?_⟩, ?_, ?_, ?_⟩
  · rw [hruled.decision, hrequest]
  · rw [hid, hrequest]
  · rw [hqrun, hrun]
  · rw [hpayload, hruled.decision]
    rfl
  · rw [hpayload, hruled.decision]
    rfl
  · rw [hpayload, hruled.decision]
    rfl

/-- **Resolved once**: whatever decisions and withdrawals are interleaved with each
    other, and wherever they fail, every request is resolved at most once, by one call,
    and only that call resumes its run. -/
theorem resolved_once (h : Exec (desk env) es w) : ResolvedOnce es w := by
  have hconsistent := exec_consistent h
  constructor
  · intro id
    have hleaves := exec_leaves h id
    split at hleaves
    · exact hleaves
    · omega
  · exact hconsistent.decisions
  · -- two resumptions after one request are of the same call, and a call resumes once
    intro id
    apply length_le_one_of_eq (hconsistent.resumedOnce.of_map.filter _)
    intro m hm m' hm'
    obtain ⟨hm, hid⟩ := List.mem_filter.mp hm
    obtain ⟨hm', hid'⟩ := List.mem_filter.mp hm'
    obtain ⟨d, hd⟩ := hconsistent.carriesOut hm
    obtain ⟨d', hd'⟩ := hconsistent.carriesOut hm'
    obtain ⟨q, hq, hqid, -⟩ := hd.run
    have hsame : m.requestId = m'.requestId :=
      (of_decide_eq_true hid).trans (of_decide_eq_true hid').symm
    have hcall : m.call = m'.call := by
      have heq := hconsistent.decision_unique hd.stored hd'.stored
        ((hd.request.trans hsame).trans hd'.request.symm) hq (hd.request.trans hqid.symm)
      exact congrArg (·.1) heq
    exact Rows.eq_of_key hconsistent.resumedOnce hm hm' hcall
  · intro m hm
    exact hconsistent.carriesOut hm
  · intro c x hphase
    rcases hphase with hreturned | ⟨e, hbroken⟩
    · exact (hconsistent.calls _ _ hreturned).2
    · exact (hconsistent.calls _ _ hbroken).2
  · intro c error hfailed
    apply exec_quiet h c
    intro p hp
    rw [hfailed] at hp
    cases hp
    rfl

end

/-! ## A race -/

namespace Race

def request : ApprovalRequest :=
  { id := { text := "request" }, approvalType := "preparation.cp1", requestedBy := Office.an
    reason := "", payload := [("case_id", .str "case")], runId := some Office.run, createdAt := 0 }

def actions : List DeskAction :=
  [.decide 0 (Office.call Office.binh) { approvalId := request.id, approve := true, comment := "ok" },
    .decide 1 (Office.call Office.chi) { approvalId := request.id, approve := false, comment := "no" },
    .withdraw 2 { text := "case" }, .save 0, .record 0, .commit 0, .save 1, .withdrawNext 2,
    .readRun 0 true, .resume 0 (.ok ())]

/-- The approval stands and has resumed the run; the others have failed. -/
theorem approval_wins : ∃ es w, Exec (desk Office.env) es w ∧ ResolvedOnce es w ∧
    w.decisions.length = 1 ∧ w.resumes.length = 1 := by
  have hinit : (desk Office.env).init { rows := [{ committed := request }] } :=
    ⟨[request], by simp, by decide, rfl⟩
  have hruns : (desk Office.env).runs { rows := [{ committed := request }] } actions (fun _ w =>
      w.decisions.length = 1 && w.resumes.length = 1) = true := by decide +kernel
  obtain ⟨es, w, hexec, hcheck⟩ := Machine.exec_of_runs hinit hruns
  simp only [Bool.and_eq_true, decide_eq_true_eq] at hcheck
  exact ⟨es, w, hexec, resolved_once hexec, hcheck.1, hcheck.2⟩

end Race

end Desk

end DigitalWorker
