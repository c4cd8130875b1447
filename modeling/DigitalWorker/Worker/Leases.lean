import Mathlib.Data.Finset.Max
import DigitalWorker.Worker.Notifications

/-! # Leases of notification jobs

    A claim is a lease: after `stale_after_seconds` another worker may take the
    job over. Two places of the code rely on the worker that was overtaken: the
    attempts are compared with their bound only when a worker records a retry,
    and a record is guarded by the status of the row and not by the claim it
    belongs to.
-/

namespace DigitalWorker.Worker

open Framework

/-! ## What is claimed of a run -/

def claimsOf (id : Uuid) (e : Event Outbox OutboxAction) : Bool :=
  match e.act with
  | .claim _ id' _ _ ending => id' == id && ending != .rolledBack
  | _ => false

def OutboxAction.worker : OutboxAction → Option Nat
  | .start w | .claim w _ _ _ _ | .deliver w _ | .record w _ _ | .crash w => some w
  | .tick _ | .caseMoves _ _ | .enqueue _ => none

def Outbox.Overtaken (s : Outbox) (w : Nat) (d : IntakeNotificationDelivery) : Prop :=
  (∃ p, s.workers w = some p ∧ p.delivery = some d) ∧
    ∃ r ∈ s.jobs, r.id = d.job.id ∧ d.job.attempts < r.attempts

/-- From `s` the system can come to a state in which a worker has claimed the job. -/
def CanBeTaken (config : NotifierConfig) (s : Outbox) (id : Uuid) : Prop :=
  ∃ s', (outbox config).Leads s s' ∧
    ∃ w d, s'.workers w = some (.delivering d) ∧ d.job.id = id

structure LeaseDiscipline (config : NotifierConfig) (es : List (Event Outbox OutboxAction))
    (s : Outbox) : Prop where
  /-- A job is never attempted more than `max_attempts` times. -/
  attempts : ∀ r ∈ s.jobs, es.countP (claimsOf r.id) ≤ r.maxAttempts
  /-- A worker that was overtaken changes neither status nor schedule. -/
  overtaken : ∀ e ∈ es, ∀ w d, e.act.worker = some w → e.pre.Overtaken w d →
    ∀ r ∈ e.pre.jobs, r.id = d.job.id →
      ∃ r' ∈ e.post.jobs, r'.id = r.id ∧ r'.status = r.status ∧ r'.dueAt = r.dueAt
  /-- A terminal state is never left. -/
  final : ∀ e ∈ es, ∀ r ∈ e.pre.jobs, r.status.terminal = true → r ∈ e.post.jobs
  /-- Every other job is due from some time on, and can then be claimed. -/
  claimable : ∀ r ∈ s.jobs, r.status.terminal = false →
    (∃ t, ∀ now, t ≤ now → r ∈ s.eligible config now) ∧ CanBeTaken config s r.id

def Outbox.Late (config : NotifierConfig) (s : Outbox) (d : IntakeNotificationDelivery) : Prop :=
  ∃ claimed, d.job.claimedAt = some claimed ∧ claimed + seconds config.staleAfterSeconds < s.clock

/-- The condition on a step: a claim that is taken over has attempts left; an
    outcome is recorded before the lease is over, or on a row that nobody claimed
    since, or on a row that has left `processing`. -/
def Disciplined (config : NotifierConfig) (s : Outbox) : OutboxAction → Prop
  | .claim _ id _ _ ending => ending ≠ .rolledBack →
    ∀ r ∈ s.jobs, r.id = id → r.status = .processing → r.attempts < r.maxAttempts
  | .record w _ ending => ending ≠ .rolledBack → ∀ d outcome,
    s.workers w = some (.recording d outcome) → s.Late config d →
      ∀ r ∈ s.jobs, r.id = d.job.id → r.attempts = d.job.attempts ∨ r.status ≠ .processing
  | _ => True

/-! ## What one step can do -/

inductive OutboxMove (config : NotifierConfig) (s : Outbox) :
    OutboxAction → Outbox → Prop where
  | outside (a : OutboxAction) (clock : DateTime) (cases : Uuid → Option CaseState)
      (later : s.clock ≤ clock) (kept : ∀ c, (s.cases c).isSome → (cases c).isSome)
      (nobody : a.worker = none) (quiet : ∀ id pre post, claimsOf id ⟨pre, a, post⟩ = false)
      (disciplined : Disciplined config s a) :
      OutboxMove config s a { s with clock := clock, cases := cases }
  | filed (job : IntakeNotificationJob) (new : job.id ∉ s.jobs.map (·.id))
      (queued : job.status = .queued) (unattempted : job.attempts = 0)
      (unclaimed : job.claimedAt = none) (user : (config.users job.recipientUserId).isSome)
      (case : (s.cases job.caseId).isSome) :
      OutboxMove config s (.enqueue job)
        { s with jobs := insertOnce IntakeNotificationJob.idempotencyKey s.jobs job }
  /-- A worker starts, goes on with its delivery, or ends. -/
  | moved (a : OutboxAction) (w : Nat) (p : NotifierPhase)
      (delivery : ∀ d, p.delivery = some d → ∃ q, s.workers w = some q ∧ q.delivery = some d)
      (quiet : ∀ id pre post, claimsOf id ⟨pre, a, post⟩ = false)
      (disciplined : Disciplined config s a) :
      OutboxMove config s a { s with workers := s.workers.put w p }
  | claimed (w : Nat) (r : IntakeNotificationJob) (skipped : List Uuid) (now : DateTime)
      (ending : Ending) (d : IntakeNotificationDelivery) (idle : s.workers w = some .idle)
      (mem : r ∈ s.jobs) (past : now ≤ s.clock) (due : r.due config now = true)
      (taken : d.job = r.taken now) :
      OutboxMove config s (.claim w r.id skipped now ending) { s with
        jobs := Rows.update (·.id) r.id (ending.change (·.claimed now)) s.jobs
        workers := s.workers.put w (if ending = .committed then .delivering d else .idle) }
  | recorded (w : Nat) (now : DateTime) (ending : Ending) (d : IntakeNotificationDelivery)
      (outcome : Outcome) (before : s.workers w = some (.recording d outcome)) :
      OutboxMove config s (.record w now ending) { s with
        jobs := Rows.update (·.id) d.job.id (ending.change (outcome.record d.job now)) s.jobs
        workers := s.workers.put w .idle }

section

variable {config : NotifierConfig} {s s' : Outbox} {a : OutboxAction} {w : Nat}

theorem mayClaim_due {now : DateTime} {skipped : List Uuid} {r : IntakeNotificationJob}
    (hdistinct : (s.jobs.map (·.id)).Nodup) (hr : r ∈ s.jobs)
    (h : s.mayClaim config now skipped r = true) : r.due config now = true := by
  unfold Outbox.mayClaim at h
  rw [Bool.and_eq_true, List.any_eq_true] at h
  obtain ⟨⟨q, hq, hid⟩, _⟩ := h
  rw [List.mem_filter, Outbox.eligible, List.mem_filter] at hq
  obtain ⟨⟨hmem, hdue⟩, _⟩ := hq
  have hsame : q = r := Rows.eq_of_key hdistinct hmem hr (beq_iff_eq.mp hid)
  subst hsame
  rw [Bool.and_eq_true, Bool.and_eq_true] at hdue
  exact hdue.1.1

theorem deliveryOf_job {now : DateTime} {r : IntakeNotificationJob}
    {d : IntakeNotificationDelivery} (h : deliveryOf config s now r = some d) :
    d.job = r.taken now := by
  unfold deliveryOf at h
  split at h
  · obtain rfl := Option.some.inj h
    rfl
  · cases h

theorem outbox_move (hdistinct : (s.jobs.map (·.id)).Nodup)
    (hs : outboxStep config s a = some s') : OutboxMove config s a s' := by
  cases a with
  | tick now =>
    simp only [outboxStep] at hs
    split at hs
    · next hlater =>
      cases hs
      exact .outside _ now s.cases hlater (fun _ h => h) rfl (fun _ _ _ => rfl) trivial
    · cases hs
  | caseMoves caseId state =>
    cases hs
    refine .outside _ s.clock _ (le_refl _) (fun c hc => ?_) rfl (fun _ _ _ => rfl) trivial
    by_cases hcase : c = caseId
    · subst hcase
      simp
    · rw [Function.update_of_ne hcase]
      exact hc
  | enqueue job =>
    simp only [outboxStep] at hs
    split at hs
    · next hnew =>
      cases hs
      obtain ⟨hid, hq, ha, hc, hu, hcase⟩ := hnew
      exact .filed job hid hq ha hc hu hcase
    · cases hs
  | start w =>
    simp only [outboxStep] at hs
    split at hs
    · cases hs
      exact .moved _ w .idle (fun d hd => by cases hd) (fun _ _ _ => rfl) trivial
    · cases hs
  | claim w id skipped now ending =>
    simp only [outboxStep] at hs
    split at hs
    · next r hw hr =>
      split at hs
      · next hok =>
        split at hs
        · next d hd =>
          cases hs
          obtain ⟨hmem, rfl⟩ := Rows.lookup_some hr
          exact .claimed w r skipped now ending d hw hmem hok.1
            (mayClaim_due hdistinct hmem hok.2) (deliveryOf_job hd)
        · cases hs
      · cases hs
    · cases hs
  | deliver w answer =>
    simp only [outboxStep] at hs
    split at hs
    · next d hw =>
      cases hs
      exact .moved _ w (.recording d _) (fun d' hd' => ⟨_, hw, hd'⟩) (fun _ _ _ => rfl) trivial
    · cases hs
  | record w now ending =>
    simp only [outboxStep] at hs
    split at hs
    · next d outcome hw =>
      split at hs
      · cases hs
        exact .recorded w now ending d outcome hw
      · cases hs
    · cases hs
  | crash w =>
    simp only [outboxStep] at hs
    split at hs
    · cases hs
    · cases hs
    · cases hs
      exact .moved _ w .dead (fun d hd => by cases hd) (fun _ _ _ => rfl) trivial

end

/-! ## What the statements leave alone -/

/-- A change of a row that keeps who it is and counts attempts up only. -/
structure Rewrites (f : IntakeNotificationJob → IntakeNotificationJob) : Prop where
  id : ∀ r, (f r).id = r.id
  attempts : ∀ r, r.attempts ≤ (f r).attempts
  maxAttempts : ∀ r, (f r).maxAttempts = r.maxAttempts
  recipient : ∀ r, (f r).recipientUserId = r.recipientUserId
  case : ∀ r, (f r).caseId = r.caseId
  leased : ∀ r, (r.status = .processing → r.claimedAt.isSome) →
    (f r).status = .processing → (f r).claimedAt.isSome

theorem Rewrites.change {f : IntakeNotificationJob → IntakeNotificationJob} (h : Rewrites f)
    (ending : Ending) : Rewrites (ending.change f) := by
  by_cases hend : ending = .rolledBack
  · have hsame : ending.change f = fun r => r := by
      funext r
      exact if_pos hend
    rw [hsame]
    exact ⟨fun _ => rfl, fun _ => Nat.le_refl _, fun _ => rfl, fun _ => rfl, fun _ => rfl,
      fun _ h => h⟩
  · have hsame : ending.change f = f := by
      funext r
      exact if_neg hend
    rw [hsame]
    exact h

theorem claimed_rewrites (now : DateTime) : Rewrites (·.claimed now) where
  id _ := rfl
  attempts r := Nat.le_succ r.attempts
  maxAttempts _ := rfl
  recipient _ := rfl
  case _ := rfl
  leased _ _ _ := rfl

theorem record_settled {job r : IntakeNotificationJob} {now : DateTime} {outcome : Outcome}
    (h : r.status ≠ .processing) : outcome.record job now r = r :=
  if_neg h

theorem record_status (job r : IntakeNotificationJob) (now : DateTime) (outcome : Outcome) :
    (outcome.record job now r).status ≠ .processing := by
  by_cases h : r.status = .processing
  · rw [Outcome.record, if_pos h]
    cases outcome with
    | retry error =>
      simp only [Outcome.values]
      split <;> exact fun h => by cases h
    | _ => exact fun h => by cases h
  · rw [record_settled h]
    exact h

theorem values_same (job r : IntakeNotificationJob) (now : DateTime) (outcome : Outcome) :
    (outcome.values job now r).id = r.id ∧ (outcome.values job now r).attempts = r.attempts ∧
      (outcome.values job now r).maxAttempts = r.maxAttempts ∧
      (outcome.values job now r).recipientUserId = r.recipientUserId ∧
      (outcome.values job now r).caseId = r.caseId := by
  cases outcome with
  | retry error =>
    simp only [Outcome.values]
    split
    · exact ⟨rfl, rfl, rfl, rfl, rfl⟩
    · exact ⟨rfl, rfl, rfl, rfl, rfl⟩
  | _ => exact ⟨rfl, rfl, rfl, rfl, rfl⟩

theorem record_same (job r : IntakeNotificationJob) (now : DateTime) (outcome : Outcome) :
    (outcome.record job now r).id = r.id ∧ (outcome.record job now r).attempts = r.attempts ∧
      (outcome.record job now r).maxAttempts = r.maxAttempts ∧
      (outcome.record job now r).recipientUserId = r.recipientUserId ∧
      (outcome.record job now r).caseId = r.caseId := by
  by_cases h : r.status = .processing
  · rw [Outcome.record, if_pos h]
    exact values_same job r now outcome
  · rw [record_settled h]
    exact ⟨rfl, rfl, rfl, rfl, rfl⟩

theorem record_rewrites (job : IntakeNotificationJob) (now : DateTime) (outcome : Outcome) :
    Rewrites (outcome.record job now) where
  id r := (record_same job r now outcome).1
  attempts r := Nat.le_of_eq (record_same job r now outcome).2.1.symm
  maxAttempts r := (record_same job r now outcome).2.2.1
  recipient r := (record_same job r now outcome).2.2.2.1
  case r := (record_same job r now outcome).2.2.2.2
  leased r _ h := absurd h (record_status job r now outcome)

/-! ## The invariant of every run -/

def NotifierPhase.lease (p : NotifierPhase) : Option (Uuid × Nat) :=
  p.delivery.map (fun d => (d.job.id, d.job.attempts))

structure OutboxWf (config : NotifierConfig) (s : Outbox) : Prop where
  distinct : (s.jobs.map (·.id)).Nodup
  behind : ∀ w p d, s.workers w = some p → p.delivery = some d → ∃ r ∈ s.jobs,
    r.id = d.job.id ∧ d.job.attempts ≤ r.attempts ∧ d.job.maxAttempts = r.maxAttempts
  unique : s.workers.Exclusive NotifierPhase.lease
  leased : ∀ r ∈ s.jobs, r.status = .processing → r.claimedAt.isSome
  joined : ∀ r ∈ s.jobs, (config.users r.recipientUserId).isSome ∧ (s.cases r.caseId).isSome
  fresh : s.workers.Bounded

section

variable {config : NotifierConfig} {s s' : Outbox} {a : OutboxAction} {w : Nat}
  {p : NotifierPhase}

theorem lease_some {k : Uuid × Nat} (h : p.lease = some k) :
    ∃ d, p.delivery = some d ∧ (d.job.id, d.job.attempts) = k := by
  unfold NotifierPhase.lease at h
  rw [Option.map_eq_some_iff] at h
  exact h

theorem moved_wf (h : OutboxWf config s)
    (hdelivery : ∀ d, p.delivery = some d → ∃ q, s.workers w = some q ∧ q.delivery = some d) :
    OutboxWf config { s with workers := s.workers.put w p } where
  distinct := h.distinct
  behind v q d hq hd := by
    rcases Sessions.put_some hq with ⟨_, rfl⟩ | ⟨_, hq⟩
    · obtain ⟨q', hq', hd'⟩ := hdelivery d hd
      exact h.behind w q' d hq' hd'
    · exact h.behind v q d hq hd
  unique := by
    refine Sessions.Exclusive.release h.unique (fun k hk => ?_)
    obtain ⟨d, hd, rfl⟩ := lease_some hk
    obtain ⟨q, hq, hd'⟩ := hdelivery d hd
    exact ⟨q, hq, by rw [NotifierPhase.lease, hd']; rfl⟩
  leased := h.leased
  joined := h.joined
  fresh := h.fresh.put w p

theorem rows_wf (h : OutboxWf config s) (k : Uuid)
    {f : IntakeNotificationJob → IntakeNotificationJob} (hf : Rewrites f) :
    OutboxWf config { s with jobs := Rows.update (·.id) k f s.jobs } where
  distinct := by
    show (List.map _ (Rows.update _ _ _ _)).Nodup
    rw [Rows.update_keys hf.id]
    exact h.distinct
  behind v q d hq hd := by
    obtain ⟨r, hr, hid, hle, hmax⟩ := h.behind v q d hq hd
    by_cases hrid : r.id = k
    · subst hrid
      refine ⟨f r, Rows.mem_update_self hr, (hf.id r).trans hid, ?_, ?_⟩
      · exact hle.trans (hf.attempts r)
      · exact hmax.trans (hf.maxAttempts r).symm
    · exact ⟨r, Rows.mem_update_ne hr hrid, hid, hle, hmax⟩
  unique := h.unique
  leased r' hr' := by
    rcases Rows.mem_update.mp hr' with ⟨hr, _⟩ | ⟨r, hr, _, rfl⟩
    · exact h.leased r' hr
    · exact hf.leased r (h.leased r hr)
  joined r' hr' := by
    rcases Rows.mem_update.mp hr' with ⟨hr, _⟩ | ⟨r, hr, _, rfl⟩
    · exact h.joined r' hr
    · rw [hf.recipient, hf.case]
      exact h.joined r hr
  fresh := h.fresh

theorem next_free (h : OutboxWf config s) {r : IntakeNotificationJob} (hr : r ∈ s.jobs) :
    s.workers.Free NotifierPhase.lease (r.id, r.attempts + 1) := by
  rintro v ⟨q, hq, hlease⟩
  obtain ⟨d, hd, hkey⟩ := lease_some hlease
  obtain ⟨r', hr', hid, hle, _⟩ := h.behind v q d hq hd
  rw [Prod.mk.injEq] at hkey
  have hsame : r' = r := Rows.eq_of_key h.distinct hr' hr (hid.trans hkey.1)
  rw [hsame, hkey.2] at hle
  omega

theorem taken_wf (h : OutboxWf config s) {d : IntakeNotificationDelivery}
    (hfree : s.workers.Free NotifierPhase.lease (d.job.id, d.job.attempts))
    (hrow : ∃ r ∈ s.jobs,
      r.id = d.job.id ∧ d.job.attempts ≤ r.attempts ∧ d.job.maxAttempts = r.maxAttempts) :
    OutboxWf config { s with workers := s.workers.put w (.delivering d) } where
  distinct := h.distinct
  behind v q d' hq hd' := by
    rcases Sessions.put_some hq with ⟨_, rfl⟩ | ⟨_, hq⟩
    · cases hd'
      exact hrow
    · exact h.behind v q d' hq hd'
  unique := Sessions.Exclusive.acquire h.unique rfl hfree
  leased := h.leased
  joined := h.joined
  fresh := h.fresh.put w _

theorem claimed_wf (h : OutboxWf config s) {r : IntakeNotificationJob} (hr : r ∈ s.jobs)
    {now : DateTime} {ending : Ending} {d : IntakeNotificationDelivery}
    (hd : d.job = r.taken now) :
    OutboxWf config { s with
      jobs := Rows.update (·.id) r.id (ending.change (·.claimed now)) s.jobs
      workers := s.workers.put w (if ending = .committed then .delivering d else .idle) } := by
  have hrows := rows_wf h r.id ((claimed_rewrites now).change ending)
  by_cases hend : ending = .committed
  · subst hend
    refine taken_wf hrows ?_ ⟨r.claimed now, Rows.mem_update_self hr, ?_, ?_, ?_⟩
    · rw [hd]
      exact next_free h hr
    all_goals rw [hd]; rfl
  · rw [if_neg hend]
    exact moved_wf hrows (fun d' hd' => by cases hd')

theorem filed_outbox_wf {job : IntakeNotificationJob} (h : OutboxWf config s)
    (hnew : job.id ∉ s.jobs.map (·.id)) (hqueued : job.status = .queued)
    (huser : (config.users job.recipientUserId).isSome) (hcase : (s.cases job.caseId).isSome) :
    OutboxWf config
      { s with jobs := insertOnce IntakeNotificationJob.idempotencyKey s.jobs job } where
  distinct := by
    show (List.map _ (insertOnce _ _ _)).Nodup
    unfold insertOnce
    split
    · exact h.distinct
    · exact List.nodup_cons.mpr ⟨hnew, h.distinct⟩
  behind v q d hq hd := by
    obtain ⟨r, hr, hrest⟩ := h.behind v q d hq hd
    exact ⟨r, mem_insertOnce_of_mem hr, hrest⟩
  unique := h.unique
  leased r hr := by
    rcases mem_insertOnce hr with rfl | hr
    · intro hp
      rw [hqueued] at hp
      cases hp
    · exact h.leased r hr
  joined r hr := by
    rcases mem_insertOnce hr with rfl | hr
    · exact ⟨huser, hcase⟩
    · exact h.joined r hr
  fresh := h.fresh

theorem outboxStep_wf (h : OutboxWf config s) (hs : outboxStep config s a = some s') :
    OutboxWf config s' := by
  cases outbox_move h.distinct hs with
  | outside a clock cases later kept nobody quiet disciplined =>
    exact ⟨h.distinct, h.behind, h.unique, h.leased,
      fun r hr => ⟨(h.joined r hr).1, kept _ (h.joined r hr).2⟩, h.fresh⟩
  | filed job new queued unattempted unclaimed user case =>
    exact filed_outbox_wf h new queued user case
  | moved a w p delivery quiet disciplined => exact moved_wf h delivery
  | claimed w r skipped now ending d idle mem past due taken => exact claimed_wf h mem taken
  | recorded w now ending d outcome before =>
    exact moved_wf (rows_wf h d.job.id ((record_rewrites d.job now outcome).change ending))
      (fun d' hd' => by cases hd')

theorem outbox_init_wf (h : (outbox config).init s) : OutboxWf config s := by
  obtain ⟨hjobs, hworkers⟩ := h
  have hnone : ∀ v q, s.workers v ≠ some q := by
    intro v q hv
    rw [hworkers v] at hv
    cases hv
  have hempty : ∀ r, r ∉ s.jobs := by
    intro r hr
    rw [hjobs] at hr
    cases hr
  refine ⟨?_, fun v q d hq => absurd hq (hnone v q), Sessions.exclusive_empty hworkers,
    fun r hr => absurd hr (hempty r), fun r hr => absurd hr (hempty r),
    Sessions.bounded_empty hworkers⟩
  rw [hjobs]
  exact List.nodup_nil

end

/-! ## Attempts are claims -/

section

variable {config : NotifierConfig} {s s' : Outbox} {a : OutboxAction}
  {es : List (Event Outbox OutboxAction)}

def Counted (es : List (Event Outbox OutboxAction)) (s : Outbox) : Prop :=
  (∀ r ∈ s.jobs, r.attempts = es.countP (claimsOf r.id)) ∧
    ∀ id, id ∉ s.jobs.map (·.id) → es.countP (claimsOf id) = 0

theorem Counted.quiet (h : Counted es s) (e : Event Outbox OutboxAction)
    (hquiet : ∀ id, claimsOf id e = false)
    (hrows : ∀ r' ∈ s'.jobs, (∃ r ∈ s.jobs, r.id = r'.id ∧ r.attempts = r'.attempts) ∨
      (r'.id ∉ s.jobs.map (·.id) ∧ r'.attempts = 0))
    (hkept : ∀ id, id ∉ s'.jobs.map (·.id) → id ∉ s.jobs.map (·.id)) : Counted (e :: es) s' := by
  have hcount : ∀ id, (e :: es).countP (claimsOf id) = es.countP (claimsOf id) := by
    intro id
    rw [List.countP_cons, hquiet id, if_neg Bool.false_ne_true, Nat.add_zero]
  refine ⟨fun r' hr' => ?_, fun id hid => ?_⟩
  · rw [hcount]
    rcases hrows r' hr' with ⟨r, hr, hid, hattempts⟩ | ⟨hnew, hzero⟩
    · rw [← hid, ← hattempts]
      exact h.1 r hr
    · rw [hzero, h.2 r'.id hnew]
  · rw [hcount]
    exact h.2 id (hkept id hid)

theorem Counted.claim (h : Counted es s) {r : IntakeNotificationJob} (hr : r ∈ s.jobs)
    (hdistinct : (s.jobs.map (·.id)).Nodup) {now : DateTime} {ending : Ending}
    (hjobs : s'.jobs = Rows.update (·.id) r.id (ending.change (·.claimed now)) s.jobs)
    {skipped : List Uuid} {w : Nat} :
    Counted (⟨s, .claim w r.id skipped now ending, s'⟩ :: es) s' := by
  have hkeys : s'.jobs.map (·.id) = s.jobs.map (·.id) := by
    rw [hjobs, Rows.update_keys ((claimed_rewrites now).change ending).id]
  refine ⟨fun r' hr' => ?_, fun id hid => ?_⟩
  · rw [List.countP_cons]
    rw [hjobs] at hr'
    rcases Rows.mem_update.mp hr' with ⟨hold, hne⟩ | ⟨x, hx, hid, rfl⟩
    · have hother : claimsOf r'.id ⟨s, .claim w r.id skipped now ending, s'⟩ = false := by
        simp [claimsOf, Ne.symm hne]
      rw [hother, if_neg Bool.false_ne_true, h.1 r' hold]
      rfl
    · obtain rfl := Rows.eq_of_key hdistinct hx hr hid
      rw [((claimed_rewrites now).change ending).id]
      by_cases hend : ending = .rolledBack
      · subst hend
        simpa [claimsOf, Ending.change] using h.1 x hx
      · have hmine : claimsOf x.id ⟨s, .claim w x.id skipped now ending, s'⟩ = true := by
          simp [claimsOf, hend]
        rw [hmine, if_pos rfl, Ending.change, if_neg hend, ← h.1 x hx]
        rfl
  · rw [hkeys] at hid
    rw [List.countP_cons, h.2 id hid]
    have hne : r.id ≠ id := by
      rintro rfl
      exact hid (List.mem_map_of_mem hr)
    simp [claimsOf, hne]

theorem counted_step (hwf : OutboxWf config s) (h : Counted es s)
    (hs : outboxStep config s a = some s') : Counted (⟨s, a, s'⟩ :: es) s' := by
  cases outbox_move hwf.distinct hs with
  | outside a clock cases later kept nobody quiet disciplined =>
    exact h.quiet _ (fun id => quiet id _ _) (fun r hr => .inl ⟨r, hr, rfl, rfl⟩) (fun _ hid => hid)
  | filed job new queued unattempted unclaimed user case =>
    refine h.quiet _ (fun _ => rfl) (fun r hr => ?_) (fun id hid hmem => hid ?_)
    · rcases mem_insertOnce hr with rfl | hr
      · exact .inr ⟨new, unattempted⟩
      · exact .inl ⟨r, hr, rfl, rfl⟩
    · obtain ⟨r, hr, rfl⟩ := List.mem_map.mp hmem
      exact List.mem_map_of_mem (mem_insertOnce_of_mem hr)
  | moved a w p delivery quiet disciplined =>
    exact h.quiet _ (fun id => quiet id _ _) (fun r hr => .inl ⟨r, hr, rfl, rfl⟩) (fun _ hid => hid)
  | claimed w r skipped now ending d idle mem past due taken =>
    exact h.claim mem hwf.distinct rfl
  | recorded w now ending d outcome before =>
    have hrewrites := (record_rewrites d.job now outcome).change ending
    refine h.quiet _ (fun _ => rfl) (fun r hr => .inl ?_) (fun id hid => ?_)
    · rcases Rows.mem_update.mp hr with ⟨hr, _⟩ | ⟨x, hx, _, rfl⟩
      · exact ⟨r, hr, rfl, rfl⟩
      · refine ⟨x, hx, (hrewrites.id x).symm, ?_⟩
        by_cases hend : ending = .rolledBack
        · rw [Ending.change, if_pos hend]
        · rw [Ending.change, if_neg hend, (record_same d.job x now outcome).2.1]
    · rw [Rows.update_keys hrewrites.id] at hid
      exact hid

end

/-! ## What a run keeps whose steps are disciplined -/

section

variable {config : NotifierConfig} {s s' : Outbox} {a : OutboxAction} {w : Nat}
  {p : NotifierPhase}

structure Leased (config : NotifierConfig) (s : Outbox) : Prop where
  within : ∀ r ∈ s.jobs, r.attempts ≤ r.maxAttempts ∧
    (r.status = .queued → r.attempts < r.maxAttempts)
  lease : ∀ w p d, s.workers w = some p → p.delivery = some d → ∀ r ∈ s.jobs, r.id = d.job.id →
    (d.job.attempts = r.attempts → r.status = .processing ∧ r.claimedAt = d.job.claimedAt) ∧
      (d.job.attempts < r.attempts → s.Late config d)

theorem late_mono {d : IntakeNotificationDelivery} (h : s.Late config d) (hclock : s.clock ≤ s'.clock) :
    s'.Late config d := by
  obtain ⟨claimed, hd, hlate⟩ := h
  exact ⟨claimed, hd, lt_of_lt_of_le hlate hclock⟩

theorem Leased.onward (h : Leased config s) (hjobs : s'.jobs = s.jobs)
    (hclock : s.clock ≤ s'.clock)
    (hworkers : ∀ v q d, s'.workers v = some q → q.delivery = some d →
      ∃ u q', s.workers u = some q' ∧ q'.delivery = some d) : Leased config s' where
  within r hr := by
    rw [hjobs] at hr
    exact h.within r hr
  lease v q d hq hd r hr hid := by
    rw [hjobs] at hr
    obtain ⟨u, q', hq', hd'⟩ := hworkers v q d hq hd
    obtain ⟨hown, hover⟩ := h.lease u q' d hq' hd' r hr hid
    exact ⟨hown, fun hlt => late_mono (hover hlt) hclock⟩

theorem rested {v : Nat} {q : NotifierPhase} {d : IntakeNotificationDelivery}
    (hq : s.workers.put w .idle v = some q) (hd : q.delivery = some d) :
    v ≠ w ∧ s.workers v = some q := by
  rcases Sessions.put_some hq with ⟨_, rfl⟩ | hv
  · cases hd
  · exact hv

theorem overtaken_late (hwf : OutboxWf config s) (h : Leased config s) {r : IntakeNotificationJob}
    (hr : r ∈ s.jobs) {now : DateTime} (hpast : now ≤ s.clock) (hdue : r.due config now = true)
    {v : Nat} {q : NotifierPhase} {d : IntakeNotificationDelivery}
    (hq : s.workers v = some q) (hd : q.delivery = some d) (hid : r.id = d.job.id) :
    s.Late config d := by
  obtain ⟨hown, hover⟩ := h.lease v q d hq hd r hr hid
  obtain ⟨r', hr', hid', hle, _⟩ := hwf.behind v q d hq hd
  have hsame : r' = r := Rows.eq_of_key hwf.distinct hr' hr (hid'.trans hid.symm)
  rw [hsame] at hle
  by_cases hlt : d.job.attempts < r.attempts
  · exact hover hlt
  · -- nobody claimed since, so the claim on the row is the worker's, and stale
    obtain ⟨hst, hclaimed⟩ := hown (by omega)
    unfold IntakeNotificationJob.due at hdue
    rw [hst, Bool.and_eq_true] at hdue
    have hstale : r.stale config now = true := by simpa using hdue.2
    unfold IntakeNotificationJob.stale at hstale
    rw [hclaimed] at hstale
    split at hstale
    · next claimed hc =>
      refine ⟨claimed, hc, ?_⟩
      have hlt : claimed < now - seconds config.staleAfterSeconds := of_decide_eq_true hstale
      exact lt_of_lt_of_le (Int.add_lt_of_lt_sub_right hlt) hpast
    · cases hstale

theorem claimed_leased (hwf : OutboxWf config s) (h : Leased config s) {r : IntakeNotificationJob}
    {skipped : List Uuid} {now : DateTime} {ending : Ending} {d : IntakeNotificationDelivery}
    (hr : r ∈ s.jobs) (hpast : now ≤ s.clock) (hdue : r.due config now = true)
    (htaken : d.job = r.taken now)
    (hok : Disciplined config s (.claim w r.id skipped now ending)) :
    Leased config { s with
      jobs := Rows.update (·.id) r.id (ending.change (·.claimed now)) s.jobs
      workers := s.workers.put w (if ending = .committed then .delivering d else .idle) } := by
  have hwho : ∀ v q d', s.workers.put w (if ending = .committed then .delivering d else .idle) v =
      some q → q.delivery = some d' → (ending = .committed ∧ d' = d) ∨ s.workers v = some q := by
    intro v q d' hq hd'
    rcases Sessions.put_some hq with ⟨_, rfl⟩ | ⟨_, hq⟩
    · by_cases hend : ending = .committed
      · rw [if_pos hend] at hd'
        exact .inl ⟨hend, (Option.some.inj hd').symm⟩
      · rw [if_neg hend] at hd'
        cases hd'
    · exact .inr hq
  refine ⟨fun r' hr' => ?_, fun v q d' hq hd' r' hr' hid => ?_⟩
  · rcases Rows.mem_update.mp hr' with ⟨hold, _⟩ | ⟨x, hx, hid, rfl⟩
    · exact h.within r' hold
    · obtain rfl := Rows.eq_of_key hwf.distinct hx hr hid
      by_cases hend : ending = .rolledBack
      · rw [Ending.change, if_pos hend]
        exact h.within x hx
      · rw [Ending.change, if_neg hend]
        -- a queued row has attempts left, and so has one that is taken over
        have hleft : x.attempts < x.maxAttempts := by
          unfold IntakeNotificationJob.due at hdue
          simp only [Bool.and_eq_true, Bool.or_eq_true, beq_iff_eq] at hdue
          rcases hdue.2 with hq | ⟨hp, _⟩
          · exact (h.within x hx).2 hq
          · exact hok hend x hx rfl hp
        exact ⟨hleft, fun hq => by cases hq⟩
  · rcases Rows.mem_update.mp hr' with ⟨hold, hne⟩ | ⟨x, hx, hxid, rfl⟩
    · rcases hwho v q d' hq hd' with ⟨_, rfl⟩ | hq
      · rw [htaken] at hid
        exact absurd hid hne
      · exact h.lease v q d' hq hd' r' hold hid
    · obtain rfl := Rows.eq_of_key hwf.distinct hx hr hxid
      by_cases hend : ending = .rolledBack
      · rw [Ending.change, if_pos hend] at hid ⊢
        rcases hwho v q d' hq hd' with ⟨hcom, _⟩ | hq
        · rw [hend] at hcom
          cases hcom
        · exact h.lease v q d' hq hd' x hx hid
      · rw [Ending.change, if_neg hend] at hid ⊢
        rcases hwho v q d' hq hd' with ⟨_, rfl⟩ | hq
        · rw [htaken]
          exact ⟨fun _ => ⟨rfl, rfl⟩, fun hlt => absurd hlt (Nat.lt_irrefl _)⟩
        · -- everybody else is behind the new attempt, and late
          obtain ⟨y, hy, hyid, hle, _⟩ := hwf.behind v q d' hq hd'
          have hsame : y = x := Rows.eq_of_key hwf.distinct hy hx (hyid.trans hid.symm)
          rw [hsame] at hle
          have hnext : (x.claimed now).attempts = x.attempts + 1 := rfl
          refine ⟨fun heq => ?_, fun _ => overtaken_late hwf h hx hpast hdue hq hd' hid⟩
          rw [hnext] at heq
          omega

theorem written_own (hwf : OutboxWf config s) (h : Leased config s) {now : DateTime}
    {ending : Ending} {d : IntakeNotificationDelivery} {outcome : Outcome}
    (hw : s.workers w = some (.recording d outcome))
    (hok : Disciplined config s (.record w now ending)) (hend : ending ≠ .rolledBack)
    {r : IntakeNotificationJob} (hr : r ∈ s.jobs) (hid : r.id = d.job.id)
    (hst : r.status = .processing) : r.attempts = d.job.attempts := by
  obtain ⟨_, hover⟩ := h.lease w _ d hw rfl r hr hid
  obtain ⟨r', hr', hid', hle, _⟩ := hwf.behind w _ d hw rfl
  have hsame : r' = r := Rows.eq_of_key hwf.distinct hr' hr (hid'.trans hid.symm)
  rw [hsame] at hle
  by_contra hne
  rcases hok hend d outcome hw (hover (by omega)) r hr hid with heq | hsettled
  · exact hne heq
  · exact hsettled hst

theorem values_queued {job r : IntakeNotificationJob} {now : DateTime} {outcome : Outcome}
    (h : (outcome.values job now r).status = .queued) : job.attempts < job.maxAttempts := by
  cases outcome with
  | retry error =>
    simp only [Outcome.values] at h
    split at h
    · cases h
    · next hleft => exact Nat.lt_of_not_le hleft
  | _ => cases h

theorem recorded_leased (hwf : OutboxWf config s) (h : Leased config s) {now : DateTime}
    {ending : Ending} {d : IntakeNotificationDelivery} {outcome : Outcome}
    (hw : s.workers w = some (.recording d outcome))
    (hok : Disciplined config s (.record w now ending)) :
    Leased config { s with
      jobs := Rows.update (·.id) d.job.id (ending.change (outcome.record d.job now)) s.jobs
      workers := s.workers.put w .idle } := by
  -- either a row is as it was, or the worker wrote its own claim
  have hcases : ∀ r' ∈ Rows.update (·.id) d.job.id (ending.change (outcome.record d.job now)) s.jobs,
      r' ∈ s.jobs ∨ ∃ r ∈ s.jobs, r.id = d.job.id ∧ r.attempts = d.job.attempts ∧
        r' = outcome.values d.job now r := by
    intro r' hr'
    rcases Rows.mem_update.mp hr' with ⟨hold, _⟩ | ⟨r, hr, hid, rfl⟩
    · exact .inl hold
    · by_cases hend : ending = .rolledBack
      · rw [Ending.change, if_pos hend]
        exact .inl hr
      · rw [Ending.change, if_neg hend]
        by_cases hst : r.status = .processing
        · rw [Outcome.record, if_pos hst]
          exact .inr ⟨r, hr, hid, written_own hwf h hw hok hend hr hid hst, rfl⟩
        · rw [record_settled hst]
          exact .inl hr
  refine ⟨fun r' hr' => ?_, fun v q d' hq hd' r' hr' hid => ?_⟩
  · rcases hcases r' hr' with hold | ⟨r, hr, hid, hown, rfl⟩
    · exact h.within r' hold
    · obtain ⟨_, hattempts, hmax, _, _⟩ := values_same d.job r now outcome
      rw [hattempts, hmax]
      refine ⟨(h.within r hr).1, fun hq => ?_⟩
      have hleft := values_queued hq
      obtain ⟨r₀, hr₀, hid₀, _, hmax₀⟩ := hwf.behind w _ d hw rfl
      have hsame : r₀ = r := Rows.eq_of_key hwf.distinct hr₀ hr (hid₀.trans hid.symm)
      rw [hsame] at hmax₀
      omega
  · obtain ⟨hne, hq⟩ := rested hq hd'
    rcases hcases r' hr' with hold | ⟨r, hr, hrid, hown, rfl⟩
    · exact h.lease v q d' hq hd' r' hold hid
    · obtain ⟨hid', hattempts, _, _, _⟩ := values_same d.job r now outcome
      rw [hid'] at hid
      rw [hattempts]
      refine ⟨fun heq => ?_, (h.lease v q d' hq hd' r hr hid).2⟩
      -- two workers would believe in one attempt
      have hkey : (d'.job.id, d'.job.attempts) = (d.job.id, d.job.attempts) := by
        rw [← hid, hrid, heq, hown]
      refine absurd (hwf.unique v w (d.job.id, d.job.attempts) ⟨q, hq, ?_⟩ ⟨_, hw, rfl⟩) hne
      rw [NotifierPhase.lease, hd', ← hkey]
      rfl

theorem leased_step (hwf : OutboxWf config s) (h : Leased config s)
    (hs : outboxStep config s a = some s') (hok : Disciplined config s a) :
    Leased config s' := by
  cases outbox_move hwf.distinct hs with
  | outside a clock cases later kept nobody quiet disciplined =>
    exact h.onward rfl later (fun v q d hq hd => ⟨v, q, hq, hd⟩)
  | filed job new queued unattempted unclaimed user case =>
    refine ⟨fun r hr => ?_, fun v q d hq hd r hr hid => ?_⟩
    · rcases mem_insertOnce hr with rfl | hr
      · have hpos := r.positive
        omega
      · exact h.within r hr
    · rcases mem_insertOnce hr with rfl | hr
      · -- a delivery is never about a job that is not on file
        obtain ⟨r', hr', hid', _⟩ := hwf.behind v q d hq hd
        refine absurd ?_ new
        rw [hid, ← hid']
        exact List.mem_map_of_mem hr'
      · exact h.lease v q d hq hd r hr hid
  | moved a w p delivery quiet disciplined =>
    refine h.onward rfl (le_refl _) (fun v q d hq hd => ?_)
    rcases Sessions.put_some hq with ⟨_, rfl⟩ | ⟨_, hq⟩
    · obtain ⟨q', hq', hd'⟩ := delivery d hd
      exact ⟨w, q', hq', hd'⟩
    · exact ⟨v, q, hq, hd⟩
  | claimed w r skipped now ending d idle mem past due taken =>
    exact claimed_leased hwf h mem past due taken hok
  | recorded w now ending d outcome before => exact recorded_leased hwf h before hok

end

/-! ## Claiming again -/

section

variable {config : NotifierConfig} {s s' : Outbox} {a : OutboxAction}

theorem outbox_leads_step {s₁ : Outbox} (hs : outboxStep config s a = some s₁)
    (h : (outbox config).Leads s₁ s') : (outbox config).Leads s s' :=
  Machine.Leads.step (M := outbox config) hs h

theorem outbox_leads_wf (h : (outbox config).Leads s s') (hwf : OutboxWf config s) :
    OutboxWf config s' :=
  Machine.Leads.invariant (P := OutboxWf config) (fun _ _ _ hwf hs => outboxStep_wf hwf hs) h hwf

theorem eventually_eligible (hwf : OutboxWf config s) {r : IntakeNotificationJob}
    (hr : r ∈ s.jobs) (hopen : r.status.terminal = false) :
    ∃ t, ∀ now, t ≤ now → r ∈ s.eligible config now := by
  obtain ⟨huser, hcase⟩ := hwf.joined r hr
  -- it is enough that the row meets the condition on status and time
  suffices hdue : ∃ t, ∀ now, t ≤ now → r.due config now = true by
    obtain ⟨t, ht⟩ := hdue
    refine ⟨t, fun now hnow => ?_⟩
    rw [Outbox.eligible, List.mem_filter, Bool.and_eq_true, Bool.and_eq_true]
    exact ⟨hr, ⟨ht now hnow, huser⟩, hcase⟩
  cases hst : r.status with
  | queued =>
    refine ⟨r.dueAt, fun now hnow => ?_⟩
    simp [IntakeNotificationJob.due, hst, hnow]
  | processing =>
    obtain ⟨claimed, hclaimed⟩ := Option.isSome_iff_exists.mp (hwf.leased r hr hst)
    refine ⟨max r.dueAt (claimed + seconds config.staleAfterSeconds + 1), fun now hnow => ?_⟩
    have hdue : r.dueAt ≤ now := le_trans (le_max_left _ _) hnow
    have hlater : claimed + seconds config.staleAfterSeconds + 1 ≤ now :=
      le_trans (le_max_right _ _) hnow
    have hstale : claimed < now - seconds config.staleAfterSeconds :=
      Int.lt_sub_right_of_add_lt (Int.lt_of_add_one_le hlater)
    simp [IntakeNotificationJob.due, IntakeNotificationJob.stale, hst, hclaimed, hdue, hstale]
  | sent => rw [hst] at hopen; cases hopen
  | failed => rw [hst] at hopen; cases hopen
  | cancelled => rw [hst] at hopen; cases hopen

theorem exists_first {now : DateTime} {r : IntakeNotificationJob} (hr : r ∈ s.eligible config now) :
    ∃ m ∈ s.eligible config now, s.mayClaim config now [] m = true := by
  obtain ⟨t, ht, hmin⟩ := Finset.exists_min_image
    ((s.eligible config now).map (·.dueAt)).toFinset (fun t => t)
    ⟨r.dueAt, List.mem_toFinset.mpr (List.mem_map_of_mem hr)⟩
  obtain ⟨m, hm, rfl⟩ := List.mem_map.mp (List.mem_toFinset.mp ht)
  refine ⟨m, hm, ?_⟩
  unfold Outbox.mayClaim
  have hall : (s.eligible config now).filter (fun q => !([] : List Uuid).contains q.id) =
      s.eligible config now := List.filter_eq_self.mpr (fun q _ => rfl)
  rw [hall, Bool.and_eq_true, List.any_eq_true, List.all_eq_true]
  refine ⟨⟨m, hm, beq_self_eq_true _⟩, fun q hq => decide_eq_true ?_⟩
  exact hmin q.dueAt (List.mem_toFinset.mpr (List.mem_map_of_mem hq))

theorem take_next (hwf : OutboxWf config s) {m : IntakeNotificationJob}
    (hm : m ∈ s.eligible config s.clock) (hmay : s.mayClaim config s.clock [] m = true) :
    ∃ n d, d.job = m.taken s.clock ∧ (outbox config).Leads s { s with
      jobs := Rows.update (·.id) m.id (·.claimed s.clock) s.jobs
      workers := s.workers.put n (.delivering d) } := by
  obtain ⟨n, hn⟩ := hwf.fresh
  have hmem : m ∈ s.jobs := List.mem_of_mem_filter hm
  have hlookup : Rows.lookup (·.id) s.jobs m.id = some m := Rows.lookup_of_mem hwf.distinct hmem
  obtain ⟨huser, hcase⟩ := hwf.joined m hmem
  obtain ⟨subject, hsubject⟩ := Option.isSome_iff_exists.mp huser
  obtain ⟨state, hstate⟩ := Option.isSome_iff_exists.mp hcase
  let d : IntakeNotificationDelivery :=
    { job := m.taken s.clock, recipientSubject := subject, caseState := state }
  let s₁ : Outbox := { s with workers := s.workers.put n .idle }
  have h₁ : outboxStep config s (.start n) = some s₁ := by
    simp only [outboxStep, hn n (le_refl n)]
    rfl
  have h₂ : outboxStep config s₁ (.claim n m.id [] s.clock .committed) = some { s₁ with
      jobs := Rows.update (·.id) m.id (·.claimed s.clock) s.jobs
      workers := s₁.workers.put n (.delivering d) } := by
    have hidle : s₁.workers n = some .idle := Sessions.put_self _ _ _
    have hlookup₁ : Rows.lookup (·.id) s₁.jobs m.id = some m := hlookup
    have hok : s.clock ≤ s₁.clock ∧ s₁.mayClaim config s.clock [] m = true := ⟨le_refl _, hmay⟩
    have hd : deliveryOf config s₁ s.clock m = some d := by
      simp only [deliveryOf, hsubject]
      rw [show s₁.cases m.caseId = some state from hstate]
    simp only [outboxStep, hidle, hlookup₁, if_pos hok, hd]
    rfl
  have hput : s₁.workers.put n (.delivering d) = s.workers.put n (.delivering d) := by
    simp [s₁, Sessions.put]
  rw [hput] at h₂
  exact ⟨n, d, rfl, outbox_leads_step h₁ (outbox_leads_step h₂ .refl)⟩

theorem claimed_not_due (now : DateTime) (r : IntakeNotificationJob) :
    (r.claimed now).due config now = false := by
  have hstale : (r.claimed now).stale config now = false := by
    have hpos : (0 : Int) ≤ seconds config.staleAfterSeconds := by
      unfold seconds
      omega
    exact decide_eq_false (not_lt.mpr (Int.sub_le_self now hpos))
  have hq : ((r.claimed now).status == .queued) = false := rfl
  rw [IntakeNotificationJob.due, hstale, hq, Bool.and_false, Bool.or_false, Bool.and_false]

theorem eligible_taken {r : IntakeNotificationJob} (hwf : OutboxWf config s)
    (hr : r ∈ s.eligible config s.clock) : CanBeTaken config s r.id := by
  induction hn : (s.eligible config s.clock).length using Nat.strong_induction_on
    generalizing s with
  | _ n ih =>
    obtain ⟨m, hm, hmay⟩ := exists_first hr
    obtain ⟨w, d, hd, hleads⟩ := take_next hwf hm hmay
    by_cases hmr : m.id = r.id
    · refine ⟨_, hleads, w, d, Sessions.put_self _ _ _, ?_⟩
      rw [hd]
      exact hmr
    · have hwf' := outbox_leads_wf hleads hwf
      rw [Outbox.eligible, List.mem_filter] at hr
      obtain ⟨hmem, hdue⟩ := hr
      have hmem' : r ∈ Rows.update (·.id) m.id (·.claimed s.clock) s.jobs :=
        Rows.mem_update_ne hmem (Ne.symm hmr)
      have hless : (Outbox.eligible config { s with
          jobs := Rows.update (·.id) m.id (·.claimed s.clock) s.jobs
          workers := s.workers.put w (.delivering d) } s.clock).length < n := by
        rw [← hn]
        show (List.filter _ (Rows.update _ _ _ _)).length < (List.filter _ _).length
        rw [← List.countP_eq_length_filter, ← List.countP_eq_length_filter]
        refine Rows.countP_update_lt (List.mem_of_mem_filter hm) (List.mem_filter.mp hm).2
          (fun x _ => ?_)
        rw [claimed_not_due, Bool.false_and]
        rfl
      obtain ⟨s', hleads', htaken⟩ := ih _ hless hwf' (List.mem_filter.mpr ⟨hmem', hdue⟩) rfl
      exact ⟨s', hleads.trans hleads', htaken⟩

/-- From every state an unfinished job can be claimed: time passes until it is
    due, and the claims before it are made. -/
theorem open_taken {r : IntakeNotificationJob} (hwf : OutboxWf config s) (hr : r ∈ s.jobs)
    (hopen : r.status.terminal = false) : CanBeTaken config s r.id := by
  obtain ⟨t, ht⟩ := eventually_eligible hwf hr hopen
  have hs : outboxStep config s (.tick (max s.clock t)) = some { s with clock := max s.clock t } :=
    if_pos (le_max_left _ _)
  have hmem : r ∈ Outbox.eligible config { s with clock := max s.clock t } (max s.clock t) :=
    ht _ (le_max_right _ _)
  obtain ⟨s', hleads, htaken⟩ := eligible_taken (outboxStep_wf hwf hs) hmem
  exact ⟨s', outbox_leads_step hs hleads, htaken⟩

end

/-! ## The discipline of a run -/

section

variable {config : NotifierConfig} {s s' : Outbox} {a : OutboxAction}
  {es : List (Event Outbox OutboxAction)}

theorem terminal_kept (hwf : OutboxWf config s) (hs : outboxStep config s a = some s')
    {r : IntakeNotificationJob} (hr : r ∈ s.jobs) (hend : r.status.terminal = true) :
    r ∈ s'.jobs := by
  cases outbox_move hwf.distinct hs with
  | outside a clock cases later kept nobody quiet disciplined => exact hr
  | filed job new queued unattempted unclaimed user case =>
    exact mem_insertOnce_of_mem hr
  | moved a w p delivery quiet disciplined => exact hr
  | claimed w x skipped now ending d idle mem past due taken =>
    refine Rows.mem_update_ne hr (fun hid => ?_)
    -- a row that is due is not settled
    have hsame : r = x := Rows.eq_of_key hwf.distinct hr mem hid
    subst hsame
    unfold IntakeNotificationJob.due at due
    simp only [Bool.and_eq_true, Bool.or_eq_true, beq_iff_eq] at due
    rcases due.2 with hq | ⟨hp, _⟩
    · rw [hq] at hend
      cases hend
    · rw [hp] at hend
      cases hend
  | recorded w now ending d outcome before =>
    by_cases hid : r.id = d.job.id
    · have hsettled : r.status ≠ .processing := by
        intro hp
        rw [hp] at hend
        cases hend
      have hkeep : ending.change (outcome.record d.job now) r = r := by
        unfold Ending.change
        split
        · rfl
        · exact record_settled hsettled
      have hmem : ending.change (outcome.record d.job now) r ∈
          Rows.update (·.id) r.id (ending.change (outcome.record d.job now)) s.jobs :=
        Rows.mem_update_self hr
      rw [hkeep, hid] at hmem
      exact hmem
    · exact Rows.mem_update_ne hr hid

theorem job_kept (hwf : OutboxWf config s) (hs : outboxStep config s a = some s')
    {r : IntakeNotificationJob} (hr : r ∈ s.jobs) :
    ∃ r' ∈ s'.jobs, r'.id = r.id ∧ r'.maxAttempts = r.maxAttempts := by
  cases outbox_move hwf.distinct hs with
  | outside a clock cases later kept nobody quiet disciplined => exact ⟨r, hr, rfl, rfl⟩
  | filed job new queued unattempted unclaimed user case =>
    exact ⟨r, mem_insertOnce_of_mem hr, rfl, rfl⟩
  | moved a w p delivery quiet disciplined => exact ⟨r, hr, rfl, rfl⟩
  | claimed w x skipped now ending d idle mem past due taken =>
    have hrewrites := (claimed_rewrites now).change ending
    by_cases hid : r.id = x.id
    · rw [← hid]
      exact ⟨_, Rows.mem_update_self hr, hrewrites.id r, hrewrites.maxAttempts r⟩
    · exact ⟨r, Rows.mem_update_ne hr hid, rfl, rfl⟩
  | recorded w now ending d outcome before =>
    have hrewrites := (record_rewrites d.job now outcome).change ending
    by_cases hid : r.id = d.job.id
    · rw [← hid]
      exact ⟨_, Rows.mem_update_self hr, hrewrites.id r, hrewrites.maxAttempts r⟩
    · exact ⟨r, Rows.mem_update_ne hr hid, rfl, rfl⟩

theorem exec_outbox_wf (h : Exec (outbox config) es s) : OutboxWf config s :=
  h.invariant (fun _ => outbox_init_wf) (fun _ _ _ hwf hs => outboxStep_wf hwf hs)

theorem exec_counted (h : Exec (outbox config) es s) : Counted es s := by
  induction h with
  | @start s h0 =>
    refine ⟨fun r hr => ?_, fun _ _ => rfl⟩
    rw [h0.1] at hr
    cases hr
  | snoc h hs ih => exact counted_step (exec_outbox_wf h) ih hs

theorem exec_leased (h : Exec (outbox config) es s)
    (hok : ∀ e ∈ es, Disciplined config e.pre e.act) : Leased config s := by
  induction h with
  | @start s h0 =>
    refine ⟨fun r hr => ?_, fun w p d hp => ?_⟩
    · rw [h0.1] at hr
      cases hr
    · rw [h0.2 w] at hp
      cases hp
  | snoc h hs ih =>
    obtain ⟨hlast, hbefore⟩ := List.forall_mem_cons.mp hok
    exact leased_step (exec_outbox_wf h) (ih hbefore) hs hlast

theorem overtaken_quiet (hwf : OutboxWf config s) (hl : Leased config s)
    (hs : outboxStep config s a = some s') (hok : Disciplined config s a) {w : Nat}
    {d : IntakeNotificationDelivery} (hw : a.worker = some w) (ho : s.Overtaken w d)
    {r : IntakeNotificationJob} (hr : r ∈ s.jobs) (hid : r.id = d.job.id) :
    ∃ r' ∈ s'.jobs, r'.id = r.id ∧ r'.status = r.status ∧ r'.dueAt = r.dueAt := by
  obtain ⟨⟨p, hp, hd⟩, x, hx, hxid, hbehind⟩ := ho
  obtain rfl := Rows.eq_of_key hwf.distinct hx hr (hxid.trans hid.symm)
  cases outbox_move hwf.distinct hs with
  | outside a clock cases later kept nobody quiet disciplined =>
    rw [nobody] at hw
    cases hw
  | filed job new queued unattempted unclaimed user case => cases hw
  | moved a w p delivery quiet disciplined => exact ⟨x, hr, rfl, rfl, rfl⟩
  | claimed w' r skipped now ending d' idle mem past due taken =>
    -- who claims has no delivery
    obtain rfl : w' = w := Option.some.inj hw
    rw [idle] at hp
    obtain rfl := Option.some.inj hp
    cases hd
  | recorded w' now ending d' outcome before =>
    obtain rfl : w' = w := Option.some.inj hw
    rw [before] at hp
    obtain rfl := Option.some.inj hp
    obtain rfl : d' = d := Option.some.inj hd
    have hkeep : ending.change (outcome.record d'.job now) x = x := by
      by_cases hend : ending = .rolledBack
      · exact if_pos hend
      · rw [Ending.change, if_neg hend]
        refine record_settled (fun hst => ?_)
        have hown := written_own hwf hl before hok hend hr hid hst
        omega
    have hmem : ending.change (outcome.record d'.job now) x ∈
        Rows.update (·.id) x.id (ending.change (outcome.record d'.job now)) s.jobs :=
      Rows.mem_update_self hr
    rw [hkeep, hid] at hmem
    exact ⟨x, hmem, rfl, rfl, rfl⟩

theorem LeaseDiscipline.before {e : Event Outbox OutboxAction} (hwf : OutboxWf config s)
    (hs : outboxStep config s a = some s') (h : LeaseDiscipline config (e :: es) s') :
    LeaseDiscipline config es s where
  attempts r hr := by
    obtain ⟨r', hr', hid, hmax⟩ := job_kept hwf hs hr
    have hle := h.attempts r' hr'
    rw [hid, hmax, List.countP_cons] at hle
    omega
  overtaken e' he' := h.overtaken e' (List.mem_cons_of_mem _ he')
  final e' he' := h.final e' (List.mem_cons_of_mem _ he')
  claimable r hr hopen := ⟨eventually_eligible hwf hr hopen, open_taken hwf hr hopen⟩

theorem disciplined_last (h : Exec (outbox config) es s)
    (hs : outboxStep config s a = some s')
    (hall : LeaseDiscipline config (⟨s, a, s'⟩ :: es) s') : Disciplined config s a := by
  have hwf := exec_outbox_wf h
  cases outbox_move hwf.distinct hs with
  | outside a clock cases later kept nobody quiet disciplined => exact disciplined
  | filed job new queued unattempted unclaimed user case => trivial
  | moved a w p delivery quiet disciplined => exact disciplined
  | claimed w r skipped now ending d idle mem past due taken =>
    intro hend x hx hid hst
    obtain rfl := Rows.eq_of_key hwf.distinct hx mem hid
    have hrewrites := (claimed_rewrites now).change ending
    have hle := hall.attempts _ (Rows.mem_update_self hx)
    have hmine : ∀ post, claimsOf x.id ⟨s, .claim w x.id skipped now ending, post⟩ = true := by
      simp [claimsOf, hend]
    rw [hrewrites.id, hrewrites.maxAttempts, List.countP_cons, hmine, if_pos rfl,
      ← (exec_counted h).1 x hx] at hle
    exact hle
  | recorded w now ending d outcome before =>
    intro hend d' outcome' hw _ r hr hid
    rw [before] at hw
    cases hw
    by_contra hnot
    rw [not_or, not_not] at hnot
    obtain ⟨hne, hst⟩ := hnot
    obtain ⟨x, hx, hxid, hle, _⟩ := hwf.behind w _ d before rfl
    obtain rfl := Rows.eq_of_key hwf.distinct hx hr (hxid.trans hid.symm)
    -- the worker was overtaken, and writes the row all the same
    have ho : s.Overtaken w d := ⟨⟨_, before, rfl⟩, x, hr, hid, by omega⟩
    obtain ⟨y, hy, hyid, hyst, _⟩ :=
      hall.overtaken _ List.mem_cons_self w d rfl ho x hr hid
    rcases Rows.mem_update.mp hy with ⟨_, hother⟩ | ⟨z, _, _, rfl⟩
    · exact hother (hyid.trans hid)
    · rw [Ending.change, if_neg hend, hst] at hyst
      exact record_status d.job z now outcome hyst

theorem disciplined_of (h : Exec (outbox config) es s) (hall : LeaseDiscipline config es s) :
    ∀ e ∈ es, Disciplined config e.pre e.act := by
  induction h with
  | start _ => exact fun e he => absurd he List.not_mem_nil
  | snoc h hs ih =>
    exact List.forall_mem_cons.mpr
      ⟨disciplined_last h hs hall, ih (hall.before (exec_outbox_wf h) hs)⟩

theorem discipline_of (h : Exec (outbox config) es s)
    (hok : ∀ e ∈ es, Disciplined config e.pre e.act) : LeaseDiscipline config es s := by
  have hwf := exec_outbox_wf h
  refine ⟨fun r hr => ?_, fun e he w d hw ho r hr hid => ?_, fun e he r hr hend => ?_,
    fun r hr hopen => ⟨eventually_eligible hwf hr hopen, open_taken hwf hr hopen⟩⟩
  · rw [← (exec_counted h).1 r hr]
    exact ((exec_leased h hok).within r hr).1
  · obtain ⟨later, earlier, rfl, hpre, hs⟩ := h.split he
    have hbefore : ∀ e' ∈ earlier, Disciplined config e'.pre e'.act := fun e' he' =>
      hok e' (List.mem_append_right _ (List.mem_cons_of_mem _ he'))
    exact overtaken_quiet (exec_outbox_wf hpre) (exec_leased hpre hbefore) hs (hok e he) hw ho hr hid
  · obtain ⟨later, earlier, rfl, hpre, hs⟩ := h.split he
    exact terminal_kept (exec_outbox_wf hpre) hs hr hend

/-- **Lease discipline**: a run keeps it if and only if no stale claim without
    attempts left is taken over, and every outcome is recorded within its lease,
    or on a row that nobody claimed since, or on a settled one. -/
theorem lease_discipline_iff (h : Exec (outbox config) es s) :
    LeaseDiscipline config es s ↔ ∀ e ∈ es, Disciplined config e.pre e.act :=
  ⟨disciplined_of h, discipline_of h⟩

end

/-! ## Two workers and a slow one -/

def slackOnly : NotifierConfig :=
  { users := fun _ => some "an", userMap := fun _ => some "U1", repr := fun _ => "" }

def anyCard : IntakeNotificationJob :=
  { id := { text := "j" }, tenantId := { text := "t" }, workspaceId := { text := "w" }
    caseId := { text := "c" }, eventType := .intake .approved
    recipientUserId := { text := "u" }, dueAt := 0, idempotencyKey := "k", updatedAt := 0 }

def claimAt (w : Nat) (now : DateTime) : List OutboxAction :=
  [.tick now, .start w, .claim w anyCard.id [] now .committed]

def filed : List OutboxAction := [.caseMoves anyCard.caseId .draft, .enqueue anyCard]

def undisturbed (e : Event Outbox OutboxAction) : Bool :=
  match e.act with
  | .claim _ id _ _ _ => e.pre.jobs.all (fun r => r.id != id || r.status != .processing)
  | .record w _ _ =>
    match e.pre.workers w with
    | some (.recording d _) =>
      e.pre.jobs.all (fun r => r.id != d.job.id || r.attempts == d.job.attempts)
    | _ => true
  | _ => true

theorem undisturbed_disciplined {config : NotifierConfig} {e : Event Outbox OutboxAction}
    (h : undisturbed e = true) : Disciplined config e.pre e.act := by
  obtain ⟨s, a, s'⟩ := e
  cases a with
  | claim w id skipped now ending =>
    intro _ r hr hid hst
    have hrow := List.all_eq_true.mp h r hr
    rw [hid, hst] at hrow
    simp at hrow
  | record w now ending =>
    intro _ d outcome hw _ r hr hid
    have hw' : s.workers w = some (.recording d outcome) := hw
    simp only [undisturbed, hw', List.all_eq_true] at h
    have hrow := h r hr
    rw [hid, bne_self_eq_false, Bool.false_or, beq_iff_eq] at hrow
    exact .inl hrow
  | _ => trivial

/-- A card that is delivered and recorded before anybody else looks. -/
theorem prompt_delivery : ∃ es s, Exec (outbox slackOnly) es s ∧
    s.jobs.map (·.status) = [.sent] ∧ LeaseDiscipline slackOnly es s := by
  have hrun : (outbox slackOnly).runs {}
      (filed ++ claimAt 0 1 ++ [.deliver 0 (.ok ("D1", "1.0")), .record 0 1 .committed])
      (fun es s => s.jobs.map (·.status) == [.sent] && es.all undisturbed) = true := by
    decide +kernel
  obtain ⟨es, s, h, hend⟩ :=
    Machine.exec_of_runs (M := outbox slackOnly) ⟨rfl, fun _ => rfl⟩ hrun
  rw [Bool.and_eq_true, beq_iff_eq, List.all_eq_true] at hend
  exact ⟨es, s, h, hend.1,
    (lease_discipline_iff h).mpr (fun e he => undisturbed_disciplined (hend.2 e he))⟩

/-- Six workers claim one card of five attempts, and each dies with it. -/
theorem sixth_attempt : ¬ ∀ (config : NotifierConfig) (es : List (Event Outbox OutboxAction))
    (s : Outbox), Exec (outbox config) es s → LeaseDiscipline config es s := by
  intro hclaim
  have hrun : (outbox slackOnly).runs {} (filed ++
      claimAt 0 0 ++ [.crash 0] ++ claimAt 1 200000000 ++ [.crash 1] ++
      claimAt 2 400000000 ++ [.crash 2] ++ claimAt 3 600000000 ++ [.crash 3] ++
      claimAt 4 800000000 ++ [.crash 4] ++ claimAt 5 1000000000)
      (fun es s => s.jobs.any (fun r => r.maxAttempts < es.countP (claimsOf r.id))) = true := by
    decide +kernel
  obtain ⟨es, s, h, hmany⟩ :=
    Machine.exec_of_runs (M := outbox slackOnly) ⟨rfl, fun _ => rfl⟩ hrun
  rw [List.any_eq_true] at hmany
  obtain ⟨r, hr, hmore⟩ := hmany
  exact absurd ((hclaim _ es s h).attempts r hr) (Nat.not_le_of_lt (of_decide_eq_true hmore))

/-- A worker that was overtaken records a failure over the claim of its
    successor, and the card is over while the successor sends it. -/
example : (outbox slackOnly).runs {} (filed ++ claimAt 0 0 ++
    [.deliver 0 (.error "invalid_auth")] ++ claimAt 1 200000000 ++ [.record 0 200000000 .committed])
    (fun _ s => s.jobs.map (·.status) == [.failed] &&
      match s.workers 1 with
      | some (.delivering d) => d.job.id == anyCard.id
      | _ => false) = true := by
  decide +kernel

end DigitalWorker.Worker
