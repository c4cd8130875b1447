import DigitalWorker.Framework.TableDiff
import DigitalWorker.Worker.Leases
import Mathlib.Data.String.Basic

/-! # What a receipt tells of an action

    The reply to an action of the chat is written from a receipt: two snapshots of
    the case, before and after, and what differs between them. A snapshot holds the
    state, the types of the artifacts and the number of the cards. Meanwhile the
    action writes to the store, and so do a run of the graph, another person and
    the worker that delivers the cards.
-/

namespace DigitalWorker.Conversation

open Framework
open Worker (IntakeNotificationJob NotificationJobStatus NotifierConfig)

/-! ## The rows of a case -/

structure StoredCase where
  id : Uuid
  title : String
  state : CaseState
  artifacts : List PreparationArtifact := []
  /-- The cards of every case. -/
  jobs : List IntakeNotificationJob := []
  artifactIds : (artifacts.map (·.id)).Nodup := by decide
  jobIds : (jobs.map (·.id)).Nodup := by decide

inductive StoreWrite where
  | saveCase (title : String) (state : CaseState)
  | addArtifact (a : PreparationArtifact)
  | markOfficial (artifactId : Uuid)
  | enqueue (job : IntakeNotificationJob)
  | claimNext (jobId : Uuid) (now : DateTime)
  /-- A worker records what became of the card it claimed as `job`. -/
  | record (job : IntakeNotificationJob) (outcome : Worker.Outcome) (now : DateTime)

def claim (config : NotifierConfig) (now : DateTime) (r : IntakeNotificationJob) :
    IntakeNotificationJob :=
  if r.due config now then r.claimed now else r

theorem claim_id (config : NotifierConfig) (now : DateTime) (r : IntakeNotificationJob) :
    (claim config now r).id = r.id := by
  unfold claim
  by_cases hdue : r.due config now = true
  · rw [if_pos hdue]
    rfl
  · rw [if_neg hdue]

namespace StoredCase

/-- `list_for_case` on the cards. -/
def caseJobs (s : StoredCase) : List IntakeNotificationJob := s.jobs.filter (·.caseId == s.id)

def types (s : StoredCase) : List String := s.artifacts.map (·.artifactType.value)

def write (config : NotifierConfig) (s : StoredCase) : StoreWrite → StoredCase
  | .saveCase title state => { s with title := title, state := state }
  | .addArtifact a => { s with
      artifacts := Rows.add (·.id) s.artifacts a
      artifactIds := Rows.add_nodup s.artifactIds a }
  | .markOfficial artifactId => { s with
      artifacts := Rows.update (·.id) artifactId (fun a => { a with status := .official }) s.artifacts
      artifactIds := Rows.update_nodup s.artifactIds (fun _ => rfl) }
  | .enqueue job =>
    -- `ON CONFLICT DO NOTHING` on the idempotency key
    if job.idempotencyKey ∈ s.jobs.map (·.idempotencyKey) then s
    else { s with
      jobs := Rows.add (·.id) s.jobs job
      jobIds := Rows.add_nodup s.jobIds job }
  | .claimNext jobId now => { s with
      jobs := Rows.update (·.id) jobId (claim config now) s.jobs
      jobIds := Rows.update_nodup s.jobIds (claim_id config now) }
  | .record job outcome now => { s with
      jobs := Rows.update (·.id) job.id (outcome.record job now) s.jobs
      jobIds := Rows.update_nodup s.jobIds (fun r => (Worker.record_same job r now outcome).1) }

def run (config : NotifierConfig) (s : StoredCase) (ws : List StoreWrite) : StoredCase :=
  ws.foldl (write config) s

end StoredCase

/-! ## The receipt -/

structure CaseSnapshot where
  state : String
  /-- A set. -/
  artifactTypes : List String := []
  notificationCount : Nat := 0
  title : String := ""
  caseId : Option Uuid := none
  deriving DecidableEq

inductive ReceiptOutcome where
  | done
  | refused
  | notAttempted
  deriving DecidableEq

structure ActionReceipt where
  action : String
  outcome : ReceiptOutcome
  caseTitle : String := ""
  caseId : Option Uuid := none
  previousState : String := ""
  newState : String := ""
  artifactsCreated : List String := []
  notificationsSent : Nat := 0
  reason : String := ""
  warnings : List String := []
  deriving DecidableEq

namespace ActionReceipt

def changedState (r : ActionReceipt) : Bool := r.newState ≠ "" && r.newState ≠ r.previousState

def hadEffect (r : ActionReceipt) : Bool :=
  r.changedState || !r.artifactsCreated.isEmpty || r.notificationsSent ≠ 0

end ActionReceipt

/-- `observed`, with the text of the error. -/
def observed (action : String) (before after : Option CaseSnapshot) (error : Option String)
    (warnings : List String) : ActionReceipt :=
  let prev := (before.map (·.state)).getD ""
  let titleAfter := (after.map (·.title)).getD ""
  let title := if titleAfter ≠ "" then titleAfter else (before.map (·.title)).getD ""
  let caseId := (after.bind (·.caseId)) <|> (before.bind (·.caseId))
  match error, after with
  | some reason, _ =>
    { action := action, outcome := .refused, caseTitle := title, caseId := caseId
      previousState := prev, reason := reason, warnings := warnings }
  | none, none =>
    { action := action, outcome := .notAttempted, caseTitle := title, caseId := caseId
      previousState := prev, warnings := warnings }
  | none, some after =>
    let fresh := after.artifactTypes.filter (· ∉ (before.map (·.artifactTypes)).getD [])
    let notified := after.notificationCount - (before.map (·.notificationCount)).getD 0
    { action := action, outcome := .done, caseTitle := title, caseId := caseId
      previousState := prev, newState := after.state
      artifactsCreated := fresh.insertionSort (· ≤ ·), notificationsSent := notified
      warnings := warnings }

/-- `_snapshot`, when the case can be read. -/
def StoredCase.snapshot (s : StoredCase) : CaseSnapshot :=
  { state := s.state.value
    artifactTypes := s.types.dedup
    notificationCount := s.caseJobs.length
    title := s.title
    caseId := some s.id }

/-- The receipt of `_act_with_receipt`, for an action that returns or raises a
    `ConflictError` or `DomainError`: what the case is read as, the writes from
    then on, and what it is read as again. -/
def actionReceipt (config : NotifierConfig) (action : String) (s : StoredCase)
    (ws : List StoreWrite) (error : Option String) : ActionReceipt :=
  let before := some s.snapshot
  let after := match error with
    | none => some (s.run config ws).snapshot
    | some _ => before
  observed action before after error []

/-! ## The property -/

def newArtifacts (before after : StoredCase) : List PreparationArtifact :=
  after.artifacts.filter (·.id ∉ before.artifacts.map (·.id))

structure JobColumns where
  id : Uuid
  status : NotificationJobStatus
  attempts : Nat
  dueAt : DateTime
  lastError : Option String
  slackChannelId : Option String
  slackMessageTs : Option String
  claimedAt : Option DateTime
  sentAt : Option DateTime
  updatedAt : DateTime
  deriving DecidableEq

def jobColumns (r : IntakeNotificationJob) : JobColumns :=
  { id := r.id, status := r.status, attempts := r.attempts, dueAt := r.dueAt
    lastError := r.lastError, slackChannelId := r.slackChannelId
    slackMessageTs := r.slackMessageTs, claimedAt := r.claimedAt, sentAt := r.sentAt
    updatedAt := r.updatedAt }

def changedJobs (before after : StoredCase) : List IntakeNotificationJob :=
  Rows.changed jobColumns before.caseJobs after.caseJobs

/-- **The property** of a receipt: it says that the action had an effect exactly if
    the case changed, and it lists the changes, each once and no other. -/
structure Truthful (before after : StoredCase) (r : ActionReceipt) : Prop where
  effect : r.hadEffect = true ↔
    after.state ≠ before.state ∨ newArtifacts before after ≠ [] ∨ changedJobs before after ≠ []
  moved : r.changedState = true ↔ after.state ≠ before.state
  states : r.changedState = true →
    r.previousState = before.state.value ∧ r.newState = after.state.value
  artifacts : r.artifactsCreated.Perm ((newArtifacts before after).map (·.artifactType.value))
  cards : r.notificationsSent = (changedJobs before after).length

/-! ## The condition -/

section

variable {β : Type} (config : NotifierConfig)

def collect (f : StoredCase → StoreWrite → Option β) : StoredCase → List StoreWrite → List β
  | _, [] => []
  | s, w :: ws => (f s w).toList ++ collect f (s.write config w) ws

def storedBy (s : StoredCase) : StoreWrite → Option PreparationArtifact
  | .addArtifact a => if a.id ∈ s.artifacts.map (·.id) then none else some a
  | _ => none

def queuedBy (s : StoredCase) : StoreWrite → Option Uuid
  | .enqueue job =>
    if job.idempotencyKey ∈ s.jobs.map (·.idempotencyKey) ∨ job.id ∈ s.jobs.map (·.id) ∨
        job.caseId ≠ s.id then none
    else some job.id
  | _ => none

def handledBy (s : StoredCase) : StoreWrite → Option Uuid
  | .claimNext jobId now =>
    if ∃ r ∈ s.jobs, r.id = jobId ∧ r.due config now = true then some jobId else none
  | .record job _ _ =>
    if ∃ r ∈ s.jobs, r.id = job.id ∧ r.status = .processing then some job.id else none
  | _ => none

def typesStored (s : StoredCase) (ws : List StoreWrite) : List String :=
  (collect config storedBy s ws).map (·.artifactType.value)

def CardsAlone (s : StoredCase) (ws : List StoreWrite) : Prop :=
  ∀ jobId ∈ collect config (handledBy config) s ws, jobId ∉ s.caseJobs.map (·.id)

/-- **The condition**: an action that returns leaves the cards of before alone and
    stores artifacts only of types the case has none of, one of each; one that is
    refused leaves the case in its state, stores no artifact and has nothing to do
    with a card of the case. -/
def Tellable (s : StoredCase) (ws : List StoreWrite) : Option String → Prop
  | none => CardsAlone config s ws ∧ (typesStored config s ws).Nodup ∧
      ∀ t ∈ typesStored config s ws, t ∉ s.types
  | some _ => CardsAlone config s ws ∧ typesStored config s ws = [] ∧
      collect config queuedBy s ws = [] ∧ (s.run config ws).state = s.state

end

/-! ## What a sequence of writes leaves -/

section

variable (config : NotifierConfig)

def artifactLabel (a : PreparationArtifact) : Uuid × String := (a.id, a.artifactType.value)

/-- **Step lemma**: a write stores an artifact or none, and changes no type. -/
theorem write_artifacts (s : StoredCase) (w : StoreWrite) :
    (s.write config w).artifacts.map artifactLabel =
      s.artifacts.map artifactLabel ++ (storedBy s w).toList.map artifactLabel := by
  cases w with
  | addArtifact a =>
    show (Rows.add (·.id) s.artifacts a).map artifactLabel = _
    simp only [Rows.add, storedBy]
    by_cases hmem : a.id ∈ s.artifacts.map (·.id)
    · rw [if_pos hmem, if_pos hmem]
      simp
    · rw [if_neg hmem, if_neg hmem, List.map_append]
      rfl
  | markOfficial artifactId =>
    show (Rows.update (·.id) artifactId _ s.artifacts).map artifactLabel = _ ++ []
    unfold Rows.update
    rw [List.append_nil, List.map_map]
    refine List.map_congr_left (fun a _ => ?_)
    show artifactLabel (if a.id = artifactId then _ else a) = artifactLabel a
    by_cases hid : a.id = artifactId
    · rw [if_pos hid]
      rfl
    · rw [if_neg hid]
  | enqueue job =>
    simp only [StoredCase.write]
    split <;> exact (List.append_nil _).symm
  | _ => exact (List.append_nil _).symm

/-- **Run lemma**: the artifacts are those of before and the stored ones, in order. -/
theorem run_artifacts (s : StoredCase) (ws : List StoreWrite) :
    (s.run config ws).artifacts.map artifactLabel =
      s.artifacts.map artifactLabel ++ (collect config storedBy s ws).map artifactLabel := by
  induction ws generalizing s with
  | nil => exact (List.append_nil _).symm
  | cons w ws ih =>
    have hrest := ih (s.write config w)
    rw [write_artifacts, List.append_assoc, ← List.map_append] at hrest
    exact hrest

def jobRank (r : IntakeNotificationJob) : Nat :=
  2 * r.attempts + if r.status = .processing then 0 else 1

variable {config} in
theorem claim_rank {now : DateTime} {r : IntakeNotificationJob} (hdue : r.due config now = true) :
    jobRank r < jobRank (claim config now r) := by
  have hclaimed : jobRank (claim config now r) = 2 * (r.attempts + 1) := by
    unfold claim
    rw [if_pos hdue]
    rfl
  have hbound : jobRank r ≤ 2 * r.attempts + 1 := by
    unfold jobRank
    split <;> omega
  omega

theorem record_rank {job r : IntakeNotificationJob} {now : DateTime} {outcome : Worker.Outcome}
    (hclaimed : r.status = .processing) : jobRank r < jobRank (outcome.record job now r) := by
  unfold jobRank
  rw [(Worker.record_same job r now outcome).2.1, if_pos hclaimed,
    if_neg (Worker.record_status job r now outcome)]
  omega

/-- The cards of the case have grown from those of `s₀`. -/
abbrev CardsGrown (s₀ : StoredCase) (queued handled : List Uuid) (s : StoredCase) : Prop :=
  Grown (·.id) jobRank s₀.caseJobs queued handled s.caseJobs

theorem caseJobs_update {s s' : StoredCase} {jobId : Uuid}
    {f : IntakeNotificationJob → IntakeNotificationJob} (hid : s'.id = s.id)
    (hjobs : s'.jobs = Rows.update (·.id) jobId f s.jobs) (hcase : ∀ r, (f r).caseId = r.caseId) :
    s'.caseJobs = Rows.update (·.id) jobId f s.caseJobs := by
  unfold StoredCase.caseJobs
  rw [hjobs, hid]
  exact Rows.filter_update (fun r => by rw [hcase]) s.jobs

theorem CardsGrown.updated {s₀ s : StoredCase} {queued handled : List Uuid} {jobId : Uuid}
    {f : IntakeNotificationJob → IntakeNotificationJob} (P : IntakeNotificationJob → Prop)
    (h : CardsGrown s₀ queued handled s) (s' : StoredCase) (hid : s'.id = s.id)
    (hjobs : s'.jobs = Rows.update (·.id) jobId f s.jobs)
    (hkey : ∀ r, (f r).id = r.id) (hcase : ∀ r, (f r).caseId = r.caseId)
    (hraised : ∀ r, P r → jobRank r < jobRank (f r)) (hleft : ∀ r, ¬ P r → f r = r)
    [Decidable (∃ r ∈ s.jobs, r.id = jobId ∧ P r)] :
    CardsGrown s₀ queued
      (handled ++ (if ∃ r ∈ s.jobs, r.id = jobId ∧ P r then some jobId else none).toList) s' := by
  have hupdated := caseJobs_update hid hjobs hcase
  unfold CardsGrown
  rw [hupdated]
  by_cases hfound : ∃ r ∈ s.jobs, r.id = jobId ∧ P r
  · rw [if_pos hfound]
    obtain ⟨r, hr, hrid, hP⟩ := hfound
    refine h.update hkey (fun r' hr' hr'id => ?_)
    -- there is one card under the key
    have hmem : r' ∈ s.jobs := List.mem_of_mem_filter hr'
    obtain rfl : r' = r := Rows.eq_of_key s.jobIds hmem hr (hr'id.trans hrid.symm)
    exact hraised r' hP
  · rw [if_neg hfound]
    have hsame : Rows.update (·.id) jobId f s.caseJobs = s.caseJobs := by
      refine Rows.update_noop (fun r hr hrid => hleft r ?_)
      intro hP
      exact hfound ⟨r, List.mem_of_mem_filter hr, hrid, hP⟩
    rw [hsame, Option.toList_none, List.append_nil]
    exact h

/-- **Step lemma**: the cards of the case grow by what a write queues and handles. -/
theorem CardsGrown.write {s₀ s : StoredCase} {queued handled : List Uuid}
    (h : CardsGrown s₀ queued handled s) (w : StoreWrite) :
    CardsGrown s₀ (queued ++ (queuedBy s w).toList)
      (handled ++ (handledBy config s w).toList) (s.write config w) := by
  cases w with
  | enqueue job =>
    simp only [StoredCase.write, queuedBy, handledBy, Option.toList_none, List.append_nil]
    by_cases hkey : job.idempotencyKey ∈ s.jobs.map (·.idempotencyKey)
    · rw [if_pos hkey, if_pos (.inl hkey), Option.toList_none, List.append_nil]
      exact h
    · rw [if_neg hkey]
      show Grown (·.id) jobRank s₀.caseJobs _ handled
        ((Rows.add (·.id) s.jobs job).filter (·.caseId == s.id))
      by_cases hid : job.id ∈ s.jobs.map (·.id)
      · have hadd : Rows.add (·.id) s.jobs job = s.jobs := if_pos hid
        rw [if_pos (.inr (.inl hid)), Option.toList_none, List.append_nil, hadd]
        exact h
      · have hadd : Rows.add (·.id) s.jobs job = s.jobs ++ [job] := if_neg hid
        rw [hadd, List.filter_append]
        by_cases hcase : job.caseId = s.id
        · rw [if_neg (by simp [hkey, hid, hcase]), List.filter_cons_of_pos (by simp [hcase])]
          exact Grown.insert h job
        · rw [if_pos (.inr (.inr hcase)), List.filter_cons_of_neg (by simp [hcase]),
            List.filter_nil, List.append_nil, Option.toList_none, List.append_nil]
          exact h
  | claimNext jobId now =>
    simp only [queuedBy, Option.toList_none, List.append_nil]
    refine CardsGrown.updated (fun r => r.due config now = true) h
      (s.write config (.claimNext jobId now)) rfl rfl (claim_id config now) ?_ ?_ ?_
    · intro r
      unfold claim
      split <;> rfl
    · exact fun r hdue => claim_rank hdue
    · exact fun r hdue => if_neg hdue
  | record job outcome now =>
    simp only [queuedBy, Option.toList_none, List.append_nil]
    refine CardsGrown.updated (fun r => r.status = .processing) h
      (s.write config (.record job outcome now)) rfl rfl ?_ ?_ ?_ ?_
    · exact fun r => (Worker.record_same job r now outcome).1
    · exact fun r => (Worker.record_same job r now outcome).2.2.2.2
    · exact fun r hclaimed => record_rank hclaimed
    · exact fun r hclaimed => Worker.record_settled hclaimed
  | _ =>
    simp only [queuedBy, handledBy, Option.toList_none, List.append_nil]
    exact h

theorem CardsGrown.run {s₀ s : StoredCase} {queued handled : List Uuid}
    (h : CardsGrown s₀ queued handled s) (ws : List StoreWrite) :
    CardsGrown s₀ (queued ++ collect config queuedBy s ws)
      (handled ++ collect config (handledBy config) s ws) (s.run config ws) := by
  induction ws generalizing s queued handled with
  | nil =>
    simp only [collect, List.append_nil]
    exact h
  | cons w ws ih =>
    have hfirst : CardsGrown s₀ (queued ++ (queuedBy s w).toList)
        (handled ++ (handledBy config s w).toList) (s.write config w) := h.write config w
    have hrest := ih hfirst
    rw [List.append_assoc, List.append_assoc] at hrest
    exact hrest

/-! ### Read back from the two snapshots -/

theorem run_types (s : StoredCase) (ws : List StoreWrite) :
    (s.run config ws).types = s.types ++ typesStored config s ws := by
  have hlabels := congrArg (List.map Prod.snd) (run_artifacts config s ws)
  rw [List.map_append, List.map_map, List.map_map, List.map_map] at hlabels
  exact hlabels

theorem newArtifacts_types (s : StoredCase) (ws : List StoreWrite) :
    (newArtifacts s (s.run config ws)).map (·.artifactType.value) = typesStored config s ws := by
  let isNew : Uuid × String → Bool := fun l => l.1 ∉ s.artifacts.map (·.id)
  have hlabels := run_artifacts config s ws
  have hnodup : ((s.run config ws).artifacts.map (·.id)).Nodup := (s.run config ws).artifactIds
  have hids : (s.run config ws).artifacts.map (·.id) =
      s.artifacts.map (·.id) ++ (collect config storedBy s ws).map (·.id) := by
    have hfst := congrArg (List.map Prod.fst) hlabels
    rw [List.map_append, List.map_map, List.map_map, List.map_map] at hfst
    exact hfst
  rw [hids, List.nodup_append] at hnodup
  have hold : (s.artifacts.map artifactLabel).filter isNew = [] := by
    rw [List.filter_eq_nil_iff]
    intro l hl
    obtain ⟨a, ha, rfl⟩ := List.mem_map.mp hl
    simp only [isNew, decide_eq_true_eq, not_not]
    exact List.mem_map_of_mem ha
  have hnew : ((collect config storedBy s ws).map artifactLabel).filter isNew =
      (collect config storedBy s ws).map artifactLabel := by
    rw [List.filter_eq_self]
    intro l hl
    obtain ⟨a, ha, rfl⟩ := List.mem_map.mp hl
    simp only [isNew, decide_eq_true_eq]
    intro hmem
    exact hnodup.2.2 _ hmem _ (List.mem_map_of_mem ha) rfl
  have hlabelled : (newArtifacts s (s.run config ws)).map artifactLabel =
      (collect config storedBy s ws).map artifactLabel := by
    calc (newArtifacts s (s.run config ws)).map artifactLabel
        = ((s.run config ws).artifacts.map artifactLabel).filter isNew := by
          rw [List.filter_map]
          rfl
      _ = (collect config storedBy s ws).map artifactLabel := by
          rw [hlabels, List.filter_append, hold, hnew, List.nil_append]
  have hsnd := congrArg (List.map Prod.snd) hlabelled
  rw [List.map_map, List.map_map] at hsnd
  exact hsnd

theorem caseJobs_nodup (s : StoredCase) : (s.caseJobs.map (·.id)).Nodup :=
  s.jobIds.sublist (List.filter_sublist.map _)

theorem jobColumns_rank (r r' : IntakeNotificationJob) (h : jobColumns r = jobColumns r') :
    r.id = r'.id ∧ jobRank r = jobRank r' := by
  obtain ⟨hid, hstatus, hattempts, _⟩ := JobColumns.mk.inj h
  refine ⟨hid, ?_⟩
  unfold jobRank
  rw [hstatus, hattempts]

theorem run_grown (s : StoredCase) (ws : List StoreWrite) :
    CardsGrown s (collect config queuedBy s ws) (collect config (handledBy config) s ws)
      (s.run config ws) :=
  CardsGrown.run config (Grown.refl s.caseJobs) ws

theorem cards_iff (s : StoredCase) (ws : List StoreWrite) :
    (s.run config ws).caseJobs.length - s.caseJobs.length =
      (changedJobs s (s.run config ws)).length ↔ CardsAlone config s ws := by
  have hgrown := run_grown config s ws
  have hcount : (s.run config ws).caseJobs.length - s.caseJobs.length =
      (collect config queuedBy s ws).length := by
    have hlength := hgrown.length
    omega
  rw [hcount, eq_comm]
  exact hgrown.length_changed (caseJobs_nodup _) jobColumns_rank

theorem changedJobs_nil_iff (s : StoredCase) (ws : List StoreWrite) :
    changedJobs s (s.run config ws) = [] ↔
      collect config queuedBy s ws = [] ∧ CardsAlone config s ws := by
  have hmem := fun jobId => (run_grown config s ws).mem_changed (k := jobId)
    (caseJobs_nodup _) jobColumns_rank
  rw [← List.map_eq_nil_iff (f := (·.id)), List.eq_nil_iff_forall_not_mem,
    List.eq_nil_iff_forall_not_mem]
  constructor
  · intro hnone
    refine ⟨fun jobId hqueued => hnone jobId ((hmem jobId).mpr (.inl hqueued)), ?_⟩
    intro jobId hhandled hbefore
    exact hnone jobId ((hmem jobId).mpr (.inr ⟨hbefore, hhandled⟩))
  · rintro ⟨hqueued, halone⟩ jobId hchanged
    rcases (hmem jobId).mp hchanged with h | ⟨hbefore, hhandled⟩
    · exact hqueued jobId h
    · exact halone jobId hhandled hbefore

theorem freshTypes_perm_iff {old stored : List String} :
    (((old ++ stored).dedup.filter (· ∉ old.dedup)).insertionSort (· ≤ ·)).Perm stored ↔
      stored.Nodup ∧ ∀ t ∈ stored, t ∉ old := by
  have hsorted := List.perm_insertionSort (· ≤ ·) ((old ++ stored).dedup.filter (· ∉ old.dedup))
  have hnodup : ((old ++ stored).dedup.filter (· ∉ old.dedup)).Nodup := (List.nodup_dedup _).filter _
  have hmem : ∀ t, t ∈ (old ++ stored).dedup.filter (· ∉ old.dedup) ↔ t ∈ stored ∧ t ∉ old := by
    intro t
    simp only [List.mem_filter, List.mem_dedup, List.mem_append, decide_eq_true_eq]
    tauto
  constructor
  · intro hperm
    have hsame := hsorted.symm.trans hperm
    refine ⟨hsame.nodup_iff.mp hnodup, fun t ht => ?_⟩
    exact ((hmem t).mp (hsame.mem_iff.mpr ht)).2
  · rintro ⟨hstored, hnew⟩
    refine hsorted.trans ((List.perm_ext_iff_of_nodup hnodup hstored).mpr (fun t => ?_))
    rw [hmem t]
    exact and_iff_left_of_imp (hnew t)

end

/-! ## The receipt and what it leaves out -/

theorem caseState_value_injective : Function.Injective CaseState.value := by
  intro st st' h
  let all : List CaseState :=
    [.draft, .intakeRejected, .intakeReady, .analyzing, .waitingClarification, .approachReady,
      .cp1Pending, .cp1Rejected, .cp1Approved, .buildingSolicitation, .packageReady, .cp2Pending,
      .cp2Rejected, .cp2Approved, .packageOfficial, .published, .cp3Pending, .receivingBids,
      .cp4Ready, .completed, .failed]
  have hread : ∀ st : CaseState, all.find? (fun u => u.value == st.value) = some st := by
    intro st
    cases st <;> decide
  have hsame := hread st
  rw [h, hread st'] at hsame
  exact (Option.some.inj hsame).symm

theorem caseState_value_ne_empty (st : CaseState) : st.value ≠ "" := by
  cases st <;> decide

theorem Truthful.of_lists {before after : StoredCase} {r : ActionReceipt}
    (hmoved : r.changedState = true ↔ after.state ≠ before.state)
    (hstates : r.changedState = true →
      r.previousState = before.state.value ∧ r.newState = after.state.value)
    (hartifacts : r.artifactsCreated.Perm
      ((newArtifacts before after).map (·.artifactType.value)))
    (hcards : r.notificationsSent = (changedJobs before after).length) :
    Truthful before after r where
  effect := by
    have hnone : r.artifactsCreated = [] ↔ newArtifacts before after = [] := by
      rw [← List.map_eq_nil_iff (l := newArtifacts before after), ← List.length_eq_zero_iff,
        hartifacts.length_eq, List.length_eq_zero_iff]
    have hzero : r.notificationsSent = 0 ↔ changedJobs before after = [] := by
      rw [hcards, List.length_eq_zero_iff]
    unfold ActionReceipt.hadEffect
    rw [Bool.or_eq_true, Bool.or_eq_true, hmoved, Bool.not_eq_true', ← Bool.not_eq_true,
      List.isEmpty_iff, hnone, decide_eq_true_eq, Ne, Ne, Ne, hzero, or_assoc]
  moved := hmoved
  states := hstates
  artifacts := hartifacts
  cards := hcards

/-- **Main theorem**: for every case, every sequence of writes from one snapshot to
    the other and every ending of the action, the receipt tells what changed exactly
    when the writes leave the cards of before alone and store artifacts of new types
    only, one of each, and none come with a refusal. -/
theorem receipt_truthful_iff (config : NotifierConfig) (action : String) (s : StoredCase)
    (ws : List StoreWrite) (error : Option String) :
    Truthful s (s.run config ws) (actionReceipt config action s ws error) ↔
      Tellable config s ws error := by
  have htypes := newArtifacts_types config s ws
  cases error with
  | none =>
    -- the second snapshot is taken: the receipt compares the two
    have hartifacts : (actionReceipt config action s ws none).artifactsCreated.Perm
        ((newArtifacts s (s.run config ws)).map (·.artifactType.value)) ↔
        (typesStored config s ws).Nodup ∧ ∀ t ∈ typesStored config s ws, t ∉ s.types := by
      rw [htypes, ← freshTypes_perm_iff, ← run_types]
      rfl
    have hmoved : (actionReceipt config action s ws none).changedState = true ↔
        (s.run config ws).state ≠ s.state := by
      show ((s.run config ws).state.value ≠ "" && (s.run config ws).state.value ≠ s.state.value) =
        true ↔ _
      rw [Bool.and_eq_true, decide_eq_true_eq, decide_eq_true_eq,
        and_iff_right (caseState_value_ne_empty _), caseState_value_injective.ne_iff]
    constructor
    · intro h
      exact ⟨(cards_iff config s ws).mp h.cards, hartifacts.mp h.artifacts⟩
    · rintro ⟨halone, hfresh⟩
      exact Truthful.of_lists hmoved (fun _ => ⟨rfl, rfl⟩) (hartifacts.mpr hfresh)
        ((cards_iff config s ws).mpr halone)
  | some reason =>
    -- there is no second snapshot: the receipt says that nothing happened
    have hmoved : (actionReceipt config action s ws (some reason)).changedState = true ↔ False := by
      have hnew : (actionReceipt config action s ws (some reason)).newState = "" := rfl
      unfold ActionReceipt.changedState
      simp [hnew]
    constructor
    · intro h
      have hcards : changedJobs s (s.run config ws) = [] := List.length_eq_zero_iff.mp h.cards.symm
      obtain ⟨hqueued, halone⟩ := (changedJobs_nil_iff config s ws).mp hcards
      have hstored := h.artifacts
      rw [htypes] at hstored
      refine ⟨halone, List.nil_perm.mp hstored, hqueued, ?_⟩
      by_contra hne
      exact hmoved.mp (h.moved.mpr hne)
    · rintro ⟨halone, hstored, hqueued, hstate⟩
      have hcards : changedJobs s (s.run config ws) = [] :=
        (changedJobs_nil_iff config s ws).mpr ⟨hqueued, halone⟩
      refine Truthful.of_lists ?_ (fun h => absurd h (by rw [hmoved]; exact id)) ?_ ?_
      · rw [hmoved]
        simp [hstate]
      · rw [htypes, hstored]
        exact List.Perm.refl []
      · rw [hcards]
        rfl

namespace Bids

def registerOf (bids : Nat) (artifactId : Uuid) : PreparationArtifact :=
  { id := artifactId, artifactType := .submissionRegister, artifactVersion := bids
    status := .submitted
    content := [("items", .arr (List.replicate bids (.obj [("receipt_status", .str "on_time")])))]
    createdBy := { text := "binh" }, contentHash := "sha256" }

def oneBid : StoredCase :=
  { id := { text := "case" }, title := "Mua 20 laptop", state := .receivingBids
    artifacts := [registerOf 1 { text := "register-1" }] }

/-- What `record_submission` writes for the next, when nobody is to run the opening. -/
def secondBid : List StoreWrite :=
  [.addArtifact (registerOf 2 { text := "register-2" }),
    .saveCase "Mua 20 laptop" .receivingBids]

def notifier : NotifierConfig := { users := fun _ => none, userMap := fun _ => none, repr := fun _ => "" }

/-- The register has a new version, and the receipt says that nothing happened. -/
theorem second_bid_untold :
    let r := actionReceipt notifier "record_submission" oneBid secondBid none
    r.hadEffect = false ∧
      (newArtifacts oneBid (oneBid.run notifier secondBid)).map (·.artifactType) =
        [.submissionRegister] ∧
      ¬ Truthful oneBid (oneBid.run notifier secondBid) r := by
  have heffect : (actionReceipt notifier "record_submission" oneBid secondBid none).hadEffect =
      false := by decide
  have hnew : (newArtifacts oneBid (oneBid.run notifier secondBid)).map (·.artifactType) =
      [.submissionRegister] := by decide
  refine ⟨heffect, hnew, ?_⟩
  intro h
  have hsaid := h.effect.mpr (.inr (.inl (by
    intro hnone
    rw [hnone] at hnew
    cases hnew)))
  rw [heffect] at hsaid
  cases hsaid

end Bids

end DigitalWorker.Conversation
