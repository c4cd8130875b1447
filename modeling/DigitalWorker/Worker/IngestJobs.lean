import Mathlib.Data.Finset.Max
import DigitalWorker.Framework.Machine
import DigitalWorker.Framework.Rows
import DigitalWorker.Framework.Sessions
import DigitalWorker.Knowledge.Gateway

/-! # The ingest-job queue and its workers

    An upload is a job in a table: the API writes it `queued`, a worker claims
    it, runs parse, chunk, embed and index through the gateway, and marks it
    `done` or `failed`. A claim is one transaction around
    `SELECT … FOR UPDATE SKIP LOCKED`; the work and the mark come after it, in
    transactions of their own. Every database step can commit, be rolled back, or
    commit without the worker hearing of it.

    A job leaves `processing` through the worker that claimed it and in no other
    way: there is no lease on a claim and nobody looks for jobs whose worker is
    gone.
-/

namespace DigitalWorker.Worker

open Framework Knowledge

/-! ## The table -/

inductive JobStatus where
  | queued
  | processing
  | done
  | failed
  deriving DecidableEq

/-- A row of `knowledge.ingest_jobs`. -/
structure IngestJob where
  id : Uuid
  tenantId : Uuid
  workspaceId : Uuid
  createdBy : Uuid
  title : String
  domain : String
  classification : String
  sourceVersion : String
  scope : String
  filename : String
  contentType : String
  storageKey : String
  status : JobStatus
  attempts : Nat
  error : Option String := none
  documentId : Option Uuid := none
  chunkCount : Option Nat := none
  createdAt : DateTime
  updatedAt : DateTime
  titled : title ≠ ""
  deriving DecidableEq

structure EnqueueIngestCommand where
  title : String
  filename : String
  contentType : String := "application/octet-stream"
  domain : String := "shared"
  classification : String := "internal"
  sourceVersion : String := "1"
  scope : String := "tenant"
  titled : title ≠ ""
  named : filename ≠ ""

/-- The row `enqueue` inserts. -/
def EnqueueIngestCommand.toJob (command : EnqueueIngestCommand) (context : KnowledgeContext)
    (storageKey : String) (jobId : Uuid) (now : DateTime) : IngestJob :=
  { id := jobId
    tenantId := context.tenantId, workspaceId := context.workspaceId
    createdBy := context.principalId
    title := command.title, domain := command.domain, classification := command.classification
    sourceVersion := command.sourceVersion, scope := command.scope
    filename := command.filename, contentType := command.contentType, storageKey := storageKey
    status := .queued, attempts := 0, createdAt := now, updatedAt := now
    titled := command.titled }

def IngestJob.claimed (read : IngestJob) (now : DateTime) (r : IngestJob) : IngestJob :=
  { r with
    status := .processing, attempts := read.attempts + 1, updatedAt := now }

/-- The update of `mark_done`. -/
def IngestJob.markedDone (document : Uuid) (chunks : Nat) (now : DateTime) (r : IngestJob) :
    IngestJob :=
  { r with
    status := .done, documentId := some document, chunkCount := some chunks
    error := none, updatedAt := now }

/-- The update of `mark_failed`, the text of the error cut off. -/
def IngestJob.markedFailed (error : String) (now : DateTime) (r : IngestJob) : IngestJob :=
  { r with
    status := .failed, error := some (String.ofList (error.toList.take 2000)), updatedAt := now }

def IngestJob.finished (r : IngestJob) : Bool := r.status == .done || r.status == .failed

/-! ## What a worker does with a job -/

/-- What the work on a job meets outside: the staged bytes parsed to text, and
    the answers of the three stores. -/
structure Pipeline where
  /-- `object_storage.get_object` followed by `parser.parse`. -/
  parsed : Except Error String
  ingest : IngestInput := {}

def contextFor (job : IngestJob) : KnowledgeContext :=
  { tenantId := job.tenantId, workspaceId := job.workspaceId, principalId := job.createdBy }

theorem filled_of_not_blank {text : String} (h : ¬ blank text = true) : text ≠ "" := by
  rintro rfl
  exact h (by decide)

/-- `_process` up to the mark: the stores afterwards, and the document or the
    exception. -/
def process (gateway : Gateway) (job : IngestJob) (p : Pipeline) (lib : Library) :
    Library × Except Error IngestedDocument :=
  match p.parsed with
  | .error e => (lib, .error e)
  | .ok text =>
    if h : blank text = true then
      (lib, .error { kind := .value, message := "parser produced empty text" })
    else
      ingestDocument gateway
        { title := job.title, content := text, domain := job.domain
          classification := job.classification, sourceVersion := job.sourceVersion
          scope := job.scope, titled := job.titled, filled := filled_of_not_blank h }
        (contextFor job) p.ingest lib

/-! ## The workers -/

inductive Phase where
  | idle
  /-- Inside the claim transaction, holding the row lock. -/
  | claiming (job : IngestJob)
  | working (job : IngestJob)
  | recording (job : IngestJob) (document : IngestedDocument)
  /-- In the `except` branch, about to mark the job failed. -/
  | failing (job : IngestJob) (error : Error)
  /-- The process is gone, and with it whatever it was doing. -/
  | dead (job : Option IngestJob)
  deriving DecidableEq

def Phase.job : Phase → Option IngestJob
  | .claiming job => some job
  | .working job => some job
  | .recording job _ => some job
  | .failing job _ => some job
  | .idle => none
  | .dead _ => none

def Phase.held (p : Phase) : Option Uuid := p.job.map (·.id)

structure Queue where
  jobs : List IngestJob := []
  /-- The row locks of open claim transactions. -/
  locked : List Uuid := []
  workers : Sessions Phase := fun _ => none
  library : Library := {}

inductive Action where
  | enqueue (command : EnqueueIngestCommand) (context : KnowledgeContext) (storageKey : String)
      (jobId : Uuid) (now : DateTime)
  | start (w : Nat)
  /-- The locking read of `claim_next` and the row it returns. -/
  | select (w : Nat) (id : Uuid)
  /-- The update of `claim_next` and the end of its transaction. -/
  | claim (w : Nat) (ending : Ending) (now : DateTime)
  | process (w : Nat) (p : Pipeline)
  | markDone (w : Nat) (ending : Ending) (error : Error) (now : DateTime)
  | markFailed (w : Nat) (ending : Ending) (now : DateTime)
  /-- The process dies, or is shut down: a cancellation is no `Exception`. -/
  | crash (w : Nat)

/-- What the worker is composed of, and `f"{type(exc).__name__}: {exc}"`. -/
structure IngestComponents where
  gateway : Gateway
  describe : Error → String

namespace Queue

/-- The rows `SKIP LOCKED` does not skip. -/
def free (s : Queue) : List IngestJob :=
  s.jobs.filter (fun r => r.status == .queued && !s.locked.contains r.id)

def isNext (s : Queue) (r : IngestJob) : Bool :=
  s.free.contains r && s.free.all (fun q => r.createdAt ≤ q.createdAt)

/-- The worker moves on, and its transaction left the row of `id` changed. -/
def act (s : Queue) (w : Nat) (id : Uuid) (change : IngestJob → IngestJob) (p : Phase) : Queue :=
  { s with
    jobs := Rows.update (·.id) id change s.jobs
    workers := s.workers.put w p }

def unlock (s : Queue) (id : Uuid) : Queue := { s with locked := s.locked.erase id }

end Queue

def step (c : IngestComponents) (s : Queue) : Action → Option Queue
  | .enqueue command context storageKey jobId now =>
    if jobId ∈ s.jobs.map (·.id) then none
    else some { s with jobs := s.jobs ++ [command.toJob context storageKey jobId now] }
  | .start w =>
    match s.workers w with
    | none => some { s with workers := s.workers.put w .idle }
    | some _ => none
  | .select w id =>
    match s.workers w, Rows.lookup (·.id) s.jobs id with
    | some .idle, some r =>
      if s.isNext r then
        some { s with locked := r.id :: s.locked, workers := s.workers.put w (.claiming r) }
      else none
    | _, _ => none
  | .claim w ending now =>
    match s.workers w with
    | some (.claiming job) =>
      -- an exception leaves `consume` here, and the worker comes back later
      let p := if ending = .committed then .working job else .idle
      some ((s.act w job.id (ending.change (job.claimed now)) p).unlock job.id)
    | _ => none
  | .process w p =>
    match s.workers w with
    | some (.working job) =>
      match process c.gateway job p s.library with
      | (lib, .ok document) => some { s with
          library := lib, workers := s.workers.put w (.recording job document) }
      | (lib, .error e) => some { s with
          library := lib, workers := s.workers.put w (.failing job e) }
    | _ => none
  | .markDone w ending error now =>
    match s.workers w with
    | some (.recording job document) =>
      let p := if ending = .committed then .idle else .failing job error
      some (s.act w job.id
        (ending.change (IngestJob.markedDone document.documentId document.chunkCount now)) p)
    | _ => none
  | .markFailed w ending now =>
    match s.workers w with
    | some (.failing job error) =>
      some (s.act w job.id (ending.change (IngestJob.markedFailed (c.describe error) now)) .idle)
    | _ => none
  | .crash w =>
    match s.workers w with
    | none | some (.dead _) => none
    | some (.claiming job) =>
      some (({ s with workers := s.workers.put w (.dead (some job)) } : Queue).unlock job.id)
    | some p => some { s with workers := s.workers.put w (.dead p.job) }

def ingestQueue (c : IngestComponents) : Machine Queue Action where
  init s := s.jobs = [] ∧ s.locked = [] ∧ ∀ w, s.workers w = none
  step := step c

/-- From `s` the system can come to a state in which a worker works on the job. -/
def CanBeClaimed (c : IngestComponents) (s : Queue) (id : Uuid) : Prop :=
  ∃ s', (ingestQueue c).Leads s s' ∧ ∃ w job, s'.workers w = some (.working job) ∧ job.id = id

structure NoneLost (c : IngestComponents) (s : Queue) : Prop where
  one : s.workers.Exclusive Phase.held
  accounted : ∀ r ∈ s.jobs,
    r.status = .queued ∨ r.finished = true ∨ ∃ w, s.workers.Holds Phase.held w r.id
  reclaimed : ∀ w job, s.workers w = some (.dead (some job)) → ∀ r ∈ s.jobs, r.id = job.id →
    r.finished = true ∨ (∃ d, s.workers.Holds Phase.held d r.id) ∨ CanBeClaimed c s r.id

/-- The job is on file as `processing`. -/
def Queue.InProgress (s : Queue) (id : Uuid) : Prop :=
  ∃ r ∈ s.jobs, r.id = id ∧ r.status = .processing

/-- The steps by which a worker lets go of a job that is on file as
    `processing`: it dies with it, its claim is committed without its knowing, or
    the attempt to record the failure fails. -/
def Drops (s : Queue) : Action → Prop
  | .claim _ ending _ => ending = .unacknowledged
  | .markFailed w ending _ =>
    ending = .rolledBack ∧ ∃ job e, s.workers w = some (.failing job e) ∧ s.InProgress job.id
  | .crash w => ∃ id, s.workers.Holds Phase.held w id ∧ s.InProgress id
  | _ => False

/-! ## The invariant of every run -/

def Phase.Expects : Phase → IngestJob → Prop
  | .claiming _, r => r.status = .queued
  | .working _, r | .recording _ _, r => r.status = .processing
  | .failing _ _, r => r.status = .processing ∨ r.status = .done
  | .idle, _ | .dead _, _ => True

structure Wf (s : Queue) : Prop where
  distinct : (s.jobs.map (·.id)).Nodup
  exclusive : s.workers.Exclusive Phase.held
  onFile : ∀ w p id, s.workers w = some p → p.held = some id →
    ∃ r ∈ s.jobs, r.id = id ∧ p.Expects r
  locks : ∀ w job, s.workers w = some (.claiming job) → job.id ∈ s.locked
  locked : ∀ id ∈ s.locked, ∃ w job, s.workers w = some (.claiming job) ∧ job.id = id
  lockedOnce : s.locked.Nodup
  fresh : s.workers.Bounded

/-! ## What one step can do -/

def Phase.claims : Phase → Bool
  | .claiming _ => true
  | _ => false

/-- One step, by what it does to the table and to whom. -/
inductive Move (s : Queue) (a : Action) : Queue → Prop where
  /-- A job is filed under a new identifier. -/
  | filed (job : IngestJob) (new : job.id ∉ s.jobs.map (·.id)) (queued : job.status = .queued)
      (keeps : ¬ Drops s a) : Move s a { s with jobs := s.jobs ++ [job] }
  /-- A worker without a job starts, or ends. -/
  | idled (w : Nat) (p : Phase) (before : ∀ q, s.workers w = some q → q.held = none)
      (after : p.held = none) (keeps : ¬ Drops s a) :
      Move s a { s with workers := s.workers.put w p }
  /-- An idle worker locks a free row. -/
  | selected (w : Nat) (r : IngestJob) (idle : s.workers w = some .idle) (mem : r ∈ s.jobs)
      (queued : r.status = .queued) (unlocked : r.id ∉ s.locked) (keeps : ¬ Drops s a) :
      Move s a { s with
        locked := r.id :: s.locked, workers := s.workers.put w (.claiming r) }
  /-- A worker acts on the job it holds. -/
  | acted (w : Nat) (p q : Phase) (id : Uuid) (g : IngestJob → IngestJob) (lib : Library)
      (before : s.workers w = some p) (holds : p.held = some id)
      (after : q.held = none ∨ q.held = some id) (past : q.claims = false)
      (keeps_id : ∀ r, (g r).id = r.id) (expects : ∀ r, p.Expects r → q.Expects (g r))
      (drops : Drops s a ↔
        q.held = none ∧ ∃ r ∈ s.jobs, r.id = id ∧ (g r).status = .processing) :
      Move s a { s with
        jobs := Rows.update (·.id) id g s.jobs, workers := s.workers.put w q
        locked := if p.claims then s.locked.erase id else s.locked
        library := lib }

section

variable {c : IngestComponents} {s s' : Queue} {a : Action} {w : Nat} {p q : Phase} {id : Uuid}

theorem act_move {g : IngestJob → IngestJob} (hp : s.workers w = some p)
    (hid : p.held = some id) (hclaims : p.claims = false)
    (hq : q.held = none ∨ q.held = some id) (hpast : q.claims = false)
    (hg : ∀ r, (g r).id = r.id) (hexpects : ∀ r, p.Expects r → q.Expects (g r))
    (hdrops : Drops s a ↔ q.held = none ∧ ∃ r ∈ s.jobs, r.id = id ∧ (g r).status = .processing) :
    Move s a (s.act w id g q) := by
  have h := Move.acted w p q id g s.library hp hid hq hpast hg hexpects hdrops
  rw [hclaims] at h
  exact h

theorem onward_move {lib : Library} (hp : s.workers w = some p) (hid : p.held = some id)
    (hq : q.held = none ∨ q.held = some id) (hpast : q.claims = false)
    (hexpects : ∀ r, p.Expects r → q.Expects r)
    (hdrops : Drops s a ↔ q.held = none ∧ s.InProgress id) :
    Move s a { s with
      workers := s.workers.put w q
      locked := if p.claims then s.locked.erase id else s.locked
      library := lib } := by
  have h := Move.acted w p q id (fun r => r) lib hp hid hq hpast (fun _ => rfl) hexpects hdrops
  rw [Rows.update_id] at h
  exact h

theorem claiming_queued {job : IngestJob} (hwf : Wf s) (hw : s.workers w = some (.claiming job))
    {r : IngestJob} (hr : r ∈ s.jobs) (hid : r.id = job.id) : r.status = .queued := by
  obtain ⟨r', hr', hid', hexp⟩ := hwf.onFile w _ job.id hw rfl
  have hsame : r = r' := Rows.eq_of_key hwf.distinct hr hr' (hid.trans hid'.symm)
  rw [hsame]
  exact hexp

theorem claim_drops {job : IngestJob} {ending : Ending} {now : DateTime} (hwf : Wf s)
    (hw : s.workers w = some (.claiming job)) :
    Drops s (.claim w ending now) ↔
      (if ending = .committed then Phase.working job else Phase.idle).held = none ∧
        ∃ r ∈ s.jobs, r.id = job.id ∧ (ending.change (job.claimed now) r).status = .processing := by
  cases ending with
  | committed =>
    constructor
    · intro h
      cases h
    · rintro ⟨h, _⟩
      cases h
  | rolledBack =>
    constructor
    · intro h
      cases h
    · rintro ⟨_, r, hr, hid, hst⟩
      -- the row is as it was, and queued
      have hq : r.status = .queued := claiming_queued hwf hw hr hid
      have hp : r.status = .processing := hst
      rw [hq] at hp
      cases hp
  | unacknowledged =>
    obtain ⟨r, hr, hid, _⟩ := hwf.onFile w _ job.id hw rfl
    exact ⟨fun _ => ⟨rfl, r, hr, hid, rfl⟩, fun _ => rfl⟩

theorem crash_drops (hp : s.workers w = some p) (hid : p.held = some id) :
    Drops s (.crash w) ↔ (Phase.dead p.job).held = none ∧ s.InProgress id := by
  constructor
  · rintro ⟨id', ⟨p', hp', hid'⟩, hin⟩
    rw [hp] at hp'
    obtain rfl := Option.some.inj hp'
    rw [hid] at hid'
    obtain rfl := Option.some.inj hid'
    exact ⟨rfl, hin⟩
  · rintro ⟨_, hin⟩
    exact ⟨id, ⟨p, hp, hid⟩, hin⟩

theorem crash_keeps (hp : s.workers w = some p) (hnone : p.held = none) :
    ¬ Drops s (.crash w) := by
  rintro ⟨id, ⟨p', hp', hid⟩, _⟩
  rw [hp] at hp'
  obtain rfl := Option.some.inj hp'
  rw [hnone] at hid
  cases hid

theorem step_move (hwf : Wf s) (hs : step c s a = some s') : Move s a s' := by
  cases a with
  | enqueue command context storageKey jobId now =>
    simp only [step] at hs
    split at hs
    · cases hs
    · next hnew =>
      cases hs
      exact .filed _ hnew rfl (fun h => h)
  | start w =>
    simp only [step] at hs
    split at hs
    · next hw =>
      cases hs
      refine .idled w .idle (fun q hq => ?_) rfl (fun h => h)
      rw [hw] at hq
      cases hq
    · cases hs
  | select w id =>
    simp only [step] at hs
    split at hs
    · next r hw hr =>
      split at hs
      · next hnext =>
        cases hs
        have hfree : r ∈ s.free := by
          unfold Queue.isNext at hnext
          rw [Bool.and_eq_true] at hnext
          exact List.contains_iff_mem.mp hnext.1
        simp only [Queue.free, List.mem_filter, Bool.and_eq_true, beq_iff_eq,
          Bool.not_eq_true', List.contains_eq_mem, decide_eq_false_iff_not] at hfree
        exact .selected w r hw hfree.1 hfree.2.1 hfree.2.2 (fun h => h)
      · cases hs
    · cases hs
  | claim w ending now =>
    simp only [step] at hs
    split at hs
    · next job hw =>
      cases hs
      refine .acted w (.claiming job) (if ending = .committed then .working job else .idle)
        job.id (ending.change (job.claimed now)) s.library hw rfl ?_ ?_ (Ending.change_key fun _ => rfl)
        (fun r hr => ?_) (claim_drops hwf hw) <;> cases ending
      · exact .inr rfl
      · exact .inl rfl
      · exact .inl rfl
      · rfl
      · rfl
      · rfl
      · rfl
      · trivial
      · trivial
    · cases hs
  | process w pipe =>
    simp only [step] at hs
    split at hs
    · next job hw =>
      have hnot : ¬ ((some job.id : Option Uuid) = none) := fun h => by cases h
      split at hs
      · cases hs
        exact onward_move hw rfl (.inr rfl) rfl (fun _ h => h)
          ⟨fun h => h.elim, fun h => hnot h.1⟩
      · cases hs
        exact onward_move hw rfl (.inr rfl) rfl (fun _ h => .inl h)
          ⟨fun h => h.elim, fun h => hnot h.1⟩
    · cases hs
  | markDone w ending error now =>
    simp only [step] at hs
    split at hs
    · next job document hw =>
      cases hs
      have hnot : ¬ (JobStatus.done = .processing) := by decide
      cases ending with
      | committed =>
        refine act_move hw rfl rfl (.inl rfl) rfl (Ending.change_key fun _ => rfl) (fun _ _ => trivial) ?_
        exact ⟨fun h => h.elim, fun ⟨_, _, _, _, h⟩ => hnot h⟩
      | rolledBack =>
        refine act_move hw rfl rfl (.inr rfl) rfl (Ending.change_key fun _ => rfl) (fun _ h => .inl h) ?_
        exact ⟨fun h => h.elim, fun ⟨h, _⟩ => by cases h⟩
      | unacknowledged =>
        refine act_move hw rfl rfl (.inr rfl) rfl (Ending.change_key fun _ => rfl) (fun _ _ => .inr rfl) ?_
        exact ⟨fun h => h.elim, fun ⟨h, _⟩ => by cases h⟩
    · cases hs
  | markFailed w ending now =>
    simp only [step] at hs
    split at hs
    · next job error hw =>
      cases hs
      refine act_move hw rfl rfl (.inl rfl) rfl (Ending.change_key fun _ => rfl) (fun _ _ => trivial) ?_
      constructor
      · rintro ⟨rfl, job', e, hw', hin⟩
        rw [hw] at hw'
        cases hw'
        exact ⟨rfl, hin⟩
      · rintro ⟨_, r, hr, hid, hst⟩
        have hrolled : ending = .rolledBack := by
          by_contra hne
          rw [Ending.change, if_neg hne] at hst
          cases hst
        subst hrolled
        exact ⟨rfl, job, error, hw, r, hr, hid, hst⟩
    · cases hs
  | crash w =>
    simp only [step] at hs
    split at hs
    · cases hs
    · cases hs
    · next job hw =>
      cases hs
      exact onward_move hw rfl (.inl rfl) rfl (fun _ _ => trivial) (crash_drops hw rfl)
    · next p hdead hclaiming hw =>
      cases hs
      have hclaims : p.claims = false := by
        cases p with
        | claiming job => exact absurd rfl (hclaiming job)
        | _ => rfl
      cases hheld : p.held with
      | none =>
        refine .idled w (.dead p.job) (fun q hq => ?_) rfl (crash_keeps hw hheld)
        rw [hw] at hq
        obtain rfl := Option.some.inj hq
        exact hheld
      | some id =>
        have h : Move s (.crash w) { s with
            workers := s.workers.put w (.dead p.job)
            locked := if p.claims then s.locked.erase id else s.locked } :=
          onward_move hw hheld (.inl rfl) rfl (fun _ _ => trivial) (crash_drops hw hheld)
        rw [hclaims] at h
        exact h

/-! ## The invariant is kept -/

/-- A held job that is not `w`'s is another job than `w`'s. -/
theorem other_id (hex : s.workers.Exclusive Phase.held) (hp : s.workers w = some p)
    (hid : p.held = some id) {d : Nat} {x : Phase} {k : Uuid} (hd : d ≠ w)
    (hx : s.workers d = some x) (hk : x.held = some k) : k ≠ id := by
  rintro rfl
  exact hd (hex d w k ⟨x, hx, hk⟩ ⟨p, hp, hid⟩)

theorem filed_wf {job : IngestJob} (h : Wf s) (hnew : job.id ∉ s.jobs.map (·.id)) :
    Wf { s with jobs := s.jobs ++ [job] } where
  distinct := by
    rw [List.map_append, List.nodup_append]
    refine ⟨h.distinct, List.nodup_singleton _, ?_⟩
    rintro x hx y hy rfl
    rw [List.map_singleton, List.mem_singleton] at hy
    subst hy
    exact hnew hx
  exclusive := h.exclusive
  onFile w p id hw hid := by
    obtain ⟨r, hr, hrid, hexp⟩ := h.onFile w p id hw hid
    exact ⟨r, List.mem_append_left _ hr, hrid, hexp⟩
  locks := h.locks
  locked := h.locked
  lockedOnce := h.lockedOnce
  fresh := h.fresh

theorem idled_wf (h : Wf s) (hbefore : ∀ q, s.workers w = some q → q.held = none)
    (hafter : p.held = none) : Wf { s with workers := s.workers.put w p } where
  distinct := h.distinct
  exclusive := by
    refine Sessions.Exclusive.release h.exclusive (fun k hk => ?_)
    rw [hafter] at hk
    cases hk
  onFile d x id hd hid := by
    rcases Sessions.put_some hd with ⟨_, rfl⟩ | ⟨_, hd⟩
    · rw [hafter] at hid
      cases hid
    · exact h.onFile d x id hd hid
  locks d job hd := by
    rcases Sessions.put_some hd with ⟨_, rfl⟩ | ⟨_, hd⟩
    · cases hafter
    · exact h.locks d job hd
  locked id hid := by
    obtain ⟨d, job, hd, hjob⟩ := h.locked id hid
    have hne : d ≠ w := by
      rintro rfl
      have hnone := hbefore _ hd
      cases hnone
    refine ⟨d, job, ?_, hjob⟩
    show s.workers.put w p d = _
    rw [Sessions.put_ne hne]
    exact hd
  lockedOnce := h.lockedOnce
  fresh := h.fresh.put w p

theorem selected_wf {r : IngestJob} (h : Wf s) (hidle : s.workers w = some .idle)
    (hr : r ∈ s.jobs) (hq : r.status = .queued) (hunlocked : r.id ∉ s.locked) :
    Wf { s with locked := r.id :: s.locked, workers := s.workers.put w (.claiming r) } where
  distinct := h.distinct
  exclusive := by
    refine Sessions.Exclusive.acquire (k := r.id) h.exclusive rfl ?_
    -- whoever held it would be in its claim transaction, and the row locked
    rintro d ⟨x, hx, hxid⟩
    obtain ⟨r', hr', hrid, hexp⟩ := h.onFile d x r.id hx hxid
    obtain rfl := Rows.eq_of_key h.distinct hr' hr hrid
    cases x with
    | claiming job =>
      have hlock := h.locks d job hx
      have hsame : job.id = r'.id := Option.some.inj hxid
      rw [hsame] at hlock
      exact hunlocked hlock
    | working job =>
      rw [show r'.status = .processing from hexp] at hq
      cases hq
    | recording job document =>
      rw [show r'.status = .processing from hexp] at hq
      cases hq
    | failing job error =>
      have hexp : r'.status = .processing ∨ r'.status = .done := hexp
      rw [hq] at hexp
      rcases hexp with hexp | hexp <;> cases hexp
    | idle => cases hxid
    | dead job => cases hxid
  onFile d x id hd hid := by
    rcases Sessions.put_some hd with ⟨_, rfl⟩ | ⟨_, hd⟩
    · cases hid
      exact ⟨r, hr, rfl, hq⟩
    · exact h.onFile d x id hd hid
  locks d job hd := by
    rcases Sessions.put_some hd with ⟨_, hjob⟩ | ⟨_, hd⟩
    · cases hjob
      exact List.mem_cons_self
    · exact List.mem_cons_of_mem _ (h.locks d job hd)
  locked id hid := by
    rcases List.mem_cons.mp hid with rfl | hid
    · exact ⟨w, r, Sessions.put_self _ _ _, rfl⟩
    · obtain ⟨d, job, hd, hjob⟩ := h.locked id hid
      have hne : d ≠ w := by
        rintro rfl
        rw [hidle] at hd
        cases hd
      refine ⟨d, job, ?_, hjob⟩
      show s.workers.put w _ d = _
      rw [Sessions.put_ne hne]
      exact hd
  lockedOnce := List.nodup_cons.mpr ⟨hunlocked, h.lockedOnce⟩
  fresh := h.fresh.put w _

theorem acted_wf {g : IngestJob → IngestJob} {lib : Library} (h : Wf s)
    (hp : s.workers w = some p) (hid : p.held = some id)
    (hq : q.held = none ∨ q.held = some id) (hpast : q.claims = false)
    (hg : ∀ r, (g r).id = r.id) (hexpects : ∀ r, p.Expects r → q.Expects (g r)) :
    Wf { s with
      jobs := Rows.update (·.id) id g s.jobs, workers := s.workers.put w q
      locked := if p.claims then s.locked.erase id else s.locked
      library := lib } where
  distinct := by
    show (List.map _ (Rows.update _ _ _ _)).Nodup
    rw [Rows.update_keys hg]
    exact h.distinct
  exclusive := by
    refine Sessions.Exclusive.release h.exclusive (fun k hk => ?_)
    rcases hq with hq | hq <;> rw [hq] at hk
    · cases hk
    · exact ⟨p, hp, hid.trans hk⟩
  onFile d x k hd hk := by
    rcases Sessions.put_some hd with ⟨_, rfl⟩ | ⟨hne, hd⟩
    · have hkid : k = id := by
        rcases hq with hq | hq <;> rw [hq] at hk
        · cases hk
        · exact (Option.some.inj hk).symm
      subst hkid
      obtain ⟨r, hr, hrid, hexp⟩ := h.onFile w p k hp hid
      subst hrid
      exact ⟨g r, Rows.mem_update_self hr, hg r, hexpects r hexp⟩
    · obtain ⟨r, hr, hrid, hexp⟩ := h.onFile d x k hd hk
      have hother : r.id ≠ id := hrid ▸ other_id h.exclusive hp hid hne hd hk
      exact ⟨r, Rows.mem_update_ne hr hother, hrid, hexp⟩
  locks d job hd := by
    rcases Sessions.put_some hd with ⟨_, rfl⟩ | ⟨hne, hd⟩
    · cases hpast
    · have hlock := h.locks d job hd
      have hother : job.id ≠ id := other_id h.exclusive hp hid hne hd rfl
      show job.id ∈ (if p.claims then s.locked.erase id else s.locked)
      by_cases hclaims : p.claims = true
      · rw [if_pos hclaims]
        exact (List.mem_erase_of_ne hother).mpr hlock
      · rw [if_neg hclaims]
        exact hlock
  locked k hk := by
    have hkeep : k ∈ s.locked ∧ (p.claims = true → k ≠ id) := by
      by_cases hclaims : p.claims = true
      · rw [if_pos hclaims] at hk
        exact ⟨List.mem_of_mem_erase hk, fun _ => (h.lockedOnce.mem_erase_iff.mp hk).1⟩
      · rw [if_neg hclaims] at hk
        exact ⟨hk, fun hc => absurd hc hclaims⟩
    obtain ⟨d, job, hd, hjob⟩ := h.locked k hkeep.1
    have hne : d ≠ w := by
      rintro rfl
      rw [hp] at hd
      obtain rfl := Option.some.inj hd
      have hsame : job.id = id := Option.some.inj hid
      exact hkeep.2 rfl (hjob.symm.trans hsame)
    refine ⟨d, job, ?_, hjob⟩
    show s.workers.put w q d = _
    rw [Sessions.put_ne hne]
    exact hd
  lockedOnce := by
    show (if p.claims then s.locked.erase id else s.locked).Nodup
    by_cases hclaims : p.claims = true
    · rw [if_pos hclaims]
      exact h.lockedOnce.erase _
    · rw [if_neg hclaims]
      exact h.lockedOnce
  fresh := h.fresh.put w q

theorem step_wf (h : Wf s) (hs : step c s a = some s') : Wf s' := by
  cases step_move h hs with
  | filed job new queued keeps => exact filed_wf h new
  | idled w p before after keeps => exact idled_wf h before after
  | selected w r idle mem queued unlocked keeps => exact selected_wf h idle mem queued unlocked
  | acted w p q id g lib before holds after past keeps_id expects drops =>
    exact acted_wf h before holds after past keeps_id expects

theorem init_wf (h : (ingestQueue c).init s) : Wf s := by
  obtain ⟨hjobs, hlocked, hworkers⟩ := h
  have hnone : ∀ w p, s.workers w ≠ some p := by
    intro w p hw
    rw [hworkers w] at hw
    cases hw
  refine ⟨?_, Sessions.exclusive_empty hworkers, fun w p id hw => absurd hw (hnone w p),
    fun w job hw => absurd hw (hnone w _), ?_, ?_, Sessions.bounded_empty hworkers⟩
  · rw [hjobs]
    exact List.nodup_nil
  · intro id hid
    rw [hlocked] at hid
    cases hid
  · rw [hlocked]
    exact List.nodup_nil

/-! ## What is on file as `processing` -/

def Kept (s : Queue) : Prop := ∀ id, s.InProgress id → ∃ w, s.workers.Holds Phase.held w id

theorem holds_idled {k : Uuid} (hbefore : ∀ x, s.workers w = some x → x.held = none)
    {d : Nat} (hd : s.workers.Holds Phase.held d k) : (s.workers.put w p).Holds Phase.held d k := by
  obtain ⟨x, hx, hk⟩ := hd
  have hne : d ≠ w := by
    rintro rfl
    rw [hbefore x hx] at hk
    cases hk
  exact Sessions.holds_put.mpr (.inr ⟨hne, x, hx, hk⟩)

theorem acted_kept {g : IngestJob → IngestJob} {lib : Library} {locks : List Uuid} (hwf : Wf s)
    (h : Kept s) (hp : s.workers w = some p) (hid : p.held = some id)
    (hq : q.held = none ∨ q.held = some id) (hg : ∀ r, (g r).id = r.id) :
    Kept { s with
      jobs := Rows.update (·.id) id g s.jobs, workers := s.workers.put w q
      locked := locks, library := lib } ↔
      ¬ (q.held = none ∧ ∃ r ∈ s.jobs, r.id = id ∧ (g r).status = .processing) := by
  constructor
  · rintro hkept ⟨hnone, r, hr, rfl, hst⟩
    -- the row is in progress, and nobody but `w` could hold it
    obtain ⟨d, hd⟩ := hkept r.id ⟨g r, Rows.mem_update_self hr, hg r, hst⟩
    rcases Sessions.holds_put.mp hd with ⟨_, hk⟩ | ⟨hne, hd⟩
    · rw [hnone] at hk
      cases hk
    · exact hne (hwf.exclusive d w r.id hd ⟨p, hp, hid⟩)
  · rintro hnot k ⟨r', hr', rfl, hst⟩
    rcases Rows.mem_update.mp hr' with ⟨hold, hne⟩ | ⟨r, hr, hrid, rfl⟩
    · obtain ⟨d, hd⟩ := h r'.id ⟨r', hold, rfl, hst⟩
      refine ⟨d, Sessions.holds_put.mpr (.inr ⟨?_, hd⟩)⟩
      rintro rfl
      obtain ⟨x, hx, hk⟩ := hd
      rw [hp] at hx
      obtain rfl := Option.some.inj hx
      rw [hid] at hk
      exact hne (Option.some.inj hk).symm
    · rcases hq with hq | hq
      · exact absurd ⟨hq, r, hr, hrid, hst⟩ hnot
      · rw [hg r, hrid]
        exact ⟨w, Sessions.holds_put.mpr (.inl ⟨rfl, hq⟩)⟩

/-- **Step lemma**: a step keeps every job in progress in somebody's hands if and
    only if it does not drop one. -/
theorem step_kept_iff (hwf : Wf s) (h : Kept s) (hs : step c s a = some s') :
    Kept s' ↔ ¬ Drops s a := by
  cases step_move hwf hs with
  | filed job new queued keeps =>
    refine ⟨fun _ => keeps, fun _ => ?_⟩
    rintro id ⟨r, hr, hid, hst⟩
    rcases List.mem_append.mp hr with hr | hr
    · exact h id ⟨r, hr, hid, hst⟩
    · rw [List.mem_singleton.mp hr, queued] at hst
      cases hst
  | idled w p before after keeps =>
    refine ⟨fun _ => keeps, fun _ id hin => ?_⟩
    obtain ⟨d, hd⟩ := h id hin
    exact ⟨d, holds_idled before hd⟩
  | selected w r idle mem queued unlocked keeps =>
    refine ⟨fun _ => keeps, fun _ id hin => ?_⟩
    obtain ⟨d, hd⟩ := h id hin
    refine ⟨d, holds_idled (fun x hx => ?_) hd⟩
    rw [idle] at hx
    obtain rfl := Option.some.inj hx
    rfl
  | acted w p q id g lib before holds after past keeps_id expects drops =>
    rw [drops]
    exact acted_kept hwf h before holds after keeps_id

/-! ## Claiming a queued job -/

theorem leads_step {s₁ : Queue} (hs : step c s a = some s₁)
    (h : (ingestQueue c).Leads s₁ s') : (ingestQueue c).Leads s s' :=
  Machine.Leads.step (M := ingestQueue c) hs h

theorem leads_wf (h : (ingestQueue c).Leads s s') (hwf : Wf s) : Wf s' :=
  Machine.Leads.invariant (P := Wf) (fun _ _ _ hwf hs => step_wf hwf hs) h hwf

theorem claim_step {job : IngestJob} (hw : s.workers w = some (.claiming job)) (now : DateTime) :
    step c s (.claim w .committed now) =
      some ((s.act w job.id (job.claimed now) (.working job)).unlock job.id) := by
  simp only [step, hw]
  rfl

theorem exists_next {r : IngestJob} (hr : r ∈ s.free) : ∃ m ∈ s.free, s.isNext m = true := by
  obtain ⟨m, hm, hmin⟩ :=
    Finset.exists_min_image s.free.toFinset (·.createdAt) ⟨r, List.mem_toFinset.mpr hr⟩
  have hmem : m ∈ s.free := List.mem_toFinset.mp hm
  refine ⟨m, hmem, ?_⟩
  unfold Queue.isNext
  rw [Bool.and_eq_true, List.all_eq_true]
  refine ⟨List.contains_iff_mem.mpr hmem, fun q hq => ?_⟩
  exact decide_eq_true (hmin q (List.mem_toFinset.mpr hq))

theorem claim_next (hwf : Wf s) {m : IngestJob} (hm : m ∈ s.free) (hnext : s.isNext m = true) :
    ∃ n, (ingestQueue c).Leads s (s.act n m.id (m.claimed 0) (.working m)) := by
  obtain ⟨n, hn⟩ := hwf.fresh
  have hlookup : Rows.lookup (·.id) s.jobs m.id = some m :=
    Rows.lookup_of_mem hwf.distinct (List.mem_of_mem_filter hm)
  let s₁ : Queue := { s with workers := s.workers.put n .idle }
  let s₂ : Queue := { s₁ with locked := m.id :: s.locked, workers := s₁.workers.put n (.claiming m) }
  have h₁ : step c s (.start n) = some s₁ := by
    simp only [step, hn n (le_refl n)]
    rfl
  have h₂ : step c s₁ (.select n m.id) = some s₂ := by
    have hidle : s₁.workers n = some .idle := Sessions.put_self _ _ _
    have hnext₁ : s₁.isNext m = true := hnext
    have hlookup₁ : Rows.lookup (·.id) s₁.jobs m.id = some m := hlookup
    simp only [step, hidle, hlookup₁, if_pos hnext₁]
    rfl
  have h₃ : step c s₂ (.claim n .committed 0) =
      some ((s₂.act n m.id (m.claimed 0) (.working m)).unlock m.id) :=
    claim_step (Sessions.put_self _ _ _) 0
  have hend : (s₂.act n m.id (m.claimed 0) (.working m)).unlock m.id =
      s.act n m.id (m.claimed 0) (.working m) := by
    simp [s₂, s₁, Queue.act, Queue.unlock, Sessions.put]
  rw [hend] at h₃
  exact ⟨n, leads_step h₁ (leads_step h₂ (leads_step h₃ .refl))⟩

theorem queued_claimable {r : IngestJob} (hwf : Wf s) (hr : r ∈ s.jobs)
    (hq : r.status = .queued) : CanBeClaimed c s r.id := by
  -- the free rows in front of it get fewer with every claim
  induction hn : s.free.length using Nat.strong_induction_on generalizing s with
  | _ n ih =>
    by_cases hlock : r.id ∈ s.locked
    · obtain ⟨w, job, hw, hid⟩ := hwf.locked r.id hlock
      exact ⟨_, leads_step (claim_step hw 0) .refl, w, job, Sessions.put_self _ _ _, hid⟩
    · have hfree : r ∈ s.free := by
        simp [Queue.free, hr, hq, hlock]
      obtain ⟨m, hm, hnext⟩ := exists_next hfree
      obtain ⟨w, hleads⟩ := claim_next (c := c) hwf hm hnext
      by_cases hmr : m.id = r.id
      · exact ⟨_, hleads, w, m, Sessions.put_self _ _ _, hmr⟩
      · have hwf' : Wf (s.act w m.id (m.claimed 0) (.working m)) := leads_wf hleads hwf
        have hmem : r ∈ (s.act w m.id (m.claimed 0) (.working m)).jobs :=
          Rows.mem_update_ne hr (Ne.symm hmr)
        have hless : (s.act w m.id (m.claimed 0) (.working m)).free.length < n := by
          rw [← hn]
          show (List.filter _ (Rows.update _ _ _ _)).length < (List.filter _ _).length
          rw [← List.countP_eq_length_filter, ← List.countP_eq_length_filter]
          exact Rows.countP_update_lt (List.mem_of_mem_filter hm) (List.mem_filter.mp hm).2
            (fun x _ => rfl)
        obtain ⟨s', hleads', hclaimed⟩ := ih _ hless hwf' hmem rfl
        exact ⟨s', hleads.trans hleads', hclaimed⟩

end

/-! ## The claim -/

section

variable {c : IngestComponents} {s : Queue} {es : List (Event Queue Action)}

theorem exec_wf (h : Exec (ingestQueue c) es s) : Wf s :=
  h.invariant (fun _ => init_wf) (fun _ _ _ hwf hs => step_wf hwf hs)

theorem init_kept (h : (ingestQueue c).init s) : Kept s := by
  rintro id ⟨r, hr, _⟩
  rw [h.1] at hr
  cases hr

theorem noneLost_iff (hwf : Wf s) : NoneLost c s ↔ Kept s := by
  constructor
  · rintro h id ⟨r, hr, rfl, hst⟩
    rcases h.accounted r hr with hq | hf | hheld
    · rw [hst] at hq
      cases hq
    · rw [IngestJob.finished, hst] at hf
      cases hf
    · exact hheld
  · intro h
    have hcases : ∀ r ∈ s.jobs,
        r.status = .queued ∨ r.finished = true ∨ ∃ w, s.workers.Holds Phase.held w r.id := by
      intro r hr
      cases hst : r.status with
      | queued => exact .inl rfl
      | processing => exact .inr (.inr (h r.id ⟨r, hr, rfl, hst⟩))
      | done => exact .inr (.inl (by simp [IngestJob.finished, hst]))
      | failed => exact .inr (.inl (by simp [IngestJob.finished, hst]))
    refine ⟨hwf.exclusive, hcases, fun w job _ r hr _ => ?_⟩
    rcases hcases r hr with hq | hf | hheld
    · exact .inr (.inr (queued_claimable hwf hr hq))
    · exact .inl hf
    · exact .inr (.inl hheld)

/-- As long as nobody dropped a job, every job in progress is held. -/
theorem exec_kept (h : Exec (ingestQueue c) es s) (hok : ∀ e ∈ es, ¬ Drops e.pre e.act) :
    Kept s := by
  have hboth : Wf s ∧ Kept s := by
    refine Exec.invariant_of (P := fun s => Wf s ∧ Kept s) ?_ ?_ h hok
    · exact fun s h0 => ⟨init_wf h0, init_kept h0⟩
    · intro s a s' hinv hs hkeep
      exact ⟨step_wf hinv.1 hs, (step_kept_iff hinv.1 hinv.2 hs).mpr hkeep⟩
  exact hboth.2

theorem no_drops (h : Exec (ingestQueue c) es s) (hall : ∀ e ∈ es, NoneLost c e.post) :
    ∀ e ∈ es, ¬ Drops e.pre e.act := by
  induction h with
  | start _ => exact fun e he => absurd he List.not_mem_nil
  | @snoc es s s' a h hs ih =>
    obtain ⟨hlast, hbefore⟩ := List.forall_mem_cons.mp hall
    have hok := ih hbefore
    refine List.forall_mem_cons.mpr ⟨?_, hok⟩
    have hkept : Kept s' := (noneLost_iff (step_wf (exec_wf h) hs)).mp hlast
    exact (step_kept_iff (exec_wf h) (exec_kept h hok) hs).mp hkept

theorem none_lost (h : Exec (ingestQueue c) es s) (hok : ∀ e ∈ es, ¬ Drops e.pre e.act) :
    ∀ e ∈ es, NoneLost c e.post := by
  induction h with
  | start _ => exact fun e he => absurd he List.not_mem_nil
  | @snoc es s s' a h hs ih =>
    have hkept : Kept s' := exec_kept (h.snoc hs) hok
    have hlast : NoneLost c s' := (noneLost_iff (step_wf (exec_wf h) hs)).mpr hkept
    exact List.forall_mem_cons.mpr ⟨hlast, ih (List.forall_mem_cons.mp hok).2⟩

/-- **No job is lost**, in any state of a run, if and only if no worker ends
    while the job it holds is on file as `processing`. -/
theorem ingest_jobs_kept_iff (h : Exec (ingestQueue c) es s) :
    (∀ e ∈ es, NoneLost c e.post) ↔ ∀ e ∈ es, ¬ Drops e.pre e.act :=
  ⟨no_drops h, none_lost h⟩

end

/-! ## A worker that is shut down -/

def anyTenant : KnowledgeContext :=
  { tenantId := { text := "t" }, workspaceId := { text := "w" }, principalId := { text := "u" } }

def anyUpload : EnqueueIngestCommand :=
  { title := "Nghị định 24", filename := "nd24.pdf", titled := by decide, named := by decide }

def anyComponents : IngestComponents :=
  { gateway :=
      { uuid5 := fun name => { text := "id:" ++ name, nonempty := by simp }
        sha256 := fun text => text, structureAwareChunks := fun _ => []
        embed := fun _ => [], uriOf := fun key => key }
    describe := fun e => e.message }

def claimed : List Action :=
  [.enqueue anyUpload anyTenant "raw/1" { text := "j" } 0, .start 0, .select 0 { text := "j" },
    .claim 0 .committed 1]

def smooth : Action → Bool
  | .claim _ ending _ | .markFailed _ ending _ => ending == .committed
  | .crash _ => false
  | _ => true

theorem smooth_keeps {s : Queue} {a : Action} (h : smooth a = true) : ¬ Drops s a := by
  cases a with
  | claim w ending now =>
    intro hd
    rw [show ending = .unacknowledged from hd] at h
    cases h
  | markFailed w ending now =>
    rintro ⟨rfl, _⟩
    cases h
  | crash w => cases h
  | _ => exact fun hd => hd

/-- A job whose work ends in an exception is marked, and not lost. -/
theorem failed_kept : ∃ es s, Exec (ingestQueue anyComponents) es s ∧
    s.jobs.map (·.status) = [.failed] ∧ ∀ e ∈ es, NoneLost anyComponents e.post := by
  let broken : Pipeline := { parsed := .error { kind := .value, message := "unreadable" } }
  have hrun : (ingestQueue anyComponents).runs {}
      (claimed ++ [.process 0 broken, .markFailed 0 .committed 2])
      (fun es s => s.jobs.map (·.status) == [.failed] && es.all (fun e => smooth e.act)) = true := by
    decide +kernel
  obtain ⟨es, s, h, hend⟩ :=
    Machine.exec_of_runs (M := ingestQueue anyComponents) ⟨rfl, rfl, fun _ => rfl⟩ hrun
  rw [Bool.and_eq_true, beq_iff_eq, List.all_eq_true] at hend
  exact ⟨es, s, h, hend.1,
    (ingest_jobs_kept_iff h).mpr (fun e he => smooth_keeps (hend.2 e he))⟩

def diesWorking (e : Event Queue Action) : Bool :=
  match e.act with
  | .crash w => match e.pre.workers w with
    | some (.working job) => e.pre.jobs.any (fun r => r.id == job.id && r.status == .processing)
    | _ => false
  | _ => false

theorem dies_drops {e : Event Queue Action} (h : diesWorking e = true) : Drops e.pre e.act := by
  obtain ⟨s, a, s'⟩ := e
  cases a with
  | crash w =>
    simp only [diesWorking] at h
    split at h
    · next job hw =>
      rw [List.any_eq_true] at h
      obtain ⟨r, hr, hst⟩ := h
      rw [Bool.and_eq_true, beq_iff_eq, beq_iff_eq] at hst
      exact ⟨job.id, ⟨_, hw, rfl⟩, r, hr, hst.1, hst.2⟩
    · cases h
  | _ => cases h

/-- Its row stays `processing`, and nobody has it. -/
theorem shut_down_lost : ¬ ∀ (c : IngestComponents) (es : List (Event Queue Action)) (s : Queue),
    Exec (ingestQueue c) es s → ∀ e ∈ es, NoneLost c e.post := by
  intro hclaim
  have hrun : (ingestQueue anyComponents).runs {} (claimed ++ [.crash 0])
      (fun es _ => es.any diesWorking) = true := by
    decide +kernel
  obtain ⟨es, s, h, hlast⟩ :=
    Machine.exec_of_runs (M := ingestQueue anyComponents) ⟨rfl, rfl, fun _ => rfl⟩ hrun
  rw [List.any_eq_true] at hlast
  obtain ⟨e, he, hdies⟩ := hlast
  exact no_drops h (hclaim _ es s h) e he (dies_drops hdies)

end DigitalWorker.Worker
