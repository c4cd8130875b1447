import DigitalWorker.Preparation.Store

/-! # Cards

    Every message of a case goes through the outbox under an idempotency key
    `dw01:<case>:<kind>:<rest>`, and a key that is taken swallows the message.
    The keys of two kinds never meet; within a kind, the rest decides.
-/

namespace DigitalWorker

open Framework

/-! ## Idempotency keys -/

inductive CardKind where
  | intake
  | progress
  | cpcard
  | addmProposal
  | amended
  deriving DecidableEq

def CardKind.text : CardKind → String
  | intake => "intake"
  | progress => "progress"
  | cpcard => "cpcard"
  | addmProposal => "addm-proposal"
  | amended => "amended"

def CardKind.isDecision : CardKind → Bool
  | cpcard => true
  | addmProposal => true
  | _ => false

/-- `dw01:{case}:{kind}:{rest}`. -/
def jobKey (caseId : Uuid) (kind : CardKind) (rest : String) : String :=
  "dw01:" ++ caseId.text ++ ":" ++ (kind.text ++ ":" ++ rest)

def cardKey (caseId : Uuid) (checkpoint dedupe : String) : String :=
  jobKey caseId .cpcard (checkpoint ++ ":" ++ dedupe)

private theorem takeWhile_colon {a b : List Char} (ha : ':' ∉ a) :
    (a ++ ':' :: b).takeWhile (· ≠ ':') = a := by
  rw [List.takeWhile_append_of_pos]
  · simp
  · intro c hc
    have hne : c ≠ ':' := by
      intro h
      exact ha (h ▸ hc)
    simpa using hne

theorem colon_split {a b a' b' : String} (ha : ':' ∉ a.toList) (ha' : ':' ∉ a'.toList)
    (h : a ++ ":" ++ b = a' ++ ":" ++ b') : a = a' ∧ b = b' := by
  have hlist : a.toList ++ ':' :: b.toList = a'.toList ++ ':' :: b'.toList := by
    have := congrArg String.toList h
    simpa [String.toList_append] using this
  have hhead : a.toList = a'.toList := by
    have := congrArg (List.takeWhile (· ≠ ':')) hlist
    rwa [takeWhile_colon ha, takeWhile_colon ha'] at this
  rw [hhead] at hlist
  have htail := List.append_cancel_left hlist
  exact ⟨String.toList_inj.mp hhead, String.toList_inj.mp (List.cons.inj htail).2⟩

theorem CardKind.text_colon_free (k : CardKind) : ':' ∉ k.text.toList := by
  cases k <;> decide

theorem CardKind.text_injective {k k' : CardKind} (h : k.text = k'.text) : k = k' := by
  cases k <;> cases k' <;> first | rfl | exact absurd h (by decide)

theorem jobKey_inj {caseId : Uuid} {k k' : CardKind} {r r' : String} :
    jobKey caseId k r = jobKey caseId k' r' ↔ k = k' ∧ r = r' := by
  constructor
  · intro h
    have hrest : k.text ++ ":" ++ r = k'.text ++ ":" ++ r' := by
      have := congrArg String.toList h
      simp only [jobKey, String.toList_append, List.append_assoc] at this
      rw [← String.toList_inj]
      simpa [String.toList_append] using this
    obtain ⟨hk, hr⟩ := colon_split k.text_colon_free k'.text_colon_free hrest
    exact ⟨CardKind.text_injective hk, hr⟩
  · intro h
    rw [h.1, h.2]

theorem cardKey_inj {caseId : Uuid} {cp cp' d d' : String} (h : ':' ∉ cp.toList)
    (h' : ':' ∉ cp'.toList) : cardKey caseId cp d = cardKey caseId cp' d' ↔ cp = cp' ∧ d = d' := by
  unfold cardKey
  rw [jobKey_inj]
  constructor
  · intro hr
    exact colon_split h h' hr.2
  · intro hr
    rw [hr.1, hr.2]
    exact ⟨rfl, rfl⟩

/-! ## Sending -/

namespace CaseDb

def keys (db : CaseDb) : List String := db.jobs.map NotificationJob.idempotencyKey

def send (db : CaseDb) (eventType : IntakeNotificationType) (recipient : Option Uuid)
    (key : String) : CaseDb :=
  match recipient with
  | some user => db.enqueue { eventType := eventType, recipient := user, idempotencyKey := key }
  | none => db

/-- `_notify_progress`: a card for the owner unless another recipient is named. -/
def notifyProgress (db : CaseDb) (stage dedupe : String) (recipient : Option Uuid := none) :
    CaseDb :=
  db.send .runProgress (some (recipient.getD db.case.createdBy))
    (jobKey db.case.id .progress (stage ++ ":" ++ dedupe))

/-- `_notify_cp_approval`: nothing when neither the role of the approval matrix
    nor the fallback role is staffed. -/
def notifyCpApproval (env : Env) (directory : Directory) (db : CaseDb)
    (checkpoint dedupe : String) : CaseDb :=
  db.send .cpApprovalRequested
    (directory.approver env.rules db.case.estimatedValueMinor checkpoint)
    (cardKey db.case.id checkpoint dedupe)

/-! ### What a card leaves alone -/

variable {db : CaseDb} {eventType : IntakeNotificationType} {recipient : Option Uuid}
  {key stage dedupe checkpoint k : String} {env : Env} {directory : Directory}

@[simp] theorem send_case : (db.send eventType recipient key).case = db.case := by
  cases recipient <;> rfl

@[simp] theorem send_artifacts : (db.send eventType recipient key).artifacts = db.artifacts := by
  cases recipient <;> rfl

@[simp] theorem send_documents : (db.send eventType recipient key).documents = db.documents := by
  cases recipient <;> rfl

@[simp] theorem send_latestContent {t : ArtifactType} :
    (db.send eventType recipient key).latestContent t = db.latestContent t := by
  rw [latestContent, send_artifacts]
  rfl

@[simp] theorem notifyProgress_case :
    (db.notifyProgress stage dedupe recipient).case = db.case := send_case

@[simp] theorem notifyProgress_latestContent {t : ArtifactType} :
    (db.notifyProgress stage dedupe recipient).latestContent t = db.latestContent t :=
  send_latestContent

@[simp] theorem notifyCpApproval_case :
    (db.notifyCpApproval env directory checkpoint dedupe).case = db.case := send_case

/-! ### The keys it takes -/

@[simp] theorem mem_keys_send : k ∈ (db.send eventType recipient key).keys ↔
    (recipient.isSome = true ∧ k = key) ∨ k ∈ db.keys := by
  cases recipient with
  | none => simp [send]
  | some user =>
    unfold keys send enqueue
    rw [mem_keys_insertOnce]
    simp

theorem mem_jobs_send {user : Uuid} (h : key ∉ db.keys) :
    { eventType := eventType, recipient := user, idempotencyKey := key } ∈
      (db.send eventType (some user) key).jobs := by
  have hfree : Accepted NotificationJob.idempotencyKey db.jobs
      { eventType := eventType, recipient := user, idempotencyKey := key } := h
  show _ ∈ insertOnce NotificationJob.idempotencyKey db.jobs _
  rw [insertOnce_of_accepted hfree]
  exact List.mem_cons_self

@[simp] theorem addApplicationArtifact_keys {id actor : Uuid} {t : ArtifactType} {content : Dict}
    {status : ArtifactStatus} :
    (db.addApplicationArtifact env id actor t content status).keys = db.keys := rfl

theorem send_jobs_congr {db db₁ : CaseDb} (h : db₁.jobs = db.jobs) :
    (db₁.send eventType recipient key).jobs = (db.send eventType recipient key).jobs := by
  cases recipient with
  | none => exact h
  | some user =>
    show insertOnce _ db₁.jobs _ = insertOnce _ db.jobs _
    rw [h]

/-- Of the keys of decision cards, a transaction takes `new` and no other. -/
def SendsCards (new : List String) (db db' : CaseDb) : Prop :=
  ∀ kind rest, kind.isDecision = true →
    (jobKey db.case.id kind rest ∈ db'.keys ↔
      jobKey db.case.id kind rest ∈ new ∨ jobKey db.case.id kind rest ∈ db.keys)

theorem SendsCards.of_keys {db db' : CaseDb} (h : db'.keys = db.keys) : SendsCards [] db db' := by
  intro kind rest _
  simp [h]

theorem SendsCards.of_jobs {db db' : CaseDb} (h : db'.jobs = db.jobs) : SendsCards [] db db' :=
  .of_keys (congrArg (List.map NotificationJob.idempotencyKey) h)

theorem SendsCards.send {db db₁ db' : CaseDb} {kind : CardKind} {rest : String}
    (h : db'.jobs = (db₁.send eventType recipient (jobKey db₁.case.id kind rest)).jobs)
    (hjobs : db₁.jobs = db.jobs) (hid : db₁.case.id = db.case.id)
    (hkind : kind.isDecision = false) : SendsCards [] db db' := by
  intro kind' rest' hkind'
  have hkeys : db'.keys = (db₁.send eventType recipient (jobKey db₁.case.id kind rest)).keys :=
    congrArg (List.map NotificationJob.idempotencyKey) h
  have hkeys₁ : db₁.keys = db.keys := congrArg (List.map NotificationJob.idempotencyKey) hjobs
  have hne : kind' ≠ kind := by
    intro heq
    rw [heq, hkind] at hkind'
    cases hkind'
  rw [hkeys, mem_keys_send, hid, jobKey_inj, hkeys₁]
  simp [hne]

theorem SendsCards.card {db db₁ db' : CaseDb}
    (h : db'.jobs = (db₁.send eventType recipient key).jobs) (hjobs : db₁.jobs = db.jobs) :
    SendsCards (if recipient.isSome then [key] else []) db db' := by
  intro kind rest _
  have hkeys : db'.keys = (db₁.send eventType recipient key).keys :=
    congrArg (List.map NotificationJob.idempotencyKey) h
  have hkeys₁ : db₁.keys = db.keys := congrArg (List.map NotificationJob.idempotencyKey) hjobs
  rw [hkeys, mem_keys_send, hkeys₁]
  cases recipient <;> simp

theorem SendsCards.trans {db₁ db₂ db₃ : CaseDb} {new₁ new₂ : List String}
    (h₁ : SendsCards new₁ db₁ db₂) (h₂ : SendsCards new₂ db₂ db₃)
    (hid : db₂.case.id = db₁.case.id) : SendsCards (new₂ ++ new₁) db₁ db₃ := by
  intro kind rest hkind
  have hsecond := h₂ kind rest hkind
  rw [hid] at hsecond
  rw [hsecond, h₁ kind rest hkind, List.mem_append, or_assoc]

theorem SendsCards.after {db₁ db₂ db₃ : CaseDb} {new : List String} (h₁ : SendsCards [] db₁ db₂)
    (h₂ : SendsCards new db₂ db₃) (hid : db₂.case.id = db₁.case.id) : SendsCards new db₁ db₃ := by
  have h := h₁.trans h₂ hid
  rwa [List.append_nil] at h

def SendsCard (eventType : IntakeNotificationType) (recipient : Option Uuid) (key : String)
    (db db' : CaseDb) : Prop :=
  ∃ mid, SendsCards [] db mid ∧ db'.jobs = (mid.send eventType recipient key).jobs

theorem SendsCard.of_jobs {db db' : CaseDb}
    (h : db'.jobs = (db.send eventType recipient key).jobs) :
    SendsCard eventType recipient key db db' :=
  ⟨db, .of_keys rfl, h⟩

theorem SendsCard.after {db₁ db₂ db₃ : CaseDb} (h₁ : SendsCards [] db₁ db₂)
    (h₂ : SendsCard eventType recipient key db₂ db₃) (hid : db₂.case.id = db₁.case.id) :
    SendsCard eventType recipient key db₁ db₃ := by
  obtain ⟨mid, hmid, hjobs⟩ := h₂
  exact ⟨mid, h₁.after hmid hid, hjobs⟩

theorem SendsCard.sendsCards {db db' : CaseDb} (h : SendsCard eventType recipient key db db') :
    SendsCards (if recipient.isSome then [key] else []) db db' := by
  obtain ⟨mid, hmid, hjobs⟩ := h
  intro kind rest hkind
  have hcard := (SendsCards.card hjobs rfl : SendsCards _ mid db')
  have hkeys : db'.keys = (mid.send eventType recipient key).keys :=
    congrArg (List.map NotificationJob.idempotencyKey) hjobs
  rw [hkeys, mem_keys_send, hmid kind rest hkind]
  cases recipient <;> simp

def NewCard (eventType : IntakeNotificationType) (key : String) (db db' : CaseDb) : Prop :=
  key ∉ db.keys ∧
    ∃ user, { eventType := eventType, recipient := user, idempotencyKey := key } ∈ db'.jobs

theorem SendsCard.newCard_iff {db db' : CaseDb} {kind : CardKind} {rest : String} {user : Uuid}
    (h : SendsCard eventType (some user) (jobKey db.case.id kind rest) db db')
    (hkind : kind.isDecision = true) :
    NewCard eventType (jobKey db.case.id kind rest) db db' ↔
      jobKey db.case.id kind rest ∉ db.keys := by
  obtain ⟨mid, hmid, hjobs⟩ := h
  constructor
  · intro hnew
    exact hnew.1
  · intro hfree
    have hfree' : jobKey db.case.id kind rest ∉ mid.keys := by
      rw [hmid kind rest hkind]
      simpa using hfree
    refine ⟨hfree, user, ?_⟩
    rw [hjobs]
    exact mem_jobs_send hfree'

end CaseDb

end DigitalWorker
