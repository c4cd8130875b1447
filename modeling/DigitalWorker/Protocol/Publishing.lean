import DigitalWorker.Protocol.Deadlines
import DigitalWorker.Protocol.Frames
import Mathlib.Data.List.Perm.Basic

/-! # Emails and publication records

    A publication or a CP3 approval reads the case, hands its email to the mail
    port, and only then writes the record and saves the case, pinned to the
    version it read. Any number of such attempts may be under way at once, among
    all the other steps of the case, and each may fail wherever it is.

    So an attempt that is refused or fails has sent an email that no record tells
    of. No record is without its email.
-/

namespace DigitalWorker

open Framework

/-! ## Attempts -/

inductive MailKind where
  | rfq
  | addendum
  deriving DecidableEq

/-- The `source_mode` of the record of an email. -/
def MailKind.sourceMode : MailKind → String
  | .rfq => "auto_email"
  | .addendum => "addendum_email"

inductive Order where
  | autoPublish
  | recordPublication (cmd : RecordPublicationCommand)
  /-- `configured`: the handler has a mail port, a store and a recipient. -/
  | decideCp3 (approve : Bool) (approvalReference comment : String) (configured : Bool)

def Order.mail : Order → Option MailKind
  | .autoPublish => some .rfq
  | .recordPublication _ => none
  | .decideCp3 approve _ _ configured => if approve && configured then some .addendum else none

def Order.require (call : Call) (db : CaseDb) : Order → Except Error Unit
  | .autoPublish => do
    authorize call.context "tender.write" "preparation_publication" db.case.id.text
    raiseIf (db.case.state ≠ .packageOfficial)
      (conflictError "only the official package can be published"
        [("state", db.case.state.value)])
  | .recordPublication cmd => do
    authorize call.context "tender.write" "preparation_publication" db.case.id.text
    raiseIf (blank cmd.externalReference)
      (domainError "publication external reference must not be blank")
    raiseIf (db.case.state ≠ .packageOfficial)
      (conflictError "only the official package can be recorded as published"
        [("state", db.case.state.value)])
  | .decideCp3 _ approvalReference _ _ => do
    authorize call.context "approvals.decide" "preparation_cp3" db.case.id.text
    raiseIf (blank approvalReference) (domainError "CP3 approval reference must not be blank")
    raiseIf (db.case.createdBy = call.context.principalId)
      (conflictError "case creator cannot decide CP3 for their own case" [])
    raiseIf (db.case.state ≠ .cp3Pending)
      (conflictError "case is not waiting for CP3" [("state", db.case.state.value)])
    raiseIf (latest db.artifacts .addendumDraft).isNone (domainError "CP3 has no addendum draft")

inductive Phase where
  /-- It read the case and passed its checks. -/
  | begun (case : PreparationCase)
  /-- The mail port took its email. -/
  | mailed (case : PreparationCase) (sent : Delivery)
  /-- Its rows are committed, with the email they tell of. -/
  | committed (sent : Option Delivery)
  /-- It failed before any email. -/
  | failed
  /-- It failed after its email. -/
  | wasted (sent : Delivery)

def Phase.sent : Phase → Option Delivery
  | .begun _ | .failed => none
  | .mailed _ sent | .wasted sent => some sent
  | .committed sent => sent

def Phase.lost : Phase → Phase
  | .begun _ => .failed
  | .mailed _ sent => .wasted sent
  | phase => phase

structure Attempt where
  call : Call
  order : Order
  phase : Phase

namespace Attempt

def transaction (a : Attempt) : Option (PreparationCase × Handler) :=
  match a.order, a.phase with
  | .autoPublish, .mailed case sent => some (case, .autoPublish sent)
  | .recordPublication cmd, .begun case => some (case, .recordPublication cmd)
  | .decideCp3 approve approvalReference comment configured, .begun case =>
    if approve && configured then none
    else some (case, .decideCp3
      { approve := approve, approvalReference := approvalReference, comment := comment })
  | .decideCp3 approve approvalReference comment configured, .mailed case sent =>
    if approve && configured then some (case, .decideCp3
      { approve := approve, approvalReference := approvalReference, comment := comment
        sent := some sent })
    else none
  | _, _ => none

def inFlight (k : MailKind) (a : Attempt) : List String :=
  match a.phase with
  | .mailed _ sent => if a.order.mail = some k then [sent.messageId] else []
  | _ => []

def wasted (k : MailKind) (a : Attempt) : List String :=
  match a.phase with
  | .wasted sent => if a.order.mail = some k then [sent.messageId] else []
  | _ => []

end Attempt

/-! ## The machine -/

structure Mail where
  attempt : Nat
  kind : MailKind
  messageId : String
  deriving DecidableEq

structure Publishing where
  world : World
  attempts : List Attempt := []
  outbox : List Mail := []

inductive PublishingAction where
  /-- Any other step of the world. -/
  | other (a : Action)
  | begin (call : Call) (order : Order)
  | send (i : Nat) (sent : Delivery)
  /-- An attempt fails where it is. -/
  | fail (i : Nat)
  /-- An attempt writes its rows and saves the case. -/
  | commit (i : Nat) (now : DateTime)

def Handler.isAttempt : Handler → Bool
  | .recordPublication _ | .autoPublish _ | .decideCp3 _ => true
  | _ => false

def Action.isAttempt : Action → Bool
  | .handle _ h => h.isAttempt
  | _ => false

namespace Publishing

def setPhase (s : Publishing) (i : Nat) (a : Attempt) (phase : Phase) : Publishing :=
  { s with attempts := s.attempts.set i { a with phase := phase } }

def committed (env : Env) (w : World) (call : Call) (read : PreparationCase) (h : Handler) :
    Option CaseDb :=
  match h.run env w.directory call { w.db with case := read } with
  | .ok db => if w.db.case.version + 1 = db.case.version then some db else none
  | .error _ => none

def step (env : Env) (s : Publishing) : PublishingAction → Option Publishing
  | .other a =>
    if a.isAttempt then none else (s.world.step env a).map (fun w => { s with world := w })
  | .begin call order =>
    let phase : Phase := match order.require call s.world.db with
      | .ok _ => .begun s.world.db.case
      | .error _ => .failed
    some { s with attempts := s.attempts ++ [{ call := call, order := order, phase := phase }] }
  | .send i sent =>
    match s.attempts[i]? with
    | none => none
    | some a =>
      match a.phase, a.order.mail with
      | .begun case, some k =>
        some { s.setPhase i a (.mailed case sent) with
          outbox := { attempt := i, kind := k, messageId := sent.messageId } :: s.outbox }
      | _, _ => none
  | .fail i => s.attempts[i]?.map (fun a => s.setPhase i a a.phase.lost)
  | .commit i now =>
    match s.attempts[i]? with
    | none => none
    | some a =>
      match a.transaction with
      | none => none
      | some (read, h) =>
        match committed env s.world { a.call with now := now } read h with
        | some db => some { s.setPhase i a (.committed a.phase.sent) with world := { s.world with db := db } }
        | none => some (s.setPhase i a a.phase.lost)

end Publishing

def publishing (env : Env) : Machine Publishing PublishingAction where
  init s := (preparation env).init s.world ∧ s.attempts = [] ∧ s.outbox = []
  step := Publishing.step env

/-! ## What is counted -/

def textAt (d : Dict) (key : String) : Option String :=
  match d.getD key .null with
  | .str text => some text
  | _ => none

def recordReference (k : MailKind) (a : PreparationArtifact) : Option String :=
  if a.artifactType = .publicationRecord ∧ textAt a.content "source_mode" = some k.sourceMode then
    some ((textAt a.content "external_reference").getD "")
  else none

def references (k : MailKind) (rows : List PreparationArtifact) : List String :=
  rows.filterMap (recordReference k)

namespace Publishing

def emails (k : MailKind) (s : Publishing) : List String :=
  (s.outbox.filter (fun m => m.kind = k)).map Mail.messageId

def inFlight (k : MailKind) (s : Publishing) : List String := s.attempts.flatMap (Attempt.inFlight k)

def wasted (k : MailKind) (s : Publishing) : List String := s.attempts.flatMap (Attempt.wasted k)

def emailsOf (s : Publishing) (i : Nat) : List Mail :=
  s.outbox.filter (fun m => m.attempt = i)

/-- **The property**: the emails of a kind are those on its committed records,
    those of the attempts under way and those of the attempts that failed
    afterwards; an attempt hands over at most one email, and one that failed
    before it none. -/
structure EmailsConserved (s : Publishing) : Prop where
  balance : ∀ k, (s.emails k).Perm
    (references k s.world.db.artifacts ++ s.inFlight k ++ s.wasted k)
  number : ∀ k, (s.emails k).length =
    (references k s.world.db.artifacts).length + (s.inFlight k).length + (s.wasted k).length
  once : ∀ i, (s.emailsOf i).length ≤ 1
  failed : ∀ i a, s.attempts[i]? = some a → a.phase = .failed → s.emailsOf i = []

end Publishing

/-! ## What is written about an email -/

section

variable {env : Env} {directory : Directory} {call : Call} {db db' : CaseDb} {k : MailKind}
  {ts : List ArtifactType} {rows rows' : List PreparationArtifact}

def referenceOf (k kind : MailKind) (sent : Option Delivery) : List String :=
  match sent with
  | some sent => if k = kind then [sent.messageId] else []
  | none => []

def Handler.issues (k : MailKind) : Handler → List String
  | .autoPublish sent => referenceOf k .rfq (some sent)
  | .decideCp3 cmd => referenceOf k .addendum (if cmd.approve then cmd.sent else none)
  | _ => []

theorem references_cons_ne {a : PreparationArtifact} (h : a.artifactType ≠ .publicationRecord) :
    references k (a :: rows) = references k rows := by
  have hnone : recordReference k a = none := by
    unfold recordReference
    rw [if_neg (fun hboth => h hboth.1)]
  rw [references, List.filterMap_cons_none hnone]
  rfl

theorem Appends.references_eq (h : Appends env ts rows rows') (ht : .publicationRecord ∉ ts) :
    references k rows' = references k rows := by
  induction h with
  | refl => rfl
  | tail _ hlast ih =>
    obtain ⟨w, hw, rfl⟩ := hlast
    rw [← ih]
    unfold Write.apply planned
    split
    · next b hb =>
      apply references_cons_ne
      rw [Write.plan_type hb]
      rintro heq
      exact ht (heq ▸ hw)
    · rfl

theorem autoPublish_references {sent : Delivery}
    (h : autoPublish env directory call sent db = .ok db') :
    references k db'.artifacts =
      referenceOf k .rfq (some sent) ++ references k db.artifacts := by
  simp only [autoPublish, authorize, ↓raiseIf_bind_ok, bind_ok] at h
  obtain ⟨_, _, _, document, _, case, _, hsave⟩ := h
  obtain ⟨_, hrows⟩ := CaseDb.saveCase_ok.mp hsave
  have hartifacts := congrArg CaseDb.artifacts hrows
  simp only [CaseDb.send_artifacts] at hartifacts
  rw [hartifacts]
  cases k with
  | rfq => rfl
  | addendum => rfl

theorem recordPublication_references {cmd : RecordPublicationCommand}
    (h : recordPublication env call cmd db = .ok db') :
    references k db'.artifacts = references k db.artifacts := by
  simp only [recordPublication, authorize, ↓raiseIf_bind_ok, bind_ok] at h
  obtain ⟨_, _, _, _, document, _, case, _, hsave⟩ := h
  obtain ⟨_, rfl⟩ := CaseDb.saveCase_ok.mp hsave
  cases k with
  | rfq => rfl
  | addendum => rfl

theorem issueToSuppliers_references {sent : Option Delivery} {draft : PreparationArtifact}
    {r : CaseDb × Dict} (h : issueToSuppliers env call sent draft db = .ok r) :
    references k r.1.artifacts = referenceOf k .addendum sent ++ references k db.artifacts := by
  unfold issueToSuppliers at h
  split at h
  · obtain rfl := Except.ok.inj h
    rfl
  · simp only [bind_ok] at h
    obtain ⟨document, _, hret⟩ := h
    obtain rfl := Except.ok.inj hret
    cases k with
    | rfq => rfl
    | addendum => rfl

theorem decideCp3_references {cmd : DecideCp3Command} (h : decideCp3 env call cmd db = .ok db') :
    references k db'.artifacts =
      (Handler.decideCp3 cmd).issues k ++ references k db.artifacts := by
  simp only [decideCp3, authorize, ↓raiseIf_bind_ok, bind_ok] at h
  obtain ⟨_, _, _, _, _, h⟩ := h
  split at h
  · cases h
  · simp only [bind_ok] at h
    obtain ⟨issued, hissued, case, _, hsave⟩ := h
    obtain ⟨_, hrows⟩ := CaseDb.saveCase_ok.mp hsave
    have hartifacts := congrArg CaseDb.artifacts hrows
    simp only [CaseDb.send_artifacts] at hartifacts
    rw [hartifacts]
    have hdecision : ∀ (content : Dict) (status : ArtifactStatus),
        references k (issued.1.addApplicationArtifact env (call.newId 0) call.context.principalId
          .addendumDecision content status).artifacts = references k issued.1.artifacts :=
      fun content status => references_cons_ne (fun h => by cases h)
    exact (hdecision _ _).trans (issueToSuppliers_references hissued)

/-- **Handler lemma**: what a handler writes about emails. -/
theorem Handler.run_references {h : Handler} (hrun : h.run env directory call db = .ok db')
    (k : MailKind) :
    references k db'.artifacts = h.issues k ++ references k db.artifacts := by
  have hfiled := Handler.run_filed hrun
  cases h with
  | autoPublish sent => exact autoPublish_references hrun
  | recordPublication cmd => exact recordPublication_references hrun
  | decideCp3 cmd => exact decideCp3_references hrun
  | verifyIntake _ _ | rejectIntake _ _ | answerClarifications _ | proposeAddendum _
  | submitAddendum _ | recordSubmission _ | requestCp4 | completeCp4 _ =>
    exact hfiled.artifacts.references_eq (by simp [Handler.writes])

/-- **Step lemma**: no other step of the world writes about emails. -/
theorem World.step_references {w w' : World} {a : Action} (hs : w.step env a = some w')
    (ha : a.isAttempt = false) (k : MailKind) :
    references k w'.db.artifacts = references k w.db.artifacts := by
  refine (World.step_filed hs).artifacts.references_eq ?_
  cases a with
  | handle call h =>
    have ha : h.isAttempt = false := ha
    cases h <;> simp_all [World.files, Handler.writes, Handler.isAttempt]
  | node runId inp =>
    simp only [World.files]
    split
    · split
      · next n _ => cases n <;> decide
      · exact List.not_mem_nil
    · exact List.not_mem_nil
  | amend call cmd => simp [World.files]
  | start call trigger runId => exact List.not_mem_nil
  | restaff _ | withdraw _ | notifyAmended | createApproval _ _ _ | setStatus _ | decide _ _
  | resume _ => exact List.not_mem_nil

end

/-! ## Counting over a list with one place changed -/

/-- Replacing one element trades its share for the share of the new one. -/
theorem count_flatMap_set {α β : Type} [BEq β] (f : α → List β) (m : β) {l : List α} {i : Nat}
    {a b : α} (h : l[i]? = some a) :
    ((l.set i b).flatMap f).count m + (f a).count m =
      (l.flatMap f).count m + (f b).count m := by
  induction l generalizing i with
  | nil => cases h
  | cons x l ih =>
    cases i with
    | zero =>
      obtain rfl := Option.some.inj h
      simp only [List.set_cons_zero, List.flatMap_cons, List.count_append]
      omega
    | succ i =>
      have hrest : l[i]? = some a := h
      have hih := ih hrest
      simp only [List.set_cons_succ, List.flatMap_cons, List.count_append]
      omega

/-! ## The balance of the emails -/

section

variable {env : Env} {s s' : Publishing} {k : MailKind} {i : Nat} {a : Attempt}

/-- Every message id occurs as often among the emails of a kind as on the records,
    under way and in vain together. -/
def Balanced (s : Publishing) : Prop :=
  ∀ k m, (s.emails k).count m = (references k s.world.db.artifacts).count m +
    (s.inFlight k).count m + (s.wasted k).count m

def Attempt.mails (i : Nat) (a : Attempt) : List Mail :=
  match a.order.mail, a.phase.sent with
  | some k, some sent => [{ attempt := i, kind := k, messageId := sent.messageId }]
  | _, _ => []

def Attributed (s : Publishing) : Prop :=
  ∀ i, s.emailsOf i = match s.attempts[i]? with
    | some a => a.mails i
    | none => []

theorem Attempt.transaction_some {read : PreparationCase} {h : Handler}
    (ht : a.transaction = some (read, h)) (k : MailKind) :
    h.issues k = a.inFlight k ∧ a.wasted k = [] ∧
      (a.phase = .begun read ∧ a.order.mail = none ∨
        ∃ sent kind, a.phase = .mailed read sent ∧ a.order.mail = some kind) := by
  obtain ⟨call, order, phase⟩ := a
  unfold transaction at ht
  simp only at ht
  split at ht
  · next case sent =>
    obtain ⟨rfl, rfl⟩ := Prod.mk.inj (Option.some.inj ht)
    refine ⟨?_, rfl, .inr ⟨sent, .rfq, rfl, rfl⟩⟩
    simp [Handler.issues, referenceOf, inFlight, Order.mail, eq_comm]
  · next cmd case =>
    obtain ⟨rfl, rfl⟩ := Prod.mk.inj (Option.some.inj ht)
    exact ⟨rfl, rfl, .inl ⟨rfl, rfl⟩⟩
  · next approve ref comment configured case =>
    split at ht
    · cases ht
    · next hsends =>
      obtain ⟨rfl, rfl⟩ := Prod.mk.inj (Option.some.inj ht)
      refine ⟨?_, rfl, .inl ⟨rfl, by simp [Order.mail, hsends]⟩⟩
      simp [Handler.issues, referenceOf, inFlight]
  · next approve ref comment configured case sent =>
    split at ht
    · next hsends =>
      obtain ⟨rfl, rfl⟩ := Prod.mk.inj (Option.some.inj ht)
      refine ⟨?_, rfl, .inr ⟨sent, .addendum, rfl, by simp [Order.mail, hsends]⟩⟩
      rw [Bool.and_eq_true] at hsends
      simp [Handler.issues, referenceOf, inFlight, Order.mail, hsends, eq_comm]
    · cases ht
  · cases ht

theorem Attempt.lost_count (a : Attempt) (k : MailKind) (m : String) :
    (inFlight k { a with phase := a.phase.lost }).count m +
        (wasted k { a with phase := a.phase.lost }).count m =
      (a.inFlight k).count m + (a.wasted k).count m := by
  obtain ⟨call, order, phase⟩ := a
  cases phase <;> simp [inFlight, wasted, Phase.lost]

theorem Balanced.initial (h : (publishing env).init s) : Balanced s := by
  obtain ⟨⟨call, cmd, hcreate, _⟩, hattempts, houtbox⟩ := h
  have hopened := createCase_ok hcreate
  intro k m
  have hreferences : references k s.world.db.artifacts = [] := by
    rw [references, List.filterMap_eq_nil_iff]
    intro b hb
    unfold recordReference
    rw [if_neg]
    rintro ⟨htype, _⟩
    rw [hopened.artifacts b hb] at htype
    cases htype
  simp [Publishing.emails, Publishing.inFlight, Publishing.wasted, hreferences, hattempts, houtbox]

theorem committed_some {w : World} {call : Call} {read : PreparationCase} {h : Handler} {db : CaseDb}
    (hc : Publishing.committed env w call read h = some db) :
    h.run env w.directory call { w.db with case := read } = .ok db := by
  unfold Publishing.committed at hc
  split at hc
  · next r hrun =>
    split at hc
    · rw [hrun, Option.some.inj hc]
    · cases hc
  · cases hc

theorem setPhase_count (phase : Phase) (ha : s.attempts[i]? = some a) (k : MailKind)
    (m : String) :
    ((s.setPhase i a phase).inFlight k).count m + ((s.setPhase i a phase).wasted k).count m +
        ((a.inFlight k).count m + (a.wasted k).count m) =
      (s.inFlight k).count m + (s.wasted k).count m +
        ((Attempt.inFlight k { a with phase := phase }).count m +
          (Attempt.wasted k { a with phase := phase }).count m) := by
  have hflight := count_flatMap_set (Attempt.inFlight k) m (b := { a with phase := phase }) ha
  have hwasted := count_flatMap_set (Attempt.wasted k) m (b := { a with phase := phase }) ha
  show ((s.attempts.set i { a with phase := phase }).flatMap (Attempt.inFlight k)).count m +
      ((s.attempts.set i { a with phase := phase }).flatMap (Attempt.wasted k)).count m + _ =
    (s.attempts.flatMap (Attempt.inFlight k)).count m +
      (s.attempts.flatMap (Attempt.wasted k)).count m + _
  omega

theorem Balanced.lose (h : Balanced s) (ha : s.attempts[i]? = some a) :
    Balanced (s.setPhase i a a.phase.lost) := by
  intro k m
  have hbefore := h k m
  have hset := setPhase_count a.phase.lost ha k m
  have hlost := a.lost_count k m
  show (s.emails k).count m = (references k s.world.db.artifacts).count m + _ + _
  omega

theorem Balanced.step {act : PublishingAction} (h : Balanced s)
    (hs : Publishing.step env s act = some s') : Balanced s' := by
  cases act with
  | other x =>
    simp only [Publishing.step] at hs
    split at hs
    · cases hs
    · next hother =>
      obtain ⟨w, hw, rfl⟩ := Option.map_eq_some_iff.mp hs
      intro k m
      show (s.emails k).count m = (references k w.db.artifacts).count m + _ + _
      rw [World.step_references hw (by simpa using hother) k]
      exact h k m
  | begin call order =>
    simp only [Publishing.step, Option.some.injEq] at hs
    subst hs
    intro k m
    have hnone : ∀ phase : Phase, (phase = .begun s.world.db.case ∨ phase = .failed) →
        Attempt.inFlight k ⟨call, order, phase⟩ = [] ∧
          Attempt.wasted k ⟨call, order, phase⟩ = [] := by
      rintro phase (rfl | rfl)
      · exact ⟨rfl, rfl⟩
      · exact ⟨rfl, rfl⟩
    obtain ⟨hflight, hwasted⟩ := hnone (match order.require call s.world.db with
      | .ok _ => .begun s.world.db.case
      | .error _ => .failed) (by
        split
        · exact .inl rfl
        · exact .inr rfl)
    show (s.emails k).count m = (references k s.world.db.artifacts).count m +
      ((s.attempts ++ [_]).flatMap (Attempt.inFlight k)).count m +
      ((s.attempts ++ [_]).flatMap (Attempt.wasted k)).count m
    rw [List.flatMap_append, List.flatMap_append, List.flatMap_singleton, List.flatMap_singleton,
      hflight, hwasted, List.append_nil, List.append_nil]
    exact h k m
  | send i sent =>
    simp only [Publishing.step] at hs
    split at hs
    · cases hs
    · next a ha =>
      split at hs
      · next case kind hphase hmail =>
        obtain rfl := Option.some.inj hs
        intro k m
        have hbefore := h k m
        have hset := setPhase_count (.mailed case sent) ha k m
        have hempty : a.inFlight k = [] ∧ a.wasted k = [] := by
          simp [Attempt.inFlight, Attempt.wasted, hphase]
        rw [hempty.1, hempty.2] at hset
        show (((⟨i, kind, sent.messageId⟩ :: s.outbox).filter (fun m => m.kind = k)).map
            Mail.messageId).count m = (references k s.world.db.artifacts).count m +
          ((s.setPhase i a (.mailed case sent)).inFlight k).count m +
          ((s.setPhase i a (.mailed case sent)).wasted k).count m
        have hemails : (((⟨i, kind, sent.messageId⟩ :: s.outbox).filter
            (fun m => m.kind = k)).map Mail.messageId).count m =
            (s.emails k).count m + (if kind = k then [sent.messageId] else []).count m := by
          by_cases hk : kind = k
          · simp [Publishing.emails, hk, List.count_cons]
          · simp [Publishing.emails, hk]
        have hshare : Attempt.inFlight k { a with phase := .mailed case sent } =
            (if kind = k then [sent.messageId] else []) := by
          simp [Attempt.inFlight, hmail]
        have hnowaste : Attempt.wasted k { a with phase := .mailed case sent } = [] := rfl
        rw [hshare, hnowaste] at hset
        simp only [List.count_nil] at hset
        omega
      · cases hs
  | fail i =>
    obtain ⟨a, ha, rfl⟩ := Option.map_eq_some_iff.mp hs
    exact h.lose ha
  | commit i now =>
    simp only [Publishing.step] at hs
    split at hs
    · cases hs
    · next a ha =>
      split at hs
      · cases hs
      · next read hd htransaction =>
        split at hs
        · next db hcommitted =>
          obtain rfl := Option.some.inj hs
          intro k m
          have hbefore := h k m
          have hset := setPhase_count (.committed a.phase.sent) ha k m
          obtain ⟨hissues, hnowaste, _⟩ := Attempt.transaction_some htransaction k
          have hreferences := Handler.run_references (committed_some hcommitted) k
          have hshare : Attempt.inFlight k { a with phase := .committed a.phase.sent } = [] := rfl
          have hshare' : Attempt.wasted k { a with phase := .committed a.phase.sent } = [] := rfl
          rw [hshare, hshare', hnowaste] at hset
          show (s.emails k).count m = (references k db.artifacts).count m +
            ((s.setPhase i a (.committed a.phase.sent)).inFlight k).count m +
            ((s.setPhase i a (.committed a.phase.sent)).wasted k).count m
          rw [hreferences, hissues, List.count_append]
          simp only [List.count_nil] at hset
          show _ = _ + (references k s.world.db.artifacts).count m + _ + _
          omega
        · obtain rfl := Option.some.inj hs
          exact h.lose ha

/-! ## Who sent what -/

theorem Attributed.initial (h : (publishing env).init s) : Attributed s := by
  obtain ⟨_, hattempts, houtbox⟩ := h
  intro i
  rw [hattempts, Publishing.emailsOf, houtbox]
  rfl

theorem Attributed.setPhase {phase : Phase} (h : Attributed s) (ha : s.attempts[i]? = some a)
    (hsent : phase.sent = a.phase.sent) : Attributed (s.setPhase i a phase) := by
  intro j
  show s.emailsOf j = match (s.attempts.set i { a with phase := phase })[j]? with
    | some a => a.mails j
    | none => []
  rw [h j]
  by_cases hij : i = j
  · subst hij
    obtain ⟨hlt, _⟩ := List.getElem?_eq_some_iff.mp ha
    rw [ha, List.getElem?_set_self hlt]
    show a.mails i = Attempt.mails i { a with phase := phase }
    simp only [Attempt.mails, hsent]
  · rw [List.getElem?_set_ne hij]

theorem Phase.lost_sent (phase : Phase) : phase.lost.sent = phase.sent := by
  cases phase <;> rfl

theorem Attributed.step {act : PublishingAction} (h : Attributed s)
    (hs : Publishing.step env s act = some s') : Attributed s' := by
  cases act with
  | other x =>
    simp only [Publishing.step] at hs
    split at hs
    · cases hs
    · obtain ⟨w, _, rfl⟩ := Option.map_eq_some_iff.mp hs
      exact h
  | begin call order =>
    simp only [Publishing.step, Option.some.injEq] at hs
    subst hs
    intro j
    have hj := h j
    show s.emailsOf j = match (s.attempts ++ [_])[j]? with
      | some a => a.mails j
      | none => []
    rw [hj]
    rcases Nat.lt_trichotomy j s.attempts.length with hlt | heq | hgt
    · rw [List.getElem?_append_left hlt]
    · -- the new attempt has handed over nothing
      subst heq
      rw [List.getElem?_concat_length, List.getElem?_eq_none (Nat.le_refl _)]
      unfold Attempt.mails
      cases order.require call s.world.db <;> simp [Phase.sent]
    · rw [List.getElem?_eq_none (by omega),
        List.getElem?_eq_none (by rw [List.length_append, List.length_singleton]; omega)]
  | send i sent =>
    simp only [Publishing.step] at hs
    split at hs
    · cases hs
    · next a ha =>
      split at hs
      · next case kind hphase hmail =>
        obtain rfl := Option.some.inj hs
        intro j
        have hj := h j
        show (⟨i, kind, sent.messageId⟩ :: s.outbox).filter (fun m => m.attempt = j) =
          match (s.attempts.set i { a with phase := .mailed case sent })[j]? with
          | some a => a.mails j
          | none => []
        by_cases hij : i = j
        · subst hij
          obtain ⟨hlt, _⟩ := List.getElem?_eq_some_iff.mp ha
          rw [ha] at hj
          have hbefore : s.outbox.filter (fun m => m.attempt = i) = [] := by
            refine hj.trans ?_
            simp [Attempt.mails, hphase, Phase.sent]
          rw [List.getElem?_set_self hlt]
          simp [hbefore, Attempt.mails, hmail, Phase.sent]
        · rw [List.getElem?_set_ne hij, ← hj]
          simp [Publishing.emailsOf, hij]
      · cases hs
  | fail i =>
    obtain ⟨a, ha, rfl⟩ := Option.map_eq_some_iff.mp hs
    exact h.setPhase ha (Phase.lost_sent _)
  | commit i now =>
    simp only [Publishing.step] at hs
    split at hs
    · cases hs
    · next a ha =>
      split at hs
      · cases hs
      · split at hs
        · obtain rfl := Option.some.inj hs
          exact h.setPhase ha rfl
        · obtain rfl := Option.some.inj hs
          exact h.setPhase ha (Phase.lost_sent _)

end

/-- **Main theorem**: in every state any interleaving of attempts and other steps
    reaches, the emails are conserved. -/
theorem emails_conserved {env : Env} {es : List (Event Publishing PublishingAction)}
    {s : Publishing} (hrun : Exec (publishing env) es s) : s.EmailsConserved := by
  have hinv : Balanced s ∧ Attributed s := by
    refine hrun.invariant (P := fun s => Balanced s ∧ Attributed s) ?_ ?_
    · intro s hinit
      exact ⟨.initial hinit, .initial hinit⟩
    · intro s act s' hinv hs
      exact ⟨hinv.1.step hs, hinv.2.step hs⟩
  obtain ⟨hbalanced, hattributed⟩ := hinv
  have hperm : ∀ k, (s.emails k).Perm
      (references k s.world.db.artifacts ++ s.inFlight k ++ s.wasted k) := by
    intro k
    rw [List.perm_iff_count]
    intro m
    rw [List.count_append, List.count_append]
    exact hbalanced k m
  refine ⟨hperm, ?_, ?_, ?_⟩
  · intro k
    rw [(hperm k).length_eq, List.length_append, List.length_append]
  · intro i
    rw [hattributed i]
    split
    · unfold Attempt.mails
      split <;> simp
    · simp
  · intro i a ha hfailed
    rw [hattributed i, ha]
    simp [Attempt.mails, hfailed, Phase.sent]

namespace Office

def desk : Publishing := { world := opened }

theorem desk_init : (publishing env).init desk := ⟨opened_init, rfl, rfl⟩

def twoInvitations : List PublishingAction :=
  (toOfficial (some 14)).map .other ++
    [.begin (call chi) .autoPublish, .begin (call binh) .autoPublish, .send 0 delivery,
      .send 1 { delivery with messageId := "m2" }, .commit 1 0, .commit 0 0]

/-- The emails of the two are conserved: one on the record, one in vain. -/
theorem invitations_conserved : ∃ es s, Exec (publishing env) es s ∧
    s.emails .rfq = ["m2", "m1"] ∧ s.wasted .rfq = ["m1"] ∧ s.EmailsConserved := by
  have hruns : (publishing env).runs desk twoInvitations (fun _ s =>
      s.emails .rfq == ["m2", "m1"] && s.wasted .rfq == ["m1"]) = true := by
    decide +kernel
  obtain ⟨es, s, hrun, htest⟩ := Machine.exec_of_runs desk_init hruns
  simp only [Bool.and_eq_true, beq_iff_eq] at htest
  exact ⟨es, s, hrun, htest.1, htest.2, emails_conserved hrun⟩

/-- Two invitations are out, no attempt is under way, and there is one record: the
    attempt that lost the race has sent an email. -/
theorem email_unrecorded : ∃ es s, Exec (publishing env) es s ∧ s.inFlight .rfq = [] ∧
    (s.emails .rfq).length = 2 ∧ (references .rfq s.world.db.artifacts).length = 1 ∧
    (s.emailsOf 0).length = 1 ∧ s.wasted .rfq = ["m1"] := by
  have hruns : (publishing env).runs desk twoInvitations (fun _ s =>
      s.inFlight .rfq == [] && (s.emails .rfq).length == 2 &&
        (references .rfq s.world.db.artifacts).length == 1 && (s.emailsOf 0).length == 1 &&
        s.wasted .rfq == ["m1"]) = true := by
    decide +kernel
  obtain ⟨es, s, hrun, htest⟩ := Machine.exec_of_runs desk_init hruns
  simp only [Bool.and_eq_true, beq_iff_eq] at htest
  obtain ⟨⟨⟨⟨hflight, hemails⟩, hrecords⟩, hsent⟩, hwasted⟩ := htest
  exact ⟨es, s, hrun, hflight, hemails, hrecords, hsent, hwasted⟩

end Office

end DigitalWorker
