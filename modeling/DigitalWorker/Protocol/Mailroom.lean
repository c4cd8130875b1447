import DigitalWorker.Preparation.EmailIngest
import DigitalWorker.Protocol.Register

/-! # Bids that come by email

    A poll takes every unseen mail out of the mailbox at once and then deals with
    them one by one, each in a transaction of its own, while everybody else goes
    on acting on the case. A mail is marked seen when it is fetched: whatever
    becomes of it then, no later poll meets it again.
-/

namespace DigitalWorker

open Framework

/-! ## The mailroom of a case -/

structure Mailroom where
  world : World
  /-- The mails nobody has fetched, oldest first. -/
  unseen : List InboundMail := []
  /-- What the poll under way was handed and has not come to. -/
  inHand : List InboundMail := []
  /-- How many mails have come in. -/
  arrived : Nat := 0

/-- What dealing with a mail can meet besides the checks of the handlers: a
    domain error, such as a lost race for the row, or another exception. -/
inductive IngestFault where
  | refused
  | raised
  deriving DecidableEq

inductive MailAction where
  | prepare (a : Action)
  | arrive (m : InboundMail)
  /-- `fetch_new`, at some moment. -/
  | fetch (now : DateTime)
  /-- The poll deals with its next mail. The request for CP4 that follows is an
      action of the world. -/
  | ingest (call : Call) (view : Option (List PreparationArtifact)) (fault : Option IngestFault)
  /-- The poll ends with an exception of its own, or with the process. -/
  | die

namespace Mailroom

variable (env : Env) (lower : String → String)

/-- One turn of the loop of `poll_once`, for the mail `m` with `rest` after it. -/
def ingestMail (s : Mailroom) (call : Call) (view : Option (List PreparationArtifact))
    (fault : Option IngestFault) (m : InboundMail) (rest : List InboundMail) : Mailroom :=
  match readMail m with
  | .skipped => { s with inHand := rest }
  | .unparsable => { s with inHand := [] }
  | .bid caseId name bytes =>
    match fault with
    | some .raised => { s with inHand := [] }
    | some .refused => { s with inHand := rest }
    | none =>
      if caseId = s.world.db.case.id then
        match s.world.step env (.handle call
            (.recordSubmission (mailSubmission env lower view call.now m name bytes))) with
        | some w => { s with world := w, inHand := rest }
        -- `except DWError`: reported, and left
        | none => { s with inHand := rest }
      else { s with inHand := rest }

def step (s : Mailroom) : MailAction → Option Mailroom
  | .prepare a =>
    match s.world.step env a with
    | some w => some { s with world := w }
    | none => none
  | .arrive m =>
    if m.number = s.arrived then
      some { s with unseen := s.unseen ++ [m], arrived := s.arrived + 1 }
    else none
  | .fetch _ =>
    if s.inHand = [] then some { s with unseen := [], inHand := s.unseen } else none
  | .ingest call view fault =>
    match s.inHand with
    | [] => none
    | m :: rest => some (s.ingestMail env lower call view fault m rest)
  | .die => some { s with inHand := [] }

end Mailroom

def mailroom (env : Env) (lower : String → String) : Machine Mailroom MailAction where
  init s := (preparation env).init s.world ∧ s.unseen = [] ∧ s.inHand = [] ∧ s.arrived = 0
  step := Mailroom.step env lower

/-! ## The property -/

def inWindow (w : World) (now : DateTime) : Bool :=
  (w.db.latestContent .publicationRecord).isSome &&
    (match w.db.case.bidsCloseAt with
      | some t => decide (now ≤ t)
      | none => true)

def isBidFor (caseId : Uuid) (m : InboundMail) : Bool :=
  match readMail m with
  | .bid id _ _ => id == caseId
  | _ => false

def handedInTime (es : List (Event Mailroom MailAction)) (m : InboundMail) : Bool :=
  es.any fun e =>
    match e.act with
    | .fetch now => inWindow e.pre.world now && isBidFor e.pre.world.db.case.id m &&
        e.pre.unseen.contains m
    | _ => false

def ItemOf (env : Env) (m : InboundMail) (item : Dict) : Prop :=
  ∃ caseId name bytes, readMail m = .bid caseId name bytes ∧
    item.getD "filename" .null = .str name ∧
    item.getD "content_hash" .null = .str (env.sha256 bytes) ∧
    item.getD "external_reference" .null = .str (strip ("email:" ++ m.messageId))

def RecordedIn (env : Env) (m : InboundMail) (e : Event Mailroom MailAction) : Prop :=
  e.pre.inHand.head? = some m ∧ ∃ item, ItemOf env m item ∧
    registerItems e.post.world.db = registerItems e.pre.world.db ++ [item]

/-- **The property**: every bid that was handed over in the window is still in
    hand, or was entered in the register, where it still is. -/
def BidsKept (env : Env) (es : List (Event Mailroom MailAction)) (s : Mailroom) : Prop :=
  ∀ m, handedInTime es m = true → m ∈ s.inHand ∨
    ∃ e ∈ es, RecordedIn env m e ∧ registerItems e.post.world.db <+: registerItems s.world.db

/-! ## The condition -/

def CaseState.acceptsBids (s : CaseState) : Bool := [published, receivingBids].contains s

/-- **The condition**: the mailroom comes to a timely bid without a fault, as
    somebody who may record it, while the case accepts bids; and no exception ends
    a poll that has a timely bid in hand. -/
def Served (es : List (Event Mailroom MailAction)) (e : Event Mailroom MailAction) : Prop :=
  match e.act with
  | .ingest call _ fault =>
    match e.pre.inHand with
    | [] => True
    | m :: rest =>
      if handedInTime es m = true then
        fault = none ∧ isAllowed call.context "tender.write" = true ∧
          e.pre.world.db.case.state.acceptsBids = true
      else
        (readMail m = .unparsable ∨ fault = some .raised) →
          rest.all (fun m => !handedInTime es m) = true
  | .die => e.pre.inHand.all (fun m => !handedInTime es m) = true
  | _ => True

/-! ## Recording a bid -/

section

variable {env : Env} {directory : Directory} {call : Call} {cmd : RecordSubmissionCommand}
  {db : CaseDb}

theorem recordSubmission_succeeds (hallowed : isAllowed call.context "tender.write" = true)
    (hstatus : cmd.receiptStatus = "on_time") (hstate : db.case.state.acceptsBids = true)
    (hfile : cmd.file.content ≠ "") :
    ∃ db', recordSubmission env directory call cmd db = .ok db' := by
  have haccepts : db.case.state = .published ∨ db.case.state = .receivingBids := by
    revert hstate
    cases db.case.state <;> decide
  have hcase : db.case.recordSubmission = .ok { db.case with
      state := .receivingBids, currentStep := "submissions", version := db.case.version + 1 } :=
    PreparationCase.recordSubmission_ok.mpr ⟨haccepts, rfl⟩
  simp only [recordSubmission, authorize, storeSourceDocument, ↓raiseIf_bind_ok, bind_ok]
  refine ⟨_, (), ?_, ?_, ?_, _, ⟨?_, rfl⟩, _, hcase, CaseDb.saveCase_ok.mpr ⟨?_, rfl⟩⟩
  · simpa using hallowed
  · rw [hstatus]
    decide
  · rcases haccepts with h | h <;> simp [h]
  · simpa using hfile
  · rw [CaseDb.send_case]
    rfl

end

/-! ## The invariant -/

section

variable {env : Env} {lower : String → String} {es : List (Event Mailroom MailAction)}
  {s s' : Mailroom} {a : MailAction}

structure MailInv (env : Env) (es : List (Event Mailroom MailAction)) (s : Mailroom) : Prop where
  kept : BidsKept env es s
  ours : ∀ m, handedInTime es m = true → isBidFor s.world.db.case.id m = true

theorem handedInTime_cons {e : Event Mailroom MailAction} {m : InboundMail}
    (h : handedInTime (e :: es) m = true) :
    handedInTime es m = true ∨ ∃ now, e.act = .fetch now ∧
      isBidFor e.pre.world.db.case.id m = true ∧ m ∈ e.pre.unseen := by
  unfold handedInTime at h ⊢
  rw [List.any_cons, Bool.or_eq_true] at h
  rcases h with h | h
  · right
    split at h
    · next now hact =>
      simp only [Bool.and_eq_true, List.contains_iff_mem] at h
      exact ⟨now, hact, h.1.2, h.2⟩
    · cases h
  · exact .inl h

theorem MailInv.next (h : MailInv env es s)
    (hid : s'.world.db.case.id = s.world.db.case.id)
    (hgrows : registerItems s.world.db <+: registerItems s'.world.db)
    (hfetch : ∀ now, a ≠ .fetch now)
    (hhand : ∀ m ∈ s.inHand, handedInTime es m = true →
      m ∈ s'.inHand ∨ RecordedIn env m ⟨s, a, s'⟩) :
    MailInv env (⟨s, a, s'⟩ :: es) s' := by
  have hbefore : ∀ m, handedInTime (⟨s, a, s'⟩ :: es) m = true → handedInTime es m = true := by
    intro m hm
    rcases handedInTime_cons hm with hm | ⟨now, hact, _⟩
    · exact hm
    · exact absurd hact (hfetch now)
  constructor
  · intro m hm
    have htimely := hbefore m hm
    rcases h.kept m htimely with hmem | ⟨e, he, hrecorded, hprefix⟩
    · rcases hhand m hmem htimely with hmem | hrecorded
      · exact .inl hmem
      · exact .inr ⟨_, List.mem_cons_self, hrecorded, List.prefix_refl _⟩
    · exact .inr ⟨e, List.mem_cons_of_mem _ he, hrecorded, hprefix.trans hgrows⟩
  · intro m hm
    rw [hid]
    exact h.ours m (hbefore m hm)

theorem ingestMail_world {call : Call} {view : Option (List PreparationArtifact)}
    {fault : Option IngestFault} {m : InboundMail} {rest : List InboundMail} :
    (s.ingestMail env lower call view fault m rest).world = s.world ∨
      ∃ cmd, s.world.step env (.handle call (.recordSubmission cmd)) =
        some (s.ingestMail env lower call view fault m rest).world := by
  unfold Mailroom.ingestMail
  split
  · exact .inl rfl
  · exact .inl rfl
  · split
    · exact .inl rfl
    · exact .inl rfl
    · split
      · split
        · next w hs => exact .inr ⟨_, hs⟩
        · exact .inl rfl
      · exact .inl rfl

theorem ingestMail_inHand {call : Call} {view : Option (List PreparationArtifact)}
    {fault : Option IngestFault} {m : InboundMail} {rest : List InboundMail} :
    (s.ingestMail env lower call view fault m rest).inHand = rest ∨
      ((readMail m = .unparsable ∨ fault = some .raised) ∧
        (s.ingestMail env lower call view fault m rest).inHand = []) := by
  unfold Mailroom.ingestMail
  split
  · exact .inl rfl
  · next hread => exact .inr ⟨.inl hread, rfl⟩
  · split
    · exact .inr ⟨.inr rfl, rfl⟩
    · exact .inl rfl
    · split
      · split <;> exact .inl rfl
      · exact .inl rfl

theorem ingestMail_records {call : Call} {view : Option (List PreparationArtifact)}
    {m : InboundMail} {rest : List InboundMail}
    (hbid : isBidFor s.world.db.case.id m = true)
    (hallowed : isAllowed call.context "tender.write" = true)
    (hstate : s.world.db.case.state.acceptsBids = true) :
    ∃ item, ItemOf env m item ∧
      registerItems (s.ingestMail env lower call view none m rest).world.db =
        registerItems s.world.db ++ [item] := by
  unfold isBidFor at hbid
  split at hbid
  · next caseId name bytes hread =>
    rw [beq_iff_eq] at hbid
    subst hbid
    have hcontent : (mailSubmission env lower view call.now m name bytes).file.content ≠ "" :=
      (readMail_bid hread).1
    obtain ⟨db, hrun⟩ := @recordSubmission_succeeds env s.world.directory call
      (mailSubmission env lower view call.now m name bytes) s.world.db hallowed rfl hstate hcontent
    have hs : s.world.step env (.handle call (.recordSubmission
        (mailSubmission env lower view call.now m name bytes))) =
        some { s.world with db := db } := by
      simp only [World.step, Handler.run, hrun]
    obtain ⟨document, hname, hhash, _, hitems⟩ := recordSubmission_rows hrun
    refine ⟨bidItem env call (mailSubmission env lower view call.now m name bytes) document,
      ⟨s.world.db.case.id, name, bytes, hread, ?_, ?_, rfl⟩, ?_⟩
    · show Json.str document.filename = .str name
      rw [hname]
      rfl
    · show Json.str document.contentHash = .str (env.sha256 bytes)
      rw [hhash]
      rfl
    · unfold Mailroom.ingestMail
      simp only [hread, if_true, hs]
      exact hitems
  · cases hbid

theorem MailInv.step (h : MailInv env es s) (hs : s.step env lower a = some s')
    (hok : Served es ⟨s, a, s'⟩) : MailInv env (⟨s, a, s'⟩ :: es) s' := by
  cases a with
  | prepare a =>
    simp only [Mailroom.step] at hs
    split at hs
    · next w hstep =>
      obtain rfl := Option.some.inj hs
      refine h.next (step_caseId hstep) (step_register_grows hstep) (fun _ hact => by cases hact) ?_
      exact fun m hmem _ => .inl hmem
    · cases hs
  | arrive m =>
    simp only [Mailroom.step] at hs
    split at hs
    · obtain rfl := Option.some.inj hs
      refine h.next rfl (List.prefix_refl _) (fun _ hact => by cases hact) ?_
      exact fun m hmem _ => .inl hmem
    · cases hs
  | fetch now =>
    simp only [Mailroom.step] at hs
    split at hs
    · next hidle =>
      obtain rfl := Option.some.inj hs
      constructor
      · intro m hm
        rcases handedInTime_cons hm with hm | ⟨_, _, _, hmem⟩
        · rcases h.kept m hm with hmem | ⟨e, he, hrecorded⟩
          · rw [hidle] at hmem
            cases hmem
          · exact .inr ⟨e, List.mem_cons_of_mem _ he, hrecorded⟩
        · exact .inl hmem
      · intro m hm
        rcases handedInTime_cons hm with hm | ⟨_, _, hbid, _⟩
        · exact h.ours m hm
        · exact hbid
    · cases hs
  | ingest call view fault =>
    simp only [Mailroom.step] at hs
    split at hs
    · cases hs
    · next m rest hhand =>
      obtain rfl := Option.some.inj hs
      have hgrows : registerItems s.world.db <+:
          registerItems (s.ingestMail env lower call view fault m rest).world.db := by
        rcases @ingestMail_world env lower s call view fault m rest with hw | ⟨cmd, hstep⟩
        · exact ⟨[], (List.append_nil _).trans (by rw [hw])⟩
        · exact step_register_grows hstep
      have hid : (s.ingestMail env lower call view fault m rest).world.db.case.id =
          s.world.db.case.id := by
        rcases @ingestMail_world env lower s call view fault m rest with hw | ⟨cmd, hstep⟩
        · rw [hw]
        · exact step_caseId hstep
      refine h.next hid hgrows (fun _ hact => by cases hact) ?_
      simp only [Served, hhand] at hok
      intro m' hmem htimely
      rw [hhand] at hmem
      by_cases hm : handedInTime es m = true
      · rw [if_pos hm] at hok
        obtain ⟨rfl, hallowed, hstate⟩ := hok
        have hread : readMail m ≠ .unparsable := by
          intro hread
          have hbid := h.ours m hm
          unfold isBidFor at hbid
          rw [hread] at hbid
          cases hbid
        have hrest : (s.ingestMail env lower call view none m rest).inHand = rest := by
          rcases @ingestMail_inHand env lower s call view none m rest with hrest | ⟨hends, _⟩
          · exact hrest
          · rcases hends with hends | hends
            · exact absurd hends hread
            · cases hends
        rcases List.mem_cons.mp hmem with rfl | hmem
        · -- the bid the poll has come to
          right
          refine ⟨by rw [hhand]; rfl, ?_⟩
          exact ingestMail_records (h.ours m' hm) hallowed hstate
        · left
          rw [hrest]
          exact hmem
      · rw [if_neg hm] at hok
        rcases List.mem_cons.mp hmem with rfl | hmem
        · exact absurd htimely hm
        · left
          rcases @ingestMail_inHand env lower s call view fault m rest with hrest | ⟨hends, _⟩
          · rw [hrest]
            exact hmem
          · -- the poll that ends had no timely bid left
            have hnone := hok hends
            rw [List.all_eq_true] at hnone
            have hlate := hnone m' hmem
            rw [htimely] at hlate
            cases hlate
  | die =>
    obtain rfl := Option.some.inj hs
    refine h.next rfl (List.prefix_refl _) (fun _ hact => by cases hact) ?_
    intro m hmem htimely
    have hnone : s.inHand.all (fun m => !handedInTime es m) = true := hok
    rw [List.all_eq_true] at hnone
    have hlate := hnone m hmem
    rw [htimely] at hlate
    cases hlate

theorem MailInv.initial : MailInv env [] s := by
  constructor <;> intro m hm <;> cases hm

end

/-- **Main theorem**: in every run whose steps meet the condition, every bid handed
    over in the window is in hand or in the register, in every state reached. -/
theorem bids_kept {env : Env} {lower : String → String} {es : List (Event Mailroom MailAction)}
    {s : Mailroom} (hrun : Exec (mailroom env lower) es s) (hok : Along Served es) :
    BidsKept env es s := by
  have hinv : Along (fun _ _ => True) es ∧ MailInv env es s :=
    hrun.along (fun _ _ => MailInv.initial) (fun _ _ _ _ h hs hok => ⟨trivial, h.step hs hok⟩) hok
  exact hinv.2.kept

namespace Office

def taggedCall : Call :=
  { call an with newId := fun n =>
      if n = 0 then { text := "0000000a-0000-0000-0000-000000000001" } else { text := "other" } }

def tagged : World :=
  { directory := directory
    db := match createCase env directory taggedCall request with
      | .ok db => db
      | .error _ => { case := { id := an, createdBy := an } } }

theorem tagged_init : (preparation env).init tagged := by
  have hok : (createCase env directory taggedCall request).isOk = true := by decide +kernel
  refine ⟨taggedCall, request, ?_, rfl, rfl, fun _ => rfl, rfl, rfl, rfl, rfl⟩
  show createCase env directory taggedCall request =
    .ok (match createCase env directory taggedCall request with
      | .ok db => db
      | .error _ => { case := { id := an, createdBy := an } })
  cases hcreate : createCase env directory taggedCall request with
  | error e =>
    rw [hcreate] at hok
    cases hok
  | ok db => rfl

def postbox : Mailroom := { world := tagged }

theorem postbox_init : (mailroom env id).init postbox := ⟨tagged_init, rfl, rfl, rfl⟩

def bidMail : InboundMail :=
  { number := 0, messageId := "<b1@minhlong>", sender := "minhlong@example"
    subject := "Re: [DW01:0000000a-0000-0000-0000-000000000001] mời thầu"
    attachmentName := some "bid.pdf", attachmentBytes := some "hồ sơ" }

def toPublished : List MailAction := (toOfficial (some 14) ++ [invite]).map .prepare

def bidOnTheFirstDay : List MailAction :=
  [.arrive bidMail, .fetch (days 1), .ingest (deskCall binh { text := "bid" }) none none]

def servedTest (es : List (Event Mailroom MailAction)) (e : Event Mailroom MailAction) : Bool :=
  match e.act with
  | .ingest call _ fault =>
    match e.pre.inHand with
    | [] => true
    | m :: rest =>
      if handedInTime es m then
        fault == none && isAllowed call.context "tender.write" &&
          e.pre.world.db.case.state.acceptsBids
      else !(readMail m == .unparsable || fault == some .raised) ||
        rest.all (fun m => !handedInTime es m)
  | .die => e.pre.inHand.all (fun m => !handedInTime es m)
  | _ => true

theorem served_of_test {es : List (Event Mailroom MailAction)} {e : Event Mailroom MailAction}
    (h : servedTest es e = true) : Served es e := by
  obtain ⟨pre, act, post⟩ := e
  cases act with
  | ingest call view fault =>
    simp only [servedTest] at h
    simp only [Served]
    split
    · trivial
    · next m rest hhand =>
      simp only [hhand] at h
      split
      · next hm =>
        rw [if_pos hm] at h
        simp only [Bool.and_eq_true, beq_iff_eq] at h
        exact ⟨h.1.1, h.1.2, h.2⟩
      · next hm =>
        rw [if_neg hm] at h
        intro hends
        simp only [Bool.or_eq_true, Bool.not_eq_true', Bool.or_eq_false_iff,
          beq_eq_false_iff_ne] at h
        rcases h with ⟨hread, hfault⟩ | hnone
        · rcases hends with hends | hends
          · exact absurd hends hread
          · exact absurd hends hfault
        · exact hnone
  | die => exact h
  | _ => trivial

theorem bid_entered : ∃ es s, Exec (mailroom env id) es s ∧ handedInTime es bidMail = true ∧
    (registerItems s.world.db).length = 1 ∧ BidsKept env es s := by
  have hruns : (mailroom env id).runs postbox (toPublished ++ bidOnTheFirstDay) (fun es s =>
      handedInTime es bidMail && (registerItems s.world.db).length == 1 &&
        decide (Along (fun es e => servedTest es e = true) es)) = true := by
    decide +kernel
  obtain ⟨es, s, hrun, htest⟩ := Machine.exec_of_runs postbox_init hruns
  simp only [Bool.and_eq_true, beq_iff_eq, decide_eq_true_eq] at htest
  obtain ⟨⟨hhanded, hitems⟩, hok⟩ := htest
  have hserved := hok.mono (fun _ _ => served_of_test)
  exact ⟨es, s, hrun, hhanded, hitems, bids_kept hrun hserved⟩

def bidDuringCp3 : List MailAction :=
  .prepare (.handle (call chi) (.submitAddendum
      { file := upload, changeSummary := "gia hạn", impactSummary := "" })) ::
    bidOnTheFirstDay ++
    [.prepare (.handle (call binh) (.decideCp3
      { approve := true, approvalReference := "CP3-1", comment := "" })), .fetch (days 2)]

/-- The bid was handed over on the first of fourteen days. The case accepts bids
    again, and the bid is neither in the register nor in the mailbox. -/
theorem bid_turned_away : ∃ es s, Exec (mailroom env id) es s ∧
    handedInTime es bidMail = true ∧ s.world.db.case.state = .published ∧ s.unseen = [] ∧
    s.inHand = [] ∧ registerItems s.world.db = [] ∧ ¬ BidsKept env es s := by
  have hruns : (mailroom env id).runs postbox (toPublished ++ bidDuringCp3) (fun es s =>
      handedInTime es bidMail && s.world.db.case.state == .published && s.unseen.isEmpty &&
        s.inHand.isEmpty && (registerItems s.world.db).isEmpty) = true := by
    decide +kernel
  obtain ⟨es, s, hrun, htest⟩ := Machine.exec_of_runs postbox_init hruns
  simp only [Bool.and_eq_true, beq_iff_eq, List.isEmpty_iff] at htest
  obtain ⟨⟨⟨⟨hhanded, hstate⟩, hunseen⟩, hhand⟩, hitems⟩ := htest
  refine ⟨es, s, hrun, hhanded, hstate, hunseen, hhand, hitems, ?_⟩
  intro hkept
  rcases hkept bidMail hhanded with hmem | ⟨e, _, ⟨_, item, _, hentered⟩, hprefix⟩
  · rw [hhand] at hmem
    cases hmem
  · rw [hitems, hentered, List.prefix_nil] at hprefix
    exact absurd hprefix (List.append_ne_nil_of_right_ne_nil _ (List.cons_ne_nil _ _))

end Office

end DigitalWorker
