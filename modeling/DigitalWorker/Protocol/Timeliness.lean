import DigitalWorker.Protocol.Mailroom

/-! # Whether a bid came in time

    On three ways the program itself records a bid: from a mail, from a message of
    the chat and from a file dropped in Slack. Each notes the moment it came to the
    bid and passes on a receipt status of its own. The case goes on meanwhile: it
    is published, its closing moment set and moved by addenda.
-/

namespace DigitalWorker

open Framework

/-! ## Three ways in -/

/-- `str.lower` and `%d/%m/%Y %H:%M`. -/
structure ReceiptForms where
  lower : String → String
  stamp : DateTime → String

structure SlackFile where
  id : String
  name : Option String
  size : Nat
  content : String
  deriving DecidableEq

def receiptText (forms : ReceiptForms) (supplier reference displayName : String)
    (now : DateTime) : String :=
  "# Biên nhận hồ sơ dự thầu\n\n" ++
    "- Nhà cung cấp: " ++ supplier ++ "\n" ++
    "- Tham chiếu: " ++ (if reference = "" then "—" else reference) ++ "\n" ++
    "- Thời điểm tiếp nhận: " ++ forms.stamp now ++ "\n" ++
    "- Ghi nhận bởi: " ++ displayName ++ " (qua Slack)\n"

/-- The submission of the intent `record_submission`; none without a supplier. -/
def chatSubmission (env : Env) (forms : ReceiptForms)
    (supplierName externalReference displayName : String) (now : DateTime) :
    Option RecordSubmissionCommand :=
  let supplier := strip supplierName
  let reference := strip externalReference
  if supplier = "" then none
  else some
    { file :=
        { filename := "submission-" ++ (forms.lower supplier).replace " " "-" ++ ".md"
          content := receiptText forms supplier reference displayName now }
      supplierName := supplier
      receivedAt := env.isoformat now
      receiptStatus := "on_time"
      externalReference := reference }

def slackSubmission (env : Env) (file : SlackFile) (supplier : String) (now : DateTime) :
    Option RecordSubmissionCommand :=
  if file.size > 10 * 1024 * 1024 then none
  else some
    { file :=
        { filename := match file.name with
            | some name => if name = "" then "ho-so-du-thau.bin" else name
            | none => "ho-so-du-thau.bin"
          content := file.content }
      supplierName := supplier
      receivedAt := env.isoformat now
      receiptStatus := "on_time"
      externalReference := "slack-file:" ++ file.id }

inductive BidReceipt where
  /-- A mail, and what `get_case` returned for it, if it did. -/
  | mail (m : InboundMail) (view : Option (List PreparationArtifact))
  | chat (supplierName externalReference displayName : String)
  /-- A file, and the supplier the upload was attributed to. -/
  | slackFile (file : SlackFile) (supplier : String)

def BidReceipt.submission (env : Env) (forms : ReceiptForms) (caseId : Uuid) (now : DateTime) :
    BidReceipt → Option RecordSubmissionCommand
  | .mail m view =>
    match readMail m with
    | .bid id name bytes =>
      if id = caseId then some (mailSubmission env forms.lower view now m name bytes) else none
    | _ => none
  | .chat supplierName externalReference displayName =>
    chatSubmission env forms supplierName externalReference displayName now
  | .slackFile file supplier => slackSubmission env file supplier now

/-! ## The case that receives bids -/

inductive ReceivingAction where
  /-- Anything else that happens to the case: its publication, an addendum, a bid
      somebody records by hand. -/
  | others (a : Action)
  /-- The program comes to a bid at `now`, and records it by the call. -/
  | receive (call : Call) (now : DateTime) (r : BidReceipt)

def receiveStep (env : Env) (forms : ReceiptForms) (w : World) : ReceivingAction → Option World
  | .others a => w.step env a
  | .receive call now r =>
    match r.submission env forms w.db.case.id now with
    | some cmd => w.step env (.handle call (.recordSubmission cmd))
    | none => none

def receiving (env : Env) (forms : ReceiptForms) : Machine World ReceivingAction where
  init := (preparation env).init
  step := receiveStep env forms

/-! ## The property -/

def timelinessOf (now closing : DateTime) : String := if now ≤ closing then "on_time" else "late"

/-- **The property** of an event: the entry a bid gains states the time of its
    receipt, and whether that is at or before the closing moment the case has. -/
def Timely (env : Env) (e : Event World ReceivingAction) : Prop :=
  ∀ call now r closing, e.act = .receive call now r →
    e.pre.db.case.bidsCloseAt = some closing →
    ∃ item, registerItems e.post.db = registerItems e.pre.db ++ [item] ∧
      item.getD "received_at" .null = .str (strip (env.isoformat now)) ∧
      item.getD "receipt_status" .null = .str (timelinessOf now closing)

/-- **The condition** on an event: the program does not come to a bid after the
    closing moment of the case. -/
def InTime (e : Event World ReceivingAction) : Prop :=
  ∀ call now r closing, e.act = .receive call now r →
    e.pre.db.case.bidsCloseAt = some closing → now ≤ closing

/-! ## What the three ways pass on -/

section

variable {env : Env} {forms : ReceiptForms}

/-- Each of the three notes its own clock, and none looks at the closing moment. -/
theorem BidReceipt.submission_status {caseId : Uuid} {now : DateTime} {r : BidReceipt}
    {cmd : RecordSubmissionCommand} (h : r.submission env forms caseId now = some cmd) :
    cmd.receivedAt = env.isoformat now ∧ cmd.receiptStatus = "on_time" := by
  cases r with
  | mail m view =>
    simp only [BidReceipt.submission] at h
    split at h
    · next id name bytes _ =>
      by_cases hid : id = caseId
      · rw [if_pos hid] at h
        obtain rfl := Option.some.inj h
        exact ⟨rfl, rfl⟩
      · rw [if_neg hid] at h
        cases h
    · cases h
  | chat supplierName externalReference displayName =>
    simp only [BidReceipt.submission, chatSubmission] at h
    by_cases hblank : strip supplierName = ""
    · rw [if_pos hblank] at h
      cases h
    · rw [if_neg hblank] at h
      obtain rfl := Option.some.inj h
      exact ⟨rfl, rfl⟩
  | slackFile file supplier =>
    simp only [BidReceipt.submission, slackSubmission] at h
    by_cases hsize : file.size > 10 * 1024 * 1024
    · rw [if_pos hsize] at h
      cases h
    · rw [if_neg hsize] at h
      obtain rfl := Option.some.inj h
      exact ⟨rfl, rfl⟩

/-- **Step lemma**: a received bid adds one entry, on time whatever the case says. -/
theorem receive_entry {w w' : World} {call : Call} {now : DateTime} {r : BidReceipt}
    (hs : (receiving env forms).step w (.receive call now r) = some w') :
    ∃ item, registerItems w'.db = registerItems w.db ++ [item] ∧
      item.getD "received_at" .null = .str (strip (env.isoformat now)) ∧
      item.getD "receipt_status" .null = .str "on_time" := by
  change receiveStep env forms w (.receive call now r) = some w' at hs
  simp only [receiveStep] at hs
  split at hs
  · next cmd hcmd =>
    obtain ⟨hreceived, hstatus⟩ := BidReceipt.submission_status hcmd
    obtain ⟨db, hrecorded, rfl⟩ := World.step_handle hs
    obtain ⟨document, _, _, _, hitems⟩ := recordSubmission_rows hrecorded
    refine ⟨_, hitems, ?_, ?_⟩
    · show Json.str (strip cmd.receivedAt) = _
      rw [hreceived]
    · show Json.str cmd.receiptStatus = _
      rw [hstatus]
  · cases hs

theorem step_timely_iff {w w' : World} {a : ReceivingAction}
    (hs : (receiving env forms).step w a = some w') :
    Timely env ⟨w, a, w'⟩ ↔ InTime ⟨w, a, w'⟩ := by
  constructor
  · intro htimely call now r closing hact hclosing
    obtain rfl : a = .receive call now r := hact
    obtain ⟨item, hitems, _, hstatus⟩ := htimely call now r closing rfl hclosing
    obtain ⟨entered, hentered, _, hontime⟩ := receive_entry hs
    -- the register grew once, so the two entries are one
    have hsame : [item] = [entered] := List.append_cancel_left (hitems.symm.trans hentered)
    obtain rfl : item = entered := List.singleton_inj.mp hsame
    rw [hontime] at hstatus
    have hcalls : timelinessOf now closing = "on_time" := (Json.str.inj hstatus).symm
    by_cases hlate : now ≤ closing
    · exact hlate
    · rw [timelinessOf, if_neg hlate] at hcalls
      exact absurd hcalls (by decide)
  · intro hintime call now r closing hact hclosing
    obtain rfl : a = .receive call now r := hact
    obtain ⟨item, hitems, hreceived, hontime⟩ := receive_entry hs
    have hle : now ≤ closing := hintime call now r closing rfl hclosing
    refine ⟨item, hitems, hreceived, ?_⟩
    rw [hontime, timelinessOf, if_pos hle]

end

/-- **Main theorem**: in every run of a case, whatever moves its closing moment and
    in whatever order, all the bids the program receives are entered with the
    status their receipt time calls for exactly when none of them is late. -/
theorem timely_iff {env : Env} {forms : ReceiptForms} {es : List (Event World ReceivingAction)}
    {w : World} (hrun : Exec (receiving env forms) es w) :
    (∀ e ∈ es, Timely env e) ↔ ∀ e ∈ es, InTime e := by
  induction hrun with
  | start _ => simp
  | snoc _ hs ih =>
    rw [List.forall_mem_cons, List.forall_mem_cons, ih, step_timely_iff hs]

namespace Office

def forms : ReceiptForms := { lower := id, stamp := fun now => toString now }

def toWindow : List ReceivingAction := (toOfficial (some 14) ++ [invite]).map .others

def mailedOn (day : Int) : ReceivingAction :=
  .receive (deskCall binh { text := "bid" }) (days day) (.mail bidMail none)

/-- `InTime`, to be evaluated. -/
def inTimeTest (e : Event World ReceivingAction) : Bool :=
  match e.act with
  | .receive _ now _ => e.pre.db.case.bidsCloseAt.all (fun closing => decide (now ≤ closing))
  | .others _ => true

theorem inTime_of_test {e : Event World ReceivingAction} (h : inTimeTest e = true) : InTime e := by
  intro call now r closing hact hclosing
  rw [inTimeTest, hact] at h
  simp only [hclosing, Option.all_some, decide_eq_true_eq] at h
  exact h

theorem receiving_init : (receiving env forms).init tagged := tagged_init

theorem early_mail_on_time : ∃ es w, Exec (receiving env forms) es w ∧
    (registerItems w.db).length = 1 ∧ ∀ e ∈ es, Timely env e := by
  have hruns : (receiving env forms).runs tagged (toWindow ++ [mailedOn 1]) (fun es w =>
      (registerItems w.db).length == 1 && es.all inTimeTest) = true := by
    decide +kernel
  obtain ⟨es, w, hrun, htest⟩ := Machine.exec_of_runs receiving_init hruns
  simp only [Bool.and_eq_true, beq_iff_eq, List.all_eq_true] at htest
  obtain ⟨hone, hintime⟩ := htest
  exact ⟨es, w, hrun, hone, (timely_iff hrun).mpr (fun e he => inTime_of_test (hintime e he))⟩

/-- The case closes after fourteen days; the mail is dealt with on the twentieth
    and entered as on time. -/
theorem late_mail_on_time : ∃ es w, Exec (receiving env forms) es w ∧
    ∃ e ∈ es, e.act = mailedOn 20 ∧ e.pre.db.case.bidsCloseAt = some (days 14) ∧
      ¬ Timely env e := by
  have hruns : (receiving env forms).runs tagged toWindow (fun _ w =>
      w.db.case.bidsCloseAt == some (days 14) &&
        ((receiving env forms).step w (mailedOn 20)).isSome) = true := by
    decide +kernel
  obtain ⟨es, w, hrun, htest⟩ := Machine.exec_of_runs receiving_init hruns
  simp only [Bool.and_eq_true, beq_iff_eq] at htest
  obtain ⟨hclosing, hreceived⟩ := htest
  obtain ⟨w', hs⟩ := Option.isSome_iff_exists.mp hreceived
  refine ⟨_, w', .snoc hrun hs, _, List.mem_cons_self, rfl, hclosing, ?_⟩
  intro htimely
  have hle : days 20 ≤ days 14 := (step_timely_iff hs).mp htimely _ _ _ _ rfl hclosing
  exact absurd hle (by decide)

end Office

end DigitalWorker
