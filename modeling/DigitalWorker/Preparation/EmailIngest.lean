import DigitalWorker.Preparation.Nodes
import DigitalWorker.Preparation.Tendering

/-! # Bids by email

    Suppliers answer the invitation, whose subject carries the tag of the case,
    with their bid attached. What a mail is read as is decided by its subject and
    its attachment alone; the supplier is attributed as well as possible.
-/

namespace DigitalWorker

/-- `InboundSubmissionEmail`. The number is the mail's own in the mailbox. -/
structure InboundMail where
  number : Nat
  messageId : String
  subject : String
  sender : String
  bodyText : String := ""
  attachmentName : Option String
  attachmentBytes : Option String
  deriving DecidableEq

/-! ## The case tag -/

/-- `[0-9a-fA-F-]`. -/
def isTagChar (c : Char) : Bool :=
  ('0' ≤ c && c ≤ '9') || ('a' ≤ c && c ≤ 'f') || ('A' ≤ c && c ≤ 'F') || c == '-'

def tagAt (cs : List Char) : Option String :=
  let held := (cs.drop 6).take 36
  if "[DW01:".toList.isPrefixOf cs && held.length == 36 && held.all isTagChar &&
      (cs.drop 42).head? == some ']' then some (String.ofList held)
  else none

/-- `_CASE_TAG.search(subject)`: the leftmost tag. -/
def caseTag (subject : String) : Option String := subject.toList.tails.findSome? tagAt

/-- `uuid.UUID(text)`: the hyphens do not count, and anything but 32 digits raises
    ValueError. -/
def parseUuid (text : String) : Option Uuid :=
  let hex := (text.toList.filter (· ≠ '-')).map Char.toLower
  let part (i n : Nat) := String.ofList ((hex.drop i).take n)
  let canonical := "-".intercalate [part 0 8, part 8 4, part 12 4, part 16 4, part 20 12]
  if h : hex.length = 32 ∧ canonical ≠ "" then some { text := canonical, nonempty := h.2 }
  else none

/-- What `poll_once` makes of a mail before it calls a handler. -/
inductive MailReading where
  /-- No tag, or no attachment: reported, and left. -/
  | skipped
  /-- The tag is no identifier; the exception ends the poll. -/
  | unparsable
  | bid (caseId : Uuid) (name bytes : String)
  deriving DecidableEq

def readMail (m : InboundMail) : MailReading :=
  match caseTag m.subject with
  | none => .skipped
  | some tag =>
    match m.attachmentBytes, m.attachmentName with
    | some bytes, some name =>
      if bytes = "" || name = "" then .skipped
      else
        match parseUuid tag with
        | some caseId => .bid caseId name bytes
        | none => .unparsable
    | _, _ => .skipped

def viewNames (env : Env) (artifacts : List PreparationArtifact) : List String :=
  (artifacts.filter (·.artifactType == .supplierShortlist)).flatMap fun a =>
    (dictItems (a.content.getD "shortlist" (.arr []))).map
      (fun item => (item.getD "name" (.str "")).pyStr env.repr)

/-- `_supplier_name`: the first shortlisted name the mail contains, else the name
    of its mailbox. `view` is what `get_case` returned, if it did; `lower` is
    `str.lower`. -/
def supplierName (env : Env) (lower : String → String)
    (view : Option (List PreparationArtifact)) (m : InboundMail) : String :=
  let haystack := lower (m.subject ++ "\n" ++ m.bodyText)
  match (viewNames env (view.getD [])).find?
      (fun name => name ≠ "" && containsText haystack (lower name)) with
  | some name => name
  | none =>
    let mailbox := strip (String.ofList (m.sender.toList.takeWhile (· ≠ '@')))
    (if mailbox = "" then "Nhà cung cấp (email)" else mailbox) ++ " (qua email)"

def mailSubmission (env : Env) (lower : String → String)
    (view : Option (List PreparationArtifact)) (now : DateTime) (m : InboundMail)
    (name bytes : String) : RecordSubmissionCommand :=
  { file := { filename := name, content := bytes }
    supplierName := supplierName env lower view m
    receivedAt := env.isoformat now
    receiptStatus := "on_time"
    externalReference := "email:" ++ m.messageId }

/-- A tag of a case, and the attachment of a bid. -/
example : readMail
    { number := 0, messageId := "m", sender := "ncc@example", attachmentName := some "bid.pdf"
      subject := "Re: [DW01:0000000A-0000-0000-0000-000000000001] mời thầu"
      attachmentBytes := some "hồ sơ" } =
    .bid { text := "0000000a-0000-0000-0000-000000000001" } "bid.pdf" "hồ sơ" := by
  decide +kernel

theorem readMail_bid {m : InboundMail} {caseId : Uuid} {name bytes : String}
    (h : readMail m = .bid caseId name bytes) : bytes ≠ "" ∧ name ≠ "" := by
  unfold readMail at h
  split at h
  · cases h
  · split at h
    · split at h
      · cases h
      · next hgiven =>
        simp only [Bool.or_eq_true, decide_eq_true_eq, not_or] at hgiven
        split at h
        · obtain ⟨_, rfl, rfl⟩ := MailReading.bid.inj h
          exact hgiven
        · cases h
    · cases h

end DigitalWorker
