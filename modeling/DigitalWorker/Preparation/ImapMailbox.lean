import DigitalWorker.Framework.Effects
import DigitalWorker.Preparation.EmailIngest
import Mathlib.Data.List.ReduceOption

/-! # The mailbox of the bids

    A fetch finds the unseen mails, reads them one after the other and marks each as
    seen, so that no later fetch meets it again. What it has read it hands over at
    its end: an exception on the way, from the connection or from a mail that cannot
    be decoded, leaves the marks and hands over nothing.
-/

namespace DigitalWorker

open Framework

inductive MailboxError where
  /-- `imaplib` raises, for a command or the connection. -/
  | connection
  /-- `HeaderParseError`, or what else the parser raises. -/
  | parse
  /-- `LookupError`: an unknown charset. -/
  | charset
  deriving DecidableEq

/-- A piece of a header, as `decode_header` gives it. -/
inductive HeaderChunk where
  | text (s : String)
  | bytes (raw : String) (charset : Option String)
  deriving DecidableEq

/-- A header: absent or empty, one that `decode_header` raises on, or its pieces. -/
inductive Header where
  | empty
  | broken
  | chunks (cs : List HeaderChunk)
  deriving DecidableEq

/-- A part of a message that `walk` comes to. -/
structure MailPart where
  multipart : Bool := false
  filename : Header := .empty
  /-- `get_payload(decode=True)`, where it is bytes. -/
  payload : Except MailboxError (Option String)
  contentType : String
  charset : Option String := none

/-- `message_from_bytes` of a mail. -/
structure RawMail where
  subject : Header
  /-- `parseaddr(message.get("From", ""))[1]`. -/
  sender : Except MailboxError String
  messageId : Header
  parts : List MailPart

/-- `InboundSubmissionEmail`, with the type of its attachment. -/
structure FetchedMail extends InboundMail where
  attachmentContentType : String := "application/octet-stream"
  deriving DecidableEq

/-- The charsets that Python knows, and how bytes are decoded in them. -/
abbrev Codec := String → Option (String → String)

/-! ## Reading a message -/

section

variable (codec : Codec)

/-- `bytes.decode(charset or "utf-8", errors="replace")`. -/
def decodeBytes (raw : String) (charset : Option String) : Except MailboxError String :=
  match codec (match charset with | some c => if c = "" then "utf-8" else c | none => "utf-8") with
  | some decode => .ok (decode raw)
  | none => .error .charset

def decodeChunk : HeaderChunk → Except MailboxError String
  | .text s => .ok s
  | .bytes raw charset => decodeBytes codec raw charset

/-- `_decode`. -/
def decodeHeader : Header → Except MailboxError String
  | .empty => .ok ""
  | .broken => .error .parse
  | .chunks cs => do
    let out ← cs.mapM (decodeChunk codec)
    return String.join out

structure Found where
  bodyText : String := ""
  attachmentName : Option String := none
  attachmentBytes : Option String := none
  attachmentType : String := "application/octet-stream"

def readPart (found : Found) (p : MailPart) : Except MailboxError Found := do
  if p.multipart then return found
  match ← p.payload with
  | none => return found
  | some payload =>
    if payload = "" then return found
    else if p.filename ≠ .empty && found.attachmentBytes.isNone then
      let name ← decodeHeader codec p.filename
      return { found with
        attachmentName := some name
        attachmentBytes := some payload
        attachmentType := p.contentType }
    else if p.contentType = "text/plain" && found.bodyText = "" then
      let text ← decodeBytes codec payload p.charset
      return { found with bodyText := text }
    else return found

/-- What becomes of the message with the number `num` once it is fetched. -/
def readMessage (num : Nat) (message : RawMail) : Except MailboxError FetchedMail := do
  let subject ← decodeHeader codec message.subject
  let sender ← message.sender
  let messageId ← decodeHeader codec message.messageId
  let found ← message.parts.foldlM (readPart codec) {}
  return {
    number := num
    messageId := if messageId = "" then "imap-" ++ toString num else messageId
    subject := subject
    sender := sender
    bodyText := found.bodyText
    attachmentName := found.attachmentName
    attachmentBytes := found.attachmentBytes
    attachmentContentType := found.attachmentType }

end

theorem readMessage_number {codec : Codec} {num : Nat} {message : RawMail} {mail : FetchedMail}
    (h : readMessage codec num message = .ok mail) : mail.number = num := by
  simp only [readMessage, bind_ok] at h
  obtain ⟨_, _, _, _, _, _, _, _, hret⟩ := h
  obtain rfl := Except.ok.inj hret
  rfl

/-! ## The conversation with the server -/

/-- The answer to `FETCH`. A connection that fails may do so after the server has
    marked the message. -/
inductive FetchReply where
  | failed (marked : Bool)
  /-- Not OK, or no message in it. -/
  | refused
  | got (message : RawMail)

/-- The answer to `STORE +FLAGS \Seen`. -/
inductive StoreReply where
  | done
  | refused
  | failed (marked : Bool)
  deriving DecidableEq

/-- The answer to `SEARCH`. -/
inductive SearchReply where
  | failed
  /-- Not OK, or empty. -/
  | refused
  | found (nums : List Nat)
  deriving DecidableEq

structure Connection where
  /-- The connection, the login and the choice of the folder succeed. -/
  opens : Bool := true
  search : SearchReply
  fetch : Nat → FetchReply
  store : Nat → StoreReply := fun _ => .done
  /-- The server marks a message that is fetched whole, as IMAP has it. -/
  fetchMarks : Bool := true
  /-- The logout at the end of the block raises nothing. -/
  closes : Bool := true

abbrev Imap (α : Type) := Program MailboxError (List Nat) α

def markWhen (cond : Bool) (num : Nat) : Imap Unit :=
  modify (fun seen => if cond then seen.insert num else seen)

variable (codec : Codec) (conn : Connection)

/-- One turn of the loop of `_fetch_sync`. -/
def fetchOne (num : Nat) : Imap (Option FetchedMail) :=
  match conn.fetch num with
  | .failed marked => do
    markWhen marked num
    throw .connection
  | .refused => pure none
  | .got message => do
    markWhen conn.fetchMarks num
    let mail ← fromExcept (readMessage codec num message)
    match conn.store num with
    | .done =>
      markWhen true num
      return some mail
    | .refused => return some mail
    | .failed marked =>
      markWhen marked num
      throw .connection

def fetchFound : Imap (List (Option FetchedMail)) :=
  match conn.search with
  | .failed => throw .connection
  | .refused => pure []
  | .found nums => forEach (fun _ num => fetchOne codec conn num) 0 nums

def fetchSync : Imap (List FetchedMail) := do
  raiseWhen (!conn.opens) .connection
  let results ← fetchFound codec conn
  raiseWhen (!conn.closes) .connection
  return results.reduceOption

/-! ## The property -/

namespace Connection

def found : List Nat :=
  match conn.search with
  | .found nums => nums
  | _ => []

def Sound : Prop :=
  conn.opens = true ∧ conn.search ≠ .failed ∧ conn.closes = true ∧
    ∀ num ∈ conn.found, (∀ marked, conn.fetch num ≠ .failed marked) ∧
      ∀ marked, conn.store num ≠ .failed marked

def Readable (num : Nat) : Prop :=
  num ∈ conn.found ∧ ∃ message mail, conn.fetch num = .got message ∧
    readMessage codec num message = .ok mail

end Connection

/-- **The property**: what is marked as seen is handed over, and a mail that cannot be
    decoded keeps no other from being handed over. -/
structure HandedOver : Prop where
  marked : Ends (fetchSync codec conn) []
    (fun mails seen => ∀ num ∈ seen, num ∈ mails.map (·.number)) (fun _ seen => seen = [])
  spared : conn.Sound → Ends (fetchSync codec conn) []
    (fun mails _ => ∀ num, conn.Readable codec num → num ∈ mails.map (·.number))
    (fun _ _ => ∀ num, ¬ conn.Readable codec num)

/-! ## What a turn of the loop does -/

def mailFault (num : Nat) : Option MailboxError :=
  match conn.fetch num with
  | .failed _ => some .connection
  | .refused => none
  | .got message =>
    match readMessage codec num message with
    | .error e => some e
    | .ok _ =>
      match conn.store num with
      | .failed _ => some .connection
      | _ => none

def marksSeen (num : Nat) : Bool :=
  match conn.fetch num with
  | .failed marked => marked
  | .refused => false
  | .got message => conn.fetchMarks || (readMessage codec num message).isOk &&
      (match conn.store num with
      | .done => true
      | .refused => false
      | .failed marked => marked)

def mailOf (num : Nat) : Option FetchedMail :=
  match conn.fetch num with
  | .got message => (readMessage codec num message).toOption
  | _ => none

def noteSeen (seen : List Nat) (num : Nat) : List Nat :=
  if marksSeen codec conn num then seen.insert num else seen

variable {codec conn} {num : Nat} {seen : List Nat}

theorem fetchOne_eq : fetchOne codec conn num seen =
    match mailFault codec conn num with
    | some e => .error e (noteSeen codec conn seen num)
    | none => .ok (mailOf codec conn num) (noteSeen codec conn seen num) := by
  -- a mail marked when it was fetched is marked again, to no effect
  have htwice : ∀ marked, (if marked = true then (seen.insert num).insert num
      else seen.insert num) = seen.insert num := by
    intro marked
    split
    · exact List.insert_of_mem List.mem_insert_self
    · rfl
  cases hfetch : conn.fetch num with
  | failed marked =>
    simp only [fetchOne, mailFault, noteSeen, marksSeen, hfetch]
    rfl
  | refused =>
    simp only [fetchOne, mailFault, noteSeen, marksSeen, mailOf, hfetch]
    rfl
  | got message =>
    cases hread : readMessage codec num message with
    | error e =>
      simp only [fetchOne, mailFault, noteSeen, marksSeen, hfetch, hread]
      cases conn.fetchMarks with
      | false => rfl
      | true => rfl
    | ok mail =>
      simp only [fetchOne, mailFault, noteSeen, marksSeen, mailOf, hfetch, hread]
      cases conn.fetchMarks with
      | false => cases conn.store num <;> rfl
      | true =>
        cases conn.store num with
        | done => exact congrArg _ (htwice true)
        | refused => rfl
        | failed marked => exact congrArg _ (htwice marked)

theorem mailOf_got {message : RawMail} {mail : FetchedMail}
    (hfetch : conn.fetch num = .got message) (hread : readMessage codec num message = .ok mail) :
    mailOf codec conn num = some mail := by
  simp only [mailOf, hfetch, hread]
  rfl

theorem mailOf_of_marks (hmarks : marksSeen codec conn num = true)
    (hfault : mailFault codec conn num = none) :
    ∃ mail, mailOf codec conn num = some mail ∧ mail.number = num := by
  unfold marksSeen at hmarks
  unfold mailFault at hfault
  cases hfetch : conn.fetch num with
  | failed marked =>
    simp only [hfetch] at hfault
    cases hfault
  | refused =>
    simp only [hfetch] at hmarks
    cases hmarks
  | got message =>
    cases hread : readMessage codec num message with
    | error e =>
      simp only [hfetch, hread] at hfault
      cases hfault
    | ok mail => exact ⟨mail, mailOf_got hfetch hread, readMessage_number hread⟩

theorem mailOf_of_readable (h : conn.Readable codec num) :
    ∃ mail, mailOf codec conn num = some mail ∧ mail.number = num := by
  obtain ⟨_, message, mail, hfetch, hread⟩ := h
  exact ⟨mail, mailOf_got hfetch hread, readMessage_number hread⟩

/-! ## What a fetch does -/

variable (codec conn)

def mailsTried : List Nat := (tryAll (mailFault codec conn) conn.found).1

def loopFault : Option MailboxError := (tryAll (mailFault codec conn) conn.found).2

def seenAfter : List Nat :=
  (mailsTried codec conn).foldl (noteSeen codec conn) []

variable {codec conn}

theorem loopFault_none (h : loopFault codec conn = none) :
    mailsTried codec conn = conn.found ∧ ∀ num ∈ conn.found, mailFault codec conn num = none := by
  unfold loopFault at h
  unfold mailsTried
  rcases tryAll_cases (mailFault codec conn) conn.found with
    ⟨_, _, _, e, _, _, _, htry⟩ | ⟨hnone, htry⟩
  · rw [htry] at h
    cases h
  · rw [htry]
    exact ⟨rfl, hnone⟩

theorem loopFault_some {e : MailboxError} (h : loopFault codec conn = some e) :
    ¬ ∀ num ∈ conn.found, mailFault codec conn num = none := by
  intro hall
  unfold loopFault at h
  rcases tryAll_cases (mailFault codec conn) conn.found with
    ⟨pre, num, post, _, hsplit, _, hfault, _⟩ | ⟨_, htry⟩
  · have hmem : num ∈ conn.found := by
      rw [hsplit]
      exact List.mem_append_right _ List.mem_cons_self
    rw [hall num hmem] at hfault
    cases hfault
  · rw [htry] at h
    cases h

theorem mem_foldl_noteSeen {nums start : List Nat} :
    num ∈ nums.foldl (noteSeen codec conn) start ↔
      num ∈ start ∨ (num ∈ nums ∧ marksSeen codec conn num = true) := by
  induction nums generalizing start with
  | nil => simp
  | cons x nums ih =>
    rw [List.foldl_cons, ih, List.mem_cons, noteSeen]
    by_cases hx : marksSeen codec conn x = true
    · rw [if_pos hx, List.mem_insert_iff]
      constructor
      · rintro ((rfl | h) | ⟨h, hm⟩)
        · exact Or.inr ⟨Or.inl rfl, hx⟩
        · exact Or.inl h
        · exact Or.inr ⟨Or.inr h, hm⟩
      · rintro (h | ⟨rfl | h, hm⟩)
        · exact Or.inl (Or.inr h)
        · exact Or.inl (Or.inl rfl)
        · exact Or.inr ⟨h, hm⟩
    · rw [if_neg hx]
      constructor
      · rintro (h | ⟨h, hm⟩)
        · exact Or.inl h
        · exact Or.inr ⟨Or.inr h, hm⟩
      · rintro (h | ⟨rfl | h, hm⟩)
        · exact Or.inl h
        · exact absurd hm hx
        · exact Or.inr ⟨h, hm⟩

theorem mem_seenAfter : num ∈ seenAfter codec conn ↔
    num ∈ mailsTried codec conn ∧ marksSeen codec conn num = true := by
  unfold seenAfter
  rw [mem_foldl_noteSeen]
  simp

theorem seenAfter_eq_nil : seenAfter codec conn = [] ↔
    ∀ num ∈ mailsTried codec conn, marksSeen codec conn num = false := by
  rw [List.eq_nil_iff_forall_not_mem]
  constructor
  · intro h num hnum
    exact Bool.eq_false_iff.mpr (fun hmarks => h num (mem_seenAfter.mpr ⟨hnum, hmarks⟩))
  · intro h num hseen
    obtain ⟨hnum, hmarks⟩ := mem_seenAfter.mp hseen
    rw [h num hnum] at hmarks
    cases hmarks

theorem fetchFound_eq (hsearch : conn.search ≠ .failed) :
    fetchFound codec conn [] =
      match loopFault codec conn with
      | some e => .error e (seenAfter codec conn)
      | none => .ok (conn.found.map (mailOf codec conn)) (seenAfter codec conn) := by
  unfold fetchFound loopFault seenAfter mailsTried
  cases hfound : conn.search with
  | failed => exact absurd hfound hsearch
  | refused =>
    unfold Connection.found
    rw [hfound]
    rfl
  | found nums =>
    have hnums : conn.found = nums := by
      unfold Connection.found
      rw [hfound]
    rw [hnums]
    show forEach (fun _ num => fetchOne codec conn num) 0 nums [] = _
    rw [@forEach_tried _ _ _ _ (fun _ num => fetchOne codec conn num) (mailFault codec conn)
      (mailOf codec conn) (noteSeen codec conn)]
    · cases (tryAll (mailFault codec conn) nums).2 with
      | some e => rfl
      | none => rfl
    · intro _ num seen e hfault
      rw [fetchOne_eq, hfault]
    · intro _ num seen hfault
      rw [fetchOne_eq, hfault]

theorem fetchSync_eq (hopens : conn.opens = true) (hsearch : conn.search ≠ .failed) :
    fetchSync codec conn [] =
      match loopFault codec conn with
      | some e => .error e (seenAfter codec conn)
      | none =>
        if conn.closes then .ok (conn.found.filterMap (mailOf codec conn)) (seenAfter codec conn)
        else .error .connection (seenAfter codec conn) := by
  unfold fetchSync
  rw [hopens]
  show EStateM.bind (fetchFound codec conn) _ [] = _
  unfold EStateM.bind
  rw [fetchFound_eq hsearch]
  cases loopFault codec conn with
  | some e => rfl
  | none =>
    cases conn.closes with
    | false => rfl
    | true =>
      show EStateM.Result.ok (conn.found.map (mailOf codec conn)).reduceOption _ = _
      rw [List.reduceOption, List.filterMap_map]
      rfl

theorem fetchSync_early (h : conn.opens = false ∨ conn.search = .failed) :
    fetchSync codec conn [] = .error .connection [] := by
  unfold fetchSync
  cases hopens : conn.opens with
  | false => rfl
  | true =>
    rcases h with h | h
    · rw [hopens] at h
      cases h
    · show EStateM.bind (fetchFound codec conn) _ [] = _
      unfold fetchFound
      rw [h]
      rfl

/-! ## The property, exactly -/

variable (codec conn) in
/-- No exception ends the fetch; or none of the mails up to the first exception is
    marked. And if it is no command that fails, then all mails can be read or none. -/
structure Harmless : Prop where
  marked : conn.opens = true →
    (conn.closes = true ∧ ∀ num ∈ conn.found, mailFault codec conn num = none) ∨
      ∀ num ∈ mailsTried codec conn, marksSeen codec conn num = false
  spared : conn.Sound → (∀ num ∈ conn.found, mailFault codec conn num = none) ∨
    ∀ num, ¬ conn.Readable codec num

theorem number_mem {mail : FetchedMail} (hmem : num ∈ conn.found)
    (hmail : mailOf codec conn num = some mail) (hnumber : mail.number = num) :
    num ∈ (conn.found.filterMap (mailOf codec conn)).map (·.number) := by
  rw [List.mem_map]
  exact ⟨mail, List.mem_filterMap.mpr ⟨num, hmem, hmail⟩, hnumber⟩

theorem marked_iff : Ends (fetchSync codec conn) []
      (fun mails seen => ∀ num ∈ seen, num ∈ mails.map (·.number)) (fun _ seen => seen = []) ↔
    (conn.opens = true →
      (conn.closes = true ∧ ∀ num ∈ conn.found, mailFault codec conn num = none) ∨
        ∀ num ∈ mailsTried codec conn, marksSeen codec conn num = false) := by
  unfold Ends
  by_cases hearly : conn.opens = false ∨ conn.search = .failed
  · rw [fetchSync_early hearly]
    refine iff_of_true rfl (fun hopens => Or.inr ?_)
    rcases hearly with h | h
    · rw [hopens] at h
      cases h
    · -- nothing was found
      intro num hnum
      unfold mailsTried Connection.found at hnum
      rw [h] at hnum
      cases hnum
  · rw [not_or, Bool.not_eq_false] at hearly
    obtain ⟨hopens, hsearch⟩ := hearly
    rw [fetchSync_eq hopens hsearch, ← seenAfter_eq_nil]
    cases hfault : loopFault codec conn with
    | some e =>
      constructor
      · intro h _
        exact Or.inr h
      · intro h
        rcases h hopens with ⟨_, hall⟩ | hnone
        · exact absurd hall (loopFault_some hfault)
        · exact hnone
    | none =>
      obtain ⟨htried, hall⟩ := loopFault_none hfault
      cases hcloses : conn.closes with
      | false =>
        constructor
        · intro h _
          exact Or.inr h
        · intro h
          rcases h hopens with ⟨habsurd, _⟩ | hnone
          · cases habsurd
          · exact hnone
      | true =>
        refine iff_of_true ?_ (fun _ => Or.inl ⟨rfl, hall⟩)
        intro num hnum
        obtain ⟨hmem, hmarks⟩ := mem_seenAfter.mp hnum
        rw [htried] at hmem
        obtain ⟨mail, hmail, hnumber⟩ := mailOf_of_marks hmarks (hall num hmem)
        exact number_mem hmem hmail hnumber

theorem spared_iff (hsound : conn.Sound) : Ends (fetchSync codec conn) []
      (fun mails _ => ∀ num, conn.Readable codec num → num ∈ mails.map (·.number))
      (fun _ _ => ∀ num, ¬ conn.Readable codec num) ↔
    ((∀ num ∈ conn.found, mailFault codec conn num = none) ∨
      ∀ num, ¬ conn.Readable codec num) := by
  obtain ⟨hopens, hsearch, hcloses, _⟩ := hsound
  unfold Ends
  rw [fetchSync_eq hopens hsearch, hcloses]
  cases hfault : loopFault codec conn with
  | some e =>
    constructor
    · intro h
      exact Or.inr h
    · intro h
      rcases h with hall | hnone
      · exact absurd hall (loopFault_some hfault)
      · exact hnone
  | none =>
    refine iff_of_true ?_ (Or.inl (loopFault_none hfault).2)
    intro num hreadable
    obtain ⟨mail, hmail, hnumber⟩ := mailOf_of_readable hreadable
    exact number_mem hreadable.1 hmail hnumber

/-- **Exactly when what is marked is handed over**, and no mail costs another one. -/
theorem handedOver_iff : HandedOver codec conn ↔ Harmless codec conn := by
  constructor
  · intro h
    exact ⟨marked_iff.mp h.marked, fun hsound => (spared_iff hsound).mp (h.spared hsound)⟩
  · intro h
    exact ⟨marked_iff.mpr h.marked, fun hsound => (spared_iff hsound).mpr (h.spared hsound)⟩

/-! ## A charset nobody knows -/

namespace Sample

def onlyUtf8 : Codec := fun charset => if charset = "utf-8" then some id else none

def plainBid : RawMail :=
  { subject := .chunks [.text "Re: [DW01:case] hồ sơ"], sender := .ok "ncc@example"
    messageId := .chunks [.text "m-1"]
    parts := [{ filename := .chunks [.text "bid.pdf"], payload := .ok (some "%PDF")
                contentType := "application/pdf" }] }

def oddCharset : RawMail :=
  { subject := .chunks [.text "[DW01:case] ", .bytes "bid" (some "x-none")]
    sender := .ok "ncc@example", messageId := .chunks [.text "m-2"], parts := [] }

def bidThenOdd : Connection :=
  { search := .found [1, 2]
    fetch := fun num => if num = 1 then .got plainBid else .got oddCharset }

end Sample

/-- The bid is marked as seen, and the fetch hands over nothing. -/
theorem handedOver_breaks : finalState (fetchSync Sample.onlyUtf8 Sample.bidThenOdd) [] ≠ [] ∧
    ¬ HandedOver Sample.onlyUtf8 Sample.bidThenOdd := by
  have hfault : loopFault Sample.onlyUtf8 Sample.bidThenOdd = some .charset := by decide +kernel
  have hseen : 1 ∈ seenAfter Sample.onlyUtf8 Sample.bidThenOdd := by decide +kernel
  have hsearch : Sample.bidThenOdd.search ≠ .failed := by decide
  have hends : fetchSync Sample.onlyUtf8 Sample.bidThenOdd [] =
      .error .charset (seenAfter Sample.onlyUtf8 Sample.bidThenOdd) := by
    rw [fetchSync_eq rfl hsearch, hfault]
  constructor
  · unfold finalState
    rw [hends]
    exact List.ne_nil_of_mem hseen
  · intro h
    have hmarked := h.marked
    unfold Ends at hmarked
    rw [hends] at hmarked
    exact List.ne_nil_of_mem hseen hmarked

end DigitalWorker
