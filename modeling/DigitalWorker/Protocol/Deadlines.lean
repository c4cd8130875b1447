import DigitalWorker.Framework.Calendar
import DigitalWorker.Protocol.FourEyes

/-! # The deadline suppliers are told

    Two emails state when bids close: the invitation, in days after its issue,
    and the notice of an approved addendum, as a date and time. The register
    closes at `bids_close_at`, which publication sets from the window of the
    approach and an approved addendum moves.
-/

namespace DigitalWorker

open Framework

/-! ## What the emails state -/

inductive StatedClosing where
  | daysAfterIssue (n : Int)
  | vietnamTime (clock : Clock)
  deriving DecidableEq

/-- A number of two digits, as `strftime` prints it. -/
def twoDigits (n : Int) : String := if n < 10 then "0" ++ toString n else toString n

/-- `%d/%m/%Y %H:%M`. -/
def clockText (c : Clock) : String :=
  twoDigits c.date.day ++ "/" ++ twoDigits c.date.month ++ "/" ++ toString c.date.year ++ " " ++
    twoDigits c.hour ++ ":" ++ twoDigits c.minute

def StatedClosing.line : StatedClosing → String
  | .daysAfterIssue n =>
    "Thời hạn nộp hồ sơ: trong vòng " ++ toString n ++ " ngày kể từ ngày phát hành."
  | .vietnamTime clock => "## Hạn nộp hồ sơ dự thầu\n" ++ clockText clock ++ " (giờ VN)"

def rfqClosing : StatedClosing := .daysAfterIssue 14

/-- `_build_rfq_email_body`. -/
def rfqEmailBody (env : Env) (case : PreparationCase) (package : Dict) : String :=
  let scope := strip ((package.getD "scope" (.str "")).pyStr env.repr)
  let requirements := match package.getD "requirements" (.arr []) with
    | .arr items => items.map (fun r => "- " ++ r.pyStr env.repr)
    | _ => []
  "\n".intercalate (["Kính gửi Quý nhà cung cấp,", "",
    "Công ty trân trọng mời Quý đơn vị tham gia chào giá cho gói: " ++ case.title ++ ".",
    "Mã tham chiếu: " ++ (if case.sourcePrRef = "" then "—" else case.sourcePrRef) ++ ".", "",
    "PHẠM VI CUNG CẤP:", if scope = "" then "(theo hồ sơ mời thầu đính kèm)" else scope, "",
    "YÊU CẦU KỸ THUẬT CHÍNH:"] ++
    (if requirements.isEmpty then ["- (theo hồ sơ mời thầu đính kèm)"] else requirements) ++
    ["", rfqClosing.line, "Đề nghị Quý đơn vị gửi báo giá theo biểu mẫu đính kèm.", "",
      "Trân trọng,", "Phòng Mua sắm."])

def addendumClosing (case : PreparationCase) : Option StatedClosing :=
  case.bidsCloseAt.map (fun t => .vietnamTime (clockAt t))

/-- `_build_addendum_email_body`. -/
def addendumEmailBody (case : PreparationCase) (change impact : String) : String :=
  "\n".intercalate (["Kính gửi Quý nhà cung cấp,", "",
    "Bên mời thầu thông báo SỬA ĐỔI hồ sơ mời thầu gói: " ++ case.title ++ ".", "",
    "## Nội dung sửa đổi", if change = "" then "(không nêu)" else change] ++
    (if impact = "" then [] else ["", "## Ảnh hưởng", impact]) ++
    (match addendumClosing case with
      | some stated => ["", stated.line]
      | none => []) ++
    ["", "Sửa đổi này là một phần không tách rời của hồ sơ mời thầu. " ++
      "Đề nghị Quý nhà cung cấp cập nhật hồ sơ dự thầu theo nội dung trên.", "",
      "Trân trọng,", "Bên mời thầu"])

def vietnamOffset : Int := 7 * 60 * minuteSpan

def StatedClosing.Denotes (issuedAt : DateTime) (t : DateTime) : StatedClosing → Prop
  | .daysAfterIssue n => t = issuedAt + days n
  | .vietnamTime clock => clockAt (t + vietnamOffset) = clock

theorem not_denotes_utc {issuedAt t t' : DateTime} (h : t ≤ t') :
    ¬ StatedClosing.Denotes issuedAt t' (.vietnamTime (clockAt t)) := by
  intro hdenotes
  have hminute : (t' + vietnamOffset) / minuteSpan = t / minuteSpan :=
    clockAt_eq_iff.mp hdenotes
  unfold vietnamOffset minuteSpan at hminute
  unfold DateTime at *
  omega

/-! ## What the register enforces -/

theorem days_injective {m n : Int} (h : days m = days n) : m = n := by
  unfold days at h
  omega

theorem bidsCloseAtOf_eq_days {db : CaseDb} {publishedAt : DateTime} {n : Int} (hn : 0 < n) :
    bidsCloseAtOf db publishedAt = some (publishedAt + days n) ↔ appliedWindow db = some n := by
  rw [bidsCloseAtOf_eq]
  cases hwindow : appliedWindow db with
  | none => simp
  | some m =>
    simp only [Option.some.injEq]
    constructor
    · intro h
      split at h
      · have hdays : publishedAt + days m = publishedAt + days n := Option.some.inj h
        exact days_injective (by unfold DateTime at *; omega)
      · cases h
    · rintro rfl
      rw [if_pos hn]

section

variable {env : Env} {directory : Directory} {call : Call} {db db' : CaseDb}

theorem autoPublish_closing {sent : Delivery}
    (h : autoPublish env directory call sent db = .ok db') :
    db'.case.bidsCloseAt = bidsCloseAtOf db call.now := by
  simp only [autoPublish, authorize, ↓raiseIf_bind_ok, bind_ok] at h
  obtain ⟨_, _, _, document, _, case, hcase, hsave⟩ := h
  obtain ⟨_, rfl⟩ := CaseDb.saveCase_ok.mp hsave
  obtain ⟨_, rfl⟩ := PreparationCase.recordPublication_ok.mp hcase
  rfl

theorem recordPublication_closing {cmd : RecordPublicationCommand}
    (h : recordPublication env call cmd db = .ok db') :
    db'.case.bidsCloseAt = bidsCloseAtOf db call.now := by
  simp only [recordPublication, authorize, ↓raiseIf_bind_ok, bind_ok] at h
  obtain ⟨_, _, _, _, document, _, case, hcase, hsave⟩ := h
  obtain ⟨_, rfl⟩ := CaseDb.saveCase_ok.mp hsave
  obtain ⟨_, rfl⟩ := PreparationCase.recordPublication_ok.mp hcase
  rfl

theorem decideCp3_closing {cmd : DecideCp3Command} (h : decideCp3 env call cmd db = .ok db') :
    (db.case.bidsCloseAt = none → db'.case.bidsCloseAt = none) ∧
      ∀ t, db.case.bidsCloseAt = some t → ∃ t', db'.case.bidsCloseAt = some t' ∧ t ≤ t' := by
  obtain ⟨_, ⟨extension, hcase⟩, _⟩ := decideCp3_ok h
  obtain ⟨_, hcase⟩ := PreparationCase.resolveCp3_ok.mp hcase
  rw [hcase]
  constructor
  · intro hnone
    show (if 0 < extension then db.case.bidsCloseAt.map (· + days extension)
      else db.case.bidsCloseAt) = none
    rw [hnone]
    split <;> rfl
  · intro t ht
    show ∃ t', (if 0 < extension then db.case.bidsCloseAt.map (· + days extension)
      else db.case.bidsCloseAt) = some t' ∧ t ≤ t'
    rw [ht]
    by_cases hpos : 0 < extension
    · have := days_pos hpos
      refine ⟨t + days extension, by rw [if_pos hpos]; rfl, ?_⟩
      unfold DateTime at *
      omega
    · exact ⟨t, by rw [if_neg hpos], Int.le_refl t⟩

end

/-! ## Runs -/

def closingStated (db : CaseDb) : Handler → Option StatedClosing
  | .autoPublish _ => some rfqClosing
  | .decideCp3 cmd => if cmd.approve && cmd.sent.isSome then addendumClosing db.case else none
  | _ => none

def ClosingAgrees (e : Event World Action) : Prop :=
  ∀ call h, e.act = .handle call h → ∀ stated, closingStated e.pre.db h = some stated →
    ∃ t, e.post.db.case.bidsCloseAt = some t ∧ stated.Denotes call.now t

def ClosingAsStated (e : Event World Action) : Prop :=
  (∀ call sent, e.act = .handle call (.autoPublish sent) → appliedWindow e.pre.db = some 14) ∧
    ∀ call cmd, e.act = .handle call (.decideCp3 cmd) → cmd.approve = true →
      cmd.sent.isSome = true → e.pre.db.case.bidsCloseAt = none

/-- **Step**: an email agrees with the register in these cases only. -/
theorem closingAgrees_step {env : Env} {e : Event World Action}
    (hs : e.pre.step env e.act = some e.post) : ClosingAgrees e ↔ ClosingAsStated e := by
  obtain ⟨pre, act, post⟩ := e
  have hhandle : ∀ call h, act = .handle call h →
      h.run env pre.directory call pre.db = .ok post.db := by
    rintro call h rfl
    simp only [World.step] at hs
    split at hs
    · next db hdb =>
      obtain rfl := Option.some.inj hs
      exact hdb
    · cases hs
  constructor
  · intro hagrees
    constructor
    · rintro call sent rfl
      obtain ⟨t, ht, hdenotes⟩ := hagrees call _ rfl rfqClosing rfl
      have hclosing := autoPublish_closing (hhandle call _ rfl)
      have hdenotes : t = call.now + days 14 := hdenotes
      show appliedWindow pre.db = some 14
      rw [← @bidsCloseAtOf_eq_days pre.db call.now 14 (by decide), ← hclosing, ← hdenotes]
      exact ht
    · rintro call cmd rfl happrove hsent
      show pre.db.case.bidsCloseAt = none
      cases hclose : pre.db.case.bidsCloseAt with
      | none => rfl
      | some t =>
        -- the notice was written with the closing moment the decision then moves
        have hstated : closingStated pre.db (.decideCp3 cmd) =
            some (.vietnamTime (clockAt t)) := by
          simp [closingStated, happrove, hsent, addendumClosing, hclose]
        obtain ⟨t', ht', hdenotes⟩ := hagrees call _ rfl _ hstated
        obtain ⟨_, hlater⟩ := decideCp3_closing (hhandle call _ rfl)
        obtain ⟨t'', ht'', hle⟩ := hlater t hclose
        obtain rfl : t' = t'' := Option.some.inj (ht'.symm.trans ht'')
        exact absurd hdenotes (not_denotes_utc hle)
  · rintro ⟨hrfq, haddendum⟩ call h rfl stated hstated
    cases h with
    | autoPublish sent =>
      obtain rfl := Option.some.inj hstated
      have hclosing := autoPublish_closing (hhandle call _ rfl)
      refine ⟨call.now + days 14, ?_, rfl⟩
      show post.db.case.bidsCloseAt = some (call.now + days 14)
      rw [hclosing]
      exact (bidsCloseAtOf_eq_days (by decide)).mpr (hrfq call sent rfl)
    | decideCp3 cmd =>
      simp only [closingStated] at hstated
      split at hstated
      · next hsends =>
        rw [Bool.and_eq_true] at hsends
        have hnone : pre.db.case.bidsCloseAt = none := haddendum call cmd rfl hsends.1 hsends.2
        simp [addendumClosing, hnone] at hstated
      · cases hstated
    | _ => cases hstated

/-- **The deadline suppliers are told** is the one the register enforces, in a
    run of the protocol, if and only if every invitation goes out with a window
    of fourteen days and every notice for a case without a closing moment. -/
theorem closing_stated_iff {env : Env} {es : List (Event World Action)} {w : World}
    (h : Exec (preparation env) es w) :
    (∀ e ∈ es, ClosingAgrees e) ↔ ∀ e ∈ es, ClosingAsStated e := by
  have hevents := h.pre_invariant (fun _ _ => trivial)
    (fun _ _ _ (_ : True) _ => trivial)
  constructor
  · intro hagrees e he
    exact (closingAgrees_step (hevents e he).2).mp (hagrees e he)
  · intro hstated e he
    exact (closingAgrees_step (hevents e he).2).mpr (hstated e he)

namespace Office

def legalInput (legalMin : Option Int) : NodeInput := { nodeInput with legalMin := legalMin }

def toOfficial (legalMin : Option Int) : List Action :=
  let inp := legalInput legalMin
  [.handle (call binh) (.verifyIntake "PR-1" "đủ hồ sơ"), .start (call an) .manual run] ++
    List.replicate 5 (.node run inp) ++ raiseRequest run cp1Request ++
    approve binh run cp1Request ++ List.replicate 6 (.node run inp) ++
    raiseRequest run cp2Request ++ approve binh run cp2Request ++
    [.node run inp, .node run { inp with manifestRef := "manifest" }]

def delivery : Delivery := { messageId := "m1", sentTo := "ncc@example", evidence := "thư mời" }

def invite : Action := .handle (call chi) (.autoPublish delivery)

def amendBids : List Action :=
  [.handle (call chi) (.submitAddendum
      { file := upload, changeSummary := "gia hạn", impactSummary := "", extendBidsByDays := 10 }),
    .handle (call binh) (.decideCp3
      { approve := true, approvalReference := "CP3-1", comment := "", sent := some delivery })]

def invitesInFourteenDays (e : Event World Action) : Bool :=
  match e.act with
  | .handle _ (.autoPublish _) => appliedWindow e.pre.db == some 14
  | .handle _ (.decideCp3 _) => false
  | _ => true

/-- With a legal minimum of fourteen days the invitation tells the truth. -/
theorem fourteen_days_agree : ∃ es w, Exec (preparation env) es w ∧
    w.db.case.state = .published ∧ ∀ e ∈ es, ClosingAgrees e := by
  have hruns : (preparation env).runs opened (toOfficial (some 14) ++ [invite])
      (fun es w => w.db.case.state == .published && es.all invitesInFourteenDays) = true := by
    decide +kernel
  obtain ⟨es, w, hexec, htest⟩ := Machine.exec_of_runs opened_init hruns
  simp only [Bool.and_eq_true, beq_iff_eq, List.all_eq_true] at htest
  refine ⟨es, w, hexec, htest.1, (closing_stated_iff hexec).mpr ?_⟩
  intro e he
  have htest := htest.2 e he
  constructor
  · intro call sent hact
    rw [invitesInFourteenDays, hact] at htest
    simpa using htest
  · intro call cmd hact
    rw [invitesInFourteenDays, hact] at htest
    cases htest

/-- The invitation says fourteen days where the register closes after seven, and
    the notice of the extension states the old moment on the wrong clock. -/
theorem wrong_deadlines_mailed :
    (∃ es w, Exec (preparation env) es w ∧
      ∃ e ∈ es, (∃ call sent, e.act = .handle call (.autoPublish sent)) ∧ ¬ ClosingAgrees e) ∧
    ∃ es w, Exec (preparation env) es w ∧
      ∃ e ∈ es, (∃ call cmd, e.act = .handle call (.decideCp3 cmd)) ∧ ¬ ClosingAgrees e := by
  let shortInvitation (e : Event World Action) : Bool :=
    match e.act with
    | .handle call (.autoPublish _) =>
      e.post.db.case.bidsCloseAt == some (call.now + days 7)
    | _ => false
  let notice (e : Event World Action) : Bool :=
    match e.act with
    | .handle _ (.decideCp3 cmd) =>
      cmd.approve && cmd.sent.isSome && e.pre.db.case.bidsCloseAt.isSome
    | _ => false
  have hruns : (preparation env).runs opened (toOfficial none ++ [invite])
      (fun es _ => es.any shortInvitation) = true := by
    decide +kernel
  have hruns' : (preparation env).runs opened (toOfficial (some 14) ++ invite :: amendBids)
      (fun es _ => es.any notice) = true := by
    decide +kernel
  obtain ⟨es, w, hexec, htest⟩ := Machine.exec_of_runs opened_init hruns
  obtain ⟨es', w', hexec', htest'⟩ := Machine.exec_of_runs opened_init hruns'
  obtain ⟨e, he, hshort⟩ := List.any_eq_true.mp htest
  obtain ⟨e', he', hnotice⟩ := List.any_eq_true.mp htest'
  refine ⟨⟨es, w, hexec, e, he, ?_⟩, es', w', hexec', e', he', ?_⟩
  · simp only [shortInvitation] at hshort
    split at hshort
    · next call sent hact =>
      refine ⟨⟨call, sent, hact⟩, ?_⟩
      intro hagrees
      obtain ⟨t, ht, hdenotes⟩ := hagrees call _ hact rfqClosing rfl
      have hclose : some t = some (call.now + days 7) := by
        rw [← ht]
        simpa using hshort
      have hdenotes : t = call.now + days 14 := hdenotes
      have hseven : t = call.now + days 7 := Option.some.inj hclose
      have hdays : days 14 = days 7 := by
        unfold DateTime at *
        omega
      cases days_injective hdays
    · cases hshort
  · simp only [notice] at hnotice
    split at hnotice
    · next call cmd hact =>
      simp only [Bool.and_eq_true] at hnotice
      obtain ⟨⟨happrove, hsent⟩, hclose⟩ := hnotice
      refine ⟨⟨call, cmd, hact⟩, ?_⟩
      intro hagrees
      obtain ⟨_, hs⟩ := hexec'.pre_invariant (fun _ _ => trivial) (fun _ _ _ (_ : True) _ => trivial)
        e' he'
      have hnone := ((closingAgrees_step hs).mp hagrees).2 call cmd hact happrove hsent
      rw [hnone] at hclose
      cases hclose
    · cases hnotice

end Office

end DigitalWorker
