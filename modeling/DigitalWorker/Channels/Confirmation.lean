import DigitalWorker.Channels.Minutes
import DigitalWorker.Framework.Sessions
import DigitalWorker.Protocol.Opening

/-! # Confirming the opening from chat

    Whoever confirms CP4 from chat gets the minutes written first, from a read of
    the case, and the case sealed afterwards, by a handler that reads it again.
    The read needs a permission of its own, lists the registers by the start of
    the transactions that wrote them, and counts for an empty register when it
    fails.
-/

namespace DigitalWorker.Channels

open Framework

/-! ## The registers on file -/

def registers (db : CaseDb) : List PreparationArtifact :=
  db.artifacts.filter (fun a => a.artifactType == .submissionRegister)

/-- `artifact.content.get("items", [])`. -/
def registerEntries (a : PreparationArtifact) : List Dict :=
  dictItems (a.content.getD "items" (.arr []))

def isReceipt : Action → Bool
  | .handle _ (.recordSubmission _) => true
  | _ => false

/-! ## The machine -/

structure CaseReading where
  failed : Bool
  last : Nat
  deriving DecidableEq

structure ConfirmDesk where
  world : World
  /-- `created_at` of the registers, newest version first: when the transaction
      that wrote it began. -/
  created : List DateTime
  clock : DateTime
  /-- The turns whose minutes are written and not filed. -/
  drafts : Sessions ChatTurn

inductive ConfirmAction where
  | act (a : Action) (begun now : DateTime)
  | draft (n : Nat) (turn : ChatTurn) (reading : CaseReading)
  | confirm (n : Nat)
  | giveUp (n : Nat)

def receivesBid : ConfirmAction → Bool
  | .act a _ _ => isReceipt a
  | _ => false

def confirmCommand (t : ChatTurn) : CompleteCp4Command :=
  { file := { filename := "bid-opening-minutes.md", content := t.minutes }
    openingAt := t.openedAt, witnesses := [t.displayName]
    approvalReference := t.reference, comment := "Xác nhận CP4 " ++ t.via
    handoffRef := t.handoffRef }

namespace ConfirmDesk

def maySee (s : ConfirmDesk) (reading : CaseReading) : Bool :=
  match s.created[reading.last]? with
  | some latest => s.created.all (· ≤ latest)
  | none => s.created.isEmpty

/-- What `GetPreparationCaseHandler.handle` shows of the register; nothing if it
    raises. -/
def itemsRead (s : ConfirmDesk) (context : AccessContext) (reading : CaseReading) : List Dict :=
  match authorize context "tender.read" "preparation_case" s.world.db.case.id.text with
  | .error _ => []
  | .ok () =>
    if reading.failed then []
    else
      match (registers s.world.db)[reading.last]? with
      | some a => registerEntries a
      | none => []

/-- `{now:%d/%m/%Y %H:%M}`. -/
def openedText (t : ChatTurn) : String := clockText (clockAt t.call.now)

def draftOf (env : Env) (s : ConfirmDesk) (t : ChatTurn) (reading : CaseReading) : ChatTurn :=
  { t with
    minutes := bidOpeningMinutes env (openedText t) t.displayName t.channelLabel
      (s.itemsRead t.call.context reading) }

def step (env : Env) (s : ConfirmDesk) : ConfirmAction → Option ConfirmDesk
  | .act a begun now =>
    if begun ≤ now ∧ s.clock ≤ now then
      match s.world.step env a with
      | some w => some { s with
          world := w, clock := now
          created := if isReceipt a then begun :: s.created else s.created }
      | none => none
    else none
  | .draft n turn reading =>
    match s.drafts n with
    | none =>
      if s.maySee reading then
        some { s with drafts := s.drafts.put n (draftOf env s turn reading) }
      else none
    | some _ => none
  | .confirm n =>
    match s.drafts n with
    | none => none
    | some t =>
      match s.world.step env (.handle t.call (.completeCp4 (confirmCommand t))) with
      | some w => some { s with world := w, drafts := Function.update s.drafts n none }
      | none => none
  | .giveUp n => some { s with drafts := Function.update s.drafts n none }

end ConfirmDesk

def confirmDesk (env : Env) : Machine ConfirmDesk ConfirmAction where
  init s := (preparation env).init s.world ∧ s.created = [] ∧ ∀ n, s.drafts n = none
  step := ConfirmDesk.step env

/-! ## What the registers hold -/

section

variable {env : Env} {w w' : World} {a : Action}

theorem filter_of_appends {ts : List ArtifactType} {t : ArtifactType}
    {rows rows' : List PreparationArtifact} (h : Appends env ts rows rows') (ht : t ∉ ts) :
    rows'.filter (fun a => a.artifactType == t) = rows.filter (fun a => a.artifactType == t) := by
  induction h with
  | refl => rfl
  | tail _ hstep ih =>
    obtain ⟨w, hw, rfl⟩ := hstep
    rw [← ih]
    unfold Write.apply planned
    split
    · next b hb =>
      have hne : (b.artifactType == t) = false := by
        rw [Write.plan_type hb, beq_eq_false_iff_ne]
        intro heq
        exact ht (heq ▸ hw)
      rw [List.filter_cons_of_neg (by simp [hne])]
    · rfl

theorem registers_step (hs : w.step env a = some w') (ha : isReceipt a = false) :
    registers w'.db = registers w.db := by
  have hfiled := World.step_filed hs
  have hwrites : ArtifactType.submissionRegister ∉ (w.files a).2 := by
    cases a with
    | handle call h =>
      cases h with
      | recordSubmission cmd => exact absurd ha (by simp [isReceipt])
      | _ => simp [World.files, Handler.writes]
    | node runId inp =>
      obtain ⟨record, n, hrecord, hposition, _⟩ := World.step_node hs
      simp only [World.files, hrecord, hposition]
      cases n <;> simp [NodeName.writes]
    | _ => simp [World.files]
  exact filter_of_appends hfiled.artifacts hwrites

theorem registers_receipt (hs : w.step env a = some w') (ha : isReceipt a = true) :
    ∃ r item, registers w'.db = r :: registers w.db ∧
      registerEntries r = registerItems w'.db ∧
      registerItems w'.db = registerItems w.db ++ [item] := by
  obtain ⟨call, cmd, rfl⟩ : ∃ call cmd, a = .handle call (.recordSubmission cmd) := by
    unfold isReceipt at ha
    split at ha
    · exact ⟨_, _, rfl⟩
    · exact absurd ha (by decide)
  obtain ⟨db, hrun, rfl⟩ := World.step_handle hs
  obtain ⟨_, _, _, _, hitems⟩ := recordSubmission_rows hrun
  have hrun : recordSubmission env w.directory call cmd w.db = .ok db := hrun
  simp only [recordSubmission, authorize, ↓raiseIf_bind_ok, bind_ok] at hrun
  obtain ⟨_, _, _, _, document, _, case, _, hsave⟩ := hrun
  obtain ⟨_, hrows⟩ := CaseDb.saveCase_ok.mp hsave
  obtain ⟨r, hartifacts, htype, hversion⟩ : ∃ r : PreparationArtifact,
      db.artifacts = r :: w.db.artifacts ∧ r.artifactType = .submissionRegister ∧
        r.artifactVersion = nextVersion w.db.artifacts .submissionRegister :=
    ⟨_, (congrArg CaseDb.artifacts hrows).trans CaseDb.send_artifacts, rfl, rfl⟩
  have hlatest : latest db.artifacts .submissionRegister = some r := by
    rw [hartifacts, ← htype]
    exact latest_cons_next (by rw [hversion, htype])
  refine ⟨r, _, ?_, ?_, hitems⟩
  · unfold registers
    rw [hartifacts, List.filter_cons_of_pos (by simp [htype])]
  · unfold registerItems CaseDb.latestContent
    rw [hlatest]
    rfl

end

/-! ## The invariant -/

structure RegistersInv (db : CaseDb) : Prop where
  grown : (registers db).Pairwise (fun a b => registerEntries b <+: registerEntries a ∧
    (registerEntries b).length < (registerEntries a).length)
  newest : registerItems db = ((registers db).head?.map registerEntries).getD []
  registered : Registered db
  counted : CountStated db

section

variable {env : Env} {w w' : World} {a : Action} {s s' : ConfirmDesk}

theorem RegistersInv.initial (h : (preparation env).init w) : RegistersInv w.db := by
  have hinit : (tender env).init { world := w, evaluations := [], calls := fun _ => none } :=
    ⟨h, rfl, fun _ => rfl⟩
  have htender := TenderInv.initial hinit
  obtain ⟨call, cmd, hcreate, _⟩ := h
  have hnone : registers w.db = [] := by
    unfold registers
    rw [List.filter_eq_nil_iff]
    intro r hr
    rw [(createCase_ok hcreate).artifacts r hr]
    decide
  have hitems : registerItems w.db = [] := by
    have hnew : w.db.latestContent .submissionRegister = none := by
      rw [CaseDb.latestContent, Option.map_eq_none_iff, Option.eq_none_iff_forall_ne_some]
      intro r hr
      obtain ⟨hmem, htype⟩ := latest_mem hr
      rw [(createCase_ok hcreate).artifacts r hmem] at htype
      exact absurd htype (by decide)
    unfold registerItems
    rw [hnew]
  refine ⟨?_, ?_, htender.registered, htender.counted⟩
  · rw [hnone]
    exact List.Pairwise.nil
  · rw [hnone, hitems]
    rfl

theorem RegistersInv.step (h : RegistersInv w.db) (hs : w.step env a = some w') :
    RegistersInv w'.db := by
  obtain ⟨hregistered, hcounted⟩ := step_registered hs h.registered h.counted
  by_cases ha : isReceipt a = true
  · obtain ⟨r, item, hregisters, hentries, hitems⟩ := registers_receipt hs ha
    refine ⟨?_, ?_, hregistered, hcounted⟩
    · rw [hregisters, List.pairwise_cons]
      refine ⟨?_, h.grown⟩
      intro b hb
      -- an older register is at most the register before
      have hbefore : registerEntries b <+: registerItems w.db := by
        rw [h.newest]
        cases hall : registers w.db with
        | nil =>
          rw [hall] at hb
          exact absurd hb List.not_mem_nil
        | cons top rest =>
          have hgrown := h.grown
          rw [hall] at hb hgrown
          rcases List.mem_cons.mp hb with rfl | hb
          · exact List.prefix_refl _
          · exact ((List.pairwise_cons.mp hgrown).1 b hb).1
      rw [hentries, hitems]
      refine ⟨hbefore.trans (List.prefix_append _ _), ?_⟩
      have hlength := hbefore.length_le
      rw [List.length_append, List.length_singleton]
      omega
    · rw [hregisters, ← hentries]
      rfl
  · have hkept := registers_step hs (by simpa using ha)
    have hsame : registerItems w'.db = registerItems w.db := by
      refine step_register hs ?_
      rintro call cmd rfl
      exact ha rfl
    refine ⟨?_, ?_, hregistered, hcounted⟩
    · rw [hkept]
      exact h.grown
    · rw [hkept, hsame]
      exact h.newest

theorem desk_world {act : ConfirmAction} (hs : (confirmDesk env).step s act = some s') :
    (s'.world = s.world ∧ receivesBid act = false) ∨
      ∃ a, s.world.step env a = some s'.world ∧ isReceipt a = receivesBid act := by
  cases act with
  | act a begun now =>
    simp only [confirmDesk, ConfirmDesk.step] at hs
    split at hs
    · split at hs
      · next w hw =>
        obtain rfl := Option.some.inj hs
        exact .inr ⟨a, hw, rfl⟩
      · exact absurd hs (by simp)
    · exact absurd hs (by simp)
  | draft n turn reading =>
    left
    simp only [confirmDesk, ConfirmDesk.step] at hs
    split at hs
    · split at hs
      · rw [← Option.some.inj hs]
        exact ⟨rfl, rfl⟩
      · exact absurd hs (by simp)
    · exact absurd hs (by simp)
  | confirm n =>
    right
    simp only [confirmDesk, ConfirmDesk.step] at hs
    split at hs
    · exact absurd hs (by simp)
    · next t ht =>
      split at hs
      · next w hw =>
        obtain rfl := Option.some.inj hs
        exact ⟨_, hw, rfl⟩
      · exact absurd hs (by simp)
  | giveUp n =>
    left
    rw [← Option.some.inj hs]
    exact ⟨rfl, rfl⟩

theorem registers_inv {es : List (Event ConfirmDesk ConfirmAction)}
    (hrun : Exec (confirmDesk env) es s) : RegistersInv s.world.db := by
  have hinit : ∀ s, (confirmDesk env).init s → RegistersInv s.world.db :=
    fun _ h => RegistersInv.initial h.1
  refine hrun.invariant hinit ?_
  intro s a s' hinv hs
  rcases desk_world hs with ⟨hsame, _⟩ | ⟨b, hb, _⟩
  · rw [hsame]
    exact hinv
  · exact hinv.step hb

end

/-! ## Reading and receiving -/

section

variable {env : Env} {s s' : ConfirmDesk} {context : AccessContext} {reading : CaseReading}

theorem itemsRead_beginning (h : RegistersInv s.world.db) :
    s.itemsRead context reading <+: registerItems s.world.db := by
  unfold ConfirmDesk.itemsRead
  split
  · exact List.nil_prefix
  · split
    · exact List.nil_prefix
    · split
      · next a ha =>
        rw [h.newest]
        have hgrown := h.grown
        cases hall : registers s.world.db with
        | nil =>
          rw [hall] at ha
          exact absurd ha (by simp)
        | cons top rest =>
          rw [hall] at ha hgrown
          rcases List.mem_cons.mp (List.mem_of_getElem? ha) with rfl | hmem
          · exact List.prefix_refl _
          · exact ((List.pairwise_cons.mp hgrown).1 a hmem).1
      · exact List.nil_prefix

theorem itemsRead_eq_iff (h : RegistersInv s.world.db) (hne : registerItems s.world.db ≠ []) :
    s.itemsRead context reading = registerItems s.world.db ↔
      isAllowed context "tender.read" = true ∧ reading.failed = false ∧ reading.last = 0 := by
  obtain ⟨top, rest, hall⟩ : ∃ top rest, registers s.world.db = top :: rest := by
    cases hall : registers s.world.db with
    | nil =>
      have hnewest := h.newest
      rw [hall] at hnewest
      exact absurd hnewest hne
    | cons top rest => exact ⟨top, rest, rfl⟩
  have htop : registerItems s.world.db = registerEntries top := by
    rw [h.newest, hall]
    rfl
  have hgrown := h.grown
  rw [hall] at hgrown
  unfold ConfirmDesk.itemsRead authorize
  by_cases hallowed : isAllowed context "tender.read" = true
  · by_cases hfailed : reading.failed = true
    · simp [hallowed, hfailed, raiseIf, hne.symm]
    · cases hlast : reading.last with
      | zero => simp [hallowed, hfailed, raiseIf, hall, htop]
      | succ k =>
        simp only [hallowed, raiseIf, Bool.not_true, Bool.false_eq_true, if_false, hfailed, hall,
          List.getElem?_cons_succ]
        -- an older register is shorter, and a missing one shows nothing
        cases hk : rest[k]? with
        | none => simp [hne.symm]
        | some b =>
          have hshorter := ((List.pairwise_cons.mp hgrown).1 b (List.mem_of_getElem? hk)).2
          simp only [Nat.add_eq_zero_iff, Nat.one_ne_zero, and_false, iff_false]
          intro hsame
          rw [← htop, ← hsame] at hshorter
          exact absurd hshorter (Nat.lt_irrefl _)
  · simp [hallowed, raiseIf, hne.symm]

/-- **Run lemma**: since a state the register has grown by one item for each bid
    that came in. -/
theorem register_since {later earlier : List (Event ConfirmDesk ConfirmAction)}
    {g : Event ConfirmDesk ConfirmAction}
    (hrun : Exec (confirmDesk env) (later ++ g :: earlier) s) :
    registerItems g.post.world.db <+: registerItems s.world.db ∧
      (registerItems s.world.db).length = (registerItems g.post.world.db).length +
        later.countP (fun e => receivesBid e.act) := by
  induction later generalizing s with
  | nil =>
    cases hrun with
    | snoc _ _ => exact ⟨List.prefix_refl _, rfl⟩
  | cons e later ih =>
    cases hrun with
    | snoc hrun hs =>
      obtain ⟨hbegin, hlength⟩ := ih hrun
      rw [List.countP_cons]
      rcases desk_world hs with ⟨hsame, hquiet⟩ | ⟨a, ha, hreceives⟩
      · rw [hsame, if_neg (by simp [hquiet])]
        exact ⟨hbegin, hlength⟩
      · by_cases hbid : isReceipt a = true
        · obtain ⟨_, item, _, _, hitems⟩ := registers_receipt ha hbid
          rw [hitems, if_pos (hreceives ▸ hbid), List.length_append, List.length_singleton]
          exact ⟨hbegin.trans (List.prefix_append _ _), by omega⟩
        · have hkept : registerItems _ = registerItems _ := step_register ha (by
            rintro call cmd rfl
            exact hbid rfl)
          rw [hkept, if_neg (hreceives ▸ hbid)]
          exact ⟨hbegin, hlength⟩

end

/-! ## The minutes of a confirmation -/

section

variable {env : Env} {es : List (Event ConfirmDesk ConfirmAction)} {s s' : ConfirmDesk} {n : Nat}
  {t : ChatTurn}

def Drafted (env : Env) (es : List (Event ConfirmDesk ConfirmAction)) (n : Nat) (t : ChatTurn) :
    Prop :=
  ∃ later s₀ turn reading s₁ earlier, es = later ++ ⟨s₀, .draft n turn reading, s₁⟩ :: earlier ∧
    t = ConfirmDesk.draftOf env s₀ turn reading

theorem Drafted.cons (h : Drafted env es n t) (e : Event ConfirmDesk ConfirmAction) :
    Drafted env (e :: es) n t := by
  obtain ⟨later, s₀, turn, reading, s₁, earlier, rfl, ht⟩ := h
  exact ⟨e :: later, s₀, turn, reading, s₁, earlier, rfl, ht⟩

/-- **Step lemma**: a step drafts minutes, or leaves what is waiting. -/
theorem desk_drafts {act : ConfirmAction} (hs : (confirmDesk env).step s act = some s')
    (ht : s'.drafts n = some t) : s.drafts n = some t ∨
      ∃ turn reading, act = .draft n turn reading ∧ t = ConfirmDesk.draftOf env s turn reading := by
  have hcleared (m : Nat) (h : Function.update s.drafts m none n = some t) :
      s.drafts n = some t := by
    by_cases hn : n = m
    · rw [hn, Function.update_self] at h
      exact absurd h (by simp)
    · rwa [Function.update_of_ne hn] at h
  cases act with
  | act a begun now =>
    left
    simp only [confirmDesk, ConfirmDesk.step] at hs
    split at hs
    · split at hs
      · obtain rfl := Option.some.inj hs
        exact ht
      · exact absurd hs (by simp)
    · exact absurd hs (by simp)
  | draft m turn reading =>
    simp only [confirmDesk, ConfirmDesk.step] at hs
    split at hs
    · split at hs
      · obtain rfl := Option.some.inj hs
        rcases Sessions.put_some ht with ⟨rfl, rfl⟩ | ⟨_, hbefore⟩
        · exact .inr ⟨turn, reading, rfl, rfl⟩
        · exact .inl hbefore
      · exact absurd hs (by simp)
    · exact absurd hs (by simp)
  | confirm m =>
    left
    simp only [confirmDesk, ConfirmDesk.step] at hs
    split at hs
    · exact absurd hs (by simp)
    · split at hs
      · obtain rfl := Option.some.inj hs
        exact hcleared m ht
      · exact absurd hs (by simp)
  | giveUp m =>
    left
    obtain rfl := Option.some.inj hs
    exact hcleared m ht

theorem drafts_drafted (hrun : Exec (confirmDesk env) es s) (ht : s.drafts n = some t) :
    Drafted env es n t := by
  induction hrun generalizing t with
  | start hinit =>
    rw [hinit.2.2 n] at ht
    exact absurd ht (by simp)
  | @snoc es s s' act _ hs ih =>
    rcases desk_drafts hs ht with hbefore | ⟨turn, reading, rfl, rfl⟩
    · exact (ih hbefore).cons _
    · exact ⟨[], s, turn, reading, s', es, rfl, rfl⟩

theorem draft_world {turn : ChatTurn} {reading : CaseReading}
    (hs : (confirmDesk env).step s (.draft n turn reading) = some s') : s'.world = s.world := by
  simp only [confirmDesk, ConfirmDesk.step] at hs
  split at hs
  · split at hs
    · rw [← Option.some.inj hs]
    · exact absurd hs (by simp)
  · exact absurd hs (by simp)

theorem completeCp4_files {call : Call} {cmd : CompleteCp4Command} {db db' : CaseDb}
    (h : completeCp4 env call cmd db = .ok db') : ∃ d ∈ db'.documents,
      d.kind = .bidOpeningMinutes ∧ d.contentHash = env.sha256 cmd.file.content := by
  simp only [completeCp4, authorize, ↓raiseIf_bind_ok, bind_ok] at h
  obtain ⟨_, _, _, _, _, _, minutes, hminutes, case, _, hsave⟩ := h
  obtain ⟨_, rfl⟩ := CaseDb.saveCase_ok.mp hsave
  refine ⟨minutes, ?_, (storeSourceDocument_kind hminutes).1, storeSourceDocument_ok hminutes⟩
  show minutes ∈ (CaseDb.send _ _ _ _).documents
  rw [CaseDb.send_documents]
  exact List.mem_append_right _ (List.mem_singleton.mpr rfl)

theorem exec_before {later earlier : List (Event ConfirmDesk ConfirmAction)}
    {g : Event ConfirmDesk ConfirmAction}
    (hrun : Exec (confirmDesk env) (later ++ g :: earlier) s) :
    Exec (confirmDesk env) earlier g.pre ∧
      (confirmDesk env).step g.pre g.act = some g.post := by
  induction later generalizing s with
  | nil =>
    cases hrun with
    | snoc hrun hs => exact ⟨hrun, hs⟩
  | cons e later ih =>
    cases hrun with
    | snoc hrun _ => exact ih hrun

structure Confirms (env : Env) (es later : List (Event ConfirmDesk ConfirmAction))
    (s s' s₀ : ConfirmDesk) (n : Nat) (turn : ChatTurn) (reading : CaseReading) (t : ChatTurn) :
    Prop where
  /-- The draft stands in the run, and `later` is what happened after it. -/
  drafted : ∃ s₁ earlier, es = later ++ ⟨s₀, .draft n turn reading, s₁⟩ :: earlier
  waiting : s.drafts n = some t
  written : t = ConfirmDesk.draftOf env s₀ turn reading
  filed : ∃ d ∈ s'.world.db.documents, d.kind = .bidOpeningMinutes ∧
    d.contentHash = env.sha256 t.minutes
  final : registerItems s'.world.db = registerItems s.world.db
  before : RegistersInv s₀.world.db
  grown : registerItems s₀.world.db <+: registerItems s.world.db
  length : (registerItems s.world.db).length = (registerItems s₀.world.db).length +
    later.countP (fun e => receivesBid e.act)
  bids : registerItems s.world.db ≠ []

theorem exists_confirms (hrun : Exec (confirmDesk env) (⟨s, .confirm n, s'⟩ :: es) s') :
    ∃ later s₀ turn reading t, Confirms env es later s s' s₀ n turn reading t := by
  cases hrun with
  | snoc hrun hs =>
    obtain ⟨t, w, ht, hw, hworld⟩ : ∃ t w, s.drafts n = some t ∧
        s.world.step env (.handle t.call (.completeCp4 (confirmCommand t))) = some w ∧
          s'.world = w := by
      simp only [confirmDesk, ConfirmDesk.step] at hs
      split at hs
      · exact absurd hs (by simp)
      · next t ht =>
        split at hs
        · next w hw =>
          obtain rfl := Option.some.inj hs
          exact ⟨t, w, ht, hw, rfl⟩
        · exact absurd hs (by simp)
    obtain ⟨later, s₀, turn, reading, s₁, earlier, rfl, hdraft⟩ := drafts_drafted hrun ht
    obtain ⟨db, hdone, hdb⟩ : ∃ db, completeCp4 env t.call (confirmCommand t) s.world.db = .ok db ∧
        s'.world.db = db := by
      obtain ⟨db, hdone, rfl⟩ := World.step_handle hw
      exact ⟨db, hdone, by rw [hworld]⟩
    obtain ⟨hbefore, hdrafting⟩ := exec_before hrun
    have hsame : s₁.world = s₀.world := draft_world hdrafting
    obtain ⟨hgrown, hlength⟩ := register_since hrun
    refine ⟨later, s₀, turn, reading, t, ⟨s₁, earlier, rfl⟩, ht, hdraft, ?_, ?_,
      registers_inv hbefore, ?_, ?_, ?_⟩
    · rw [hdb]
      exact completeCp4_files hdone
    · rw [hworld]
      exact step_register hw (by simp)
    · rw [← hsame]
      exact hgrown
    · rw [← hsame]
      exact hlength
    · -- the handler finds bids, so the register is not empty
      intro hnil
      have hregistered := (registers_inv hrun).registered
      unfold Registered at hregistered
      rw [hnil] at hregistered
      exact (completeCp4_mayOpen hdone).bids (List.map_eq_nil_iff.mp hregistered.symm)

section

variable {later : List (Event ConfirmDesk ConfirmAction)} {s₀ : ConfirmDesk} {turn : ChatTurn}
  {reading : CaseReading}

theorem Confirms.list_iff (h : Confirms env es later s s' s₀ n turn reading t) :
    MinutesList env (ConfirmDesk.openedText t) t.displayName t.channelLabel t.minutes
        (registerItems s'.world.db) ↔
      s₀.itemsRead turn.call.context reading = registerItems s.world.db ∧
        ∀ cells ∈ minutesTable env (registerItems s.world.db), ∀ cell ∈ cells, CleanCell cell := by
  have hread : s₀.itemsRead turn.call.context reading <+: registerItems s.world.db :=
    (itemsRead_beginning h.before).trans h.grown
  rw [h.final, h.written]
  exact minutes_list_iff hread h.bids

theorem Confirms.read_iff (h : Confirms env es later s s' s₀ n turn reading t) :
    s₀.itemsRead turn.call.context reading = registerItems s.world.db ↔
      isAllowed turn.call.context "tender.read" = true ∧ reading.failed = false ∧
        reading.last = 0 ∧ ∀ e ∈ later, receivesBid e.act = false := by
  have hquiet : (∀ e ∈ later, receivesBid e.act = false) ↔
      later.countP (fun e => receivesBid e.act) = 0 := by
    rw [List.countP_eq_zero]
    simp
  have hlength := h.length
  have hshown : s₀.itemsRead turn.call.context reading <+: registerItems s₀.world.db :=
    itemsRead_beginning h.before
  rw [hquiet]
  constructor
  · intro hall
    have hcount := congrArg List.length hall
    have hle := hshown.length_le
    have hsame : registerItems s₀.world.db = registerItems s.world.db :=
      h.grown.eq_of_length (by omega)
    have hwhole : s₀.itemsRead turn.call.context reading = registerItems s₀.world.db := by
      rw [hall, hsame]
    obtain ⟨hallowed, hok, hlast⟩ :=
      (itemsRead_eq_iff h.before (by rw [hsame]; exact h.bids)).mp hwhole
    exact ⟨hallowed, hok, hlast, by omega⟩
  · rintro ⟨hallowed, hok, hlast, hzero⟩
    have hsame : registerItems s₀.world.db = registerItems s.world.db :=
      h.grown.eq_of_length (by omega)
    rw [← hsame]
    exact (itemsRead_eq_iff h.before (by rw [hsame]; exact h.bids)).mpr ⟨hallowed, hok, hlast⟩

end

/-- **Main theorem**: in every run, a completed confirmation files minutes that
    some draft before it wrote, and they list the final register exactly when the
    read of that draft was let through and went well, the newest register was the
    last to be created, no bid came in since, and the register is fit for a
    table. -/
theorem minutes_match_iff (hrun : Exec (confirmDesk env) (⟨s, .confirm n, s'⟩ :: es) s') :
    ∃ later s₀ turn reading t, Confirms env es later s s' s₀ n turn reading t ∧
      (MinutesList env (ConfirmDesk.openedText t) t.displayName t.channelLabel t.minutes
          (registerItems s'.world.db) ↔
        isAllowed turn.call.context "tender.read" = true ∧ reading.failed = false ∧
          reading.last = 0 ∧ (∀ e ∈ later, receivesBid e.act = false) ∧
          ∀ cells ∈ minutesTable env (registerItems s.world.db), ∀ cell ∈ cells,
            CleanCell cell) := by
  obtain ⟨later, s₀, turn, reading, t, h⟩ := exists_confirms hrun
  refine ⟨later, s₀, turn, reading, t, h, ?_⟩
  rw [h.list_iff, h.read_iff]
  constructor
  · rintro ⟨⟨hallowed, hok, hlast, hquiet⟩, hclean⟩
    exact ⟨hallowed, hok, hlast, hquiet, hclean⟩
  · rintro ⟨hallowed, hok, hlast, hquiet, hclean⟩
    exact ⟨⟨hallowed, hok, hlast, hquiet⟩, hclean⟩

end

namespace Confirming

open Office

instance (cell : String) : Decidable (CleanCell cell) :=
  decidable_of_iff (cell.toList.all (fun c => !isBar c) = true ∧
      cell.toList.all (fun c => !isLineEnd c) = true ∧ strip cell = cell) <| by
    simp only [List.all_eq_true, Bool.not_eq_true']
    exact ⟨fun h => ⟨h.1, h.2.1, h.2.2⟩, fun h => ⟨h.noBar, h.oneLine, h.trimmed⟩⟩

def turn : ChatTurn :=
  { call := { (deskCall binh { text := "minutes" }) with
      context := { principalId := binh, scopes := ["tender.read", "approvals.decide"] } }
    channelLabel := "Zalo", displayName := "Bình", stamp := "20260120-0900"
    openedAt := "2026-01-20", minutes := ""
    published := delivery, proposal := fun _ => .error (domainError "") }

def atOnce (a : Action) : ConfirmAction := .act a 0 0

def start : ConfirmDesk := { world := opened, created := [], clock := 0, drafts := fun _ => none }

theorem start_init : (confirmDesk env).init start := ⟨opened_init, rfl, fun _ => rfl⟩

def toDraft : List ConfirmAction :=
  (toOfficial (some 14) ++ [invite, bid { text := "bid-a" } "on_time"]).map atOnce ++
    [.draft 0 turn { failed := false, last := 0 }]

def isDraft : ConfirmAction → Bool
  | .draft _ _ _ => true
  | _ => false

def follows : List (Event ConfirmDesk ConfirmAction) → Bool
  | ⟨s, .confirm 0, _⟩ :: ⟨_, .draft 0 t r, _⟩ :: rest =>
    isAllowed t.call.context "tender.read" && !r.failed && r.last == 0 &&
      rest.all (fun e => !isDraft e.act) &&
      (minutesTable env (registerItems s.world.db)).all (fun cells =>
        cells.all (fun cell => decide (CleanCell cell)))
  | _ => false

def overtaken : List (Event ConfirmDesk ConfirmAction) → Bool
  | ⟨_, .confirm 0, _⟩ :: ⟨_, .act a _ _, _⟩ :: _ => isReceipt a
  | _ => false

theorem bid_listed : ∃ es s s' t, Exec (confirmDesk env) (⟨s, .confirm 0, s'⟩ :: es) s' ∧
    s.drafts 0 = some t ∧ MinutesList env (ConfirmDesk.openedText t) t.displayName t.channelLabel
      t.minutes (registerItems s'.world.db) := by
  have hruns : (confirmDesk env).runs start (toDraft ++ [.confirm 0]) (fun es _ => follows es) =
      true := by
    decide +kernel
  obtain ⟨es, s', hrun, htest⟩ := Machine.exec_of_runs start_init hruns
  unfold follows at htest
  split at htest
  · next s s'' s₁ t r s₂ rest =>
    obtain rfl : s'' = s' := by
      cases hrun
      rfl
    simp only [Bool.and_eq_true, Bool.not_eq_true', beq_iff_eq, List.all_eq_true,
      decide_eq_true_eq] at htest
    obtain ⟨⟨⟨⟨hallowed, hok⟩, hlast⟩, honly⟩, hclean⟩ := htest
    obtain ⟨later, s₀, turn, reading, t', h, hiff⟩ := minutes_match_iff hrun
    -- the draft before the confirmation is the only one of the run
    obtain ⟨s₃, earlier, hes⟩ := h.drafted
    cases later with
    | nil =>
      simp only [List.nil_append, List.cons.injEq, Event.mk.injEq, ConfirmAction.draft.injEq,
        true_and] at hes
      obtain ⟨⟨-, ⟨rfl, rfl⟩, -⟩, -⟩ := hes
      refine ⟨_, s, s'', t', hrun, h.waiting, hiff.mpr ⟨hallowed, hok, hlast, ?_, ?_⟩⟩
      · exact fun e he => absurd he List.not_mem_nil
      · exact hclean
    | cons e later =>
      have hmem : (⟨s₀, .draft 0 turn reading, s₃⟩ : Event ConfirmDesk ConfirmAction) ∈ rest := by
        rw [(List.cons.inj hes).2]
        exact List.mem_append_right _ List.mem_cons_self
      exact absurd (honly _ hmem) (by simp [isDraft])
  · exact absurd htest (by decide)

/-- A second bid comes in after the read: it is in the register and not in the
    minutes. -/
theorem bid_overtakes : ∃ es s s' t, Exec (confirmDesk env) (⟨s, .confirm 0, s'⟩ :: es) s' ∧
    s.drafts 0 = some t ∧ ¬ MinutesList env (ConfirmDesk.openedText t) t.displayName t.channelLabel
      t.minutes (registerItems s'.world.db) := by
  have hruns : (confirmDesk env).runs start
      (toDraft ++ [atOnce (bid { text := "bid-b" } "on_time"), .confirm 0])
      (fun es _ => overtaken es) = true := by
    decide +kernel
  obtain ⟨es, s', hrun, htest⟩ := Machine.exec_of_runs start_init hruns
  unfold overtaken at htest
  split at htest
  · next s s'' s₁ a begun now s₂ rest =>
    obtain rfl : s'' = s' := by
      cases hrun
      rfl
    obtain ⟨later, s₀, turn, reading, t, h⟩ := exists_confirms hrun
    refine ⟨_, s, s'', t, hrun, h.waiting, ?_⟩
    intro hlist
    have hquiet := (h.read_iff.mp (h.list_iff.mp hlist).1).2.2.2
    obtain ⟨s₃, earlier, hes⟩ := h.drafted
    cases later with
    | nil => exact absurd hes (by simp)
    | cons e later =>
      obtain rfl := (List.cons.inj hes).1
      have hnone := hquiet _ List.mem_cons_self
      exact absurd (htest.symm.trans hnone) (by decide)
  · exact absurd htest (by decide)

end Confirming

end DigitalWorker.Channels
