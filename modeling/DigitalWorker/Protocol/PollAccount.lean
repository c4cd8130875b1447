import DigitalWorker.Protocol.Ingestor

/-! # What becomes of a batch

    A poll that returns has dealt with every mail it was handed: each has been
    entered once in the register of its case, or is reported with a reason. A poll
    that an exception leaves has not.

    The tag of a case is looked for as 36 characters among the hexadecimal digits
    and the hyphen, wherever the hyphens stand. Of what is found, `uuid.UUID`
    accepts what has 32 digits, and raises on the rest.
-/

namespace DigitalWorker

open Framework

/-! ## The property -/

namespace PollAction

def isOthers : PollAction → Bool
  | .others _ => true
  | _ => false

def isTake : PollAction → Bool
  | .take _ _ _ => true
  | _ => false

def isAsk : PollAction → Bool
  | .ask _ _ => true
  | _ => false

end PollAction

def mailTurns (es : List (Event Ingestor PollAction)) : List (Event Ingestor PollAction) :=
  (es.filter (·.act.isTake)).reverse

def turnMail (e : Event Ingestor PollAction) : Option InboundMail := e.pre.left.head?

def pollSteps (es : List (Event Ingestor PollAction)) : Nat := es.countP (fun e => !e.act.isOthers)

def EntersMail (env : Env) (e : Event Ingestor PollAction) (m : InboundMail) : Prop :=
  ∃ caseId name bytes items item, readMail m = .bid caseId name bytes ∧ ItemOf env m item ∧
    e.pre.workspace.registerOf caseId = some items ∧
    e.post.workspace.registerOf caseId = some (items ++ [item]) ∧
    ∀ c, c ≠ caseId → e.post.workspace.registerOf c = e.pre.workspace.registerOf c

def EntersNothing (e : Event Ingestor PollAction) : Prop :=
  ∀ c, e.post.workspace.registerOf c = e.pre.workspace.registerOf c

/-- What became of a mail in its turn: `none` if it was recorded, else the line it
    is reported with. -/
def Fate (env : Env) (e : Event Ingestor PollAction) (fate : Option String) : Prop :=
  ∃ m, turnMail e = some m ∧
    match fate with
    | none => EntersMail env e m
    | some line => EntersNothing e ∧ ∃ reason, line = m.messageId ++ ": " ++ reason

/-- **The property**: the poll has returned; every mail of the batch had one turn,
    in which it was recorded or reported, and the report says which. -/
structure Accounted (env : Env) (batch : List InboundMail)
    (es : List (Event Ingestor PollAction)) (s : Ingestor) : Prop where
  returned : s.raised = false
  turns : (mailTurns es).map turnMail = batch.map some
  fates : ∃ fates, List.Forall₂ (Fate env) (mailTurns es) fates ∧
    s.report.recorded = fates.countP (·.isNone) ∧ s.report.skipped = fates.filterMap id
  asking : ∀ e ∈ es, e.act.isAsk = true → EntersNothing e

/-! ## The condition -/

/-- A handler that the loop calls raises something else than a domain error. -/
def faulted (e : Event Ingestor PollAction) : Bool :=
  match e.act with
  | .take _ _ fault => fault == some .raised && (turnMail e).any isBid
  | .ask _ fault => fault == some .raised &&
      e.pre.pending.any (fun caseId => !(e.pre.cp4Requested.contains caseId))
  | .others _ => false

def PollGoesOn (env : Env) (lower : String → String) (min : Int) (s : Ingestor) : Prop :=
  (∀ call view fault, (s.step env lower min (.take call view fault)).isSome = true) ∨
    ∀ call fault, (s.step env lower min (.ask call fault)).isSome = true

/-! ## The invariant -/

def breaksLoop (e : Event Ingestor PollAction) : Bool :=
  match e.act with
  | .take _ _ fault => (turnMail e).any (breaks fault)
  | .ask _ fault => e.pre.pending.any (e.pre.breaksAsking fault)
  | .others _ => false

/-- **The invariant**: as long as the loop has not been left, the mails that had
    their turn and those still to come are the batch. -/
structure PollInv (env : Env) (batch : List InboundMail) (es : List (Event Ingestor PollAction))
    (s : Ingestor) : Prop where
  ofBatch : ∀ m ∈ s.left, m ∈ batch
  turns : s.raised = false →
    (mailTurns es).map turnMail ++ s.left.map some = batch.map some
  fates : s.raised = false → ∃ fates, List.Forall₂ (Fate env) (mailTurns es) fates ∧
    s.report.recorded = fates.countP (·.isNone) ∧ s.report.skipped = fates.filterMap id
  asking : ∀ e ∈ es, e.act.isAsk = true → EntersNothing e
  steps : pollSteps es + 2 * s.left.length + s.pending.toList.length ≤ 2 * batch.length
  broken : s.raised = es.any breaksLoop

section

variable {e : Event Ingestor PollAction} {es : List (Event Ingestor PollAction)}

theorem mailTurns_cons : mailTurns (e :: es) =
    if e.act.isTake = true then mailTurns es ++ [e] else mailTurns es := by
  unfold mailTurns
  rw [List.filter_cons]
  split
  · rw [List.reverse_cons]
  · rfl

theorem pollSteps_cons : pollSteps (e :: es) =
    pollSteps es + if e.act.isOthers = true then 0 else 1 := by
  unfold pollSteps
  rw [List.countP_cons]
  cases e.act.isOthers <;> rfl

end

section

variable {env : Env} {lower : String → String} {min : Int} {batch : List InboundMail}
  {es : List (Event Ingestor PollAction)} {s s' : Ingestor}

theorem PollInv.initial (h : s = s.begin batch) : PollInv env batch [] s := by
  rw [h]
  constructor
  · exact fun m hm => hm
  · exact fun _ => rfl
  · exact fun _ => ⟨[], .nil, rfl, rfl⟩
  · intro e he
    cases he
  · show 0 + 2 * batch.length + 0 ≤ 2 * batch.length
    omega
  · rfl

theorem PollInv.fail {a : PollAction} (h : PollInv env batch es s)
    (hothers : a.isOthers = false) (hbreaks : breaksLoop ⟨s, a, s.fail⟩ = true)
    (hsteps : 1 ≤ 2 * s.left.length + s.pending.toList.length) :
    PollInv env batch (⟨s, a, s.fail⟩ :: es) s.fail := by
  constructor
  · intro m hm
    cases hm
  · intro hraised
    cases hraised
  · intro hraised
    cases hraised
  · intro e he hask
    rcases List.mem_cons.mp he with rfl | he
    · exact fun _ => rfl
    · exact h.asking e he hask
  · have hsofar := h.steps
    rw [pollSteps_cons]
    simp only [hothers]
    show pollSteps es + 1 + 2 * 0 + 0 ≤ 2 * batch.length
    omega
  · rw [List.any_cons, hbreaks]
    rfl

theorem PollInv.others {a : WorkspaceAction} {workspace : Workspace} (h : PollInv env batch es s) :
    PollInv env batch (⟨s, .others a, { s with workspace := workspace }⟩ :: es)
      { s with workspace := workspace } := by
  constructor
  · exact h.ofBatch
  · rw [mailTurns_cons]
    exact h.turns
  · rw [mailTurns_cons]
    exact h.fates
  · intro e he hask
    rcases List.mem_cons.mp he with rfl | he
    · cases hask
    · exact h.asking e he hask
  · rw [pollSteps_cons]
    exact h.steps
  · rw [List.any_cons]
    exact h.broken

theorem PollInv.turn {call : Call} {view : Option (List PreparationArtifact)}
    {fault : Option HandlerFault} {m : InboundMail} {rest : List InboundMail} {fate : Option String}
    (h : PollInv env batch es s) (hleft : s.left = m :: rest) (hpending : s.pending = none)
    (hbreaks : breaks fault m = false) (hrest : s'.left = rest)
    (hnext : s'.pending.toList.length ≤ 1) (hraised : s'.raised = s.raised)
    (hfate : Fate env ⟨s, .take call view fault, s'⟩ fate)
    (hrecorded : s'.report.recorded = s.report.recorded + [fate].countP (·.isNone))
    (hskipped : s'.report.skipped = s.report.skipped ++ [fate].filterMap id) :
    PollInv env batch (⟨s, .take call view fault, s'⟩ :: es) s' := by
  have hmail : turnMail ⟨s, .take call view fault, s'⟩ = some m := by
    unfold turnMail
    rw [hleft]
    rfl
  constructor
  · intro m' hm'
    rw [hrest] at hm'
    exact h.ofBatch m' (by rw [hleft]; exact List.mem_cons_of_mem _ hm')
  · intro hgoes
    have hturns := h.turns (hraised.symm.trans hgoes)
    rw [hleft] at hturns
    rw [mailTurns_cons, hrest]
    simp only [PollAction.isTake, if_true, List.map_append, List.map_cons, List.map_nil, hmail,
      List.append_assoc, List.cons_append, List.nil_append]
    exact hturns
  · intro hgoes
    obtain ⟨fates, hfates, hcount, hlines⟩ := h.fates (hraised.symm.trans hgoes)
    refine ⟨fates ++ [fate], ?_, ?_, ?_⟩
    · rw [mailTurns_cons]
      exact List.rel_append hfates (.cons hfate .nil)
    · rw [List.countP_append, hrecorded, hcount]
    · rw [List.filterMap_append, hskipped, hlines]
  · intro e he hask
    rcases List.mem_cons.mp he with rfl | he
    · cases hask
    · exact h.asking e he hask
  · have hsofar := h.steps
    rw [hleft, hpending, List.length_cons] at hsofar
    rw [pollSteps_cons, hrest]
    simp only [PollAction.isOthers, Bool.false_eq_true, if_false]
    simp only [Option.toList_none, List.length_nil] at hsofar
    omega
  · rw [List.any_cons, hraised, h.broken]
    have hquiet : breaksLoop ⟨s, .take call view fault, s'⟩ = false := by
      unfold breaksLoop
      simp only [hmail, Option.any_some, hbreaks]
    rw [hquiet, Bool.false_or]

theorem PollInv.asked {call : Call} {fault : Option HandlerFault} {caseId : Uuid}
    (h : PollInv env batch es s) (hpending : s.pending = some caseId)
    (hbreaks : s.breaksAsking fault caseId = false) (hmoves : s.MovesOn s') :
    PollInv env batch (⟨s, .ask call fault, s'⟩ :: es) s' := by
  constructor
  · rw [hmoves.left]
    exact h.ofBatch
  · rw [hmoves.left, hmoves.raised, mailTurns_cons]
    exact h.turns
  · rw [hmoves.raised, hmoves.recorded, hmoves.skipped, mailTurns_cons]
    exact h.fates
  · intro e he hask
    rcases List.mem_cons.mp he with rfl | he
    · exact hmoves.registers
    · exact h.asking e he hask
  · have hsofar := h.steps
    rw [hpending] at hsofar
    rw [pollSteps_cons, hmoves.left, hmoves.pending]
    simp only [PollAction.isOthers, Bool.false_eq_true, if_false, Option.toList_none,
      Option.toList_some, List.length_nil, List.length_singleton] at hsofar ⊢
    omega
  · rw [List.any_cons, hmoves.raised, h.broken]
    have hquiet : breaksLoop ⟨s, .ask call fault, s'⟩ = false := by
      unfold breaksLoop
      simp only [hpending, Option.any_some, hbreaks]
    rw [hquiet, Bool.false_or]

theorem PollInv.step {a : PollAction} (h : PollInv env batch es s)
    (hs : s.step env lower min a = some s') : PollInv env batch (⟨s, a, s'⟩ :: es) s' := by
  cases a with
  | others a =>
    simp only [Ingestor.step] at hs
    split at hs
    · obtain rfl := Option.some.inj hs
      exact h.others
    · cases hs
  | take call view fault =>
    simp only [Ingestor.step] at hs
    split at hs
    · next m rest hpending hleft =>
      obtain rfl := Option.some.inj hs
      have hmail : ∀ s', turnMail ⟨s, .take call view fault, s'⟩ = some m := by
        intro s'
        unfold turnMail
        rw [hleft]
        rfl
      rcases @Ingestor.takeMail_cases env lower s call view fault m rest with
        ⟨hbreaks, heq⟩ | ⟨hbreaks, reason, heq⟩ |
        ⟨hbreaks, caseId, name, bytes, workspace, hread, _, hrecord, heq⟩
      · -- an exception leaves the loop
        rw [heq]
        apply h.fail rfl
        · unfold breaksLoop
          simp only [hmail, Option.any_some, hbreaks]
        · rw [hleft, List.length_cons]
          omega
      · -- the mail is reported
        rw [heq]
        have hfate : Fate env ⟨s, .take call view fault, s.skip rest (m.messageId ++ ": " ++ reason)⟩
            (some (m.messageId ++ ": " ++ reason)) :=
          ⟨m, hmail _, fun _ => rfl, reason, rfl⟩
        refine h.turn hleft hpending hbreaks rfl ?_ rfl hfate rfl rfl
        show s.pending.toList.length ≤ 1
        rw [hpending]
        exact Nat.zero_le 1
      · -- the bid is recorded
        rw [heq]
        obtain ⟨⟨items, document, hname, hhash, hfound, hitems⟩, hsame⟩ := Workspace.recordSubmission_ok hrecord
        have hitem : ItemOf env m (bidItem env call
            (mailSubmission env lower view call.now m name bytes) document) := by
          refine ⟨caseId, name, bytes, hread, ?_, ?_, rfl⟩
          · show Json.str document.filename = .str name
            rw [hname]
            rfl
          · show Json.str document.contentHash = .str (env.sha256 bytes)
            rw [hhash]
            rfl
        have hfate : Fate env ⟨s, .take call view fault, s.accept caseId rest workspace⟩ none :=
          ⟨m, hmail _, caseId, name, bytes, items, _, hread, hitem, hfound, hitems, hsame⟩
        exact h.turn hleft hpending hbreaks rfl (Nat.le_refl 1) rfl hfate rfl
          (List.append_nil _).symm
    · cases hs
  | ask call fault =>
    simp only [Ingestor.step] at hs
    split at hs
    · next caseId hpending =>
      obtain rfl := Option.some.inj hs
      rcases @Ingestor.askForCp4_cases env min s call fault caseId with
        ⟨hbreaks, heq⟩ | ⟨hbreaks, hmoves⟩
      · rw [heq]
        apply h.fail rfl
        · unfold breaksLoop
          simp only [hpending, Option.any_some, hbreaks]
        · rw [hpending]
          exact Nat.le_add_left 1 _
      · exact h.asked hpending hbreaks hmoves
    · cases hs

theorem pollInv (hrun : Exec (pollOnce env lower min batch) es s) : PollInv env batch es s := by
  apply hrun.history_invariant (P := PollInv env batch)
  · intro s hinit
    exact PollInv.initial hinit.2
  · intro es s a s' _ hinv hs
    exact hinv.step hs

theorem turnMail_mem (hrun : Exec (pollOnce env lower min batch) es s)
    {e : Event Ingestor PollAction} (he : e ∈ es) {m : InboundMail} (hm : turnMail e = some m) :
    m ∈ batch := by
  obtain ⟨later, earlier, _, hpre, _⟩ := hrun.split he
  exact (pollInv hpre).ofBatch m (List.mem_of_mem_head? hm)

theorem breaksLoop_iff {e : Event Ingestor PollAction} : breaksLoop e = true ↔
    (e.act.isTake = true ∧ ∃ m, turnMail e = some m ∧ readMail m = .unparsable) ∨
      faulted e = true := by
  obtain ⟨pre, act, post⟩ := e
  cases act with
  | others a => simp [breaksLoop, faulted, PollAction.isTake]
  | ask call fault =>
    cases hpending : pre.pending with
    | none => simp [breaksLoop, faulted, PollAction.isTake, hpending]
    | some caseId =>
      simp [breaksLoop, faulted, PollAction.isTake, Ingestor.breaksAsking, hpending, and_comm]
  | take call view fault =>
    cases hmail : turnMail ⟨pre, .take call view fault, post⟩ with
    | none => simp [breaksLoop, faulted, PollAction.isTake, hmail]
    | some m => simp [breaksLoop, faulted, PollAction.isTake, breaks, hmail, and_comm]

theorem goesOn_of_not_atEnd (h : s.atEnd = false) : PollGoesOn env lower min s := by
  unfold PollGoesOn Ingestor.step
  cases hpending : s.pending with
  | some caseId => exact .inr (fun _ _ => rfl)
  | none =>
    left
    intro call view fault
    cases hleft : s.left with
    | nil =>
      unfold Ingestor.atEnd at h
      rw [hpending, hleft] at h
      cases h
    | cons m rest => rfl

end

/-- **Main theorem**: in at most two steps a mail, whatever others do meanwhile, a
    poll is over; and then it accounts for its batch if and only if no bid in it
    has a tag that is no identifier, and no handler raised anything but a domain
    error. -/
theorem poll_accounts {env : Env} {lower : String → String} {min : Int}
    {batch : List InboundMail} {es : List (Event Ingestor PollAction)} {s : Ingestor}
    (hrun : Exec (pollOnce env lower min batch) es s) :
    pollSteps es ≤ 2 * batch.length ∧
    (s.atEnd = false → PollGoesOn env lower min s) ∧
    (s.atEnd = true → (Accounted env batch es s ↔
      (∀ m ∈ batch, readMail m ≠ .unparsable) ∧ ∀ e ∈ es, faulted e = false)) := by
  have hinv := pollInv hrun
  refine ⟨?_, goesOn_of_not_atEnd, ?_⟩
  · have hsteps := hinv.steps
    omega
  intro hover
  have hleft : s.left = [] := by
    unfold Ingestor.atEnd at hover
    rw [Bool.and_eq_true, List.isEmpty_iff] at hover
    exact hover.1
  have hbatch : s.raised = false → (mailTurns es).map turnMail = batch.map some := by
    intro hraised
    have hturns := hinv.turns hraised
    rwa [hleft, List.map_nil, List.append_nil] at hturns
  constructor
  · intro hacc
    have hquiet : ∀ e ∈ es, breaksLoop e = false := by
      have hnone := hinv.broken.symm.trans hacc.returned
      rw [List.any_eq_false] at hnone
      exact fun e he => Bool.eq_false_iff.mpr (hnone e he)
    constructor
    · intro m hm hread
      have hmem : some m ∈ (mailTurns es).map turnMail := by
        rw [hacc.turns]
        exact List.mem_map_of_mem hm
      obtain ⟨e, he, hturn⟩ := List.mem_map.mp hmem
      obtain ⟨hes, htake⟩ := List.mem_filter.mp (List.mem_reverse.mp he)
      have hbreaks := breaksLoop_iff.mpr (.inl ⟨htake, m, hturn, hread⟩)
      rw [hquiet e hes] at hbreaks
      cases hbreaks
    · intro e he
      by_contra hfault
      have hbreaks := breaksLoop_iff.mpr (.inr (by simpa using hfault))
      rw [hquiet e he] at hbreaks
      cases hbreaks
  · intro ⟨hparse, hfault⟩
    have hraised : s.raised = false := by
      rw [hinv.broken, List.any_eq_false]
      intro e he hbreaks
      rcases breaksLoop_iff.mp hbreaks with ⟨_, m, hturn, hread⟩ | hfaulted
      · exact hparse m (turnMail_mem hrun he hturn) hread
      · rw [hfault e he] at hfaulted
        cases hfaulted
    exact ⟨hraised, hbatch hraised, hinv.fates hraised, hinv.asking⟩

namespace Office

def publishedCase : World :=
  match (preparation env).run [] tagged (toOfficial (some 14) ++ [invite]) with
  | some (_, w) => w
  | none => tagged

theorem publishedCase_reachable : Reachable (preparation env) publishedCase := by
  unfold publishedCase
  split
  · next es w hrun => exact ⟨es, Machine.run_exec (.start tagged_init) hrun⟩
  · exact ⟨[], .start tagged_init⟩

def mailOffice : Workspace := { directory := directory, worlds := [publishedCase] }

def handed (batch : List InboundMail) : Ingestor :=
  Ingestor.begin { workspace := mailOffice } batch

theorem handed_init (batch : List InboundMail) : (pollOnce env id 1 batch).init (handed batch) := by
  refine ⟨?_, rfl⟩
  intro w hw
  rw [List.mem_singleton.mp hw]
  exact publishedCase_reachable

def untaggedMail : InboundMail := { bidMail with number := 1, subject := "Re: mời thầu" }

def strayMail : InboundMail :=
  { bidMail with number := 2, subject := "[DW01:------------------------------------]" }

theorem poll_accounted : ∃ es s, Exec (pollOnce env id 1 [untaggedMail, bidMail]) es s ∧
    s.report.recorded = 1 ∧ s.report.skipped.length = 1 ∧
    Accounted env [untaggedMail, bidMail] es s := by
  have hruns : (pollOnce env id 1 [untaggedMail, bidMail]).runs (handed [untaggedMail, bidMail])
      [.take (call binh) none none, .take (deskCall binh { text := "bid" }) none none,
        .ask (call binh) none]
      (fun es s => s.atEnd && s.report.recorded == 1 && s.report.skipped.length == 1 &&
        es.all (fun e => !faulted e)) = true := by
    decide +kernel
  obtain ⟨es, s, hrun, htest⟩ := Machine.exec_of_runs (handed_init _) hruns
  simp only [Bool.and_eq_true, beq_iff_eq, List.all_eq_true, Bool.not_eq_true'] at htest
  obtain ⟨⟨⟨hover, hrecorded⟩, hskipped⟩, hfaults⟩ := htest
  have hparse : ∀ m ∈ [untaggedMail, bidMail], readMail m ≠ .unparsable := by decide +kernel
  exact ⟨es, s, hrun, hrecorded, hskipped, ((poll_accounts hrun).2.2 hover).mpr ⟨hparse, hfaults⟩⟩

/-- No handler raises anything; the bid that came with the stray mail is neither
    recorded nor reported. -/
theorem poll_broken : ∃ es s, Exec (pollOnce env id 1 [strayMail, bidMail]) es s ∧
    s.atEnd = true ∧ (∀ e ∈ es, faulted e = false) ∧ s.raised = true ∧ s.report.skipped = [] ∧
    (∃ w ∈ s.workspace.worlds, w.db.case.state = .published ∧ registerItems w.db = []) ∧
    ¬ Accounted env [strayMail, bidMail] es s := by
  have hruns : (pollOnce env id 1 [strayMail, bidMail]).runs (handed [strayMail, bidMail])
      [.take (deskCall binh { text := "bid" }) none none]
      (fun es s => s.atEnd && s.raised && s.report.skipped.isEmpty &&
        es.all (fun e => !faulted e) &&
        s.workspace.worlds.any (fun w => w.db.case.state == .published &&
          (registerItems w.db).isEmpty)) = true := by
    decide +kernel
  obtain ⟨es, s, hrun, htest⟩ := Machine.exec_of_runs (handed_init _) hruns
  simp only [Bool.and_eq_true, List.isEmpty_iff, List.all_eq_true, Bool.not_eq_true',
    List.any_eq_true, beq_iff_eq] at htest
  obtain ⟨⟨⟨⟨hover, hraised⟩, hskipped⟩, hfaults⟩, hregister⟩ := htest
  refine ⟨es, s, hrun, hover, hfaults, hraised, hskipped, hregister, ?_⟩
  intro hacc
  have hreturned := hacc.returned
  rw [hraised] at hreturned
  cases hreturned

end Office

end DigitalWorker
