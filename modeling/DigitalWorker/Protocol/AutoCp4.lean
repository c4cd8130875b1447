import DigitalWorker.Protocol.PollAccount

/-! # Asking for the opening

    After each bid it records, the ingestor asks for CP4, unless it has done so for
    the case before. The handler queues the card and returns how many bids there
    are; the number is compared with the configured minimum afterwards, and decides
    only whether the ingestor asks again.
-/

namespace DigitalWorker

open Framework

/-! ## Polls one after the other -/

inductive IngestAction where
  | fetch (batch : List InboundMail)
  | poll (a : PollAction)

def ingestion (env : Env) (lower : String → String) (minSubmissionsForCp4 : Int) :
    Machine Ingestor IngestAction where
  init s := (∀ w ∈ s.workspace.worlds, Reachable (preparation env) w) ∧
    s.cp4Requested = [] ∧ s = s.begin []
  step s
    | .fetch batch => if s.atEnd then some (s.begin batch) else none
    | .poll a => s.step env lower minSubmissionsForCp4 a

/-! ## The property -/

def ofMail (e : Event Ingestor IngestAction) : Bool :=
  match e.act with
  | .fetch _ => true
  | .poll (.others _) => false
  | .poll _ => true

def endsPoll (e : Event Ingestor IngestAction) : Bool := ofMail e && e.post.atEnd

def QueuesCp4 (c : Uuid) (e : Event Ingestor IngestAction) : Prop :=
  ofMail e = true ∧ ∃ dedupe, cardKey c "CP4" dedupe ∈ e.post.workspace.keysOf c ∧
    cardKey c "CP4" dedupe ∉ e.pre.workspace.keysOf c

def asksCp4 (env : Env) (c : Uuid) (e : Event Ingestor IngestAction) : Bool :=
  match e.act with
  | .poll (.ask call fault) =>
    e.pre.pending == some c && !(e.pre.cp4Requested.contains c) && fault.isNone &&
      (e.pre.workspace.requestCp4 env call c).isOk
  | _ => false

def Workspace.holds (s : Workspace) (c : Uuid) (least : Int) : Bool :=
  (s.registerOf c).any (fun items => decide (least ≤ items.length))

/-- **The property**: cards are queued only for cases with enough submissions; and
    for a case that a poll has left with enough, one request has been made. -/
structure AskedOnce (env : Env) (min : Int) (es : List (Event Ingestor IngestAction)) : Prop where
  enough : ∀ e ∈ es, ∀ c, QueuesCp4 c e → e.pre.workspace.holds c min = true
  once : ∀ e ∈ es, endsPoll e = true → ∀ w ∈ e.post.workspace.worlds,
    min ≤ (registerItems w.db).length → es.countP (asksCp4 env w.db.case.id) = 1

/-! ## The condition -/

def mailed (es : List (Event Ingestor IngestAction)) (c : Uuid) : Bool :=
  es.any fun e =>
    match e.act with
    | .poll (.take _ _ _) => e.post.pending == some c
    | _ => false

def recordable (s : Ingestor) (call : Call) (fault : Option HandlerFault) (c : Uuid) : Bool :=
  fault.isNone && isAllowed call.context "tender.write" &&
    (s.workspace.caseOf c).any (fun w => w.db.case.state.acceptsBids)

def bidsSuffice (min : Int) (e : Event Ingestor IngestAction) : Bool :=
  match e.act with
  | .poll (.take call _ fault) =>
    match e.pre.left.head?.map readMail with
    | some (.bid c _ _) => !(recordable e.pre call fault c) || e.pre.cp4Requested.contains c ||
        e.pre.workspace.holds c (min - 1)
    | _ => true
  | .poll (.ask call fault) =>
    match e.pre.pending with
    | some c => e.pre.cp4Requested.contains c ||
        (fault.isNone && isAllowed call.context "tender.write" &&
          (e.pre.workspace.caseOf c).any (fun w => w.db.case.state == .receivingBids))
    | none => true
  | _ => true

def filledByMail (min : Int) (es : List (Event Ingestor IngestAction))
    (e : Event Ingestor IngestAction) : Bool :=
  !(endsPoll e) || e.pre.workspace.worlds.all (fun w =>
    decide ((registerItems w.db).length < min) || mailed es w.db.case.id)

/-- **The condition** on every step. -/
def BidsInTime (min : Int) (es : List (Event Ingestor IngestAction))
    (e : Event Ingestor IngestAction) : Prop :=
  bidsSuffice min e = true ∧ filledByMail min es e = true

instance (min : Int) (es : List (Event Ingestor IngestAction)) (e : Event Ingestor IngestAction) :
    Decidable (BidsInTime min es e) :=
  inferInstanceAs (Decidable (_ ∧ _))

/-! ## What the handlers do to the cards -/

section

variable {env : Env} {s s' : Workspace} {call : Call} {caseId c : Uuid}

theorem reachable_registered {w : World} (h : Reachable (preparation env) w) :
    (registerItems w.db).length = (submissions w.db).length := by
  obtain ⟨es, hes⟩ := h
  have hinv : Registered w.db ∧ CountStated w.db := by
    apply hes.invariant (P := fun w => Registered w.db ∧ CountStated w.db)
    · intro w hinit
      have htender : TenderInv { world := w, evaluations := [], calls := fun _ => none } :=
        @TenderInv.initial env _ ⟨hinit, rfl, fun _ => rfl⟩
      exact ⟨htender.registered, htender.counted⟩
    · intro w a w' hinv hs
      exact step_registered hs hinv.1 hinv.2
  have hlength := congrArg List.length hinv.1
  rwa [List.length_map, List.length_map] at hlength

theorem recordSubmission_keys {cmd : RecordSubmissionCommand}
    (h : s.recordSubmission env call caseId cmd = .ok s') {dedupe : String}
    (hkey : cardKey c "CP4" dedupe ∈ s'.keysOf c) : cardKey c "CP4" dedupe ∈ s.keysOf c := by
  obtain ⟨w, db, hw, hrecord, hid, rfl, _⟩ := Workspace.recordSubmission_step h
  unfold Workspace.keysOf at *
  by_cases hc : c = caseId
  · subst hc
    have hold : w.db.case.id = c := (caseOf_some hw).2
    rw [@Workspace.caseOf_replace_self s c w _ hw hid] at hkey
    rw [hw]
    have hcards := (recordSubmission_ok hrecord).2 .cpcard ("CP4" ++ ":" ++ dedupe) rfl
    rw [hold] at hcards
    rcases hcards.mp hkey with hnone | hkept
    · cases hnone
    · exact hkept
  · rwa [@Workspace.caseOf_replace_ne s c caseId _ hid hc] at hkey

theorem requestCp4_keys {count : Nat} (h : s.requestCp4 env call caseId = .ok (s', count))
    (hc : c ≠ caseId) : s'.keysOf c = s.keysOf c := by
  obtain ⟨w, db, hw, _, hid, _, rfl, _⟩ := Workspace.requestCp4_step h
  unfold Workspace.keysOf
  rw [@Workspace.caseOf_replace_ne s c caseId _ hid hc]

theorem requestCp4_worlds {count : Nat} (h : s.requestCp4 env call caseId = .ok (s', count))
    {v : World} (hv : v ∈ s'.worlds) : ∃ u ∈ s.worlds, u.db.case.id = v.db.case.id ∧
      registerItems u.db = registerItems v.db := by
  obtain ⟨w, db, hw, _, hid, hregister, rfl, _⟩ := Workspace.requestCp4_step h
  obtain ⟨u, hu, rfl⟩ := List.mem_map.mp hv
  by_cases hcase : u.db.case.id = caseId
  · rw [if_pos hcase]
    exact ⟨w, (caseOf_some hw).1, (caseOf_some hw).2.trans hid.symm, hregister.symm⟩
  · rw [if_neg hcase]
    exact ⟨u, hu, rfl, rfl⟩

theorem requestCp4_succeeds {w : World} (hw : s.caseOf caseId = some w)
    (hallowed : isAllowed call.context "tender.write" = true)
    (hstate : w.db.case.state = .receivingBids) (hbids : submissions w.db ≠ []) :
    ∃ s', s.requestCp4 env call caseId = .ok (s', (submissions w.db).length) := by
  unfold Workspace.requestCp4
  simp only [hw]
  have hrequest : ∃ db, DigitalWorker.requestCp4 env w.directory call w.db = .ok db := by
    simp only [DigitalWorker.requestCp4, authorize, ↓raiseIf_bind_ok]
    exact ⟨_, by simp [hallowed], by simp [hstate], by simpa using hbids, rfl⟩
  obtain ⟨db, hrequest⟩ := hrequest
  rw [hrequest]
  exact ⟨_, rfl⟩

theorem recordSubmission_recordable {cmd : RecordSubmissionCommand}
    (h : s.recordSubmission env call caseId cmd = .ok s') :
    isAllowed call.context "tender.write" = true ∧
      (s.caseOf caseId).any (fun w => w.db.case.state.acceptsBids) = true := by
  obtain ⟨w, db, hw, hrecord, _⟩ := Workspace.recordSubmission_step h
  simp only [DigitalWorker.recordSubmission, authorize, ↓raiseIf_bind_ok] at hrecord
  obtain ⟨hallowed, _, hstate, _⟩ := hrecord
  refine ⟨by simpa using hallowed, ?_⟩
  rw [hw, Option.any_some]
  revert hstate
  cases w.db.case.state <;> decide

theorem Workspace.holds_iff {least : Int} : s.holds c least = true ↔
    ∃ items, s.registerOf c = some items ∧ least ≤ items.length := by
  unfold Workspace.holds
  simp [Option.any_eq_true]

end

/-! ## A request that goes through -/

def Ingestor.requested (s : Ingestor) (caseId : Uuid) (workspace : Workspace) : Ingestor :=
  { s with
    workspace := workspace
    pending := none
    cp4Requested := caseId :: s.cp4Requested
    report := { s.report with cp4Requested := true } }

section

variable {env : Env} {min : Int} {s s' : Ingestor} {call : Call} {caseId : Uuid}
  {workspace : Workspace} {count : Nat}

theorem askForCp4_requested (hnew : s.cp4Requested.contains caseId = false)
    (hrequest : s.workspace.requestCp4 env call caseId = .ok (workspace, count))
    (hleast : min ≤ count) :
    s.askForCp4 env min call none caseId = s.requested caseId workspace := by
  unfold Ingestor.askForCp4 Ingestor.counted Ingestor.requested
  simp only [hnew, hrequest, if_pos hleast, Bool.false_eq_true, if_false]

theorem asksCp4_requested (hpending : s.pending = some caseId)
    (hnew : s.cp4Requested.contains caseId = false)
    (hrequest : s.workspace.requestCp4 env call caseId = .ok (workspace, count)) (c : Uuid) :
    asksCp4 env c ⟨s, .poll (.ask call none), s'⟩ = (c == caseId) := by
  unfold asksCp4
  by_cases hc : c = caseId
  · subst hc
    simp only [hpending, hnew, hrequest, Except.isOk, Except.toBool, beq_self_eq_true,
      Option.isNone_none, Bool.not_false, Bool.and_self]
  · have hother : (some caseId == some c) = false := by simpa using Ne.symm hc
    simp only [hpending, hother, Bool.false_and]
    exact (beq_false_of_ne hc).symm

end

/-- **The invariant**: the requests made are those remembered; a case that mail
    brought a bid is remembered, or next in turn with enough bids. -/
structure AskInv (env : Env) (min : Int) (es : List (Event Ingestor IngestAction))
    (s : Ingestor) : Prop where
  reachable : ∀ w ∈ s.workspace.worlds, Reachable (preparation env) w
  counted : ∀ c, es.countP (asksCp4 env c) = if c ∈ s.cp4Requested then 1 else 0
  brought : ∀ c, mailed es c = true → c ∈ s.cp4Requested ∨ s.pending = some c
  ready : ∀ c, s.pending = some c → c ∉ s.cp4Requested →
    ∃ items, s.workspace.registerOf c = some items ∧ items ≠ [] ∧ min ≤ items.length
  enough : ∀ e ∈ es, ∀ c, QueuesCp4 c e → e.pre.workspace.holds c min = true
  ended : ∀ e ∈ es, endsPoll e = true → ∀ w ∈ e.post.workspace.worlds,
    min ≤ (registerItems w.db).length → w.db.case.id ∈ s.cp4Requested

section

variable {env : Env} {lower : String → String} {min : Int}
  {es : List (Event Ingestor IngestAction)} {s s' : Ingestor} {a : IngestAction}

theorem AskInv.initial (h : (ingestion env lower min).init s) : AskInv env min [] s := by
  obtain ⟨hreach, hnone, hidle⟩ := h
  constructor
  · exact hreach
  · intro c
    rw [hnone]
    rfl
  · intro c hmailed
    cases hmailed
  · intro c hpending
    rw [hidle] at hpending
    cases hpending
  · intro e he
    cases he
  · intro e he
    cases he

theorem AskInv.quiet (h : AskInv env min es s)
    (hreach : ∀ w ∈ s'.workspace.worlds, Reachable (preparation env) w)
    (hasks : ∀ c, asksCp4 env c ⟨s, a, s'⟩ = false) (hsame : s'.cp4Requested = s.cp4Requested)
    (hmailed : ∀ c, mailed (⟨s, a, s'⟩ :: es) c = true → c ∈ s.cp4Requested ∨ s'.pending = some c)
    (hready : ∀ c, s'.pending = some c → c ∉ s.cp4Requested →
      ∃ items, s'.workspace.registerOf c = some items ∧ items ≠ [] ∧ min ≤ items.length)
    (hcards : ∀ c, ¬ QueuesCp4 c ⟨s, a, s'⟩)
    (hended : endsPoll ⟨s, a, s'⟩ = true → ∀ w ∈ s'.workspace.worlds,
      min ≤ (registerItems w.db).length → w.db.case.id ∈ s.cp4Requested) :
    AskInv env min (⟨s, a, s'⟩ :: es) s' := by
  constructor
  · exact hreach
  · intro c
    rw [List.countP_cons, hasks c, hsame, h.counted c]
    rfl
  · rw [hsame]
    exact hmailed
  · rw [hsame]
    exact hready
  · intro e he c hqueues
    rcases List.mem_cons.mp he with rfl | he
    · exact absurd hqueues (hcards c)
    · exact h.enough e he c hqueues
  · rw [hsame]
    intro e he
    rcases List.mem_cons.mp he with rfl | he
    · exact hended
    · exact h.ended e he

theorem AskInv.ended_of (h : AskInv env min es s)
    (hsettled : ∀ c, s.pending = some c → c ∈ s.cp4Requested)
    (hworlds : s'.workspace = s.workspace) (hok : filledByMail min es ⟨s, a, s'⟩ = true)
    (hends : endsPoll ⟨s, a, s'⟩ = true) : ∀ w ∈ s'.workspace.worlds,
      min ≤ (registerItems w.db).length → w.db.case.id ∈ s.cp4Requested := by
  intro w hw hleast
  rw [hworlds] at hw
  unfold filledByMail at hok
  rw [hends, Bool.not_true, Bool.false_or, List.all_eq_true] at hok
  have hcase := hok w hw
  rw [Bool.or_eq_true, decide_eq_true_eq] at hcase
  rcases hcase with hfew | hmailed
  · omega
  · rcases h.brought _ hmailed with hmem | hnext
    · exact hmem
    · exact hsettled _ hnext

theorem AskInv.idle (h : AskInv env min es s) (hworkspace : s'.workspace = s.workspace)
    (hasks : ∀ c, asksCp4 env c ⟨s, a, s'⟩ = false) (hsame : s'.cp4Requested = s.cp4Requested)
    (hsettled : ∀ c, s.pending = some c → c ∈ s.cp4Requested) (hnext : s'.pending = none)
    (hok : filledByMail min es ⟨s, a, s'⟩ = true) : AskInv env min (⟨s, a, s'⟩ :: es) s' := by
  have hbefore : ∀ c, mailed (⟨s, a, s'⟩ :: es) c = true → mailed es c = true := by
    intro c hmailed
    unfold mailed at hmailed
    rw [List.any_cons, Bool.or_eq_true] at hmailed
    rcases hmailed with hnow | hbefore
    · split at hnow
      · rw [hnext] at hnow
        cases hnow
      · cases hnow
    · exact hbefore
  refine h.quiet ?_ hasks hsame ?_ ?_ ?_ ?_
  · rw [hworkspace]
    exact h.reachable
  · intro c hmailed
    rcases h.brought c (hbefore c hmailed) with hmem | hpending
    · exact .inl hmem
    · exact .inl (hsettled c hpending)
  · intro c hc
    rw [hnext] at hc
    cases hc
  · intro c hqueues
    obtain ⟨_, dedupe, hnew, hold⟩ := hqueues
    rw [hworkspace] at hnew
    exact hold hnew
  · exact h.ended_of hsettled hworkspace hok

theorem AskInv.others {b : WorkspaceAction} {workspace : Workspace} (h : AskInv env min es s)
    (hs : s.workspace.step env b = some workspace) :
    AskInv env min (⟨s, .poll (.others b), { s with workspace := workspace }⟩ :: es)
      { s with workspace := workspace } := by
  refine h.quiet (Workspace.step_reachable hs h.reachable) (fun _ => rfl) rfl h.brought ?_ ?_ ?_
  · intro c hpending hnot
    obtain ⟨items, hitems, hne, hleast⟩ := h.ready c hpending hnot
    obtain ⟨items', hitems', hprefix⟩ := Workspace.step_registerOf hs hitems
    have hlength := hprefix.length_le
    have hpos := List.length_pos_of_ne_nil hne
    refine ⟨items', hitems', ?_, by omega⟩
    exact List.ne_nil_of_length_pos (by omega)
  · intro c hqueues
    cases hqueues.1
  · intro hends
    cases hends

theorem AskInv.accept {call : Call} {view : Option (List PreparationArtifact)} {m : InboundMail}
    {rest : List InboundMail} {caseId : Uuid} {name bytes : String} {workspace : Workspace}
    (h : AskInv env min es s) (hleft : s.left = m :: rest) (hpending : s.pending = none)
    (hread : readMail m = .bid caseId name bytes)
    (hrecord : s.workspace.recordSubmission env call caseId
      (mailSubmission env lower view call.now m name bytes) = .ok workspace)
    (hok : bidsSuffice min ⟨s, .poll (.take call view none), s.accept caseId rest workspace⟩ = true) :
    AskInv env min (⟨s, .poll (.take call view none), s.accept caseId rest workspace⟩ :: es)
      (s.accept caseId rest workspace) := by
  obtain ⟨⟨items, document, _, _, hfound, hitems⟩, _⟩ := Workspace.recordSubmission_ok hrecord
  obtain ⟨_, _, _, _, _, _, hstep⟩ := Workspace.recordSubmission_step hrecord
  refine h.quiet (Workspace.step_reachable hstep h.reachable) (fun _ => rfl) rfl ?_ ?_ ?_ ?_
  · intro c hmailed
    unfold mailed at hmailed
    rw [List.any_cons, Bool.or_eq_true] at hmailed
    rcases hmailed with hnow | hbefore
    · exact .inr (beq_iff_eq.mp hnow)
    · rcases h.brought c hbefore with hmem | hnext
      · exact .inl hmem
      · rw [hpending] at hnext
        cases hnext
  · intro c hnext hnot
    obtain rfl : caseId = c := Option.some.inj hnext
    refine ⟨_, hitems, by simp, ?_⟩
    -- the bid was recorded, so the condition speaks of it
    obtain ⟨hallowed, haccepts⟩ := recordSubmission_recordable hrecord
    have hrecordable : recordable s call none caseId = true := by
      unfold recordable
      rw [hallowed, haccepts]
      rfl
    have hnew : s.cp4Requested.contains caseId = false := by
      rw [← Bool.not_eq_true, List.contains_iff_mem]
      exact hnot
    unfold bidsSuffice at hok
    simp only [hleft, List.head?_cons, Option.map_some, hread, hrecordable, hnew, Bool.not_true,
      Bool.false_or, Bool.or_false] at hok
    obtain ⟨items', hitems', hleast⟩ := Workspace.holds_iff.mp hok
    obtain rfl : items = items' := Option.some.inj (hfound.symm.trans hitems')
    rw [List.length_append, List.length_singleton]
    omega
  · intro c hqueues
    obtain ⟨_, dedupe, hnew, hold⟩ := hqueues
    exact hold (recordSubmission_keys hrecord hnew)
  · intro hends
    unfold endsPoll Ingestor.atEnd Ingestor.accept at hends
    simp at hends

theorem AskInv.asked {call : Call} {fault : Option HandlerFault} {caseId : Uuid}
    (h : AskInv env min es s) (hpending : s.pending = some caseId)
    (hnew : caseId ∉ s.cp4Requested)
    (hs : s.askForCp4 env min call fault caseId = s')
    (hok : BidsInTime min es ⟨s, .poll (.ask call fault), s'⟩) :
    AskInv env min (⟨s, .poll (.ask call fault), s'⟩ :: es) s' := by
  obtain ⟨items, hitems, hne, hleast⟩ := h.ready caseId hpending hnew
  obtain ⟨w, hw, rfl⟩ := Option.map_eq_some_iff.mp hitems
  have hcontains : s.cp4Requested.contains caseId = false := by
    rw [← Bool.not_eq_true, List.contains_iff_mem]
    exact hnew
  -- the condition: nothing is in the way of the request
  obtain ⟨hsuffice, hfilled⟩ := hok
  unfold bidsSuffice at hsuffice
  simp only [hpending, hcontains, hw, Option.any_some, Bool.false_or, Bool.and_eq_true,
    Option.isNone_iff_eq_none, beq_iff_eq] at hsuffice
  obtain ⟨⟨rfl, hallowed⟩, hstate⟩ := hsuffice
  have hcount : (registerItems w.db).length = (submissions w.db).length :=
    reachable_registered (h.reachable w (caseOf_some hw).1)
  have hbids : submissions w.db ≠ [] := by
    have hpos := List.length_pos_of_ne_nil hne
    exact List.ne_nil_of_length_pos (by omega)
  obtain ⟨workspace, hrequest⟩ := @requestCp4_succeeds env _ call _ _ hw hallowed hstate hbids
  have hminimum : min ≤ ((submissions w.db).length : Int) := by omega
  rw [askForCp4_requested hcontains hrequest hminimum] at hs
  subst hs
  have hasks := @asksCp4_requested env s (s.requested caseId workspace) call caseId workspace _
    hpending hcontains hrequest
  obtain ⟨_, _, _, _, _, _, _, _, hstep⟩ := Workspace.requestCp4_step hrequest
  constructor
  · exact Workspace.step_reachable hstep h.reachable
  · intro c
    rw [List.countP_cons, hasks c, h.counted c]
    by_cases hc : c = caseId
    · subst hc
      simp [Ingestor.requested, hnew]
    · simp [Ingestor.requested, hc]
  · intro c hmailed
    left
    have hbefore : mailed es c = true := by
      unfold mailed at hmailed ⊢
      rw [List.any_cons, Bool.or_eq_true] at hmailed
      rcases hmailed with hnow | hbefore
      · cases hnow
      · exact hbefore
    rcases h.brought c hbefore with hmem | hnow
    · exact List.mem_cons_of_mem _ hmem
    · rw [hpending] at hnow
      obtain rfl := Option.some.inj hnow
      exact List.mem_cons_self
  · intro c hc
    cases hc
  · intro e he c hqueues
    rcases List.mem_cons.mp he with rfl | he
    · by_cases hc : c = caseId
      · rw [hc]
        exact Workspace.holds_iff.mpr ⟨_, hitems, hleast⟩
      · obtain ⟨_, dedupe, hqueued, hfree⟩ := hqueues
        have hsame : workspace.keysOf c = s.workspace.keysOf c := requestCp4_keys hrequest hc
        exact absurd (hsame ▸ hqueued) hfree
    · exact h.enough e he c hqueues
  · intro e he hends v hv hmin
    rcases List.mem_cons.mp he with rfl | he
    · obtain ⟨u, hu, hsameId, hsameItems⟩ := requestCp4_worlds hrequest hv
      unfold filledByMail at hfilled
      rw [hends, Bool.not_true, Bool.false_or, List.all_eq_true] at hfilled
      have hcase := hfilled u hu
      rw [Bool.or_eq_true, decide_eq_true_eq, hsameItems, hsameId] at hcase
      rcases hcase with hfew | hmailed
      · omega
      · rcases h.brought _ hmailed with hmem | hnow
        · exact List.mem_cons_of_mem _ hmem
        · rw [hpending] at hnow
          rw [← Option.some.inj hnow]
          exact List.mem_cons_self
    · exact List.mem_cons_of_mem _ (h.ended e he hends v hv hmin)

theorem settled_of_none (h : s.pending = none) : ∀ c, s.pending = some c → c ∈ s.cp4Requested := by
  intro c hc
  rw [h] at hc
  cases hc

theorem AskInv.step (h : AskInv env min es s) (hs : (ingestion env lower min).step s a = some s')
    (hok : BidsInTime min es ⟨s, a, s'⟩) : AskInv env min (⟨s, a, s'⟩ :: es) s' := by
  cases a with
  | fetch batch =>
    simp only [ingestion] at hs
    split at hs
    · next hover =>
      obtain rfl := Option.some.inj hs
      have hpending : s.pending = none := by
        unfold Ingestor.atEnd at hover
        rw [Bool.and_eq_true, Option.isNone_iff_eq_none] at hover
        exact hover.2
      exact h.idle rfl (fun _ => rfl) rfl (settled_of_none hpending) rfl hok.2
    · cases hs
  | poll a =>
    cases a with
    | others b =>
      simp only [ingestion, Ingestor.step] at hs
      split at hs
      · next workspace hstep =>
        obtain rfl := Option.some.inj hs
        exact h.others hstep
      · cases hs
    | take call view fault =>
      simp only [ingestion, Ingestor.step] at hs
      split at hs
      · next m rest hpending hleft =>
        obtain rfl := Option.some.inj hs
        rcases @Ingestor.takeMail_cases env lower s call view fault m rest with
          ⟨_, heq⟩ | ⟨_, reason, heq⟩ |
          ⟨_, caseId, name, bytes, workspace, hread, hfault, hrecord, heq⟩
        · rw [heq] at hok ⊢
          exact h.idle rfl (fun _ => rfl) rfl (settled_of_none hpending) rfl hok.2
        · rw [heq] at hok ⊢
          exact h.idle rfl (fun _ => rfl) rfl (settled_of_none hpending) hpending hok.2
        · rw [heq] at hok ⊢
          subst hfault
          exact h.accept hleft hpending hread hrecord hok.1
      · cases hs
    | ask call fault =>
      simp only [ingestion, Ingestor.step] at hs
      split at hs
      · next caseId hpending =>
        by_cases hnew : caseId ∈ s.cp4Requested
        · -- asked for before: the loop goes on
          have hcontains : s.cp4Requested.contains caseId = true := List.contains_iff_mem.mpr hnew
          unfold Ingestor.askForCp4 at hs
          rw [if_pos hcontains] at hs
          obtain rfl := Option.some.inj hs
          have hasks : ∀ c, asksCp4 env c ⟨s, .poll (.ask call fault), { s with pending := none }⟩ =
              false := by
            intro c
            unfold asksCp4
            by_cases hc : caseId = c
            · subst hc
              simp only [hcontains, Bool.not_true, Bool.and_false, Bool.false_and]
            · have hother : (some caseId == some c) = false := by simpa using hc
              simp only [hpending, hother, Bool.false_and]
          refine h.idle rfl hasks rfl ?_ rfl hok.2
          intro c hc
          rw [hpending] at hc
          rw [← Option.some.inj hc]
          exact hnew
        · exact h.asked hpending hnew (Option.some.inj hs) hok
      · cases hs

end

/-- **Main theorem**: in every run of an ingestor whose steps meet the condition,
    mail ingestion queues cards only for cases with enough submissions, and for each
    case that a poll has left with enough it has made one request. -/
theorem cp4_asked_once {env : Env} {lower : String → String} {min : Int}
    {es : List (Event Ingestor IngestAction)} {s : Ingestor}
    (hrun : Exec (ingestion env lower min) es s) (hok : Along (BidsInTime min) es) :
    AskedOnce env min es := by
  have hinv : Along (fun _ _ => True) es ∧ AskInv env min es s :=
    hrun.along (fun _ hinit => AskInv.initial hinit)
      (fun _ _ _ _ h hs hok => ⟨trivial, h.step hs hok⟩) hok
  refine ⟨hinv.2.enough, ?_⟩
  intro e he hends w hw hleast
  rw [hinv.2.counted]
  exact if_pos (hinv.2.ended e he hends w hw hleast)

namespace Office

theorem ingestion_init {min : Int} : (ingestion env id min).init (handed []) := by
  refine ⟨?_, rfl, rfl⟩
  intro w hw
  rw [List.mem_singleton.mp hw]
  exact publishedCase_reachable

def secondBid : InboundMail :=
  { bidMail with number := 1, messageId := "<b2@hoaphat>", sender := "hoaphat@example" }

def taggedId : Uuid := { text := "0000000a-0000-0000-0000-000000000001" }

def bidTurn (document : Uuid) : List IngestAction :=
  [.poll (.take (deskCall binh document) none none), .poll (.ask (call binh) none)]

/-- With a minimum of one, the first bid brings a request, and the second none. -/
theorem asked_in_time : ∃ es s, Exec (ingestion env id 1) es s ∧
    es.countP (asksCp4 env taggedId) = 1 ∧ AskedOnce env 1 es := by
  have hruns : (ingestion env id 1).runs (handed [])
      (.fetch [bidMail] :: bidTurn { text := "bid-a" } ++
        .fetch [secondBid] :: bidTurn { text := "bid-b" })
      (fun es _ => es.countP (asksCp4 env taggedId) == 1 &&
        decide (Along (BidsInTime 1) es)) = true := by
    decide +kernel
  obtain ⟨es, s, hrun, htest⟩ := Machine.exec_of_runs ingestion_init hruns
  simp only [Bool.and_eq_true, beq_iff_eq, decide_eq_true_eq] at htest
  obtain ⟨hasked, hok⟩ := htest
  exact ⟨es, s, hrun, hasked, cp4_asked_once hrun hok⟩

def oneBidKey : String := cardKey taggedId "CP4" "n1"

def tooEarly (e : Event Ingestor IngestAction) : Bool :=
  ofMail e && (e.post.workspace.keysOf taggedId).contains oneBidKey &&
    !((e.pre.workspace.keysOf taggedId).contains oneBidKey) &&
    (e.pre.workspace.registerOf taggedId).map List.length == some 1

/-- With a minimum of two, the first of two bids queues a card, and the second asks
    again. -/
theorem asked_too_early : ∃ es s, Exec (ingestion env id 2) es s ∧ s.atEnd = true ∧
    es.countP (asksCp4 env taggedId) = 2 ∧
    (∃ e ∈ es, QueuesCp4 taggedId e ∧
      (e.pre.workspace.registerOf taggedId).map List.length = some 1) ∧
    ¬ AskedOnce env 2 es := by
  have hruns : (ingestion env id 2).runs (handed [])
      (.fetch [bidMail, secondBid] :: bidTurn { text := "bid-a" } ++ bidTurn { text := "bid-b" })
      (fun es s => s.atEnd && es.countP (asksCp4 env taggedId) == 2 && es.any tooEarly) = true := by
    decide +kernel
  obtain ⟨es, s, hrun, htest⟩ := Machine.exec_of_runs ingestion_init hruns
  simp only [Bool.and_eq_true, beq_iff_eq, List.any_eq_true] at htest
  obtain ⟨⟨hover, hasked⟩, e, he, hearly⟩ := htest
  unfold tooEarly at hearly
  simp only [Bool.and_eq_true, beq_iff_eq, Bool.not_eq_true', List.contains_iff_mem] at hearly
  obtain ⟨⟨⟨hmail, hqueued⟩, hfree⟩, hone⟩ := hearly
  have hnot : oneBidKey ∉ e.pre.workspace.keysOf taggedId := by
    rw [← List.contains_iff_mem, hfree]
    decide
  have hqueues : QueuesCp4 taggedId e := ⟨hmail, "n1", hqueued, hnot⟩
  refine ⟨es, s, hrun, hover, hasked, ⟨e, he, hqueues, hone⟩, ?_⟩
  intro honce
  obtain ⟨items, hitems, hleast⟩ := Workspace.holds_iff.mp (honce.enough e he taggedId hqueues)
  rw [hitems] at hone
  have hlength : items.length = 1 := Option.some.inj hone
  rw [hlength] at hleast
  omega

end Office

end DigitalWorker
