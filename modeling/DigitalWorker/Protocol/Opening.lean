import DigitalWorker.Protocol.Register

/-! # When bids are opened

    The closing moment is set when the package is published and moved when an
    extension is approved. The scanner that asks for CP4 waits for it; the
    handler that opens the bids never looks at it.
-/

namespace DigitalWorker

open Framework

/-! ## Who may open the bids -/

/-- Everything `completeCp4` asks for. -/
structure MayOpen (call : Call) (cmd : CompleteCp4Command) (db : CaseDb) : Prop where
  scope : isAllowed call.context "approvals.decide" = true
  reference : blank cmd.approvalReference = false
  witnesses : cmd.witnesses ≠ []
  other : db.case.createdBy ≠ call.context.principalId
  state : db.case.state = .receivingBids
  bids : submissions db ≠ []
  minutes : cmd.file.content ≠ ""

section

variable {env : Env} {call : Call} {cmd : CompleteCp4Command} {db db' : CaseDb}

theorem completeCp4_mayOpen (h : completeCp4 env call cmd db = .ok db') :
    MayOpen call cmd db := by
  simp only [completeCp4, authorize, storeSourceDocument, ↓raiseIf_bind_ok, bind_ok] at h
  obtain ⟨_, hscope, hgiven, hother, hstate, hbids, minutes, ⟨hminutes, _⟩, _⟩ := h
  simp only [Bool.or_eq_false_iff, List.isEmpty_eq_false_iff] at hgiven
  constructor
  · simpa using hscope
  · exact hgiven.1
  · exact hgiven.2
  · simpa using hother
  · simpa using hstate
  · simpa using hbids
  · simpa using hminutes

theorem completeCp4_of_mayOpen (h : MayOpen call cmd db) :
    ∃ db', completeCp4 env call cmd db = .ok db' := by
  obtain ⟨hscope, hreference, hwitnesses, hother, hstate, hbids, hminutes⟩ := h
  have hcase : db.case.completeCp4Handoff = .ok { db.case with
      state := .completed, currentStep := "completed", version := db.case.version + 1 } :=
    PreparationCase.completeCp4Handoff_ok.mpr ⟨hstate, rfl⟩
  simp only [completeCp4, authorize, storeSourceDocument, ↓raiseIf_bind_ok, bind_ok]
  refine ⟨_, (), ?_, ?_, ?_, ?_, ?_, _, ⟨?_, rfl⟩, _, hcase, CaseDb.saveCase_ok.mpr ⟨rfl, rfl⟩⟩
  · simpa using hscope
  · simp [hreference, hwitnesses]
  · simpa using hother
  · simpa using hstate
  · simpa using hbids
  · simpa using hminutes

end

/-! ## The property and its condition -/

/-- **The property**: whatever completes the case is an opening of its bids, at or
    after the closing moment as it stands then. -/
def OpensInTime (e : Event World Action) : Prop :=
  e.pre.db.case.state ≠ .completed → e.post.db.case.state = .completed →
    ∃ call cmd, e.act = .handle call (.completeCp4 cmd) ∧
      ∀ t, e.pre.db.case.bidsCloseAt = some t → t ≤ call.now

def AskedEarly (e : Event World Action) : Prop :=
  ∃ call cmd t, e.act = .handle call (.completeCp4 cmd) ∧ MayOpen call cmd e.pre.db ∧
    e.pre.db.case.bidsCloseAt = some t ∧ call.now < t

section

variable {env : Env} {w w' : World} {a : Action}

theorem completed_by_opening (hs : w.step env a = some w')
    (hbefore : w.db.case.state ≠ .completed) (hafter : w'.db.case.state = .completed) :
    ∃ call cmd, a = .handle call (.completeCp4 cmd) ∧
      completeCp4 env call cmd w.db = .ok w'.db := by
  have hmoved : w'.db.case ≠ w.db.case := by
    intro hcase
    rw [hcase] at hafter
    exact hbefore hafter
  rcases step_case hs with hcase | ⟨call, h, rfl, _⟩ | ⟨_, _, _, _, _, _, hcase⟩ |
    ⟨_, _, _, _, hstart⟩ | ⟨_, _, _, _, _, _, _, _, hmove⟩
  · exact absurd hcase hmoved
  · obtain ⟨db, hrun, rfl⟩ := World.step_handle hs
    rcases Handler.run_transition hrun with hcase | ⟨hmoves, _⟩
    · exact absurd hcase hmoved
    · have hafter : db.case.state = .completed := hafter
      rw [hafter] at hmoves
      cases h with
      | completeCp4 cmd => exact ⟨call, cmd, rfl, hrun⟩
      | _ => simp [Handler.transitions] at hmoves
  · rw [hcase] at hafter
    cases hafter
  · obtain ⟨_, hcase⟩ := PreparationCase.startRun_ok.mp hstart
    rw [hcase] at hafter
    cases hafter
  · exact absurd (hmove.completed hafter) hbefore

/-- **Step lemma**: an opening is in time exactly when nobody asked early. -/
theorem opensInTime_step (hs : w.step env a = some w') :
    OpensInTime ⟨w, a, w'⟩ ↔ ¬ AskedEarly ⟨w, a, w'⟩ := by
  constructor
  · rintro htime ⟨call, cmd, t, hact, hmay, hclose, hearly⟩
    have hact : a = .handle call (.completeCp4 cmd) := hact
    subst hact
    obtain ⟨db, hrun, rfl⟩ := World.step_handle hs
    obtain ⟨_, hcase, _⟩ := completeCp4_ok hrun
    obtain ⟨_, hcase⟩ := PreparationCase.completeCp4Handoff_ok.mp hcase
    have hbefore : w.db.case.state ≠ .completed := by
      have hstate : w.db.case.state = .receivingBids := hmay.state
      rw [hstate]
      decide
    have hafter : db.case.state = .completed := by rw [hcase]
    obtain ⟨call', cmd', hact, hclosed⟩ := htime hbefore hafter
    obtain ⟨rfl, _⟩ := Action.handle.inj hact
    have hle : t ≤ call.now := hclosed t hclose
    exact absurd hle (not_le.mpr hearly)
  · intro hnot hbefore hafter
    obtain ⟨call, cmd, rfl, hrun⟩ := completed_by_opening hs hbefore hafter
    refine ⟨call, cmd, rfl, ?_⟩
    intro t hclose
    by_contra hlate
    exact hnot ⟨call, cmd, t, rfl, completeCp4_mayOpen hrun, hclose, not_le.mp hlate⟩

end

/-- **Main theorem**: in every run of the case, its bids are opened in time exactly
    when nobody who may open them asks to before they close. -/
theorem opened_in_time_iff {env : Env} {es : List (Event World Action)} {w : World}
    (h : Exec (preparation env) es w) :
    (∀ e ∈ es, OpensInTime e) ↔ ∀ e ∈ es, ¬ AskedEarly e := by
  have hsteps : ∀ e ∈ es, World.step env e.pre e.act = some e.post := by
    intro e he
    obtain ⟨_, _, _, _, hs⟩ := h.split he
    exact hs
  constructor
  · intro htime e he
    exact (opensInTime_step (hsteps e he)).mp (htime e he)
  · intro hnot e he
    exact (opensInTime_step (hsteps e he)).mpr (hnot e he)

/-! ## What lies behind a completed case -/

def IsSealing (e : Event World Action) : Prop :=
  ∃ r inp record, e.act = .node r inp ∧ e.pre.runs r = some record ∧
    record.position = .running .finalizeOfficial

def IsPublication (e : Event World Action) : Prop :=
  ∃ call, (∃ cmd, e.act = .handle call (.recordPublication cmd)) ∨
    ∃ sent, e.act = .handle call (.autoPublish sent)

section

variable {env : Env} {w w' : World} {a : Action}

theorem sealed_by_node (hs : w.step env a = some w')
    (hbefore : w.db.case.state ≠ .packageOfficial) (hafter : w'.db.case.state = .packageOfficial) :
    IsSealing ⟨w, a, w'⟩ := by
  rcases step_moved hs (by rw [hafter]; exact hbefore.symm) with ⟨call, h, rfl, hmoves⟩ |
    hrestarted | ⟨r, inp, record, n, rfl, hrecord, hposition, htarget⟩
  · rw [hafter] at hmoves
    cases h <;> simp [Handler.transitions] at hmoves
  · rw [hafter] at hrestarted
    simp at hrestarted
  · rw [hafter] at htarget
    have hn : n = .finalizeOfficial := by
      cases n <;> first | rfl | simp [NodeName.targets] at htarget
    exact ⟨r, inp, record, rfl, hrecord, hn ▸ hposition⟩

theorem moved_by_handler (hs : w.step env a = some w')
    (hmoved : w'.db.case.state ≠ w.db.case.state)
    (hafter : w'.db.case.state ∈ [.published, .cp3Pending, .receivingBids]) :
    ∃ call h, a = .handle call h ∧ (w.db.case.state, w'.db.case.state) ∈ h.transitions := by
  rcases step_moved hs hmoved with hhandled | hrestarted | ⟨_, _, _, n, _, _, _, htarget⟩
  · exact hhandled
  · generalize w'.db.case.state = state at hafter hrestarted
    simp only [List.mem_cons, List.not_mem_nil, or_false] at hafter hrestarted
    rcases hrestarted with rfl | rfl <;> simp at hafter
  · generalize w'.db.case.state = state at hafter htarget
    simp only [List.mem_cons, List.not_mem_nil, or_false] at hafter
    rcases hafter with rfl | rfl | rfl <;> cases n <;> simp [NodeName.targets] at htarget

theorem published_by_handler (hs : w.step env a = some w')
    (hbefore : w.db.case.state ∉ [.published, .cp3Pending])
    (hafter : w'.db.case.state ∈ [.published, .cp3Pending]) :
    IsPublication ⟨w, a, w'⟩ ∧ w.db.case.state = .packageOfficial := by
  have hin : w'.db.case.state ∈ [.published, .cp3Pending] ++ [CaseState.receivingBids] :=
    List.mem_append_left _ hafter
  obtain ⟨call, h, rfl, hmoves⟩ := moved_by_handler hs (fun hsame => hbefore (hsame ▸ hafter)) hin
  unfold IsPublication
  generalize w.db.case.state = s, w'.db.case.state = s' at hmoves hbefore hafter ⊢
  cases h with
  | recordPublication cmd => exact ⟨⟨call, .inl ⟨cmd, rfl⟩⟩, by simp_all [Handler.transitions]⟩
  | autoPublish sent => exact ⟨⟨call, .inr ⟨sent, rfl⟩⟩, by simp_all [Handler.transitions]⟩
  | recordSubmission cmd =>
    -- from here on the case takes bids
    exfalso
    rcases (by simpa [Handler.transitions] using hmoves) with ⟨_, rfl⟩ | ⟨_, rfl⟩ <;> simp at hafter
  | _ => simp_all [Handler.transitions]

theorem received_by_handler (hs : w.step env a = some w')
    (hbefore : w.db.case.state ≠ .receivingBids) (hafter : w'.db.case.state = .receivingBids) :
    (∃ call cmd, a = .handle call (.recordSubmission cmd)) ∧ w.db.case.state = .published := by
  obtain ⟨call, h, rfl, hmoves⟩ := moved_by_handler hs (by rw [hafter]; exact hbefore.symm)
    (by simp [hafter])
  rw [hafter] at hmoves
  cases h with
  | recordSubmission cmd =>
    have hstate : w.db.case.state = .published ∨ w.db.case.state = .receivingBids := by
      simpa [Handler.transitions] using hmoves
    exact ⟨⟨call, cmd, rfl⟩, hstate.resolve_right hbefore⟩
  | _ => simp [Handler.transitions] at hmoves

end

/-- **In order**: behind a completed case lie the sealing of its package by a run, its
    publication, its first bid and its opening, in this order; and from the sealing on
    nothing else moved the case. -/
theorem completed_in_order {env : Env} {es : List (Event World Action)} {w : World}
    (h : Exec (preparation env) es w) (hcompleted : w.db.case.state = .completed) :
    ∃ closed opening received receipt published publication official sealing before,
      es = closed ++ opening :: (received ++ receipt :: (published ++ publication ::
        (official ++ sealing :: before))) ∧
      IsSealing sealing ∧ (∀ e ∈ official, e.post.db.case.state = .packageOfficial) ∧
      IsPublication publication ∧
        (∀ e ∈ published, e.post.db.case.state ∈ [.published, .cp3Pending]) ∧
      (∃ call cmd, receipt.act = .handle call (.recordSubmission cmd)) ∧
        (∀ e ∈ received, e.post.db.case.state = .receivingBids) ∧
      (∃ call cmd, opening.act = .handle call (.completeCp4 cmd)) ∧
        ∀ e ∈ closed, e.post.db.case.state = .completed := by
  obtain ⟨closed, opening, _, rfl, hnot₄, hin₄, hclosed, h₃, hs₄⟩ :=
    h.entered (P := fun w => w.db.case.state = .completed)
      (fun w hw => by simp [init_state hw]) hcompleted
  obtain ⟨call, cmd, hopening, hrun⟩ := completed_by_opening hs₄ hnot₄ hin₄
  obtain ⟨received, receipt, _, rfl, hnot₃, hin₃, hreceived, h₂, hs₃⟩ :=
    h₃.entered (P := fun w => w.db.case.state = .receivingBids)
      (fun w hw => by simp [init_state hw]) (completeCp4_mayOpen hrun).state
  obtain ⟨hreceipt, hpublished⟩ := received_by_handler hs₃ hnot₃ hin₃
  obtain ⟨published, publication, _, rfl, hnot₂, hin₂, hsince, h₁, hs₂⟩ :=
    h₂.entered (P := fun w => w.db.case.state ∈ [.published, .cp3Pending])
      (fun w hw => by simp [init_state hw]) (by simp [hpublished])
  obtain ⟨hpublication, hofficial⟩ := published_by_handler hs₂ hnot₂ hin₂
  obtain ⟨official, sealing, before, rfl, hnot₁, hin₁, hkept, _, hs₁⟩ :=
    h₁.entered (P := fun w => w.db.case.state = .packageOfficial)
      (fun w hw => by simp [init_state hw]) hofficial
  exact ⟨closed, opening, received, receipt, published, publication, official, sealing, before, rfl,
    sealed_by_node hs₁ hnot₁ hin₁, hkept, hpublication, hsince, hreceipt, hreceived,
    ⟨call, cmd, hopening⟩, hclosed⟩

namespace Office

def openAt (now : DateTime) : Action :=
  .handle { deskCall binh { text := "minutes" } with now := now } (.completeCp4
    { file := { filename := "minutes.pdf", content := "biên bản" }, openingAt := "2026-01-20"
      witnesses := ["Chi"], approvalReference := "CP4-1", comment := "" })

def toFirstBid : List Action :=
  toOfficial (some 14) ++ [invite, bid { text := "bid-a" } "on_time"]

/-- The bids are opened on the day they close. -/
def onTheDay (e : Event World Action) : Bool :=
  match e.act with
  | .handle call (.completeCp4 _) => e.pre.db.case.bidsCloseAt == some call.now
  | _ => true

theorem opened_on_the_day : ∃ es w, Exec (preparation env) es w ∧
    w.db.case.state = .completed ∧ w.db.case.bidsCloseAt = some (days 14) ∧
    ∀ e ∈ es, OpensInTime e := by
  have hruns : (preparation env).runs opened (toFirstBid ++ [openAt (days 14)]) (fun es w =>
      w.db.case.state == .completed && w.db.case.bidsCloseAt == some (days 14) &&
        es.all onTheDay) = true := by
    decide +kernel
  obtain ⟨es, w, hrun, htest⟩ := Machine.exec_of_runs opened_init hruns
  simp only [Bool.and_eq_true, beq_iff_eq, List.all_eq_true] at htest
  obtain ⟨⟨hstate, hclose⟩, htest⟩ := htest
  refine ⟨es, w, hrun, hstate, hclose, (opened_in_time_iff hrun).mpr ?_⟩
  rintro e he ⟨call, cmd, t, hact, _, hclose, hearly⟩
  have hfine := htest e he
  simp only [onTheDay, hact, beq_iff_eq] at hfine
  rw [hclose] at hfine
  obtain rfl := Option.some.inj hfine
  exact absurd hearly (lt_irrefl _)

theorem opened_last : ∃ es w closed opening earlier, Exec (preparation env) es w ∧
    es = closed ++ opening :: earlier ∧
    ∃ call cmd, opening.act = .handle call (.completeCp4 cmd) := by
  have hruns : (preparation env).runs opened (toFirstBid ++ [openAt (days 14)])
      (fun _ w => w.db.case.state == .completed) = true := by
    decide +kernel
  obtain ⟨es, w, hrun, hstate⟩ := Machine.exec_of_runs opened_init hruns
  obtain ⟨closed, opening, _, _, _, _, _, _, _, hes, _, _, _, _, _, _, hopening, _⟩ :=
    completed_in_order hrun (eq_of_beq hstate)
  exact ⟨es, w, closed, opening, _, hrun, hes, hopening⟩

def opensEarly (e : Event World Action) : Bool :=
  match e.act with
  | .handle call (.completeCp4 _) => e.pre.db.case.state == .receivingBids &&
      e.post.db.case.state == .completed &&
      (match e.pre.db.case.bidsCloseAt with | some t => decide (call.now < t) | none => false)
  | _ => false

/-- The bids are opened as soon as the first one is in, fourteen days before they
    close. -/
theorem opened_early : ∃ es w, Exec (preparation env) es w ∧
    w.db.case.state = .completed ∧ ¬ ∀ e ∈ es, OpensInTime e := by
  have hruns : (preparation env).runs opened (toFirstBid ++ [openAt 0]) (fun es w =>
      w.db.case.state == .completed && es.any opensEarly) = true := by
    decide +kernel
  obtain ⟨es, w, hrun, htest⟩ := Machine.exec_of_runs opened_init hruns
  simp only [Bool.and_eq_true, beq_iff_eq, List.any_eq_true] at htest
  obtain ⟨hstate, e, he, hearly⟩ := htest
  refine ⟨es, w, hrun, hstate, ?_⟩
  intro htime
  simp only [opensEarly] at hearly
  split at hearly
  · next call cmd hact =>
    simp only [Bool.and_eq_true, beq_iff_eq] at hearly
    obtain ⟨⟨hbefore, hafter⟩, hnow⟩ := hearly
    split at hnow
    · next t hclose =>
      obtain ⟨call', cmd', hact', hclosed⟩ := htime e he (by rw [hbefore]; decide) hafter
      rw [hact] at hact'
      obtain ⟨rfl, _⟩ := Action.handle.inj hact'
      exact absurd (hclosed t hclose) (not_le.mpr (of_decide_eq_true hnow))
    · cases hnow
  · cases hearly

end Office

end DigitalWorker
