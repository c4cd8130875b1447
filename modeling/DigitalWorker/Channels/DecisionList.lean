import DigitalWorker.Channels.Engine
import DigitalWorker.Protocol.Authority
import DigitalWorker.Protocol.OnFile

/-! # The list and the write paths

    The list of what waits is filtered by hand, and so are the handlers that
    decide. Of the rules of the handlers, the list knows two: whoever filed a case
    is not offered its verification, and a request that names a role is offered to
    that role. Whether the reader may decide at all, filed the case that waits for
    CP3 or raised the request, it does not ask; and what the list does not hold
    can be decided all the same.
-/

namespace DigitalWorker.Channels

open Framework

inductive Checkpoint where
  | intake
  /-- CP1 and CP2, for which a run waits. -/
  | review (cp : ReviewCheckpoint)
  | cp3
  | cp4
  /-- Whether a proposed addendum is filed. -/
  | addendum

def proposed (db : CaseDb) : Bool := db.jobs.any (fun j => j.eventType == .addendumProposed)

def callOf : Action → Option Call
  | .handle call _ => some call
  | .decide call _ => some call
  | _ => none

def Checkpoint.decidedBy (w : World) : Checkpoint → Action → Prop
  | .intake, .handle _ (.verifyIntake _ _) => True
  | .intake, .handle _ (.rejectIntake _ _) => True
  | .review cp, .decide _ cmd =>
    ∃ q ∈ w.requests, q.id = cmd.approvalId ∧ q.approvalType = cp.approvalType
  | .cp3, .handle _ (.decideCp3 _) => True
  | .cp4, .handle _ (.completeCp4 _) => True
  | .addendum, .handle _ (.submitAddendum _) => proposed w.db = true
  | _, _ => False

def Checkpoint.offeredBy : Checkpoint → PendingItem → Bool
  | .intake, item => item.kind == .intake
  | .review cp, item => item.kind == .cp && item.cp == cp.key
  | .cp3, item => item.kind == .cp && item.cp == "cp3"
  | .cp4, item => item.kind == .cp4
  | .addendum, _ => false

/-! ## The property -/

section

variable (env : Env) (context : AccessContext) (s : Workspace)

def Accepts (t : ChatTurn) (item : PendingItem) : Prop :=
  ∀ approve action value, item.act approve = some (action, value) →
    ∃ a s', dispatch env t s action value = .ok (.writes a) ∧ Workspace.step env s a = some s'

/-- **Soundness**: what is offered is accepted. -/
def Sound : Prop :=
  ∀ items, pending env context s = .ok items → ∀ item ∈ items, ∀ t : ChatTurn,
    t.call.context = context → t.Delivers → Accepts env s t item

/-- **Completeness**: what could be decided is offered. -/
def Complete : Prop :=
  ∀ w ∈ s.worlds, ∀ (c : Checkpoint) (a : Action) (call : Call) (s' : Workspace),
    c.decidedBy w a → callOf a = some call → call.context = context →
      Workspace.step env s (.act w.db.case.id a) = some s' →
        ∃ items, pending env context s = .ok items ∧
          ∃ item ∈ items, item.caseId = w.db.case.id.text ∧ c.offeredBy item = true

/-! ## The condition -/

def mayRead : Prop := isAllowed context "tender.read" = true

def mayDecide : Prop := isAllowed context "approvals.decide" = true

def frontOf (q : ApprovalRequest) : Option ApprovalRequest :=
  (listedRequests s).find? (fun q' =>
    q'.approvalType == q.approvalType && caseIdOf env q' == caseIdOf env q)

structure ListFits : Prop where
  scope : mayRead context → ¬ mayDecide context →
    (∀ w ∈ recentCases s, w.db.case.state ≠ .cp3Pending ∧
      (w.db.case.state = .draft → w.db.case.createdBy = context.principalId)) ∧
    ∀ q ∈ listedRequests s, isCheckpoint q = true → roleFits env context q = false
  /-- Nobody is shown the addendum of a case of their own. -/
  creators : mayRead context → ∀ w ∈ recentCases s, w.db.case.state = .cp3Pending →
    w.db.case.createdBy ≠ context.principalId
  /-- Behind every request shown is one for this role, raised by somebody else. -/
  requesters : mayRead context → ∀ q ∈ listedRequests s, isCheckpoint q = true →
    roleFits env context q = true → ∀ q', frontOf env s q = some q' →
      q'.requestedBy ≠ context.principalId ∧ roleFits env context q' = true
  /-- No case that waits for this user is older than the newest fifty. -/
  cases : mayDecide context → ∀ w ∈ s.worlds,
    w.db.case.state = .draft ∨ w.db.case.state = .cp3Pending →
      w.db.case.createdBy ≠ context.principalId → mayRead context ∧ w ∈ recentCases s
  /-- No request that waits for this user is, unless its checkpoint is shown. -/
  requests : mayDecide context → ∀ w ∈ s.worlds, ∀ q ∈ w.requests, q.status = .pending →
    q.requestedBy ≠ context.principalId → roleFits env context q = true →
      mayRead context ∧ ∃ q' ∈ listedRequests s, q'.approvalType = q.approvalType ∧
        caseIdOf env q' = caseIdOf env q ∧ roleFits env context q' = true
  /-- No bids of others wait to be opened. -/
  opening : mayDecide context → ∀ w ∈ s.worlds, w.db.case.state = .receivingBids →
    w.db.case.createdBy = context.principalId
  /-- No addendum is proposed for a published case. -/
  addenda : mayDecide context → ∀ w ∈ s.worlds, w.db.case.state = .published →
    proposed w.db = false

end

/-! ## Steps on one case -/

section

variable {env : Env} {context : AccessContext} {s : Workspace} {w : World} {call : Call}

theorem act_handle_iff (hids : (s.worlds.map (·.db.case.id)).Nodup) (hw : w ∈ s.worlds)
    {h : Handler} : (∃ s', Workspace.step env s (.act w.db.case.id (.handle call h)) = some s') ↔
      ∃ db', h.run env w.directory call w.db = .ok db' := by
  simp only [Workspace.step, caseOf_mem hids hw, Workspace.admits, if_true, Workspace.seenFrom,
    World.step]
  cases h.run env w.directory call w.db with
  | error e => simp
  | ok db => simp

theorem act_decide_iff (hids : (s.worlds.map (·.db.case.id)).Nodup) (hw : w ∈ s.worlds)
    {cmd : DecideCommand} :
    (∃ s', Workspace.step env s (.act w.db.case.id (.decide call cmd)) = some s') ↔
      ∃ q, getRequest w.requests cmd.approvalId = some q ∧ q.status = .pending ∧
        ¬ Refused env call cmd q := by
  simp only [Workspace.step, caseOf_mem hids hw, Workspace.admits, if_true, Workspace.seenFrom,
    World.step, World.decide]
  constructor
  · intro h
    obtain ⟨s', h⟩ := h
    cases hdecide : decideRequest env call cmd w.requests with
    | error e => simp [hdecide] at h
    | ok r =>
      obtain ⟨q, hq, hpending, haccepted, _⟩ := decideRequest_ok.mp hdecide
      exact ⟨q, hq, hpending, haccepted⟩
  · intro h
    obtain ⟨q, hq, hpending, haccepted⟩ := h
    obtain ⟨saved, hdecide⟩ := decideRequest_accepts hq hpending haccepted
    rw [hdecide]
    exact ⟨_, rfl⟩

theorem not_refused_checkpoint {cmd : DecideCommand} {q : ApprovalRequest}
    (hq : q.isPreparation = true) (hcomment : blank cmd.comment = false) :
    ¬ Refused env call cmd q ↔ mayDecide call.context ∧
      q.requestedBy ≠ call.context.principalId ∧ roleFits env call.context q = true := by
  have hrole : roleFits env call.context q = true ↔
      q.requiredRole env.repr = "" ∨ q.requiredRole env.repr ∈ call.context.roles := by
    simp [roleFits]
  simp only [Refused, mayDecide, hrole, hq, hcomment, true_and, Bool.false_eq_true, and_false,
    or_false]
  constructor
  · intro h
    simp only [not_or, not_and, not_not, Bool.not_eq_false] at h
    obtain ⟨hscope, hother, hholds⟩ := h
    refine ⟨hscope, hother, ?_⟩
    by_cases hempty : q.requiredRole env.repr = ""
    · exact .inl hempty
    · exact .inr (hholds hempty)
  · intro h hrefused
    obtain ⟨hscope, hother, hholds⟩ := h
    rcases hrefused with hno | hown | ⟨hreserved, hlacks⟩
    · rw [hscope] at hno
      cases hno
    · exact hother hown
    · exact hholds.elim hreserved hlacks

theorem caseNamed_mem (hids : (s.worlds.map (·.db.case.id)).Nodup) (hw : w ∈ s.worlds) :
    caseNamed s w.db.case.id.text = some w := by
  have htexts : (s.worlds.map (fun w => w.db.case.id.text)).Nodup := by
    have hinj : Function.Injective Uuid.text := by
      intro a b h
      cases a
      cases b
      cases h
      rfl
    have h := hids.map hinj
    rw [List.map_map] at h
    exact h
  exact find_of_nodup htexts hw

theorem checkpoint_request {es : List (Event Workspace WorkspaceAction)}
    (h : Exec (workspace env) es s) {q : ApprovalRequest} (hq : q ∈ s.requests)
    (hcheckpoint : isCheckpoint q = true) :
    ∃ w ∈ s.worlds, q ∈ w.requests ∧ OfCheckpoint env w.db.case.id q.approvalType q.payload := by
  rcases List.mem_append.mp hq with hcase | hother
  · obtain ⟨w, hw, hmem⟩ := List.mem_flatMap.mp hcase
    obtain ⟨es', hes⟩ := workspace_projects h w hw
    exact ⟨w, hw, hmem, requests_ofCheckpoint hes q hmem⟩
  · exfalso
    have hprep : q.isPreparation = true := by
      have hlong := List.isPrefixOf_iff_prefix.mp hcheckpoint
      have hshort : "preparation.".toList <+: "preparation.cp".toList := by decide
      exact List.isPrefixOf_iff_prefix.mpr (hshort.trans hlong)
    rw [workspace_others h q hother] at hprep
    cases hprep

/-- **On file**: whatever people do to whichever cases, each case has on file what the
    decision it waits for rests on. -/
theorem cases_on_file {es : List (Event Workspace WorkspaceAction)}
    (h : Exec (workspace env) es s) : ∀ w ∈ s.worlds, OnFile w.db := by
  intro w hw
  obtain ⟨es', hes⟩ := workspace_projects h w hw
  exact onFile hes

theorem checkpoint_reads {caseId : Uuid} {q : ApprovalRequest}
    (h : OfCheckpoint env caseId q.approvalType q.payload) :
    ∃ cp : ReviewCheckpoint, q.approvalType = cp.approvalType ∧
      lastPart q.approvalType = cp.key ∧ caseIdOf env q = caseId.text ∧
      isCheckpoint q = true ∧ q.isPreparation = true := by
  obtain ⟨cp, value, gate, htype, hpayload⟩ := h
  refine ⟨cp, htype, ?_, ?_, ?_, ?_⟩
  · rw [htype]
    cases cp <;> decide
  · rw [caseIdOf, hpayload]
    rfl
  · rw [isCheckpoint, htype]
    cases cp <;> decide
  · rw [ApprovalRequest.isPreparation, htype]
    cases cp <;> decide

theorem mem_requests {q : ApprovalRequest} (hw : w ∈ s.worlds) (hq : q ∈ w.requests) :
    q ∈ s.requests :=
  List.mem_append_left _ (List.mem_flatMap.mpr ⟨w, hw, hq⟩)

theorem recent_mem (hw : w ∈ recentCases s) : w ∈ s.worlds := List.mem_of_mem_take hw

end

/-! ## Soundness -/

section

variable {env : Env} {context : AccessContext} {s : Workspace} {t : ChatTurn} {w : World}

theorem reference_not_blank (t : ChatTurn) : blank t.reference = false := by
  apply blank_of_head (c := 'C')
  · rw [ChatTurn.reference, String.toList_append]
    rfl
  · decide

theorem comment_not_blank (t : ChatTurn) : blank ("Quyết định " ++ t.via) = false := by
  apply blank_of_head (c := 'Q')
  · rw [String.toList_append]
    rfl
  · decide

theorem rejection_not_blank (t : ChatTurn) : blank ("Từ chối " ++ t.via) = false := by
  apply blank_of_head (c := 'T')
  · rw [String.toList_append]
    rfl
  · decide

variable {es : List (Event Workspace WorkspaceAction)} {item : PendingItem}

theorem accepts_intake (hids : (s.worlds.map (·.db.case.id)).Nodup) (hw : w ∈ s.worlds)
    (hfile : OnFile w.db) (hscope : mayDecide t.call.context) (hstate : w.db.case.state = .draft)
    (hother : w.db.case.createdBy ≠ t.call.context.principalId)
    (hkind : item.kind = .intake) (hcase : item.caseId = w.db.case.id.text) :
    Accepts env s t item := by
  intro approve action value hact
  have hdispatch : ∀ h : Handler, (∃ db', h.run env w.directory t.call w.db = .ok db') →
      ∃ a s', onCase t s item.caseId h = .ok (.writes a) ∧ Workspace.step env s a = some s' := by
    intro h hrun
    have hstep : ∃ s', Workspace.step env s (.act w.db.case.id (.handle t.call h)) = some s' :=
      (act_handle_iff hids hw).mpr hrun
    obtain ⟨s', hs'⟩ := hstep
    refine ⟨_, s', ?_, hs'⟩
    unfold onCase
    rw [hcase, caseNamed_mem hids hw]
  simp only [PendingItem.act, hkind, Option.some.injEq, Prod.mk.injEq] at hact
  obtain ⟨rfl, rfl⟩ := hact
  cases approve with
  | true =>
    apply hdispatch (.verifyIntake t.reference ("Xác minh " ++ t.via))
    exact verifyIntake_succeeds_iff.mpr
      ⟨hscope, reference_not_blank t, hother, hfile.source, hstate⟩
  | false =>
    apply hdispatch (.rejectIntake ("Từ chối " ++ t.via) "")
    exact rejectIntake_succeeds (rejection_not_blank t) hscope hother hstate

theorem dispatch_cp (hkind : item.kind = .cp) {approve : Bool}
    {action : ActionId} {value : String} (hact : item.act approve = some (action, value)) :
    dispatch env t s action value =
      onCheckpoint env t s approve (item.cp ++ ":" ++ item.caseId) := by
  simp only [PendingItem.act, hkind, Option.some.injEq, Prod.mk.injEq] at hact
  obtain ⟨rfl, rfl⟩ := hact
  cases approve <;> rfl

theorem accepts_cp3 (hids : (s.worlds.map (·.db.case.id)).Nodup) (hw : w ∈ s.worlds)
    (hfile : OnFile w.db) (hscope : mayDecide t.call.context)
    (hstate : w.db.case.state = .cp3Pending)
    (hother : w.db.case.createdBy ≠ t.call.context.principalId) (hdelivers : t.Delivers)
    (hkind : item.kind = .cp) (hcp : item.cp = "cp3")
    (hcase : item.caseId = w.db.case.id.text) : Accepts env s t item := by
  intro approve action value hact
  have hrun : ∃ db', (Handler.decideCp3
      { approve := approve, approvalReference := t.reference
        comment := "Quyết định " ++ t.via, sent := t.sent }).run env w.directory t.call w.db =
      .ok db' :=
    decideCp3_succeeds hscope (reference_not_blank t) hother hstate (hfile.draft hstate) hdelivers
  have hstep : ∃ s', Workspace.step env s (.act w.db.case.id (.handle t.call (.decideCp3
      { approve := approve, approvalReference := t.reference
        comment := "Quyết định " ++ t.via, sent := t.sent }))) = some s' :=
    (act_handle_iff hids hw).mpr hrun
  obtain ⟨s', hs'⟩ := hstep
  refine ⟨_, s', ?_, hs'⟩
  rw [dispatch_cp hkind hact, hcp, hcase, onCheckpoint, partitionColon_append (by decide)]
  simp only [caseNamed_mem hids hw, if_true]

theorem approvalType_eq (cp : ReviewCheckpoint) : "preparation." ++ cp.key = cp.approvalType := by
  cases cp <;> decide

theorem approvalType_inj {cp cp' : ReviewCheckpoint}
    (h : cp.approvalType = cp'.approvalType) : cp = cp' := by
  revert h
  cases cp <;> cases cp' <;> decide

theorem key_inj {cp cp' : ReviewCheckpoint} (h : cp.key = cp'.key) : cp = cp' := by
  revert h
  cases cp <;> cases cp' <;> decide

theorem front_request
    (h : Exec (workspace env) es s) {q : ApprovalRequest} (hq : q ∈ listedRequests s)
    (hcheckpoint : isCheckpoint q = true) :
    ∃ w ∈ s.worlds, ∃ (cp : ReviewCheckpoint) (q' : ApprovalRequest),
      lastPart q.approvalType = cp.key ∧ caseIdOf env q = w.db.case.id.text ∧
      frontOf env s q = some q' ∧ findPendingApproval env s cp.key w.db.case.id = some q' ∧
      getRequest w.requests q'.id = some q' ∧ q'.status = .pending ∧ q'.isPreparation = true := by
  have hids := workspace_caseIds h
  obtain ⟨w, hw, _, hof⟩ := checkpoint_request h (listPending_mem hq).1 hcheckpoint
  obtain ⟨cp, htype, hkey, hcaseId, _, _⟩ := checkpoint_reads hof
  obtain ⟨q', hq'⟩ : ∃ q', frontOf env s q = some q' := by
    rw [← Option.isSome_iff_exists, frontOf, List.find?_isSome]
    exact ⟨q, hq, by simp⟩
  have hfound : findPendingApproval env s cp.key w.db.case.id = frontOf env s q := by
    rw [findPendingApproval, frontOf, htype, hcaseId, approvalType_eq]
  have hmem : q' ∈ listedRequests s := List.mem_of_find?_eq_some hq'
  have hsame := List.find?_some hq'
  simp only [Bool.and_eq_true, beq_iff_eq] at hsame
  have hcheckpoint' : isCheckpoint q' = true := by
    rw [isCheckpoint, hsame.1]
    exact hcheckpoint
  obtain ⟨w', hw', hown, hof'⟩ := checkpoint_request h (listPending_mem hmem).1 hcheckpoint'
  obtain ⟨_, _, _, hcaseId', _, hprep⟩ := checkpoint_reads hof'
  -- both requests name one case
  have hworld : w' = w := by
    have hnamed := caseNamed_mem hids hw'
    rw [← hcaseId', hsame.2, hcaseId, caseNamed_mem hids hw] at hnamed
    exact (Option.some.inj hnamed).symm
  rw [hworld] at hown
  obtain ⟨es', hes⟩ := workspace_projects h w hw
  exact ⟨w, hw, cp, q', hkey, hcaseId, hq', hfound.trans hq',
    find_of_nodup (requestIds_nodup hes) hown, (listPending_mem hmem).2, hprep⟩

theorem accepts_review
    (h : Exec (workspace env) es s) (hscope : mayDecide t.call.context)
    {q : ApprovalRequest} (hq : q ∈ listedRequests s) (hcheckpoint : isCheckpoint q = true)
    (hfront : ∀ q', frontOf env s q = some q' →
      q'.requestedBy ≠ t.call.context.principalId ∧ roleFits env t.call.context q' = true)
    (hkind : item.kind = .cp) (hcp : item.cp = lastPart q.approvalType)
    (hcase : item.caseId = caseIdOf env q) : Accepts env s t item := by
  intro approve action value hact
  have hids := workspace_caseIds h
  obtain ⟨w, hw, cp, q', hkey, hcaseId, hq', hfound, hget, hpending, hprep⟩ :=
    front_request h hq hcheckpoint
  have hstep : ∀ cmd : DecideCommand, cmd.approvalId = q'.id → blank cmd.comment = false →
      ∃ s', Workspace.step env s (.act w.db.case.id (.decide t.call cmd)) = some s' := by
    intro cmd hid hcomment
    rw [act_decide_iff hids hw, hid]
    exact ⟨q', hget, hpending, (not_refused_checkpoint hprep hcomment).mpr ⟨hscope, hfront q' hq'⟩⟩
  obtain ⟨s', hs'⟩ := hstep
    { approvalId := q'.id, approve := approve, comment := "Quyết định " ++ t.via } rfl
    (comment_not_blank t)
  refine ⟨_, s', ?_, hs'⟩
  have hcolon : ':' ∉ cp.key.toList := by cases cp <;> decide
  have hnot3 : cp.key ≠ "cp3" := by cases cp <;> decide
  rw [dispatch_cp hkind hact, hcp, hkey, hcase, hcaseId, onCheckpoint,
    partitionColon_append hcolon]
  simp only [caseNamed_mem hids hw, if_neg hnot3, hfound]

/-- **Sound**: on a list that fits, what is offered is accepted. -/
theorem ListFits.sound
    (h : Exec (workspace env) es s) (hfits : ListFits env context s) : Sound env context s := by
  intro items hitems item hitem t ht hdelivers
  subst ht
  have hids := workspace_caseIds h
  have hread : mayRead t.call.context := pending_succeeds_iff.mp ⟨items, hitems⟩
  rcases (mem_pending hitems).mp hitem with ⟨w, hrecent, hcase⟩ | ⟨q, hq, hrequest⟩
  · have hw := recent_mem hrecent
    obtain ⟨es', hes⟩ := workspace_projects h w hw
    have hfile := onFile hes
    obtain ⟨hid, hstates⟩ := caseItem_some hcase
    rcases hstates with ⟨hstate, hother, hkind⟩ | ⟨hstate, hkind, hcp⟩ | ⟨hstate, _⟩
    · have hscope : mayDecide t.call.context := by
        by_contra hno
        exact hother (((hfits.scope hread hno).1 w hrecent).2 hstate)
      exact accepts_intake hids hw hfile hscope hstate hother hkind hid
    · have hscope : mayDecide t.call.context := by
        by_contra hno
        exact ((hfits.scope hread hno).1 w hrecent).1 hstate
      have hother := hfits.creators hread w hrecent hstate
      exact accepts_cp3 hids hw hfile hscope hstate hother hdelivers hkind hcp hid
    · exact absurd hstate hfile.notReady
  · obtain ⟨hcheckpoint, hrole, hkind, hcp, hid⟩ := requestItem_some hrequest
    have hscope : mayDecide t.call.context := by
      by_contra hno
      have hnot := (hfits.scope hread hno).2 q hq hcheckpoint
      rw [hrole] at hnot
      cases hnot
    exact accepts_review h hscope hq hcheckpoint
      (hfits.requesters hread q hq hcheckpoint hrole) hkind hcp hid

end

/-! ## Completeness -/

section

variable {env : Env} {context : AccessContext} {s : Workspace} {w : World}

theorem offered_case (hread : mayRead context) (hrecent : w ∈ recentCases s)
    {item : PendingItem} (hitem : caseItem context w.db.case = some item) :
    ∃ items, pending env context s = .ok items ∧ item ∈ items := by
  have hitems : ∃ items, pending env context s = .ok items := pending_succeeds_iff.mpr hread
  obtain ⟨items, hitems⟩ := hitems
  exact ⟨items, hitems, (mem_pending hitems).mpr (.inl ⟨w, hrecent, hitem⟩)⟩

theorem offered_request (hread : mayRead context) {q : ApprovalRequest}
    (hq : q ∈ listedRequests s) (hcheckpoint : isCheckpoint q = true)
    (hrole : roleFits env context q = true) :
    ∃ items item, pending env context s = .ok items ∧ item ∈ items ∧ item.kind = .cp ∧
      item.cp = lastPart q.approvalType ∧ item.caseId = caseIdOf env q := by
  have hitems : ∃ items, pending env context s = .ok items := pending_succeeds_iff.mpr hread
  obtain ⟨items, hitems⟩ := hitems
  obtain ⟨item, hitem⟩ := requestItem_of_fits ((recentCases s).map (·.db.case)) hcheckpoint hrole
  obtain ⟨_, _, hkind, hcp, hid⟩ := requestItem_some hitem
  exact ⟨items, item, hitems, (mem_pending hitems).mpr (.inr ⟨q, hq, hitem⟩), hkind, hcp, hid⟩

theorem caseItem_draft {c : PreparationCase} (hstate : c.state = .draft)
    (hother : c.createdBy ≠ context.principalId) :
    ∃ item, caseItem context c = some item ∧ item.kind = .intake ∧ item.caseId = c.id.text := by
  unfold caseItem
  rw [hstate]
  simp only [if_neg hother]
  exact ⟨_, rfl, rfl, rfl⟩

theorem caseItem_cp3 {c : PreparationCase} (context : AccessContext) (hstate : c.state = .cp3Pending) :
    ∃ item, caseItem context c = some item ∧ item.kind = .cp ∧ item.cp = "cp3" ∧
      item.caseId = c.id.text := by
  unfold caseItem
  rw [hstate]
  exact ⟨_, rfl, rfl, rfl, rfl⟩

theorem accepted_checkpoint {call : Call} {cmd : DecideCommand} {q : ApprovalRequest}
    (hq : q.isPreparation = true) (h : ¬ Refused env call cmd q) :
    mayDecide call.context ∧ q.requestedBy ≠ call.context.principalId ∧
      roleFits env call.context q = true := by
  have hcomment : blank cmd.comment = false := by
    by_contra hblank
    apply h
    right; right; right
    exact ⟨hq, by simpa using hblank⟩
  exact (not_refused_checkpoint hq hcomment).mp h

theorem decided_request {es : List (Event Workspace WorkspaceAction)}
    (h : Exec (workspace env) es s) (hw : w ∈ s.worlds) {q : ApprovalRequest}
    (hq : q ∈ w.requests) {call : Call} {cmd : DecideCommand} {s' : Workspace}
    (hid : q.id = cmd.approvalId)
    (hs : Workspace.step env s (.act w.db.case.id (.decide call cmd)) = some s') :
    q.status = .pending ∧ mayDecide call.context ∧ q.requestedBy ≠ call.context.principalId ∧
      roleFits env call.context q = true := by
  obtain ⟨es', hes⟩ := workspace_projects h w hw
  obtain ⟨_, _, _, _, _, hprep⟩ := checkpoint_reads (requests_ofCheckpoint hes q hq)
  obtain ⟨q', hget, hpending, haccepted⟩ :=
    (act_decide_iff (workspace_caseIds h) hw).mp ⟨s', hs⟩
  rw [← hid] at hget
  have hsame : getRequest w.requests q.id = some q := find_of_nodup (requestIds_nodup hes) hq
  rw [hsame] at hget
  obtain rfl := Option.some.inj hget
  exact ⟨hpending, accepted_checkpoint hprep haccepted⟩

/-- **Complete**: on a list that fits, what could be decided is offered. -/
theorem ListFits.complete {es : List (Event Workspace WorkspaceAction)}
    (h : Exec (workspace env) es s) (hfits : ListFits env context s) :
    Complete env context s := by
  intro w hw c a call s' hdecides hcall hcontext hs
  subst hcontext
  have hids := workspace_caseIds h
  -- a draft of somebody else is on the list
  have hdraft : mayDecide call.context → w.db.case.state = .draft →
      w.db.case.createdBy ≠ call.context.principalId →
      ∃ items, pending env call.context s = .ok items ∧ ∃ item ∈ items,
        item.caseId = w.db.case.id.text ∧ Checkpoint.intake.offeredBy item = true := by
    intro hscope hstate hother
    obtain ⟨hread, hrecent⟩ := hfits.cases hscope w hw (.inl hstate) hother
    obtain ⟨item, hitem, hkind, hid⟩ := caseItem_draft hstate hother
    obtain ⟨items, hitems, hmem⟩ := offered_case hread hrecent hitem
    exact ⟨items, hitems, item, hmem, hid, by simp [Checkpoint.offeredBy, hkind]⟩
  cases c with
  | intake =>
    cases a with
    | handle call' hd =>
      obtain rfl := Option.some.inj hcall
      obtain ⟨db', hrun⟩ := (act_handle_iff hids hw).mp ⟨s', hs⟩
      cases hd with
      | verifyIntake ref comment =>
        obtain ⟨hscope, _, hother, _, hstate⟩ := verifyIntake_succeeds_iff.mp ⟨db', hrun⟩
        exact hdraft hscope hstate hother
      | rejectIntake comment reasonCode =>
        obtain ⟨hscope, hother, hstate⟩ := rejectIntake_requires hrun
        exact hdraft hscope hstate hother
      | _ => cases hdecides
    | _ => cases hdecides
  | review cp =>
    cases a with
    | decide call' cmd =>
      obtain rfl := Option.some.inj hcall
      obtain ⟨q, hq, hid, htype⟩ := hdecides
      obtain ⟨hpending, hscope, hother, hrole⟩ := decided_request h hw hq hid hs
      obtain ⟨es', hes⟩ := workspace_projects h w hw
      obtain ⟨cp', htype', hkey, hcaseId, _, _⟩ :=
        checkpoint_reads (requests_ofCheckpoint hes q hq)
      obtain ⟨hread, q', hlisted, hsameType, hsameCase, hrole'⟩ :=
        hfits.requests hscope w hw q hq hpending hother hrole
      have hcheckpoint : isCheckpoint q' = true := by
        rw [isCheckpoint, hsameType, htype]
        cases cp <;> decide
      obtain ⟨items, item, hitems, hmem, hkind, hcp, hcase⟩ :=
        offered_request hread hlisted hcheckpoint hrole'
      refine ⟨items, hitems, item, hmem, by rw [hcase, hsameCase, hcaseId], ?_⟩
      have hcps : cp' = cp := approvalType_inj (htype'.symm.trans htype)
      simp [Checkpoint.offeredBy, hkind, hcp, hsameType, hkey, hcps]
    | _ => cases hdecides
  | cp3 =>
    cases a with
    | handle call' hd =>
      obtain rfl := Option.some.inj hcall
      obtain ⟨db', hrun⟩ := (act_handle_iff hids hw).mp ⟨s', hs⟩
      cases hd with
      | decideCp3 cmd =>
        obtain ⟨hscope, hother, hstate⟩ := decideCp3_requires hrun
        obtain ⟨hread, hrecent⟩ := hfits.cases hscope w hw (.inr hstate) hother
        obtain ⟨item, hitem, hkind, hcp, hid⟩ := caseItem_cp3 call'.context hstate
        obtain ⟨items, hitems, hmem⟩ := offered_case hread hrecent hitem
        exact ⟨items, hitems, item, hmem, hid, by simp [Checkpoint.offeredBy, hkind, hcp]⟩
      | _ => cases hdecides
    | _ => cases hdecides
  | cp4 =>
    exfalso
    cases a with
    | handle call' hd =>
      obtain rfl := Option.some.inj hcall
      obtain ⟨db', hrun⟩ := (act_handle_iff hids hw).mp ⟨s', hs⟩
      cases hd with
      | completeCp4 cmd =>
        have hopen := completeCp4_mayOpen hrun
        exact hopen.other (hfits.opening hopen.scope w hw hopen.state)
      | _ => cases hdecides
    | _ => cases hdecides
  | addendum =>
    exfalso
    cases a with
    | handle call' hd =>
      obtain rfl := Option.some.inj hcall
      obtain ⟨db', hrun⟩ := (act_handle_iff hids hw).mp ⟨s', hs⟩
      cases hd with
      | submitAddendum cmd =>
        obtain ⟨hscope, hstate, _⟩ := submitAddendum_succeeds_iff.mp ⟨db', hrun⟩
        have hproposed : proposed w.db = true := hdecides
        rw [hfits.addenda hscope w hw hstate] at hproposed
        cases hproposed
      | _ => cases hdecides
    | _ => cases hdecides

end

/-! ## The condition is needed -/

section

variable {env : Env} {context : AccessContext} {s : Workspace} {w : World} {t : ChatTurn}

def plainTurn (context : AccessContext) : ChatTurn :=
  { call := { context := context, newId := fun _ => context.principalId }
    displayName := "", stamp := "", openedAt := "", minutes := "-"
    published := { messageId := "", sentTo := "", evidence := "-" }
    proposal := fun _ => .error (domainError "") }

theorem plainTurn_delivers : (plainTurn context).Delivers := by
  intro d hd
  cases hd

theorem ran_of_accepted (hids : (s.worlds.map (·.db.case.id)).Nodup) (hw : w ∈ s.worlds)
    {value : String} (hvalue : value = w.db.case.id.text) {h : Handler} {a : WorkspaceAction}
    {s' : Workspace} (hdispatch : onCase t s value h = .ok (.writes a))
    (hs : Workspace.step env s a = some s') : ∃ db', h.run env w.directory t.call w.db = .ok db' := by
  rw [hvalue, onCase, caseNamed_mem hids hw] at hdispatch
  obtain rfl := Dispatch.writes.inj (Except.ok.inj hdispatch)
  exact (act_handle_iff hids hw).mp ⟨s', hs⟩

variable {es : List (Event Workspace WorkspaceAction)} {item : PendingItem}

theorem accepts_intake_requires (hids : (s.worlds.map (·.db.case.id)).Nodup) (hw : w ∈ s.worlds)
    (hkind : item.kind = .intake) (hcase : item.caseId = w.db.case.id.text)
    (h : Accepts env s t item) : mayDecide t.call.context := by
  obtain ⟨a, s', hdispatch, hs⟩ := h true .intakeApprove item.caseId (by
    simp [PendingItem.act, hkind])
  have hran := ran_of_accepted (h := .verifyIntake t.reference ("Xác minh " ++ t.via)) hids hw
    hcase hdispatch hs
  exact (verifyIntake_succeeds_iff.mp hran).1

theorem accepts_cp3_requires (hids : (s.worlds.map (·.db.case.id)).Nodup) (hw : w ∈ s.worlds)
    (hkind : item.kind = .cp) (hcp : item.cp = "cp3")
    (hcase : item.caseId = w.db.case.id.text) (h : Accepts env s t item) :
    mayDecide t.call.context ∧ w.db.case.createdBy ≠ t.call.context.principalId := by
  have hact : item.act true = some (.cpApprove, item.cp ++ ":" ++ item.caseId) := by
    simp [PendingItem.act, hkind]
  obtain ⟨a, s', hdispatch, hs⟩ := h true .cpApprove _ hact
  rw [dispatch_cp hkind hact, hcp, hcase, onCheckpoint, partitionColon_append (by decide)] at hdispatch
  simp only [caseNamed_mem hids hw, if_true, Except.ok.injEq, Dispatch.writes.injEq] at hdispatch
  rw [← hdispatch] at hs
  have hran : ∃ db', decideCp3 env t.call
      { approve := true, approvalReference := t.reference, comment := "Quyết định " ++ t.via
        sent := t.sent } w.db = .ok db' := (act_handle_iff hids hw).mp ⟨s', hs⟩
  obtain ⟨db', hrun⟩ := hran
  obtain ⟨hscope, hother, _⟩ := decideCp3_requires hrun
  exact ⟨hscope, hother⟩

theorem accepts_review_requires
    (h : Exec (workspace env) es s) {q q' : ApprovalRequest} (hq : q ∈ listedRequests s)
    (hcheckpoint : isCheckpoint q = true) (hfront : frontOf env s q = some q')
    (hkind : item.kind = .cp) (hcp : item.cp = lastPart q.approvalType)
    (hcase : item.caseId = caseIdOf env q) (haccepts : Accepts env s t item) :
    mayDecide t.call.context ∧ q'.requestedBy ≠ t.call.context.principalId ∧
      roleFits env t.call.context q' = true := by
  have hids := workspace_caseIds h
  obtain ⟨w, hw, cp, q₀, hkey, hcaseId, hq₀, hfound, hget, _, hprep⟩ :=
    front_request h hq hcheckpoint
  obtain rfl : q₀ = q' := Option.some.inj (hq₀.symm.trans hfront)
  have hact : item.act true = some (.cpApprove, item.cp ++ ":" ++ item.caseId) := by
    simp [PendingItem.act, hkind]
  obtain ⟨a, s', hdispatch, hs⟩ := haccepts true .cpApprove _ hact
  have hcolon : ':' ∉ cp.key.toList := by cases cp <;> decide
  have hnot3 : cp.key ≠ "cp3" := by cases cp <;> decide
  rw [dispatch_cp hkind hact, hcp, hkey, hcase, hcaseId, onCheckpoint,
    partitionColon_append hcolon] at hdispatch
  simp only [caseNamed_mem hids hw, if_neg hnot3, hfound, Except.ok.injEq,
    Dispatch.writes.injEq] at hdispatch
  rw [← hdispatch] at hs
  obtain ⟨q₁, hget₁, _, haccepted⟩ := (act_decide_iff hids hw).mp ⟨s', hs⟩
  obtain rfl : q₀ = q₁ := Option.some.inj (hget.symm.trans hget₁)
  exact accepted_checkpoint hprep haccepted

theorem Sound.fits
    (h : Exec (workspace env) es s) (hsound : Sound env context s) (hread : mayRead context) :
    (∀ w ∈ recentCases s, (w.db.case.state = .draft →
        w.db.case.createdBy ≠ context.principalId → mayDecide context) ∧
      (w.db.case.state = .cp3Pending →
        mayDecide context ∧ w.db.case.createdBy ≠ context.principalId)) ∧
    ∀ q ∈ listedRequests s, isCheckpoint q = true → roleFits env context q = true →
      ∀ q', frontOf env s q = some q' → mayDecide context ∧
        q'.requestedBy ≠ context.principalId ∧ roleFits env context q' = true := by
  have hids := workspace_caseIds h
  refine ⟨?_, ?_⟩
  · intro w hrecent
    have hw := recent_mem hrecent
    refine ⟨?_, ?_⟩
    · intro hstate hother
      obtain ⟨item, hitem, hkind, hid⟩ := caseItem_draft hstate hother
      obtain ⟨items, hitems, hmem⟩ := offered_case hread hrecent hitem
      exact accepts_intake_requires hids hw hkind hid
        (hsound items hitems item hmem (plainTurn context) rfl plainTurn_delivers)
    · intro hstate
      obtain ⟨item, hitem, hkind, hcp, hid⟩ := caseItem_cp3 context hstate
      obtain ⟨items, hitems, hmem⟩ := offered_case hread hrecent hitem
      exact accepts_cp3_requires hids hw hkind hcp hid
        (hsound items hitems item hmem (plainTurn context) rfl plainTurn_delivers)
  · intro q hq hcheckpoint hrole q' hfront
    obtain ⟨items, item, hitems, hmem, hkind, hcp, hid⟩ :=
      offered_request hread hq hcheckpoint hrole
    exact accepts_review_requires h hq hcheckpoint hfront hkind hcp hid
      (hsound items hitems item hmem (plainTurn context) rfl plainTurn_delivers)

theorem recent_of_item (hids : (s.worlds.map (·.db.case.id)).Nodup) (hw : w ∈ s.worlds)
    {v : World} (hv : v ∈ recentCases s)
    (hitem : caseItem context v.db.case = some item) (hcase : item.caseId = w.db.case.id.text) :
    v = w := by
  have hid := (caseItem_some hitem).1
  have hnamed := caseNamed_mem hids (recent_mem hv)
  rw [← hid, hcase, caseNamed_mem hids hw] at hnamed
  exact (Option.some.inj hnamed).symm

theorem request_item (h : Exec (workspace env) es s)
    {cases : List PreparationCase} {q : ApprovalRequest} (hq : q ∈ listedRequests s)
    (hitem : requestItem env context cases q = some item) :
    ∃ cp : ReviewCheckpoint, q.approvalType = cp.approvalType ∧ item.kind = .cp ∧
      item.cp = cp.key ∧ item.caseId = caseIdOf env q ∧ roleFits env context q = true := by
  obtain ⟨hcheckpoint, hrole, hkind, hcp, hid⟩ := requestItem_some hitem
  obtain ⟨w, _, _, hof⟩ := checkpoint_request h (listPending_mem hq).1 hcheckpoint
  obtain ⟨cp, htype, hkey, _⟩ := checkpoint_reads hof
  exact ⟨cp, htype, hkind, hcp.trans hkey, hid, hrole⟩

theorem Complete.offers (hcomplete : Complete env context s) (hw : w ∈ s.worlds) {c : Checkpoint}
    {a : Action} {call : Call} (hs : ∃ s', Workspace.step env s (.act w.db.case.id a) = some s')
    (hcall : callOf a = some call) (hcontext : call.context = context)
    (hdecides : c.decidedBy w a) :
    mayRead context ∧ ∃ item, item.caseId = w.db.case.id.text ∧ c.offeredBy item = true ∧
      ((∃ v ∈ recentCases s, caseItem context v.db.case = some item) ∨
        ∃ q ∈ listedRequests s,
          requestItem env context ((recentCases s).map (·.db.case)) q = some item) := by
  obtain ⟨s', hs⟩ := hs
  obtain ⟨items, hitems, item, hmem, hid, hoffered⟩ :=
    hcomplete w hw c a call s' hdecides hcall hcontext hs
  exact ⟨pending_succeeds_iff.mp ⟨items, hitems⟩, item, hid, hoffered,
    (mem_pending hitems).mp hmem⟩

def plainCall (context : AccessContext) : Call := (plainTurn context).call

theorem Complete.cases
    (h : Exec (workspace env) es s) (hcomplete : Complete env context s)
    (hscope : mayDecide context) (hw : w ∈ s.worlds)
    (hstate : w.db.case.state = .draft ∨ w.db.case.state = .cp3Pending)
    (hother : w.db.case.createdBy ≠ context.principalId) :
    mayRead context ∧ w ∈ recentCases s := by
  have hids := workspace_caseIds h
  obtain ⟨es', hes⟩ := workspace_projects h w hw
  have hfile := onFile hes
  rcases hstate with hstate | hstate
  · have hrun : ∃ db', (Handler.verifyIntake "CHAT-" "").run env w.directory
        (plainCall context) w.db = .ok db' :=
      verifyIntake_succeeds_iff.mpr ⟨hscope, by decide, hother, hfile.source, hstate⟩
    obtain ⟨hread, item, hid, hoffered, hrow⟩ := hcomplete.offers (c := .intake) hw
      ((act_handle_iff hids hw).mpr hrun) rfl rfl trivial
    refine ⟨hread, ?_⟩
    rcases hrow with ⟨v, hv, hitem⟩ | ⟨q, hq, hitem⟩
    · rw [← recent_of_item hids hw hv hitem hid]
      exact hv
    · obtain ⟨_, _, hkind, _⟩ := request_item h hq hitem
      simp [Checkpoint.offeredBy, hkind] at hoffered
  · have hrun : ∃ db', (Handler.decideCp3 { approve := false, approvalReference := "CHAT-"
                                            comment := "" }).run env w.directory
        (plainCall context) w.db = .ok db' :=
      decideCp3_succeeds hscope (by decide) hother hstate (hfile.draft hstate)
        (fun d hd => by cases hd)
    obtain ⟨hread, item, hid, hoffered, hrow⟩ := hcomplete.offers (c := .cp3) hw
      ((act_handle_iff hids hw).mpr hrun) rfl rfl trivial
    refine ⟨hread, ?_⟩
    rcases hrow with ⟨v, hv, hitem⟩ | ⟨q, hq, hitem⟩
    · rw [← recent_of_item hids hw hv hitem hid]
      exact hv
    · -- a row of CP1 or CP2 is none of CP3
      obtain ⟨cp, _, _, hcp, _⟩ := request_item h hq hitem
      have hnot3 : cp.key ≠ "cp3" := by cases cp <;> decide
      simp [Checkpoint.offeredBy, hcp, hnot3] at hoffered

theorem Complete.requests
    (h : Exec (workspace env) es s) (hcomplete : Complete env context s)
    (hscope : mayDecide context) (hw : w ∈ s.worlds) {q : ApprovalRequest} (hq : q ∈ w.requests)
    (hpending : q.status = .pending) (hother : q.requestedBy ≠ context.principalId)
    (hrole : roleFits env context q = true) :
    mayRead context ∧ ∃ q' ∈ listedRequests s, q'.approvalType = q.approvalType ∧
      caseIdOf env q' = caseIdOf env q ∧ roleFits env context q' = true := by
  have hids := workspace_caseIds h
  obtain ⟨es', hes⟩ := workspace_projects h w hw
  obtain ⟨cp, htype, _, hcaseId, _, hprep⟩ := checkpoint_reads (requests_ofCheckpoint hes q hq)
  have hget : getRequest w.requests q.id = some q := find_of_nodup (requestIds_nodup hes) hq
  have hdecide : ∀ cmd : DecideCommand, cmd.approvalId = q.id → blank cmd.comment = false →
      ∃ s', Workspace.step env s (.act w.db.case.id (.decide (plainCall context) cmd)) =
        some s' := by
    intro cmd hid hcomment
    rw [act_decide_iff hids hw, hid]
    exact ⟨q, hget, hpending, (not_refused_checkpoint hprep hcomment).mpr ⟨hscope, hother, hrole⟩⟩
  obtain ⟨hread, item, hid, hoffered, hrow⟩ := hcomplete.offers (c := .review cp) hw
    (hdecide { approvalId := q.id, approve := true, comment := "duyệt" } rfl
      (show blank "duyệt" = false by decide)) rfl rfl ⟨q, hq, rfl, htype⟩
  refine ⟨hread, ?_⟩
  simp only [Checkpoint.offeredBy, Bool.and_eq_true, beq_iff_eq] at hoffered
  rcases hrow with ⟨v, hv, hitem⟩ | ⟨q', hq', hitem⟩
  · exfalso
    -- the row of a case is for CP3, if for any checkpoint with a number
    have hnot3 : cp.key ≠ "cp3" := by cases cp <;> decide
    rcases (caseItem_some hitem).2 with ⟨_, _, hkind⟩ | ⟨_, _, hcp⟩ | ⟨_, hkind⟩
    · rw [hkind] at hoffered
      cases hoffered.1
    · exact hnot3 (hoffered.2.symm.trans hcp)
    · rw [hkind] at hoffered
      cases hoffered.1
  · obtain ⟨cp', htype', _, hcp, hcase, hrole'⟩ := request_item h hq' hitem
    have hcps : cp' = cp := key_inj (hcp.symm.trans hoffered.2)
    refine ⟨q', hq', ?_, ?_, hrole'⟩
    · rw [htype', hcps, htype]
    · rw [← hcase, hid, hcaseId]

theorem Complete.opening
    (h : Exec (workspace env) es s) (hcomplete : Complete env context s)
    (hscope : mayDecide context) (hw : w ∈ s.worlds)
    (hstate : w.db.case.state = .receivingBids) :
    w.db.case.createdBy = context.principalId := by
  by_contra hother
  have hids := workspace_caseIds h
  obtain ⟨es', hes⟩ := workspace_projects h w hw
  have hfile := onFile hes
  have hopen : ∃ db', (Handler.completeCp4
      { file := { filename := "", content := "-" }, openingAt := "", witnesses := ["-"]
        approvalReference := "CHAT-", comment := "" }).run env w.directory
      (plainCall context) w.db = .ok db' :=
    completeCp4_of_mayOpen
      ⟨hscope, (by decide : blank "CHAT-" = false), List.cons_ne_nil _ _, hother, hstate,
        hfile.bids hstate, (by decide : "-" ≠ "")⟩
  obtain ⟨_, item, hid, hoffered, hrow⟩ := hcomplete.offers (c := .cp4) hw
    ((act_handle_iff hids hw).mpr hopen) rfl rfl trivial
  simp only [Checkpoint.offeredBy, beq_iff_eq] at hoffered
  rcases hrow with ⟨v, hv, hitem⟩ | ⟨q, hq, hitem⟩
  · rcases (caseItem_some hitem).2 with ⟨_, _, hkind⟩ | ⟨_, hkind, _⟩ | ⟨hready, _⟩
    · rw [hkind] at hoffered
      cases hoffered
    · rw [hkind] at hoffered
      cases hoffered
    · rw [recent_of_item hids hw hv hitem hid] at hready
      exact hfile.notReady hready
  · obtain ⟨_, _, hkind, _⟩ := request_item h hq hitem
    rw [hkind] at hoffered
    cases hoffered

theorem Complete.addenda
    (h : Exec (workspace env) es s) (hcomplete : Complete env context s)
    (hscope : mayDecide context) (hw : w ∈ s.worlds) (hstate : w.db.case.state = .published) :
    proposed w.db = false := by
  by_contra hproposed
  have hids := workspace_caseIds h
  have hrun : ∃ db', (Handler.submitAddendum
      { file := { filename := "", content := "-" }, changeSummary := ""
        impactSummary := "" }).run env w.directory (plainCall context) w.db = .ok db' :=
    submitAddendum_succeeds_iff.mpr ⟨hscope, hstate, (by decide : "-" ≠ "")⟩
  obtain ⟨_, item, _, hoffered, _⟩ := hcomplete.offers (c := .addendum) hw
    ((act_handle_iff hids hw).mpr hrun) rfl rfl (show proposed w.db = true by simpa using hproposed)
  cases hoffered

/-- **The list and the write paths**: in every reachable workspace, what a user is
    offered is accepted and what they could decide is offered, if and only if the
    list fits them. -/
theorem list_exact_iff {es : List (Event Workspace WorkspaceAction)}
    (h : Exec (workspace env) es s) :
    (Sound env context s ∧ Complete env context s) ↔ ListFits env context s := by
  constructor
  · intro hexact
    obtain ⟨hsound, hcomplete⟩ := hexact
    constructor
    · intro hread hno
      obtain ⟨hcases, hrequests⟩ := hsound.fits h hread
      refine ⟨?_, ?_⟩
      · intro w hw
        refine ⟨fun hstate => hno ((hcases w hw).2 hstate).1, ?_⟩
        intro hstate
        by_contra hother
        exact hno ((hcases w hw).1 hstate hother)
      · intro q hq hcheckpoint
        by_contra hrole
        have hrole : roleFits env context q = true := by simpa using hrole
        obtain ⟨_, _, _, q', _, _, hfront, _⟩ := front_request h hq hcheckpoint
        exact hno (hrequests q hq hcheckpoint hrole q' hfront).1
    · intro hread w hw hstate
      exact (((hsound.fits h hread).1 w hw).2 hstate).2
    · intro hread q hq hcheckpoint hrole q' hfront
      exact ((hsound.fits h hread).2 q hq hcheckpoint hrole q' hfront).2
    · intro hscope w hw hstate hother
      exact hcomplete.cases h hscope hw hstate hother
    · intro hscope w hw q hq hpending hother hrole
      exact hcomplete.requests h hscope hw hq hpending hother hrole
    · intro hscope w hw hstate
      exact hcomplete.opening h hscope hw hstate
    · intro hscope w hw hstate
      exact hcomplete.addenda h hscope hw hstate
  · intro hfits
    exact ⟨hfits.sound h, hfits.complete h⟩

end

/-! ## One office -/

open Office

def waitsAtCp1 (context : AccessContext) (s : Workspace) : Bool :=
  s.worlds.all (fun w => w.db.case.state == .cp1Pending) &&
    s.requests.all (fun q => q.requestedBy != context.principalId && roleFits env context q &&
      (listedRequests s).any (fun q' => q'.approvalType == q.approvalType &&
        caseIdOf env q' == caseIdOf env q && roleFits env context q'))

theorem fits_of_waits {context : AccessContext} {s : Workspace} (hread : mayRead context)
    (hscope : mayDecide context) (h : waitsAtCp1 context s = true) : ListFits env context s := by
  simp only [waitsAtCp1, Bool.and_eq_true, List.all_eq_true, List.any_eq_true, beq_iff_eq,
    bne_iff_ne] at h
  obtain ⟨hstates, hrequests⟩ := h
  have hstate : ∀ w ∈ s.worlds, ∀ state, w.db.case.state = state → state = .cp1Pending := by
    intro w hw state heq
    rw [← heq]
    exact hstates w hw
  constructor
  · intro _ hno
    exact absurd hscope hno
  · intro _ w hw hcp3
    exact absurd (hstate w (recent_mem hw) _ hcp3) (by decide)
  · intro _ q hq _ _ q' hfront
    have hmem : q' ∈ s.requests := (listPending_mem (List.mem_of_find?_eq_some hfront)).1
    exact (hrequests q' hmem).1
  · intro _ w hw hwaits
    rcases hwaits with hwaits | hwaits
    · exact absurd (hstate w hw _ hwaits) (by decide)
    · exact absurd (hstate w hw _ hwaits) (by decide)
  · intro _ w hw q hq _ _ _
    obtain ⟨_, q', hlisted, hsame⟩ := hrequests q (mem_requests hw hq)
    exact ⟨hread, q', hlisted, hsame.1.1, hsame.1.2, hsame.2⟩
  · intro _ w hw hwaits
    exact absurd (hstate w hw _ hwaits) (by decide)
  · intro _ w hw hwaits
    exact absurd (hstate w hw _ hwaits) (by decide)

def reader (user : Uuid) : AccessContext :=
  { principalId := user, roles := ["approver"], scopes := ["tender.read", "approvals.decide"] }

def deskRun : List WorkspaceAction :=
  .openCase (call an) request :: toCp1.map (.act ((call an).newId 0))

def office : Workspace := { directory := directory }

theorem office_init : (workspace env).init office := ⟨rfl, rfl⟩

/-- Bình is offered what he can decide, and nothing else. -/
theorem listed_for_binh : ∃ es s, Exec (workspace env) es s ∧ s.worlds.length = 1 ∧
    Sound env (reader binh) s ∧ Complete env (reader binh) s := by
  have hrun : (workspace env).runs office deskRun
      (fun _ s => s.worlds.length == 1 && waitsAtCp1 (reader binh) s) = true := by
    decide +kernel
  obtain ⟨es, s, hexec, htest⟩ := Machine.exec_of_runs office_init hrun
  simp only [Bool.and_eq_true, beq_iff_eq] at htest
  have hfits : ListFits env (reader binh) s :=
    fits_of_waits (by decide : isAllowed (reader binh) "tender.read" = true)
      (by decide : isAllowed (reader binh) "approvals.decide" = true) htest.2
  obtain ⟨hsound, hcomplete⟩ := (list_exact_iff hexec).mpr hfits
  exact ⟨es, s, hexec, htest.1, hsound, hcomplete⟩

theorem filed_in_office : ∃ es s, Exec (workspace env) es s ∧ s.worlds.length = 1 ∧
    ∀ w ∈ s.worlds, OnFile w.db := by
  have hrun : (workspace env).runs office deskRun (fun _ s => s.worlds.length == 1) = true := by
    decide +kernel
  obtain ⟨es, s, hexec, hone⟩ := Machine.exec_of_runs office_init hrun
  exact ⟨es, s, hexec, eq_of_beq hone, cases_on_file hexec⟩

/-- An is offered the checkpoint of the run she started, and refused. -/
theorem own_checkpoint_offered : ∃ es s, Exec (workspace env) es s ∧
    (∃ items, pending env (reader an) s = .ok items ∧
      items.map (fun item => (item.cp, item.caseId)) = [("cp1", "first")]) ∧
    ¬ (Sound env (reader an) s ∧ Complete env (reader an) s) := by
  have hrun : (workspace env).runs office deskRun (fun _ s =>
      ((pending env (reader an) s).toOption.map
        (·.map (fun item => (item.cp, item.caseId))) == some [("cp1", "first")]) &&
      (listedRequests s).any (fun q => isCheckpoint q && roleFits env (reader an) q &&
        (frontOf env s q).any (fun q' => q'.requestedBy == an))) = true := by
    decide +kernel
  obtain ⟨es, s, hexec, htest⟩ := Machine.exec_of_runs office_init hrun
  simp only [Bool.and_eq_true, beq_iff_eq, List.any_eq_true] at htest
  obtain ⟨hlist, q, hq, ⟨hcheckpoint, hrole⟩, hfront⟩ := htest
  refine ⟨es, s, hexec, ?_, ?_⟩
  · cases hitems : pending env (reader an) s with
    | error e =>
      rw [hitems] at hlist
      cases hlist
    | ok items =>
      rw [hitems] at hlist
      exact ⟨items, rfl, Option.some.inj hlist⟩
  · intro hexact
    rw [Option.any_eq_true] at hfront
    obtain ⟨q', hq', hown⟩ := hfront
    have hread : mayRead (reader an) := by
      show isAllowed (reader an) "tender.read" = true
      decide
    have hother := ((hexact.1.fits hexec hread).2 q hq hcheckpoint hrole q' hq').2.1
    have hown : q'.requestedBy = an := by simpa using hown
    exact hother hown

end DigitalWorker.Channels
