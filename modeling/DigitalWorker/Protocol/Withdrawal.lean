import DigitalWorker.Protocol.World

/-! # What a withdrawal leaves pending

    The second transaction of an amendment cancels checkpoints of the case among the
    newest fifty pending requests of the tenant, and commits if it has a name for the
    last of them. What it computes is written out here as one map over the requests;
    from it, when no approval of the case is left pending.
-/

namespace DigitalWorker

/-! ## The property -/

def NoStaleApproval (env : Env) (caseId : Uuid) (requests : List ApprovalRequest) : Prop :=
  ∀ q ∈ requests, isCheckpointOf env caseId q = true → q.status ≠ .pending

instance (env : Env) (caseId : Uuid) (requests : List ApprovalRequest) :
    Decidable (NoStaleApproval env caseId requests) :=
  inferInstanceAs (Decidable (∀ q ∈ requests, isCheckpointOf env caseId q = true →
    q.status ≠ .pending))

def otherRequests (env : Env) (caseId : Uuid) (requests : List ApprovalRequest) :
    List ApprovalRequest :=
  requests.filter (fun q => !isCheckpointOf env caseId q)

/-! ## What the withdrawal computes -/

/-- A request after `cancel`. -/
def ApprovalRequest.cancelled (q : ApprovalRequest) : ApprovalRequest :=
  { q with status := .cancelled, version := q.version + 1 }

def cancelIn (ids : List Uuid) (q : ApprovalRequest) : ApprovalRequest :=
  if q.id ∈ ids then q.cancelled else q

def withdrawnAs (env : Env) (q : ApprovalRequest) : String :=
  if checkpointName env q = "" then wireName q.approvalType else checkpointName env q

def listedCheckpoints (env : Env) (caseId : Uuid) (requests : List ApprovalRequest) :
    List ApprovalRequest :=
  (listPending requests 50).filter (isCheckpointOf env caseId)

/-- **The condition**: every pending checkpoint of the case is among the newest fifty
    pending requests of the tenant, and the last of them has a name. -/
structure Withdrawable (env : Env) (caseId : Uuid) (requests : List ApprovalRequest) : Prop where
  listed : ∀ q ∈ requests, isCheckpointOf env caseId q = true → q.status = .pending →
    q ∈ listPending requests 50
  named : ∀ q, (listedCheckpoints env caseId requests).getLast? = some q → withdrawnAs env q ≠ ""

section

variable {env : Env} {caseId : Uuid} {requests : List ApprovalRequest}

@[simp] theorem cancelIn_id (ids : List Uuid) (q : ApprovalRequest) : (cancelIn ids q).id = q.id := by
  unfold cancelIn
  split <;> rfl

@[simp] theorem isCheckpointOf_cancelIn (ids : List Uuid) (q : ApprovalRequest) :
    isCheckpointOf env caseId (cancelIn ids q) = isCheckpointOf env caseId q := by
  unfold cancelIn
  split <;> rfl

theorem saveRequest_cancelIn {ids : List Uuid} {q : ApprovalRequest}
    (hids : (requests.map (·.id)).Nodup) (hq : q ∈ requests) (hnew : q.id ∉ ids) :
    saveRequest (requests.map (cancelIn ids)) q.cancelled =
      .ok (requests.map (cancelIn (ids ++ [q.id]))) := by
  have hfound : (requests.map (cancelIn ids)).any
      (fun r => r.id == q.cancelled.id && r.version + 1 == q.cancelled.version) = true := by
    rw [List.any_eq_true]
    refine ⟨cancelIn ids q, List.mem_map_of_mem hq, ?_⟩
    unfold cancelIn
    rw [if_neg hnew]
    simp [ApprovalRequest.cancelled]
  unfold saveRequest
  rw [if_pos hfound, List.map_map]
  apply congrArg
  apply List.map_congr_left
  intro r hr
  show (if (cancelIn ids r).id = q.id then _ else cancelIn ids r) = cancelIn (ids ++ [q.id]) r
  rw [cancelIn_id]
  by_cases hsame : r.id = q.id
  · -- the row of the request itself, which is still as it was read
    obtain rfl : r = q := List.inj_on_of_nodup_map hids hr hq hsame
    have hadded : r.id ∈ ids ++ [r.id] := by simp
    unfold cancelIn
    rw [if_pos rfl, if_neg hnew, if_pos hadded]
    rfl
  · have hiff : r.id ∈ ids ++ [q.id] ↔ r.id ∈ ids := by simp [hsame]
    unfold cancelIn
    rw [if_neg hsame]
    simp only [hiff]

/-- **Loop lemma**: the loop cancels the checkpoints it is given, and keeps the name of
    the last one. -/
theorem withdrawLoop_eq {qs : List ApprovalRequest} {ids : List Uuid} {name : String}
    (hids : (requests.map (·.id)).Nodup)
    (hqs : ∀ q ∈ qs, q ∈ requests ∧ q.status = .pending)
    (hnew : (ids ++ qs.map (·.id)).Nodup) :
    qs.foldlM (withdrawOne env caseId) (requests.map (cancelIn ids), name) =
      .ok (requests.map (cancelIn (ids ++ (qs.filter (isCheckpointOf env caseId)).map (·.id))),
        ((qs.filter (isCheckpointOf env caseId)).getLast?.map (withdrawnAs env)).getD name) := by
  induction qs generalizing ids name with
  | nil => simp only [List.foldlM_nil, List.filter_nil, List.map_nil, List.append_nil]; rfl
  | cons q qs ih =>
    obtain ⟨hmem, hpending⟩ := hqs q List.mem_cons_self
    have hrest : ∀ q' ∈ qs, q' ∈ requests ∧ q'.status = .pending :=
      fun q' hq' => hqs q' (List.mem_cons_of_mem _ hq')
    have hfresh : q.id ∉ ids := by
      intro hin
      have hdisjoint := List.disjoint_of_nodup_append hnew
      exact hdisjoint hin (by simp)
    rw [List.foldlM_cons]
    by_cases hc : isCheckpointOf env caseId q = true
    · have hcancel : q.cancel = .ok q.cancelled := ApprovalRequest.cancel_ok.mpr ⟨hpending, rfl⟩
      have hturn : withdrawOne env caseId (requests.map (cancelIn ids), name) q =
          .ok (requests.map (cancelIn (ids ++ [q.id])), withdrawnAs env q) := by
        unfold withdrawOne
        rw [if_pos hc]
        rw [hcancel]
        show (saveRequest (requests.map (cancelIn ids)) q.cancelled >>= fun saved =>
          pure (saved, withdrawnAs env q)) = _
        rw [saveRequest_cancelIn hids hmem hfresh]
        rfl
      have hnext : ((ids ++ [q.id]) ++ qs.map (·.id)).Nodup := by
        rw [List.append_assoc]
        exact hnew
      rw [hturn]
      show qs.foldlM _ _ = _
      rw [ih hrest hnext, List.filter_cons_of_pos hc, List.getLast?_cons, List.map_cons,
        List.append_assoc]
      cases (qs.filter (isCheckpointOf env caseId)).getLast? with
      | none => rfl
      | some last => rfl
    · have hturn : withdrawOne env caseId (requests.map (cancelIn ids), name) q =
          .ok (requests.map (cancelIn ids), name) := by
        unfold withdrawOne
        rw [if_neg hc]
        rfl
      have hnext : (ids ++ qs.map (·.id)).Nodup :=
        List.Nodup.sublist (List.Sublist.append_left (List.sublist_cons_self _ _) _) hnew
      rw [hturn, List.filter_cons_of_neg hc]
      exact ih hrest hnext

theorem listPending_ids (hids : (requests.map (·.id)).Nodup) (limit : Nat) :
    ((listPending requests limit).map (·.id)).Nodup := by
  have hpending : ((requests.filter (fun q => q.status == .pending)).map (·.id)).Nodup :=
    List.Nodup.sublist (List.filter_sublist.map _) hids
  have hsorted := ((List.perm_insertionSort (fun a b => b.createdAt ≤ a.createdAt)
    (requests.filter (fun q => q.status == .pending))).map (·.id)).nodup_iff.mpr hpending
  unfold listPending
  exact List.Nodup.sublist ((List.take_sublist _ _).map _) hsorted

/-- **Withdrawal**: the listed checkpoints of the case are cancelled and nothing else
    is, unless the last of them has no name; then nothing is committed. -/
theorem withdrawPending_eq (hids : (requests.map (·.id)).Nodup) :
    ∃ name, withdrawPending env caseId requests = .ok
      (if ∃ q, (listedCheckpoints env caseId requests).getLast? = some q ∧
          withdrawnAs env q ≠ "" then
        requests.map (cancelIn ((listedCheckpoints env caseId requests).map (·.id)))
      else requests, name) := by
  have hloop := @withdrawLoop_eq env caseId requests (listPending requests 50) [] "" hids
    (fun q hq => listPending_mem hq) (listPending_ids hids 50)
  have hnone : requests.map (cancelIn []) = requests := by
    conv_rhs => rw [← List.map_id requests]
    apply List.map_congr_left
    intro q _
    exact if_neg List.not_mem_nil
  rw [hnone, List.nil_append] at hloop
  unfold withdrawPending
  rw [hloop]
  show ∃ name, Except.ok _ = _
  rw [show (listPending requests 50).filter (isCheckpointOf env caseId) =
    listedCheckpoints env caseId requests from rfl]
  cases hlast : (listedCheckpoints env caseId requests).getLast? with
  | none =>
    refine ⟨"", ?_⟩
    simp
  | some q =>
    by_cases hname : withdrawnAs env q = ""
    · refine ⟨"", ?_⟩
      simp [hname]
    · refine ⟨withdrawnAs env q, ?_⟩
      simp [hname]

/-- **Amending leaves no stale approval** if and only if the listing shows every pending
    checkpoint of the case and the last one has a name; a request of another case is
    never touched. -/
theorem withdrawn_iff (hids : (requests.map (·.id)).Nodup) :
    ∃ requests' name, withdrawPending env caseId requests = .ok (requests', name) ∧
      (NoStaleApproval env caseId requests' ∧
          otherRequests env caseId requests' = otherRequests env caseId requests ↔
        Withdrawable env caseId requests) := by
  obtain ⟨name, hrun⟩ := @withdrawPending_eq env caseId requests hids
  refine ⟨_, name, hrun, ?_⟩
  by_cases hlast : ∃ q, (listedCheckpoints env caseId requests).getLast? = some q ∧
      withdrawnAs env q ≠ ""
  · rw [if_pos hlast]
    obtain ⟨last, hq, hname⟩ := hlast
    have hother : otherRequests env caseId
        (requests.map (cancelIn ((listedCheckpoints env caseId requests).map (·.id)))) =
        otherRequests env caseId requests := by
      unfold otherRequests
      rw [List.filter_map]
      have hsame : (fun q => !isCheckpointOf env caseId q) ∘
          cancelIn ((listedCheckpoints env caseId requests).map (·.id)) =
          fun q => !isCheckpointOf env caseId q := by
        funext q
        simp
      rw [hsame]
      conv_rhs => rw [← List.map_id (requests.filter _)]
      apply List.map_congr_left
      intro q hq
      obtain ⟨hmem, hforeign⟩ := List.mem_filter.mp hq
      unfold cancelIn
      rw [if_neg]
      · rfl
      · intro hin
        obtain ⟨q', hq', hid⟩ := List.mem_map.mp hin
        obtain ⟨hlisted, hc⟩ := List.mem_filter.mp hq'
        obtain rfl := List.inj_on_of_nodup_map hids (listPending_mem hlisted).1 hmem hid
        rw [hc] at hforeign
        cases hforeign
    rw [and_iff_left hother]
    constructor
    · intro hclear
      refine ⟨?_, ?_⟩
      · intro q hmem hc hpending
        by_contra hunlisted
        have hkept : cancelIn ((listedCheckpoints env caseId requests).map (·.id)) q = q := by
          unfold cancelIn
          rw [if_neg]
          intro hin
          obtain ⟨q', hq', hid⟩ := List.mem_map.mp hin
          obtain ⟨hlisted, _⟩ := List.mem_filter.mp hq'
          obtain rfl := List.inj_on_of_nodup_map hids (listPending_mem hlisted).1 hmem hid
          exact hunlisted hlisted
        apply hclear q _ hc hpending
        rw [← hkept]
        exact List.mem_map_of_mem hmem
      · intro q' hq'
        obtain rfl := Option.some.inj (hq.symm.trans hq')
        exact hname
    · intro hcondition q' hq' hc hpending
      obtain ⟨q, hmem, rfl⟩ := List.mem_map.mp hq'
      rw [isCheckpointOf_cancelIn] at hc
      by_cases hin : q.id ∈ (listedCheckpoints env caseId requests).map (·.id)
      · unfold cancelIn at hpending
        rw [if_pos hin] at hpending
        cases hpending
      · unfold cancelIn at hpending
        rw [if_neg hin] at hpending
        apply hin
        have hlisted := hcondition.listed q hmem hc hpending
        exact List.mem_map_of_mem (List.mem_filter.mpr ⟨hlisted, hc⟩)
  · rw [if_neg hlast, and_iff_left rfl]
    constructor
    · intro hclear
      refine ⟨?_, ?_⟩
      · intro q hmem hc hpending
        exact absurd hpending (hclear q hmem hc)
      · intro q hq
        -- a listed checkpoint would still be pending
        obtain ⟨hlisted, hc⟩ := List.mem_filter.mp (List.mem_of_getLast? hq)
        obtain ⟨hmem, hpending⟩ := listPending_mem hlisted
        exact absurd hpending (hclear q hmem hc)
    · intro hcondition q hmem hc hpending
      have hlisted := List.mem_filter.mpr ⟨hcondition.listed q hmem hc hpending, hc⟩
      have hsome : ∃ last, (listedCheckpoints env caseId requests).getLast? = some last :=
        ⟨_, List.getLast?_eq_some_getLast (List.ne_nil_of_mem hlisted)⟩
      obtain ⟨last, hq⟩ := hsome
      exact hlast ⟨last, hq, hcondition.named last hq⟩

end

/-! ## A busy tenant -/

namespace Office

def otherWork (k : Nat) : ApprovalRequest :=
  { id := { text := String.ofList (List.replicate (k + 1) 'x')
            nonempty := by simp [String.ext_iff] }
    approvalType := "workflow.review", requestedBy := chi, reason := "", payload := []
    runId := none, createdAt := k + 1 }

def oldCp1 : ApprovalRequest :=
  { id := cp1Request, approvalType := "preparation.cp1", requestedBy := an, reason := ""
    payload := [("case_id", .str opened.db.case.id.text), ("checkpoint", .str "CP1")]
    runId := some run, createdAt := 0 }

/-- Behind `n` newer requests of other workers. -/
def queue (n : Nat) : List ApprovalRequest := oldCp1 :: (List.range n).map otherWork

/-- Two others: the checkpoint is withdrawn. -/
theorem short_queue_withdrawn : ∃ requests' name,
    withdrawPending env opened.db.case.id (queue 2) = .ok (requests', name) ∧
      (NoStaleApproval env opened.db.case.id requests' ∧
          otherRequests env opened.db.case.id requests' =
            otherRequests env opened.db.case.id (queue 2) ↔
        Withdrawable env opened.db.case.id (queue 2)) :=
  withdrawn_iff (by decide +kernel)

/-- Fifty others: it is not, and stays pending. -/
theorem long_queue_hides : ((queue 50).map (·.id)).Nodup ∧ ∃ requests' name,
    withdrawPending env opened.db.case.id (queue 50) = .ok (requests', name) ∧
      ¬ NoStaleApproval env opened.db.case.id requests' := by
  let left (result : Except Error (List ApprovalRequest × String)) : Bool :=
    match result with
    | .ok (requests', _) => !decide (NoStaleApproval env opened.db.case.id requests')
    | .error _ => false
  have hids : ((queue 50).map (·.id)).Nodup := by decide +kernel
  have hleft : left (withdrawPending env opened.db.case.id (queue 50)) = true := by
    decide +kernel
  refine ⟨hids, ?_⟩
  simp only [left] at hleft
  split at hleft
  · next requests' name hrun => exact ⟨requests', name, hrun, by simpa using hleft⟩
  · cases hleft

end Office

end DigitalWorker
