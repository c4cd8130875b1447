import DigitalWorker.Preparation.Amend
import DigitalWorker.Preparation.NodeMoves

/-! # The suppliers of a case

    The list of candidates is written by the handler that opens a case and by
    the one that amends it, read once by a run, and copied to the shortlist.
    Both gates compare the length of the copy with a minimum of the rule set.
    Opening a case drops a name that is given twice. Amending one does not.
-/

namespace DigitalWorker

/-! ## Lists of names -/

/-- `names` holds at least `n` different suppliers, each with a name. -/
def Competes (names : List String) (n : Int) : Prop :=
  ∃ chosen : List String, chosen.Nodup ∧ (∀ s ∈ chosen, s ∈ names ∧ blank s = false) ∧
    n ≤ chosen.length

def FairNames (rules : ProcurementRules) (names : List String) : Prop :=
  ∀ m ∈ rules.methods, m.minSuppliers ≤ names.length → m.minSuppliers ≤ names.dedup.length

instance (rules : ProcurementRules) (names : List String) : Decidable (FairNames rules names) :=
  inferInstanceAs (Decidable (∀ m ∈ rules.methods, _ → _))

section

variable {rules : ProcurementRules} {names : List String} {method : Method}

theorem FairNames.of_nodup (h : names.Nodup) : FairNames rules names := by
  intro m _ hlen
  rw [h.dedup]
  exact hlen

theorem FairNames.competes (h : FairNames rules names) (hnamed : ∀ s ∈ names, blank s = false)
    (hm : method ∈ rules.methods) (hlen : method.minSuppliers ≤ names.length) :
    Competes names method.minSuppliers := by
  refine ⟨names.dedup, List.nodup_dedup _, ?_, h method hm hlen⟩
  intro s hs
  have hmem : s ∈ names := List.mem_dedup.mp hs
  exact ⟨hmem, hnamed s hmem⟩

theorem Competes.le_dedup {n : Int} (h : Competes names n) : n ≤ names.dedup.length := by
  obtain ⟨chosen, hnodup, hmem, hn⟩ := h
  have hsub : chosen ⊆ names.dedup := fun s hs => List.mem_dedup.mpr (hmem s hs).1
  have hlen : chosen.length ≤ names.dedup.length := (List.subperm_of_subset hnodup hsub).length_le
  omega

theorem nodup_eraseDups (names : List String) : names.eraseDups.Nodup := by
  -- the tail shrinks by more than its head, so the induction is on the length
  induction hlen : names.length using Nat.strong_induction_on generalizing names with
  | _ k ih =>
    cases names with
    | nil => simp
    | cons s rest =>
      rw [List.eraseDups_cons, List.nodup_cons]
      constructor
      · simp
      · have hshort : (rest.filter (fun b => !b == s)).length < k := by
          have := List.length_filter_le (fun b => !b == s) rest
          simp only [List.length_cons] at hlen
          omega
        exact ih _ hshort _ rfl

theorem strip_named {s : String} (hs : s ∈ (names.map strip).filter (· ≠ "")) :
    blank s = false := by
  obtain ⟨hmem, hne⟩ := List.mem_filter.mp hs
  obtain ⟨t, _, rfl⟩ := List.mem_map.mp hmem
  simpa [blank] using hne

theorem supplierCandidates_nodup : (supplierCandidates names).Nodup := nodup_eraseDups _

theorem supplierCandidates_named : ∀ s ∈ supplierCandidates names, blank s = false := by
  intro s hs
  exact strip_named (List.mem_eraseDups.mp hs)

end

def supplierRows (names : List String) : List Dict := names.map fun n => [("name", .str n)]

def invitedNames (env : Env) (rows : List Dict) : List String :=
  rows.map fun s => (s.getD "name" (.str "")).pyStr env.repr

section

variable {env : Env} {names : List String}

theorem invitedNames_supplierRows : invitedNames env (supplierRows names) = names := by
  rw [invitedNames, supplierRows, List.map_map]
  exact List.map_id' names

theorem dictItems_supplierContent {source : String} :
    dictItems ((supplierContent source names).getD "suppliers" (.arr [])) =
      supplierRows names := by
  have hrows : names.map (fun n => Json.obj [("name", .str n)]) =
      (supplierRows names).map Json.obj := by
    simp [supplierRows]
  show dictItems (.arr (names.map (fun n => Json.obj [("name", .str n)]))) = _
  rw [hrows, dictItems_arr_obj]

theorem invitedNames_shortlistOf (hnamed : ∀ s ∈ names, blank s = false) :
    invitedNames env (shortlistOf env (supplierRows names)) = names := by
  have hkept : (supplierRows names).filter
      (fun s => !blank ((s.getD "name" (.str "")).pyStr env.repr)) = supplierRows names := by
    apply List.filter_eq_self.mpr
    intro row hrow
    obtain ⟨s, hs, rfl⟩ := List.mem_map.mp hrow
    simp [Dict.getD, Dict.get?, hnamed s hs]
  rw [shortlistOf, hkept, invitedNames, supplierRows, List.map_map, List.map_map]
  exact List.map_id' names

end

/-! ## The gates -/

section

variable {rules : ProcurementRules} {method : Method}

theorem selectMethod_mem {value : Int} (h : rules.selectMethod value = .ok method) :
    method ∈ rules.methods := by
  unfold ProcurementRules.selectMethod at h
  split at h
  · next m hm =>
    obtain rfl := Except.ok.inj h
    exact List.mem_of_find?_eq_some hm
  · split at h
    · next m hm =>
      obtain rfl := Except.ok.inj h
      exact List.mem_of_getLast? hm
    · cases h

theorem approachGate_count {approved : Bool} {value : Int} {currency owner : String}
    {deadline : Option String} {count blocking : Nat}
    (h : (approachGate rules approved value currency deadline owner method count blocking).passed =
      true) : method.minSuppliers ≤ count := by
  simp only [approachGate, GateResult.of, List.isEmpty_iff, List.append_eq_nil_iff, failIf] at h
  obtain ⟨⟨_, hline⟩, _⟩ := h
  by_contra hlt
  rw [if_pos (by simpa using hlt)] at hline
  cases hline

theorem solicitationGate_count {total window : Int} {mandatory : Bool} {count : Nat}
    {missing : List String} {legal : Option Int} {note : String}
    (h : (solicitationGate rules total mandatory count method missing window legal note).passed =
      true) : method.minSuppliers ≤ count := by
  simp only [solicitationGate, GateResult.of, List.isEmpty_iff, List.append_eq_nil_iff,
    failIf] at h
  obtain ⟨_, hline⟩ := h
  by_contra hlt
  rw [if_pos (by simpa using hlt)] at hline
  cases hline

end

/-! ## The writers -/

section

variable {env : Env} {directory : Directory} {call : Call} {db db' : CaseDb}

theorem createCase_suppliers {cmd : CreatePreparationCaseCommand}
    (h : createCase env directory call cmd = .ok db) :
    db.latestContent .supplierInput =
      some (supplierContent "manual_entry" (supplierCandidates cmd.supplierNames)) := by
  simp only [createCase, authorize, requireFeature, ↓raiseIf_bind_ok, bind_ok] at h
  obtain ⟨_, _, _, _, _, _, _, _, _, _, _, h⟩ := h
  obtain rfl := Except.ok.inj h
  rw [CaseDb.send_latestContent, CaseDb.send_latestContent,
    CaseDb.latestContent_addApplicationArtifact_self]

def AmendCaseCommand.givenNames (cmd : AmendCaseCommand) : List String :=
  ((cmd.supplierNames.getD []).map strip).filter (· ≠ "")

theorem amendCase_suppliers {cmd : AmendCaseCommand} (h : amendCase env call cmd db = .ok db') :
    db'.latestContent .supplierInput = db.latestContent .supplierInput ∨
      db'.latestContent .supplierInput =
        some (supplierContent "chat_amendment" cmd.givenNames) := by
  simp only [amendCase, authorize, ↓raiseIf_bind_ok, bind_ok] at h
  obtain ⟨_, _, _, _, case, _, hsave⟩ := h
  obtain ⟨_, rfl⟩ := CaseDb.saveCase_ok.mp hsave
  have hsnapshot := fun content => @CaseDb.latestContent_addApplicationArtifact_ne env
    (amendSuppliers env call cmd db).1 (call.newId 1) call.context.principalId .demandSnapshot
    content .draft .supplierInput (by decide)
  show (CaseDb.addApplicationArtifact _ _ _ _ _ _ _).latestContent .supplierInput = _ ∨
    (CaseDb.addApplicationArtifact _ _ _ _ _ _ _).latestContent .supplierInput = _
  rw [hsnapshot]
  unfold amendSuppliers
  cases hafter : amendedSuppliers env cmd db with
  | none => exact .inl rfl
  | some after =>
    right
    have hgiven : after = cmd.givenNames := by
      unfold amendedSuppliers at hafter
      split at hafter
      · next names hnames =>
        dsimp only at hafter
        split at hafter
        · rw [← Option.some.inj hafter, AmendCaseCommand.givenNames, hnames]
          rfl
        · cases hafter
      · cases hafter
    rw [← hgiven]
    exact CaseDb.latestContent_addApplicationArtifact_self

end

/-! ## The nodes -/

variable {env : Env} {directory : Directory} {rc : RunContext} {inp : NodeInput}
  {n : NodeName} {st st' : PreparationState} {db db' : CaseDb}

theorem loadCase_suppliers (h : runNode env directory rc inp .loadCase st db = (db', .ok st')) :
    st'.supplierCandidates = (match db.latestContent .supplierInput with
        | some content => dictItems (content.getD "suppliers" (.arr []))
        | none => []) ∧
      st'.supplierCountPlanned = st.supplierCountPlanned ∧ st'.shortlist = st.shortlist := by
  simp only [runNode, loadCase] at h
  obtain ⟨_, rfl⟩ := Prod.mk.inj (Except.ok.inj (runTransaction_ok h))
  exact ⟨rfl, rfl, rfl⟩

structure CopiesSuppliers (env : Env) (st st' : PreparationState) : Prop where
  candidates : st'.supplierCandidates = st.supplierCandidates
  planned : st'.supplierCountPlanned = st.supplierCountPlanned ∨
    st'.supplierCountPlanned = st.supplierCandidates.length
  shortlist : st'.shortlist = st.shortlist ∨
    st'.shortlist = shortlistOf env st.supplierCandidates

theorem CopiesSuppliers.same (hcandidates : st'.supplierCandidates = st.supplierCandidates)
    (hplanned : st'.supplierCountPlanned = st.supplierCountPlanned)
    (hshortlist : st'.shortlist = st.shortlist) : CopiesSuppliers env st st' :=
  ⟨hcandidates, .inl hplanned, .inl hshortlist⟩

theorem runNode_suppliers (h : runNode env directory rc inp n st db = (db', .ok st'))
    (hn : n ≠ .loadCase) : CopiesSuppliers env st st' := by
  have hmove := runNode_state h
  cases n with
  | loadCase => exact absurd rfl hn
  | draftProcurementApproach =>
    -- the count of the candidates is taken here
    simp only [runNode, draftProcurementApproach] at h
    have htxn := runTransaction_ok h
    simp only [bind_ok] at htxn
    obtain ⟨_, _, _, _, hret⟩ := htxn
    obtain ⟨_, rfl⟩ := Prod.mk.inj (Except.ok.inj hret)
    exact ⟨rfl, .inr rfl, .inl rfl⟩
  | buildSupplierShortlist =>
    simp only [runNode, buildSupplierShortlist] at h
    obtain ⟨_, rfl⟩ := Prod.mk.inj (Except.ok.inj (runTransaction_ok h))
    exact ⟨rfl, .inl rfl, .inr rfl⟩
  | _ => exact .same (hmove.candidates hn) (hmove.planned (by decide)) (hmove.shortlist (by decide))

theorem packageGate_shortlist
    (h : runNode env directory rc inp .packageGate st db = (db', .ok st')) :
    st'.shortlist = st.shortlist :=
  (runNode_state h).shortlist (by decide)

end DigitalWorker
