import DigitalWorker.Conversation.Confirm
import DigitalWorker.Preparation.Suppliers
import DigitalWorker.Protocol.Frames

/-! # A complete intake and the gate it feeds

    The chat calls an intake complete when `missing_required` names nothing. It
    counts the supplier names as they were typed. The case is opened with the
    names stripped, without blanks and each once, and the CP1 gate counts those.
-/

namespace DigitalWorker.Conversation

open Framework

/-! ## What the chat hands over -/

structure ValidSlots (s : IntakeSlots) : Prop where
  quantity : ∀ n, s.quantity = some n → 1 ≤ n
  value : ∀ n, s.estimatedValueVnd = some n → 1 ≤ n
  deadline : ∀ n, s.deadlineDays = some n → 1 ≤ n ∧ n ≤ 3650
  warranty : ∀ n, s.warrantyMonths = some n → 1 ≤ n

/-- The CP1 verdict on a case, apart from its clarifications: what `load_case`
    reads, with the count of suppliers the draft takes of it. -/
def PassesCp1 (env : Env) (storage : String → String) (db : CaseDb) : Prop :=
  ∃ db' st method,
    loadCase env { newId := fun _ => db.case.id, objectText := storage } {} db = (db', .ok st) ∧
    env.rules.selectMethod st.estimatedValueMinor = .ok method ∧
    (approachVerdict env
      { st with supplierCountPlanned := st.supplierCandidates.length, clarifications := [] }
      method).passed = true

/-- **The condition**: the owner has a name where one is asked for, and the names
    that are left after stripping, without blanks and each once, are as many as
    the method asks for. -/
def KeepsCount (rules : ProcurementRules) (slots : IntakeSlots) (displayName : String) : Prop :=
  (rules.requireOwner = true → blank displayName = false) ∧
    ∀ method, rules.selectMethod (slots.estimatedValueVnd.getD 0) = .ok method →
      method.minSuppliers ≤ (supplierCandidates slots.supplierNames).length

/-! ## The texts of a request are never empty -/

theorem append_ne_empty {a b : String} (h : a ≠ "") : a ++ b ≠ "" := by
  intro hnil
  have hlist : a.toList ++ b.toList = [] := by
    rw [← String.toList_append, hnil]
    rfl
  exact h (String.toList_inj.mp (List.append_eq_nil_iff.mp hlist).1)

theorem intercalate_ne_empty {sep first : String} {rest : List String} (h : first ≠ "") :
    sep.intercalate (first :: rest) ≠ "" := by
  cases rest with
  | nil => simpa using h
  | cons second rest =>
    rw [String.intercalate_cons_cons, String.append_assoc]
    exact append_ne_empty h

theorem renderPrMarkdown_ne_empty (slots : IntakeSlots) (requester prRef : String) :
    renderPrMarkdown slots requester prRef ≠ "" :=
  intercalate_ne_empty (by decide)

theorem prReference_ne_empty (day : String) (conversation : Uuid) :
    prReference day conversation ≠ "" := by
  unfold prReference
  exact append_ne_empty (append_ne_empty (append_ne_empty (by decide)))

theorem counted_ne_empty {n : Int} (hn : 1 ≤ n) {unit : String} (hunit : unit ≠ "") :
    ∃ s, counted (some n) unit = some s ∧ s ≠ "" := by
  refine ⟨toString n ++ " " ++ unit, ?_, ?_⟩
  · simp only [counted]
    rw [if_neg (by omega)]
  · rw [String.append_assoc]
    intro hnil
    have hlist : (toString n).toList ++ (" ".toList ++ unit.toList) = [] := by
      rw [← String.toList_append, ← String.toList_append, hnil]
      rfl
    have hunitNil := (List.append_eq_nil_iff.mp (List.append_eq_nil_iff.mp hlist).2).2
    exact hunit (String.toList_inj.mp hunitNil)

theorem approachGate_passed_iff {rules : ProcurementRules} {approved : Bool} {value : Int}
    {currency owner : String} {deadline : Option String} {method : Method}
    {count blocking : Nat} :
    (approachGate rules approved value currency deadline owner method count blocking).passed =
        true ↔
      (rules.requireApprovedPr = true → approved = true) ∧
      (rules.requireBudget = true → 0 < value) ∧ blank currency = false ∧
      (rules.requireDeadline = true → deadline.getD "" ≠ "") ∧
      (rules.requireOwner = true → blank owner = false) ∧
      method.minSuppliers ≤ count ∧ blocking = 0 := by
  have hline : ∀ (cond : Bool) (s : String), failIf cond s = [] ↔ cond = false := by
    intro cond s
    cases cond <;> simp [failIf]
  simp only [approachGate, GateResult.of, List.isEmpty_iff, List.append_eq_nil_iff, hline]
  simp only [Bool.and_eq_false_imp, Bool.not_eq_false', decide_eq_false_iff_not, not_lt, not_le,
    beq_eq_false_iff_ne, Nat.le_zero]
  tauto

/-! ## From the chat to the gate -/

section

variable {env : Env} {directory : Directory} {call reviewer : Call} {db db' : CaseDb}
  {slots : IntakeSlots} {displayName prRef ref comment : String}

theorem missingRequired_nil {rules : ProcurementRules} (hvalid : ValidSlots slots)
    (h : missingRequired rules slots = .ok []) :
    ∃ value days method, slots.estimatedValueVnd = some value ∧ 1 ≤ value ∧
      slots.deadlineDays = some days ∧ 1 ≤ days ∧ rules.selectMethod value = .ok method := by
  have hlabels : ∀ tail, missingLabels slots ++ tail = [] →
      slots.estimatedValueVnd ≠ none ∧ slots.deadlineDays ≠ none := by
    intro tail hnil
    have hnil := (List.append_eq_nil_iff.mp hnil).1
    simp only [missingLabels, List.append_eq_nil_iff, ite_eq_right_iff] at hnil
    obtain ⟨⟨⟨_, hvalue⟩, hdays⟩, _⟩ := hnil
    constructor
    · intro hnone
      simp [hnone] at hvalue
    · intro hnone
      simp [hnone] at hdays
  unfold missingRequired at h
  cases hvalue : slots.estimatedValueVnd with
  | none =>
    simp only [hvalue] at h
    exact absurd hvalue (hlabels _ (Except.ok.inj h)).1
  | some value =>
    have hpos := hvalid.value value hvalue
    simp only [hvalue, if_pos (show value ≠ 0 by omega), bind_ok] at h
    obtain ⟨method, hmethod, hret⟩ := h
    obtain ⟨days, hdays⟩ := Option.ne_none_iff_exists'.mp (hlabels _ (Except.ok.inj hret)).2
    exact ⟨value, days, method, rfl, hpos, hdays, (hvalid.deadline days hdays).1, hmethod⟩

theorem createCase_request {cmd : CreatePreparationCaseCommand}
    (h : createCase env directory call cmd = .ok db) :
    db.case.estimatedValueMinor = cmd.estimatedValueMinor ∧ db.case.currency = cmd.currency ∧
      db.case.deadline = cmd.deadline ∧ db.case.ownerName = cmd.ownerName ∧
      db.case.sourcePrRef = cmd.sourcePrRef ∧
      ∃ d, db.documents = [d] ∧ d.kind = .approvedPr := by
  simp only [createCase, authorize, requireFeature, ↓raiseIf_bind_ok, bind_ok] at h
  obtain ⟨_, _, _, _, _, _, _, _, _, _, _, h⟩ := h
  obtain rfl := Except.ok.inj h
  refine ⟨by simp, by simp, by simp, by simp, by simp, ?_⟩
  simp

theorem verifyIntake_request (h : verifyIntake env reviewer ref comment db = .ok db') :
    db'.case.estimatedValueMinor = db.case.estimatedValueMinor ∧
      db'.case.currency = db.case.currency ∧ db'.case.deadline = db.case.deadline ∧
      db'.case.ownerName = db.case.ownerName ∧ db'.case.sourcePrRef = db.case.sourcePrRef ∧
      db'.case.intakeVerifiedBy.isSome = true ∧ db'.documents = db.documents ∧
      db'.latestContent .supplierInput = db.latestContent .supplierInput := by
  have hfiled : Filed env [] [.intakeVerification] db db' :=
    @Handler.run_filed env [] reviewer db db' (.verifyIntake ref comment) h
  obtain ⟨hcase, _⟩ := verifyIntake_ok h
  obtain ⟨_, _, hcase⟩ := PreparationCase.verifyIntake_ok.mp hcase
  obtain ⟨new, hdocuments, hnew⟩ := hfiled.documents
  have hnone : new = [] := by
    apply List.eq_nil_iff_forall_not_mem.mpr
    intro d hd
    exact absurd (hnew d hd) List.not_mem_nil
  rw [hnone, List.append_nil] at hdocuments
  refine ⟨by rw [hcase], by rw [hcase], by rw [hcase], by rw [hcase], by rw [hcase],
    by rw [hcase]; rfl, hdocuments, hfiled.latestContent_eq (by simp)⟩

theorem loadCase_request {storage : String → String} {d : PreparationDocument}
    {source : String} {names : List String} (hdocuments : db.documents = [d])
    (hkind : d.kind = .approvedPr)
    (hlatest : db.latestContent .supplierInput = some (supplierContent source names)) :
    ∃ st, loadCase env { newId := fun _ => db.case.id, objectText := storage } {} db =
        (db, .ok st) ∧
      st.hasApprovedPr = (db.case.sourcePrRef != "" && storage d.storageKey != "" &&
        db.case.intakeVerifiedBy.isSome) ∧
      st.estimatedValueMinor = db.case.estimatedValueMinor ∧ st.currency = db.case.currency ∧
      st.deadline = db.case.deadline ∧ st.ownerName = db.case.ownerName ∧
      st.supplierCandidates.length = names.length := by
  refine ⟨_, rfl, ?_, rfl, rfl, rfl, rfl, ?_⟩
  · simp [hdocuments, hkind]
  · simp only [id_eq, hlatest]
    show (dictItems _).length = _
    rw [dictItems_supplierContent, supplierRows, List.length_map]

/-- **Main theorem**: for every set of slots the chat calls complete, the case
    that the confirm creates, once verified, passes the CP1 gate apart from its
    clarifications exactly if the names that are stored are as many as the method
    asks for and the owner has a name where one is asked for. -/
theorem complete_passes_iff {env : Env} {directory : Directory} {call reviewer : Call}
    {db db' : CaseDb} {slots : IntakeSlots} {displayName day ref comment : String}
    {conversation : Uuid} {storage : String → String} (hvalid : ValidSlots slots)
    (hcomplete : missingRequired env.rules slots = .ok [])
    (hcreate : createCase env directory call
      (purchaseRequest slots displayName (prReference day conversation)) = .ok db)
    (hverify : verifyIntake env reviewer ref comment db = .ok db')
    (hstored : ∀ d ∈ db'.documents, storage d.storageKey =
      renderPrMarkdown slots displayName (prReference day conversation)) :
    PassesCp1 env storage db' ↔ KeepsCount env.rules slots displayName := by
  obtain ⟨value, dayCount, method, hvalue, hpos, hdays, hdaysPos, hmethod⟩ :=
    missingRequired_nil hvalid hcomplete
  obtain ⟨hv, hcur, hdl, how, hpr, d, hdocs, hkind⟩ := createCase_request hcreate
  obtain ⟨hv', hcur', hdl', how', hpr', hby, hdocs', hlatest⟩ := verifyIntake_request hverify
  have hdocuments : db'.documents = [d] := hdocs'.trans hdocs
  obtain ⟨st, hload, happroved, hst, hstCur, hstDl, hstOw, hcount⟩ :=
    @loadCase_request env db' storage d _ _ hdocuments hkind
      (hlatest.trans (createCase_suppliers hcreate))
  have hst : st.estimatedValueMinor = value := by
    rw [hst, hv', hv]
    simp [purchaseRequest, hvalue]
  have happroved : st.hasApprovedPr = true := by
    rw [happroved, hpr', hpr, hby, hstored d (by rw [hdocuments]; exact List.mem_singleton_self d)]
    simp [purchaseRequest, prReference_ne_empty, renderPrMarkdown_ne_empty]
  have hcurrency : st.currency = "VND" := by
    rw [hstCur, hcur', hcur]
    rfl
  have hdeadline : st.deadline.getD "" ≠ "" := by
    obtain ⟨text, htext, hne⟩ := counted_ne_empty hdaysPos (show "ngày" ≠ "" by decide)
    rw [hstDl, hdl', hdl]
    simp only [purchaseRequest, hdays, htext, Option.getD_some]
    exact hne
  have howner : st.ownerName = displayName := by
    rw [hstOw, how', how]
    rfl
  -- of the conditions of the gate two are left open by a complete intake
  have hverdict : (approachVerdict env
      { st with supplierCountPlanned := st.supplierCandidates.length, clarifications := [] }
      method).passed = true ↔
        (env.rules.requireOwner = true → blank displayName = false) ∧
          method.minSuppliers ≤ (supplierCandidates slots.supplierNames).length := by
    unfold approachVerdict
    rw [approachGate_passed_iff]
    simp only [hst, happroved, hcurrency, howner, hcount]
    constructor
    · intro h
      exact ⟨h.2.2.2.2.1, h.2.2.2.2.2.1⟩
    · intro h
      exact ⟨fun _ => trivial, fun _ => by omega, by decide +kernel, fun _ => hdeadline, h.1, h.2,
        rfl⟩
  have hselected : env.rules.selectMethod (slots.estimatedValueVnd.getD 0) = .ok method := by
    rw [hvalue]
    exact hmethod
  constructor
  · intro hpasses
    obtain ⟨db'', st', method', hload', hmethod', hpassed⟩ := hpasses
    obtain ⟨_, hsame⟩ := Prod.mk.inj (hload.symm.trans hload')
    obtain rfl := Except.ok.inj hsame
    obtain rfl : method = method' := by
      rw [hst, hmethod] at hmethod'
      exact Except.ok.inj hmethod'
    obtain ⟨hnamed, hmin⟩ := hverdict.mp hpassed
    refine ⟨hnamed, ?_⟩
    intro m hm
    obtain rfl := Except.ok.inj (hselected.symm.trans hm)
    exact hmin
  · intro hkeeps
    exact ⟨db', st, method, hload, by rw [hst]; exact hmethod,
      hverdict.mpr ⟨hkeeps.1, hkeeps.2 method hselected⟩⟩

end

namespace Laptops

def threeEnv : Env :=
  { Office.env with
    rules := { Office.env.rules with
      methods :=
        [{ key := "rfq", label := "Chào giá cạnh tranh", maxValue := none, minSuppliers := 3 }] } }

def invites (names : List String) : IntakeSlots := { slots with supplierNames := names }

theorem invites_valid (names : List String) : ValidSlots (invites names) := by
  constructor
  · intro n h
    obtain rfl : 2 = n := Option.some.inj h
    decide
  · intro n h
    obtain rfl : 100 = n := Option.some.inj h
    decide
  · intro n h
    obtain rfl : 30 = n := Option.some.inj h
    decide
  · intro n h
    cases h

def filedCase (names : List String) : Except Error CaseDb :=
  createCase threeEnv Office.directory (Office.call Office.an)
    (purchaseRequest (invites names) "An" (prReference "20260701" talk))

def verifiedCase (names : List String) : Except Error CaseDb :=
  filedCase names >>= verifyIntake threeEnv (Office.call Office.binh) "PR-1" "đủ hồ sơ"

def storedText (names : List String) : String → String :=
  fun _ => renderPrMarkdown (invites names) "An" (prReference "20260701" talk)

def filesCompletely (names : List String) : Bool :=
  (match missingRequired threeEnv.rules (invites names) with
    | .ok missing => missing.isEmpty
    | .error _ => false) && (verifiedCase names).isOk

theorem filesCompletely_ok {names : List String} (h : filesCompletely names = true) :
    missingRequired threeEnv.rules (invites names) = .ok [] ∧
      ∃ db db', filedCase names = .ok db ∧
        verifyIntake threeEnv (Office.call Office.binh) "PR-1" "đủ hồ sơ" db = .ok db' := by
  unfold filesCompletely at h
  rw [Bool.and_eq_true] at h
  obtain ⟨hmissing, hfiled⟩ := h
  constructor
  · split at hmissing
    · next missing hok =>
      rw [hok, List.isEmpty_iff.mp hmissing]
    · cases hmissing
  · cases hcase : verifiedCase names with
    | error e =>
      rw [hcase] at hfiled
      cases hfiled
    | ok db' =>
      obtain ⟨db, hdb, hverify⟩ := bind_ok.mp hcase
      exact ⟨db, db', hdb, hverify⟩

/-- Three different suppliers are complete, and pass. -/
theorem complete_and_passed : ∃ db, verifiedCase ["FPT", "An Phát", "Minh Long"] = .ok db ∧
    PassesCp1 threeEnv (storedText ["FPT", "An Phát", "Minh Long"]) db := by
  obtain ⟨hcomplete, db, db', hcreate, hverify⟩ :=
    @filesCompletely_ok ["FPT", "An Phát", "Minh Long"] (by decide +kernel)
  refine ⟨db', bind_ok.mpr ⟨db, hcreate, hverify⟩, ?_⟩
  rw [complete_passes_iff (invites_valid _) hcomplete hcreate hverify (fun _ _ => rfl)]
  refine ⟨fun _ => by decide +kernel, ?_⟩
  intro method hmethod
  obtain rfl := Except.ok.inj hmethod
  decide +kernel

/-- One supplier named three times is complete, and refused. -/
theorem complete_and_refused : ¬ ∀ (env : Env) (directory : Directory) (call reviewer : Call)
    (db db' : CaseDb) (slots : IntakeSlots) (displayName day ref comment : String)
    (conversation : Uuid) (storage : String → String), ValidSlots slots →
    missingRequired env.rules slots = .ok [] →
    createCase env directory call
      (purchaseRequest slots displayName (prReference day conversation)) = .ok db →
    verifyIntake env reviewer ref comment db = .ok db' →
    (∀ d ∈ db'.documents, storage d.storageKey =
      renderPrMarkdown slots displayName (prReference day conversation)) →
    PassesCp1 env storage db' := by
  intro hall
  obtain ⟨hcomplete, db, db', hcreate, hverify⟩ :=
    @filesCompletely_ok ["FPT", "FPT", " FPT"] (by decide +kernel)
  obtain ⟨_, st, method, hload, hmethod, hpassed⟩ :=
    hall _ _ _ _ db db' _ "An" "20260701" _ _ talk (storedText ["FPT", "FPT", " FPT"])
      (invites_valid _) hcomplete hcreate hverify (fun _ _ => rfl)
  obtain ⟨_, _, _, _, _, d, hdocs, hkind⟩ := createCase_request hcreate
  obtain ⟨_, _, _, _, _, _, hdocs', hlatest⟩ := verifyIntake_request hverify
  obtain ⟨st', hload', _, _, _, _, _, hcount⟩ :=
    @loadCase_request threeEnv db' (storedText ["FPT", "FPT", " FPT"]) d _ _
      (hdocs'.trans hdocs) hkind (hlatest.trans (createCase_suppliers hcreate))
  obtain ⟨_, hsame⟩ := Prod.mk.inj (hload'.symm.trans hload)
  obtain rfl := Except.ok.inj hsame
  obtain rfl := Except.ok.inj hmethod
  -- the gate counts one supplier
  have hmin := approachGate_count hpassed
  simp only at hmin
  rw [hcount] at hmin
  revert hmin
  decide +kernel

end Laptops

end DigitalWorker.Conversation
