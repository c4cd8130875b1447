import DigitalWorker.Framework.Shortlist
import DigitalWorker.Preparation.Rules
import Mathlib.Algebra.Order.Ring.Int
import Mathlib.Data.Int.ConditionallyCompleteOrder
import Mathlib.Order.ConditionallyCompleteLattice.Basic
import Mathlib.Data.Rat.Defs

/-! # Loading a rule pack

    A pack is a file written by hand: methods and approval tiers, each with a ceiling.
    The loader converts the entries and keeps them in the order of the file; the rules
    take the first entry that covers a value.
-/

namespace DigitalWorker

open Framework

/-! ## The document -/

/-- What `yaml.safe_load` returns. -/
inductive Yaml where
  | null
  | bool (b : Bool)
  | int (n : Int)
  /-- Without a value for `nan` and the infinities. -/
  | float (q : Option ℚ)
  | str (s : String)
  | seq (items : List Yaml)
  | map (entries : List (Yaml × Yaml))
  /-- A date, or a set or bytes with their items. -/
  | other (items : Option (List Yaml))

/-- `int(text)`, whether `float(text)` succeeds, and the text of what is neither a
    number nor a text. -/
structure Conversions where
  intOf : String → Option Int
  floatOf : String → Bool
  repr : Yaml → String

inductive LoadError where
  /-- `InfrastructureError`. -/
  | infrastructure (message : String)
  /-- An error of Python that the loader lets through. -/
  | python
  deriving DecidableEq

namespace Yaml

/-- `bool(value)`. -/
def truthy : Yaml → Bool
  | null => false
  | bool b => b
  | int n => n != 0
  | float q => q != some 0
  | str s => s != ""
  | seq items => !items.isEmpty
  | map entries => !entries.isEmpty
  | other items => (items.map (!·.isEmpty)).getD true

/-- `str(value)`. -/
def pyStr (py : Conversions) : Yaml → String
  | null => "None"
  | bool true => "True"
  | bool false => "False"
  | int n => toString n
  | str s => s
  | v => py.repr v

/-- `int(value)`. -/
def pyInt (py : Conversions) : Yaml → Except LoadError Int
  | int n => .ok n
  | bool b => .ok (if b then 1 else 0)
  | float (some q) => .ok (q.num.tdiv q.den)
  | str s =>
    match py.intOf s with
    | some n => .ok n
    | none => .error .python
  | _ => .error .python

/-- Whether `float(value)` succeeds; no rule modelled here reads the number. -/
def isFloat (py : Conversions) : Yaml → Bool
  | int _ | bool _ | float _ => true
  | str s => py.floatOf s
  | _ => false

/-- What `value.get` and `value["…"]` need. -/
def dict : Yaml → Except LoadError (List (Yaml × Yaml))
  | map entries => .ok entries
  | _ => .error .python

/-- `for item in value`. -/
def items : Yaml → Except LoadError (List Yaml)
  | seq items => .ok items
  | map entries => .ok (entries.map (·.1))
  | str s => .ok (s.toList.map (fun c => .str c.toString))
  | other (some items) => .ok items
  | _ => .error .python

end Yaml

/-! ## The loader -/

section

variable (py : Conversions) (d : List (Yaml × Yaml)) (key : String)

/-- `d.get(key)`. -/
def entry? : Option Yaml :=
  d.findSome? (fun e => match e.1 with
    | .str k => if k = key then some e.2 else none
    | _ => none)

/-- `d[key]`. -/
def entry : Except LoadError Yaml :=
  match entry? d key with
  | some v => .ok v
  | none => .error .python

/-- `str(d.get(key, default))`. -/
def textOr (default : String) : String := (( entry? d key).map (Yaml.pyStr py)).getD default

/-- `bool(d.get(key, default))`. -/
def flagOr (default : Bool) : Bool := (( entry? d key).map Yaml.truthy).getD default

/-- `int(d.get(key, default))`. -/
def intOr (default : Int) : Except LoadError Int :=
  match entry? d key with
  | some v => v.pyInt py
  | none => .ok default

/-- `d.get(key, {})`, where it is read. -/
def sectionOr : Except LoadError (List (Yaml × Yaml)) :=
  match entry? d key with
  | some v => v.dict
  | none => .ok []

/-- `d.get(key, [])`, where it is iterated. -/
def itemsOr : Except LoadError (List Yaml) :=
  match entry? d key with
  | some v => v.items
  | none => .ok []

/-- `None if d.get("max_value") is None else int(d["max_value"])`. -/
def loadCeiling : Except LoadError (Option Int) :=
  match entry? d "max_value" with
  | none | some .null => .ok none
  | some v => some <$> v.pyInt py

def loadMethod (m : Yaml) : Except LoadError Method := do
  let d ← m.dict
  return {
    key := (← entry d "key").pyStr py
    label := (← entry d "label").pyStr py
    maxValue := ← loadCeiling py d
    minSuppliers := ← (← entry d "min_suppliers").pyInt py }

def loadTier (t : Yaml) : Except LoadError ApprovalTier := do
  let d ← t.dict
  let maxValue ← loadCeiling py d
  let cp1Role := (← entry d "cp1_role").pyStr py
  return {
    maxValue := maxValue, cp1Role := cp1Role
    cp2Role := (← entry d "cp2_role").pyStr py
    cp3Role := textOr py d "cp3_role" cp1Role
    cp4Role := textOr py d "cp4_role" cp1Role }

structure RulePack extends ProcurementRules where
  version : String
  currency : String
  legalReviewRequiredAbove : Int
  financeReviewRequiredAbove : Int
  tcoRequiredAbove : Int
  specialistReviewAbove : Int
  paymentTermTemplate : String
  taxTermTemplate : String
  responseStructure : List String
  repeatLookbackDays : Int
  repeatMinValue : Int

/-- `ProcurementRules(…)`, of a document with the supported version. -/
def loadPack : Except LoadError RulePack := do
  let methods ← (← (← entry d "methods").items).mapM (loadMethod py)
  let tiers ← (← itemsOr d "approval_tiers").mapM (loadTier py)
  let evaluation ← sectionOr d "evaluation"
  let solicitation ← sectionOr d "solicitation_template"
  let intake ← sectionOr d "intake"
  let again ← sectionOr d "repeat_purchase"
  if !(( entry? again "similarity").map (Yaml.isFloat py)).getD true then .error .python
  else
    return {
      methods := methods
      weightedTotalMustEqual := ← intOr py evaluation "weighted_total_must_equal" 100
      requireMandatoryCriteria := flagOr evaluation "require_mandatory_criteria" true
      requireApprovedPr := flagOr intake "require_approved_pr" true
      requireBudget := flagOr intake "require_budget" true
      requireDeadline := flagOr intake "require_deadline" true
      requireOwner := flagOr intake "require_owner" true
      mandatoryCriteria := ← (← itemsOr evaluation "mandatory").mapM (fun item => do
        let d ← item.dict
        return ((← entry d "code").pyStr py, (← entry d "text").pyStr py))
      weightedCriteria := ← (← itemsOr evaluation "weighted").mapM (fun item => do
        let d ← item.dict
        return ((← entry d "code").pyStr py, (← entry d "text").pyStr py,
          ← (← entry d "weight").pyInt py))
      approvalTiers := tiers
      version := (← entry d "version").pyStr py
      currency := textOr py d "currency" "VND"
      legalReviewRequiredAbove := ← intOr py d "legal_review_required_above" 0
      financeReviewRequiredAbove := ← intOr py d "finance_review_required_above" 0
      tcoRequiredAbove := ← intOr py d "tco_required_above" 0
      specialistReviewAbove := ← intOr py d "specialist_review_above" 0
      paymentTermTemplate := textOr py solicitation "payment_term" ""
      taxTermTemplate := textOr py solicitation "tax_term" ""
      responseStructure := (← itemsOr solicitation "response_structure").map (Yaml.pyStr py)
      repeatLookbackDays := ← intOr py again "lookback_days" 0
      repeatMinValue := ← intOr py again "min_value" 0 }

/-- `load_procurement_rules`, of what the file holds; nothing if it is no YAML. -/
def loadProcurementRules (path : String) (document : Option Yaml) : Except LoadError RulePack :=
  match document with
  | none => .error (.infrastructure ("invalid rule pack: " ++ path))
  | some (.map d) =>
    if (( entry? d "version").getD .null).pyStr py ≠ "1" then
      .error (.infrastructure ("unsupported rule pack schema: " ++ path))
    else loadPack py d
  | some _ => .error (.infrastructure ("unsupported rule pack schema: " ++ path))

end

/-! ## The property -/

def ceilingOf : Option Int → WithTop Int
  | none => ⊤
  | some n => n

theorem covers_eq (c : Option Int) (v : Int) : covers c v = decide (v ≤ ceilingOf c) := by
  cases c with
  | none => simp [covers, ceilingOf]
  | some n => simp [covers, ceilingOf, WithTop.coe_le_coe]

namespace ProcurementRules

variable (rules : ProcurementRules)

/-- The tier whose role `approver_role_for` returns. -/
def tierFor (valueMinor : Int) : Option ApprovalTier :=
  rules.approvalTiers.find? (fun t => covers t.maxValue valueMinor)

/-- `m` covers the value by the smallest ceiling of a method that does. -/
abbrev TightestMethod (v : Int) (m : Method) : Prop :=
  Tightest (fun m : Method => ceilingOf m.maxValue) rules.methods v m

abbrev TightestTier (v : Int) (t : ApprovalTier) : Prop :=
  Tightest (fun t : ApprovalTier => ceilingOf t.maxValue) rules.approvalTiers v t

/-- **The property**, for every package value. Without any tier there is none to use. -/
structure SelectsTightest : Prop where
  covered : ∀ v, ∃ m ∈ rules.methods, covers m.maxValue v = true
  method : ∀ v, ∃ m, rules.selectMethod v = .ok m ∧ rules.TightestMethod v m
  methodMono : ∀ v w m n, v ≤ w → rules.selectMethod v = .ok m → rules.selectMethod w = .ok n →
    ceilingOf m.maxValue ≤ ceilingOf n.maxValue
  tiersCovered : rules.approvalTiers ≠ [] →
    ∀ v, ∃ t ∈ rules.approvalTiers, covers t.maxValue v = true
  tier : rules.approvalTiers ≠ [] → ∀ v, ∃ t, rules.tierFor v = some t ∧ rules.TightestTier v t ∧
    ∀ checkpoint, rules.approverRoleFor v checkpoint = t.roleFor checkpoint
  tierMono : ∀ v w t u, v ≤ w → rules.tierFor v = some t → rules.tierFor w = some u →
    ceilingOf t.maxValue ≤ ceilingOf u.maxValue

def Laddered {τ : Type} (maxValue : τ → Option Int) (ts : List τ) : Prop :=
  Ascending (fun t => ceilingOf (maxValue t)) ts ∧ ∃ t ∈ ts, maxValue t = none

/-- **The condition**: the methods are laddered, and so are the tiers if there are any. -/
def Ordered : Prop :=
  Laddered Method.maxValue rules.methods ∧
    (rules.approvalTiers ≠ [] → Laddered ApprovalTier.maxValue rules.approvalTiers)

variable {rules} {τ : Type} {maxValue : τ → Option Int} {ts : List τ}

/-- **Ladder**: a search for the first entry that covers finds the tightest for every
    value exactly in a laddered list. -/
theorem laddered_iff : (∀ v, ∃ t, ts.find? (fun t => covers (maxValue t) v) = some t ∧
    Tightest (fun t => ceilingOf (maxValue t)) ts v t) ↔ Laddered maxValue ts := by
  simp only [covers_eq]
  have hopen : (∃ t ∈ ts, maxValue t = none) ↔ ∃ t ∈ ts, ceilingOf (maxValue t) = ⊤ := by
    refine exists_congr (fun t => and_congr_right (fun _ => ?_))
    cases maxValue t <;> simp [ceilingOf]
  rw [Laddered, hopen, ← covered_iff (β := Int), ← first_tightest_iff]
  constructor
  · intro h
    refine ⟨?_, ?_⟩
    · intro v t hfirst
      obtain ⟨u, hu, htight⟩ := h v
      obtain rfl := Option.some.inj (hu.symm.trans hfirst)
      exact htight
    · intro v
      obtain ⟨t, -, htight⟩ := h v
      exact ⟨t, htight.mem, htight.covers⟩
  · intro h v
    obtain ⟨t, ht, hcovers⟩ := h.2 v
    obtain ⟨u, hu⟩ : ∃ u, ts.find? (fun t => decide (v ≤ ceilingOf (maxValue t))) = some u := by
      rw [← Option.isSome_iff_exists, List.find?_isSome]
      exact ⟨t, ht, by simpa using hcovers⟩
    exact ⟨u, hu, h.1 v u hu⟩

theorem selectMethod_of_find {v : Int} {m : Method}
    (h : rules.methods.find? (fun m => covers m.maxValue v) = some m) :
    rules.selectMethod v = .ok m := by
  simp [selectMethod, h]

theorem approverRoleFor_of_tier {v : Int} {t : ApprovalTier} (h : rules.tierFor v = some t)
    (checkpoint : String) : rules.approverRoleFor v checkpoint = t.roleFor checkpoint := by
  unfold tierFor at h
  simp [approverRoleFor, h]

theorem find_of_selectMethod {v : Int} {m : Method} (h : rules.selectMethod v = .ok m)
    (hcovered : ∃ m ∈ rules.methods, covers m.maxValue v = true) :
    rules.methods.find? (fun m => covers m.maxValue v) = some m := by
  obtain ⟨n, hn⟩ : ∃ n, rules.methods.find? (fun m => covers m.maxValue v) = some n := by
    rw [← Option.isSome_iff_exists, List.find?_isSome]
    exact hcovered
  rw [selectMethod_of_find hn] at h
  rw [hn, Except.ok.inj h]

theorem selectsTightest_iff_ordered : rules.SelectsTightest ↔ rules.Ordered := by
  unfold Ordered
  rw [← laddered_iff, ← laddered_iff]
  constructor
  · intro h
    refine ⟨?_, ?_⟩
    · intro v
      obtain ⟨m, hm, htight⟩ := h.method v
      exact ⟨m, find_of_selectMethod hm (h.covered v), htight⟩
    · intro htiers v
      obtain ⟨t, ht, htight, -⟩ := h.tier htiers v
      exact ⟨t, ht, htight⟩
  · rintro ⟨hmethods, htiers⟩
    have hcovers : ∀ v, ∃ m ∈ rules.methods, covers m.maxValue v = true := by
      intro v
      obtain ⟨m, hm, -⟩ := hmethods v
      exact ⟨m, List.mem_of_find?_eq_some hm, by simpa using List.find?_some hm⟩
    have hmethod : ∀ v m, rules.selectMethod v = .ok m → rules.TightestMethod v m := by
      intro v m hm
      obtain ⟨n, hn, htight⟩ := hmethods v
      obtain rfl := Except.ok.inj ((selectMethod_of_find hn).symm.trans hm)
      exact htight
    have htier : ∀ v t, rules.tierFor v = some t → rules.TightestTier v t := by
      intro v t ht
      have hne : rules.approvalTiers ≠ [] := by
        intro hnil
        simp [tierFor, hnil] at ht
      obtain ⟨u, hu, htight⟩ := htiers hne v
      obtain rfl := Option.some.inj (hu.symm.trans ht)
      exact htight
    refine ⟨hcovers, ?_, ?_, ?_, ?_, ?_⟩
    · intro v
      obtain ⟨m, hm, htight⟩ := hmethods v
      exact ⟨m, selectMethod_of_find hm, htight⟩
    · intro v w m n hvw hm hn
      exact (hmethod v m hm).mono (hmethod w n hn) hvw
    · intro hne v
      obtain ⟨t, ht, -⟩ := htiers hne v
      exact ⟨t, List.mem_of_find?_eq_some ht, by simpa using List.find?_some ht⟩
    · intro hne v
      obtain ⟨t, ht, htight⟩ := htiers hne v
      exact ⟨t, ht, htight, approverRoleFor_of_tier ht⟩
    · intro v w t u hvw ht hu
      exact (htier v t ht).mono (htier w u hu) hvw

end ProcurementRules

/-- **Every file**: the pack that is loaded of it, if one is, takes the tightest method
    and tier for every value exactly when it is ordered. -/
theorem selectsTightest_iff (py : Conversions) (path : String) (document : Option Yaml) :
    (∀ pack, loadProcurementRules py path document = .ok pack → pack.SelectsTightest) ↔
      ∀ pack, loadProcurementRules py path document = .ok pack → pack.Ordered := by
  simp only [ProcurementRules.selectsTightest_iff_ordered]

/-! ## A pack that is accepted -/

namespace RulePackFile

def entryOf (key : String) (value : Yaml) : Yaml × Yaml := (.str key, value)

def method (key : String) (maxValue : Yaml) (minSuppliers : Int) : Yaml :=
  .map [entryOf "key" (.str key), entryOf "label" (.str key), entryOf "max_value" maxValue,
    entryOf "min_suppliers" (.int minSuppliers)]

def file : Yaml :=
  .map [entryOf "version" (.str "1"),
    entryOf "methods" (.seq [method "open_tender" .null 3,
      method "direct_purchase" (.int 10000000) 1])]

def conversions : Conversions :=
  { intOf := fun _ => none, floatOf := fun _ => false, repr := fun _ => "" }

def loaded : Except LoadError RulePack := loadProcurementRules conversions "rules.yaml" (some file)

def tender : Method :=
  { key := "open_tender", label := "open_tender", maxValue := none, minSuppliers := 3 }

def direct : Method :=
  { key := "direct_purchase", label := "direct_purchase", maxValue := some 10000000
    minSuppliers := 1 }

theorem loaded_methods : ∃ pack, loaded = .ok pack ∧ pack.methods = [tender, direct] :=
  ⟨_, rfl, rfl⟩

/-- The file is accepted, and a package of five million goes to tender. -/
theorem open_first : ∃ pack, loaded = .ok pack ∧
    pack.selectMethod 5000000 = .ok tender ∧ ¬ pack.SelectsTightest := by
  obtain ⟨pack, hpack, hmethods⟩ := loaded_methods
  have htender : pack.selectMethod 5000000 = .ok tender := by
    rw [ProcurementRules.selectMethod, hmethods]
    rfl
  refine ⟨pack, hpack, htender, ?_⟩
  intro h
  obtain ⟨m, hm, htight⟩ := h.method 5000000
  obtain rfl := Except.ok.inj (hm.symm.trans htender)
  -- the direct purchase covers the value, by a lower ceiling
  have hle := htight.least direct (by simp [hmethods]) (by decide)
  exact absurd hle (by decide)

end RulePackFile

end DigitalWorker
