import DigitalWorker.Preparation.Nodes

/-! # The preparation graph

    intake → CP1 → build → CP2 → official, with two human checkpoints and two
    early exits. The graph library runs node after node, checkpoints the state
    of the run after each, and stops when a checkpoint node asks for a decision,
    when the graph ends, or when a node raises. A node that raised is where the
    run stays.
-/

namespace DigitalWorker

/-! ## Nodes and edges -/

inductive NodeName where
  | loadCase
  | extractRequirements
  | completenessCheck
  | draftProcurementApproach
  | approachGate
  | cp1Review
  | applyCp1
  | draftSolicitationPackage
  | draftEvaluationCriteria
  | buildSupplierShortlist
  | runRiskCheck
  | packageGate
  | cp2Review
  | applyCp2
  | finalizeOfficial
  | closeFailed
  | closeIncomplete
  deriving DecidableEq

def routeAfterApproachGate (st : PreparationState) : NodeName :=
  match st.approachGate with
  | some gate =>
    if !gate.passed then .closeIncomplete
    else if st.cp1Decision.isSome then .applyCp1
    else .cp1Review
  | none => .closeIncomplete

def routeAfterCp1 (st : PreparationState) : NodeName :=
  if (decisionOf st.cp1Decision).approved then .draftSolicitationPackage else .closeFailed

def routeAfterCp2 (st : PreparationState) : NodeName :=
  if (decisionOf st.cp2Decision).approved then .finalizeOfficial else .closeFailed

/-- The edge taken out of a node; `none` is the end of the graph. -/
def next (n : NodeName) (st : PreparationState) : Option NodeName :=
  match n with
  | .loadCase => some .extractRequirements
  | .extractRequirements => some .completenessCheck
  | .completenessCheck => some .draftProcurementApproach
  | .draftProcurementApproach => some .approachGate
  | .approachGate => some (routeAfterApproachGate st)
  | .cp1Review => some .applyCp1
  | .applyCp1 => some (routeAfterCp1 st)
  | .draftSolicitationPackage => some .draftEvaluationCriteria
  | .draftEvaluationCriteria => some .buildSupplierShortlist
  | .buildSupplierShortlist => some .runRiskCheck
  | .runRiskCheck => some .packageGate
  | .packageGate => some .cp2Review
  | .cp2Review => some .applyCp2
  | .applyCp2 => some (routeAfterCp2 st)
  | .finalizeOfficial => none
  | .closeFailed => none
  | .closeIncomplete => none

def isReview (n : NodeName) : Bool := n == .cp1Review || n == .cp2Review

def reviewPayload (n : NodeName) (st : PreparationState) : Dict :=
  if n = .cp1Review then st.cp1Payload else st.cp2Payload

def answerReview (n : NodeName) (d : Decision) (st : PreparationState) : PreparationState :=
  if n = .cp1Review then { st with cp1Decision := some d }
  else { st with cp2Decision := some d }

def runNode (env : Env) (directory : Directory) (rc : RunContext) (inp : NodeInput)
    (n : NodeName) (st : PreparationState) (db : CaseDb) : NodeResult :=
  match n with
  | .loadCase => loadCase env inp st db
  | .extractRequirements => extractRequirements env inp st db
  | .completenessCheck => completenessCheck env inp st db
  | .draftProcurementApproach => draftProcurementApproach env inp st db
  | .approachGate => approachGateNode env directory inp st db
  | .cp1Review => (db, .ok st)
  | .applyCp1 => applyCp1 env rc inp st db
  | .draftSolicitationPackage => draftSolicitationPackage env inp st db
  | .draftEvaluationCriteria => draftEvaluationCriteria env inp st db
  | .buildSupplierShortlist => buildSupplierShortlist env inp st db
  | .runRiskCheck => runRiskCheck env inp st db
  | .packageGate => packageGateNode env directory inp st db
  | .cp2Review => (db, .ok st)
  | .applyCp2 => applyCp2 env rc inp st db
  | .finalizeOfficial => finalizeOfficial env rc inp st db
  | .closeFailed => (db, .ok st)
  | .closeIncomplete => (db, .ok st)

/-! ## Invoking the graph -/

inductive Outcome where
  /-- A checkpoint node asked for a decision. -/
  | interrupted (n : NodeName) (st : PreparationState)
  | finished (st : PreparationState)
  /-- A node raised; the run is checkpointed before it. -/
  | raised (n : NodeName) (st : PreparationState) (e : Error)

/-- Run from node `n` on, `fuel` nodes at most. -/
def invoke (env : Env) (directory : Directory) (rc : RunContext) (inp : NodeName → NodeInput) :
    Nat → NodeName → PreparationState → CaseDb → CaseDb × Outcome
  | 0, n, st, db => (db, .interrupted n st)
  | fuel + 1, n, st, db =>
    if isReview n then (db, .interrupted n st)
    else
      match runNode env directory rc (inp n) n st db with
      | (db', .error e) => (db', .raised n st e)
      | (db', .ok st') =>
        match next n st' with
        | none => (db', .finished st')
        | some m => invoke env directory rc inp fuel m st' db'

def rank : NodeName → Nat
  | .loadCase => 15
  | .extractRequirements => 14
  | .completenessCheck => 13
  | .draftProcurementApproach => 12
  | .approachGate => 11
  | .cp1Review => 10
  | .applyCp1 => 9
  | .draftSolicitationPackage => 8
  | .draftEvaluationCriteria => 7
  | .buildSupplierShortlist => 6
  | .runRiskCheck => 5
  | .packageGate => 4
  | .cp2Review => 3
  | .applyCp2 => 2
  | .finalizeOfficial => 1
  | .closeFailed => 1
  | .closeIncomplete => 1

theorem rank_next {n m : NodeName} {st : PreparationState} (h : next n st = some m) :
    rank m < rank n := by
  cases n with
  | approachGate =>
    obtain rfl := Option.some.inj h
    unfold routeAfterApproachGate
    split
    · split
      · decide
      · split <;> decide
    · decide
  | applyCp1 =>
    obtain rfl := Option.some.inj h
    unfold routeAfterCp1
    split <;> decide
  | applyCp2 =>
    obtain rfl := Option.some.inj h
    unfold routeAfterCp2
    split <;> decide
  | finalizeOfficial => cases h
  | closeFailed => cases h
  | closeIncomplete => cases h
  | _ =>
    obtain rfl := Option.some.inj h
    decide

/-- `graph.ainvoke`: the graph has no cycle, so the fuel is never what stops it. -/
def ainvoke (env : Env) (directory : Directory) (rc : RunContext) (inp : NodeName → NodeInput)
    (n : NodeName) (st : PreparationState) (db : CaseDb) : CaseDb × Outcome :=
  invoke env directory rc inp (rank n) n st db

theorem invoke_fuel {env : Env} {directory : Directory} {rc : RunContext}
    {inp : NodeName → NodeInput} {fuel : Nat} {n : NodeName} {st : PreparationState}
    {db : CaseDb} (h : rank n ≤ fuel) :
    invoke env directory rc inp fuel n st db = ainvoke env directory rc inp n st db := by
  induction hr : rank n using Nat.strong_induction_on generalizing n st db fuel with
  | _ r ih =>
    subst hr
    have hpos : 0 < rank n := by cases n <;> decide
    obtain ⟨k, rfl⟩ : ∃ k, fuel = k + 1 := ⟨fuel - 1, by omega⟩
    obtain ⟨j, hj⟩ : ∃ j, rank n = j + 1 := ⟨rank n - 1, by omega⟩
    simp only [ainvoke, hj, invoke]
    split
    · rfl
    · split
      · rfl
      · split
        · rfl
        · next m hm =>
          have hlt := rank_next hm
          rw [ih (rank m) hlt (by omega) rfl, ih (rank m) hlt (show rank m ≤ j by omega) rfl]

end DigitalWorker
