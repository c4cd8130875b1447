import DigitalWorker.Runtime.NodeFaults
import DigitalWorker.Runtime.Runner

/-! # Invoking the graph

    One node at a time: `ainvoke` from a node is that node and then `ainvoke`
    from the next. From there, what a whole stretch of the graph does when all
    its nodes succeed, and that it raises when one of them does not.
-/

namespace DigitalWorker

variable {env : Env} {directory : Directory} {rc : RunContext} {inp : NodeName → NodeInput}
  {n m : NodeName} {st st' : PreparationState} {db db' : CaseDb} {e : Error}

/-! ## One node -/

theorem ainvoke_review (h : isReview n = true) :
    ainvoke env directory rc inp n st db = (db, .interrupted n st) := by
  obtain ⟨k, hk⟩ : ∃ k, rank n = k + 1 := ⟨rank n - 1, by cases n <;> decide⟩
  rw [ainvoke, hk, invoke, if_pos h]

theorem ainvoke_raised (hn : isReview n = false)
    (h : runNode env directory rc (inp n) n st db = (db', .error e)) :
    ainvoke env directory rc inp n st db = (db', .raised n st e) := by
  obtain ⟨k, hk⟩ : ∃ k, rank n = k + 1 := ⟨rank n - 1, by cases n <;> decide⟩
  rw [ainvoke, hk, invoke, hn, h]
  rfl

theorem ainvoke_last (hn : isReview n = false)
    (h : runNode env directory rc (inp n) n st db = (db', .ok st')) (hnext : next n st' = none) :
    ainvoke env directory rc inp n st db = (db', .finished st') := by
  obtain ⟨k, hk⟩ : ∃ k, rank n = k + 1 := ⟨rank n - 1, by cases n <;> decide⟩
  rw [ainvoke, hk, invoke, hn, h]
  simp [hnext]

theorem ainvoke_next (hn : isReview n = false)
    (h : runNode env directory rc (inp n) n st db = (db', .ok st'))
    (hnext : next n st' = some m) :
    ainvoke env directory rc inp n st db = ainvoke env directory rc inp m st' db' := by
  obtain ⟨k, hk⟩ : ∃ k, rank n = k + 1 := ⟨rank n - 1, by cases n <;> decide⟩
  have hrank := rank_next hnext
  rw [ainvoke, hk, invoke, hn, h]
  simp only [hnext]
  exact invoke_fuel (by omega)

theorem NodeMove.version {c c' : PreparationCase} (h : NodeMove n st st' c c') :
    c'.version = c.version + if writesCase n then 1 else 0 := by
  cases n with
  | draftProcurementApproach =>
    obtain ⟨key, rfl⟩ := h
    rfl
  | approachGate =>
    obtain ⟨gate, _, rfl⟩ := h
    rfl
  | packageGate =>
    obtain ⟨gate, _, rfl⟩ := h
    rfl
  | finalizeOfficial =>
    obtain ⟨a, ref, hlock⟩ := h
    obtain ⟨_, rfl⟩ := PreparationCase.lockOfficial_ok.mp hlock
    rfl
  | _ =>
    obtain rfl := h
    rfl

theorem invoke_version {fuel : Nat} :
    db.case.version ≤ (invoke env directory rc inp fuel n st db).1.case.version := by
  induction fuel generalizing n st db with
  | zero => exact le_refl _
  | succ fuel ih =>
    rw [invoke]
    split
    · exact le_refl _
    · split
      · next db' e h =>
        rw [runNode_error h]
      · next db' st' h =>
        have hmove := (runNode_ok h).version
        split
        · show db.case.version ≤ db'.case.version
          omega
        · next m _ =>
          have hrest := @ih m st' db'
          omega

theorem ainvoke_moves (hn : isReview n = false) (hwrites : writesCase n = true)
    (h : NodeSucceeds env (inp n) n st) :
    db.case.version < (ainvoke env directory rc inp n st db).1.case.version := by
  obtain ⟨db', st', hrun⟩ := (@runNode_succeeds_iff env directory rc (inp n) n st db).mpr h
  have hmove := (runNode_ok hrun).version
  rw [hwrites, if_pos rfl] at hmove
  cases hnext : next n st' with
  | none =>
    rw [ainvoke_last hn hrun hnext]
    show db.case.version < db'.case.version
    omega
  | some m =>
    rw [ainvoke_next hn hrun hnext]
    have hrest : db'.case.version ≤ (ainvoke env directory rc inp m st' db').1.case.version :=
      invoke_version
    omega

/-! ## A stretch of the graph -/

structure SameAnswers (st st' : PreparationState) : Prop where
  requirements : st'.requirements = st.requirements
  cp1Decision : st'.cp1Decision = st.cp1Decision
  cp2Decision : st'.cp2Decision = st.cp2Decision

theorem NodeSucceeds.congr {inp : NodeInput} (h : SameAnswers st st') :
    NodeSucceeds env inp n st' ↔ NodeSucceeds env inp n st := by
  cases n with
  | applyCp1 => simp only [NodeSucceeds, h.cp1Decision]
  | applyCp2 => simp only [NodeSucceeds, h.cp2Decision]
  | draftSolicitationPackage | draftEvaluationCriteria | finalizeOfficial =>
    simp only [NodeSucceeds, h.requirements]
  | _ => rfl

theorem next_congr (h : SameAnswers st st') (hn : n ≠ .approachGate) : next n st' = next n st := by
  cases n with
  | approachGate => exact absurd rfl hn
  | applyCp1 => simp only [next, routeAfterCp1, h.cp1Decision]
  | applyCp2 => simp only [next, routeAfterCp2, h.cp2Decision]
  | _ => rfl

def steady : NodeName → Bool
  | .extractRequirements | .approachGate | .cp1Review | .cp2Review => false
  | _ => true

theorem steady_not_review (h : steady n = true) : isReview n = false := by
  cases n <;> first | rfl | cases h

theorem steady_node (hn : steady n = true) (hsame : SameAnswers st st')
    (h : NodeSucceeds env (inp n) n st) :
    ∃ db' st'', runNode env directory rc (inp n) n st' db = (db', .ok st'') ∧
      SameAnswers st st'' ∧ next n st'' = next n st := by
  have hsucceeds := (NodeSucceeds.congr hsame).mpr h
  obtain ⟨db', st'', hrun⟩ := (@runNode_succeeds_iff env directory rc _ n st' db).mpr hsucceeds
  have hkeeps := runNode_keepsDecisions hrun
  have hextract : n ≠ .extractRequirements := by
    intro heq
    rw [heq] at hn
    cases hn
  have hgate : n ≠ .approachGate := by
    intro heq
    rw [heq] at hn
    cases hn
  have hsame' : SameAnswers st st'' := by
    constructor
    · rw [hkeeps.requirements hextract, hsame.requirements]
    · rw [hkeeps.cp1Decision hgate, hsame.cp1Decision]
    · rw [hkeeps.cp2Decision, hsame.cp2Decision]
  exact ⟨db', st'', hrun, hsame', next_congr hsame' hgate⟩

theorem not_succeeds {inp : NodeInput} (h : ¬ NodeSucceeds env inp n st) :
    ∃ db' e, runNode env directory rc inp n st db = (db', .error e) := by
  cases hrun : runNode env directory rc inp n st db with
  | mk db' r =>
    cases r with
    | error e => exact ⟨db', e, rfl⟩
    | ok st' => exact absurd (runNode_succeeds_iff.mp ⟨db', st', hrun⟩) h

inductive Stretch (st : PreparationState) : NodeName → List NodeName → Option NodeName → Prop where
  | last {n : NodeName} {stop : Option NodeName} : steady n = true → next n st = stop →
      (∀ m, stop = some m → isReview m = true) → Stretch st n [n] stop
  | step {n m : NodeName} {rest : List NodeName} {stop : Option NodeName} : steady n = true →
      next n st = some m → Stretch st m rest stop → Stretch st n (n :: rest) stop

theorem Stretch.steady_head {path : List NodeName} {stop : Option NodeName}
    (h : Stretch st n path stop) : steady n = true := by
  cases h with
  | last hsteady _ _ => exact hsteady
  | step hsteady _ _ => exact hsteady

def endsAt (stop : Option NodeName) (st : PreparationState) : Outcome :=
  match stop with
  | none => .finished st
  | some m => .interrupted m st

/-- **Stretch**: when every node of a stretch succeeds, the graph gets to its end. -/
theorem Stretch.completes {path : List NodeName} {stop : Option NodeName}
    (h : Stretch st n path stop) (hsame : SameAnswers st st')
    (hall : ∀ m ∈ path, NodeSucceeds env (inp m) m st) :
    ∃ st'', (ainvoke env directory rc inp n st' db).2 = endsAt stop st'' := by
  -- induction on the stretch; the rows and the rest of the state change on the way
  induction h generalizing st' db with
  | @last n stop hn hnext hstop =>
    have hsucceeds := hall n List.mem_cons_self
    obtain ⟨db', st'', hrun, _, hnext'⟩ := @steady_node env directory rc inp n st st' db hn hsame
      hsucceeds
    rw [hnext] at hnext'
    cases stop with
    | none =>
      rw [ainvoke_last (steady_not_review hn) hrun hnext']
      exact ⟨st'', rfl⟩
    | some m =>
      rw [ainvoke_next (steady_not_review hn) hrun hnext', ainvoke_review (hstop m rfl)]
      exact ⟨st'', rfl⟩
  | @step n m rest stop hn hnext _ ih =>
    have hsucceeds := hall n List.mem_cons_self
    obtain ⟨db', st'', hrun, hsame', hnext'⟩ := @steady_node env directory rc inp n st st' db hn
      hsame hsucceeds
    rw [hnext] at hnext'
    rw [ainvoke_next (steady_not_review hn) hrun hnext']
    exact ih hsame' (fun m hm => hall m (List.mem_cons_of_mem n hm))

/-- **Stretch, the other way**: when some node of a stretch does not succeed, the
    invocation raises. -/
theorem Stretch.raises {path : List NodeName} {stop : Option NodeName}
    (h : Stretch st n path stop) (hsame : SameAnswers st st')
    (hall : ¬ ∀ m ∈ path, NodeSucceeds env (inp m) m st) :
    ∃ m st'' e, (ainvoke env directory rc inp n st' db).2 = .raised m st'' e := by
  -- the first node that does not succeed is the one that raises
  have hraises : ∀ {n : NodeName} {st' : PreparationState} {db : CaseDb}, steady n = true →
      SameAnswers st st' → ¬ NodeSucceeds env (inp n) n st →
      ∃ m st'' e, (ainvoke env directory rc inp n st' db).2 = .raised m st'' e := by
    intro n st' db hn hsame hfails
    rw [← NodeSucceeds.congr hsame] at hfails
    obtain ⟨db', e, hrun⟩ := @not_succeeds env directory rc n st' db (inp n) hfails
    rw [ainvoke_raised (steady_not_review hn) hrun]
    exact ⟨n, st', e, rfl⟩
  induction h generalizing st' db with
  | @last n stop hn hnext hstop =>
    apply hraises hn hsame
    intro hsucceeds
    apply hall
    intro m hm
    obtain rfl := List.mem_singleton.mp hm
    exact hsucceeds
  | @step n m rest stop hn hnext _ ih =>
    by_cases hsucceeds : NodeSucceeds env (inp n) n st
    · obtain ⟨db', st'', hrun, hsame', hnext'⟩ := @steady_node env directory rc inp n st st' db hn
        hsame hsucceeds
      rw [hnext] at hnext'
      rw [ainvoke_next (steady_not_review hn) hrun hnext']
      apply ih hsame'
      intro hrest
      apply hall
      intro m hm
      rcases List.mem_cons.mp hm with rfl | hmem
      · exact hsucceeds
      · exact hrest m hmem
    · exact hraises hn hsame hsucceeds

end DigitalWorker
