import DigitalWorker.Tools.Executor

/-! # The first call under an idempotency key

    What a call returns and records does not depend on the executions there are,
    as long as none of them is a success under its key; and it depends on a
    handler only up to the attempt that ends the loop.
-/

namespace DigitalWorker.Tools

variable {ι ρ ω : Type} {x : ToolExecutor ι ρ ω} {call : ToolCall} {s : Surroundings ρ} {t : Trail}
  {tool : RegisteredTool ι ρ ω} {input : Dict} {inputHash : String}

theorem runAttempts_congr {h₁ h₂ : Nat → HandlerResult ρ}
    (h : ∀ n, (∀ i < n, (h₁ i).isTransient = true) → h₁ n = h₂ n) (left : Nat) {attempt : Nat}
    (hbefore : ∀ i < attempt, (h₁ i).isTransient = true) (e : Raised) :
    runAttempts tool h₁ left attempt e = runAttempts tool h₂ left attempt e := by
  induction left generalizing attempt e with
  | zero => rfl
  | succ left ih =>
    rw [runAttempts, runAttempts, ← h attempt hbefore]
    cases hr : h₁ attempt with
    | returned raw => rfl
    | raised e' =>
      by_cases htransient : e'.isTransient = true
      · have hnext : ∀ i < attempt + 1, (h₁ i).isTransient = true := by
          intro i hi
          by_cases hlast : i = attempt
          · rw [hlast, hr]
            exact htransient
          · exact hbefore i (by omega)
        simp only [htransient, if_true]
        exact ih hnext e'
      · simp only [if_neg htransient]

theorem execute_congr {handler : Nat → HandlerResult ρ}
    (h : ∀ n, (∀ i < n, (s.handler i).isTransient = true) → s.handler n = handler n) :
    x.execute call s t = x.execute call { s with handler := handler } t := by
  have hgate : x.admit call { s with handler := handler } t.executions =
      x.admit call s t.executions := rfl
  unfold ToolExecutor.execute
  rw [hgate]
  split
  · rfl
  · rfl
  · rw [runAttempts_congr h _ (fun i hi => absurd hi (Nat.not_lt_zero i))]
    rfl

def Unanswered (call : ToolCall) (rows : List ToolExecution) : Prop :=
  ∀ key, call.idempotencyKey = some key →
    findSucceeded call.runContext.tenantId call.name key rows = none

theorem unanswered_nil : Unanswered call [] := fun _ _ => rfl

theorem key?_some {key : String} (h : call.key? = some key) : call.idempotencyKey = some key := by
  unfold ToolCall.key? at h
  split at h
  · next k hk =>
    split at h
    · cases h
    · rw [hk, ← h]
  · cases h

theorem admit_unanswered {rows : List ToolExecution} (h : Unanswered call rows) :
    x.admit call s rows = x.admit call s [] := by
  unfold ToolExecutor.admit
  cases hkey : call.key? with
  | none => rfl
  | some key =>
    have hnone := h key (key?_some hkey)
    have hnil : findSucceeded call.runContext.tenantId call.name key [] = none := rfl
    simp only [hnone, hnil]

theorem admit_not_replayed {rows : List ToolExecution} (h : Unanswered call rows)
    {audit : AuditEvent} {result : Except Raised ω} :
    x.admit call s rows ≠ .replayed audit result := by
  intro hreplayed
  unfold ToolExecutor.admit at hreplayed
  split at hreplayed
  · cases hreplayed
  · dsimp only at hreplayed
    split at hreplayed
    · cases hreplayed
    · split at hreplayed
      · cases hreplayed
      · split at hreplayed
        · cases hreplayed
        · split at hreplayed
          · cases hreplayed
          · split at hreplayed
            · cases hreplayed
            · next key hkey =>
              rw [h key (key?_some hkey)] at hreplayed
              cases hreplayed

theorem settle_unanswered {row : ToolExecution} {event : AuditEvent} {result : Except Raised ω}
    {t₀ : Trail} (htenant : row.tenantId = call.runContext.tenantId)
    (hname : row.toolName = call.name) (hkey : row.idempotencyKey = call.idempotencyKey)
    (h : Unanswered call t.executions) (h₀ : t₀.executions = []) :
    (settle s row event t result).2 = (settle s row event t₀ result).2 ∧
      (settle s row event t result).1.executions =
        (settle s row event t₀ result).1.executions ++ t.executions ∧
      ∀ r ∈ (settle s row event t₀ result).1.executions,
        r.idempotencyKey = call.idempotencyKey := by
  have hfree : ∀ rows, Unanswered call rows → keyTaken rows row = false := by
    intro rows hrows
    unfold keyTaken
    cases hrow : row.idempotencyKey with
    | none => rfl
    | some key =>
      have hnone := hrows key (hkey.symm.trans hrow)
      simp only [htenant, hname, hnone]
      simp
  have hnil : Unanswered call t₀.executions := by
    rw [h₀]
    exact unanswered_nil
  unfold settle recordExecution
  cases s.recordFault with
  | some e => simp [h₀]
  | none =>
    simp only [hfree _ h, hfree _ hnil]
    cases s.auditFault <;> simp [h₀, hkey]

theorem finish_unanswered (x : ToolExecutor ι ρ ω) (s : Surroundings ρ) (tool : RegisteredTool ι ρ ω)
    (input : Dict) (inputHash : String) (ended : LoopEnd ω × Nat) {t₀ : Trail}
    (h : Unanswered call t.executions) (h₀ : t₀.executions = []) :
    (x.finish call s tool input inputHash ended t).2 =
        (x.finish call s tool input inputHash ended t₀).2 ∧
      (x.finish call s tool input inputHash ended t).1.executions =
        (x.finish call s tool input inputHash ended t₀).1.executions ++ t.executions ∧
      ∀ r ∈ (x.finish call s tool input inputHash ended t₀).1.executions,
        r.idempotencyKey = call.idempotencyKey := by
  unfold ToolExecutor.finish
  dsimp only
  cases ended.1 with
  | escaped e => simp [h₀]
  | failed e => exact settle_unanswered rfl rfl rfl h h₀
  | output o =>
    dsimp only
    cases tool.dumpOutput o with
    | error e => simp [h₀]
    | ok payload => exact settle_unanswered rfl rfl rfl h h₀

/-- **First call**: an unanswered call does what it does on an empty trail, and
    leaves the other rows as they are. -/
theorem execute_unanswered (h : Unanswered call t.executions) (hmeanwhile : s.meanwhile = []) :
    (x.execute call s t).2 = (x.execute call s {}).2 ∧
      (x.execute call s t).1.invocations = t.invocations + (x.execute call s {}).1.invocations ∧
      (x.execute call s t).1.executions = (x.execute call s {}).1.executions ++ t.executions ∧
      ∀ r ∈ (x.execute call s {}).1.executions, r.idempotencyKey = call.idempotencyKey := by
  have hsame : x.admit call s t.executions = x.admit call s ({} : Trail).executions :=
    admit_unanswered h
  cases hgate : x.admit call s ({} : Trail).executions with
  | refused audit e =>
    unfold ToolExecutor.execute
    rw [hsame, hgate]
    cases audit with
    | none => simp [Trail.withAudit]
    | some event => cases s.auditFault <;> simp [Trail.withAudit]
  | replayed audit result => exact absurd hgate (admit_not_replayed unanswered_nil)
  | admitted tool input inputHash =>
    unfold ToolExecutor.execute
    rw [hsame, hgate]
    dsimp only
    rw [hmeanwhile, finish_invocations, finish_invocations]
    generalize hended : runAttempts tool s.handler tool.definition.attemptsAllowed 0
      { cls := .timeoutError } = ended
    let during : Trail :=
      { t with executions := [] ++ t.executions, invocations := t.invocations + ended.2 }
    let alone : Trail := { executions := [], invocations := 0 + ended.2 }
    have hduring : Unanswered call during.executions := h
    have halone : alone.executions = [] := rfl
    have hfinish := finish_unanswered x s tool input inputHash ended hduring halone
    refine ⟨hfinish.1, ?_, hfinish.2⟩
    show t.invocations + _ = t.invocations + (0 + _)
    omega

theorem execute_attempts : ∃ m, (x.execute call s t).1.invocations = t.invocations + m ∧
    (m = 0 ∨ ∃ n, m = n + 1 ∧ ∀ i < n, (s.handler i).isTransient = true) := by
  unfold ToolExecutor.execute
  split
  · exact ⟨0, withAudit_invocations, .inl rfl⟩
  · exact ⟨0, withAudit_invocations, .inl rfl⟩
  · next tool input inputHash hgate =>
    dsimp only
    rw [finish_invocations]
    refine ⟨_, rfl, ?_⟩
    rcases runAttempts_spec tool s.handler tool.definition.attemptsAllowed 0
      { cls := .timeoutError } with ⟨n, _, hretried, _, hresult⟩ | ⟨hall, e, hresult⟩
    · simp only [Nat.zero_add] at hretried
      rw [hresult]
      exact .inr ⟨n, by rw [Nat.zero_add], hretried⟩
    · simp only [Nat.zero_add] at hall
      rw [hresult]
      cases hallowed : tool.definition.attemptsAllowed with
      | zero => exact .inl rfl
      | succ n =>
        right
        refine ⟨n, by rw [Nat.zero_add], fun i hi => hall i ?_⟩
        rw [hallowed]
        omega

/-! ## Returning -/

theorem settle_ok {row : ToolExecution} {event : AuditEvent} {result : Except Raised ω} {o : ω}
    (h : (settle s row event t result).2 = .ok o) : result = .ok o := by
  unfold settle at h
  split at h
  · cases h
  · dsimp only at h
    split at h
    · cases h
    · exact h

/-- **Returning**: an unanswered call that returns returns what an attempt of its
    handler did, after attempts that were retried. -/
theorem execute_returns (h : Unanswered call t.executions) {o : ω}
    (hok : (x.execute call s t).2 = .ok o) :
    ∃ tool n raw, x.resolve call.name call.version = some tool ∧ s.handler n = .returned raw ∧
      tool.validateOutput raw = some o ∧ (∀ i < n, (s.handler i).isTransient = true) ∧
      (x.execute call s t).1.invocations = t.invocations + (n + 1) := by
  cases hgate : x.admit call s t.executions with
  | refused audit e =>
    unfold ToolExecutor.execute at hok
    rw [hgate] at hok
    unfold Trail.withAudit at hok
    dsimp only at hok
    split at hok <;> cases hok
  | replayed audit result => exact absurd hgate (admit_not_replayed h)
  | admitted tool input inputHash =>
    have hresolve := (admit_gatesOpen hgate).1
    unfold ToolExecutor.execute at hok ⊢
    rw [hgate] at hok ⊢
    dsimp only at hok ⊢
    rw [finish_invocations]
    rcases runAttempts_spec tool s.handler tool.definition.attemptsAllowed 0
      { cls := .timeoutError } with ⟨n, _, hretried, _, hresult⟩ | ⟨_, e, hresult⟩
    · simp only [Nat.zero_add] at hretried hresult
      rw [hresult] at hok ⊢
      cases hr : s.handler n with
      | raised e =>
        exfalso
        rw [hr] at hok
        unfold ToolExecutor.finish settled at hok
        dsimp only at hok
        by_cases hvalidation : e.cls = .validationError
        · rw [if_pos hvalidation] at hok
          cases settle_ok hok
        · rw [if_neg hvalidation] at hok
          cases hok
      | returned raw =>
        rw [hr] at hok
        cases hvalid : tool.validateOutput raw with
        | none =>
          exfalso
          unfold ToolExecutor.finish settled at hok
          simp only [hvalid] at hok
          cases settle_ok hok
        | some o' =>
          refine ⟨tool, n, raw, hresolve, hr, ?_, hretried, rfl⟩
          unfold ToolExecutor.finish settled at hok
          simp only [hvalid] at hok
          cases hdump : tool.dumpOutput o' with
          | error e =>
            rw [hdump] at hok
            cases hok
          | ok payload =>
            rw [hdump] at hok
            rw [hvalid, Except.ok.inj (settle_ok hok)]
    · exfalso
      rw [hresult] at hok
      unfold ToolExecutor.finish at hok
      dsimp only at hok
      cases settle_ok hok

theorem settle_mem {row r : ToolExecution} {event : AuditEvent} {result : Except Raised ω}
    (h : r ∈ (settle s row event t result).1.executions) : r ∈ t.executions ∨ r = row := by
  unfold settle at h
  cases hrecorded : recordExecution s.recordFault t.executions row with
  | error e =>
    rw [hrecorded] at h
    exact .inl h
  | ok executions =>
    have hrows : executions = row :: t.executions := by
      unfold recordExecution at hrecorded
      split at hrecorded
      · cases hrecorded
      · split at hrecorded
        · cases hrecorded
        · exact (Except.ok.inj hrecorded).symm
    have hmem : r ∈ executions := by
      rw [hrecorded] at h
      dsimp only at h
      split at h <;> exact h
    rw [hrows] at hmem
    exact (List.mem_cons.mp hmem).symm

theorem execute_succeeded (hmeanwhile : s.meanwhile = []) {r : ToolExecution}
    (hr : r ∈ (x.execute call s {}).1.executions) (hstatus : r.status = .succeeded) :
    ∃ n raw, s.handler n = .returned raw ∧ (x.execute call s {}).1.invocations = n + 1 := by
  unfold ToolExecutor.execute at hr ⊢
  split at hr
  · next audit e hgate =>
    unfold Trail.withAudit at hr
    split at hr <;> cases hr
  · next audit result hgate => exact absurd hgate (admit_not_replayed unanswered_nil)
  · next tool input inputHash hgate =>
    dsimp only at hr ⊢
    rw [finish_invocations]
    rw [hmeanwhile] at hr
    have hfailed : ∀ e, (∃ n, runAttempts tool s.handler tool.definition.attemptsAllowed 0
        { cls := .timeoutError } = (.failed e, n)) → False := by
      rintro e ⟨n, hresult⟩
      rw [hresult] at hr
      rcases settle_mem hr with hr | rfl
      · cases hr
      · cases hstatus
    rcases runAttempts_spec tool s.handler tool.definition.attemptsAllowed 0
      { cls := .timeoutError } with ⟨n, _, _, _, hresult⟩ | ⟨_, e, hresult⟩
    · simp only [Nat.zero_add] at hresult
      cases hhandler : s.handler n with
      | returned raw =>
        refine ⟨n, raw, hhandler, ?_⟩
        rw [hresult]
        exact Nat.zero_add _
      | raised e =>
        exfalso
        rw [hhandler] at hresult
        unfold settled at hresult
        dsimp only at hresult
        by_cases hvalidation : e.cls = .validationError
        · rw [if_pos hvalidation] at hresult
          exact hfailed _ ⟨_, hresult⟩
        · rw [if_neg hvalidation] at hresult
          rw [hresult] at hr
          cases hr
    · exact (hfailed e ⟨_, hresult⟩).elim

end DigitalWorker.Tools
