import DigitalWorker.Framework.Machine
import DigitalWorker.Tools.Executor

/-! # Calls of one tool under one idempotency key

    Looking a success up, running the handler and recording the execution are
    three separate steps of `execute`. What a handler does to the
    world outside is its effect; a handler that returns has had it, and one that
    raises may have.
-/

namespace DigitalWorker.Tools

open Framework

section

variable {ι ρ ω : Type}

/-! ## Attempts, one at a time -/

/-- How the loop ends after an attempt with `left` more allowed, if it does. -/
def afterAttempt (tool : RegisteredTool ι ρ ω) (left : Nat) : HandlerResult ρ → Option (LoopEnd ω)
  | .returned raw => some (settled tool (.returned raw))
  | .raised e =>
    if e.isTransient then (if left = 0 then some (.failed e) else none)
    else some (settled tool (.raised e))

/-! ## The machine -/

structure Target (x : ToolExecutor ι ρ ω) where
  tenantId : Uuid
  name : String
  version : String
  key : String
  key_given : key ≠ ""
  tool : RegisteredTool ι ρ ω
  resolves : x.resolve name version = some tool

variable {x : ToolExecutor ι ρ ω} {target : Target x}

structure Target.Takes (target : Target x) (call : ToolCall) : Prop where
  tenantId : call.runContext.tenantId = target.tenantId
  name : call.name = target.name
  version : call.version = target.version
  key : call.idempotencyKey = some target.key

def Target.stored (target : Target x) (rows : List ToolExecution) : Option ToolExecution :=
  findSucceeded target.tenantId target.name target.key rows

inductive Phase (ω : Type) where
  /-- It found nothing stored, and has an attempt to make and `left` after it. -/
  | attempting (left attempt : Nat)
  /-- The handler is done, and nothing is recorded yet. -/
  | ended (how : LoopEnd ω) (attempts : Nat)
  /-- It raised with the output in hand, and nothing is stored. -/
  | lost
  | over (result : Except Raised ω)

/-- A call that found nothing and may still change what is stored, or had an
    effect that is stored nowhere. -/
def Phase.isOpen : Phase ω → Bool
  | .over _ => false
  | _ => true

structure Flight (target : Target x) where
  call : ToolCall
  ours : target.Takes call
  input : Dict := []
  inputHash : String := ""
  phase : Phase ω

structure ReplayState (target : Target x) where
  rows : List ToolExecution := []
  flights : Nat → Option (Flight target) := fun _ => none
  /-- The effects the handler had, newest first, each with its valid output. -/
  effects : List (Option ω) := []

inductive ReplayAction (target : Target x) where
  | lookup (c : Nat) (call : ToolCall) (ours : target.Takes call) (s : Surroundings ρ)
  /-- The handler runs; if it raises, it may have had its effect or not. -/
  | invoke (c : Nat) (r : HandlerResult ρ) (acted : Bool)
  /-- The execution is recorded and audited, and the call returns. -/
  | record (c : Nat) (s : Surroundings ρ)

def ReplayState.put (s : ReplayState target) (c : Nat) (f : Flight target) : ReplayState target :=
  { s with flights := fun d => if d = c then some f else s.flights d }

def effectOf (tool : RegisteredTool ι ρ ω) (r : HandlerResult ρ) (acted : Bool) :
    Option (Option ω) :=
  match r with
  | .returned raw => some (tool.validateOutput raw)
  | .raised _ => if acted then some none else none

def replayStep (s : ReplayState target) : ReplayAction target → Option (ReplayState target)
  | .lookup c call ours sur =>
    if (s.flights c).isSome then none
    else
      match x.admit call sur s.rows with
      | .refused _ e => some (s.put c { call := call, ours := ours, phase := .over (.error e) })
      | .replayed _ result => some (s.put c
          { call := call, ours := ours
            phase := .over (match sur.auditFault with | some e => .error e | none => result) })
      | .admitted tool input inputHash => some (s.put c
          { call := call, ours := ours, input := input, inputHash := inputHash
            phase := .attempting (tool.definition.attemptsAllowed - 1) 0 })
  | .invoke c r acted =>
    match s.flights c with
    | none => none
    | some f =>
      match f.phase with
      | .attempting left attempt =>
        let s := { s with effects := (effectOf target.tool r acted).toList ++ s.effects }
        some (s.put c { f with
          phase := match afterAttempt target.tool left r with
            | none => .attempting (left - 1) (attempt + 1)
            | some (.escaped e) => .over (.error e)
            | some ended => .ended ended (attempt + 1) })
      | _ => none
  | .record c sur =>
    match s.flights c with
    | none => none
    | some f =>
      match f.phase with
      | .ended how attempts =>
        let r := x.finish f.call sur target.tool f.input f.inputHash (how, attempts)
          { executions := s.rows }
        let rows := r.1.executions
        some ({ s with rows := rows }.put c { f with
          phase := match how with
            | .output _ => if (target.stored rows).isNone then .lost else .over r.2
            | _ => .over r.2 })
      | _ => none

def replays (target : Target x) : Machine (ReplayState target) (ReplayAction target) where
  init s := target.stored s.rows = none ∧ (∀ c, s.flights c = none) ∧ s.effects = []
  step := replayStep

/-! ## The property -/

structure AtMostOnce (s : ReplayState target) : Prop where
  once : s.effects.length ≤ 1
  output : ∀ c f o, s.flights c = some f → f.phase = .over (.ok o) → s.effects = [some o]

/-! ## The condition -/

def Quiet (s : ReplayState target) : Prop := ∀ c f, s.flights c = some f → f.phase.isOpen = false

def Conclusive (tool : RegisteredTool ι ρ ω) (r : HandlerResult ρ) (acted : Bool) : Prop :=
  effectOf tool r acted = none ∨
    ∃ raw o payload, r = .returned raw ∧ tool.validateOutput raw = some o ∧
      tool.dumpOutput o = .ok payload

/-- **The condition**: a call that finds nothing looks while no other call is open,
    and effects are conclusive. -/
def Disjoint (e : Event (ReplayState target) (ReplayAction target)) : Prop :=
  match e.act with
  | .lookup _ _ _ _ => (target.stored e.pre.rows).isSome = true ∨ Quiet e.pre
  | .invoke _ r acted => Conclusive target.tool r acted
  | .record _ _ => True

/-! ## The invariant -/

def Phase.isIdle : Phase ω → Bool
  | .attempting _ _ => true
  | .ended (.failed _) _ => true
  | .over (.error _) => true
  | _ => false

inductive Progress (s : ReplayState target) : Prop where
  | fresh (hrows : target.stored s.rows = none) (heffects : s.effects = [])
      (hidle : ∀ c f, s.flights c = some f → f.phase.isIdle = true)
      (hone : ∀ c d f g, s.flights c = some f → s.flights d = some g → f.phase.isOpen = true →
        g.phase.isOpen = true → c = d)
  | acted (o : ω) (payload : Json) (c : Nat) (f : Flight target)
      (hrows : target.stored s.rows = none) (hdump : target.tool.dumpOutput o = .ok payload)
      (heffects : s.effects = [some o]) (hflight : s.flights c = some f)
      (hphase : (∃ n, f.phase = .ended (.output o) n) ∨ f.phase = .lost)
      (hothers : ∀ d g, s.flights d = some g → d ≠ c → ∃ e, g.phase = .over (.error e))
  | stored (o : ω) (row : ToolExecution) (payload : Json) (hrows : target.stored s.rows = some row)
      (houtput : row.output = some payload) (hdump : target.tool.dumpOutput o = .ok payload)
      (heffects : s.effects = [some o])
      (hover : ∀ c f, s.flights c = some f → f.phase = .over (.ok o) ∨ ∃ e, f.phase = .over (.error e))

theorem Progress.atMostOnce {s : ReplayState target} (h : Progress s) : AtMostOnce s := by
  cases h with
  | fresh hrows heffects hidle hone =>
    refine ⟨by simp [heffects], ?_⟩
    intro c f o hf hphase
    have hidle := hidle c f hf
    rw [hphase] at hidle
    cases hidle
  | acted o payload c f hrows hdump heffects hflight hphase hothers =>
    refine ⟨by simp [heffects], ?_⟩
    intro d g o' hg hsuccess
    by_cases hdc : d = c
    · subst hdc
      obtain rfl := Option.some.inj (hflight.symm.trans hg)
      rcases hphase with ⟨n, hphase⟩ | hphase
      · rw [hphase] at hsuccess
        cases hsuccess
      · rw [hphase] at hsuccess
        cases hsuccess
    · obtain ⟨e, he⟩ := hothers d g hg hdc
      rw [he] at hsuccess
      cases hsuccess
  | stored o row payload hrows houtput hdump heffects hover =>
    refine ⟨by simp [heffects], ?_⟩
    intro c f o' hf hphase
    rcases hover c f hf with hok | ⟨e, he⟩
    · have heq : Phase.over (.ok o) = Phase.over (.ok o') := hok.symm.trans hphase
      simp only [Phase.over.injEq, Except.ok.injEq] at heq
      rw [heffects, heq]
    · rw [he] at hphase
      cases hphase

/-! ## What the steps of a call do -/

variable {s s' : ReplayState target} {sur : Surroundings ρ} {call : ToolCall}

theorem Target.Takes.key? (ours : target.Takes call) : call.key? = some target.key := by
  unfold ToolCall.key?
  rw [ours.key]
  exact if_neg target.key_given

theorem admit_cases {rows : List ToolExecution} (ours : target.Takes call) :
    (∃ audit e, x.admit call sur rows = .refused audit e) ∨
    (∃ input inputHash, target.stored rows = none ∧
      x.admit call sur rows = .admitted target.tool input inputHash) ∨
    (∃ row audit, target.stored rows = some row ∧
      x.admit call sur rows = .replayed audit
        (match target.tool.loadOutput (row.output.getD (.obj [])) with
        | some o => .ok o
        | none => .error { cls := .validationError })) := by
  have hresolve : x.resolve call.name call.version = some target.tool := by
    rw [ours.name, ours.version]
    exact target.resolves
  have hfind : findSucceeded call.runContext.tenantId call.name target.key rows =
      target.stored rows := by
    rw [ours.tenantId, ours.name]
    rfl
  generalize hclaimed : x.admit call sur rows = a
  unfold ToolExecutor.admit at hclaimed
  rw [hresolve, ours.key?] at hclaimed
  dsimp only at hclaimed
  split at hclaimed
  · exact .inl ⟨_, _, hclaimed.symm⟩
  · split at hclaimed
    · exact .inl ⟨_, _, hclaimed.symm⟩
    · split at hclaimed
      · exact .inl ⟨_, _, hclaimed.symm⟩
      · split at hclaimed
        · exact .inl ⟨_, _, hclaimed.symm⟩
        · rw [hfind] at hclaimed
          split at hclaimed
          · next hnone => exact .inr (.inl ⟨_, _, hnone, hclaimed.symm⟩)
          · next row hsome =>
            split at hclaimed
            · exact .inl ⟨_, _, hclaimed.symm⟩
            · exact .inr (.inr ⟨row, _, hsome, hclaimed.symm⟩)

theorem Target.Takes.answers (ours : target.Takes call) {row : ToolExecution}
    (htenant : row.tenantId = call.runContext.tenantId) (hname : row.toolName = call.name)
    (hkey : row.idempotencyKey = call.idempotencyKey) (hstatus : row.status = .succeeded) :
    row.answers target.tenantId target.name target.key = true := by
  unfold ToolExecution.answers
  rw [htenant, hname, hkey, hstatus, ours.tenantId, ours.name, ours.key]
  simp

theorem stored_cons {rows : List ToolExecution} {row : ToolExecution} :
    target.stored (row :: rows) =
      if row.answers target.tenantId target.name target.key then some row
      else target.stored rows := by
  unfold Target.stored findSucceeded
  rw [List.find?_cons]
  split <;> simp_all

theorem stored_cons_failed {rows : List ToolExecution} {row : ToolExecution}
    (h : row.status = .failed) : target.stored (row :: rows) = target.stored rows := by
  rw [stored_cons, if_neg]
  unfold ToolExecution.answers
  rw [h]
  simp

theorem settle_rows {row : ToolExecution} {event : AuditEvent} {t : Trail}
    {result : Except Raised ω} :
    ((settle sur row event t result).1.executions = t.executions ∧
      ∃ e, (settle sur row event t result).2 = .error e) ∨
    ((settle sur row event t result).1.executions = row :: t.executions ∧
      ((settle sur row event t result).2 = result ∨
        ∃ e, (settle sur row event t result).2 = .error e)) := by
  unfold settle recordExecution
  cases hfault : sur.recordFault with
  | some e => exact .inl ⟨rfl, e, rfl⟩
  | none =>
    cases htaken : keyTaken t.executions row with
    | true => exact .inl ⟨rfl, _, rfl⟩
    | false =>
      right
      cases haudit : sur.auditFault with
      | some e => exact ⟨rfl, .inr ⟨e, rfl⟩⟩
      | none => exact ⟨rfl, .inl rfl⟩

theorem finish_failed_stored {tool : RegisteredTool ι ρ ω} {input : Dict} {inputHash : String}
    {e : Raised} {n : Nat} {rows : List ToolExecution} :
    target.stored (x.finish call sur tool input inputHash (.failed e, n)
        { executions := rows }).1.executions = target.stored rows ∧
      ∃ e', (x.finish call sur tool input inputHash (.failed e, n)
        { executions := rows }).2 = .error e' := by
  rcases @settle_rows ρ ω sur
      { executionRow call sur inputHash n .failed with error := some e.cls.name } _
      { executions := rows } _ with ⟨hrows, hresult⟩ | ⟨hrows, hresult⟩
  · exact ⟨congrArg target.stored hrows, hresult⟩
  · refine ⟨(congrArg target.stored hrows).trans (stored_cons_failed rfl), ?_⟩
    rcases hresult with hresult | hresult
    · exact ⟨_, hresult⟩
    · exact hresult

theorem finish_output_stored (ours : target.Takes call) {input : Dict} {inputHash : String} {o : ω}
    {n : Nat} {rows : List ToolExecution} {payload : Json}
    (hdump : target.tool.dumpOutput o = .ok payload) :
    (target.stored (x.finish call sur target.tool input inputHash (.output o, n)
          { executions := rows }).1.executions = target.stored rows ∧
      ∃ e, (x.finish call sur target.tool input inputHash (.output o, n)
        { executions := rows }).2 = .error e) ∨
    ((∃ row, target.stored (x.finish call sur target.tool input inputHash (.output o, n)
          { executions := rows }).1.executions = some row ∧ row.output = some payload) ∧
      ((x.finish call sur target.tool input inputHash (.output o, n)
          { executions := rows }).2 = .ok o ∨
        ∃ e, (x.finish call sur target.tool input inputHash (.output o, n)
          { executions := rows }).2 = .error e)) := by
  unfold ToolExecutor.finish
  simp only [hdump]
  rcases @settle_rows ρ ω sur
      { executionRow call sur inputHash n .succeeded with
        outputHash := some (x.canonicalHash payload), output := some payload }
      _ { executions := rows } _ with ⟨hrows, hresult⟩ | ⟨hrows, hresult⟩
  · left
    exact ⟨congrArg target.stored hrows, hresult⟩
  · right
    let row : ToolExecution :=
      { executionRow call sur inputHash n .succeeded with
        outputHash := some (x.canonicalHash payload), output := some payload }
    have hanswers : row.answers target.tenantId target.name target.key = true :=
      ours.answers rfl rfl rfl rfl
    refine ⟨⟨row, (congrArg target.stored hrows).trans ?_, rfl⟩, hresult⟩
    rw [stored_cons]
    exact if_pos hanswers

/-! ## Preservation -/

/-- After an update of one call, the others stand where they stood. -/
theorem put_flights {c d : Nat} {f g : Flight target} (h : (s.put c f).flights d = some g) :
    (d = c ∧ g = f) ∨ (d ≠ c ∧ s.flights d = some g) := by
  unfold ReplayState.put at h
  by_cases hdc : d = c
  · left
    simp only [hdc, if_true] at h
    exact ⟨hdc, (Option.some.inj h).symm⟩
  · right
    simp only [hdc, if_false] at h
    exact ⟨hdc, h⟩

theorem put_flights_self {c : Nat} {f : Flight target} : (s.put c f).flights c = some f :=
  if_pos rfl

theorem Phase.failed_of_idle {p : Phase ω} (hidle : p.isIdle = true) (hclosed : p.isOpen = false) :
    ∃ e, p = .over (.error e) := by
  match p, hidle, hclosed with
  | .over (.error e), _, _ => exact ⟨e, rfl⟩

theorem Progress.put_failed (h : Progress s) {c : Nat} {f : Flight target} {e : Raised}
    (hnew : s.flights c = none) (hf : f.phase = .over (.error e)) : Progress (s.put c f) := by
  cases h with
  | fresh hrows heffects hidle hone =>
    refine .fresh hrows heffects ?_ ?_
    · intro d g hg
      rcases put_flights hg with ⟨rfl, rfl⟩ | ⟨_, hg⟩
      · rw [hf]
        rfl
      · exact hidle d g hg
    · intro d d' g g' hg hg' hopen hopen'
      rcases put_flights hg with ⟨rfl, rfl⟩ | ⟨_, hg⟩
      · rw [hf] at hopen
        cases hopen
      · rcases put_flights hg' with ⟨rfl, rfl⟩ | ⟨_, hg'⟩
        · rw [hf] at hopen'
          cases hopen'
        · exact hone d d' g g' hg hg' hopen hopen'
  | acted o payload c₀ f₀ hrows hdump heffects hflight hphase hothers =>
    have hne : c₀ ≠ c := by
      rintro rfl
      rw [hnew] at hflight
      cases hflight
    refine .acted o payload c₀ f₀ hrows hdump heffects ?_ hphase ?_
    · show (if c₀ = c then some f else s.flights c₀) = some f₀
      rw [if_neg hne]
      exact hflight
    · intro d g hg hd
      rcases put_flights hg with ⟨rfl, rfl⟩ | ⟨_, hg⟩
      · exact ⟨e, hf⟩
      · exact hothers d g hg hd
  | stored o row payload hrows houtput hdump heffects hover =>
    refine .stored o row payload hrows houtput hdump heffects ?_
    intro d g hg
    rcases put_flights hg with ⟨rfl, rfl⟩ | ⟨_, hg⟩
    · exact .inr ⟨e, hf⟩
    · exact hover d g hg

theorem Progress.lookup (hround : ∀ o payload, target.tool.dumpOutput o = .ok payload →
      target.tool.loadOutput payload = some o)
    {c : Nat} {ours : target.Takes call} (h : Progress s)
    (hs : replayStep s (.lookup c call ours sur) = some s')
    (hok : (target.stored s.rows).isSome = true ∨ Quiet s) : Progress s' := by
  simp only [replayStep] at hs
  split at hs
  · cases hs
  · next hnew =>
    have hnone : s.flights c = none := by simpa using hnew
    rcases @admit_cases ι ρ ω x target sur call s.rows ours with ⟨audit, e, hclaimed⟩ |
      ⟨input, inputHash, hrows, hclaimed⟩ | ⟨row, audit, hrows, hclaimed⟩
    · rw [hclaimed] at hs
      obtain rfl := Option.some.inj hs
      exact h.put_failed hnone rfl
    · rw [hclaimed] at hs
      obtain rfl := Option.some.inj hs
      have hquiet : Quiet s := by
        rcases hok with hstored | hquiet
        · rw [hrows] at hstored
          cases hstored
        · exact hquiet
      cases h with
      | fresh hrows heffects hidle hone =>
        -- the new call is the only open one
        have honly : ∀ d g, (s.put c { call := call, ours := ours, input := input
                                       inputHash := inputHash
                                       phase := .attempting (target.tool.definition.attemptsAllowed - 1)
                                         0 }).flights d = some g → g.phase.isOpen = true → d = c := by
          intro d g hg hopen
          rcases put_flights hg with ⟨rfl, _⟩ | ⟨_, hg⟩
          · rfl
          · rw [hquiet d g hg] at hopen
            cases hopen
        refine .fresh hrows heffects ?_ ?_
        · intro d g hg
          rcases put_flights hg with ⟨rfl, rfl⟩ | ⟨_, hg⟩
          · rfl
          · exact hidle d g hg
        · intro d d' g g' hg hg' hopen hopen'
          rw [honly d g hg hopen, honly d' g' hg' hopen']
      | acted o payload c₀ f₀ hrows hdump heffects hflight hphase hothers =>
        exfalso
        have hclosed := hquiet c₀ f₀ hflight
        rcases hphase with ⟨n, hphase⟩ | hphase
        · rw [hphase] at hclosed
          cases hclosed
        · rw [hphase] at hclosed
          cases hclosed
      | stored o row payload hrows' houtput hdump heffects hover =>
        rw [hrows] at hrows'
        cases hrows'
    · rw [hclaimed] at hs
      obtain rfl := Option.some.inj hs
      cases h with
      | fresh hrows' heffects hidle hone =>
        rw [hrows] at hrows'
        cases hrows'
      | acted o payload c₀ f₀ hrows' hdump heffects hflight hphase hothers =>
        rw [hrows] at hrows'
        cases hrows'
      | stored o row' payload hrows' houtput hdump heffects hover =>
        have heq : some row = some row' := hrows.symm.trans hrows'
        obtain rfl := Option.some.inj heq
        refine .stored o row payload hrows' houtput hdump heffects ?_
        intro d g hg
        rcases put_flights hg with ⟨rfl, rfl⟩ | ⟨_, hg⟩
        · -- what is loaded is what was dumped
          have hload : target.tool.loadOutput (row.output.getD (.obj [])) = some o := by
            rw [houtput]
            exact hround o payload hdump
          dsimp only
          rw [hload]
          cases sur.auditFault with
          | some e => exact .inr ⟨e, rfl⟩
          | none => exact .inl rfl
        · exact hover d g hg

theorem Progress.attempting (h : Progress s) {c left attempt : Nat} {f : Flight target}
    (hf : s.flights c = some f) (hphase : f.phase = .attempting left attempt) :
    target.stored s.rows = none ∧ s.effects = [] ∧
      (∀ d g, s.flights d = some g → g.phase.isIdle = true) ∧
      ∀ d g, s.flights d = some g → d ≠ c → ∃ e, g.phase = .over (.error e) := by
  have hopen : f.phase.isOpen = true := by
    rw [hphase]
    rfl
  cases h with
  | fresh hrows heffects hidle hone =>
    refine ⟨hrows, heffects, hidle, ?_⟩
    intro d g hg hd
    apply Phase.failed_of_idle (hidle d g hg)
    by_contra hnot
    rw [Bool.not_eq_false] at hnot
    exact hd (hone d c g f hg hf hnot hopen)
  | acted o payload c₀ f₀ hrows hdump heffects hflight hphase₀ hothers =>
    exfalso
    by_cases hc : c = c₀
    · subst hc
      obtain rfl := Option.some.inj (hflight.symm.trans hf)
      rcases hphase₀ with ⟨n, hphase₀⟩ | hphase₀
      · rw [hphase] at hphase₀
        cases hphase₀
      · rw [hphase] at hphase₀
        cases hphase₀
    · obtain ⟨e, he⟩ := hothers c f hf hc
      rw [hphase] at he
      cases he
  | stored o row payload hrows houtput hdump heffects hover =>
    exfalso
    rcases hover c f hf with hover | ⟨e, hover⟩
    · rw [hphase] at hover
      cases hover
    · rw [hphase] at hover
      cases hover

/-- One call moves on while the others have failed, and nothing has happened. -/
theorem Progress.put_fresh {c : Nat} {f : Flight target} (hrows : target.stored s.rows = none)
    (heffects : s.effects = [])
    (hothers : ∀ d g, s.flights d = some g → d ≠ c → ∃ e, g.phase = .over (.error e))
    (hidle : f.phase.isIdle = true) : Progress (s.put c f) := by
  have honly : ∀ d g, (s.put c f).flights d = some g → g.phase.isOpen = true → d = c := by
    intro d g hg hopen
    rcases put_flights hg with ⟨rfl, _⟩ | ⟨hd, hg⟩
    · rfl
    · obtain ⟨e, he⟩ := hothers d g hg hd
      rw [he] at hopen
      cases hopen
  refine .fresh hrows heffects ?_ ?_
  · intro d g hg
    rcases put_flights hg with ⟨rfl, rfl⟩ | ⟨hd, hg⟩
    · exact hidle
    · obtain ⟨e, he⟩ := hothers d g hg hd
      rw [he]
      rfl
  · intro d d' g g' hg hg' hopen hopen'
    rw [honly d g hg hopen, honly d' g' hg' hopen']

theorem Progress.invoke {c : Nat} {r : HandlerResult ρ} {acted : Bool} (h : Progress s)
    (hs : replayStep s (.invoke c r acted) = some s') (hok : Conclusive target.tool r acted) :
    Progress s' := by
  simp only [replayStep] at hs
  split at hs
  · cases hs
  · next f hf =>
    split at hs
    · next left attempt hphase =>
      obtain rfl := Option.some.inj hs
      obtain ⟨hrows, heffects, hidle, hothers⟩ := h.attempting hf hphase
      rcases hok with hnone | ⟨raw, o, payload, rfl, hvalid, hdump⟩
      · -- the handler raised without an effect
        cases r with
        | returned raw => cases hnone
        | raised e =>
          have hsame : ((effectOf target.tool (HandlerResult.raised e) acted).toList ++ s.effects) =
              [] := by
            rw [hnone, heffects]
            rfl
          refine Progress.put_fresh hrows hsame hothers ?_
          simp only [afterAttempt, settled]
          split
          · rfl
          · rfl
          · next ended hescapes hended =>
            split at hended
            · split at hended
              · obtain rfl := Option.some.inj hended
                rfl
              · cases hended
            · split at hended
              · obtain rfl := Option.some.inj hended
                rfl
              · obtain rfl := Option.some.inj hended
                exact absurd rfl (hescapes _)
      · -- it returned the output of its effect
        have heffect : effectOf target.tool (.returned raw) acted = some (some o) :=
          congrArg some hvalid
        have hended : afterAttempt target.tool left (.returned raw) = some (.output o) := by
          simp only [afterAttempt, settled, hvalid]
        refine .acted o payload c _ hrows hdump ?_ put_flights_self ?_ ?_
        · show (effectOf target.tool (.returned raw) acted).toList ++ s.effects = [some o]
          rw [heffect, heffects]
          rfl
        · left
          refine ⟨attempt + 1, ?_⟩
          dsimp only
          rw [hended]
        · intro d g hg hd
          rcases put_flights hg with ⟨rfl, _⟩ | ⟨_, hg⟩
          · exact absurd rfl hd
          · exact hothers d g hg hd
    · cases hs

theorem Progress.record {c : Nat} (h : Progress s)
    (hs : replayStep s (.record c sur) = some s') : Progress s' := by
  simp only [replayStep] at hs
  split at hs
  · cases hs
  · next f hf =>
    split at hs
    · next how attempts hphase =>
      obtain rfl := Option.some.inj hs
      cases h with
      | fresh hrows heffects hidle hone =>
        have hidle_f := hidle c f hf
        rw [hphase] at hidle_f
        obtain ⟨e, rfl⟩ : ∃ e, how = .failed e := by
          cases how with
          | failed e => exact ⟨e, rfl⟩
          | output o => cases hidle_f
          | escaped e => cases hidle_f
        obtain ⟨hstored, e', hresult⟩ := @finish_failed_stored ι ρ ω x target sur f.call target.tool
          f.input f.inputHash e attempts s.rows
        refine Progress.put_fresh (hstored.trans hrows) heffects ?_ ?_
        · intro d g hg hd
          apply Phase.failed_of_idle (hidle d g hg)
          by_contra hnot
          rw [Bool.not_eq_false] at hnot
          refine hd (hone d c g f hg hf hnot ?_)
          rw [hphase]
          rfl
        · dsimp only
          rw [hresult]
          rfl
      | acted o payload c₀ f₀ hrows hdump heffects hflight hphase₀ hothers =>
        have hc : c = c₀ := by
          by_contra hc
          obtain ⟨e, he⟩ := hothers c f hf hc
          rw [hphase] at he
          cases he
        subst hc
        obtain rfl := Option.some.inj (hflight.symm.trans hf)
        obtain rfl : how = .output o := by
          rcases hphase₀ with ⟨n, hphase₀⟩ | hphase₀
          · rw [hphase] at hphase₀
            exact (Phase.ended.inj hphase₀).1
          · rw [hphase] at hphase₀
            cases hphase₀
        have hkept : ∀ {p : Phase ω} {rows : List ToolExecution} d g,
            ({ s with rows := rows }.put c { f₀ with phase := p }).flights d = some g → d ≠ c →
            ∃ e, g.phase = .over (.error e) := by
          intro p rows d g hg hd
          rcases put_flights hg with ⟨rfl, _⟩ | ⟨_, hg⟩
          · exact absurd rfl hd
          · exact hothers d g hg hd
        rcases @finish_output_stored ι ρ ω x target sur f₀.call f₀.ours f₀.input f₀.inputHash o
          attempts s.rows payload hdump with ⟨hstored, e, hresult⟩ | ⟨⟨row, hstored, hrow⟩, hresult⟩
        · refine .acted o payload c _ (hstored.trans hrows) hdump heffects put_flights_self ?_ hkept
          right
          dsimp only
          rw [hstored, hrows]
          rfl
        · refine .stored o row payload hstored hrow hdump heffects ?_
          intro d g hg
          rcases put_flights hg with ⟨rfl, rfl⟩ | ⟨hd, hg⟩
          · dsimp only
            rw [hstored]
            rcases hresult with hresult | ⟨e, hresult⟩
            · left
              rw [hresult]
              rfl
            · right
              refine ⟨e, ?_⟩
              rw [hresult]
              rfl
          · exact .inr (hothers d g hg hd)
      | stored o row payload hrows houtput hdump heffects hover =>
        exfalso
        rcases hover c f hf with hover | ⟨e, hover⟩
        · rw [hphase] at hover
          cases hover
        · rw [hphase] at hover
          cases hover
    · cases hs

/-- **Main theorem**: in every run whose calls do not overlap while nothing is
    stored, and whose effects are conclusive, the effect happens once at most and
    every success returns its output. -/
theorem effect_at_most_once (hround : ∀ o payload, target.tool.dumpOutput o = .ok payload →
      target.tool.loadOutput payload = some o)
    {es : List (Event (ReplayState target) (ReplayAction target))}
    (hrun : Exec (replays target) es s) (hok : ∀ e ∈ es, Disjoint e) : AtMostOnce s := by
  have hprogress : Progress s := by
    refine hrun.invariant_of ?_ ?_ hok
    · intro s hinit
      obtain ⟨hrows, hflights, heffects⟩ := hinit
      refine .fresh hrows heffects ?_ ?_
      · intro c f hf
        rw [hflights c] at hf
        cases hf
      · intro c d f g hf
        rw [hflights c] at hf
        cases hf
    · intro s a s' h hs hok
      cases a with
      | lookup c call ours sur => exact h.lookup hround hs hok
      | invoke c r acted => exact h.invoke hs hok
      | record c sur => exact h.record hs
  exact hprogress.atMostOnce

end

/-! ### One key, dispatched once and twice -/

/-- The dispatch tool under the key of `dispatchCall`. -/
def dispatchTarget : Target dispatcher where
  tenantId := { text := "tenant" }
  name := "task.dispatch"
  version := "1.0.0"
  key := "k1"
  key_given := by decide
  tool := dispatchTool
  resolves := rfl

theorem dispatchCall_ours : dispatchTarget.Takes dispatchCall := ⟨rfl, rfl, rfl, rfl⟩

theorem dispatch_init : (replays dispatchTarget).init {} := ⟨rfl, fun _ => rfl, rfl⟩

def calm : Surroundings Json :=
  { handler := fun _ => .returned .null, newId := fun _ => { text := "id" } }

def dispatched : HandlerResult Json := .returned (.obj [("external_ref", .str "EXT-1")])

def looked : ReplayState dispatchTarget :=
  (replays dispatchTarget).next {} (.lookup 0 dispatchCall dispatchCall_ours calm)
def invoked : ReplayState dispatchTarget :=
  (replays dispatchTarget).next looked (.invoke 0 dispatched true)
def recorded : ReplayState dispatchTarget :=
  (replays dispatchTarget).next invoked (.record 0 calm)
def replayed : ReplayState dispatchTarget :=
  (replays dispatchTarget).next recorded (.lookup 1 dispatchCall dispatchCall_ours calm)

def returned (s : ReplayState dispatchTarget) (c : Nat) : Bool :=
  match s.flights c with
  | some f =>
    match f.phase with
    | .over (.ok _) => true
    | _ => false
  | none => false

/-- One call after the other: the second is answered from the first. -/
theorem second_call_replays : ∃ es, Exec (replays dispatchTarget) es replayed ∧
    returned replayed 0 = true ∧ returned replayed 1 = true ∧ AtMostOnce replayed := by
  have hlook := (Exec.start dispatch_init).next
    (.lookup 0 dispatchCall dispatchCall_ours calm) (by decide +kernel)
  have hinvoke := hlook.next (.invoke 0 dispatched true) (by decide +kernel)
  have hrecord := hinvoke.next (.record 0 calm) (by decide +kernel)
  have hreplay := hrecord.next
    (.lookup 1 dispatchCall dispatchCall_ours calm) (by decide +kernel)
  have hstored : (dispatchTarget.stored recorded.rows).isSome = true := by decide +kernel
  refine ⟨_, hreplay, by decide +kernel, by decide +kernel,
    effect_at_most_once (fun o payload h => ?_) hreplay ?_⟩
  · obtain rfl := Except.ok.inj h
    rfl
  · intro e he
    rcases List.mem_cons.mp he with rfl | he
    · exact .inl hstored
    · rcases List.mem_cons.mp he with rfl | he
      · trivial
      · rcases List.mem_cons.mp he with rfl | he
        · exact .inr ⟨_, _, _, rfl, rfl, rfl⟩
        · obtain rfl := List.mem_singleton.mp he
          right
          intro c f hf
          cases hf

def overlapping : List (ReplayAction dispatchTarget) :=
  [.lookup 0 dispatchCall dispatchCall_ours calm, .lookup 1 dispatchCall dispatchCall_ours calm,
    .invoke 0 dispatched true, .invoke 1 dispatched true, .record 0 calm, .record 1 calm]

theorem two_effects : ¬ ∀ (es : List (Event (ReplayState dispatchTarget) (ReplayAction dispatchTarget)))
    (s : ReplayState dispatchTarget), Exec (replays dispatchTarget) es s → AtMostOnce s := by
  intro hall
  have hruns : (replays dispatchTarget).runs {} overlapping
      (fun _ s => s.effects.length == 2) = true := by
    decide +kernel
  obtain ⟨es, s, hrun, htwo⟩ := Machine.exec_of_runs dispatch_init hruns
  have honce := (hall es s hrun).once
  rw [beq_iff_eq] at htwo
  omega

end DigitalWorker.Tools
