import DigitalWorker.Kernel.Basic

/-! # The circuit breaker

    The breaker of a dependency refuses calls after repeated failures and lets a
    call through again when its timeout is over.
-/

namespace DigitalWorker

inductive CircuitState where
  | closed
  | opened
  | halfOpen
  deriving DecidableEq

/-- `CircuitBreaker`, its settings. -/
structure CircuitBreaker where
  name : String := ""
  failureThreshold : Int := 5
  /-- `reset_timeout_seconds`, in the unit of the clock. -/
  resetTimeout : Int := 30000000

/-- `CircuitBreaker`, what it remembers. -/
structure BreakerStatus where
  state : CircuitState := .closed
  consecutiveFailures : Nat := 0
  openedAt : Option DateTime := none
  deriving DecidableEq

namespace CircuitBreaker

variable (b : CircuitBreaker)

/-- `CircuitOpenError`. -/
def openError : Error :=
  { kind := .infrastructure, message := "circuit breaker is open", details := [("breaker", b.name)] }

def beforeCall (s : BreakerStatus) (now : DateTime) : Except Error BreakerStatus :=
  match s.state with
  | .closed => .ok s
  | .opened =>
    match s.openedAt with
    | none => .error { kind := .assertion, message := "" }
    | some openedAt =>
      if now - openedAt < b.resetTimeout then .error b.openError
      else .ok { s with state := .halfOpen }
  | .halfOpen => .ok s

def recordSuccess (_ : BreakerStatus) : BreakerStatus :=
  { state := .closed, consecutiveFailures := 0, openedAt := none }

def trip (_ : BreakerStatus) (now : DateTime) : BreakerStatus :=
  { state := .opened, consecutiveFailures := 0, openedAt := some now }

def recordFailure (s : BreakerStatus) (now : DateTime) : BreakerStatus :=
  if s.state = .halfOpen then trip s now
  else
    let s := { s with consecutiveFailures := s.consecutiveFailures + 1 }
    if b.failureThreshold ≤ s.consecutiveFailures then trip s now else s

def Past (s : BreakerStatus) (now : DateTime) : Prop :=
  ∃ openedAt, s.openedAt = some openedAt ∧ b.resetTimeout ≤ now - openedAt

def Trips (s : BreakerStatus) : Prop :=
  s.state = .halfOpen ∨ b.failureThreshold ≤ (s.consecutiveFailures + 1 : Nat)

instance (s : BreakerStatus) : Decidable (b.Trips s) := inferInstanceAs (Decidable (_ ∨ _))

variable {b} {s s' : BreakerStatus} {now : DateTime}

theorem beforeCall_halfOpen (h : s.state = .halfOpen) : b.beforeCall s now = .ok s := by
  simp [beforeCall, h]

theorem beforeCall_ok : b.beforeCall s now = .ok s' ↔
    s.state ≠ .opened ∧ s' = s ∨
      s.state = .opened ∧ b.Past s now ∧ s' = { s with state := .halfOpen } := by
  unfold beforeCall Past
  cases hstate : s.state with
  | closed => simp [eq_comm]
  | halfOpen => simp [eq_comm]
  | opened =>
    cases hat : s.openedAt with
    | none => simp
    | some openedAt =>
      by_cases hearly : now - openedAt < b.resetTimeout
      · have hnot : ¬ b.resetTimeout ≤ now - openedAt := Int.not_le.mpr hearly
        simp [hearly, hnot]
      · have hpast : b.resetTimeout ≤ now - openedAt := Int.not_lt.mp hearly
        simp [hearly, hpast, eq_comm]

theorem recordFailure_eq : b.recordFailure s now =
    if b.Trips s then trip s now
    else { s with consecutiveFailures := s.consecutiveFailures + 1 } := by
  unfold recordFailure Trips
  by_cases hhalf : s.state = .halfOpen
  · simp [hhalf]
  · simp only [hhalf, if_false, false_or]
    rfl

theorem recordFailure_trips (h : b.Trips s) :
    b.recordFailure s now = { state := .opened, consecutiveFailures := 0, openedAt := some now } := by
  rw [recordFailure_eq, if_pos h, trip]

theorem recordFailure_counts (h : ¬ b.Trips s) :
    b.recordFailure s now = { s with consecutiveFailures := s.consecutiveFailures + 1 } := by
  rw [recordFailure_eq, if_neg h]

theorem recordFailure_state_ne : (b.recordFailure s now).state ≠ .halfOpen := by
  by_cases h : b.Trips s
  · rw [recordFailure_trips h]
    simp
  · rw [recordFailure_counts h]
    exact fun hhalf => h (Or.inl hhalf)

end CircuitBreaker

end DigitalWorker
