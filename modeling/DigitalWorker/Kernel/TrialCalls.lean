import Mathlib.Logic.Function.Basic
import DigitalWorker.Framework.Machine
import DigitalWorker.Kernel.Resilience

/-! # The trial call of a breaker

    Admission and outcome are separate calls, and nothing ties an outcome to the
    admission it belongs to. The callers of one event loop are a machine around the
    breaker, each asking once and reporting at most once, in any order.
-/

namespace DigitalWorker

open Framework

inductive Caller where
  | idle
  | admitted
  | refused
  | reported
  deriving DecidableEq

structure EventLoop (κ : Type) where
  status : BreakerStatus := {}
  callers : κ → Caller := fun _ => .idle

inductive BreakerCall (κ : Type) where
  | beforeCall (who : κ) (now : DateTime)
  | recordSuccess (who : κ)
  | recordFailure (who : κ) (now : DateTime)

variable {κ : Type}

def EventLoop.step [DecidableEq κ] (b : CircuitBreaker) (s : EventLoop κ) : BreakerCall κ → Option (EventLoop κ)
  | .beforeCall who now =>
    if s.callers who = .idle then
      match b.beforeCall s.status now with
      | .ok status =>
        some { status := status, callers := Function.update s.callers who .admitted }
      | .error _ => some { s with callers := Function.update s.callers who .refused }
    else none
  | .recordSuccess who =>
    if s.callers who = .admitted then
      some { status := CircuitBreaker.recordSuccess s.status
             callers := Function.update s.callers who .reported }
    else none
  | .recordFailure who now =>
    if s.callers who = .admitted then
      some { status := b.recordFailure s.status now
             callers := Function.update s.callers who .reported }
    else none

def eventLoop (κ : Type) [DecidableEq κ] (b : CircuitBreaker) :
    Machine (EventLoop κ) (BreakerCall κ) where
  init s := s = {}
  step := EventLoop.step b

section

variable (b : CircuitBreaker)

/-- The event lets `who` through. -/
def Admits (who : κ) (e : Event (EventLoop κ) (BreakerCall κ)) : Prop :=
  ∃ now, e.act = .beforeCall who now ∧ e.post.callers who = .admitted

/-- The event lets `who` through as the trial: the breaker leaves OPEN. -/
def StartsTrial (who : κ) (e : Event (EventLoop κ) (BreakerCall κ)) : Prop :=
  Admits who e ∧ e.pre.status.state = .opened

/-- The event is an outcome of `who`. -/
def Reports (who : κ) (e : Event (EventLoop κ) (BreakerCall κ)) : Prop :=
  e.act = .recordSuccess who ∨ ∃ now, e.act = .recordFailure who now

/-- The event trips the breaker at `at_`. -/
def TripsAt (at_ : DateTime) (e : Event (EventLoop κ) (BreakerCall κ)) : Prop :=
  ∃ who, e.act = .recordFailure who at_ ∧ b.Trips e.pre.status

/-- The trial of `who` is out: begun, and without an outcome. -/
def TrialOut (who : κ) (es : List (Event (EventLoop κ) (BreakerCall κ))) : Prop :=
  Since (StartsTrial who) (Reports who) es

/-- `who` was let through after the last trip. -/
def AdmittedSinceTrip (who : κ) (es : List (Event (EventLoop κ) (BreakerCall κ))) : Prop :=
  Since (Admits who) (fun e => ∃ at_, TripsAt b at_ e) es

structure OneTrial (es : List (Event (EventLoop κ) (BreakerCall κ)))
    (e : Event (EventLoop κ) (BreakerCall κ)) : Prop where
  /-- While a trial is out nobody else is let through. -/
  alone : ∀ who, Admits who e → ∀ other, ¬ TrialOut other es
  /-- Out of OPEN nobody is let through before the timeout since the last trip. -/
  waits : ∀ who now, e.act = .beforeCall who now → e.pre.status.state = .opened →
    Admits who e → Since (fun g => ∃ at_, TripsAt b at_ g ∧ b.resetTimeout ≤ now - at_)
      (fun g => ∃ at_, TripsAt b at_ g) es
  /-- Who was let through before the last trip does not close the breaker. -/
  late : ∀ who, e.act = .recordSuccess who → e.pre.status.state ≠ .closed →
    AdmittedSinceTrip b who es

structure InTurn (es : List (Event (EventLoop κ) (BreakerCall κ)))
    (e : Event (EventLoop κ) (BreakerCall κ)) : Prop where
  asks : ∀ who now, e.act = .beforeCall who now → e.pre.status.state ≠ .halfOpen ∧
    (e.pre.status.state = .opened → b.Past e.pre.status now → ∀ other, ¬ TrialOut other es)
  succeeds : ∀ who, e.act = .recordSuccess who → e.pre.status.state = .closed ∨
    e.pre.status.state = .halfOpen ∧ AdmittedSinceTrip b who es

end

/-! ## What one call does -/

section

variable {b : CircuitBreaker} {s s' : EventLoop κ} {a : BreakerCall κ} {who other : κ}
  {now : DateTime}

theorem EventLoop.step_cases [DecidableEq κ] (hs : (eventLoop κ b).step s a = some s') :
    (∃ who now status, a = .beforeCall who now ∧ b.beforeCall s.status now = .ok status ∧
      s' = { status := status, callers := Function.update s.callers who .admitted }) ∨
    (∃ who now e, a = .beforeCall who now ∧ b.beforeCall s.status now = .error e ∧
      s' = { s with callers := Function.update s.callers who .refused }) ∨
    (∃ who, a = .recordSuccess who ∧
      s' = { status := CircuitBreaker.recordSuccess s.status
             callers := Function.update s.callers who .reported }) ∨
    (∃ who now, a = .recordFailure who now ∧
      s' = { status := b.recordFailure s.status now
             callers := Function.update s.callers who .reported }) := by
  change EventLoop.step b s a = some s' at hs
  cases a with
  | beforeCall who now =>
    simp only [EventLoop.step] at hs
    split at hs
    · cases hb : b.beforeCall s.status now with
      | ok status =>
        rw [hb] at hs
        exact Or.inl ⟨who, now, status, rfl, hb, (Option.some.inj hs).symm⟩
      | error e =>
        rw [hb] at hs
        exact Or.inr (Or.inl ⟨who, now, e, rfl, hb, (Option.some.inj hs).symm⟩)
    · cases hs
  | recordSuccess who =>
    simp only [EventLoop.step] at hs
    split at hs
    · exact Or.inr (Or.inr (Or.inl ⟨who, rfl, (Option.some.inj hs).symm⟩))
    · cases hs
  | recordFailure who now =>
    simp only [EventLoop.step] at hs
    split at hs
    · exact Or.inr (Or.inr (Or.inr ⟨who, now, rfl, (Option.some.inj hs).symm⟩))
    · cases hs

@[simp] theorem admits_beforeCall :
    Admits other ⟨s, .beforeCall who now, s'⟩ ↔ who = other ∧ s'.callers other = .admitted := by
  constructor
  · intro h
    obtain ⟨now', hact, hpost⟩ := h
    injection hact with hwho _
    exact ⟨hwho, hpost⟩
  · intro h
    obtain ⟨rfl, hpost⟩ := h
    exact ⟨now, rfl, hpost⟩

@[simp] theorem admits_recordSuccess : ¬ Admits other ⟨s, .recordSuccess who, s'⟩ := by
  intro h
  obtain ⟨_, hact, -⟩ := h
  cases hact

@[simp] theorem admits_recordFailure : ¬ Admits other ⟨s, .recordFailure who now, s'⟩ := by
  intro h
  obtain ⟨_, hact, -⟩ := h
  cases hact

@[simp] theorem reports_beforeCall : ¬ Reports other ⟨s, .beforeCall who now, s'⟩ := by
  simp [Reports]

@[simp] theorem reports_recordSuccess :
    Reports other ⟨s, .recordSuccess who, s'⟩ ↔ who = other := by
  simp [Reports]

@[simp] theorem trips_beforeCall (at_ : DateTime) :
    ¬ TripsAt b at_ ⟨s, .beforeCall who now, s'⟩ := by
  simp [TripsAt]

@[simp] theorem trips_recordFailure (at_ : DateTime) :
    TripsAt b at_ ⟨s, .recordFailure who now, s'⟩ ↔ now = at_ ∧ b.Trips s.status := by
  simp [TripsAt]

end

/-! ## The state and what came before -/

section

variable (b : CircuitBreaker)

structure Remembers (es : List (Event (EventLoop κ) (BreakerCall κ))) (s : EventLoop κ) : Prop where
  tripped : s.status.state = .opened → ∃ at_, s.status.openedAt = some at_ ∧
    Since (TripsAt b at_) (fun e => ∃ at_, TripsAt b at_ e) es
  nobody : s.status.state = .opened → ∀ who, ¬ AdmittedSinceTrip b who es
  trial : s.status.state = .halfOpen → ∃ who, TrialOut who es

structure TookTurns (es : List (Event (EventLoop κ) (BreakerCall κ))) (s : EventLoop κ) : Prop where
  closed : s.status.state = .closed → ∀ who, ¬ TrialOut who es
  single : s.status.state = .halfOpen → ∃ trial, (∀ who, TrialOut who es → who = trial) ∧
    ∀ who, AdmittedSinceTrip b who es → who = trial

variable {b} {es : List (Event (EventLoop κ) (BreakerCall κ))} {s s' : EventLoop κ}
  {a : BreakerCall κ}

theorem Remembers.start : Remembers b [] ({} : EventLoop κ) where
  tripped h := by cases h
  nobody h := by cases h
  trial h := by cases h

theorem TookTurns.start : TookTurns b [] ({} : EventLoop κ) where
  closed _ _ := since_nil
  single h := by cases h

variable [DecidableEq κ]

theorem Remembers.step (h : Remembers b es s) (hs : (eventLoop κ b).step s a = some s') :
    Remembers b (⟨s, a, s'⟩ :: es) s' := by
  rcases EventLoop.step_cases hs with ⟨who, now, status, rfl, hok, rfl⟩ |
    ⟨who, now, e, rfl, -, rfl⟩ | ⟨who, rfl, rfl⟩ | ⟨who, now, rfl, rfl⟩
  · -- let through: out of OPEN the trial begins, otherwise nothing changes
    rcases CircuitBreaker.beforeCall_ok.mp hok with ⟨hstate, rfl⟩ | ⟨hstate, -, rfl⟩
    · exact
        { tripped := fun hopen => absurd hopen hstate
          nobody := fun hopen => absurd hopen hstate
          trial := by
            intro hhalf
            obtain ⟨trial, htrial⟩ := h.trial hhalf
            exact ⟨trial, htrial.after reports_beforeCall⟩ }
    · exact
        { tripped := fun hopen => by cases hopen
          nobody := fun hopen => by cases hopen
          trial := fun _ => ⟨who, Since.here ⟨⟨now, rfl, by simp⟩, hstate⟩⟩ }
  · -- refused: nobody was let through
    exact
      { tripped := by
          intro hopen
          obtain ⟨at_, hat, hsince⟩ := h.tripped hopen
          exact ⟨at_, hat, hsince.after (by simp)⟩
        nobody := by
          intro hopen other hsince
          refine h.nobody hopen other (hsince.before ?_)
          rw [admits_beforeCall]
          intro hadmitted
          obtain ⟨rfl, hpost⟩ := hadmitted
          simp at hpost
        trial := by
          intro hhalf
          obtain ⟨trial, htrial⟩ := h.trial hhalf
          exact ⟨trial, htrial.after reports_beforeCall⟩ }
  · -- a success closes the breaker
    exact
      { tripped := fun hopen => by cases hopen
        nobody := fun hopen => by cases hopen
        trial := fun hhalf => by cases hhalf }
  · by_cases htrips : b.Trips s.status
    · -- the trip is the event
      have hpost : b.recordFailure s.status now = _ := CircuitBreaker.recordFailure_trips htrips
      exact
        { tripped := by
            intro _
            refine ⟨now, ?_, Since.here ⟨who, rfl, htrips⟩⟩
            show (b.recordFailure s.status now).openedAt = some now
            rw [hpost]
          nobody := by
            intro _ other
            exact since_stopped admits_recordFailure ⟨now, who, rfl, htrips⟩
          trial := by
            intro hhalf
            change (b.recordFailure s.status now).state = .halfOpen at hhalf
            rw [hpost] at hhalf
            cases hhalf }
    · -- only counted, and not in HALF_OPEN
      have hpost : b.recordFailure s.status now = _ := CircuitBreaker.recordFailure_counts htrips
      have hstate : (b.recordFailure s.status now).state = s.status.state := by rw [hpost]
      have hat : (b.recordFailure s.status now).openedAt = s.status.openedAt := by rw [hpost]
      have hquiet : ¬ ∃ at_, TripsAt b at_ (⟨s, .recordFailure who now,
          { status := b.recordFailure s.status now
            callers := Function.update s.callers who .reported }⟩ :
          Event (EventLoop κ) (BreakerCall κ)) := by
        intro ht
        obtain ⟨at_, ht⟩ := ht
        exact htrips (trips_recordFailure at_ |>.mp ht).2
      exact
        { tripped := by
            intro hopen
            obtain ⟨at_, hsame, hsince⟩ := h.tripped (hstate.symm.trans hopen)
            exact ⟨at_, hat.trans hsame, hsince.after hquiet⟩
          nobody := by
            intro hopen other hsince
            exact h.nobody (hstate.symm.trans hopen) other (hsince.before admits_recordFailure)
          trial := fun hhalf => absurd (Or.inl (hstate.symm.trans hhalf)) htrips }

theorem TookTurns.step (h : TookTurns b es s) (hpast : Remembers b es s)
    (hs : (eventLoop κ b).step s a = some s') (hturn : InTurn b es ⟨s, a, s'⟩) :
    TookTurns b (⟨s, a, s'⟩ :: es) s' := by
  rcases EventLoop.step_cases hs with ⟨who, now, status, rfl, hok, rfl⟩ |
    ⟨who, now, e, rfl, -, rfl⟩ | ⟨who, rfl, rfl⟩ | ⟨who, now, rfl, rfl⟩
  · obtain ⟨hnothalf, hnobody⟩ := hturn.asks who now rfl
    rcases CircuitBreaker.beforeCall_ok.mp hok with ⟨hstate, rfl⟩ | ⟨hstate, hover, rfl⟩
    · exact
        { closed := by
            intro hclosed other hout
            exact h.closed hclosed other (hout.before (fun hstarts => hstate hstarts.2))
          single := fun hhalf => absurd hhalf hnothalf }
    · -- the new trial is the only one, and the only one let through since the trip
      have hwho : ∀ other, Admits other ⟨s, .beforeCall who now,
          { status := { s.status with state := .halfOpen }
            callers := Function.update s.callers who .admitted }⟩ → other = who :=
        fun other hadmitted => (admits_beforeCall.mp hadmitted).1.symm
      exact
        { closed := fun hclosed => by cases hclosed
          single := by
            intro _
            refine ⟨who, ?_, ?_⟩
            · intro other hout
              rcases since_cons.mp hout with hstarts | hout
              · exact hwho other hstarts.1
              · exact absurd hout.2 (hnobody hstate hover other)
            · intro other hsince
              rcases since_cons.mp hsince with hadmitted | hsince
              · exact hwho other hadmitted
              · exact absurd hsince.2 (hpast.nobody hstate other) }
  · -- refused: as before
    have hquiet : ∀ other, ¬ Admits other ⟨s, .beforeCall who now,
        { s with callers := Function.update s.callers who .refused }⟩ := by
      intro other hadmitted
      obtain ⟨rfl, hpost⟩ := admits_beforeCall.mp hadmitted
      simp at hpost
    exact
      { closed := fun hclosed other hout =>
          h.closed hclosed other (hout.before (fun hstarts => hquiet other hstarts.1))
        single := by
          intro hhalf
          obtain ⟨trial, hone, hlast⟩ := h.single hhalf
          exact ⟨trial, fun other hout =>
            hone other (hout.before (fun hstarts => hquiet other hstarts.1)),
            fun other hsince => hlast other (hsince.before (hquiet other))⟩ }
  · exact
      { closed := by
          intro _ other hout
          rcases since_cons.mp hout with hstarts | ⟨hother, hout⟩
          · exact admits_recordSuccess hstarts.1
          · rcases hturn.succeeds who rfl with hclosed | ⟨hhalf, hsince⟩
            · exact h.closed hclosed other hout
            · -- the success is the trial's, and the trial is the one that is out
              obtain ⟨trial, hone, hlast⟩ := h.single hhalf
              have hsame : who = other := (hlast who hsince).trans (hone other hout).symm
              exact hother (reports_recordSuccess.mpr hsame)
        single := fun hhalf => by cases hhalf }
  · by_cases htrips : b.Trips s.status
    · have hopen : (b.recordFailure s.status now).state = .opened := by
        rw [CircuitBreaker.recordFailure_trips htrips]
      exact
        { closed := fun hclosed => by cases hopen.symm.trans hclosed
          single := fun hhalf => by cases hopen.symm.trans hhalf }
    · have hstate : (b.recordFailure s.status now).state = s.status.state := by
        rw [CircuitBreaker.recordFailure_counts htrips]
      exact
        { closed := fun hclosed other hout => h.closed (hstate.symm.trans hclosed) other
            (hout.before (fun hstarts => admits_recordFailure hstarts.1))
          single := fun hhalf => absurd (Or.inl (hstate.symm.trans hhalf)) htrips }

theorem TookTurns.oneTrial (h : TookTurns b es s) (hpast : Remembers b es s)
    (hs : (eventLoop κ b).step s a = some s') (hturn : InTurn b es ⟨s, a, s'⟩) :
    OneTrial b es ⟨s, a, s'⟩ where
  alone := by
    intro who hadmits other
    obtain ⟨now, hact, hpost⟩ := hadmits
    obtain ⟨hnothalf, hnobody⟩ := hturn.asks who now hact
    rcases EventLoop.step_cases hs with ⟨asker, now', status, rfl, hok, rfl⟩ |
      ⟨asker, now', e, rfl, -, rfl⟩ | ⟨asker, rfl, rfl⟩ | ⟨asker, now', rfl, rfl⟩
    · injection hact with hwho hnow
      subst hnow
      rcases CircuitBreaker.beforeCall_ok.mp hok with ⟨hstate, -⟩ | ⟨hstate, hover, -⟩
      · -- neither OPEN nor HALF_OPEN
        cases hclosed : s.status.state with
        | closed => exact h.closed hclosed other
        | opened => exact absurd hclosed hstate
        | halfOpen => exact absurd hclosed hnothalf
      · exact hnobody hstate hover other
    · injection hact with hwho _
      subst hwho
      simp at hpost
    · cases hact
    · cases hact
  waits := by
    intro who now hact hopen hadmits
    obtain ⟨at_, hat, hsince⟩ := hpast.tripped hopen
    rcases EventLoop.step_cases hs with ⟨asker, now', status, rfl, hok, rfl⟩ |
      ⟨asker, now', e, rfl, -, rfl⟩ | ⟨asker, rfl, rfl⟩ | ⟨asker, now', rfl, rfl⟩
    · injection hact with hwho hnow
      subst hnow
      rcases CircuitBreaker.beforeCall_ok.mp hok with ⟨hstate, -⟩ | ⟨-, hover, -⟩
      · exact absurd hopen hstate
      · obtain ⟨at', hat', hlate⟩ := hover
        obtain rfl : at_ = at' := Option.some.inj (hat.symm.trans hat')
        exact hsince.mono (fun g hg => ⟨at_, hg, hlate⟩)
    · obtain ⟨hwho, hpost⟩ := admits_beforeCall.mp hadmits
      subst hwho
      simp at hpost
    · cases hact
    · cases hact
  late := by
    intro who hact hnotclosed
    rcases hturn.succeeds who hact with hclosed | hlate
    · exact absurd hclosed hnotclosed
    · exact hlate.2

theorem admits_of_ok {who : κ} {now : DateTime} {status : BreakerStatus}
    (hs : (eventLoop κ b).step s (.beforeCall who now) = some s')
    (hok : b.beforeCall s.status now = .ok status) : Admits who ⟨s, .beforeCall who now, s'⟩ := by
  rcases EventLoop.step_cases hs with ⟨asker, now', status', hact, -, rfl⟩ |
    ⟨asker, now', e, hact, herr, -⟩ | ⟨asker, hact, -⟩ | ⟨asker, now', hact, -⟩
  · injection hact with hwho _
    subst hwho
    exact admits_beforeCall.mpr ⟨rfl, by simp⟩
  · injection hact with _ hnow
    subst hnow
    rw [hok] at herr
    cases herr
  · cases hact
  · cases hact

theorem Remembers.inTurn (hpast : Remembers b es s)
    (hs : (eventLoop κ b).step s a = some s') (hone : OneTrial b es ⟨s, a, s'⟩) :
    InTurn b es ⟨s, a, s'⟩ where
  asks := by
    intro who now hact
    subst hact
    constructor
    · intro hhalf
      have hok : b.beforeCall s.status now = .ok s.status :=
        CircuitBreaker.beforeCall_halfOpen hhalf
      obtain ⟨trial, hout⟩ := hpast.trial hhalf
      exact hone.alone who (admits_of_ok hs hok) trial hout
    · intro hopen hover
      have hok : b.beforeCall s.status now = .ok { s.status with state := .halfOpen } :=
        CircuitBreaker.beforeCall_ok.mpr (Or.inr ⟨hopen, hover, rfl⟩)
      exact hone.alone who (admits_of_ok hs hok)
  succeeds := by
    intro who hact
    cases hstate : s.status.state with
    | closed => exact Or.inl rfl
    | opened =>
      have hlate : AdmittedSinceTrip b who es :=
        hone.late who hact (fun hclosed => by cases hstate.symm.trans hclosed)
      exact absurd hlate (hpast.nobody hstate who)
    | halfOpen =>
      exact Or.inr ⟨rfl, hone.late who hact (fun hclosed => by cases hstate.symm.trans hclosed)⟩

end

/-- **One trial at a time, when the callers take turns**: a run of any callers lets
    one trial through, waits for the timeout and is not closed by a late success,
    exactly when at every call the callers take turns around the trial. -/
theorem one_trial_iff [DecidableEq κ] {b : CircuitBreaker}
    {es : List (Event (EventLoop κ) (BreakerCall κ))} {s : EventLoop κ}
    (h : Exec (eventLoop κ b) es s) : Along (OneTrial b) es ↔ Along (InTurn b) es := by
  constructor
  · intro hone
    refine (h.along (I := Remembers b) ?_ ?_ hone).1
    · intro s hinit
      subst hinit
      exact Remembers.start
    · intro es s a s' hpast hs hone
      exact ⟨hpast.inTurn hs hone, hpast.step hs⟩
  · intro hturns
    refine (h.along (I := fun es s => Remembers b es s ∧ TookTurns b es s) ?_ ?_ hturns).1
    · intro s hinit
      subst hinit
      exact ⟨Remembers.start, TookTurns.start⟩
    · intro es s a s' hI hs hturn
      exact ⟨hI.2.oneTrial hI.1 hs hturn, hI.1.step hs, hI.2.step hI.1 hs hturn⟩

namespace Sample

def brittle : CircuitBreaker := { failureThreshold := 1 }

def tripped : EventLoop Nat :=
  (eventLoop Nat brittle).next ((eventLoop Nat brittle).next {} (.beforeCall 0 0))
    (.recordFailure 0 0)

def tried : EventLoop Nat := (eventLoop Nat brittle).next tripped (.beforeCall 1 30000000)

theorem tried_exec : ∃ es, Exec (eventLoop Nat brittle) es tried ∧ TrialOut 1 es := by
  have hstart : Exec (eventLoop Nat brittle) [] ({} : EventLoop Nat) := Exec.start rfl
  have hasked := hstart.next (.beforeCall 0 0) (by decide)
  have hfailed := hasked.next (.recordFailure 0 0) (by decide)
  have htried := hfailed.next (.beforeCall 1 30000000) (by decide)
  have hstarts : StartsTrial 1 ⟨tripped, .beforeCall 1 30000000, tried⟩ :=
    ⟨⟨30000000, rfl, by decide⟩, by decide⟩
  exact ⟨_, htried, Or.inl hstarts⟩

end Sample

/-- A third caller is let through before the trial has an outcome. -/
theorem one_trial_breaks :
    ∃ es s, Exec (eventLoop Nat Sample.brittle) es s ∧ ¬ Along (OneTrial Sample.brittle) es := by
  obtain ⟨es, hexec, hout⟩ := Sample.tried_exec
  have hasked := hexec.next (.beforeCall 2 30000001) (by decide)
  refine ⟨_, _, hasked, ?_⟩
  intro hone
  exact hone.1.alone 2 ⟨30000001, rfl, by decide⟩ 1 hout

/-- The first caller of all gets its one trial in turn. -/
theorem one_trial_iff_first :
    let e : Event (EventLoop Nat) (BreakerCall Nat) :=
      ⟨{}, .beforeCall 0 0, (eventLoop Nat Sample.brittle).next {} (.beforeCall 0 0)⟩
    Along (OneTrial Sample.brittle) [e] ↔ Along (InTurn Sample.brittle) [e] :=
  have hstart : Exec (eventLoop Nat Sample.brittle) [] ({} : EventLoop Nat) := Exec.start rfl
  one_trial_iff (hstart.next (.beforeCall 0 0) (by decide))

end DigitalWorker
