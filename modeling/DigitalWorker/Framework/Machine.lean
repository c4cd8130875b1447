import Mathlib.Data.List.Basic
import Mathlib.Logic.Relation

/-! # Machines and their executions

    A machine has a set of initial states and a partial, deterministic
    transition function: `step s a` is the state after action `a`, or `none`
    when `a` is refused in `s`. Nondeterminism (which party acts next, what an
    external service answers) lives in the choice of the action.

    An execution carries its own history, newest event first, so that a
    property of a run can speak about what was done before and not only about
    the state it left behind. A condition on what came before
    is often of one form: some event is a hit, and no later one is a stop (`Since`).
-/

namespace Framework

section

/-- A machine over states `σ` and actions `α`. -/
structure Machine (σ α : Type) where
  /-- The states a run may start in. -/
  init : σ → Prop
  /-- The transition function; `none` refuses the action. -/
  step : σ → α → Option σ

/-- One transition taken in a run, with the states around it. -/
structure Event (σ α : Type) where
  pre : σ
  act : α
  post : σ

variable {σ α : Type} {M : Machine σ α}

/-- `Exec M es s`: the machine can reach `s` from an initial state by the
    events `es`, the latest of which is the head of the list. -/
inductive Exec (M : Machine σ α) : List (Event σ α) → σ → Prop where
  | start {s : σ} : M.init s → Exec M [] s
  | snoc {es : List (Event σ α)} {s s' : σ} {a : α} :
      Exec M es s → M.step s a = some s' → Exec M (⟨s, a, s'⟩ :: es) s'

def Reachable (M : Machine σ α) (s : σ) : Prop := ∃ es, Exec M es s

/-- The machine can come from `s` to `s'`. -/
def Machine.Leads (M : Machine σ α) : σ → σ → Prop :=
  Relation.ReflTransGen (fun s s' => ∃ a, M.step s a = some s')

theorem Machine.Leads.step {s s₁ s' : σ} {a : α} (hs : M.step s a = some s₁)
    (h : M.Leads s₁ s') : M.Leads s s' :=
  Relation.ReflTransGen.head ⟨a, hs⟩ h

theorem Machine.Leads.invariant {P : σ → Prop} (hstep : ∀ s a s', P s → M.step s a = some s' → P s')
    {s s' : σ} (h : M.Leads s s') (hP : P s) : P s' := by
  induction h with
  | refl => exact hP
  | tail _ hs ih =>
    obtain ⟨a, hs⟩ := hs
    exact hstep _ a _ ih hs

/-- **Conditional invariant**: a predicate that holds initially, and that every
    step meeting `ok` preserves, holds after every run whose events all meet
    `ok`. -/
theorem Exec.invariant_of {ok : Event σ α → Prop} {P : σ → Prop}
    (hinit : ∀ s, M.init s → P s)
    (hstep : ∀ s a s', P s → M.step s a = some s' → ok ⟨s, a, s'⟩ → P s')
    {es : List (Event σ α)} {s : σ} (h : Exec M es s) (hok : ∀ e ∈ es, ok e) :
    P s := by
  induction h with
  | start h0 => exact hinit _ h0
  | snoc h hs ih =>
    have hprev : P _ := ih (fun e he => hok e (List.mem_cons_of_mem _ he))
    exact hstep _ _ _ hprev hs (hok _ List.mem_cons_self)

/-- **Invariant**: the unconditional case. -/
theorem Exec.invariant {P : σ → Prop}
    (hinit : ∀ s, M.init s → P s)
    (hstep : ∀ s a s', P s → M.step s a = some s' → P s')
    {es : List (Event σ α)} {s : σ} (h : Exec M es s) : P s :=
  Exec.invariant_of hinit (fun s a s' hp hs (_ : True) => hstep s a s' hp hs) h
    (fun _ _ => trivial)

/-- **History invariant**: as `Exec.invariant`, for a predicate that may also
    mention the events so far. -/
theorem Exec.history_invariant {P : List (Event σ α) → σ → Prop}
    (hinit : ∀ s, M.init s → P [] s)
    (hstep : ∀ es s a s', Exec M es s → P es s → M.step s a = some s' →
      P (⟨s, a, s'⟩ :: es) s')
    {es : List (Event σ α)} {s : σ} (h : Exec M es s) : P es s := by
  induction h with
  | start h0 => exact hinit _ h0
  | snoc h hs ih => exact hstep _ _ _ _ h ih hs

/-! ## The events of a history -/

theorem Exec.split {es : List (Event σ α)} {s : σ} (h : Exec M es s)
    {e : Event σ α} (he : e ∈ es) :
    ∃ later earlier, es = later ++ e :: earlier ∧ Exec M earlier e.pre ∧
      M.step e.pre e.act = some e.post := by
  induction h with
  | start _ => cases he
  | @snoc es s s' a h hs ih =>
    rcases List.mem_cons.mp he with rfl | hmem
    · exact ⟨[], es, rfl, h, hs⟩
    · obtain ⟨later, earlier, rfl, hpre, hstep⟩ := ih hmem
      exact ⟨⟨s, a, s'⟩ :: later, earlier, rfl, hpre, hstep⟩

theorem Exec.upTo {later earlier : List (Event σ α)} {e : Event σ α} {s : σ}
    (h : Exec M (later ++ e :: earlier) s) :
    Exec M earlier e.pre ∧ Exec M (e :: earlier) e.post ∧ M.step e.pre e.act = some e.post := by
  induction later generalizing s with
  | nil =>
    cases h with
    | snoc hexec hs => exact ⟨hexec, .snoc hexec hs, hs⟩
  | cons e' later ih =>
    cases h with
    | snoc hexec _ => exact ih hexec

/-- **Entry**: what holds at the end of a run and not at its beginning came with one
    step, and has held since. -/
theorem Exec.entered {P : σ → Prop} (hinit : ∀ s, M.init s → ¬ P s) {es : List (Event σ α)}
    {s : σ} (h : Exec M es s) (hP : P s) :
    ∃ later e earlier, es = later ++ e :: earlier ∧ ¬ P e.pre ∧ P e.post ∧
      (∀ e' ∈ later, P e'.post) ∧ Exec M earlier e.pre ∧ M.step e.pre e.act = some e.post := by
  induction h with
  | start h0 => exact absurd hP (hinit _ h0)
  | @snoc es s s' a h hs ih =>
    by_cases hpre : P s
    · obtain ⟨later, e, earlier, rfl, hbefore, hafter, hsince, hexec, hstep⟩ := ih hpre
      refine ⟨⟨s, a, s'⟩ :: later, e, earlier, rfl, hbefore, hafter, ?_, hexec, hstep⟩
      intro e' he'
      rcases List.mem_cons.mp he' with rfl | he'
      · exact hP
      · exact hsince e' he'
    · exact ⟨[], ⟨s, a, s'⟩, es, rfl, hpre, hP, by simp, h, hs⟩

/-- **Since**: what only some events write is, after a stretch without them, what
    it was at its beginning. -/
theorem Exec.unchanged_since {β : Type} {f : σ → β} {writes : Event σ α → Bool}
    (hkeep : ∀ s a s', M.step s a = some s' → writes ⟨s, a, s'⟩ = false → f s' = f s)
    {later earlier : List (Event σ α)} {g : Event σ α} {s : σ}
    (h : Exec M (later ++ g :: earlier) s) (hlater : ∀ e ∈ later, writes e = false) :
    f s = f g.post := by
  induction later generalizing s with
  | nil => cases h with | snoc _ _ => rfl
  | cons e later ih =>
    cases h with
    | snoc h hs =>
      have hquiet := hlater _ List.mem_cons_self
      rw [hkeep _ _ _ hs hquiet]
      exact ih h (fun e he => hlater e (List.mem_cons_of_mem _ he))

theorem Exec.pre_of {ok : Event σ α → Prop} {P : σ → Prop}
    (hinit : ∀ s, M.init s → P s)
    (hstep : ∀ s a s', P s → M.step s a = some s' → ok ⟨s, a, s'⟩ → P s')
    {es : List (Event σ α)} {s : σ} (h : Exec M es s) (hok : ∀ e ∈ es, ok e) :
    ∀ e ∈ es, P e.pre ∧ M.step e.pre e.act = some e.post := by
  intro e he
  obtain ⟨later, earlier, rfl, hpre, hs⟩ := h.split he
  have hearlier : ∀ e' ∈ earlier, ok e' := fun e' he' =>
    hok e' (List.mem_append_right _ (List.mem_cons_of_mem _ he'))
  exact ⟨hpre.invariant_of hinit hstep hearlier, hs⟩

theorem Exec.pre_invariant {P : σ → Prop}
    (hinit : ∀ s, M.init s → P s)
    (hstep : ∀ s a s', P s → M.step s a = some s' → P s')
    {es : List (Event σ α)} {s : σ} (h : Exec M es s) :
    ∀ e ∈ es, P e.pre ∧ M.step e.pre e.act = some e.post :=
  Exec.pre_of hinit (fun s a s' hp hs (_ : True) => hstep s a s' hp hs) h
    (fun _ _ => trivial)

/-! ## Conditions on a history -/

def Along (P : List (Event σ α) → Event σ α → Prop) : List (Event σ α) → Prop
  | [] => True
  | e :: es => P es e ∧ Along P es

theorem Along.split {P : List (Event σ α) → Event σ α → Prop} {later earlier : List (Event σ α)}
    {e : Event σ α} (h : Along P (later ++ e :: earlier)) : P earlier e ∧ Along P earlier := by
  induction later with
  | nil => exact h
  | cons x later ih => exact ih h.2

theorem Along.of_mem {P : List (Event σ α) → Event σ α → Prop} {es : List (Event σ α)}
    {e : Event σ α} (h : Along P es) (he : e ∈ es) : ∃ earlier, P earlier e := by
  obtain ⟨later, earlier, rfl⟩ := List.append_of_mem he
  exact ⟨earlier, h.split.1⟩

theorem Along.mono {P Q : List (Event σ α) → Event σ α → Prop} (hPQ : ∀ es e, P es e → Q es e)
    {es : List (Event σ α)} (h : Along P es) : Along Q es := by
  induction es with
  | nil => trivial
  | cons e es ih => exact ⟨hPQ es e h.1, ih h.2⟩

instance {P : List (Event σ α) → Event σ α → Prop} [∀ es e, Decidable (P es e)] :
    (es : List (Event σ α)) → Decidable (Along P es)
  | [] => .isTrue trivial
  | e :: es =>
    have : Decidable (Along P es) := instDecidableAlong es
    inferInstanceAs (Decidable (P es e ∧ Along P es))

/-- **History rule**: in a run whose events all meet `C` after the events before
    them, an invariant that carries the step to `P` gives `P` all along. -/
theorem Exec.along {C P : List (Event σ α) → Event σ α → Prop}
    {I : List (Event σ α) → σ → Prop} (hinit : ∀ s, M.init s → I [] s)
    (hstep : ∀ es s a s', I es s → M.step s a = some s' → C es ⟨s, a, s'⟩ →
      P es ⟨s, a, s'⟩ ∧ I (⟨s, a, s'⟩ :: es) s')
    {es : List (Event σ α)} {s : σ} (h : Exec M es s) (hC : Along C es) :
    Along P es ∧ I es s := by
  induction h with
  | start h0 => exact ⟨trivial, hinit _ h0⟩
  | snoc _ hs ih =>
    obtain ⟨halong, hinv⟩ := ih hC.2
    obtain ⟨hP, hI⟩ := hstep _ _ _ _ hinv hs hC.1
    exact ⟨⟨hP, halong⟩, hI⟩

/-! ## Running a machine on a list of actions -/

/-- The history and final state of the actions `as`, oldest first, taken from
    `s` on top of the history `es`; `none` if one of them is refused. -/
def Machine.run (M : Machine σ α) (es : List (Event σ α)) (s : σ) :
    List α → Option (List (Event σ α) × σ)
  | [] => some (es, s)
  | a :: as =>
    match M.step s a with
    | none => none
    | some s' => Machine.run M (⟨s, a, s'⟩ :: es) s' as

theorem Machine.run_append {as bs : List α} {es es' : List (Event σ α)} {s s' : σ}
    (h : M.run es s as = some (es', s')) : M.run es s (as ++ bs) = M.run es' s' bs := by
  induction as generalizing es s with
  | nil =>
    simp only [Machine.run, Option.some.injEq, Prod.mk.injEq] at h
    obtain ⟨rfl, rfl⟩ := h
    rfl
  | cons a as ih =>
    simp only [Machine.run] at h
    simp only [List.cons_append, Machine.run]
    split at h
    · cases h
    · exact ih h

/-- What `run` computes is an execution. -/
theorem Machine.run_exec {as : List α} {es es' : List (Event σ α)} {s s' : σ}
    (h : Exec M es s) (hrun : M.run es s as = some (es', s')) : Exec M es' s' := by
  induction as generalizing es s with
  | nil =>
    simp only [Machine.run, Option.some.injEq, Prod.mk.injEq] at hrun
    obtain ⟨rfl, rfl⟩ := hrun
    exact h
  | cons a as ih =>
    simp only [Machine.run] at hrun
    split at hrun
    · cases hrun
    · next s₁ hs => exact ih (h.snoc hs) hrun

def Machine.next (M : Machine σ α) (s : σ) (a : α) : σ := (M.step s a).getD s

theorem Exec.next {es : List (Event σ α)} {s : σ} (h : Exec M es s) (a : α)
    (hs : (M.step s a).isSome = true) : Exec M (⟨s, a, M.next s a⟩ :: es) (M.next s a) := by
  obtain ⟨s', hs'⟩ := Option.isSome_iff_exists.mp hs
  have hnext : M.next s a = s' := by
    unfold Machine.next
    rw [hs']
    rfl
  rw [hnext]
  exact h.snoc hs'

/-- Running a list of actions and testing the outcome, for executable
    sanity checks. -/
def Machine.runs (M : Machine σ α) (s : σ) (as : List α)
    (p : List (Event σ α) → σ → Bool) : Bool :=
  match M.run [] s as with
  | none => false
  | some (es, s') => p es s'

theorem Machine.exec_of_runs {s : σ} {as : List α} {p : List (Event σ α) → σ → Bool}
    (h0 : M.init s) (h : M.runs s as p = true) :
    ∃ es s', Exec M es s' ∧ p es s' = true := by
  unfold Machine.runs at h
  split at h
  · cases h
  · next es s' hrun => exact ⟨es, s', M.run_exec (.start h0) hrun, h⟩

theorem Machine.runs_mono {s : σ} {as : List α} {p q : List (Event σ α) → σ → Bool}
    (hpq : ∀ es s', p es s' = true → q es s' = true) (h : M.runs s as p = true) :
    M.runs s as q = true := by
  unfold Machine.runs at h ⊢
  split at h
  · cases h
  · exact hpq _ _ h

end

/-! ## Since -/

variable {ε : Type}

def Since (hit stop : ε → Prop) : List ε → Prop
  | [] => False
  | e :: es => hit e ∨ ¬ stop e ∧ Since hit stop es

variable {hit hit' stop : ε → Prop} {e : ε} {es : List ε}

@[simp] theorem since_nil : ¬ Since hit stop [] := fun h => h

theorem since_cons : Since hit stop (e :: es) ↔ hit e ∨ ¬ stop e ∧ Since hit stop es := Iff.rfl

theorem Since.here (h : hit e) : Since hit stop (e :: es) := Or.inl h

theorem Since.after (he : ¬ stop e) (h : Since hit stop es) : Since hit stop (e :: es) :=
  Or.inr ⟨he, h⟩

theorem since_stopped (hhit : ¬ hit e) (hstop : stop e) : ¬ Since hit stop (e :: es) := by
  intro h
  cases h with
  | inl h => exact hhit h
  | inr h => exact h.1 hstop

theorem Since.before (he : ¬ hit e) (h : Since hit stop (e :: es)) : Since hit stop es := by
  cases h with
  | inl h => exact absurd h he
  | inr h => exact h.2

theorem Since.mono (h : Since hit stop es) (himp : ∀ e, hit e → hit' e) : Since hit' stop es := by
  induction es with
  | nil => exact absurd h since_nil
  | cons e es ih =>
    cases h with
    | inl h => exact Since.here (himp e h)
    | inr h => exact Since.after h.1 (ih h.2)

def countSince (hit stop : ε → Bool) : List ε → Nat
  | [] => 0
  | e :: es => (if hit e then 1 else 0) + if stop e then 0 else countSince hit stop es

variable {hit stop : ε → Bool} {e : ε} {es : List ε}

theorem countSince_hit (hhit : hit e = true) (hstop : stop e = false) :
    countSince hit stop (e :: es) = countSince hit stop es + 1 := by
  simp [countSince, hhit, hstop, Nat.add_comm]

theorem countSince_pass (hhit : hit e = false) (hstop : stop e = false) :
    countSince hit stop (e :: es) = countSince hit stop es := by
  simp [countSince, hhit, hstop]

theorem countSince_stop (hstop : stop e = true) :
    countSince hit stop (e :: es) = if hit e then 1 else 0 := by
  simp [countSince, hstop]

end Framework
