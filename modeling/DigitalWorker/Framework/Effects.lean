import DigitalWorker.Framework.Rows
import Mathlib.Data.List.Basic

/-! # Programs whose effects outlast an exception

    A program runs on a state and ends in a value or an exception; either way the
    state is what the program left behind. `Ends` says what holds in both cases.

    A transaction runs a program on a database and on the world outside of it. An
    exception and a rollback take back what was done to the database and nothing
    of what was done outside.
-/

namespace Framework

/-! ## Trying one after the other -/

section

variable {α β : Type}

def tryAll (verdict : α → Option β) : List α → List α × Option β
  | [] => ([], none)
  | a :: rest =>
    match verdict a with
    | some b => ([a], some b)
    | none => (a :: (tryAll verdict rest).1, (tryAll verdict rest).2)

variable {verdict : α → Option β} {a : α} {b : β} {pre rest xs : List α}

theorem tryAll_settled (h : verdict a = some b) : tryAll verdict (a :: rest) = ([a], some b) := by
  rw [tryAll, h]

theorem tryAll_unsettled (h : verdict a = none) :
    tryAll verdict (a :: rest) = (a :: (tryAll verdict rest).1, (tryAll verdict rest).2) := by
  rw [tryAll, h]

theorem tryAll_append (h : ∀ x ∈ pre, verdict x = none) :
    tryAll verdict (pre ++ rest) =
      (pre ++ (tryAll verdict rest).1, (tryAll verdict rest).2) := by
  induction pre with
  | nil => rfl
  | cons a pre ih =>
    have hrest := ih (fun x hx => h x (List.mem_cons_of_mem _ hx))
    rw [List.cons_append, tryAll_unsettled (h a List.mem_cons_self), hrest]
    rfl

theorem exists_first_verdict (verdict : α → Option β) (xs : List α) :
    (∃ pre a post b, xs = pre ++ a :: post ∧ (∀ x ∈ pre, verdict x = none) ∧
        verdict a = some b) ∨
      ∀ x ∈ xs, verdict x = none := by
  induction xs with
  | nil => exact .inr (fun x hx => absurd hx List.not_mem_nil)
  | cons a rest ih =>
    by_cases ha : verdict a = none
    · rcases ih with ⟨pre, c, post, b, rfl, hpre, hc⟩ | hnone
      · exact .inl ⟨a :: pre, c, post, b, rfl, List.forall_mem_cons.mpr ⟨ha, hpre⟩, hc⟩
      · exact .inr (List.forall_mem_cons.mpr ⟨ha, hnone⟩)
    · obtain ⟨b, hb⟩ := Option.ne_none_iff_exists'.mp ha
      exact .inl ⟨[], a, rest, b, rfl, fun x hx => absurd hx List.not_mem_nil, hb⟩

/-- **Trying in order**: up to the first verdict, or to the end. -/
theorem tryAll_cases (verdict : α → Option β) (xs : List α) :
    (∃ pre a post b, xs = pre ++ a :: post ∧ (∀ x ∈ pre, verdict x = none) ∧
        verdict a = some b ∧ tryAll verdict xs = (pre ++ [a], some b)) ∨
      ((∀ x ∈ xs, verdict x = none) ∧ tryAll verdict xs = (xs, none)) := by
  rcases exists_first_verdict verdict xs with ⟨pre, a, post, b, rfl, hpre, ha⟩ | hnone
  · refine .inl ⟨pre, a, post, b, rfl, hpre, ha, ?_⟩
    rw [tryAll_append hpre, tryAll_settled ha]
  · refine .inr ⟨hnone, ?_⟩
    have hall : tryAll verdict (xs ++ []) =
        (xs ++ (tryAll verdict []).1, (tryAll verdict []).2) := tryAll_append hnone
    rwa [List.append_nil, tryAll, List.append_nil] at hall

end

/-! ## Programs -/

variable {ε σ α β ι : Type}

/-- A program over states `σ` that may raise an `ε`. -/
abbrev Program (ε σ α : Type) := EStateM ε σ α

/-- `p` ends from `s` in a value with `Q` or in an exception with `E`. -/
def Ends (p : Program ε σ α) (s : σ) (Q : α → σ → Prop) (E : ε → σ → Prop) : Prop :=
  match p s with
  | .ok a s' => Q a s'
  | .error e s' => E e s'

section

variable {p : Program ε σ α} {f : α → Program ε σ β} {s : σ} {E : ε → σ → Prop}

theorem Ends.mono {Q Q' : α → σ → Prop} {E' : ε → σ → Prop} (h : Ends p s Q E)
    (hQ : ∀ a s', Q a s' → Q' a s') (hE : ∀ e s', E e s' → E' e s') : Ends p s Q' E' := by
  unfold Ends at h ⊢
  split at h
  · exact hQ _ _ h
  · exact hE _ _ h

theorem Ends.and {Q Q' : α → σ → Prop} {E' : ε → σ → Prop} (h : Ends p s Q E)
    (h' : Ends p s Q' E') :
    Ends p s (fun a s' => Q a s' ∧ Q' a s') (fun e s' => E e s' ∧ E' e s') := by
  unfold Ends at h h' ⊢
  split at h
  · next hp =>
    rw [hp] at h'
    exact ⟨h, h'⟩
  · next hp =>
    rw [hp] at h'
    exact ⟨h, h'⟩

@[simp] theorem ends_pure {a : α} {Q : α → σ → Prop} : Ends (pure a) s Q E ↔ Q a s := Iff.rfl

@[simp] theorem ends_throw {e : ε} {Q : α → σ → Prop} : Ends (throw e) s Q E ↔ E e s := Iff.rfl

@[simp] theorem ends_get {Q : σ → σ → Prop} : Ends get s Q E ↔ Q s s := Iff.rfl

@[simp] theorem ends_set {s' : σ} {Q : PUnit → σ → Prop} : Ends (set s') s Q E ↔ Q ⟨⟩ s' := Iff.rfl

@[simp] theorem ends_modify {g : σ → σ} {Q : PUnit → σ → Prop} :
    Ends (modify g) s Q E ↔ Q ⟨⟩ (g s) := Iff.rfl

@[simp] theorem ends_bind {Q : β → σ → Prop} :
    Ends (p >>= f) s Q E ↔ Ends p s (fun a s' => Ends (f a) s' Q E) E := by
  unfold Ends
  show (match EStateM.bind p f s with | .ok a s' => _ | .error e s' => _) ↔ _
  unfold EStateM.bind
  cases p s with
  | ok a s' => exact Iff.rfl
  | error e s' => exact Iff.rfl

theorem Ends.bind {Q : β → σ → Prop} (h : Ends p s (fun a s' => Ends (f a) s' Q E) E) :
    Ends (p >>= f) s Q E :=
  ends_bind.mpr h

end

def finalState (p : Program ε σ α) (s : σ) : σ :=
  match p s with
  | .ok _ s' => s'
  | .error _ s' => s'

theorem Ends.final {p : Program ε σ α} {s : σ} {P : σ → Prop}
    (h : Ends p s (fun _ s' => P s') (fun _ s' => P s')) : P (finalState p s) := by
  unfold Ends at h
  unfold finalState
  cases hp : p s with
  | ok a s' =>
    rw [hp] at h
    exact h
  | error e s' =>
    rw [hp] at h
    exact h

theorem Ends.of_final {p : Program ε σ α} {s : σ} {P : σ → Prop} (h : P (finalState p s)) :
    Ends p s (fun _ s' => P s') (fun _ s' => P s') := by
  unfold finalState at h
  unfold Ends
  cases hp : p s with
  | ok a s' =>
    rw [hp] at h
    exact h
  | error e s' =>
    rw [hp] at h
    exact h

def raise? : Option ε → Program ε σ Unit
  | some e => throw e
  | none => pure ()

/-- `if cond: raise e`. -/
def raiseWhen (cond : Bool) (e : ε) : Program ε σ Unit := if cond then throw e else pure ()

/-- The value of a computation that leaves the state alone, or its exception. -/
def fromExcept : Except ε α → Program ε σ α
  | .ok a => pure a
  | .error e => throw e

@[simp] theorem ends_raise? {o : Option ε} {s : σ} {Q : Unit → σ → Prop} {E : ε → σ → Prop} :
    Ends (raise? o) s Q E ↔ (o = none → Q () s) ∧ (∀ e, o = some e → E e s) := by
  cases o with
  | none => simp [raise?]
  | some e => simp [raise?]

@[simp] theorem ends_raiseWhen {cond : Bool} {e : ε} {s : σ} {Q : Unit → σ → Prop}
    {E : ε → σ → Prop} :
    Ends (raiseWhen cond e) s Q E ↔ (cond = false → Q () s) ∧ (cond = true → E e s) := by
  cases cond <;> simp [raiseWhen]

@[simp] theorem ends_fromExcept {x : Except ε α} {s : σ} {Q : α → σ → Prop} {E : ε → σ → Prop} :
    Ends (fromExcept x) s Q E ↔ (∀ a, x = .ok a → Q a s) ∧ (∀ e, x = .error e → E e s) := by
  cases x with
  | ok a => simp [fromExcept]
  | error e => simp [fromExcept]

/-- The loop over a list, with the position of each element, from position `k`. -/
def forEach (f : Nat → ι → Program ε σ β) : Nat → List ι → Program ε σ (List β)
  | _, [] => pure []
  | k, x :: xs => do
    let b ← f k x
    let rest ← forEach f (k + 1) xs
    return b :: rest

/-- **Loop**: an invariant of the position that every element carries on, or
    leaves by an exception with `E`. -/
theorem Ends.forEach {f : Nat → ι → Program ε σ β} {I : Nat → σ → Prop} {E : ε → σ → Prop}
    {xs : List ι} {k : Nat} {s : σ}
    (hstep : ∀ i x s, xs[i]? = some x → I (k + i) s →
      Ends (f (k + i) x) s (fun _ s' => I (k + i + 1) s') E)
    (h : I k s) : Ends (forEach f k xs) s (fun _ s' => I (k + xs.length) s') E := by
  induction xs generalizing k s with
  | nil => exact h
  | cons x xs ih =>
    have hfirst := hstep 0 x s rfl h
    refine Ends.bind (hfirst.mono (fun b s' hb => ?_) (fun _ _ he => he))
    refine Ends.bind ((ih (k := k + 1) ?_ hb).mono (fun rest s'' hrest => ?_) (fun _ _ he => he))
    · intro i y s hy hi
      have hshift : k + 1 + i = k + (i + 1) := by omega
      rw [hshift] at hi ⊢
      exact hstep (i + 1) y s hy hi
    · have hlength : k + 1 + xs.length = k + (x :: xs).length := by
        rw [List.length_cons]
        omega
      rw [hlength] at hrest
      exact hrest

/-- **Turns that raise by themselves**: the loop makes its turns up to the first that
    raises, and what they did to the state stays done. -/
theorem forEach_tried {f : Nat → ι → Program ε σ β} {verdict : ι → Option ε} {out : ι → β}
    {effect : σ → ι → σ}
    (hraise : ∀ k x s e, verdict x = some e → f k x s = .error e (effect s x))
    (hreturn : ∀ k x s, verdict x = none → f k x s = .ok (out x) (effect s x))
    {k : Nat} {xs : List ι} {s : σ} :
    forEach f k xs s =
      match (tryAll verdict xs).2 with
      | some e => .error e ((tryAll verdict xs).1.foldl effect s)
      | none => .ok (xs.map out) ((tryAll verdict xs).1.foldl effect s) := by
  induction xs generalizing k s with
  | nil => rfl
  | cons x xs ih =>
    show EStateM.bind (f k x) _ s = _
    unfold EStateM.bind
    cases hx : verdict x with
    | some e => rw [hraise k x s e hx, tryAll_settled hx, List.foldl_cons, List.foldl_nil]
    | none =>
      -- the turn returns, and the rest goes on from what it left
      rw [hreturn k x s hx, tryAll_unsettled hx, List.foldl_cons]
      show EStateM.bind (forEach f (k + 1) xs) _ (effect s x) = _
      unfold EStateM.bind
      rw [ih]
      cases (tryAll verdict xs).2 with
      | some e => rfl
      | none => rfl

/-! ## Transactions -/

variable {δ ω : Type}

def transact (p : Program ε (δ × ω) α) (ending : Ending) (lost : ε) : Program ε (δ × ω) α :=
  fun s =>
    match p s with
    | .error e s' => .error e (s.1, s'.2)
    | .ok a s' =>
      match ending with
      | .committed => .ok a s'
      | .rolledBack => .error lost (s.1, s'.2)
      | .unacknowledged => .error lost s'

/-- **Transaction**: what the program leaves outside stays; what it leaves in the
    database stays if it returns and is not rolled back. -/
theorem ends_transact {p : Program ε (δ × ω) α} {ending : Ending} {lost : ε} {s : δ × ω}
    {Q : α → δ × ω → Prop} {E : ε → δ × ω → Prop} :
    Ends (transact p ending lost) s Q E ↔
      Ends p s
        (fun a s' => (ending = .committed → Q a s') ∧ (ending = .rolledBack → E lost (s.1, s'.2)) ∧
          (ending = .unacknowledged → E lost s'))
        (fun e s' => E e (s.1, s'.2)) := by
  unfold Ends transact
  cases p s with
  | error e s' => exact Iff.rfl
  | ok a s' => cases ending <;> simp

end Framework
