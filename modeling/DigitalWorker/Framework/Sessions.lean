import Mathlib.Data.List.Basic
import Mathlib.Logic.Function.Basic

/-! # Sessions that hold a key

    Any number of sessions run side by side, each in a phase of its own, and a
    phase may hold a key. Whether two sessions can hold one key is not decided
    by the table: it is an invariant, and the rules below say what an update of
    one session does to it.
-/

namespace Framework

abbrev Sessions (φ : Type) := Nat → Option φ

namespace Sessions

variable {φ κ : Type}

/-- The table after session `c` moved to the phase `p`. -/
def put (t : Sessions φ) (c : Nat) (p : φ) : Sessions φ := Function.update t c (some p)

@[simp] theorem put_self (t : Sessions φ) (c : Nat) (p : φ) : t.put c p c = some p := by
  simp [put]

@[simp] theorem put_ne {t : Sessions φ} {c d : Nat} {p : φ} (h : d ≠ c) : t.put c p d = t d := by
  simp [put, h]

theorem put_some {t : Sessions φ} {c d : Nat} {p q : φ} (h : t.put c p d = some q) :
    (d = c ∧ q = p) ∨ (d ≠ c ∧ t d = some q) := by
  by_cases hd : d = c
  · subst hd
    rw [put_self] at h
    exact .inl ⟨rfl, (Option.some.inj h).symm⟩
  · rw [put_ne hd] at h
    exact .inr ⟨hd, h⟩

def Bounded (t : Sessions φ) : Prop := ∃ n, ∀ c, n ≤ c → t c = none

theorem bounded_empty {t : Sessions φ} (h : ∀ c, t c = none) : t.Bounded := ⟨0, fun c _ => h c⟩

theorem Bounded.put {t : Sessions φ} (h : t.Bounded) (c : Nat) (p : φ) : (t.put c p).Bounded := by
  obtain ⟨n, hn⟩ := h
  refine ⟨max n (c + 1), fun d hd => ?_⟩
  have hne : d ≠ c := by omega
  rw [put_ne hne]
  exact hn d (by omega)

variable (holds : φ → Option κ)

/-- Session `c` holds the key `k`. -/
def Holds (t : Sessions φ) (c : Nat) (k : κ) : Prop := ∃ p, t c = some p ∧ holds p = some k

/-- Nobody holds `k`. -/
def Free (t : Sessions φ) (k : κ) : Prop := ∀ c, ¬ t.Holds holds c k

def Exclusive (t : Sessions φ) : Prop :=
  ∀ c d k, t.Holds holds c k → t.Holds holds d k → c = d

variable {holds} {t : Sessions φ} {c : Nat} {p : φ} {k : κ}

theorem holds_put {d : Nat} : (t.put c p).Holds holds d k ↔
    (d = c ∧ holds p = some k) ∨ (d ≠ c ∧ t.Holds holds d k) := by
  by_cases hd : d = c
  · subst hd
    simp [Holds]
  · simp [Holds, hd]

theorem free_empty (h : ∀ c, t c = none) : t.Free holds k := by
  rintro c ⟨p, hp, _⟩
  rw [h c] at hp
  cases hp

theorem exclusive_empty (h : ∀ c, t c = none) : t.Exclusive holds :=
  fun c _ _ hc _ => absurd hc (free_empty h c)

/-- A key that is free after the update was held by nobody but `c`. -/
theorem Free.before (h : (t.put c p).Free holds k) {d : Nat} (hd : t.Holds holds d k) : d = c := by
  by_contra hne
  exact h d (holds_put.mpr (.inr ⟨hne, hd⟩))

/-- **Release**: a phase that holds no more than the one before it. -/
theorem Exclusive.release (h : t.Exclusive holds)
    (hp : ∀ k, holds p = some k → t.Holds holds c k) : (t.put c p).Exclusive holds := by
  -- whoever holds a key now held it before
  have hback : ∀ d k, (t.put c p).Holds holds d k → t.Holds holds d k := by
    intro d k hd
    rcases holds_put.mp hd with ⟨rfl, hk⟩ | ⟨_, hd⟩
    · exact hp k hk
    · exact hd
  intro d d' k hd hd'
  exact h d d' k (hback d k hd) (hback d' k hd')

/-- **Acquire**: a phase that holds a key nobody else has. -/
theorem Exclusive.acquire (h : t.Exclusive holds) (hp : holds p = some k)
    (hfree : t.Free holds k) : (t.put c p).Exclusive holds := by
  intro d d' j hd hd'
  rcases holds_put.mp hd with ⟨hdc, hj⟩ | ⟨_, hold⟩ <;>
    rcases holds_put.mp hd' with ⟨hdc', hj'⟩ | ⟨_, hold'⟩
  · rw [hdc, hdc']
  · rw [hp] at hj
    obtain rfl := Option.some.inj hj
    exact absurd hold' (hfree d')
  · rw [hp] at hj'
    obtain rfl := Option.some.inj hj'
    exact absurd hold (hfree d)
  · exact h d d' j hold hold'

end Sessions

end Framework
