import DigitalWorker.Framework.Machine
import Mathlib.Data.List.Perm.Basic
import Mathlib.Data.List.Nodup

/-! # Items that are announced and put on record later

    A machine announces items. Some go on record in the step that announces them;
    others wait under a key, to be put on record, or lost, by a later step. If every
    step makes one of these moves, the announced items are those on record, those that
    wait and those that were lost, each as often as it was announced; so the record is
    exact when nothing waits and nothing was lost, and only then.
-/

namespace Framework

structure Ledger (σ α κ ι : Type) where
  announces : Event σ α → Option ι
  waits : σ → κ → Option ι
  /-- What is on record. -/
  record : σ → List ι
  /-- Whether an event drops what waits. -/
  loses : Event σ α → Prop

namespace Ledger

variable {σ α κ ι : Type} {M : Machine σ α} {L : Ledger σ α κ ι} {e : Event σ α}
  {es : List (Event σ α)} {s : σ}

def Exact (L : Ledger σ α κ ι) (es : List (Event σ α)) (s : σ) : Prop :=
  (es.filterMap L.announces).Perm (L.record s)

structure Changes (L : Ledger σ α κ ι) (e : Event σ α) (k : κ) (before after : Option ι) :
    Prop where
  before : L.waits e.pre k = before
  after : L.waits e.post k = after
  others : ∀ k', k' ≠ k → L.waits e.post k' = L.waits e.pre k'

inductive Moves (L : Ledger σ α κ ι) (e : Event σ α) : Prop
  | idle : L.announces e = none → (∀ k, L.waits e.post k = L.waits e.pre k) →
      L.record e.post = L.record e.pre → ¬ L.loses e → Moves L e
  | records {x : ι} : L.announces e = some x → (∀ k, L.waits e.post k = L.waits e.pre k) →
      L.record e.post = x :: L.record e.pre → ¬ L.loses e → Moves L e
  | defers {k : κ} {x : ι} : L.announces e = some x → L.Changes e k none (some x) →
      L.record e.post = L.record e.pre → ¬ L.loses e → Moves L e
  | settles {k : κ} {x : ι} : L.announces e = none → L.Changes e k (some x) none →
      L.record e.post = x :: L.record e.pre → ¬ L.loses e → Moves L e
  | drops {k : κ} {x : ι} : L.announces e = none → L.Changes e k (some x) none →
      L.record e.post = L.record e.pre → L.loses e → Moves L e

structure Balance (L : Ledger σ α κ ι) (es : List (Event σ α)) (s : σ) (waiting : List (κ × ι))
    (lost : List ι) : Prop where
  total : (es.filterMap L.announces).Perm (waiting.map (·.2) ++ (lost ++ L.record s))
  mem : ∀ k x, (k, x) ∈ waiting ↔ L.waits s k = some x
  once : waiting.Nodup
  lost : lost = [] ↔ ∀ e ∈ es, ¬ L.loses e

variable {waiting : List (κ × ι)} {lost : List ι}

theorem Changes.mem_cons {k : κ} {x : ι} (h : L.Changes e k none (some x))
    (hmem : ∀ k' y, (k', y) ∈ waiting ↔ L.waits e.pre k' = some y)
    (k' : κ) (y : ι) : (k', y) ∈ (k, x) :: waiting ↔ L.waits e.post k' = some y := by
  rw [List.mem_cons, hmem]
  by_cases hk : k' = k
  · subst hk
    rw [h.after, h.before]
    simp [eq_comm]
  · rw [h.others k' hk]
    simp [hk]

theorem lost_cons_of_keeps (h : lost = [] ↔ ∀ e' ∈ es, ¬ L.loses e') (hkeeps : ¬ L.loses e) :
    lost = [] ↔ ∀ e' ∈ e :: es, ¬ L.loses e' := by
  rw [h, List.forall_mem_cons]
  exact (and_iff_right hkeeps).symm

variable [DecidableEq κ] [DecidableEq ι]

theorem Changes.mem_erase {k : κ} {x : ι} (h : L.Changes e k (some x) none)
    (hmem : ∀ k' y, (k', y) ∈ waiting ↔ L.waits e.pre k' = some y) (honce : waiting.Nodup)
    (k' : κ) (y : ι) : (k', y) ∈ waiting.erase (k, x) ↔ L.waits e.post k' = some y := by
  rw [honce.mem_erase_iff, hmem]
  by_cases hk : k' = k
  · subst hk
    rw [h.after, h.before]
    simp only [Option.some.injEq, reduceCtorEq, iff_false, not_and]
    intro hne heq
    exact hne (by rw [heq])
  · rw [h.others k' hk]
    have hne : (k', y) ≠ (k, x) := fun heq => hk (Prod.mk.inj heq).1
    exact and_iff_right hne

theorem perm_of_waits {k : κ} {x : ι} {rest : List ι}
    (hmem : ∀ k' y, (k', y) ∈ waiting ↔ L.waits s k' = some y) (hwaits : L.waits s k = some x) :
    (waiting.map (·.2) ++ rest).Perm (x :: ((waiting.erase (k, x)).map (·.2) ++ rest)) := by
  have hperm := List.perm_cons_erase ((hmem k x).mpr hwaits)
  exact (hperm.map (·.2)).append_right rest

theorem Balance.step (h : L.Balance es e.pre waiting lost) (hmove : L.Moves e) :
    ∃ waiting' lost', L.Balance (e :: es) e.post waiting' lost' := by
  obtain ⟨htotal, hmem, honce, hlost⟩ := h
  cases hmove with
  | idle hnone hwaits hrecord hkeeps =>
    refine ⟨waiting, lost, ?_, ?_, honce, lost_cons_of_keeps hlost hkeeps⟩
    · rw [List.filterMap_cons_none hnone, hrecord]
      exact htotal
    · intro k y
      rw [hwaits, hmem]
  | @records x hsome hwaits hrecord hkeeps =>
    refine ⟨waiting, lost, ?_, ?_, honce, lost_cons_of_keeps hlost hkeeps⟩
    · rw [List.filterMap_cons_some hsome, hrecord]
      rw [← List.append_assoc] at htotal ⊢
      exact (htotal.cons x).trans List.perm_middle.symm
    · intro k y
      rw [hwaits, hmem]
  | @defers k x hsome hchanges hrecord hkeeps =>
    refine ⟨(k, x) :: waiting, lost, ?_, hchanges.mem_cons hmem, ?_,
      lost_cons_of_keeps hlost hkeeps⟩
    · rw [List.filterMap_cons_some hsome, hrecord]
      exact htotal.cons x
    · rw [List.nodup_cons, hmem, hchanges.before]
      exact ⟨Option.some_ne_none x ∘ Eq.symm, honce⟩
  | @settles k x hnone hchanges hrecord hkeeps =>
    refine ⟨waiting.erase (k, x), lost, ?_, hchanges.mem_erase hmem honce, honce.erase _,
      lost_cons_of_keeps hlost hkeeps⟩
    rw [List.filterMap_cons_none hnone, hrecord]
    have hfront := htotal.trans (perm_of_waits hmem hchanges.before)
    rw [← List.append_assoc] at hfront ⊢
    exact hfront.trans List.perm_middle.symm
  | @drops k x hnone hchanges hrecord hloses =>
    refine ⟨waiting.erase (k, x), x :: lost, ?_, hchanges.mem_erase hmem honce, honce.erase _, ?_⟩
    · rw [List.filterMap_cons_none hnone, hrecord]
      have hfront := htotal.trans (perm_of_waits hmem hchanges.before)
      exact hfront.trans List.perm_middle.symm
    · constructor
      · intro heq
        cases heq
      · intro hnever
        exact absurd hloses (hnever e List.mem_cons_self)

theorem balanced (hinit : ∀ s, M.init s → L.record s = [] ∧ ∀ k, L.waits s k = none)
    (h : Exec M es s) (hmoves : ∀ e ∈ es, L.Moves e) :
    ∃ waiting lost, L.Balance es s waiting lost := by
  induction h with
  | start h0 =>
    obtain ⟨hrecord, hwaits⟩ := hinit _ h0
    refine ⟨[], [], ?_, ?_, List.nodup_nil, ?_⟩
    · rw [hrecord]
      exact List.Perm.refl _
    · intro k x
      rw [hwaits]
      simp
    · simp
  | @snoc es s s' a _ _ ih =>
    obtain ⟨waiting, lost, hbalance⟩ := ih (fun e he => hmoves e (List.mem_cons_of_mem _ he))
    have hmove := hmoves _ List.mem_cons_self
    exact hbalance.step hmove

/-- **Exactness**: the record is exact when nothing waits and nothing was lost, and
    only then. -/
theorem exact_iff (hinit : ∀ s, M.init s → L.record s = [] ∧ ∀ k, L.waits s k = none)
    (h : Exec M es s) (hmoves : ∀ e ∈ es, L.Moves e) :
    L.Exact es s ↔ (∀ k, L.waits s k = none) ∧ ∀ e ∈ es, ¬ L.loses e := by
  obtain ⟨waiting, lost, htotal, hmem, _, hlost⟩ := balanced hinit h hmoves
  have hidle : waiting = [] ↔ ∀ k, L.waits s k = none := by
    constructor
    · intro hnil k
      cases hwaits : L.waits s k with
      | none => rfl
      | some x =>
        have hin := (hmem k x).mpr hwaits
        rw [hnil] at hin
        cases hin
    · intro hnone
      rw [List.eq_nil_iff_forall_not_mem]
      intro entry hin
      have hwaits := (hmem entry.1 entry.2).mp hin
      rw [hnone] at hwaits
      cases hwaits
  rw [← hidle, ← hlost]
  constructor
  · intro hexact
    have hlength := (hexact.symm.trans htotal).length_eq
    simp only [List.length_append, List.length_map] at hlength
    have hwaiting : waiting.length = 0 := by omega
    have hlosses : lost.length = 0 := by omega
    exact ⟨List.length_eq_zero_iff.mp hwaiting, List.length_eq_zero_iff.mp hlosses⟩
  · rintro ⟨rfl, rfl⟩
    exact htotal

end Ledger

end Framework
