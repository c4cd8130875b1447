import DigitalWorker.Framework.Machine
import DigitalWorker.Framework.RowLocks
import DigitalWorker.Framework.Sessions

/-! # Rows that are decided once

    A row is open until somebody decides it. A call reads the row, refuses one that is
    decided, and works on its copy; the update that writes the copy back is pinned to
    an open row, and the call does not look whether it matched one.
-/

namespace Framework

/-- A table of such rows. `prepare` is the copy a call makes of the row it read, or the
    error it raises; `write` puts the columns of a copy on a row, and `decision` reads
    them. -/
structure OnceTable (ρ κ ω δ ε : Type) where
  key : ρ → κ
  isOpen : ρ → Bool
  target : ω → κ
  prepare : ω → ρ → Except ε ρ
  write : ρ → ρ → ρ
  decision : ρ → δ
  prepare_key : ∀ {op r x}, prepare op r = .ok x → key x = key r
  write_key : ∀ x r, key (write x r) = key r
  write_open : ∀ {op r x}, prepare op r = .ok x → ∀ r', isOpen (write x r') = false
  write_decision : ∀ x r, decision (write x r) = decision x

/-- Where a call is, with its copy; `matched` tells whether its update met a row. -/
inductive OncePhase (ρ : Type) where
  | prepared (x : ρ)
  | saved (x : ρ) (matched : Bool)
  | returned (x : ρ) (matched : Bool)
  | failed

structure OnceDesk (ρ : Type) where
  rows : List (LockedRow ρ)
  calls : Sessions (OncePhase ρ) := fun _ => none

inductive OnceAction (ω : Type) where
  /-- A call begins: it reads the row and checks it. -/
  | read (c : Nat) (op : ω)
  | save (c : Nat)
  | commit (c : Nat)
  /-- The call fails, and its transaction is rolled back. -/
  | fail (c : Nat)

namespace OnceTable

variable {ρ κ ω δ ε : Type} [DecidableEq κ] (T : OnceTable ρ κ ω δ ε)

def save (s : OnceDesk ρ) (c : Nat) (x : ρ) : Updated ρ :=
  LockedRow.update T.key c (T.key x) T.isOpen (T.write x) s.rows

def step (s : OnceDesk ρ) : OnceAction ω → Option (OnceDesk ρ)
  | .read c op =>
    match s.calls c, s.rows.find? (fun r => T.key r.committed == T.target op) with
    | none, some r =>
      match T.prepare op r.committed with
      | .ok x => some { s with calls := s.calls.put c (.prepared x) }
      | .error _ => none
    | _, _ => none
  | .save c =>
    match s.calls c with
    | some (.prepared x) =>
      match T.save s c x with
      | .waits => none
      | .missed => some { s with calls := s.calls.put c (.saved x false) }
      | .updated rows => some { rows := rows, calls := s.calls.put c (.saved x true) }
    | _ => none
  | .commit c =>
    match s.calls c with
    | some (.saved x matched) =>
      some { rows := s.rows.map (LockedRow.commit c)
             calls := s.calls.put c (.returned x matched) }
    | _ => none
  | .fail c =>
    match s.calls c with
    | some (.prepared _) | some (.saved _ _) =>
      some { rows := s.rows.map (LockedRow.rollback c), calls := s.calls.put c .failed }
    | _ => none

def desk : Machine (OnceDesk ρ) (OnceAction ω) where
  init s := (s.rows.map (fun r => T.key r.committed)).Nodup ∧
    (∀ r ∈ s.rows, r.uncommitted = none) ∧ ∀ c, s.calls c = none
  step := T.step

/-! ## The property -/

def Once (s : OnceDesk ρ) : Prop :=
  ∀ c d x y, s.calls c = some (.returned x true) → s.calls d = some (.returned y true) →
    T.key x = T.key y → c = d

def Stored (s : OnceDesk ρ) (x : ρ) : Prop :=
  ∃ r ∈ s.rows, T.key r.committed = T.key x ∧ T.isOpen r.committed = false ∧
    T.decision r.committed = T.decision x

def Truthful (s : OnceDesk ρ) : Prop :=
  ∀ c x matched, s.calls c = some (.returned x matched) → T.Stored s x

/-- **The condition**: an update that does not wait meets an open row, or one that was
    decided the same way. -/
def FindsOpen (e : Event (OnceDesk ρ) (OnceAction ω)) : Prop :=
  ∀ c x, e.act = .save c → e.pre.calls c = some (.prepared x) →
    ∀ r ∈ e.pre.rows, T.key r.committed = T.key x →
      T.isOpen r.committed = true ∨ T.decision r.committed = T.decision x

/-! ## Every run -/

/-- What a call may rely on in its phase. The row of a call whose update matched was
    open, and stays so until the call ends; with `fair`, an update that missed met a row
    decided the same way. -/
def Holds (fair : Prop) (s : OnceDesk ρ) (c : Nat) : OncePhase ρ → Prop
  | .prepared x =>
    (∃ r ∈ s.rows, T.key r.committed = T.key x) ∧ ∀ r, T.isOpen (T.write x r) = false
  | .saved x true => ∃ r ∈ s.rows, T.key r.committed = T.key x ∧ T.isOpen r.committed = true ∧
      ∃ v, r.uncommitted = some (c, v) ∧ T.key v = T.key x ∧ T.isOpen v = false ∧
        T.decision v = T.decision x
  | .returned x true => T.Stored s x
  | .saved x false | .returned x false => fair → T.Stored s x
  | .failed => True

structure Consistent (fair : Prop) (s : OnceDesk ρ) : Prop where
  keys : (s.rows.map (fun r => T.key r.committed)).Nodup
  holds : ∀ c p, s.calls c = some p → T.Holds fair s c p
  /-- Only a call whose update matched keeps the row locked. -/
  locked : ∀ r ∈ s.rows, ∀ c v, r.uncommitted = some (c, v) →
    ∃ x, s.calls c = some (.saved x true) ∧ T.key x = T.key r.committed
  once : T.Once s

variable {T} {fair fair' : Prop} {s s' : OnceDesk ρ} {a : OnceAction ω} {x : ρ} {c : Nat}
  {r : LockedRow ρ} {f : LockedRow ρ → LockedRow ρ}

theorem step_cases (hs : T.step s a = some s') :
    (∃ c op x r, s.calls c = none ∧ r ∈ s.rows ∧ T.prepare op r.committed = .ok x ∧
      s' = { s with calls := s.calls.put c (.prepared x) }) ∨
    (∃ c x, a = .save c ∧ s.calls c = some (.prepared x) ∧ T.save s c x = .missed ∧
      s' = { s with calls := s.calls.put c (.saved x false) }) ∨
    (∃ c x rows, s.calls c = some (.prepared x) ∧ T.save s c x = .updated rows ∧
      s' = { rows := rows, calls := s.calls.put c (.saved x true) }) ∨
    (∃ c x m, s.calls c = some (.saved x m) ∧
      s' = { rows := s.rows.map (LockedRow.commit c), calls := s.calls.put c (.returned x m) }) ∨
    ∃ c, s' = { rows := s.rows.map (LockedRow.rollback c), calls := s.calls.put c .failed } := by
  cases a with
  | read c op =>
    simp only [step] at hs
    split at hs
    · next r hcall hr =>
      split at hs
      · next x hx =>
        exact .inl ⟨c, op, x, r, hcall, List.mem_of_find?_eq_some hr, hx, (Option.some.inj hs).symm⟩
      · cases hs
    · cases hs
  | save c =>
    simp only [step] at hs
    split at hs
    · next x hcall =>
      split at hs
      · cases hs
      · next hmissed =>
        exact .inr (.inl ⟨c, x, rfl, hcall, hmissed, (Option.some.inj hs).symm⟩)
      · next rows hrows =>
        exact .inr (.inr (.inl ⟨c, x, rows, hcall, hrows, (Option.some.inj hs).symm⟩))
    · cases hs
  | commit c =>
    simp only [step] at hs
    split at hs
    · next x m hcall =>
      exact .inr (.inr (.inr (.inl ⟨c, x, m, hcall, (Option.some.inj hs).symm⟩)))
    · cases hs
  | fail c =>
    have hout : s' =
        { rows := s.rows.map (LockedRow.rollback c), calls := s.calls.put c .failed } := by
      simp only [step] at hs
      split at hs
      · exact (Option.some.inj hs).symm
      · exact (Option.some.inj hs).symm
      · cases hs
    exact .inr (.inr (.inr (.inr ⟨c, hout⟩)))

omit [DecidableEq κ] in
theorem Consistent.own (h : T.Consistent fair s) (hr : r ∈ s.rows) {v : ρ}
    (hv : r.uncommitted = some (c, v)) :
    ∃ x, s.calls c = some (.saved x true) ∧ T.key x = T.key r.committed ∧
      T.isOpen r.committed = true ∧ T.key v = T.key r.committed ∧ T.isOpen v = false ∧
      T.decision v = T.decision x := by
  obtain ⟨x, hcall, hkey⟩ := h.locked r hr c v hv
  obtain ⟨r₀, hr₀, hk₀, hopen, v₀, hv₀, hkv, hclosed, hdecision⟩ := h.holds c _ hcall
  obtain rfl : r₀ = r := Rows.eq_of_key h.keys hr₀ hr (hk₀.trans hkey)
  obtain rfl : v₀ = v := by
    rw [hv₀] at hv
    exact congrArg Prod.snd (Option.some.inj hv)
  exact ⟨x, hcall, hkey, hopen, hkv.trans hkey, hclosed, hdecision⟩

omit [DecidableEq κ] in
theorem Stored.map (h : T.Stored s x) (hrows : s'.rows = s.rows.map f)
    (hclosed : ∀ r ∈ s.rows, T.isOpen r.committed = false → (f r).committed = r.committed) :
    T.Stored s' x := by
  obtain ⟨r, hr, hkey, hshut, hdecision⟩ := h
  refine ⟨f r, hrows ▸ List.mem_map_of_mem hr, ?_⟩
  rw [hclosed r hr hshut]
  exact ⟨hkey, hshut, hdecision⟩

omit [DecidableEq κ] in
/-- **Move**: a call goes to a phase, and its step changes no key, no decided row and no
    row that another call has locked. -/
theorem Consistent.move (h : T.Consistent fair s) (f : LockedRow ρ → LockedRow ρ) (c : Nat)
    (p : OncePhase ρ) (hfair : fair' → fair)
    (hkey : ∀ r ∈ s.rows, T.key (f r).committed = T.key r.committed)
    (hclosed : ∀ r ∈ s.rows, T.isOpen r.committed = false → (f r).committed = r.committed)
    (hother : ∀ r ∈ s.rows, ∀ d v, d ≠ c → r.uncommitted = some (d, v) → f r = r)
    (hback : ∀ r ∈ s.rows, ∀ d v, (f r).uncommitted = some (d, v) →
      (d ≠ c ∧ r.uncommitted = some (d, v)) ∨
        (d = c ∧ ∃ x, p = .saved x true ∧ T.key x = T.key r.committed))
    (hp : T.Holds fair' { rows := s.rows.map f, calls := s.calls.put c p } c p)
    (honce : ∀ x, p = .returned x true → ∀ d y, s.calls d = some (.returned y true) →
      T.key y ≠ T.key x) :
    T.Consistent fair' { rows := s.rows.map f, calls := s.calls.put c p } := by
  have hstored : ∀ y, T.Stored s y →
      T.Stored { rows := s.rows.map f, calls := s.calls.put c p } y :=
    fun y hy => hy.map rfl hclosed
  refine ⟨?_, ?_, ?_, ?_⟩
  · rw [List.map_map]
    have hsame : s.rows.map ((fun r => T.key r.committed) ∘ f) =
        s.rows.map (fun r => T.key r.committed) := List.map_congr_left hkey
    rw [hsame]
    exact h.keys
  · intro d q hq
    rcases Sessions.put_some hq with ⟨rfl, rfl⟩ | ⟨hd, hq⟩
    · exact hp
    have hold := h.holds d q hq
    match q with
    | .prepared y =>
      obtain ⟨⟨r, hr, hk⟩, hwrite⟩ := hold
      exact ⟨⟨f r, List.mem_map_of_mem hr, (hkey r hr).trans hk⟩, hwrite⟩
    | .saved y true =>
      obtain ⟨r, hr, hk, hopen, v, hv, hrest⟩ := hold
      have hfr := hother r hr d v hd hv
      refine ⟨f r, List.mem_map_of_mem hr, ?_⟩
      rw [hfr]
      exact ⟨hk, hopen, v, hv, hrest⟩
    | .returned y true => exact hstored y hold
    | .saved y false => exact fun hf => hstored y (hold (hfair hf))
    | .returned y false => exact fun hf => hstored y (hold (hfair hf))
    | .failed => trivial
  · intro r' hr' d v hv
    obtain ⟨r, hr, rfl⟩ := List.mem_map.mp hr'
    rcases hback r hr d v hv with ⟨hd, hv⟩ | ⟨rfl, x, rfl, hk⟩
    · obtain ⟨x, hx, hk⟩ := h.locked r hr d v hv
      exact ⟨x, (Sessions.put_ne hd).trans hx, hk.trans (hkey r hr).symm⟩
    · exact ⟨x, Sessions.put_self _ _ _, hk.trans (hkey r hr).symm⟩
  · intro d e y z hy hz hk
    rcases Sessions.put_some hy with ⟨hd, hy⟩ | ⟨_, hy⟩ <;>
      rcases Sessions.put_some hz with ⟨he, hz⟩ | ⟨_, hz⟩
    · rw [hd, he]
    · exact absurd hk.symm (honce y hy.symm e z hz)
    · exact absurd hk (honce z hz.symm d y hy)
    · exact h.once d e y z hy hz hk

/-- **Step**: where the run was fair, and the step finds the row open. -/
theorem Consistent.step (h : T.Consistent fair s) (hs : T.step s a = some s')
    (hfair : fair' → fair) (hfinds : fair' → T.FindsOpen ⟨s, a, s'⟩) :
    T.Consistent fair' s' := by
  -- a call that has not written locks no row
  have hfree : ∀ c, (∀ x, s.calls c ≠ some (.saved x true)) → ∀ r ∈ s.rows, ∀ v,
      r.uncommitted ≠ some (c, v) := by
    intro c hc r hr v hv
    obtain ⟨x, hx, -⟩ := h.locked r hr c v hv
    exact hc x hx
  have hstay : ∀ c (p : OncePhase ρ), (∀ x, s.calls c ≠ some (.saved x true)) →
      ∀ r ∈ s.rows, ∀ d v, r.uncommitted = some (d, v) →
        (d ≠ c ∧ r.uncommitted = some (d, v)) ∨
          (d = c ∧ ∃ x, p = .saved x true ∧ T.key x = T.key r.committed) := by
    intro c p hc r hr d v hv
    left
    refine ⟨?_, hv⟩
    rintro rfl
    exact hfree d hc r hr v hv
  obtain ⟨c, op, x, r, hcall, hr, hx, rfl⟩ | ⟨c, x, rfl, hcall, hmissed, rfl⟩ |
    ⟨c, x, rows, hcall, hrows, rfl⟩ | ⟨c, x, m, hcall, rfl⟩ | ⟨c, rfl⟩ := step_cases hs
  · have hc : ∀ x, s.calls c ≠ some (.saved x true) := by simp [hcall]
    have hmove := h.move id c (.prepared x) hfair
      (fun _ _ => rfl) (fun _ _ _ => rfl) (fun _ _ _ _ _ _ => rfl) (hstay c _ hc)
      ⟨⟨r, by simpa using hr, (T.prepare_key hx).symm⟩, T.write_open hx⟩ (fun _ hx => by cases hx)
    rwa [List.map_id] at hmove
  · have hc : ∀ x, s.calls c ≠ some (.saved x true) := by simp [hcall]
    obtain ⟨⟨r, hr, hk⟩, -⟩ := h.holds c _ hcall
    obtain ⟨hblocks, hclosed⟩ := LockedRow.update_missed hmissed h.keys hr hk
    rw [(LockedRow.seen_of_free hblocks (hfree c hc r hr)).2] at hclosed
    have hmove := h.move id c (.saved x false) hfair
      (fun _ _ => rfl) (fun _ _ _ => rfl) (fun _ _ _ _ _ _ => rfl) (hstay c _ hc)
      (fun hf => ⟨r, by simpa using hr, hk, hclosed, by
        rcases hfinds hf c x rfl hcall r hr hk with hopen | hsame
        · simp [hclosed] at hopen
        · exact hsame⟩) (fun _ hx => by cases hx)
    rwa [List.map_id] at hmove
  · have hc : ∀ x, s.calls c ≠ some (.saved x true) := by simp [hcall]
    obtain ⟨-, hwrite⟩ := h.holds c _ hcall
    obtain ⟨r₀, hr₀, hk₀, hblocks, hopen, rfl⟩ := LockedRow.update_updated hrows
    obtain ⟨hnone, hseen⟩ := LockedRow.seen_of_free hblocks (hfree c hc r₀ hr₀)
    have hmine : ∀ r ∈ s.rows, T.key r.committed = T.key x → r = r₀ :=
      fun r hr hk => Rows.eq_of_key h.keys hr hr₀ (hk.trans hk₀.symm)
    refine h.move _ c (.saved x true) hfair ?_ ?_ ?_ ?_ ?_ (fun _ hx => by cases hx)
    · intro r _
      split <;> rfl
    · intro r _ _
      split <;> rfl
    · intro r hr d v _ hv
      rw [if_neg]
      intro hk
      rw [hmine r hr hk, hnone] at hv
      cases hv
    · intro r hr d v hv
      split at hv
      · next hk =>
        obtain ⟨rfl, -⟩ := Prod.mk.inj (Option.some.inj hv)
        exact .inr ⟨rfl, x, rfl, hk.symm⟩
      · exact hstay c _ hc r hr d v hv
    · refine ⟨_, List.mem_map_of_mem hr₀, ?_⟩
      rw [if_pos hk₀]
      rw [hseen] at hopen
      exact ⟨hk₀, hopen, _, rfl, (T.write_key _ _).trans ((congrArg T.key hseen).trans hk₀),
        hwrite _, T.write_decision _ _⟩
  · refine h.move _ c (.returned x m) hfair ?_ ?_ ?_ ?_ ?_ ?_
    · intro r hr
      by_cases hown : ∃ v, r.uncommitted = some (c, v)
      · obtain ⟨v, hv⟩ := hown
        obtain ⟨_, -, -, -, hkey, -⟩ := h.own hr hv
        rw [LockedRow.commit_own hv, hkey]
      · rw [LockedRow.commit_other (fun v hv => hown ⟨v, hv⟩)]
    · intro r hr hshut
      rw [LockedRow.commit_other]
      intro v hv
      obtain ⟨_, -, -, hopen, -⟩ := h.own hr hv
      rw [hopen] at hshut
      cases hshut
    · intro r _ d v hd hv
      apply LockedRow.commit_other
      intro u hu
      rw [hv] at hu
      exact hd (Prod.mk.inj (Option.some.inj hu)).1
    · intro r _ d v hv
      exact .inl (LockedRow.commit_uncommitted.mp hv).symm
    · have hold := h.holds c _ hcall
      cases m with
      | true =>
        obtain ⟨r, hr, hk, -, v, hv, hkv, hshut, hdecision⟩ := hold
        refine ⟨_, List.mem_map_of_mem hr, ?_⟩
        rw [LockedRow.commit_own hv]
        exact ⟨hkv, hshut, hdecision⟩
      | false =>
        intro hf
        refine (hold (hfair hf)).map rfl ?_
        intro r hr hshut
        rw [LockedRow.commit_other]
        intro v hv
        obtain ⟨_, -, -, hopen, -⟩ := h.own hr hv
        rw [hopen] at hshut
        cases hshut
    · rintro y ⟨rfl, rfl⟩ d z hz hk
      -- the row is locked by `c`, so it is open, and nobody has decided it
      obtain ⟨r, hr, hkr, hopen, -⟩ := h.holds c _ hcall
      obtain ⟨r', hr', hkr', hshut, -⟩ := h.holds d _ hz
      obtain rfl : r' = r := Rows.eq_of_key h.keys hr' hr (hkr'.trans (hk.trans hkr.symm))
      rw [hopen] at hshut
      cases hshut
  · refine h.move _ c .failed hfair ?_ ?_ ?_ ?_ trivial (fun _ hx => by cases hx)
    · intro r _
      rw [LockedRow.rollback_committed]
    · intro r _ _
      exact LockedRow.rollback_committed c r
    · intro r _ d v hd hv
      simp [LockedRow.rollback, hv, hd]
    · intro r _ d v hv
      exact .inl (LockedRow.rollback_uncommitted.mp hv).symm

theorem exec_consistent {es : List (Event (OnceDesk ρ) (OnceAction ω))} (h : Exec T.desk es s) :
    T.Consistent (∀ e ∈ es, T.FindsOpen e) s := by
  induction h with
  | start hinit =>
    obtain ⟨hkeys, hfree, hcalls⟩ := hinit
    refine ⟨hkeys, ?_, ?_, ?_⟩
    · simp [hcalls]
    · simp +contextual [hfree]
    · intro c d x y hc
      simp [hcalls] at hc
  | snoc _ hs ih =>
    exact ih.step hs (fun hall e he => hall e (List.mem_cons_of_mem _ he))
      (fun hall => hall _ List.mem_cons_self)

/-- **Once**: in every run, at most one call takes effect on a row; and in a run whose
    updates find the row open, every call that returned left its decision there. -/
theorem decided_once {es : List (Event (OnceDesk ρ) (OnceAction ω))} (h : Exec T.desk es s) :
    T.Once s ∧ ((∀ e ∈ es, T.FindsOpen e) → T.Truthful s) := by
  have hconsistent := exec_consistent h
  refine ⟨hconsistent.once, ?_⟩
  intro hfair c x m hcall
  have hholds := hconsistent.holds c _ hcall
  cases m with
  | true => exact hholds
  | false => exact hholds hfair

end OnceTable

end Framework
