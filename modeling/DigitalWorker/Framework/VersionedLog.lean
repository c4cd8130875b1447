import DigitalWorker.Framework.Machine
import Mathlib.Data.List.Perm.Subperm
import Mathlib.Data.List.Nodup

/-! # Versioned logs under concurrent transactions

    Rows carry a key and a version. A writer reads the rows it sees and plans the
    next row of a key; the row waits in the writer's transaction until that
    commits, and a commit is refused when a (key, version) pair is taken. What a
    writer reads is its own rows and the rows committed at some earlier moment,
    so the rules hold for every isolation level.
-/

namespace Framework

section

variable {ρ κ : Type} (key : ρ → κ) (version : ρ → Nat)

def Continues (rows : List ρ) (a : ρ) : Prop :=
  version a = 1 ∨ 1 < version a ∧ ∃ b ∈ rows, key b = key a ∧ version b + 1 = version a

/-- No version twice, and none without the one before it. -/
structure Dense (rows : List ρ) : Prop where
  unique : (rows.map (fun a => (key a, version a))).Nodup
  continues : ∀ a ∈ rows, Continues key version rows a

variable {key version}

theorem Continues.mono {rows rows' : List ρ} {a : ρ} (h : Continues key version rows a)
    (hsub : rows ⊆ rows') : Continues key version rows' a := by
  rcases h with hone | ⟨hlt, b, hb, hkey, hver⟩
  · exact .inl hone
  · exact .inr ⟨hlt, b, hsub hb, hkey, hver⟩

theorem Dense.append {rows new : List ρ} (h : Dense key version rows)
    (hunique : ((new ++ rows).map (fun a => (key a, version a))).Nodup)
    (hnew : ∀ a ∈ new, Continues key version (new ++ rows) a) :
    Dense key version (new ++ rows) := by
  refine ⟨hunique, ?_⟩
  intro a ha
  rcases List.mem_append.mp ha with ha | ha
  · exact hnew a ha
  · exact (h.continues a ha).mono (List.subset_append_right _ _)

theorem Dense.version_pos {rows : List ρ} (h : Dense key version rows) {a : ρ} (ha : a ∈ rows) :
    1 ≤ version a := by
  rcases h.continues a ha with hone | ⟨hlt, _⟩
  · omega
  · omega

theorem Dense.below {rows : List ρ} (h : Dense key version rows) {a : ρ} (ha : a ∈ rows) :
    ∀ v, 1 ≤ v → v ≤ version a → ∃ b ∈ rows, key b = key a ∧ version b = v := by
  intro v hv hle
  -- by induction on the distance from the row to the version asked for
  induction hd : version a - v generalizing a with
  | zero => exact ⟨a, ha, rfl, by omega⟩
  | succ d ih =>
    rcases h.continues a ha with hone | ⟨_, b, hb, hkey, hver⟩
    · omega
    · obtain ⟨c, hc, hckey, hcver⟩ := ih hb (by omega) (by omega)
      exact ⟨c, hc, hckey.trans hkey, hcver⟩

variable [DecidableEq κ]

def versionsOf (key : ρ → κ) (version : ρ → Nat) (rows : List ρ) (k : κ) : List Nat :=
  (rows.filter (fun a => key a = k)).map version

theorem mem_versionsOf {rows : List ρ} {k : κ} {v : Nat} :
    v ∈ versionsOf key version rows k ↔ ∃ a ∈ rows, key a = k ∧ version a = v := by
  unfold versionsOf
  simp [and_assoc]

namespace Dense

variable {rows : List ρ} (h : Dense key version rows)
include h

theorem versionsOf_nodup (k : κ) : (versionsOf key version rows k).Nodup := by
  have hsub : ((rows.filter (fun a => key a = k)).map (fun a => (key a, version a))).Nodup :=
    h.unique.sublist (List.filter_sublist.map _)
  refine List.Nodup.of_map (fun v => (k, v)) ?_
  have heq : (versionsOf key version rows k).map (fun v => (k, v)) =
      (rows.filter (fun a => key a = k)).map (fun a => (key a, version a)) := by
    unfold versionsOf
    rw [List.map_map]
    apply List.map_congr_left
    intro a ha
    have hk : key a = k := by simpa using (List.mem_filter.mp ha).2
    simp [hk]
  rw [heq]
  exact hsub

/-- **The versions of a key are 1 to n, each once.** -/
theorem versions_perm (k : κ) : (versionsOf key version rows k).Perm
    (List.range' 1 (versionsOf key version rows k).length) := by
  have hnodup := h.versionsOf_nodup k
  have hclosed : ∀ v ∈ versionsOf key version rows k, ∀ u, 1 ≤ u → u ≤ v →
      u ∈ versionsOf key version rows k := by
    intro v hv u hu hle
    obtain ⟨a, ha, hkey, rfl⟩ := mem_versionsOf.mp hv
    obtain ⟨b, hb, hbkey, hbver⟩ := h.below ha u hu hle
    exact mem_versionsOf.mpr ⟨b, hb, hbkey.trans hkey, hbver⟩
  rw [List.perm_ext_iff_of_nodup hnodup List.nodup_range']
  intro v
  rw [List.mem_range'_1]
  constructor
  · intro hv
    have hpos : 1 ≤ v := by
      obtain ⟨a, ha, _, rfl⟩ := mem_versionsOf.mp hv
      exact h.version_pos ha
    -- the versions up to `v` are all there, so there are at least `v` of them
    have hsub : List.range' 1 v ⊆ versionsOf key version rows k := by
      intro u hu
      rw [List.mem_range'_1] at hu
      exact hclosed v hv u hu.1 (by omega)
    have hrange : (List.range' 1 v).Nodup := List.nodup_range'
    have hlen := (hrange.subperm hsub).length_le
    rw [List.length_range'] at hlen
    omega
  · intro ⟨hpos, hle⟩
    by_contra hmiss
    -- without `v` every version is below it, so there are fewer than `v` of them
    have hsub : versionsOf key version rows k ⊆ List.range' 1 (v - 1) := by
      intro u hu
      rw [List.mem_range'_1]
      have hu1 : 1 ≤ u := by
        obtain ⟨a, ha, _, rfl⟩ := mem_versionsOf.mp hu
        exact h.version_pos ha
      have hlt : u < v := by
        by_contra hge
        exact hmiss (hclosed u hu v hpos (by omega))
      omega
    have hlen := (hnodup.subperm hsub).length_le
    rw [List.length_range'] at hlen
    omega

end Dense

end

/-- The committed rows, newest first, and the rows of the open transactions. -/
structure LogState (ρ : Type) where
  committed : List ρ
  pending : Nat → Option (List ρ)

def LogState.put {ρ : Type} (s : LogState ρ) (t : Nat) (rows : Option (List ρ)) : LogState ρ :=
  { s with pending := fun u => if u = t then rows else s.pending u }

inductive LogAction (ω : Type) where
  | begin (t : Nat)
  /-- A writer that does not see the newest `behind` committed rows. -/
  | write (t : Nat) (w : ω) (behind : Nat)
  | commit (t : Nat)
  | abort (t : Nat)

variable {ρ κ ω : Type} (key : ρ → κ) (version : ρ → Nat)

/-- What holds between the steps of the transactions. -/
structure LogInv (s : LogState ρ) : Prop where
  dense : Dense key version s.committed
  pending : ∀ t rows, s.pending t = some rows →
    ∀ a ∈ rows, Continues key version (rows ++ s.committed) a

variable {key version}

theorem LogInv.put {s : LogState ρ} (h : LogInv key version s) {t : Nat} {rows : Option (List ρ)}
    (hrows : ∀ r, rows = some r → ∀ a ∈ r, Continues key version (r ++ s.committed) a) :
    LogInv key version (s.put t rows) := by
  refine ⟨h.dense, ?_⟩
  intro u r hu a ha
  by_cases hut : u = t
  · simp only [LogState.put, hut, if_true] at hu
    exact hrows r hu a ha
  · simp only [LogState.put, hut, if_false] at hu
    exact h.pending u r hu a ha

theorem LogInv.grow {s : LogState ρ} (h : LogInv key version s) {new : List ρ}
    (hdense : Dense key version (new ++ s.committed)) :
    LogInv key version { s with committed := new ++ s.committed } := by
  refine ⟨hdense, ?_⟩
  intro u r hu a ha
  refine (h.pending u r hu a ha).mono ?_
  intro b hb
  simp only [List.mem_append] at hb ⊢
  rcases hb with hb | hb
  · exact .inl hb
  · exact .inr (.inr hb)

variable [DecidableEq κ] (key version) (plan : ω → List ρ → Option ρ) (start : List ρ → Prop)

def LogState.step (s : LogState ρ) : LogAction ω → Option (LogState ρ)
  | .begin t =>
    match s.pending t with
    | some _ => none
    | none => some (s.put t (some []))
  | .write t w behind =>
    match s.pending t with
    | none => none
    | some rows =>
      match plan w (rows ++ s.committed.drop behind) with
      | some a => some (s.put t (some (a :: rows)))
      | none => some s
  | .commit t =>
    match s.pending t with
    | none => none
    | some rows =>
      if ((rows ++ s.committed).map (fun a => (key a, version a))).Nodup then
        some ({ s with committed := rows ++ s.committed }.put t none)
      else some (s.put t none)
  | .abort t =>
    match s.pending t with
    | none => none
    | some _ => some (s.put t none)

def versionedLog : Machine (LogState ρ) (LogAction ω) where
  init s := start s.committed ∧ ∀ t, s.pending t = none
  step := LogState.step key version plan

variable {key version plan start}

/-- **Step lemma**: the invariant survives every step, if every plan continues
    the rows its writer saw. -/
theorem LogInv.step (hplan : ∀ w rows a, plan w rows = some a → Continues key version rows a)
    {s s' : LogState ρ} {act : LogAction ω} (h : LogInv key version s)
    (hs : s.step key version plan act = some s') : LogInv key version s' := by
  cases act with
  | begin t =>
    simp only [LogState.step] at hs
    split at hs
    · cases hs
    · obtain rfl := Option.some.inj hs
      refine h.put ?_
      intro r hr a ha
      obtain rfl := Option.some.inj hr
      cases ha
  | write t w behind =>
    simp only [LogState.step] at hs
    split at hs
    · cases hs
    · next rows hrows =>
      split at hs
      · next b hb =>
        obtain rfl := Option.some.inj hs
        refine h.put ?_
        intro r hr a ha
        obtain rfl := Option.some.inj hr
        have hgrow : rows ++ s.committed ⊆ b :: rows ++ s.committed :=
          List.subset_cons_of_subset _ (List.Subset.refl _)
        rcases List.mem_cons.mp ha with rfl | ha
        · -- the planned row continues what was seen, and nothing seen is gone
          refine (hplan w _ _ hb).mono ?_
          intro c hc
          rcases List.mem_append.mp hc with hc | hc
          · exact hgrow (List.mem_append_left _ hc)
          · exact hgrow (List.mem_append_right _ (List.mem_of_mem_drop hc))
        · exact (h.pending t rows hrows a ha).mono hgrow
      · obtain rfl := Option.some.inj hs
        exact h
  | commit t =>
    simp only [LogState.step] at hs
    split at hs
    · cases hs
    · next rows hrows =>
      split at hs
      · next hunique =>
        obtain rfl := Option.some.inj hs
        have hdense := h.dense.append hunique (h.pending t rows hrows)
        exact (h.grow hdense).put (fun r hr => absurd hr (by simp))
      · obtain rfl := Option.some.inj hs
        exact h.put (fun r hr => absurd hr (by simp))
  | abort t =>
    simp only [LogState.step] at hs
    split at hs
    · cases hs
    · obtain rfl := Option.some.inj hs
      exact h.put (fun r hr => absurd hr (by simp))

theorem Exec.dense (hstart : ∀ rows, start rows → Dense key version rows)
    (hplan : ∀ w rows a, plan w rows = some a → Continues key version rows a)
    {es : List (Event (LogState ρ) (LogAction ω))} {s : LogState ρ}
    (h : Exec (versionedLog key version plan start) es s) : Dense key version s.committed := by
  have hinv : LogInv key version s := by
    refine h.invariant ?_ (fun _ _ _ hinv hs => hinv.step hplan hs)
    intro s ⟨hrows, hnone⟩
    refine ⟨hstart _ hrows, ?_⟩
    intro t rows ht
    rw [hnone t] at ht
    cases ht
  exact hinv.dense

theorem LogState.step_suffix {s s' : LogState ρ} {act : LogAction ω}
    (hs : s.step key version plan act = some s') : s.committed <:+ s'.committed := by
  cases act with
  | begin t =>
    simp only [LogState.step] at hs
    split at hs
    · cases hs
    · obtain rfl := Option.some.inj hs
      exact List.suffix_refl s.committed
  | write t w behind =>
    simp only [LogState.step] at hs
    split at hs
    · cases hs
    · split at hs
      · obtain rfl := Option.some.inj hs
        exact List.suffix_refl s.committed
      · obtain rfl := Option.some.inj hs
        exact List.suffix_refl s.committed
  | commit t =>
    simp only [LogState.step] at hs
    split at hs
    · cases hs
    · next rows _ =>
      split at hs
      · obtain rfl := Option.some.inj hs
        exact List.suffix_append rows s.committed
      · obtain rfl := Option.some.inj hs
        exact List.suffix_refl s.committed
  | abort t =>
    simp only [LogState.step] at hs
    split at hs
    · cases hs
    · obtain rfl := Option.some.inj hs
      exact List.suffix_refl s.committed

/-- **A committed row stays as it is**: what was committed before an event of a
    run is still there, in place, at its end. -/
theorem Exec.committed_suffix {es : List (Event (LogState ρ) (LogAction ω))} {s : LogState ρ}
    (h : Exec (versionedLog key version plan start) es s) :
    ∀ e ∈ es, e.pre.committed <:+ s.committed := by
  induction h with
  | start _ =>
    intro e he
    cases he
  | snoc _ hs ih =>
    intro e he
    have hlast := LogState.step_suffix hs
    rcases List.mem_cons.mp he with rfl | he
    · exact hlast
    · exact (ih e he).trans hlast

/-! ### One transaction that nobody disturbs -/

def planned (plan : ω → List ρ → Option ρ) (rows : List ρ) (w : ω) : List ρ :=
  match plan w rows with
  | some a => a :: rows
  | none => rows

def transaction (t : Nat) (ws : List ω) : List (LogAction ω) :=
  .begin t :: (ws.map (fun w => .write t w 0) ++ [.commit t])

theorem LogState.put_self {s : LogState ρ} {t : Nat} {rows : Option (List ρ)}
    (h : s.pending t = rows) : s.put t rows = s := by
  have hsame : (fun u => if u = t then rows else s.pending u) = s.pending := by
    funext u
    by_cases hu : u = t
    · rw [if_pos hu, hu, h]
    · rw [if_neg hu]
  unfold LogState.put
  rw [hsame]

theorem LogState.put_put {s : LogState ρ} {t : Nat} {rows rows' : Option (List ρ)} :
    (s.put t rows).put t rows' = s.put t rows' := by
  unfold LogState.put
  congr 1
  funext u
  by_cases hu : u = t
  · rw [if_pos hu, if_pos hu]
  · rw [if_neg hu, if_neg hu]
    exact if_neg hu

theorem LogState.put_pending {s : LogState ρ} {t : Nat} {rows : Option (List ρ)} :
    (s.put t rows).pending t = rows := if_pos rfl

theorem run_writes {ws : List ω} {s : LogState ρ} {t : Nat} {rows : List ρ}
    {es : List (Event (LogState ρ) (LogAction ω))} (hrows : s.pending t = some rows) :
    ∃ es' new, (versionedLog key version plan start).run es s (ws.map (fun w => .write t w 0)) =
        some (es', s.put t (some new)) ∧
      new ++ s.committed = ws.foldl (planned plan) (rows ++ s.committed) := by
  induction ws generalizing s rows es with
  | nil => exact ⟨es, rows, by rw [LogState.put_self hrows]; rfl, rfl⟩
  | cons w ws ih =>
    have hstep : (versionedLog key version plan start).step s (.write t w 0) =
        match plan w (rows ++ s.committed) with
        | some a => some (s.put t (some (a :: rows)))
        | none => some s := by
      show LogState.step key version plan s (.write t w 0) = _
      simp only [LogState.step, hrows, List.drop_zero]
    simp only [List.map_cons, Machine.run, hstep, List.foldl_cons]
    cases hplan : plan w (rows ++ s.committed) with
    | none =>
      have hnext : planned plan (rows ++ s.committed) w = rows ++ s.committed := by
        rw [planned, hplan]
      rw [hnext]
      exact ih hrows
    | some a =>
      have hnext : planned plan (rows ++ s.committed) w = (a :: rows) ++ s.committed := by
        rw [planned, hplan]
        rfl
      obtain ⟨es', new, hrun, hnew⟩ := @ih (s.put t (some (a :: rows))) (a :: rows)
        (⟨s, .write t w 0, s.put t (some (a :: rows))⟩ :: es) LogState.put_pending
      rw [LogState.put_put] at hrun
      rw [hnext]
      exact ⟨es', new, hrun, hnew⟩

theorem run_transaction {ws : List ω} {s : LogState ρ} {t : Nat}
    {es₀ : List (Event (LogState ρ) (LogAction ω))} (hfree : s.pending t = none)
    (hunique : ((ws.foldl (planned plan) s.committed).map
      (fun a => (key a, version a))).Nodup) :
    ∃ es, (versionedLog key version plan start).run es₀ s (transaction t ws) =
      some (es, { s with committed := ws.foldl (planned plan) s.committed }) := by
  have hbegin : (versionedLog key version plan start).step s (.begin t) =
      some (s.put t (some [])) := by
    show LogState.step key version plan s (.begin t) = _
    simp only [LogState.step, hfree]
  obtain ⟨es, new, hwrites, hnew⟩ := @run_writes ρ κ ω key version _ plan start ws
    (s.put t (some [])) t [] (⟨s, .begin t, s.put t (some [])⟩ :: es₀) LogState.put_pending
  rw [LogState.put_put] at hwrites
  have hcommit : (versionedLog key version plan start).step (s.put t (some new)) (.commit t) =
      some { s with committed := ws.foldl (planned plan) s.committed } := by
    show LogState.step key version plan (s.put t (some new)) (.commit t) = _
    have hrows : new ++ s.committed = ws.foldl (planned plan) s.committed := hnew
    simp only [LogState.step, LogState.put_pending]
    rw [show (s.put t (some new)).committed = s.committed from rfl, hrows, if_pos hunique]
    refine congrArg some ?_
    show LogState.put { s with
      committed := ws.foldl (planned plan) s.committed
      pending := (s.put t (some new)).pending } t none = _
    have hsame : (fun u => if u = t then none else (s.put t (some new)).pending u) =
        s.pending := by
      funext u
      by_cases hu : u = t
      · rw [if_pos hu, hu, hfree]
      · rw [if_neg hu]
        exact if_neg hu
    unfold LogState.put at hsame ⊢
    rw [hsame]
  unfold transaction
  refine ⟨⟨s.put t (some new), .commit t,
    { s with committed := ws.foldl (planned plan) s.committed }⟩ :: es, ?_⟩
  simp only [Machine.run, hbegin]
  rw [Machine.run_append hwrites]
  simp only [Machine.run, hcommit]

end Framework
