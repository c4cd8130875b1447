import DigitalWorker.Framework.Machine
import Mathlib.Algebra.GroupWithZero.Nat

/-! # Optimistic locking

    A row is shared by sessions that do not lock it. A session loads the row as
    an object, changes the object, and writes it back with an update that is
    pinned to a version: the row has to be exactly one version behind the
    object. Some changes count the version of the object up, others do not.
-/

namespace Framework

/-- A table row, the object it is loaded as, and the changes of the object. `Key`
    stands for the columns that no update writes, `Valid` for what the
    constructor of the object checks. -/
structure VersionedTable (Row Obj Op Key : Type) where
  rowVersion : Row → Nat
  objVersion : Obj → Nat
  rowKey : Row → Key
  objKey : Obj → Key
  load : Row → Option Obj
  store : Row → Obj → Row
  apply : Op → Obj → Option Obj
  /-- By how much a change counts the version up. -/
  bump : Op → Nat
  Valid : Obj → Prop
  load_version : ∀ {r o}, load r = some o → objVersion o = rowVersion r
  load_key : ∀ {r o}, load r = some o → objKey o = rowKey r
  load_valid : ∀ {r o}, load r = some o → Valid o
  store_version : ∀ {r o}, rowVersion (store r o) = objVersion o
  store_key : ∀ {r o}, rowKey (store r o) = rowKey r
  apply_version : ∀ {op o o'}, apply op o = some o' → objVersion o' = objVersion o + bump op
  apply_key : ∀ {op o o'}, apply op o = some o' → objKey o' = objKey o
  apply_valid : ∀ {op o o'}, apply op o = some o' → Valid o → Valid o'
  /-- What is stored is loaded again. -/
  load_store : ∀ {r o}, objKey o = rowKey r → Valid o → load (store r o) = some o

structure Session (Row Obj Op : Type) where
  loaded : Row
  object : Obj
  changes : List Op

structure SharedRow (ι Row Obj Op : Type) where
  row : Row
  sessions : ι → Option (Session Row Obj Op)

inductive SessionAction (ι Op : Type) where
  | load (i : ι)
  | change (i : ι) (op : Op)
  | save (i : ι)
  | abandon (i : ι)
  deriving DecidableEq

variable {ι Row Obj Op Key : Type} [DecidableEq ι]

namespace SharedRow

def set (s : SharedRow ι Row Obj Op) (i : ι) (x : Option (Session Row Obj Op)) :
    SharedRow ι Row Obj Op :=
  { s with sessions := fun j => if j = i then x else s.sessions j }

@[simp] theorem set_row (s : SharedRow ι Row Obj Op) (i : ι) (x : Option (Session Row Obj Op)) :
    (s.set i x).row = s.row := rfl

@[simp] theorem set_self (s : SharedRow ι Row Obj Op) (i : ι) (x : Option (Session Row Obj Op)) :
    (s.set i x).sessions i = x := by
  simp [set]

theorem set_ne (s : SharedRow ι Row Obj Op) {i j : ι} (x : Option (Session Row Obj Op))
    (h : j ≠ i) : (s.set i x).sessions j = s.sessions j := by
  simp [set, h]

end SharedRow

namespace VersionedTable

variable (T : VersionedTable Row Obj Op Key)

def update (r : Row) (o : Obj) : Option Row :=
  if T.rowVersion r + 1 = T.objVersion o then some (T.store r o) else none

def step (s : SharedRow ι Row Obj Op) : SessionAction ι Op → Option (SharedRow ι Row Obj Op)
  | .load i => (T.load s.row).map (fun o => s.set i (some ⟨s.row, o, []⟩))
  | .change i op =>
    (s.sessions i).map (fun x =>
      s.set i ((T.apply op x.object).map (fun o => ⟨x.loaded, o, op :: x.changes⟩)))
  | .save i =>
    (s.sessions i).map (fun x =>
      match T.update s.row x.object with
      | some r => { s with row := r }.set i (some ⟨r, x.object, []⟩)
      | none => s.set i none)
  | .abandon i => some (s.set i none)

def machine (init : Row → Prop) : Machine (SharedRow ι Row Obj Op) (SessionAction ι Op) where
  init s := init s.row ∧ ∀ i, s.sessions i = none
  step := T.step

def replay : List Op → Obj → Option Obj
  | [], o => some o
  | op :: ops, o => (replay ops o).bind (T.apply op)

def bumps (ops : List Op) : Nat := (ops.map T.bump).sum

@[simp] theorem bumps_nil : T.bumps [] = 0 := rfl

@[simp] theorem bumps_cons (op : Op) (ops : List Op) :
    T.bumps (op :: ops) = T.bump op + T.bumps ops := rfl

variable {T}

theorem update_some {r r' : Row} {o : Obj} :
    T.update r o = some r' ↔ T.rowVersion r + 1 = T.objVersion o ∧ r' = T.store r o := by
  unfold update
  split
  · next h => simp [h, eq_comm]
  · next h => simp [h]

theorem update_none {r : Row} {o : Obj} :
    T.update r o = none ↔ T.rowVersion r + 1 ≠ T.objVersion o := by
  unfold update
  split
  · next h => simp [h]
  · next h => simp [h]

/-! ## What replayed changes keep -/

theorem replay_version {ops : List Op} {o o' : Obj} (h : T.replay ops o = some o') :
    T.objVersion o' = T.objVersion o + T.bumps ops := by
  induction ops generalizing o' with
  | nil =>
    obtain rfl := Option.some.inj h
    rfl
  | cons op ops ih =>
    obtain ⟨mid, hmid, hop⟩ := Option.bind_eq_some_iff.mp h
    have hversion := T.apply_version hop
    have hih := ih hmid
    rw [bumps_cons]
    omega

theorem replay_key {ops : List Op} {o o' : Obj} (h : T.replay ops o = some o') :
    T.objKey o' = T.objKey o := by
  induction ops generalizing o' with
  | nil =>
    obtain rfl := Option.some.inj h
    rfl
  | cons op ops ih =>
    obtain ⟨mid, hmid, hop⟩ := Option.bind_eq_some_iff.mp h
    rw [T.apply_key hop]
    exact ih hmid

theorem replay_valid {ops : List Op} {o o' : Obj} (h : T.replay ops o = some o')
    (hvalid : T.Valid o) : T.Valid o' := by
  induction ops generalizing o' with
  | nil =>
    obtain rfl := Option.some.inj h
    exact hvalid
  | cons op ops ih =>
    obtain ⟨mid, hmid, hop⟩ := Option.bind_eq_some_iff.mp h
    exact T.apply_valid hop (ih hmid)

/-! ## The invariant of the sessions -/

structure Sound (row : Row) (x : Session Row Obj Op) : Prop where
  replayed : ∃ o, T.load x.loaded = some o ∧ T.replay x.changes o = some x.object
  key : T.rowKey x.loaded = T.rowKey row
  behind : T.rowVersion x.loaded ≤ T.rowVersion row
  current : T.rowVersion x.loaded = T.rowVersion row → x.loaded = row

theorem Sound.version {row : Row} {x : Session Row Obj Op} (h : T.Sound row x) :
    T.objVersion x.object = T.rowVersion x.loaded + T.bumps x.changes := by
  obtain ⟨o, hload, hreplay⟩ := h.replayed
  rw [replay_version hreplay, T.load_version hload]

theorem Sound.objKey {row : Row} {x : Session Row Obj Op} (h : T.Sound row x) :
    T.objKey x.object = T.rowKey row := by
  obtain ⟨o, hload, hreplay⟩ := h.replayed
  rw [replay_key hreplay, T.load_key hload]
  exact h.key

theorem Sound.valid {row : Row} {x : Session Row Obj Op} (h : T.Sound row x) :
    T.Valid x.object := by
  obtain ⟨o, hload, hreplay⟩ := h.replayed
  exact replay_valid hreplay (T.load_valid hload)

theorem Sound.advance {row row' : Row} {x : Session Row Obj Op} (h : T.Sound row x)
    (hkey : T.rowKey row' = T.rowKey row) (hversion : T.rowVersion row < T.rowVersion row') :
    T.Sound row' x := by
  have hbehind := h.behind
  refine ⟨h.replayed, h.key.trans hkey.symm, by omega, ?_⟩
  intro heq
  omega

theorem Sound.fresh {row : Row} {o : Obj} (h : T.load row = some o) :
    T.Sound row ⟨row, o, []⟩ :=
  ⟨⟨o, h, rfl⟩, rfl, Nat.le_refl _, fun _ => rfl⟩

theorem Sound.change {row : Row} {x : Session Row Obj Op} {op : Op} {o : Obj}
    (h : T.Sound row x) (hop : T.apply op x.object = some o) :
    T.Sound row ⟨x.loaded, o, op :: x.changes⟩ := by
  obtain ⟨first, hload, hreplay⟩ := h.replayed
  refine ⟨⟨first, hload, ?_⟩, h.key, h.behind, h.current⟩
  show (T.replay x.changes first).bind (T.apply op) = some o
  rw [hreplay]
  exact hop

theorem Sound.update {row row' : Row} {x : Session Row Obj Op} (h : T.Sound row x)
    (hupdate : T.update row x.object = some row') :
    T.rowVersion row' = T.rowVersion row + 1 ∧ T.rowKey row' = T.rowKey row ∧
      T.load row' = some x.object := by
  obtain ⟨hversion, rfl⟩ := update_some.mp hupdate
  refine ⟨?_, T.store_key, T.load_store h.objKey h.valid⟩
  rw [T.store_version]
  exact hversion.symm

variable {init : Row → Prop} {es : List (Event (SharedRow ι Row Obj Op) (SessionAction ι Op))}
  {s s' : SharedRow ι Row Obj Op} {a : SessionAction ι Op}

theorem step_sound (hsound : ∀ i x, s.sessions i = some x → T.Sound s.row x)
    (hs : T.step s a = some s') : ∀ i x, s'.sessions i = some x → T.Sound s'.row x := by
  intro j y hy
  cases a with
  | load i =>
    obtain ⟨o, hload, rfl⟩ := Option.map_eq_some_iff.mp hs
    by_cases hji : j = i
    · subst hji
      rw [SharedRow.set_self] at hy
      obtain rfl := Option.some.inj hy
      exact .fresh hload
    · rw [SharedRow.set_ne _ _ hji] at hy
      exact hsound j y hy
  | change i op =>
    obtain ⟨x, hx, rfl⟩ := Option.map_eq_some_iff.mp hs
    by_cases hji : j = i
    · subst hji
      rw [SharedRow.set_self] at hy
      obtain ⟨o, hop, rfl⟩ := Option.map_eq_some_iff.mp hy
      exact (hsound j x hx).change hop
    · rw [SharedRow.set_ne _ _ hji] at hy
      exact hsound j y hy
  | save i =>
    obtain ⟨x, hx, rfl⟩ := Option.map_eq_some_iff.mp hs
    cases hupdate : T.update s.row x.object with
    | none =>
      rw [hupdate] at hy
      by_cases hji : j = i
      · subst hji
        simp at hy
      · rw [SharedRow.set_ne _ _ hji] at hy
        exact hsound j y hy
    | some r =>
      rw [hupdate] at hy
      obtain ⟨hversion, hkey, hload⟩ := (hsound i x hx).update hupdate
      have hlater : T.rowVersion s.row < T.rowVersion r := by omega
      by_cases hji : j = i
      · subst hji
        rw [SharedRow.set_self] at hy
        obtain rfl := Option.some.inj hy
        exact .fresh hload
      · rw [SharedRow.set_ne _ _ hji] at hy
        exact (hsound j y hy).advance hkey hlater
  | abandon i =>
    obtain rfl := Option.some.inj hs
    by_cases hji : j = i
    · subst hji
      simp at hy
    · rw [SharedRow.set_ne _ _ hji] at hy
      exact hsound j y hy

/-- **Run lemma**: in every state a run reaches, every session is sound. -/
theorem session_sound (hrun : Exec (T.machine init) es s) :
    ∀ i x, s.sessions i = some x → T.Sound s.row x := by
  refine hrun.invariant (P := fun s => ∀ i x, s.sessions i = some x → T.Sound s.row x) ?_ ?_
  · intro s hinit i x hx
    rw [hinit.2 i] at hx
    cases hx
  · intro s a s' hsound hs
    exact step_sound hsound hs

theorem step_row (hs : T.step s a = some s') (ha : ∀ i, a ≠ .save i) : s'.row = s.row := by
  cases a with
  | load i =>
    obtain ⟨o, _, rfl⟩ := Option.map_eq_some_iff.mp hs
    rfl
  | change i op =>
    obtain ⟨x, _, rfl⟩ := Option.map_eq_some_iff.mp hs
    rfl
  | save i => exact absurd rfl (ha i)
  | abandon i =>
    obtain rfl := Option.some.inj hs
    rfl

/-- **Saves**: a save commits exactly when the row has moved on by as many
    versions as the session counted up, less one. Then the row is loaded as the
    object of the session, one version on. Otherwise the row stays and the
    session ends. -/
theorem save_cases {i : ι} {x : Session Row Obj Op} (hsound : T.Sound s.row x)
    (hx : s.sessions i = some x) (hs : T.step s (.save i) = some s') :
    (T.rowVersion s.row + 1 = T.rowVersion x.loaded + T.bumps x.changes ∧
      T.rowVersion s'.row = T.rowVersion s.row + 1 ∧ T.load s'.row = some x.object) ∨
    (T.rowVersion s.row + 1 ≠ T.rowVersion x.loaded + T.bumps x.changes ∧
      s'.row = s.row ∧ s'.sessions i = none) := by
  have hversion := hsound.version
  simp only [step, hx, Option.map_some, Option.some.injEq] at hs
  cases hupdate : T.update s.row x.object with
  | some r =>
    rw [hupdate] at hs
    obtain ⟨hnext, _, hload⟩ := hsound.update hupdate
    obtain ⟨hpinned, _⟩ := update_some.mp hupdate
    subst hs
    exact .inl ⟨hpinned.trans hversion, hnext, hload⟩
  | none =>
    rw [hupdate] at hs
    have hpinned := update_none.mp hupdate
    subst hs
    refine .inr ⟨?_, rfl, SharedRow.set_self _ _ _⟩
    rw [← hversion]
    exact hpinned

/-- **One count**: a session that counted the version up once matches the row
    exactly when the row is the one it loaded. -/
theorem Sound.single {row : Row} {x : Session Row Obj Op} (h : T.Sound row x)
    (hone : T.bumps x.changes = 1) :
    T.rowVersion row + 1 = T.rowVersion x.loaded + T.bumps x.changes ↔ x.loaded = row := by
  rw [hone]
  constructor
  · intro heq
    exact h.current (by omega)
  · intro heq
    rw [heq]

theorem Sound.only_single {row : Row} {x : Session Row Obj Op} (hloaded : x.loaded = row)
    (hmany : T.bumps x.changes ≠ 1) :
    T.rowVersion row + 1 ≠ T.rowVersion x.loaded + T.bumps x.changes := by
  rw [hloaded]
  omega

end VersionedTable

end Framework
