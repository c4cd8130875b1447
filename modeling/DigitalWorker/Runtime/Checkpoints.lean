import DigitalWorker.Framework.Machine
import DigitalWorker.Framework.OnceStore
import DigitalWorker.Framework.StableSort
import DigitalWorker.Kernel.Basic
import Mathlib.Data.Prod.Lex
import Mathlib.Data.String.Basic

/-! # The checkpoint store

    `SqlAlchemyCheckpointSaver` keeps the checkpoints of the runs of every tenant, and
    for each the writes of its tasks. A row whose key is taken is dropped: a checkpoint is
    kept under its id, a write under its position in the call that made it. The metadata of
    a checkpoint is decoded under the type of the checkpoint.
-/

namespace DigitalWorker

open Framework

/-! ## Checkpoints and writes -/

inductive SaverError where
  | tenantContextMissing (message : String)
  | serde (message : String)
  deriving DecidableEq

/-- The serializer, which decodes what it encoded under the type it was encoded with; and
    `checkpoint["id"]`. -/
structure CheckpointFormat (V B : Type) where
  dumpsTyped : V → String × B
  loadsTyped : String × B → Except SaverError V
  loads_dumps : ∀ v, loadsTyped (dumpsTyped v) = .ok v
  idOf : V → String

/-- `config["configurable"]`. -/
structure CheckpointConfig where
  threadId : Option Uuid
  tenantId : Option Uuid
  workspaceId : Option Uuid
  checkpointNs : String := ""
  checkpointId : Option String := none
  deriving DecidableEq

/-- The `checkpoint_id` of a config, where it has one that is not empty. -/
def CheckpointConfig.wantedId (config : CheckpointConfig) : Option String :=
  config.checkpointId.filter (· ≠ "")

structure CheckpointScope where
  runId : Uuid
  tenantId : Uuid
  workspaceId : Uuid
  checkpointNs : String

def CheckpointConfig.scope (config : CheckpointConfig) : Except SaverError CheckpointScope :=
  match config.threadId, config.tenantId, config.workspaceId with
  | some runId, some tenantId, some workspaceId =>
    .ok ⟨runId, tenantId, workspaceId, config.checkpointNs⟩
  | _, _, _ => .error (.tenantContextMissing
      "checkpoint config requires thread_id, tenant_id and workspace_id")

structure CheckpointKey where
  runId : Uuid
  checkpointNs : String
  checkpointId : String
  deriving DecidableEq

def CheckpointScope.key (scope : CheckpointScope) (checkpointId : String) : CheckpointKey :=
  ⟨scope.runId, scope.checkpointNs, checkpointId⟩

/-- A row of `platform.run_checkpoints`. -/
structure CheckpointRow (B : Type) where
  key : CheckpointKey
  parentCheckpointId : Option String
  tenantId : Uuid
  workspaceId : Uuid
  type : String
  checkpoint : B
  metadata : B

/-- What a row of `platform.run_checkpoint_writes` says beyond its key. -/
structure WriteItem (B : Type) where
  tenantId : Uuid
  workspaceId : Uuid
  channel : String
  type : String
  value : B

structure SaverStore (B : Type) where
  checkpoints : List (CheckpointRow B) := []
  writes : List (Positioned (CheckpointKey × String) (WriteItem B)) := []

structure CheckpointTuple (V : Type) where
  config : CheckpointConfig
  checkpoint : V
  metadata : V
  parentConfig : Option CheckpointConfig
  pendingWrites : List (String × String × V)

variable {V B : Type}

def CheckpointTuple.parent (t : CheckpointTuple V) : Option String :=
  t.parentConfig.bind (·.checkpointId)

def CheckpointTuple.pending (t : CheckpointTuple V) (taskId channel : String) : Option V :=
  lastOf channel ((t.pendingWrites.filter (fun w => w.1 = taskId)).map Prod.snd)

def CheckpointRow.config (row : CheckpointRow B) (checkpointId : String) : CheckpointConfig :=
  { threadId := some row.key.runId, tenantId := some row.tenantId
    workspaceId := some row.workspaceId, checkpointNs := row.key.checkpointNs
    checkpointId := some checkpointId }

/-! ## Reading -/

def CheckpointScope.shows (scope : CheckpointScope) (wanted : Option String)
    (row : CheckpointRow B) : Bool :=
  row.tenantId = scope.tenantId && row.key.runId = scope.runId &&
    row.key.checkpointNs = scope.checkpointNs && wanted.all (· = row.key.checkpointId)

namespace SaverStore

variable (s : SaverStore B)

def selected (scope : CheckpointScope) (wanted : Option String) : Option (CheckpointRow B) :=
  ((s.checkpoints.filter (scope.shows wanted)).insertionSort
    (fun row row' => row'.key.checkpointId ≤ row.key.checkpointId)).head?

def writesOf (tenantId : Uuid) (key : CheckpointKey) :
    List (Positioned (CheckpointKey × String) (WriteItem B)) :=
  (s.writes.filter (fun p => p.item.tenantId = tenantId ∧ p.group.1 = key)).insertionSort
    (fun p p' => toLex (p.group.2, p.idx) ≤ toLex (p'.group.2, p'.idx))

end SaverStore

namespace CheckpointFormat

variable (f : CheckpointFormat V B)

def rowToTuple (row : CheckpointRow B)
    (writes : List (Positioned (CheckpointKey × String) (WriteItem B))) :
    Except SaverError (CheckpointTuple V) := do
  let checkpoint ← f.loadsTyped (row.type, row.checkpoint)
  let metadata ← f.loadsTyped (row.type, row.metadata)
  let pendingWrites ← writes.mapM (fun w => do
    let value ← f.loadsTyped (w.item.type, w.item.value)
    return (w.group.2, w.item.channel, value))
  return {
    config := row.config row.key.checkpointId
    checkpoint := checkpoint
    metadata := metadata
    parentConfig := (row.parentCheckpointId.filter (· ≠ "")).map row.config
    pendingWrites := pendingWrites }

def agetTuple (s : SaverStore B) (config : CheckpointConfig) :
    Except SaverError (Option (CheckpointTuple V)) := do
  let scope ← config.scope
  match s.selected scope config.wantedId with
  | none => return none
  | some row => return some (← f.rowToTuple row (s.writesOf scope.tenantId row.key))

/-! ## Writing -/

def putRow (scope : CheckpointScope) (parentId : Option String) (checkpoint metadata : V) :
    CheckpointRow B where
  key := scope.key (f.idOf checkpoint)
  parentCheckpointId := parentId
  tenantId := scope.tenantId
  workspaceId := scope.workspaceId
  type := (f.dumpsTyped checkpoint).1
  checkpoint := (f.dumpsTyped checkpoint).2
  metadata := (f.dumpsTyped metadata).2

def aput (s : SaverStore B) (config : CheckpointConfig) (checkpoint metadata : V) :
    Except SaverError (SaverStore B × CheckpointConfig) := do
  let scope ← config.scope
  let row := f.putRow scope config.wantedId checkpoint metadata
  return ({ s with checkpoints := insertOnce CheckpointRow.key s.checkpoints row },
    row.config (f.idOf checkpoint))

def writeItem (scope : CheckpointScope) (write : String × V) : WriteItem B where
  tenantId := scope.tenantId
  workspaceId := scope.workspaceId
  channel := write.1
  type := (f.dumpsTyped write.2).1
  value := (f.dumpsTyped write.2).2

/-- `aput_writes`: the writes of a call are numbered from zero. -/
def aputWrites (s : SaverStore B) (config : CheckpointConfig) (writes : List (String × V))
    (taskId : String) : Except SaverError (SaverStore B) := do
  let scope ← config.scope
  match config.wantedId with
  | none => .error (.tenantContextMissing "aput_writes requires checkpoint_id in config")
  | some checkpointId =>
    return { s with
      writes := insertAll Positioned.key s.writes
        (Positioned.batch (scope.key checkpointId, taskId) (writes.map (f.writeItem scope))) }

end CheckpointFormat

inductive SaverCall (V : Type) where
  | put (config : CheckpointConfig) (checkpoint metadata : V)
  | putWrites (config : CheckpointConfig) (writes : List (String × V)) (taskId : String)

/-- The config is one of the checkpoint `key` of a tenant, whose id the call says. -/
def CheckpointConfig.Addresses (config : CheckpointConfig) (checkpointId : Option String)
    (tenantId : Uuid) (key : CheckpointKey) : Prop :=
  config.tenantId = some tenantId ∧ config.threadId = some key.runId ∧
    config.checkpointNs = key.checkpointNs ∧ checkpointId = some key.checkpointId

instance (config : CheckpointConfig) (checkpointId : Option String) (tenantId : Uuid)
    (key : CheckpointKey) : Decidable (config.Addresses checkpointId tenantId key) := by
  unfold CheckpointConfig.Addresses
  infer_instance

theorem CheckpointConfig.addresses_iff {config : CheckpointConfig} {scope : CheckpointScope}
    (h : config.scope = .ok scope) {id : String} {checkpointId : Option String}
    (hid : checkpointId = some id) {tenantId : Uuid} {key : CheckpointKey} :
    config.Addresses checkpointId tenantId key ↔
      scope.tenantId = tenantId ∧ scope.key id = key := by
  unfold CheckpointConfig.scope at h
  split at h
  · next runId tenant workspaceId hrun htenant hworkspace =>
    obtain rfl := Except.ok.inj h
    obtain ⟨k₁, k₂, k₃⟩ := key
    simp [CheckpointConfig.Addresses, CheckpointScope.key, hrun, htenant, hid]
  · cases h

section

variable (f : CheckpointFormat V B)

def SaverCall.run (s : SaverStore B) : SaverCall V → Except SaverError (SaverStore B)
  | .put config checkpoint metadata => Prod.fst <$> f.aput s config checkpoint metadata
  | .putWrites config writes taskId => f.aputWrites s config writes taskId

def saver : Machine (SaverStore B) (SaverCall V) where
  init s := s.checkpoints = [] ∧ s.writes = []
  step s call := (call.run f s).toOption

def SaverCall.puts (tenantId : Uuid) (key : CheckpointKey) :
    SaverCall V → Option (V × V × Option String)
  | .put config checkpoint metadata =>
    if config.Addresses (f.idOf checkpoint) tenantId key then
      some (checkpoint, metadata, config.wantedId)
    else none
  | .putWrites .. => none

def SaverCall.writesFor (tenantId : Uuid) (key : CheckpointKey) (taskId : String) :
    SaverCall V → List (String × V)
  | .put .. => []
  | .putWrites config writes task =>
    if task = taskId ∧ config.Addresses config.wantedId tenantId key then writes else []

abbrev SaverEvent (V B : Type) := Event (SaverStore B) (SaverCall V)

def lastPut (es : List (SaverEvent V B)) (tenantId : Uuid) (key : CheckpointKey) :
    Option (V × V × Option String) :=
  es.findSome? (fun e => e.act.puts f tenantId key)

def lastWrite (es : List (SaverEvent V B)) (tenantId : Uuid) (key : CheckpointKey)
    (taskId channel : String) : Option V :=
  es.findSome? (fun e => lastOf channel (e.act.writesFor tenantId key taskId))

/-! ## What is read back -/

/-- The tuple is what was stored for the checkpoint `key` of a tenant. -/
structure Restored (es : List (SaverEvent V B)) (tenantId : Uuid) (key : CheckpointKey)
    (t : CheckpointTuple V) : Prop where
  config : t.config.Addresses t.config.checkpointId tenantId key
  stored : lastPut f es tenantId key = some (t.checkpoint, t.metadata, t.parent)
  values : ∀ taskId channel,
    t.pending taskId channel = lastWrite es tenantId key taskId channel
  own : ∀ w ∈ t.pendingWrites, ∃ e ∈ es, w.2 ∈ e.act.writesFor tenantId key w.1

def AskedFor (es : List (SaverEvent V B)) (config : CheckpointConfig) (scope : CheckpointScope)
    (id : String) : Prop :=
  lastPut f es scope.tenantId (scope.key id) ≠ none ∧
    match config.wantedId with
    | some wanted => wanted = id
    | none => ∀ id', lastPut f es scope.tenantId (scope.key id') ≠ none → id' ≤ id

def Restores (es : List (SaverEvent V B)) (s : SaverStore B) : Prop :=
  ∀ config scope, config.scope = .ok scope →
    (∀ id, AskedFor f es config scope id →
      ∃ t, f.agetTuple s config = .ok (some t) ∧
        Restored f es scope.tenantId (scope.key id) t) ∧
    ((∀ id, ¬ AskedFor f es config scope id) → f.agetTuple s config = .ok none)

/-! ## When nothing is lost -/

def CheckpointFormat.stored (row : CheckpointRow B) :
    Except SaverError (V × V × Option String) := do
  let checkpoint ← f.loadsTyped (row.type, row.checkpoint)
  let metadata ← f.loadsTyped (row.type, row.metadata)
  return (checkpoint, metadata, row.parentCheckpointId.filter (· ≠ ""))

def CheckpointFormat.decoded (i : WriteItem B) : String × Except SaverError V :=
  (i.channel, f.loadsTyped (i.type, i.value))

def SaverStore.rowUnder (s : SaverStore B) (key : CheckpointKey) : Option (CheckpointRow B) :=
  s.checkpoints.find? (fun row => row.key == key)

def SaverStore.taskWrites (s : SaverStore B) (task : CheckpointKey × String) :
    List (WriteItem B) :=
  ((s.writes.filter (fun p => p.group = task)).insertionSort (fun p p' => p.idx ≤ p'.idx)).map
    Positioned.item

def CheckpointFormat.lastHeld (tenantId : Uuid) (channel : String) (held : List (WriteItem B)) :
    Option (Except SaverError V) :=
  lastOf channel ((held.filter (fun i => i.tenantId = tenantId)).map f.decoded)

def Keeps (e : SaverEvent V B) : Prop :=
  match e.act with
  | .put config checkpoint metadata =>
    ∀ scope, config.scope = .ok scope →
      match e.pre.rowUnder (scope.key (f.idOf checkpoint)) with
      | none => f.loadsTyped ((f.dumpsTyped checkpoint).1, (f.dumpsTyped metadata).2) = .ok metadata
      | some row => row.tenantId = scope.tenantId ∧
          f.stored row = .ok (checkpoint, metadata, config.wantedId)
  | .putWrites config writes taskId =>
    ∀ scope id, config.scope = .ok scope → config.wantedId = some id →
      ∀ channel value, lastOf channel writes = some value →
        channel ∈ (writes.drop (e.pre.taskWrites (scope.key id, taskId)).length).map Prod.fst ∨
        f.lastHeld scope.tenantId channel (e.pre.taskWrites (scope.key id, taskId)) =
          some (.ok value)

end

/-! ## Steps -/

variable {f : CheckpointFormat V B} {s s' : SaverStore B}

theorem saver_put {config : CheckpointConfig} {checkpoint metadata : V}
    (h : (saver f).step s (.put config checkpoint metadata) = some s') :
    ∃ scope, config.scope = .ok scope ∧
      s' = { s with
        checkpoints := insertOnce CheckpointRow.key s.checkpoints
          (f.putRow scope config.wantedId checkpoint metadata) } := by
  cases hscope : config.scope with
  | error e =>
    simp only [saver, SaverCall.run, CheckpointFormat.aput, hscope] at h
    cases h
  | ok scope =>
    simp only [saver, SaverCall.run, CheckpointFormat.aput, hscope] at h
    exact ⟨scope, rfl, (Option.some.inj h).symm⟩

theorem saver_putWrites {config : CheckpointConfig} {writes : List (String × V)} {taskId : String}
    (h : (saver f).step s (.putWrites config writes taskId) = some s') :
    ∃ scope id, config.scope = .ok scope ∧ config.wantedId = some id ∧
      s' = { s with
        writes := insertAll Positioned.key s.writes
          (Positioned.batch (scope.key id, taskId) (writes.map (f.writeItem scope))) } := by
  cases hscope : config.scope with
  | error e =>
    simp only [saver, SaverCall.run, CheckpointFormat.aputWrites, hscope] at h
    cases h
  | ok scope =>
    cases hid : config.wantedId with
    | none =>
      simp only [saver, SaverCall.run, CheckpointFormat.aputWrites, hscope, hid] at h
      cases h
    | some id =>
      simp only [saver, SaverCall.run, CheckpointFormat.aputWrites, hscope, hid] at h
      exact ⟨scope, id, rfl, rfl, (Option.some.inj h).symm⟩

@[simp] theorem decoded_writeItem (scope : CheckpointScope) (write : String × V) :
    f.decoded (f.writeItem scope write) = (write.1, .ok write.2) := by
  simp [CheckpointFormat.decoded, CheckpointFormat.writeItem, f.loads_dumps]

theorem stored_putRow {scope : CheckpointScope} {config : CheckpointConfig}
    {checkpoint metadata : V}
    (h : f.loadsTyped ((f.dumpsTyped checkpoint).1, (f.dumpsTyped metadata).2) = .ok metadata) :
    f.stored (f.putRow scope config.wantedId checkpoint metadata) =
      .ok (checkpoint, metadata, config.wantedId) := by
  have hparent : config.wantedId.filter (· ≠ "") = config.wantedId := by
    rw [CheckpointConfig.wantedId, Option.filter_filter]
    simp
  have hcheckpoint : f.loadsTyped ((f.dumpsTyped checkpoint).1, (f.dumpsTyped checkpoint).2) =
      .ok checkpoint := f.loads_dumps checkpoint
  simp only [CheckpointFormat.stored, CheckpointFormat.putRow, hcheckpoint, h, hparent]
  rfl

/-! ## What the tables hold -/

structure HoldsPuts (f : CheckpointFormat V B) (es : List (SaverEvent V B))
    (s : SaverStore B) : Prop where
  keys : (s.checkpoints.map CheckpointRow.key).Nodup
  rows : ∀ tenantId key, ((s.rowUnder key).filter (·.tenantId = tenantId)).map f.stored =
    (lastPut f es tenantId key).map .ok

structure HoldsWrites (f : CheckpointFormat V B) (es : List (SaverEvent V B))
    (s : SaverStore B) : Prop where
  laid : ∃ content, Laid content s.writes ∧ ∀ tenantId key taskId channel,
    f.lastHeld tenantId channel (content (key, taskId)) =
      (lastWrite es tenantId key taskId channel).map .ok
  own : ∀ p ∈ s.writes, ∃ value, f.loadsTyped (p.item.type, p.item.value) = .ok value ∧
    ∃ e ∈ es, (p.item.channel, value) ∈ e.act.writesFor p.item.tenantId p.group.1 p.group.2

variable {es : List (SaverEvent V B)}

theorem lastPut_cons (e : SaverEvent V B) (tenantId : Uuid) (key : CheckpointKey) :
    lastPut f (e :: es) tenantId key =
      (e.act.puts f tenantId key).or (lastPut f es tenantId key) := by
  rw [lastPut, List.findSome?_cons]
  cases e.act.puts f tenantId key <;> rfl

theorem lastWrite_cons (e : SaverEvent V B) (tenantId : Uuid) (key : CheckpointKey)
    (taskId channel : String) :
    lastWrite (e :: es) tenantId key taskId channel =
      (lastOf channel (e.act.writesFor tenantId key taskId)).or
        (lastWrite es tenantId key taskId channel) := by
  rw [lastWrite, List.findSome?_cons]
  cases lastOf channel (e.act.writesFor tenantId key taskId) <;> rfl

theorem HoldsPuts.put {config : CheckpointConfig} {checkpoint metadata : V}
    (h : HoldsPuts f es s)
    (hstep : (saver f).step s (.put config checkpoint metadata) = some s')
    (hkeep : Keeps f ⟨s, .put config checkpoint metadata, s'⟩) :
    HoldsPuts f (⟨s, .put config checkpoint metadata, s'⟩ :: es) s' := by
  obtain ⟨scope, hscope, rfl⟩ := saver_put hstep
  refine ⟨nodup_insertOnce h.keys, ?_⟩
  intro tenantId key
  have hrow := hkeep scope hscope
  have hrows := h.rows tenantId key
  rw [lastPut_cons, SaverStore.rowUnder, find_insertOnce]
  simp only [SaverCall.puts, CheckpointConfig.addresses_iff hscope rfl]
  by_cases hkey : scope.key (f.idOf checkpoint) = key
  · subst hkey
    have hput : (f.putRow scope config.wantedId checkpoint metadata).key =
        scope.key (f.idOf checkpoint) := rfl
    rw [if_pos hput]
    cases hunder : s.rowUnder (scope.key (f.idOf checkpoint)) with
    | none =>
      simp only [hunder] at hrow hrows
      rw [SaverStore.rowUnder] at hunder
      rw [hunder, Option.none_or]
      by_cases htenant : scope.tenantId = tenantId
      · have hfilter : (some (f.putRow scope config.wantedId checkpoint metadata)).filter
            (·.tenantId = tenantId) =
              some (f.putRow scope config.wantedId checkpoint metadata) := by
          simp [CheckpointFormat.putRow, htenant]
        rw [hfilter, if_pos ⟨htenant, rfl⟩, Option.map_some, stored_putRow hrow]
        rfl
      · have hfilter : (some (f.putRow scope config.wantedId checkpoint metadata)).filter
            (·.tenantId = tenantId) = none := by
          simp [CheckpointFormat.putRow, htenant]
        rw [hfilter, if_neg (fun h => htenant h.1), Option.none_or]
        exact hrows
    | some row =>
      simp only [hunder] at hrow hrows
      rw [SaverStore.rowUnder] at hunder
      rw [hunder, Option.some_or]
      by_cases htenant : scope.tenantId = tenantId
      · simp [htenant, hrow.1, hrow.2]
      · simpa [htenant, hrow.1] using hrows
  · have hput : (f.putRow scope config.wantedId checkpoint metadata).key ≠ key := hkey
    rw [if_neg hput, Option.or_none, if_neg (fun h => hkey h.2), Option.none_or]
    exact hrows

theorem HoldsPuts.putWrites {config : CheckpointConfig} {writes : List (String × V)}
    {taskId : String} (h : HoldsPuts f es s)
    (hstep : (saver f).step s (.putWrites config writes taskId) = some s') :
    HoldsPuts f (⟨s, .putWrites config writes taskId, s'⟩ :: es) s' := by
  obtain ⟨scope, id, -, -, rfl⟩ := saver_putWrites hstep
  refine ⟨h.keys, ?_⟩
  intro tenantId key
  rw [lastPut_cons]
  exact h.rows tenantId key

theorem HoldsWrites.put {config : CheckpointConfig} {checkpoint metadata : V}
    (h : HoldsWrites f es s)
    (hstep : (saver f).step s (.put config checkpoint metadata) = some s') :
    HoldsWrites f (⟨s, .put config checkpoint metadata, s'⟩ :: es) s' := by
  obtain ⟨scope, -, rfl⟩ := saver_put hstep
  obtain ⟨content, hlaid, hlast⟩ := h.laid
  refine ⟨⟨content, hlaid, ?_⟩, ?_⟩
  · intro tenantId key taskId channel
    rw [lastWrite_cons]
    exact hlast tenantId key taskId channel
  · intro p hp
    obtain ⟨value, hvalue, e, he, hwrote⟩ := h.own p hp
    exact ⟨value, hvalue, e, List.mem_cons_of_mem _ he, hwrote⟩

theorem taskWrites_eq {content : CheckpointKey × String → List (WriteItem B)}
    (h : Laid content s.writes) (task : CheckpointKey × String) :
    s.taskWrites task = content task := by
  have hnodup : (s.writes.filter (fun p => p.group = task)).Nodup := (h.keys.of_map _).filter _
  have hsorted : ((s.writes.filter (fun p => p.group = task)).insertionSort
      (fun p p' => p.idx ≤ p'.idx)).Pairwise
        (fun p p' => p.group = task → p'.group = task → p.idx ≤ p'.idx) :=
    (pairwise_insertionSort_key Positioned.idx _).imp (fun h _ _ => h)
  have hread := h.read (q := fun _ => true) hsorted
    ((List.perm_insertionSort _ _).nodup_iff.mpr hnodup) (by
      intro p hp
      simp [hp])
  have hself : (content task).filter (fun _ => true) = content task :=
    List.filter_eq_self.mpr (fun _ _ => rfl)
  rw [hself, List.filter_eq_self.mpr] at hread
  · exact hread
  · intro p hp
    exact (List.mem_filter.mp ((List.mem_insertionSort _).mp hp)).2

/-- What the tenant reads last of entries and what a call adds to them: what the call says
    last, as soon as `Keeps` has it. -/
theorem lastHeld_overlay {held : List (WriteItem B)} {scope : CheckpointScope}
    {writes : List (String × V)} {tenantId : Uuid} {channel : String}
    (hkeep : ∀ value, lastOf channel writes = some value →
      channel ∈ (writes.drop held.length).map Prod.fst ∨
      f.lastHeld scope.tenantId channel held = some (.ok value)) :
    f.lastHeld tenantId channel
        (held ++ (writes.map (f.writeItem scope)).drop held.length) =
      ((if scope.tenantId = tenantId then lastOf channel writes else none).map .ok).or
        (f.lastHeld tenantId channel held) := by
  rw [CheckpointFormat.lastHeld, List.filter_append, List.map_append, lastOf_append,
    ← List.map_drop]
  by_cases htenant : scope.tenantId = tenantId
  · subst htenant
    have hall : ((writes.drop held.length).map (f.writeItem scope)).filter
        (fun i => i.tenantId = scope.tenantId) =
          (writes.drop held.length).map (f.writeItem scope) := by
      rw [List.filter_eq_self]
      intro i hi
      obtain ⟨w, -, rfl⟩ := List.mem_map.mp hi
      simp [CheckpointFormat.writeItem]
    rw [hall, List.map_map, if_pos rfl]
    have hmap : f.decoded ∘ f.writeItem scope =
        fun w => (w.1, (Except.ok w.2 : Except SaverError V)) := by
      funext w
      exact decoded_writeItem scope w
    rw [hmap, lastOf_map]
    show _ = Option.or _ (f.lastHeld scope.tenantId channel held)
    cases hdrop : lastOf channel (writes.drop held.length) with
    | some value =>
      have hlast : lastOf channel writes = some value := by
        rw [lastOf_drop held.length, hdrop, Option.some_or]
      rw [hlast]
      rfl
    | none =>
      -- nothing behind the taken places: what is held has to say the same
      have hbehind : channel ∉ (writes.drop held.length).map Prod.fst := by
        rw [← lastOf_isSome, hdrop]
        simp
      cases hlast : lastOf channel writes with
      | none => rfl
      | some value =>
        rw [(hkeep value hlast).resolve_left hbehind]
        exact (hkeep value hlast).resolve_left hbehind
  · have hnone : ((writes.drop held.length).map (f.writeItem scope)).filter
        (fun i => i.tenantId = tenantId) = [] := by
      rw [List.filter_eq_nil_iff]
      intro i hi
      obtain ⟨w, -, rfl⟩ := List.mem_map.mp hi
      simp [CheckpointFormat.writeItem, htenant]
    rw [hnone, if_neg htenant]
    rfl

theorem HoldsWrites.putWrites {config : CheckpointConfig} {writes : List (String × V)}
    {taskId : String} (h : HoldsWrites f es s)
    (hstep : (saver f).step s (.putWrites config writes taskId) = some s')
    (hkeep : Keeps f ⟨s, .putWrites config writes taskId, s'⟩) :
    HoldsWrites f (⟨s, .putWrites config writes taskId, s'⟩ :: es) s' := by
  obtain ⟨scope, id, hscope, hid, rfl⟩ := saver_putWrites hstep
  obtain ⟨content, hlaid, hlast⟩ := h.laid
  have hkeep := hkeep scope id hscope hid
  simp only [taskWrites_eq hlaid] at hkeep
  have hwrites : ∀ tenantId key task,
      SaverCall.writesFor tenantId key task (.putWrites config writes taskId) =
        if (scope.key id, taskId) = (key, task) ∧ scope.tenantId = tenantId then writes
        else [] := by
    intro tenantId key task
    simp only [SaverCall.writesFor, CheckpointConfig.addresses_iff hscope hid, Prod.mk.injEq]
    congr 1
    exact propext ⟨fun h => ⟨⟨h.2.2, h.1⟩, h.2.1⟩, fun h => ⟨h.1.2, h.2, h.1.1⟩⟩
  refine ⟨⟨_, hlaid.put (scope.key id, taskId) (writes.map (f.writeItem scope)), ?_⟩, ?_⟩
  · intro tenantId key task channel
    rw [lastWrite_cons, hwrites]
    by_cases htask : (scope.key id, taskId) = (key, task)
    · rw [← htask, overlay, Function.update_self, lastHeld_overlay (hkeep channel)]
      obtain ⟨rfl, rfl⟩ := Prod.mk.inj htask
      rw [hlast, Option.map_or]
      by_cases htenant : scope.tenantId = tenantId
      · simp [htenant]
      · simp [htenant]
    · rw [overlay, Function.update_of_ne (Ne.symm htask), if_neg (fun h => htask h.1)]
      exact hlast tenantId key task channel
  · intro p hp
    rcases mem_insertAll hp with hp | hp
    · obtain ⟨hgroup, hitem⟩ := Positioned.mem_batch.mp hp
      rw [List.getElem?_map, Option.map_eq_some_iff] at hitem
      obtain ⟨w, hw, hitem⟩ := hitem
      refine ⟨w.2, ?_, _, List.mem_cons_self, ?_⟩
      · rw [← hitem]
        exact f.loads_dumps w.2
      · rw [hwrites, if_pos ⟨hgroup.symm, by rw [← hitem]; rfl⟩, ← hitem]
        exact List.mem_of_getElem? hw
    · obtain ⟨value, hvalue, e, he, hwrote⟩ := h.own p hp
      exact ⟨value, hvalue, e, List.mem_cons_of_mem _ he, hwrote⟩

/-! ## Reading back -/

section

variable {scope : CheckpointScope} {wanted : Option String} {row : CheckpointRow B}

theorem shows_iff : scope.shows wanted row = true ↔ row.tenantId = scope.tenantId ∧
    row.key = scope.key row.key.checkpointId ∧
    ∀ id, wanted = some id → id = row.key.checkpointId := by
  obtain ⟨⟨runId, ns, id⟩, parentId, tenantId, workspaceId, type, checkpoint, metadata⟩ := row
  cases wanted <;>
    simp [CheckpointScope.shows, CheckpointScope.key, and_assoc]

theorem selected_some (h : s.selected scope wanted = some row) :
    (row ∈ s.checkpoints ∧ scope.shows wanted row = true) ∧
      ∀ row' ∈ s.checkpoints, scope.shows wanted row' = true →
        row'.key.checkpointId ≤ row.key.checkpointId := by
  have : Std.Total (fun r r' : CheckpointRow B => r'.key.checkpointId ≤ r.key.checkpointId) :=
    ⟨fun r r' => le_total _ _⟩
  have : IsTrans (CheckpointRow B) (fun r r' => r'.key.checkpointId ≤ r.key.checkpointId) :=
    ⟨fun _ _ _ h h' => le_trans h' h⟩
  obtain ⟨hmem, hfirst⟩ := insertionSort_first h
  exact ⟨List.mem_filter.mp hmem,
    fun row' hrow' hshows => hfirst row' (List.mem_filter.mpr ⟨hrow', hshows⟩)⟩

theorem selected_ne_none (hrow : row ∈ s.checkpoints) (hshows : scope.shows wanted row = true) :
    s.selected scope wanted ≠ none := by
  intro hnone
  rw [SaverStore.selected, List.head?_eq_none_iff] at hnone
  have hmem : row ∈ (s.checkpoints.filter (scope.shows wanted)).insertionSort
      (fun r r' => r'.key.checkpointId ≤ r.key.checkpointId) :=
    (List.mem_insertionSort _).mpr (List.mem_filter.mpr ⟨hrow, hshows⟩)
  rw [hnone] at hmem
  exact List.not_mem_nil hmem

theorem HoldsPuts.of_row (h : HoldsPuts f es s) (hrow : row ∈ s.checkpoints) :
    (lastPut f es row.tenantId row.key).map .ok = some (f.stored row) := by
  have hunder : s.rowUnder row.key = some row := find_of_nodup h.keys hrow
  rw [← h.rows, hunder]
  simp

theorem HoldsPuts.exists_row (h : HoldsPuts f es s) {tenantId : Uuid} {key : CheckpointKey}
    (hput : lastPut f es tenantId key ≠ none) :
    ∃ row ∈ s.checkpoints, row.tenantId = tenantId ∧ row.key = key := by
  have hrows := h.rows tenantId key
  obtain ⟨put, hput⟩ := Option.ne_none_iff_exists'.mp hput
  rw [hput, Option.map_some, Option.map_eq_some_iff] at hrows
  obtain ⟨row, hrow, -⟩ := hrows
  obtain ⟨hunder, htenant⟩ := Option.filter_eq_some_iff.mp hrow
  exact ⟨row, List.mem_of_find?_eq_some hunder, by simpa using htenant,
    by simpa using List.find?_some hunder⟩

theorem writesOf_task {content : CheckpointKey × String → List (WriteItem B)}
    (h : Laid content s.writes) (tenantId : Uuid) (key : CheckpointKey) (taskId : String) :
    ((s.writesOf tenantId key).filter (fun p => p.group = (key, taskId))).map Positioned.item =
      (content (key, taskId)).filter (fun i => i.tenantId = tenantId) := by
  refine h.read ?_ ?_ ?_
  · refine (pairwise_insertionSort_key (fun p : Positioned (CheckpointKey × String) (WriteItem B) =>
      toLex (p.group.2, p.idx)) _).imp ?_
    intro p p' hle hp hp'
    rcases Prod.Lex.le_iff.mp hle with hlt | heq
    · rw [hp, hp'] at hlt
      exact absurd hlt (lt_irrefl _)
    · exact heq.2
  · exact (List.perm_insertionSort _ _).nodup_iff.mpr ((h.keys.of_map _).filter _)
  · intro p hp
    rw [SaverStore.writesOf, List.mem_insertionSort, List.mem_filter]
    simp [hp]

theorem mapM_total {ε α β : Type} {g : α → Except ε β} {xs : List α}
    (h : ∀ x ∈ xs, ∃ y, g x = .ok y) :
    ∃ ys, xs.mapM g = .ok ys ∧ List.Forall₂ (fun x y => g x = .ok y) xs ys := by
  induction xs with
  | nil => exact ⟨[], rfl, .nil⟩
  | cons x xs ih =>
    obtain ⟨y, hy⟩ := h x List.mem_cons_self
    obtain ⟨ys, hmap, hys⟩ := ih (fun x' hx' => h x' (List.mem_cons_of_mem _ hx'))
    refine ⟨y :: ys, ?_, .cons hy hys⟩
    rw [List.mapM_cons, hy, hmap]
    rfl

theorem decoded_writesOf (h : HoldsWrites f es s) (tenantId : Uuid) (key : CheckpointKey) :
    ∃ pendingWrites,
      (s.writesOf tenantId key).mapM (fun w => do
        let value ← f.loadsTyped (w.item.type, w.item.value)
        return (w.group.2, w.item.channel, value)) = .ok pendingWrites ∧
      (s.writesOf tenantId key).map (fun p => (p.group.2, f.decoded p.item)) =
        pendingWrites.map (fun w => (w.1, w.2.1, .ok w.2.2)) := by
  have hvalue : ∀ w ∈ s.writesOf tenantId key, ∃ value,
      f.loadsTyped (w.item.type, w.item.value) = .ok value := by
    intro w hw
    have hmem : w ∈ s.writes :=
      (List.mem_filter.mp ((List.mem_insertionSort _).mp hw)).1
    obtain ⟨value, hvalue, -⟩ := h.own w hmem
    exact ⟨value, hvalue⟩
  have hentry : ∀ w ∈ s.writesOf tenantId key, ∃ entry, (do
      let value ← f.loadsTyped (w.item.type, w.item.value)
      return (w.group.2, w.item.channel, value)) = .ok entry := by
    intro w hw
    obtain ⟨value, hvalue⟩ := hvalue w hw
    exact ⟨(w.group.2, w.item.channel, value), by simp only [hvalue]; rfl⟩
  obtain ⟨pendingWrites, hmap, hall⟩ := mapM_total hentry
  refine ⟨pendingWrites, hmap, ?_⟩
  rw [← List.forall₂_eq_eq_eq, List.forall₂_map_left_iff, List.forall₂_map_right_iff]
  refine hall.imp ?_
  intro p w hw
  cases hloads : f.loadsTyped (p.item.type, p.item.value) with
  | error e =>
    simp only [hloads] at hw
    cases hw
  | ok value =>
    simp only [hloads] at hw
    cases hw
    simp [CheckpointFormat.decoded, hloads]

theorem restored_row (hputs : HoldsPuts f es s) (hwrites : HoldsWrites f es s)
    (hrow : row ∈ s.checkpoints) :
    ∃ t, f.rowToTuple row (s.writesOf row.tenantId row.key) = .ok t ∧
      Restored f es row.tenantId row.key t := by
  have hstored := hputs.of_row hrow
  obtain ⟨⟨checkpoint, metadata, parent⟩, hput, hok⟩ := Option.map_eq_some_iff.mp hstored
  obtain ⟨pendingWrites, hmapM, hmap⟩ := decoded_writesOf hwrites row.tenantId row.key
  obtain ⟨content, hlaid, hlast⟩ := hwrites.laid
  have hsound : f.loadsTyped (row.type, row.checkpoint) = .ok checkpoint ∧
      f.loadsTyped (row.type, row.metadata) = .ok metadata ∧
      row.parentCheckpointId.filter (· ≠ "") = parent := by
    unfold CheckpointFormat.stored at hok
    cases hcheckpoint : f.loadsTyped (row.type, row.checkpoint) with
    | error e =>
      rw [hcheckpoint] at hok
      cases hok
    | ok c =>
      rw [hcheckpoint] at hok
      cases hmetadata : f.loadsTyped (row.type, row.metadata) with
      | error e =>
        rw [hmetadata] at hok
        cases hok
      | ok m =>
        rw [hmetadata] at hok
        cases hok
        exact ⟨rfl, rfl, rfl⟩
  obtain ⟨hcheckpoint, hmetadata, hparent⟩ := hsound
  refine ⟨_, by rw [CheckpointFormat.rowToTuple, hcheckpoint, hmetadata, hmapM]; rfl, ?_⟩
  refine { config := ⟨rfl, rfl, rfl, rfl⟩, stored := ?_, values := ?_, own := ?_ }
  · rw [hput, CheckpointTuple.parent, hparent]
    cases parent <;> rfl
  · intro taskId channel
    have hgroup : (s.writesOf row.tenantId row.key).filter (fun p => p.group.2 = taskId) =
        (s.writesOf row.tenantId row.key).filter (fun p => p.group = (row.key, taskId)) := by
      apply List.filter_congr
      intro p hp
      have hkey := (List.mem_filter.mp ((List.mem_insertionSort _).mp hp)).2
      simp only [decide_eq_true_eq] at hkey
      simp [Prod.ext_iff, hkey.2]
    have hlabelled : ((pendingWrites.filter (fun w => w.1 = taskId)).map Prod.snd).map
        (fun w => (w.1, (Except.ok w.2 : Except SaverError V))) =
          ((content (row.key, taskId)).filter (fun i => i.tenantId = row.tenantId)).map
            f.decoded := by
      rw [← writesOf_task hlaid, ← hgroup, List.map_map, List.map_map]
      have hfilter := congrArg (fun l => (l.filter (fun w => w.1 = taskId)).map Prod.snd) hmap
      simp only [List.filter_map, List.map_map] at hfilter
      exact hfilter.symm
    have hok := hlast row.tenantId row.key taskId channel
    rw [CheckpointFormat.lastHeld, ← hlabelled, lastOf_map] at hok
    exact Option.map_injective (fun _ _ h => Except.ok.inj h) hok
  · intro w hw
    have hmem : (w.1, w.2.1, (Except.ok w.2.2 : Except SaverError V)) ∈
        pendingWrites.map (fun w => (w.1, w.2.1, .ok w.2.2)) := List.mem_map_of_mem hw
    rw [← hmap] at hmem
    obtain ⟨p, hp, hpw⟩ := List.mem_map.mp hmem
    obtain ⟨hp, hkey⟩ := List.mem_filter.mp ((List.mem_insertionSort _).mp hp)
    obtain ⟨value, hvalue, e, he, hwrote⟩ := hwrites.own p hp
    simp only [decide_eq_true_eq] at hkey
    obtain ⟨htask, hdecoded⟩ := Prod.mk.inj hpw
    obtain ⟨hchannel, hloads⟩ := Prod.mk.inj hdecoded
    rw [hvalue] at hloads
    refine ⟨e, he, ?_⟩
    rw [← hkey.1, ← hkey.2, ← htask]
    rwa [hchannel, Except.ok.inj hloads] at hwrote

end

theorem agetTuple_eq {config : CheckpointConfig} {scope : CheckpointScope}
    (hscope : config.scope = .ok scope) :
    f.agetTuple s config = match s.selected scope config.wantedId with
      | none => .ok none
      | some row => some <$> f.rowToTuple row (s.writesOf scope.tenantId row.key) := by
  simp only [CheckpointFormat.agetTuple, hscope]
  show (match s.selected scope config.wantedId with
    | none => _
    | some row => _) = _
  split
  · rfl
  · next row hrow => cases f.rowToTuple row (s.writesOf scope.tenantId row.key) <;> rfl

theorem restores_of_holds (hputs : HoldsPuts f es s) (hwrites : HoldsWrites f es s) :
    Restores f es s := by
  intro config scope hscope
  have hget : ∀ row, s.selected scope config.wantedId = some row →
      AskedFor f es config scope row.key.checkpointId ∧
      row.key = scope.key row.key.checkpointId ∧
      ∃ t, f.agetTuple s config = .ok (some t) ∧ Restored f es scope.tenantId row.key t := by
    intro row hselected
    obtain ⟨⟨hrow, hshows⟩, hgreatest⟩ := selected_some hselected
    obtain ⟨htenant, hkey, hwanted⟩ := shows_iff.mp hshows
    obtain ⟨t, ht, hrestored⟩ := restored_row hputs hwrites hrow
    rw [htenant] at ht hrestored
    refine ⟨⟨?_, ?_⟩, hkey, t, ?_, hrestored⟩
    · rw [← hkey, hrestored.stored]
      exact Option.some_ne_none _
    · split
      · next wanted hid => exact hwanted wanted hid
      · next hid =>
        intro id hput
        obtain ⟨row', hrow', htenant', hkey'⟩ := hputs.exists_row hput
        have hid' : row'.key.checkpointId = id := congrArg CheckpointKey.checkpointId hkey'
        rw [← hid']
        refine hgreatest row' hrow' (shows_iff.mpr ⟨htenant', by rw [hid', hkey'], ?_⟩)
        rw [hid]
        exact fun _ h => absurd h (by simp)
    · rw [agetTuple_eq hscope, hselected]
      simp only [ht]
      rfl
  refine ⟨?_, ?_⟩
  · rintro id ⟨hput, hwanted⟩
    obtain ⟨row, hrow, htenant, hkey⟩ := hputs.exists_row hput
    have hid : row.key.checkpointId = id := congrArg CheckpointKey.checkpointId hkey
    have hshows : scope.shows config.wantedId row = true := by
      refine shows_iff.mpr ⟨htenant, by rw [hid, hkey], ?_⟩
      intro wanted hasked
      rw [hasked] at hwanted
      rw [hid]
      exact hwanted
    obtain ⟨row', hselected⟩ := Option.ne_none_iff_exists'.mp (selected_ne_none hrow hshows)
    obtain ⟨⟨hput', hwanted'⟩, hkey', t, ht, hrestored⟩ := hget row' hselected
    have hsame : row'.key.checkpointId = id := by
      cases hasked : config.wantedId with
      | some wanted =>
        rw [hasked] at hwanted hwanted'
        exact hwanted'.symm.trans hwanted
      | none =>
        rw [hasked] at hwanted hwanted'
        exact le_antisymm (hwanted _ hput') (hwanted' id hput)
    rw [hkey', hsame] at hrestored
    exact ⟨t, ht, hrestored⟩
  · intro hnone
    cases hselected : s.selected scope config.wantedId with
    | none =>
      rw [agetTuple_eq hscope, hselected]
    | some row => exact absurd (hget row hselected).1 (hnone _)

/-- **Restored**: in a run whose calls all lose nothing, every checkpoint is read back as
    it was stored, and without an id the greatest one. -/
theorem checkpoints_restored (f : CheckpointFormat V B) (es : List (SaverEvent V B))
    (s : SaverStore B) (h : Exec (saver f) es s) (hkeep : ∀ e ∈ es, Keeps f e) :
    Restores f es s := by
  suffices hholds : HoldsPuts f es s ∧ HoldsWrites f es s from
    restores_of_holds hholds.1 hholds.2
  induction h with
  | start h0 =>
    obtain ⟨hcheckpoints, hwrites⟩ := h0
    refine ⟨⟨?_, ?_⟩, ⟨⟨fun _ => [], ?_, ?_⟩, ?_⟩⟩
    · rw [hcheckpoints]
      exact List.nodup_nil
    · intro tenantId key
      rw [SaverStore.rowUnder, hcheckpoints]
      rfl
    · rw [hwrites]
      exact Laid.nil
    · intro tenantId key taskId channel
      rfl
    · intro p hp
      rw [hwrites] at hp
      exact absurd hp List.not_mem_nil
  | @snoc es s s' call hexec hstep ih =>
    obtain ⟨hputs, hwrites⟩ := ih (fun e he => hkeep e (List.mem_cons_of_mem _ he))
    have hkeeps := hkeep _ List.mem_cons_self
    cases call with
    | put config checkpoint metadata => exact ⟨hputs.put hstep hkeeps, hwrites.put hstep⟩
    | putWrites config writes taskId =>
      exact ⟨hputs.putWrites hstep, hwrites.putWrites hstep hkeeps⟩

/-! ## A task that is resumed -/

namespace ResumedTask

def texts : CheckpointFormat String String where
  dumpsTyped v := ("text", v)
  loadsTyped b := .ok b.2
  loads_dumps _ := rfl
  idOf v := v

def started : CheckpointConfig :=
  { threadId := some { text := "run" }, tenantId := some { text := "tenant" }
    workspaceId := some { text := "workspace" } }

def config : CheckpointConfig := { started with checkpointId := some "1f0a" }
def key : CheckpointKey := ⟨{ text := "run" }, "", "1f0a"⟩

def question : List (String × String) := [("__interrupt__", "approve?")]

/-- A checkpoint whose task asks. -/
theorem question_restored : ∃ es s, Exec (saver texts) es s ∧ es.length = 2 ∧
    Restores texts es s := by
  have hput : (saver texts).step {} (.put started "1f0a" "loop") =
      some { checkpoints := [⟨key, none, { text := "tenant" }, { text := "workspace" }, "text",
        "1f0a", "loop"⟩] } := rfl
  have hexec := (Exec.start (M := saver texts) ⟨rfl, rfl⟩).snoc hput
  have hexec := hexec.snoc (a := .putWrites config question "ask") rfl
  refine ⟨_, _, hexec, rfl, checkpoints_restored texts _ _ hexec ?_⟩
  intro e he
  rcases List.mem_cons.mp he with rfl | he
  · intro scope id _ _ channel value hlast
    have hwritten : channel ∈ question.map Prod.fst := by
      rw [← lastOf_isSome, hlast]
      rfl
    exact .inl hwritten
  · obtain rfl := List.mem_singleton.mp he
    intro scope _
    rfl

def calls : List (SaverCall String) :=
  [.put started "1f0a" "loop", .putWrites config question "ask",
    .putWrites config [("__resume__", "yes")] "ask"]

def unanswered (es : List (SaverEvent String String)) (s : SaverStore String) : Bool :=
  (lastPut texts es { text := "tenant" } key).isSome &&
    lastWrite es { text := "tenant" } key "ask" "__resume__" == some "yes" &&
    match texts.agetTuple s config with
    | .ok (some t) => t.pending "ask" "__resume__" == none
    | _ => false

/-- **Answer lost**: the value that a task is resumed with takes the place of its
    interrupt, and is dropped. -/
theorem answer_lost : ∃ es s, Exec (saver texts) es s ∧ unanswered es s = true ∧
    ¬ Restores texts es s := by
  obtain ⟨es, s, hexec, hlost⟩ :=
    Machine.exec_of_runs (M := saver texts) (s := {}) ⟨rfl, rfl⟩
      (show (saver texts).runs {} calls unanswered = true by decide +kernel)
  refine ⟨es, s, hexec, hlost, ?_⟩
  intro hrestores
  unfold unanswered at hlost
  simp only [Bool.and_eq_true, beq_iff_eq] at hlost
  obtain ⟨⟨hput, hwrite⟩, hpending⟩ := hlost
  obtain ⟨t, ht, hrestored⟩ := (hrestores config _ rfl).1 "1f0a"
    ⟨Option.isSome_iff_ne_none.mp hput, rfl⟩
  rw [ht] at hpending
  have hnone : t.pending "ask" "__resume__" = none := by simpa using hpending
  have hvalue : lastWrite es { text := "tenant" } key "ask" "__resume__" = none :=
    (hrestored.values "ask" "__resume__").symm.trans hnone
  rw [hvalue] at hwrite
  exact absurd hwrite (by simp)

end ResumedTask

end DigitalWorker
