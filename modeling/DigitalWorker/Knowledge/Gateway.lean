import Mathlib.Data.Rat.Init
import DigitalWorker.Knowledge.Identity

/-! # Ingesting documents

    The knowledge plane keeps a document three times: its bytes in object
    storage, its rows and chunks in the database, and a point for each chunk in
    the vector index. `ingest_document` writes them one after the other, and
    only the database part is a transaction; whatever raises leaves what was
    written before.
-/

namespace DigitalWorker.Knowledge

/-! ## What is stored -/

/-- Who ingests, as far as the knowledge plane looks. -/
structure KnowledgeContext where
  tenantId : Uuid
  workspaceId : Uuid
  principalId : Uuid
  deriving DecidableEq

structure LeafChunk where
  seq : Nat
  sectionIndex : Nat
  sectionPath : String
  startOffset : Nat
  endOffset : Nat
  content : String
  deriving DecidableEq

def LeafChunk.contextualText (leaf : LeafChunk) : String :=
  if leaf.sectionPath = "" then leaf.content else "[" ++ leaf.sectionPath ++ "]\n" ++ leaf.content

inductive DocumentStatus where
  | active
  | superseded
  | deleted
  deriving DecidableEq

/-- A row of `knowledge.documents`. -/
structure DocumentRow where
  id : Uuid
  tenantId : Uuid
  workspaceId : Uuid
  title : String
  domain : String
  sourceUri : String
  classification : String
  sourceVersion : String
  indexVersion : Option String
  createdBy : Uuid
  createdAt : DateTime
  docKey : Option Uuid
  status : DocumentStatus := .active
  isCurrent : Bool := true
  effectiveFrom : Option DateTime := none
  effectiveTo : Option DateTime := none
  supersededBy : Option Uuid := none
  deletedAt : Option DateTime := none
  deletedBy : Option Uuid := none
  scope : String := "tenant"
  deriving DecidableEq

/-- A row of `knowledge.chunks`. -/
structure ChunkRow where
  id : Uuid
  tenantId : Uuid
  workspaceId : Uuid
  documentId : Uuid
  leaf : LeafChunk
  provenanceHash : String
  status : DocumentStatus := .active
  deletedAt : Option DateTime := none
  deriving DecidableEq

/-- A point of the vector index: `IndexableChunk`, and whether its document was
    tombstoned. -/
structure IndexPoint where
  chunkId : Uuid
  documentId : Uuid
  tenantId : Uuid
  workspaceId : Uuid
  domain : String
  leaf : LeafChunk
  classification : String
  sourceVersion : String
  indexVersion : String
  provenanceHash : String
  aclPrincipals : List String
  vector : List ℚ
  scope : String
  isDeleted : Bool := false
  deriving DecidableEq

structure Library where
  objects : String → Option String := fun _ => none
  documents : List DocumentRow := []
  chunks : List ChunkRow := []
  points : List IndexPoint := []

structure Gateway where
  uuid5 : String → Uuid
  sha256 : String → String
  /-- `structure_aware_chunks(text).chunks`. -/
  structureAwareChunks : String → List LeafChunk
  embed : String → List ℚ
  /-- The URI `put_object` answers with. -/
  uriOf : String → String

def indexVersion : String := "2026-07-25.structure-1"

structure IngestDocumentCommand where
  title : String
  content : String
  domain : String := "shared"
  classification : String := "internal"
  sourceVersion : String := "1"
  scope : String := "tenant"
  titled : title ≠ ""
  filled : content ≠ ""

structure IngestedDocument where
  documentId : Uuid
  chunkCount : Nat
  storageKey : String
  deriving DecidableEq

/-- The steps of an ingestion that can raise. -/
inductive IngestPoint where
  | ensureReady
  | objectStorage
  | database
  | tombstone
  | deleteVectors
  | embedding
  | upsert
  deriving DecidableEq

structure IngestInput where
  now : DateTime := 0
  faults : IngestPoint → Option Error := fun _ => none

section

variable (gateway : Gateway) (command : IngestDocumentCommand) (context : KnowledgeContext)

def IngestDocumentCommand.documentId : Uuid :=
  documentIdFor gateway.uuid5 context.tenantId context.workspaceId command.domain command.title
    command.sourceVersion command.scope

def IngestDocumentCommand.docKey : Uuid :=
  docKeyFor gateway.uuid5 context.tenantId context.workspaceId command.domain command.title
    command.scope

def storageKeyFor (documentId : Uuid) : String :=
  context.tenantId.text ++ "/" ++ context.workspaceId.text ++ "/documents/" ++ documentId.text

def DocumentRow.writable (r : DocumentRow) : Bool := r.tenantId == context.tenantId

def supersedes (r : DocumentRow) : Bool :=
  r.writable context && r.docKey == some (command.docKey gateway context) && r.isCurrent &&
    r.id != command.documentId gateway context

def supersedeRow (now : DateTime) (r : DocumentRow) : DocumentRow :=
  if supersedes gateway command context r then
    { r with
      isCurrent := false, status := .superseded, effectiveTo := some now
      supersededBy := some (command.documentId gateway context) }
  else r

def newRow (now : DateTime) : DocumentRow :=
  { id := command.documentId gateway context
    tenantId := context.tenantId, workspaceId := context.workspaceId
    title := command.title, domain := command.domain
    sourceUri := gateway.uriOf (storageKeyFor context (command.documentId gateway context))
    classification := command.classification, sourceVersion := command.sourceVersion
    indexVersion := some indexVersion, createdBy := context.principalId, createdAt := now
    docKey := some (command.docKey gateway context), effectiveFrom := some now
    scope := command.scope }

def reactivated (r : DocumentRow) : DocumentRow :=
  { r with
    title := command.title, indexVersion := some indexVersion
    classification := command.classification, scope := command.scope
    status := .active, isCurrent := true, effectiveTo := none, deletedAt := none
    deletedBy := none }

def upsertRow (now : DateTime) (rows : List DocumentRow) : Except Error (List DocumentRow) :=
  let id := command.documentId gateway context
  match rows.find? (fun r => r.id == id) with
  | none => .ok (rows ++ [newRow gateway command context now])
  | some r =>
    if r.writable context then
      .ok (rows.map (fun r => if r.id = id then reactivated command r else r))
    else .error { kind := .infrastructure, message := "row-level security" }

def leavesOf : List LeafChunk := gateway.structureAwareChunks command.content

def newChunk (leaf : LeafChunk) : ChunkRow :=
  { id := chunkIdFor gateway.uuid5 (command.documentId gateway context) indexVersion leaf.seq
    tenantId := context.tenantId, workspaceId := context.workspaceId
    documentId := command.documentId gateway context, leaf := leaf
    provenanceHash := gateway.sha256 leaf.content }

def ChunkRow.isOf (documentId : Uuid) (c : ChunkRow) : Bool :=
  c.tenantId == context.tenantId && c.documentId == documentId

def markChunk (superseded : List Uuid) (c : ChunkRow) : ChunkRow :=
  if c.tenantId = context.tenantId ∧ c.documentId ∈ superseded then
    { c with status := .superseded }
  else c

def replaceChunks (superseded : List Uuid) (rows : List ChunkRow) : List ChunkRow :=
  (rows.map (markChunk context superseded)).filter
      (fun c => !c.isOf context (command.documentId gateway context)) ++
    (leavesOf gateway command).map (newChunk gateway command context)

def supersededIds (lib : Library) : List Uuid :=
  (lib.documents.filter (supersedes gateway command context)).map (·.id)

def recordVersion (now : DateTime) (lib : Library) : Except Error Library := do
  let documents ← upsertRow gateway command context now
    (lib.documents.map (supersedeRow gateway command context now))
  return { lib with
    documents := documents
    chunks := replaceChunks gateway command context (supersededIds gateway command context lib)
      lib.chunks }

def newPoint (leaf : LeafChunk) : IndexPoint :=
  { chunkId := chunkIdFor gateway.uuid5 (command.documentId gateway context) indexVersion leaf.seq
    documentId := command.documentId gateway context
    tenantId := context.tenantId, workspaceId := context.workspaceId
    domain := command.domain, leaf := leaf, classification := command.classification
    sourceVersion := command.sourceVersion, indexVersion := indexVersion
    provenanceHash := gateway.sha256 leaf.content, aclPrincipals := ["tenant:*"]
    vector := gateway.embed leaf.contextualText, scope := command.scope }

end

/-! ## The three stores, one after the other -/

namespace Library

/-- `put_object`: an object of the same key is overwritten. -/
def putObject (lib : Library) (key content : String) : Library :=
  { lib with objects := fun k => if k = key then some content else lib.objects k }

/-- `tombstone_document`. -/
def tombstone (lib : Library) (documentId : Uuid) : Library :=
  { lib with points := lib.points.map (fun p =>
      if p.documentId = documentId then { p with isDeleted := true } else p) }

/-- `delete_document`. -/
def deletePoints (lib : Library) (documentId : Uuid) : Library :=
  { lib with points := lib.points.filter (fun p => p.documentId != documentId) }

/-- `upsert`: a point of the same chunk is replaced. -/
def upsertPoints (lib : Library) (points : List IndexPoint) : Library :=
  { lib with points := lib.points.filter (fun p =>
      !(points.any (fun q => q.chunkId == p.chunkId))) ++ points }

end Library

section

variable (gateway : Gateway) (command : IngestDocumentCommand) (context : KnowledgeContext)

def reindex (superseded : List Uuid) (inp : IngestInput) (lib : Library) :
    Library × Except Error Unit :=
  match if superseded.isEmpty then none else inp.faults .tombstone with
  | some e => (lib, .error e)
  | none =>
    let lib := superseded.foldl Library.tombstone lib
    match inp.faults .deleteVectors with
    | some e => (lib, .error e)
    | none =>
      let lib := lib.deletePoints (command.documentId gateway context)
      let leaves := leavesOf gateway command
      if leaves.isEmpty then (lib, .ok ())
      else
        match inp.faults .embedding, inp.faults .upsert with
        | some e, _ | none, some e => (lib, .error e)
        | none, none => (lib.upsertPoints (leaves.map (newPoint gateway command context)), .ok ())

def ingestDocument (inp : IngestInput) (lib : Library) :
    Library × Except Error IngestedDocument :=
  let id := command.documentId gateway context
  let key := storageKeyFor context id
  match inp.faults .ensureReady, inp.faults .objectStorage with
  | some e, _ | none, some e => (lib, .error e)
  | none, none =>
    let stored := lib.putObject key command.content
    match inp.faults .database with
    | some e => (stored, .error e)
    | none =>
      match recordVersion gateway command context inp.now stored with
      | .error e => (stored, .error e)
      | .ok recorded =>
        let superseded := supersededIds gateway command context lib
        match reindex gateway command context superseded inp recorded with
        | (indexed, .error e) => (indexed, .error e)
        | (indexed, .ok ()) =>
          (indexed, .ok
            { documentId := id, chunkCount := (leavesOf gateway command).length
              storageKey := key })

end

/-- The stores hold `text` under `id`: its row is the current one, its bytes are
    in storage, and its chunks are those of the text. -/
structure Holds (gateway : Gateway) (context : KnowledgeContext) (lib : Library) (id : Uuid)
    (text : String) : Prop where
  row : ∃ r, lib.documents.find? (fun r => r.id == id) = some r ∧ r.status = .active ∧
    r.isCurrent = true
  object : lib.objects (storageKeyFor context id) = some text
  chunks : (lib.chunks.filter (·.isOf context id)).map (fun c => (c.leaf, c.status)) =
    (gateway.structureAwareChunks text).map (fun leaf => (leaf, .active))

variable {gateway : Gateway} {command : IngestDocumentCommand} {context : KnowledgeContext}
  {inp : IngestInput} {lib recorded : Library} {id : Uuid} {text : String}

theorem storageKeyFor_inj {id id' : Uuid} :
    storageKeyFor context id = storageKeyFor context id' ↔ id = id' := by
  constructor
  · intro h
    have hlist := congrArg String.toList h
    simp only [storageKeyFor, String.toList_append, List.append_cancel_left_eq] at hlist
    cases id
    cases id'
    simpa using String.toList_inj.mp hlist
  · exact congrArg _

theorem Holds.of_points (h : Holds gateway context lib id text) (points : List IndexPoint) :
    Holds gateway context { lib with points := points } id text :=
  ⟨h.row, h.object, h.chunks⟩

theorem reindex_points (superseded : List Uuid) : ∃ points,
    (reindex gateway command context superseded inp lib).1 = { lib with points := points } := by
  have hfold : ∀ (ids : List Uuid) (l : Library), ∃ points,
      ids.foldl Library.tombstone l = { l with points := points } := by
    intro ids
    induction ids with
    | nil => exact fun l => ⟨l.points, rfl⟩
    | cons i ids ih =>
      intro l
      obtain ⟨points, hpoints⟩ := ih (l.tombstone i)
      exact ⟨points, hpoints⟩
  obtain ⟨points, hpoints⟩ := hfold superseded lib
  unfold reindex
  split
  · exact ⟨lib.points, rfl⟩
  · split
    · exact ⟨points, hpoints⟩
    · simp only [hpoints]
      split
      · exact ⟨_, rfl⟩
      · split <;> exact ⟨_, rfl⟩

/-- **What an ingestion can leave**: nothing written, the bytes alone, or bytes
    and rows; one that returns got to the end. -/
theorem ingest_cases (gateway : Gateway) (command : IngestDocumentCommand)
    (context : KnowledgeContext) (inp : IngestInput) (lib : Library) :
    let key := storageKeyFor context (command.documentId gateway context)
    let result := ingestDocument gateway command context inp lib
    (result.1 = lib ∧ ∃ e, result.2 = .error e) ∨
    (result.1 = lib.putObject key command.content ∧ ∃ e, result.2 = .error e) ∨
    ∃ recorded points, recordVersion gateway command context inp.now
        (lib.putObject key command.content) = .ok recorded ∧
      result.1 = { recorded with points := points } ∧
      ∀ d, result.2 = .ok d → d.documentId = command.documentId gateway context := by
  intro key result
  simp only [result, ingestDocument]
  split
  · exact .inl ⟨rfl, _, rfl⟩
  · exact .inl ⟨rfl, _, rfl⟩
  · split
    · exact .inr (.inl ⟨rfl, _, rfl⟩)
    · split
      · exact .inr (.inl ⟨rfl, _, rfl⟩)
      · next recorded hrecorded =>
        obtain ⟨points, hpoints⟩ := @reindex_points gateway command context inp recorded
          (supersededIds gateway command context lib)
        right; right
        split
        · next indexed e hindexed =>
          refine ⟨recorded, points, hrecorded, ?_, fun d hd => by cases hd⟩
          rw [hindexed] at hpoints
          exact hpoints
        · next indexed hindexed =>
          refine ⟨recorded, points, hrecorded, ?_, ?_⟩
          · rw [hindexed] at hpoints
            exact hpoints
          · intro d hd
            obtain rfl := Except.ok.inj hd
            rfl

/-! ### The transaction -/

theorem supersedeRow_id (now : DateTime) (r : DocumentRow) :
    (supersedeRow gateway command context now r).id = r.id := by
  unfold supersedeRow
  split <;> rfl

theorem find_supersedeRow {rows : List DocumentRow} {now : DateTime}
    (hkeep : ∀ r ∈ rows, r.id = id → supersedes gateway command context r = false) :
    (rows.map (supersedeRow gateway command context now)).find? (fun r => r.id == id) =
      rows.find? (fun r => r.id == id) := by
  induction rows with
  | nil => rfl
  | cons r rows ih =>
    have htail := ih (fun q hq => hkeep q (List.mem_cons_of_mem r hq))
    rw [List.map_cons, List.find?_cons, List.find?_cons, supersedeRow_id, htail]
    by_cases hr : r.id = id
    · have hsame : supersedeRow gateway command context now r = r := by
        simp [supersedeRow, hkeep r List.mem_cons_self hr]
      rw [hsame]
    · have hne : (r.id == id) = false := by simpa using hr
      rw [hne]

theorem upsertRow_current {rows rows' : List DocumentRow} {now : DateTime}
    (h : upsertRow gateway command context now rows = .ok rows') :
    ∃ r, rows'.find? (fun r => r.id == command.documentId gateway context) = some r ∧
      r.status = .active ∧ r.isCurrent = true := by
  simp only [upsertRow] at h
  split at h
  · next hnone =>
    obtain rfl := Except.ok.inj h
    refine ⟨newRow gateway command context now, ?_, rfl, rfl⟩
    rw [List.find?_append, hnone]
    simp [newRow]
  · next r hr =>
    split at h
    · obtain rfl := Except.ok.inj h
      have hid : r.id = command.documentId gateway context := by simpa using List.find?_some hr
      refine ⟨reactivated command r, ?_, rfl, rfl⟩
      have hpred : ((fun r : DocumentRow => r.id == command.documentId gateway context) ∘ fun r =>
          if r.id = command.documentId gateway context then reactivated command r else r) =
          fun r => r.id == command.documentId gateway context := by
        funext q
        by_cases hq : q.id = command.documentId gateway context <;> simp [hq, reactivated]
      rw [List.find?_map, hpred, hr, Option.map_some, if_pos hid]
    · cases h

theorem upsertRow_other {rows rows' : List DocumentRow} {now : DateTime}
    (h : upsertRow gateway command context now rows = .ok rows')
    (hne : id ≠ command.documentId gateway context) :
    rows'.find? (fun r => r.id == id) = rows.find? (fun r => r.id == id) := by
  simp only [upsertRow] at h
  split at h
  · obtain rfl := Except.ok.inj h
    have hnew : ((newRow gateway command context now).id == id) = false := by
      simpa [newRow] using Ne.symm hne
    rw [List.find?_append]
    simp [hnew]
  · split at h
    · obtain rfl := Except.ok.inj h
      have hpred : ((fun r : DocumentRow => r.id == id) ∘ fun r =>
          if r.id = command.documentId gateway context then reactivated command r else r) =
          fun r => r.id == id := by
        funext q
        by_cases hq : q.id = command.documentId gateway context <;> simp [hq, reactivated]
      rw [List.find?_map, hpred]
      cases hfind : rows.find? (fun r => r.id == id) with
      | none => rfl
      | some r =>
        have hid : r.id = id := by simpa using List.find?_some hfind
        simp [hid, hne]
    · cases h

theorem recordVersion_ok {now : DateTime}
    (h : recordVersion gateway command context now lib = .ok recorded) :
    ∃ rows, upsertRow gateway command context now
        (lib.documents.map (supersedeRow gateway command context now)) = .ok rows ∧
      recorded = { lib with
        documents := rows
        chunks := replaceChunks gateway command context
          (supersededIds gateway command context lib) lib.chunks } := by
  rw [recordVersion, bind_ok] at h
  obtain ⟨rows, hrows, h⟩ := h
  exact ⟨rows, hrows, (Except.ok.inj h).symm⟩

theorem markChunk_isOf (superseded : List Uuid) (c : ChunkRow) :
    (markChunk context superseded c).isOf context id = c.isOf context id := by
  unfold markChunk
  split <;> rfl

theorem newChunk_isOf (leaf : LeafChunk) : (newChunk gateway command context leaf).isOf context id =
    (command.documentId gateway context == id) := by
  simp [newChunk, ChunkRow.isOf]

theorem replaceChunks_self (superseded : List Uuid) (rows : List ChunkRow) :
    (replaceChunks gateway command context superseded rows).filter
        (·.isOf context (command.documentId gateway context)) =
      (leavesOf gateway command).map (newChunk gateway command context) := by
  rw [replaceChunks, List.filter_append, List.filter_filter]
  have hold : ∀ c : ChunkRow, (c.isOf context (command.documentId gateway context) &&
      !c.isOf context (command.documentId gateway context)) = false := by
    intro c
    simp
  simp only [hold, List.filter_false, List.nil_append, List.filter_eq_self, List.mem_map]
  rintro c ⟨leaf, _, rfl⟩
  simp [newChunk_isOf]

theorem replaceChunks_other {superseded : List Uuid} (rows : List ChunkRow)
    (hne : id ≠ command.documentId gateway context) (hnot : id ∉ superseded) :
    (replaceChunks gateway command context superseded rows).filter (·.isOf context id) =
      rows.filter (·.isOf context id) := by
  have hnew : ((leavesOf gateway command).map (newChunk gateway command context)).filter
      (·.isOf context id) = [] := by
    rw [List.filter_eq_nil_iff]
    intro c hc
    obtain ⟨leaf, _, rfl⟩ := List.mem_map.mp hc
    simp [newChunk_isOf, Ne.symm hne]
  rw [replaceChunks, List.filter_append, hnew, List.append_nil, List.filter_filter]
  induction rows with
  | nil => rfl
  | cons c rows ih =>
    rw [List.map_cons, List.filter_cons, List.filter_cons, markChunk_isOf, markChunk_isOf, ih]
    by_cases hc : c.isOf context id = true
    · have hdocument : c.documentId = id := by
        simp only [ChunkRow.isOf, Bool.and_eq_true, beq_iff_eq] at hc
        exact hc.2
      have hother : c.isOf context (command.documentId gateway context) = false := by
        simp [ChunkRow.isOf, hdocument, hne]
      have hsame : markChunk context superseded c = c := by
        simp [markChunk, hdocument, hnot]
      simp [hc, hother, hsame]
    · simp [hc]

/-! ### The whole ingestion -/

/-- **Recording**: the transaction makes the stores hold the text whose bytes are
    in storage. -/
theorem recordVersion_holds {now : DateTime}
    (h : recordVersion gateway command context now lib = .ok recorded)
    (hobject : lib.objects (storageKeyFor context (command.documentId gateway context)) =
      some command.content) :
    Holds gateway context recorded (command.documentId gateway context) command.content := by
  obtain ⟨rows, hrows, rfl⟩ := recordVersion_ok h
  refine ⟨upsertRow_current hrows, hobject, ?_⟩
  show ((replaceChunks gateway command context _ lib.chunks).filter _).map _ = _
  rw [replaceChunks_self, List.map_map]
  rfl

/-- **Frame**: what the stores hold under another identifier stays, unless the
    transaction supersedes it. -/
theorem recordVersion_keeps {now : DateTime}
    (h : recordVersion gateway command context now lib = .ok recorded)
    (hne : id ≠ command.documentId gateway context)
    (hkeep : ∀ r ∈ lib.documents, r.id = id → supersedes gateway command context r = false)
    (hheld : Holds gateway context lib id text) : Holds gateway context recorded id text := by
  obtain ⟨rows, hrows, rfl⟩ := recordVersion_ok h
  have hnot : id ∉ supersededIds gateway command context lib := by
    intro hmem
    obtain ⟨r, hr, hid⟩ := List.mem_map.mp hmem
    obtain ⟨hr, hsup⟩ := List.mem_filter.mp hr
    rw [hkeep r hr hid] at hsup
    cases hsup
  refine ⟨?_, hheld.object, ?_⟩
  · obtain ⟨r, hr, hactive⟩ := hheld.row
    refine ⟨r, ?_, hactive⟩
    show rows.find? _ = _
    rw [upsertRow_other hrows hne, find_supersedeRow hkeep, hr]
  · show ((replaceChunks gateway command context _ lib.chunks).filter _).map _ = _
    rw [replaceChunks_other lib.chunks hne hnot]
    exact hheld.chunks

/-- **Ingestion**: one that returns leaves its text under the identifier it
    returns. -/
theorem ingest_holds {lib' : Library} {d : IngestedDocument}
    (h : ingestDocument gateway command context inp lib = (lib', .ok d)) :
    d.documentId = command.documentId gateway context ∧
      Holds gateway context lib' (command.documentId gateway context) command.content := by
  rcases ingest_cases gateway command context inp lib with ⟨_, e, he⟩ | ⟨_, e, he⟩ |
    ⟨recorded, points, hrecorded, hlib, hreturned⟩
  · rw [h] at he
    cases he
  · rw [h] at he
    cases he
  · rw [h] at hlib hreturned
    refine ⟨hreturned d rfl, ?_⟩
    rw [show lib' = _ from hlib]
    exact (recordVersion_holds hrecorded (if_pos rfl)).of_points points

/-- **Frame of an ingestion**, whether it returns or raises: what is held under an
    identifier stays held, if it is the same text or another document that is
    not superseded. -/
theorem ingest_keeps (hheld : Holds gateway context lib id text)
    (hsame : id = command.documentId gateway context → text = command.content)
    (hkeep : id ≠ command.documentId gateway context → ∀ r ∈ lib.documents, r.id = id →
      supersedes gateway command context r = false) :
    Holds gateway context (ingestDocument gateway command context inp lib).1 id text := by
  have hstored : Holds gateway context (lib.putObject
      (storageKeyFor context (command.documentId gateway context)) command.content) id text := by
    refine ⟨hheld.row, ?_, hheld.chunks⟩
    show (if _ then _ else _) = _
    split
    · next hkey => rw [hsame (storageKeyFor_inj.mp hkey)]
    · exact hheld.object
  rcases ingest_cases gateway command context inp lib with ⟨hlib, _⟩ | ⟨hlib, _⟩ |
    ⟨recorded, points, hrecorded, hlib, _⟩
  · rw [hlib]
    exact hheld
  · rw [hlib]
    exact hstored
  · rw [hlib]
    apply Holds.of_points
    by_cases hid : id = command.documentId gateway context
    · rw [hid, hsame hid]
      exact recordVersion_holds hrecorded (if_pos rfl)
    · exact recordVersion_keeps hrecorded hid (hkeep hid) hstored

theorem recordVersion_rows {now : DateTime}
    (h : recordVersion gateway command context now lib = .ok recorded) {r' : DocumentRow}
    (hr' : r' ∈ recorded.documents) :
    (∃ r ∈ lib.documents, r'.id = r.id ∧ r'.docKey = r.docKey) ∨
      (r'.id = command.documentId gateway context ∧
        r'.docKey = some (command.docKey gateway context)) := by
  obtain ⟨rows, hrows, rfl⟩ := recordVersion_ok h
  have hmarked : ∀ r ∈ lib.documents.map (supersedeRow gateway command context now),
      ∃ r₀ ∈ lib.documents, r.id = r₀.id ∧ r.docKey = r₀.docKey := by
    intro r hr
    obtain ⟨r₀, hr₀, rfl⟩ := List.mem_map.mp hr
    refine ⟨r₀, hr₀, supersedeRow_id now r₀, ?_⟩
    unfold supersedeRow
    split <;> rfl
  simp only [upsertRow] at hrows
  split at hrows
  · obtain rfl := Except.ok.inj hrows
    rcases List.mem_append.mp hr' with hold | hnew
    · exact .inl (hmarked r' hold)
    · obtain rfl := List.mem_singleton.mp hnew
      exact .inr ⟨rfl, rfl⟩
  · split at hrows
    · obtain rfl := Except.ok.inj hrows
      obtain ⟨r, hr, rfl⟩ := List.mem_map.mp hr'
      obtain ⟨r₀, hr₀, hid, hkey⟩ := hmarked r hr
      refine .inl ⟨r₀, hr₀, ?_⟩
      split
      · exact ⟨hid, hkey⟩
      · exact ⟨hid, hkey⟩
    · cases hrows

theorem ingest_rows {r' : DocumentRow}
    (hr' : r' ∈ (ingestDocument gateway command context inp lib).1.documents) :
    (∃ r ∈ lib.documents, r'.id = r.id ∧ r'.docKey = r.docKey) ∨
      (r'.id = command.documentId gateway context ∧
        r'.docKey = some (command.docKey gateway context)) := by
  rcases ingest_cases gateway command context inp lib with ⟨hlib, _⟩ | ⟨hlib, _⟩ |
    ⟨recorded, points, hrecorded, hlib, _⟩
  · rw [hlib] at hr'
    exact .inl ⟨r', hr', rfl, rfl⟩
  · rw [hlib] at hr'
    exact .inl ⟨r', hr', rfl, rfl⟩
  · rw [hlib] at hr'
    exact recordVersion_rows hrecorded hr'

end DigitalWorker.Knowledge
