import Mathlib.Algebra.Order.Field.Rat
import DigitalWorker.Framework.Dicts
import DigitalWorker.Framework.Ranking
import DigitalWorker.Knowledge.Gateway

/-! # Two vector indexes

    The index of the tests keeps its chunks in a dictionary and the tombstoned
    documents in a set beside it; the index of production keeps with every point
    whether it is deleted. Both answer a search with the chunks a trusted filter
    lets through.
-/

namespace DigitalWorker.Knowledge

open Framework

/-! ## Chunks and filters -/

structure IndexableChunk where
  chunkId : Uuid
  documentId : Uuid
  tenantId : Uuid
  workspaceId : Uuid
  domain : String
  content : String
  classification : String
  sourceVersion : String
  indexVersion : String
  provenanceHash : String
  aclPrincipals : List String
  vector : List ℚ
  sectionPath : String := ""
  seq : Nat := 0
  scope : String := "tenant"
  deriving DecidableEq

structure TrustedSearchFilter where
  tenantId : Uuid
  workspaceId : Uuid
  domain : String
  allowedClassifications : List String
  aclPrincipals : List String
  deriving DecidableEq

structure VectorHit where
  chunkId : Uuid
  documentId : Uuid
  score : ℚ
  content : String
  classification : String
  sourceVersion : String
  provenanceHash : String
  deriving DecidableEq

namespace TrustedSearchFilter

variable (trusted : TrustedSearchFilter) (chunk : IndexableChunk)

def owns : Bool :=
  (chunk.tenantId == trusted.tenantId && chunk.workspaceId == trusted.workspaceId) ||
    chunk.scope == "global"

/-- What a filter lets through: the tests of `InMemoryVectorIndexAdapter.search`, and
    the `must` and `should` conditions of the Qdrant query. -/
def admits : Bool :=
  trusted.owns chunk && trusted.allowedClassifications.contains chunk.classification &&
    chunk.aclPrincipals.any trusted.aclPrincipals.contains &&
    (trusted.domain == "shared" || chunk.domain == trusted.domain || chunk.domain == "shared")

end TrustedSearchFilter

/-- `VectorHit(…)` of a chunk. -/
def IndexableChunk.hit (chunk : IndexableChunk) (score : ℚ) : VectorHit :=
  { chunkId := chunk.chunkId, documentId := chunk.documentId, score := score
    content := chunk.content, classification := chunk.classification
    sourceVersion := chunk.sourceVersion, provenanceHash := chunk.provenanceHash }

/-- `InMemoryVectorIndexAdapter`: every chunk is kept under its own identifier. -/
structure InMemoryIndex where
  chunks : List (Uuid × IndexableChunk) := []
  tombstoned : List Uuid := []
  keyed : (keys chunks).Nodup ∧ ∀ e ∈ chunks, e.2.chunkId = e.1

namespace InMemoryIndex

def empty : InMemoryIndex :=
  { chunks := [], tombstoned := [], keyed := ⟨List.nodup_nil, fun _ he => by cases he⟩ }

variable (index : InMemoryIndex)

/-- One chunk of an `upsert`: it reactivates its document. -/
def put (chunk : IndexableChunk) : InMemoryIndex :=
  { chunks := setKey index.chunks chunk.chunkId chunk
    tombstoned := index.tombstoned.filter (· ≠ chunk.documentId)
    keyed := by
      refine ⟨setKey_nodup index.keyed.1, fun e he => ?_⟩
      rcases mem_setKey he with rfl | ⟨-, hold⟩
      · rfl
      · exact index.keyed.2 e hold }

def upsert (chunks : List IndexableChunk) : InMemoryIndex := chunks.foldl put index

def deleteDocument (documentId : Uuid) : InMemoryIndex :=
  { chunks := index.chunks.filter (fun e => e.2.documentId ≠ documentId)
    tombstoned := index.tombstoned.filter (· ≠ documentId)
    keyed := ⟨index.keyed.1.sublist (List.filter_sublist.map _), fun e he =>
      index.keyed.2 e (List.mem_filter.mp he).1⟩ }

def tombstoneDocument (documentId : Uuid) : InMemoryIndex :=
  { index with tombstoned := documentId :: index.tombstoned }

def visible (trusted : TrustedSearchFilter) : List IndexableChunk :=
  (index.chunks.map (·.2)).filter (fun chunk =>
    !index.tombstoned.contains chunk.documentId && trusted.admits chunk)

/-- `search`: the best hits first; `similarity` is the cosine of two vectors. -/
def search (similarity : List ℚ → List ℚ → ℚ) (vector : List ℚ) (trusted : TrustedSearchFilter)
    (topK : Nat) : List VectorHit :=
  (ranked VectorHit.score ((index.visible trusted).map (fun chunk : IndexableChunk =>
    chunk.hit (similarity vector chunk.vector)))).take topK

end InMemoryIndex

/-! ## Qdrant -/

/-- A point: the payload, and its flag `is_deleted`. -/
structure Point where
  chunk : IndexableChunk
  isDeleted : Bool := false
  deriving DecidableEq

/-- The collection of `QdrantVectorIndexAdapter`, its points under their
    identifiers. -/
structure QdrantIndex where
  points : List (Uuid × Point) := []

namespace QdrantIndex

variable (index : QdrantIndex)

/-- `upsert`: a point of the same identifier is replaced, flag and all. -/
def upsert (chunks : List IndexableChunk) : QdrantIndex :=
  { points := chunks.foldl (fun points chunk => setKey points chunk.chunkId { chunk := chunk })
      index.points }

def deleteDocument (documentId : Uuid) : QdrantIndex :=
  { points := index.points.filter (fun e => e.2.chunk.documentId ≠ documentId) }

/-- `tombstone_document`: the flag of every point of the document is set. -/
def tombstoneDocument (documentId : Uuid) : QdrantIndex :=
  { points := index.points.map (fun e =>
      if e.2.chunk.documentId = documentId then (e.1, { e.2 with isDeleted := true }) else e) }

def visible (trusted : TrustedSearchFilter) : List IndexableChunk :=
  ((index.points.map (·.2)).filter (fun p =>
    !p.isDeleted && trusted.admits p.chunk)).map (·.chunk)

end QdrantIndex

end DigitalWorker.Knowledge
