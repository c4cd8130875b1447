import DigitalWorker.Knowledge.LegalSources
import DigitalWorker.Knowledge.VectorIndex

/-! # Searching the indexed corpus

    The filter of a search is built from who searches, never from the question.
    The index is asked for as many hits as the question wants; those of other
    documents and those below the threshold are dropped afterwards, and nothing
    takes their place.
-/

namespace DigitalWorker.Knowledge

open Framework

/-! ## Who searches -/

/-- `AccessContext`, as far as retrieval reads it. -/
structure AccessContext extends KnowledgeContext where
  roles : List String := []
  clearance : String := "internal"

def classificationLadder : List String := ["internal", "confidential", "restricted"]

/-- `clearance_allows`: an unknown clearance reads the lowest level. -/
def clearanceAllows (clearance : String) : List String :=
  if classificationLadder.contains clearance then
    classificationLadder.take (classificationLadder.idxOf clearance + 1)
  else classificationLadder.take 1

def buildTrustedFilter (context : AccessContext) (domain : String) : TrustedSearchFilter :=
  { tenantId := context.tenantId, workspaceId := context.workspaceId, domain := domain
    allowedClassifications := clearanceAllows context.clearance
    aclPrincipals := ["user:" ++ context.principalId.text, "tenant:*"] ++
      (context.roles.insertionSort (· ≤ ·)).map ("role:" ++ ·) }

/-! ## The question and its answer -/

/-- `SearchQuery` with the field that only the indexed corpus reads. -/
structure CorpusQuery extends SearchQuery where
  documentIds : List Uuid := []

/-- `EvidenceChunk` with the fields of `EvidenceRef` that a chunk of the corpus has. -/
structure RetrievedChunk where
  content : String
  evidenceId : Uuid
  sourceDocumentId : Uuid
  sourceVersion : String
  chunkId : Uuid
  quote : String
  relevanceScore : ℚ
  classification : String
  provenanceHash : String
  deriving DecidableEq

/-- `RerankPort.rerank`: the candidates it keeps, with their new scores. -/
abbrev Reranker := String → List (Uuid × String) → Nat → List (Uuid × ℚ)

/-- `KnowledgeGateway`, as far as a search uses it. -/
structure CorpusGateway where
  embed : String → List ℚ
  /-- `_cosine`. -/
  similarity : List ℚ → List ℚ → ℚ
  reranker : Option Reranker := none
  rerankFetchMultiplier : Nat := 4

section

variable (gateway : CorpusGateway) (index : InMemoryIndex) (query : CorpusQuery)
  (context : AccessContext)

/-- `EvidenceChunk(…)` of a hit and the score it counts with. -/
def VectorHit.evidence (hit : VectorHit) (score : ℚ) (evidenceId : Uuid) : RetrievedChunk :=
  { content := hit.content, evidenceId := evidenceId, sourceDocumentId := hit.documentId
    sourceVersion := hit.sourceVersion, chunkId := hit.chunkId, quote := take hit.content 280
    relevanceScore := max 0 (min 1 score), classification := hit.classification
    provenanceHash := hit.provenanceHash }

/-- The last loop of `search`: identifiers are drawn for what is kept. -/
def evidenceOf (newId : Nat → Uuid) (minRelevance : ℚ) (scored : List (VectorHit × ℚ)) :
    List RetrievedChunk :=
  (scored.filter (fun s => decide (minRelevance ≤ s.2))).zipIdx.map (fun s =>
    s.1.1.evidence s.1.2 (newId s.2))

def fetched (fetchK : Nat) : List VectorHit :=
  let hits := index.search gateway.similarity (gateway.embed query.text)
    (buildTrustedFilter context query.domain) fetchK
  if query.documentIds.isEmpty then hits
  else hits.filter (fun h => query.documentIds.contains h.documentId)

def scoredHits : List (VectorHit × ℚ) :=
  match gateway.reranker with
  | some rerank =>
    -- more is fetched than wanted, for the reranker to choose from
    let hits := fetched gateway index query context (query.topK * gateway.rerankFetchMultiplier)
    if hits.isEmpty then []
    else
      let ranked := rerank query.text (hits.map (fun h => (h.chunkId, h.content))) query.topK
      ranked.filterMap (fun r => (hits.reverse.find? (fun h => h.chunkId == r.1)).map (fun h =>
        (h, ((ranked.reverse.find? (fun s => s.1 == r.1)).map (·.2)).getD h.score)))
  | none =>
    ((fetched gateway index query context query.topK).take query.topK).map (fun h => (h, h.score))

/-- `KnowledgeGateway.search`. -/
def searchCorpus (newId : Nat → Uuid) : List RetrievedChunk :=
  evidenceOf newId query.minRelevance (scoredHits gateway index query context)

/-! ## The property -/

def visibleHits : List VectorHit :=
  (index.visible (buildTrustedFilter context query.domain)).map (fun chunk : IndexableChunk =>
    chunk.hit (gateway.similarity (gateway.embed query.text) chunk.vector))

def wantedHit (h : VectorHit) : Bool :=
  query.documentIds.contains h.documentId && decide (query.minRelevance ≤ h.score)

/-- The answer is the evidence of some `top_k` best wanted hits. -/
def ReturnsBest (newId : Nat → Uuid) : Prop :=
  ∃ chosen, searchCorpus gateway index query context newId =
      evidenceOf newId query.minRelevance (chosen.map (fun h => (h, h.score))) ∧
    Best VectorHit.score query.topK
      ((visibleHits gateway index query context).filter (wantedHit query)) chosen

end

section

variable {gateway : CorpusGateway} {index : InMemoryIndex} {query : CorpusQuery}
  {context : AccessContext} {newId : Nat → Uuid}

theorem visibleHits_ids :
    ((visibleHits gateway index query context).map (·.chunkId)).Nodup := by
  unfold visibleHits
  rw [List.map_map]
  have hkeys : (index.chunks.map (·.2)).map (·.chunkId) = keys index.chunks := by
    rw [List.map_map]
    exact List.map_congr_left (fun e he => index.keyed.2 e he)
  have hall : ((index.chunks.map (·.2)).map (·.chunkId)).Nodup := by
    rw [hkeys]
    exact index.keyed.1
  exact hall.sublist (List.filter_sublist.map _)

/-- Dropping what does not reach the threshold before the last loop or in it. -/
theorem evidenceOf_filter (minRelevance : ℚ) (hits : List VectorHit) :
    evidenceOf newId minRelevance (hits.map (fun h => (h, h.score))) =
      evidenceOf newId minRelevance
        ((hits.filter (fun h => decide (minRelevance ≤ h.score))).map (fun h => (h, h.score))) := by
  unfold evidenceOf
  rw [List.filter_map, List.filter_map, List.filter_filter]
  simp only [Function.comp_def, Bool.and_self]

/-- Without a reranker the answer is what is wanted of the best `top_k` of all. -/
theorem searchCorpus_eq (hplain : gateway.reranker = none) (hdocs : query.documentIds ≠ []) :
    searchCorpus gateway index query context newId = evidenceOf newId query.minRelevance
      ((((ranked VectorHit.score (visibleHits gateway index query context)).take
        query.topK).filter (wantedHit query)).map (fun h => (h, h.score))) := by
  unfold searchCorpus scoredHits
  rw [hplain]
  dsimp only
  have hfetched : fetched gateway index query context query.topK =
      ((ranked VectorHit.score (visibleHits gateway index query context)).take
        query.topK).filter (fun h => query.documentIds.contains h.documentId) := by
    unfold fetched
    rw [if_neg (by simpa using hdocs)]
    rfl
  have hshort : (fetched gateway index query context query.topK).length ≤ query.topK := by
    rw [hfetched]
    exact (List.length_filter_le _ _).trans (List.length_take_le _ _)
  -- the second cut has nothing left to cut
  rw [List.take_of_length_le hshort, evidenceOf_filter, hfetched, List.filter_filter]
  congr 3
  funext h
  exact Bool.and_comm _ _

theorem evidenceOf_ids {minRelevance : ℚ} {hits : List VectorHit}
    (hreach : ∀ h ∈ hits, minRelevance ≤ h.score) :
    (evidenceOf newId minRelevance (hits.map (fun h => (h, h.score)))).map (·.chunkId) =
      hits.map (·.chunkId) := by
  unfold evidenceOf
  rw [List.filter_eq_self.mpr (by
    intro s hs
    obtain ⟨h, hh, rfl⟩ := List.mem_map.mp hs
    exact decide_eq_true (hreach h hh)), List.map_map]
  have hfirst : ∀ (scored : List (VectorHit × ℚ)) (n : Nat),
      (scored.zipIdx n).map (fun s => s.1.1.chunkId) = scored.map (fun s => s.1.chunkId) := by
    intro scored
    induction scored with
    | nil => exact fun _ => rfl
    | cons s scored ih =>
      intro n
      rw [List.zipIdx_cons, List.map_cons, List.map_cons, ih]
  have hids := hfirst (hits.map (fun h => (h, h.score))) 0
  rw [List.map_map] at hids
  exact hids

theorem eq_of_map_eq {α β : Type} {f : α → β} {all xs ys : List α} (hnodup : (all.map f).Nodup)
    (hxs : ∀ x ∈ xs, x ∈ all) (hys : ∀ y ∈ ys, y ∈ all) (h : xs.map f = ys.map f) : xs = ys := by
  induction xs generalizing ys with
  | nil =>
    rw [List.map_nil] at h
    exact (List.map_eq_nil_iff.mp h.symm).symm
  | cons x xs ih =>
    cases ys with
    | nil => cases h
    | cons y ys =>
      rw [List.map_cons, List.map_cons, List.cons.injEq] at h
      have hxy : x = y := List.inj_on_of_nodup_map hnodup (hxs x List.mem_cons_self)
        (hys y List.mem_cons_self) h.1
      rw [hxy, ih (fun z hz => hxs z (List.mem_cons_of_mem _ hz))
        (fun z hz => hys z (List.mem_cons_of_mem _ hz)) h.2]

theorem visibleHits_nodup : (visibleHits gateway index query context).Nodup :=
  visibleHits_ids.of_map _

theorem returnsBest_iff_hits (hplain : gateway.reranker = none) (hdocs : query.documentIds ≠ []) :
    ReturnsBest gateway index query context newId ↔
      Best VectorHit.score query.topK
        ((visibleHits gateway index query context).filter (wantedHit query))
        (((ranked VectorHit.score (visibleHits gateway index query context)).take
          query.topK).filter (wantedHit query)) := by
  have hids := @visibleHits_ids gateway index query context
  constructor
  · intro ⟨chosen, hanswer, hbest⟩
    rw [searchCorpus_eq hplain hdocs] at hanswer
    obtain ⟨rest, hperm, -⟩ := hbest.rest
    have hchosen : ∀ h ∈ chosen, h ∈ (visibleHits gateway index query context).filter
        (wantedHit query) := by
      intro h hh
      exact hperm.mem_iff.mp (List.mem_append_left _ hh)
    have hfound : ∀ h ∈ ((ranked VectorHit.score (visibleHits gateway index query context)).take
        query.topK).filter (wantedHit query),
        h ∈ (visibleHits gateway index query context).filter (wantedHit query) := by
      intro h hh
      obtain ⟨hmem, hwanted⟩ := List.mem_filter.mp hh
      exact List.mem_filter.mpr ⟨mem_ranked.mp (List.mem_of_mem_take hmem), hwanted⟩
    have hreach : ∀ h ∈ (visibleHits gateway index query context).filter (wantedHit query),
        query.minRelevance ≤ h.score := by
      intro h hh
      have hwanted := (List.mem_filter.mp hh).2
      rw [wantedHit, Bool.and_eq_true, decide_eq_true_eq] at hwanted
      exact hwanted.2
    -- the answer names its chunks, so the two lists are one
    have hsame := congrArg (List.map RetrievedChunk.chunkId) hanswer
    rw [evidenceOf_ids (fun h hh => hreach h (hfound h hh)),
      evidenceOf_ids (fun h hh => hreach h (hchosen h hh))] at hsame
    rw [eq_of_map_eq hids (fun h hh => (List.mem_filter.mp (hfound h hh)).1)
      (fun h hh => (List.mem_filter.mp (hchosen h hh)).1) hsame]
    exact hbest
  · intro hbest
    exact ⟨_, searchCorpus_eq hplain hdocs, hbest⟩

/-- **Restricted search**: it returns the best of the documents asked for exactly
    when their best chunks have room among the best `top_k` of all that the caller
    may see. -/
theorem returns_best_iff (hplain : gateway.reranker = none) (hdocs : query.documentIds ≠ []) :
    ReturnsBest gateway index query context newId ↔
      HasRoom VectorHit.score query.topK (wantedHit query)
        (visibleHits gateway index query context) := by
  rw [returnsBest_iff_hits hplain hdocs, best_iff visibleHits_nodup]

end

/-! ## Two chunks -/

namespace Sample

def alice : Uuid := { text := "alice" }

def lease : Uuid := { text := "lease" }

def manual : Uuid := { text := "manual" }

def chunkOf (chunkId documentId : Uuid) (vector : List ℚ) : IndexableChunk :=
  { chunkId := chunkId, documentId := documentId, tenantId := alice, workspaceId := alice
    domain := "shared", content := "text", classification := "internal", sourceVersion := "1"
    indexVersion := indexVersion, provenanceHash := "", aclPrincipals := ["tenant:*"]
    vector := vector }

def twoChunks : InMemoryIndex :=
  InMemoryIndex.empty.upsert
    [chunkOf { text := "c1" } lease [3 / 5, 4 / 5],
      chunkOf { text := "c2" } manual [4 / 5, 3 / 5]]

/-- All vectors here have length one, so their product is their cosine. -/
def plainGateway : CorpusGateway :=
  { embed := fun _ => [1, 0], similarity := fun a b => (List.zipWith (· * ·) a b).sum }

def reader : AccessContext := { tenantId := alice, workspaceId := alice, principalId := alice }

def inLease (topK : Nat) (h : 1 ≤ topK ∧ topK ≤ 50) : CorpusQuery :=
  { text := "rent", topK := topK, topK_bounds := h, documentIds := [lease] }

end Sample

open Sample

/-- With two hits asked for, the lease has room. -/
theorem lease_has_room : ReturnsBest plainGateway twoChunks (inLease 2 (by decide)) reader
    (fun _ => alice) :=
  (returns_best_iff rfl (by decide)).mpr (by decide +kernel)

/-- With one hit asked for, the manual takes the place and nothing is returned. -/
theorem crowded_out :
    searchCorpus plainGateway twoChunks (inLease 1 (by decide)) reader (fun _ => alice) = [] ∧
    (visibleHits plainGateway twoChunks (inLease 1 (by decide)) reader).filter
      (wantedHit (inLease 1 (by decide))) ≠ [] ∧
    ¬ ReturnsBest plainGateway twoChunks (inLease 1 (by decide)) reader (fun _ => alice) := by
  refine ⟨by decide +kernel, by decide +kernel, ?_⟩
  rw [returnsBest_iff_hits rfl (by decide), best_iff visibleHits_nodup]
  decide +kernel

end DigitalWorker.Knowledge
