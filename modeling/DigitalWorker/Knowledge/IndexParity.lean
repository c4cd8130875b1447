import DigitalWorker.Framework.Machine
import DigitalWorker.Knowledge.VectorIndex

/-! # One sequence of operations, two indexes

    The index in memory forgets that a document was tombstoned as soon as one of
    its chunks is indexed again; Qdrant clears the flag of that chunk alone. Both
    show the same chunks as long as every tombstoned document that is indexed
    again is indexed whole.
-/

namespace DigitalWorker.Knowledge

open Framework

/-! ## The machine -/

/-- An operation of `VectorIndexPort` that writes. -/
inductive IndexOp where
  | upsert (chunks : List IndexableChunk)
  | tombstoneDocument (documentId : Uuid)
  | deleteDocument (documentId : Uuid)

structure Indexes where
  memory : InMemoryIndex
  qdrant : QdrantIndex

namespace Indexes

def fresh : Indexes := { memory := .empty, qdrant := {} }

def apply (s : Indexes) : IndexOp → Indexes
  | .upsert chunks => { memory := s.memory.upsert chunks, qdrant := s.qdrant.upsert chunks }
  | .tombstoneDocument documentId =>
    { memory := s.memory.tombstoneDocument documentId
      qdrant := s.qdrant.tombstoneDocument documentId }
  | .deleteDocument documentId =>
    { memory := s.memory.deleteDocument documentId, qdrant := s.qdrant.deleteDocument documentId }

def SameView (s : Indexes) : Prop :=
  ∀ trusted id, id ∈ (s.memory.visible trusted).map (·.chunkId) ↔
    id ∈ (s.qdrant.visible trusted).map (·.chunkId)

/-- A tombstoned document that an `upsert` adds chunks of is indexed whole: every
    chunk of it that somebody may see is replaced. -/
def Whole (s : Indexes) : IndexOp → Prop
  | .upsert chunks => ∀ c ∈ chunks, c.documentId ∈ s.memory.tombstoned →
      ∀ e ∈ s.memory.chunks, e.2.documentId = c.documentId → e.2.aclPrincipals ≠ [] →
        e.1 ∈ chunks.map (·.chunkId)
  | _ => True

end Indexes

def indexes : Machine Indexes IndexOp where
  init := (· = Indexes.fresh)
  step s op := some (s.apply op)

/-! ## The same chunks -/

section

variable {s s' : Indexes} {op : IndexOp}

def Indexes.SamePayload (s : Indexes) : Prop :=
  s.qdrant.points.map (fun e => (e.1, e.2.chunk)) = s.memory.chunks

def Indexes.SameFlags (s : Indexes) : Prop :=
  ∀ e ∈ s.qdrant.points, e.2.chunk.aclPrincipals ≠ [] →
    (e.2.isDeleted = true ↔ e.2.chunk.documentId ∈ s.memory.tombstoned)

theorem map_setKey {κ α β : Type} [DecidableEq κ] (f : α → β) (d : List (κ × α)) (key : κ)
    (value : α) : (setKey d key value).map (fun e => (e.1, f e.2)) =
      setKey (d.map (fun e => (e.1, f e.2))) key (f value) := by
  have hkeys : keys (d.map (fun e => (e.1, f e.2))) = keys d := by
    unfold keys
    rw [List.map_map]
    rfl
  unfold setKey
  rw [hkeys]
  split
  · rw [List.map_map, List.map_map]
    apply List.map_congr_left
    intro e _
    by_cases he : e.1 = key
    · simp [he]
    · simp [he]
  · rw [List.map_append]
    rfl

theorem memory_upsert_chunks (index : InMemoryIndex) (chunks : List IndexableChunk) :
    (index.upsert chunks).chunks =
      chunks.foldl (fun d chunk => setKey d chunk.chunkId chunk) index.chunks := by
  unfold InMemoryIndex.upsert
  induction chunks generalizing index with
  | nil => rfl
  | cons c chunks ih => exact ih (index.put c)

theorem memory_upsert_tombstoned (index : InMemoryIndex) (chunks : List IndexableChunk)
    (documentId : Uuid) : documentId ∈ (index.upsert chunks).tombstoned ↔
      documentId ∈ index.tombstoned ∧ ∀ c ∈ chunks, documentId ≠ c.documentId := by
  unfold InMemoryIndex.upsert
  induction chunks generalizing index with
  | nil => simp
  | cons c chunks ih =>
    rw [List.foldl_cons, ih (index.put c), List.forall_mem_cons]
    simp only [InMemoryIndex.put, List.mem_filter, decide_eq_true_eq, ne_eq]
    exact and_assoc

/-- The points after an `upsert`: new ones without a flag, and old ones that no
    chunk replaced. -/
theorem mem_qdrant_upsert {index : QdrantIndex} {chunks : List IndexableChunk}
    {e : Uuid × Point} (he : e ∈ (index.upsert chunks).points) :
    (∃ c ∈ chunks, e.2.chunk = c ∧ e.2.isDeleted = false) ∨
      (e ∈ index.points ∧ e.1 ∉ chunks.map (·.chunkId)) := by
  unfold QdrantIndex.upsert at he
  dsimp only at he
  generalize index.points = points at he ⊢
  induction chunks generalizing points with
  | nil => exact .inr ⟨he, List.not_mem_nil⟩
  | cons c chunks ih =>
    rw [List.foldl_cons] at he
    rcases ih _ he with ⟨c', hc', hnew⟩ | ⟨hold, hkept⟩
    · exact .inl ⟨c', List.mem_cons_of_mem _ hc', hnew⟩
    · rcases mem_setKey hold with rfl | ⟨hne, hold⟩
      · exact .inl ⟨c, List.mem_cons_self, rfl, rfl⟩
      · refine .inr ⟨hold, ?_⟩
        rw [List.map_cons, List.mem_cons, not_or]
        exact ⟨hne, hkept⟩

theorem qdrant_upsert_keeps {index : QdrantIndex} {chunks : List IndexableChunk}
    {e : Uuid × Point} (he : e ∈ index.points) (hkept : e.1 ∉ chunks.map (·.chunkId)) :
    e ∈ (index.upsert chunks).points := by
  unfold QdrantIndex.upsert
  dsimp only
  generalize index.points = points at he ⊢
  induction chunks generalizing points with
  | nil => exact he
  | cons c chunks ih =>
    rw [List.map_cons, List.mem_cons, not_or] at hkept
    rw [List.foldl_cons]
    exact ih hkept.2 _ (mem_setKey_of_ne he hkept.1)

theorem apply_payload (h : s.SamePayload) : (s.apply op).SamePayload := by
  unfold Indexes.SamePayload at h ⊢
  cases op with
  | upsert chunks =>
    show (s.qdrant.upsert chunks).points.map _ = (s.memory.upsert chunks).chunks
    rw [memory_upsert_chunks, ← h]
    unfold QdrantIndex.upsert
    dsimp only
    generalize s.qdrant.points = points
    induction chunks generalizing points with
    | nil => rfl
    | cons c chunks ih =>
      rw [List.foldl_cons, List.foldl_cons, ih, map_setKey Point.chunk]
  | tombstoneDocument documentId =>
    show (s.qdrant.tombstoneDocument documentId).points.map _ = s.memory.chunks
    rw [← h]
    unfold QdrantIndex.tombstoneDocument
    rw [List.map_map]
    apply List.map_congr_left
    intro e _
    rw [Function.comp_apply]
    split <;> rfl
  | deleteDocument documentId =>
    show (s.qdrant.deleteDocument documentId).points.map _ =
      (s.memory.deleteDocument documentId).chunks
    unfold QdrantIndex.deleteDocument InMemoryIndex.deleteDocument
    dsimp only
    rw [← h, List.filter_map]
    rfl

theorem mem_chunks_iff (h : s.SamePayload) {id : Uuid} {chunk : IndexableChunk} :
    (id, chunk) ∈ s.memory.chunks ↔ ∃ p, (id, p) ∈ s.qdrant.points ∧ p.chunk = chunk := by
  rw [← h, List.mem_map]
  constructor
  · rintro ⟨⟨id', p⟩, hp, heq⟩
    obtain ⟨rfl, rfl⟩ := Prod.mk.inj heq
    exact ⟨p, hp, rfl⟩
  · rintro ⟨p, hp, rfl⟩
    exact ⟨(id, p), hp, rfl⟩

theorem admits_acl {trusted : TrustedSearchFilter} {chunk : IndexableChunk}
    (h : trusted.admits chunk = true) : chunk.aclPrincipals ≠ [] := by
  intro hnil
  simp [TrustedSearchFilter.admits, hnil] at h

def filterFor (chunk : IndexableChunk) : TrustedSearchFilter :=
  { tenantId := chunk.tenantId, workspaceId := chunk.workspaceId, domain := chunk.domain
    allowedClassifications := [chunk.classification], aclPrincipals := chunk.aclPrincipals }

theorem filterFor_admits {chunk : IndexableChunk} (h : chunk.aclPrincipals ≠ []) :
    (filterFor chunk).admits chunk = true := by
  obtain ⟨name, rest, hacl⟩ := List.exists_cons_of_ne_nil h
  simp [TrustedSearchFilter.admits, TrustedSearchFilter.owns, filterFor, hacl]

theorem memory_shows {trusted : TrustedSearchFilter} {id : Uuid} :
    id ∈ (s.memory.visible trusted).map (·.chunkId) ↔ ∃ chunk, (id, chunk) ∈ s.memory.chunks ∧
      chunk.documentId ∉ s.memory.tombstoned ∧ trusted.admits chunk = true := by
  unfold InMemoryIndex.visible
  rw [List.mem_map]
  constructor
  · rintro ⟨chunk, hchunk, rfl⟩
    obtain ⟨hmem, htest⟩ := List.mem_filter.mp hchunk
    obtain ⟨e, he, rfl⟩ := List.mem_map.mp hmem
    rw [Bool.and_eq_true] at htest
    refine ⟨e.2, ?_, by simpa using htest.1, htest.2⟩
    rw [s.memory.keyed.2 e he]
    exact he
  · rintro ⟨chunk, hchunk, hlive, hadmits⟩
    refine ⟨chunk, List.mem_filter.mpr ⟨List.mem_map.mpr ⟨_, hchunk, rfl⟩, ?_⟩,
      s.memory.keyed.2 _ hchunk⟩
    rw [Bool.and_eq_true]
    exact ⟨by simpa using hlive, hadmits⟩

theorem qdrant_shows (h : s.SamePayload) {trusted : TrustedSearchFilter} {id : Uuid} :
    id ∈ (s.qdrant.visible trusted).map (·.chunkId) ↔ ∃ p, (id, p) ∈ s.qdrant.points ∧
      p.isDeleted = false ∧ trusted.admits p.chunk = true := by
  have hkey : ∀ e ∈ s.qdrant.points, e.2.chunk.chunkId = e.1 := by
    intro e he
    exact s.memory.keyed.2 (e.1, e.2.chunk) ((mem_chunks_iff h).mpr ⟨e.2, he, rfl⟩)
  unfold QdrantIndex.visible
  rw [List.map_map, List.mem_map]
  constructor
  · rintro ⟨p, hp, rfl⟩
    obtain ⟨hmem, htest⟩ := List.mem_filter.mp hp
    obtain ⟨e, he, rfl⟩ := List.mem_map.mp hmem
    rw [Bool.and_eq_true, Bool.not_eq_true'] at htest
    refine ⟨e.2, ?_, htest⟩
    rw [Function.comp_apply, hkey e he]
    exact he
  · rintro ⟨p, hp, htest⟩
    refine ⟨p, List.mem_filter.mpr ⟨List.mem_map.mpr ⟨_, hp, rfl⟩, ?_⟩, hkey _ hp⟩
    rw [Bool.and_eq_true, Bool.not_eq_true']
    exact htest

theorem point_unique (h : s.SamePayload) {e : Uuid × Point} (he : e ∈ s.qdrant.points) {p : Point}
    (hp : (e.1, p) ∈ s.qdrant.points) : p = e.2 := by
  have hkeys : (s.qdrant.points.map (·.1)).Nodup := by
    have hnodup := s.memory.keyed.1
    rw [← h, keys, List.map_map] at hnodup
    exact hnodup
  exact congrArg Prod.snd (List.inj_on_of_nodup_map hkeys hp he rfl)

theorem sameView_iff (h : s.SamePayload) : s.SameView ↔ s.SameFlags := by
  constructor
  · intro hview e he hacl
    have hboth := hview (filterFor e.2.chunk) e.1
    rw [memory_shows, qdrant_shows h] at hboth
    have hadmits := filterFor_admits hacl
    have hmemory : (∃ chunk, (e.1, chunk) ∈ s.memory.chunks ∧
        chunk.documentId ∉ s.memory.tombstoned ∧ (filterFor e.2.chunk).admits chunk = true) ↔
        e.2.chunk.documentId ∉ s.memory.tombstoned := by
      constructor
      · rintro ⟨chunk, hchunk, hlive, -⟩
        obtain ⟨p, hp, rfl⟩ := (mem_chunks_iff h).mp hchunk
        rw [← point_unique h he hp]
        exact hlive
      · intro hlive
        exact ⟨e.2.chunk, (mem_chunks_iff h).mpr ⟨e.2, he, rfl⟩, hlive, hadmits⟩
    have hqdrant : (∃ p, (e.1, p) ∈ s.qdrant.points ∧ p.isDeleted = false ∧
        (filterFor e.2.chunk).admits p.chunk = true) ↔ e.2.isDeleted = false := by
      constructor
      · rintro ⟨p, hp, hlive, -⟩
        rw [← point_unique h he hp]
        exact hlive
      · exact fun hlive => ⟨e.2, he, hlive, hadmits⟩
    rw [hmemory, hqdrant] at hboth
    rw [← not_iff_not, Bool.not_eq_true]
    exact hboth.symm
  · intro hflags trusted id
    rw [memory_shows, qdrant_shows h]
    constructor
    · rintro ⟨chunk, hchunk, hlive, hadmits⟩
      obtain ⟨p, hp, rfl⟩ := (mem_chunks_iff h).mp hchunk
      refine ⟨p, hp, ?_, hadmits⟩
      by_contra hdeleted
      exact hlive ((hflags _ hp (admits_acl hadmits)).mp (by simpa using hdeleted))
    · rintro ⟨p, hp, hlive, hadmits⟩
      refine ⟨p.chunk, (mem_chunks_iff h).mpr ⟨p, hp, rfl⟩, ?_, hadmits⟩
      intro htomb
      have hdeleted := (hflags _ hp (admits_acl hadmits)).mpr htomb
      rw [hlive] at hdeleted
      cases hdeleted

/-- **Step**: from indexes that agree, an operation leads to ones that agree exactly
    when it indexes whole documents. -/
theorem apply_flags (hpayload : s.SamePayload) (hflags : s.SameFlags) :
    (s.apply op).SameFlags ↔ s.Whole op := by
  cases op with
  | upsert chunks =>
    have htomb := fun documentId => memory_upsert_tombstoned s.memory chunks documentId
    constructor
    · intro hafter c hc hdead e he hdoc hacl
      by_contra hkept
      -- the chunk that was left out keeps its flag and loses its tombstone
      obtain ⟨p, hp, hchunk⟩ := (mem_chunks_iff hpayload).mp (show (e.1, e.2) ∈ _ from he)
      have hstays : (e.1, p) ∈ (s.qdrant.upsert chunks).points := qdrant_upsert_keeps hp hkept
      rw [← hchunk] at hdoc hacl
      have hflag : p.isDeleted = true := (hflags _ hp hacl).mpr (by rw [hdoc]; exact hdead)
      have hstill := (htomb _).mp ((hafter _ hstays hacl).mp hflag)
      exact hstill.2 c hc hdoc
    · intro hwhole e he hacl
      show e.2.isDeleted = true ↔ e.2.chunk.documentId ∈ (s.memory.upsert chunks).tombstoned
      rw [htomb]
      rcases mem_qdrant_upsert he with ⟨c, hc, hchunk, hflag⟩ | ⟨hold, hkept⟩
      · rw [hflag, hchunk]
        exact iff_of_false Bool.false_ne_true (fun h => h.2 c hc rfl)
      · rw [hflags e hold hacl]
        constructor
        · intro hdead
          refine ⟨hdead, fun c hc hdoc => hkept ?_⟩
          exact hwhole c hc (hdoc ▸ hdead) (e.1, e.2.chunk)
            ((mem_chunks_iff hpayload).mpr ⟨e.2, hold, rfl⟩) hdoc hacl
        · exact And.left
  | tombstoneDocument documentId =>
    refine iff_of_true ?_ trivial
    intro e he hacl
    obtain ⟨e', he', rfl⟩ := List.mem_map.mp he
    show _ ↔ _ ∈ documentId :: s.memory.tombstoned
    by_cases hdoc : e'.2.chunk.documentId = documentId
    · rw [if_pos hdoc]
      exact iff_of_true rfl (by rw [hdoc]; exact List.mem_cons_self)
    · rw [if_neg hdoc] at hacl ⊢
      rw [List.mem_cons, or_iff_right hdoc]
      exact hflags e' he' hacl
  | deleteDocument documentId =>
    refine iff_of_true ?_ trivial
    intro e he hacl
    obtain ⟨hold, hdoc⟩ := List.mem_filter.mp he
    show _ ↔ _ ∈ s.memory.tombstoned.filter (· ≠ documentId)
    rw [List.mem_filter, hflags e hold hacl]
    exact (and_iff_left hdoc).symm

/-! ## Runs -/

variable {es : List (Event Indexes IndexOp)}

theorem exec_payload (h : Exec indexes es s) : s.SamePayload := by
  induction h with
  | start hinit =>
    rw [hinit]
    rfl
  | snoc _ hstep ih =>
    obtain rfl := Option.some.inj hstep
    exact apply_payload ih

theorem exec_flags (h : Exec indexes es s) (hwhole : ∀ e ∈ es, e.pre.Whole e.act) :
    s.SameFlags := by
  induction h with
  | start hinit =>
    rw [hinit]
    intro e he
    cases he
  | snoc h hstep ih =>
    obtain rfl := Option.some.inj hstep
    have hprev := ih (fun e he => hwhole e (List.mem_cons_of_mem _ he))
    exact (apply_flags (exec_payload h) hprev).mpr (hwhole _ List.mem_cons_self)

/-- **Parity**: the two indexes show the same chunks after every step of a run exactly
    when every step of it indexes whole documents. -/
theorem same_view_iff (h : Exec indexes es s) :
    (∀ e ∈ es, e.post.SameView) ↔ ∀ e ∈ es, e.pre.Whole e.act := by
  induction h with
  | start _ => simp
  | @snoc es s s' op h hstep ih =>
    have hpayload := exec_payload (Exec.snoc h hstep)
    obtain rfl := Option.some.inj hstep
    rw [List.forall_mem_cons, List.forall_mem_cons, ih]
    apply and_congr_left
    intro hwhole
    show (s.apply op).SameView ↔ s.Whole op
    rw [sameView_iff hpayload]
    exact apply_flags (exec_payload h) (exec_flags h hwhole)

end

/-! ## Half a document -/

namespace Sample

def handbook : Uuid := { text := "handbook" }

def page (chunkId : Uuid) : IndexableChunk :=
  { chunkId := chunkId, documentId := handbook, tenantId := handbook, workspaceId := handbook
    domain := "shared", content := "text", classification := "internal", sourceVersion := "1"
    indexVersion := indexVersion, provenanceHash := "", aclPrincipals := ["tenant:*"]
    vector := [1] }

def firstPage : IndexableChunk := page { text := "p1" }

def secondPage : IndexableChunk := page { text := "p2" }

def halfAgain : Indexes :=
  ((Indexes.fresh.apply (.upsert [firstPage, secondPage])).apply
    (.tombstoneDocument handbook)).apply (.upsert [firstPage])

end Sample

open Sample

/-- A document indexed as a whole. -/
theorem whole_handbook : (Indexes.fresh.apply (.upsert [firstPage])).SameView := by
  have hparity := (same_view_iff (.snoc (.start rfl) rfl)).mpr (by
    intro e he
    obtain rfl := List.mem_singleton.mp he
    show Indexes.fresh.Whole (.upsert [firstPage])
    intro c _ hdead
    cases hdead)
  exact hparity _ List.mem_cons_self

/-- The page left out is shown in memory and not by Qdrant. -/
theorem half_a_document :
    (∃ es, Exec indexes es halfAgain) ∧
    secondPage.chunkId ∈ (halfAgain.memory.visible (filterFor secondPage)).map (·.chunkId) ∧
    secondPage.chunkId ∉ (halfAgain.qdrant.visible (filterFor secondPage)).map (·.chunkId) ∧
    ¬ halfAgain.SameView := by
  have hmemory : secondPage.chunkId ∈
      (halfAgain.memory.visible (filterFor secondPage)).map (·.chunkId) := by decide +kernel
  have hqdrant : secondPage.chunkId ∉
      (halfAgain.qdrant.visible (filterFor secondPage)).map (·.chunkId) := by decide +kernel
  refine ⟨⟨_, .snoc (.snoc (.snoc (.start rfl) rfl) rfl) rfl⟩, hmemory, hqdrant, ?_⟩
  intro hview
  exact hqdrant ((hview _ _).mp hmemory)

end DigitalWorker.Knowledge
