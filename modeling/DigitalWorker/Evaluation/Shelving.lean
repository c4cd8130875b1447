import DigitalWorker.Evaluation.Bidders
import DigitalWorker.Framework.Machine
import DigitalWorker.Framework.Sessions

/-! # Tender documents on the shelves of the knowledge plane

    The cases of one workspace ingest their documents, several runs at a time and
    each case as often as it is analysed; a run that raises begins its loop anew.
    A tender document has an identifier of its own, but on the shelf it stands
    under its title. The unit of interleaving is the ingestion of one document.
-/

namespace DigitalWorker.Evaluation

open Framework Knowledge

/-! ## The machine -/

/-- A run between the beginning of the loop and its commit. -/
structure Ingestion where
  rc : RunContext
  caseId : Uuid
  /-- `state["document_meta"]`, which a retry starts from. -/
  before : List DocumentMeta
  done : List DocumentMeta := []
  todo : List DocumentMeta

inductive IngestionPhase where
  | running (i : Ingestion)
  | committed

structure Shelf where
  documents : List TenderDocument
  library : Library
  sessions : Sessions IngestionPhase := fun _ => none
  /-- The cases whose step was committed by some run. -/
  committed : List Uuid := []

inductive ShelfAction where
  | start (c : Nat) (rc : RunContext) (caseId : Uuid)
  /-- One turn of the loop. -/
  | ingest (c : Nat) (inp : IngestInput)
  /-- An exception outside the turns; the node runs again from its beginning. -/
  | retry (c : Nat)
  /-- `uow.commit()` after the loop. -/
  | commit (c : Nat)

def metasOf (documents : List TenderDocument) (caseId : Uuid) : List DocumentMeta :=
  (documents.filter (fun d => d.caseId == caseId)).map TenderDocument.toMeta

namespace Shelf

-- the text extracted from each document
variable (svc : TenderServices) (texts : Uuid → String) (s : Shelf)

def start (c : Nat) (rc : RunContext) (caseId : Uuid) : Option Shelf :=
  if (s.sessions c).isSome then none
  else
    let metas := metasOf s.documents caseId
    some { s with sessions :=
      s.sessions.put c (.running { rc := rc, caseId := caseId, before := metas, todo := metas }) }

def running (c : Nat) : Option Ingestion :=
  match s.sessions c with
  | some (.running i) => some i
  | _ => none

def afterTurn (i : Ingestion) (rest : List DocumentMeta) : Except Error DocumentMeta → Ingestion
  | .ok m => { i with done := i.done ++ [m], todo := rest }
  | .error _ => { i with done := [], todo := i.before }

def ingest (c : Nat) (inp : IngestInput) : Option Shelf :=
  match s.running c with
  | none => none
  | some i =>
    match i.todo with
    | [] => none
    | m :: rest =>
      let turn := classifyDocument svc i.rc (texts m.id) inp m s.library
      some { s with
        library := turn.1
        sessions := s.sessions.put c (.running (afterTurn i rest turn.2)) }

def retry (c : Nat) : Option Shelf :=
  (s.running c).map (fun i =>
    { s with sessions := s.sessions.put c (.running { i with done := [], todo := i.before }) })

def commit (c : Nat) : Option Shelf :=
  match s.running c with
  | none => none
  | some i =>
    if i.todo.isEmpty then some { s with
      documents := linkDocuments i.before i.done s.documents
      sessions := s.sessions.put c .committed
      committed := i.caseId :: s.committed }
    else none

def step : ShelfAction → Option Shelf
  | .start c rc caseId => s.start c rc caseId
  | .ingest c inp => s.ingest svc texts c inp
  | .retry c => s.retry c
  | .commit c => s.commit c

end Shelf

section

variable (svc : TenderServices) (texts : Uuid → String) (documents : List TenderDocument)

def TenderServices.knowledgeId (title : String) : Uuid :=
  documentIdFor svc.gateway.uuid5 svc.tenantId svc.workspaceId "tender" title "1" "tenant"

def TenderServices.knowledgeKey (title : String) : Uuid :=
  docKeyFor svc.gateway.uuid5 svc.tenantId svc.workspaceId "tender" title "tenant"

def namesHashed : Set String :=
  { name | ∃ d ∈ documents,
    name = documentName svc.tenantId svc.workspaceId "tender" d.title "1" "tenant" ∨
    name = docKeyName svc.tenantId svc.workspaceId "tender" d.title "tenant" }

def KeysFit (library : Library) : Prop :=
  ∀ d ∈ documents, ∀ r ∈ library.documents, r.id = svc.knowledgeId d.title →
    r.docKey = none ∨ r.docKey = some (svc.knowledgeKey d.title)

def shelving : Machine Shelf ShelfAction where
  init s := s.documents = documents ∧ (documents.map (·.id)).Nodup ∧
    (∀ d ∈ documents, d.knowledgeDocumentId = none) ∧ KeysFit svc documents s.library ∧
    (∀ c, s.sessions c = none) ∧ s.committed = []
  step := Shelf.step svc texts

end

/-! ## The property and the condition -/

def TenderServices.HoldsText (svc : TenderServices) (library : Library) (id : Uuid)
    (text : String) : Prop :=
  ∀ rc, Holds svc.gateway (svc.knowledgeContext rc) library id text

structure KeepsIdentity (svc : TenderServices) (texts : Uuid → String) (s : Shelf) : Prop where
  linked : ∀ d ∈ s.documents, ∃ k, d.knowledgeDocumentId = some k ∧
    svc.HoldsText s.library k (texts d.id)
  apart : ∀ d ∈ s.documents, ∀ d' ∈ s.documents, texts d.id ≠ texts d'.id →
    d.knowledgeDocumentId ≠ d'.knowledgeDocumentId

/-- **The condition**, on the documents as they were uploaded: no text is empty,
    and documents whose titles are the same but for space around them have the
    same text. -/
structure TitlesTell (texts : Uuid → String) (documents : List TenderDocument) : Prop where
  filled : ∀ d ∈ documents, texts d.id ≠ ""
  told : ∀ d ∈ documents, ∀ d' ∈ documents, strip d.title = strip d'.title →
    texts d.id = texts d'.id

/-! ## Links -/

section

variable {svc : TenderServices} {texts : Uuid → String} {documents : List TenderDocument}
  {s s' : Shelf}

def TenderServices.linkOf (svc : TenderServices) (texts : Uuid → String) (id : Uuid)
    (title : String) : Option Uuid :=
  if texts id = "" then none else some (svc.knowledgeId title)

def TenderServices.linked (svc : TenderServices) (texts : Uuid → String) (m : DocumentMeta) :
    DocumentMeta :=
  { m with knowledgeDocumentId := svc.linkOf texts m.id m.title }

/-- **One turn**: the document gets its link, and its text is on the shelf. -/
theorem classifyDocument_ok {rc : RunContext} {inp : IngestInput} {m m' : DocumentMeta}
    {lib lib' : Library} (hnone : m.knowledgeDocumentId = none)
    (h : classifyDocument svc rc (texts m.id) inp m lib = (lib', .ok m')) :
    m' = svc.linked texts m ∧
      (texts m.id ≠ "" → svc.HoldsText lib' (svc.knowledgeId m.title) (texts m.id)) := by
  unfold classifyDocument at h
  rw [hnone, if_neg (by simp)] at h
  split at h
  · next hempty =>
    obtain rfl := Except.ok.inj (Prod.mk.inj h).2
    refine ⟨?_, fun hne => absurd hempty hne⟩
    rw [TenderServices.linked, TenderServices.linkOf, if_pos hempty, ← hnone]
  · next hfilled =>
    split at h
    · cases (Prod.mk.inj h).2
    · next htitled =>
      simp only at h
      split at h
      · cases (Prod.mk.inj h).2
      · next lib₁ d hingested =>
        obtain ⟨rfl, hm⟩ := Prod.mk.inj h
        obtain rfl := Except.ok.inj hm
        obtain ⟨hid, hholds⟩ := ingest_holds hingested
        refine ⟨?_, fun _ rc' => ⟨hholds.row, hholds.object, hholds.chunks⟩⟩
        rw [TenderServices.linked, TenderServices.linkOf, if_neg hfilled, hid]
        rfl

def TenderDocument.unlinked (d : TenderDocument) : TenderDocument :=
  { d with knowledgeDocumentId := none }

def TenderServices.relinked (svc : TenderServices) (texts : Uuid → String) (caseId : Uuid)
    (d : TenderDocument) : TenderDocument :=
  if d.caseId = caseId then
    { d with knowledgeDocumentId := svc.linkOf texts d.id d.title <|> d.knowledgeDocumentId }
  else d

theorem relinked_unlinked (caseId : Uuid) (d : TenderDocument) :
    (svc.relinked texts caseId d).unlinked = d.unlinked := by
  unfold TenderServices.relinked
  split <;> rfl

theorem metasOf_unlinked (docs : List TenderDocument) (caseId : Uuid) :
    metasOf (docs.map TenderDocument.unlinked) caseId = metasOf docs caseId := by
  rw [metasOf, metasOf, List.filter_map, List.map_map]
  rfl

theorem find_metasOf (hids : (documents.map (·.id)).Nodup) {d : TenderDocument}
    (hd : d.unlinked ∈ documents) (caseId : Uuid) :
    (metasOf documents caseId).find? (fun m => m.id == d.id) =
      if d.caseId = caseId then some d.toMeta else none := by
  rw [metasOf, List.find?_map, List.find?_filter]
  generalize hfind : List.find? _ documents = found
  cases found with
  | none =>
    have hcase : d.caseId ≠ caseId := by
      intro heq
      have hnot := List.find?_eq_none.mp hfind d.unlinked hd
      exact hnot (by simp [TenderDocument.unlinked, TenderDocument.toMeta, heq])
    rw [if_neg hcase]
    rfl
  | some d' =>
    have htest := List.find?_some hfind
    simp only [decide_eq_true_eq] at htest
    obtain ⟨hcase, hid⟩ := htest
    have hsame : d' = d.unlinked :=
      List.inj_on_of_nodup_map hids (List.mem_of_find?_eq_some hfind) hd (beq_iff_eq.mp hid)
    rw [hsame] at hcase
    have hmine : d.caseId = caseId := beq_iff_eq.mp hcase
    rw [if_pos hmine, hsame]
    rfl

/-- **Commit**: the documents of the case get their links, all others stay. -/
theorem linkDocuments_eq {docs : List TenderDocument} {caseId : Uuid}
    (hsame : docs.map TenderDocument.unlinked = documents)
    (hids : (documents.map (·.id)).Nodup) :
    linkDocuments (metasOf documents caseId) ((metasOf documents caseId).map (svc.linked texts))
      docs = docs.map (svc.relinked texts caseId) := by
  apply List.map_congr_left
  intro d hd
  have hmem : d.unlinked ∈ documents := by
    rw [← hsame]
    exact List.mem_map_of_mem hd
  have hfresh : ((metasOf documents caseId).any (fun m =>
      m.id == d.id && m.knowledgeDocumentId.isSome)) = false := by
    rw [List.any_eq_false]
    intro m hm
    obtain ⟨d', _, rfl⟩ := List.mem_map.mp hm
    simp [TenderDocument.toMeta]
  have hfind : ((metasOf documents caseId).map (svc.linked texts)).find? (fun m => m.id == d.id) =
      if d.caseId = caseId then some (svc.linked texts d.toMeta) else none := by
    rw [List.find?_map]
    show Option.map _ ((metasOf documents caseId).find? (fun m => m.id == d.id)) = _
    rw [find_metasOf hids hmem]
    split <;> rfl
  rw [hfresh, hfind, TenderServices.relinked]
  by_cases hcase : d.caseId = caseId
  · rw [if_pos hcase, if_pos hcase]
    rfl
  · rw [if_neg hcase, if_neg hcase]

end

/-! ## What a step does -/

section

variable {svc : TenderServices} {texts : Uuid → String} {documents : List TenderDocument}
  {s s' : Shelf} {c d : Nat}

namespace Shelf

/-- A run at its loop, after a step that moved run `c`. -/
theorem running_put {i j : Ingestion} (hsessions : s'.sessions = s.sessions.put c (.running i))
    (h : s'.running d = some j) : (d = c ∧ j = i) ∨ s.running d = some j := by
  unfold running at h ⊢
  rw [hsessions] at h
  by_cases hd : d = c
  · subst hd
    rw [Sessions.put_self] at h
    exact .inl ⟨rfl, (Option.some.inj h).symm⟩
  · rw [Sessions.put_ne hd] at h
    exact .inr h

/-- A run at its loop, after a step that ended the loop of run `c`. -/
theorem running_committed {j : Ingestion} (hsessions : s'.sessions = s.sessions.put c .committed)
    (h : s'.running d = some j) : s.running d = some j := by
  unfold running at h ⊢
  rw [hsessions] at h
  by_cases hd : d = c
  · subst hd
    rw [Sessions.put_self] at h
    cases h
  · rw [Sessions.put_ne hd] at h
    exact h

theorem step_start {rc : RunContext} {caseId : Uuid}
    (h : step svc texts s (.start c rc caseId) = some s') :
    s' = { s with sessions := s.sessions.put c (.running
      { rc := rc, caseId := caseId, before := metasOf s.documents caseId,
        todo := metasOf s.documents caseId }) } := by
  simp only [step, start] at h
  split at h
  · cases h
  · exact (Option.some.inj h).symm

theorem step_ingest {inp : IngestInput} (h : step svc texts s (.ingest c inp) = some s') :
    ∃ i m rest lib result, s.running c = some i ∧ i.todo = m :: rest ∧
      classifyDocument svc i.rc (texts m.id) inp m s.library = (lib, result) ∧
      s' = { s with
        library := lib
        sessions := s.sessions.put c (.running (afterTurn i rest result)) } := by
  simp only [step, ingest] at h
  split at h
  · cases h
  · next i hrunning =>
    split at h
    · cases h
    · next m rest htodo =>
      exact ⟨i, m, rest, _, _, hrunning, htodo, rfl, (Option.some.inj h).symm⟩

theorem step_retry (h : step svc texts s (.retry c) = some s') :
    ∃ i, s.running c = some i ∧ s' = { s with
      sessions := s.sessions.put c (.running { i with done := [], todo := i.before }) } := by
  obtain ⟨i, hrunning, rfl⟩ := Option.map_eq_some_iff.mp h
  exact ⟨i, hrunning, rfl⟩

theorem step_commit (h : step svc texts s (.commit c) = some s') :
    ∃ i, s.running c = some i ∧ i.todo = [] ∧ s' = { s with
      documents := linkDocuments i.before i.done s.documents
      sessions := s.sessions.put c .committed
      committed := i.caseId :: s.committed } := by
  simp only [step, commit] at h
  split at h
  · cases h
  · next i hrunning =>
    split at h
    · next htodo =>
      exact ⟨i, hrunning, List.isEmpty_iff.mp htodo, (Option.some.inj h).symm⟩
    · cases h

end Shelf

/-! ## The links of a run -/

structure Linking (svc : TenderServices) (texts : Uuid → String) (documents : List TenderDocument)
    (s : Shelf) : Prop where
  uploaded : s.documents.map TenderDocument.unlinked = documents
  links : ∀ d ∈ s.documents, d.knowledgeDocumentId = none ∨
    d.knowledgeDocumentId = svc.linkOf texts d.id d.title
  through : ∀ d ∈ s.documents, d.caseId ∈ s.committed →
    d.knowledgeDocumentId = svc.linkOf texts d.id d.title
  loops : ∀ c i, s.running c = some i → i.before = metasOf documents i.caseId ∧
    ∃ passed, i.before = passed ++ i.todo ∧ i.done = passed.map (svc.linked texts)

open Shelf

theorem linking_init (h : (shelving svc texts documents).init s) :
    Linking svc texts documents s := by
  obtain ⟨rfl, _, hnone, _, hsessions, hcommitted⟩ := h
  constructor
  · have hsame : s.documents.map TenderDocument.unlinked = s.documents.map id := by
      apply List.map_congr_left
      intro d hd
      rw [TenderDocument.unlinked, ← hnone d hd]
      rfl
    rw [hsame, List.map_id]
  · exact fun d hd => .inl (hnone d hd)
  · intro d _ hd
    rw [hcommitted] at hd
    cases hd
  · intro c i hrunning
    rw [Shelf.running, hsessions c] at hrunning
    cases hrunning

theorem linking_step {a : ShelfAction} (h : Linking svc texts documents s)
    (hids : (documents.map (·.id)).Nodup) (hs : step svc texts s a = some s') :
    Linking svc texts documents s' := by
  cases a with
  | start c rc caseId =>
    obtain rfl := step_start hs
    refine ⟨h.uploaded, h.links, h.through, ?_⟩
    intro d j hj
    rcases running_put rfl hj with ⟨rfl, rfl⟩ | hold
    · refine ⟨?_, [], rfl, rfl⟩
      rw [← h.uploaded, metasOf_unlinked]
    · exact h.loops d j hold
  | ingest c inp =>
    obtain ⟨i, m, rest, lib, result, hrunning, htodo, hturn, rfl⟩ := step_ingest hs
    refine ⟨h.uploaded, h.links, h.through, ?_⟩
    obtain ⟨hbefore, passed, hpassed, hdone⟩ := h.loops c i hrunning
    intro d j hj
    rcases running_put rfl hj with ⟨rfl, rfl⟩ | hold
    · cases result with
      | error e => exact ⟨hbefore, [], rfl, rfl⟩
      | ok m' =>
        have hnone : m.knowledgeDocumentId = none := by
          have hmem : m ∈ metasOf documents i.caseId := by
            rw [← hbefore, hpassed, htodo]
            exact List.mem_append_right _ List.mem_cons_self
          obtain ⟨d, _, rfl⟩ := List.mem_map.mp hmem
          rfl
        obtain ⟨rfl, _⟩ := classifyDocument_ok hnone hturn
        refine ⟨hbefore, passed ++ [m], ?_, ?_⟩
        · rw [htodo] at hpassed
          rw [show (afterTurn i rest (.ok (svc.linked texts m))).before = i.before from rfl, hpassed]
          simp [afterTurn]
        · show i.done ++ [svc.linked texts m] = _
          rw [hdone, List.map_append]
          rfl
    · exact h.loops d j hold
  | retry c =>
    obtain ⟨i, hrunning, rfl⟩ := step_retry hs
    refine ⟨h.uploaded, h.links, h.through, ?_⟩
    obtain ⟨hbefore, _⟩ := h.loops c i hrunning
    intro d j hj
    rcases running_put rfl hj with ⟨rfl, rfl⟩ | hold
    · exact ⟨hbefore, [], rfl, rfl⟩
    · exact h.loops d j hold
  | commit c =>
    obtain ⟨i, hrunning, htodo, rfl⟩ := step_commit hs
    obtain ⟨hbefore, passed, hpassed, hdone⟩ := h.loops c i hrunning
    -- the loop is through, so every entry of the case has its link
    have hall : passed = metasOf documents i.caseId := by
      rw [← hbefore, hpassed, htodo, List.append_nil]
    have hlinked : linkDocuments i.before i.done s.documents =
        s.documents.map (svc.relinked texts i.caseId) := by
      rw [hbefore, hdone, hall]
      exact linkDocuments_eq h.uploaded hids
    simp only [hlinked]
    have hlink : ∀ d ∈ s.documents, d.caseId = i.caseId →
        (svc.relinked texts i.caseId d).knowledgeDocumentId = svc.linkOf texts d.id d.title := by
      intro d hd hmine
      rw [TenderServices.relinked, if_pos hmine]
      show (svc.linkOf texts d.id d.title <|> d.knowledgeDocumentId) = _
      rcases h.links d hd with hnone | hsame
      · rw [hnone]
        cases svc.linkOf texts d.id d.title <;> rfl
      · rw [hsame]
        cases svc.linkOf texts d.id d.title <;> rfl
    constructor
    · show (s.documents.map (svc.relinked texts i.caseId)).map TenderDocument.unlinked = documents
      rw [List.map_map, ← h.uploaded]
      apply List.map_congr_left
      intro d _
      exact relinked_unlinked i.caseId d
    · intro d' hd'
      obtain ⟨d, hd, rfl⟩ := List.mem_map.mp hd'
      by_cases hmine : d.caseId = i.caseId
      · right
        rw [hlink d hd hmine, TenderServices.relinked, if_pos hmine]
      · rw [TenderServices.relinked, if_neg hmine]
        exact h.links d hd
    · intro d' hd' hcommitted
      obtain ⟨d, hd, rfl⟩ := List.mem_map.mp hd'
      by_cases hmine : d.caseId = i.caseId
      · rw [hlink d hd hmine, TenderServices.relinked, if_pos hmine]
      · rw [TenderServices.relinked, if_neg hmine] at hcommitted ⊢
        rcases List.mem_cons.mp hcommitted with heq | hold
        · exact absurd heq hmine
        · exact h.through d hd hold
    · intro d j hj
      exact h.loops d j (running_committed rfl hj)

theorem Linking.passed (h : Linking svc texts documents s) {i : Ingestion} {m : DocumentMeta}
    (hrunning : s.running c = some i) (hm : m ∈ i.done) :
    ∃ d ∈ documents, m = svc.linked texts d.toMeta := by
  obtain ⟨hbefore, passed, hpassed, hdone⟩ := h.loops c i hrunning
  rw [hdone] at hm
  obtain ⟨m₀, hm₀, rfl⟩ := List.mem_map.mp hm
  have hmem : m₀ ∈ metasOf documents i.caseId := by
    rw [← hbefore, hpassed]
    exact List.mem_append_left _ hm₀
  obtain ⟨d, hd, rfl⟩ := List.mem_map.mp hmem
  exact ⟨d, (List.mem_filter.mp hd).1, rfl⟩

theorem Linking.next (h : Linking svc texts documents s) {i : Ingestion} {m : DocumentMeta}
    {rest : List DocumentMeta} (hrunning : s.running c = some i) (htodo : i.todo = m :: rest) :
    ∃ d ∈ documents, m = d.toMeta := by
  obtain ⟨hbefore, passed, hpassed, _⟩ := h.loops c i hrunning
  have hmem : m ∈ metasOf documents i.caseId := by
    rw [← hbefore, hpassed, htodo]
    exact List.mem_append_right _ List.mem_cons_self
  obtain ⟨d, hd, rfl⟩ := List.mem_map.mp hmem
  exact ⟨d, (List.mem_filter.mp hd).1, rfl⟩

end

/-! ## The texts on the shelf -/

section

variable {svc : TenderServices} {texts : Uuid → String} {documents : List TenderDocument}
  {s s' : Shelf} {c : Nat} {rc : RunContext} {inp : IngestInput} {lib : Library}

theorem classifyDocument_library (svc : TenderServices) (rc : RunContext) (text : String)
    (inp : IngestInput) (m : DocumentMeta) (lib : Library) :
    (classifyDocument svc rc text inp m lib).1 = lib ∨
    ∃ command : IngestDocumentCommand, command.content = text ∧
      command.documentId svc.gateway (svc.knowledgeContext rc) = svc.knowledgeId m.title ∧
      command.docKey svc.gateway (svc.knowledgeContext rc) = svc.knowledgeKey m.title ∧
      (classifyDocument svc rc text inp m lib).1 =
        (ingestDocument svc.gateway command (svc.knowledgeContext rc) inp lib).1 := by
  unfold classifyDocument
  split
  · exact .inl rfl
  · split
    · exact .inl rfl
    · next hfilled =>
      split
      · exact .inl rfl
      · next htitled =>
        right
        refine ⟨{ title := m.title, content := text, domain := "tender", titled := htitled,
                  filled := hfilled }, rfl, rfl, rfl, ?_⟩
        simp only
        split
        · next h => rw [h]
        · next h => rw [h]

theorem knowledgeId_inj (huuid : Set.InjOn svc.gateway.uuid5 (namesHashed svc documents))
    {d d' : TenderDocument} (hd : d ∈ documents) (hd' : d' ∈ documents) :
    svc.knowledgeId d.title = svc.knowledgeId d'.title ↔ strip d.title = strip d'.title :=
  documentIdFor_inj huuid ⟨d, hd, .inl rfl⟩ ⟨d', hd', .inl rfl⟩

theorem knowledgeKey_inj (huuid : Set.InjOn svc.gateway.uuid5 (namesHashed svc documents))
    {d d' : TenderDocument} (hd : d ∈ documents) (hd' : d' ∈ documents) :
    svc.knowledgeKey d.title = svc.knowledgeKey d'.title ↔ strip d.title = strip d'.title :=
  docKeyFor_inj huuid ⟨d, hd, .inr rfl⟩ ⟨d', hd', .inr rfl⟩

theorem keysFit_turn (huuid : Set.InjOn svc.gateway.uuid5 (namesHashed svc documents))
    {d₀ : TenderDocument} (hd₀ : d₀ ∈ documents) (hfit : KeysFit svc documents lib) (text : String) :
    KeysFit svc documents (classifyDocument svc rc text inp d₀.toMeta lib).1 := by
  rcases classifyDocument_library svc rc text inp d₀.toMeta lib with hsame |
    ⟨command, _, hid, hkey, hlib⟩
  · rw [hsame]
    exact hfit
  · rw [hlib]
    intro d hd r hr hrow
    rcases ingest_rows hr with ⟨r₀, hr₀, hid₀, hkey₀⟩ | ⟨hidr, hkeyr⟩
    · rw [hkey₀]
      exact hfit d hd r₀ hr₀ (hid₀.symm.trans hrow)
    · -- the new row: one identifier means one title, so one key
      right
      have hstrip := (knowledgeId_inj huuid hd₀ hd).mp ((hidr.trans hid).symm.trans hrow)
      rw [hkeyr, hkey]
      exact congrArg some ((knowledgeKey_inj huuid hd₀ hd).mpr hstrip)

/-- **Frame of a turn**: a text that is on the shelf stays, where one title means
    one text. -/
theorem holds_turn (huuid : Set.InjOn svc.gateway.uuid5 (namesHashed svc documents))
    (htell : TitlesTell texts documents) {d d₀ : TenderDocument} (hd : d ∈ documents)
    (hd₀ : d₀ ∈ documents) (hfit : KeysFit svc documents lib)
    (hheld : svc.HoldsText lib (svc.knowledgeId d.title) (texts d.id)) :
    svc.HoldsText (classifyDocument svc rc (texts d₀.id) inp d₀.toMeta lib).1
      (svc.knowledgeId d.title) (texts d.id) := by
  rcases classifyDocument_library svc rc (texts d₀.id) inp d₀.toMeta lib with hsame |
    ⟨command, hcontent, hid, hkey, hlib⟩
  · rw [hsame]
    exact hheld
  · rw [hlib]
    have hkept : Holds svc.gateway (svc.knowledgeContext rc)
        (ingestDocument svc.gateway command (svc.knowledgeContext rc) inp lib).1
        (svc.knowledgeId d.title) (texts d.id) := by
      apply ingest_keeps (hheld rc)
      · intro heq
        rw [hcontent]
        exact htell.told d hd d₀ hd₀ ((knowledgeId_inj huuid hd hd₀).mp (heq.trans hid))
      · intro hne r hr hrow
        -- a superseded row has the key of the command, hence its title
        rw [Bool.eq_false_iff]
        intro hsup
        simp only [supersedes, Bool.and_eq_true, beq_iff_eq] at hsup
        obtain ⟨⟨⟨_, hrkey⟩, _⟩, _⟩ := hsup
        rcases hfit d hd r hr hrow with hnone | hsome
        · rw [hnone] at hrkey
          cases hrkey
        · have hkeys : svc.knowledgeKey d.title = svc.knowledgeKey d₀.title := by
            rw [hsome, hkey] at hrkey
            exact Option.some.inj hrkey
          have hstrip := (knowledgeKey_inj huuid hd hd₀).mp hkeys
          exact hne (((knowledgeId_inj huuid hd hd₀).mpr hstrip).trans hid.symm)
    exact fun _ => ⟨hkept.row, hkept.object, hkept.chunks⟩

structure Shelved (svc : TenderServices) (texts : Uuid → String) (documents : List TenderDocument)
    (s : Shelf) : Prop where
  linking : Linking svc texts documents s
  fit : KeysFit svc documents s.library
  inLoop : ∀ c i, s.running c = some i → ∀ m ∈ i.done,
    svc.HoldsText s.library (svc.knowledgeId m.title) (texts m.id)
  inCase : ∀ d ∈ documents, d.caseId ∈ s.committed →
    svc.HoldsText s.library (svc.knowledgeId d.title) (texts d.id)

open Shelf

theorem shelved_init (h : (shelving svc texts documents).init s) :
    Shelved svc texts documents s := by
  have hlinking := linking_init h
  obtain ⟨_, _, _, hfit, hsessions, hcommitted⟩ := h
  refine ⟨hlinking, hfit, ?_, ?_⟩
  · intro c i hrunning
    rw [Shelf.running, hsessions c] at hrunning
    cases hrunning
  · intro d _ hd
    rw [hcommitted] at hd
    cases hd

theorem shelved_step (huuid : Set.InjOn svc.gateway.uuid5 (namesHashed svc documents))
    (htell : TitlesTell texts documents) (hids : (documents.map (·.id)).Nodup) {a : ShelfAction}
    (h : Shelved svc texts documents s) (hs : step svc texts s a = some s') :
    Shelved svc texts documents s' := by
  have hlinking := linking_step h.linking hids hs
  cases a with
  | start c rc caseId =>
    obtain rfl := step_start hs
    refine ⟨hlinking, h.fit, ?_, h.inCase⟩
    intro d j hj m hm
    rcases running_put rfl hj with ⟨rfl, rfl⟩ | hold
    · cases hm
    · exact h.inLoop d j hold m hm
  | ingest c inp =>
    obtain ⟨i, m, rest, lib, result, hrunning, htodo, hturn, rfl⟩ := step_ingest hs
    obtain ⟨d₀, hd₀, rfl⟩ := h.linking.next hrunning htodo
    have hlib : lib = (classifyDocument svc i.rc (texts d₀.id) inp d₀.toMeta s.library).1 :=
      (congrArg Prod.fst hturn).symm
    have hframe : ∀ d ∈ documents,
        svc.HoldsText s.library (svc.knowledgeId d.title) (texts d.id) →
        svc.HoldsText lib (svc.knowledgeId d.title) (texts d.id) := by
      intro d hd hheld
      rw [hlib]
      exact holds_turn huuid htell hd hd₀ h.fit hheld
    have hpassed : ∀ c j, s.running c = some j → ∀ m ∈ j.done,
        svc.HoldsText lib (svc.knowledgeId m.title) (texts m.id) := by
      intro c j hj m hm
      have hheld := h.inLoop c j hj m hm
      obtain ⟨d, hd, rfl⟩ := h.linking.passed hj hm
      exact hframe d hd hheld
    refine ⟨hlinking, ?_, ?_, fun d hd hcommitted => hframe d hd (h.inCase d hd hcommitted)⟩
    · show KeysFit svc documents lib
      rw [hlib]
      exact keysFit_turn huuid hd₀ h.fit _
    · intro d j hj m hm
      rcases running_put rfl hj with ⟨rfl, rfl⟩ | hold
      · cases result with
        | error e =>
          have hnone : m ∈ ([] : List DocumentMeta) := hm
          cases hnone
        | ok m' =>
          obtain ⟨hlinked, hnew⟩ :=
            classifyDocument_ok (rfl : d₀.toMeta.knowledgeDocumentId = none) hturn
          have hdone : m ∈ i.done ++ [m'] := hm
          rcases List.mem_append.mp hdone with hold | hlast
          · exact hpassed _ i hrunning m hold
          · rw [List.mem_singleton.mp hlast, hlinked]
            exact hnew (htell.filled d₀ hd₀)
      · exact hpassed d j hold m hm
  | retry c =>
    obtain ⟨i, hrunning, rfl⟩ := step_retry hs
    refine ⟨hlinking, h.fit, ?_, h.inCase⟩
    intro d j hj m hm
    rcases running_put rfl hj with ⟨rfl, rfl⟩ | hold
    · cases hm
    · exact h.inLoop d j hold m hm
  | commit c =>
    obtain ⟨i, hrunning, htodo, rfl⟩ := step_commit hs
    refine ⟨hlinking, h.fit, fun d j hj => h.inLoop d j (running_committed rfl hj), ?_⟩
    intro d hd hcommitted
    by_cases hmine : d.caseId = i.caseId
    · obtain ⟨hbefore, passed, hpassed, hdone⟩ := h.linking.loops c i hrunning
      have hall : passed = metasOf documents i.caseId := by
        rw [← hbefore, hpassed, htodo, List.append_nil]
      have hentry : d.toMeta ∈ passed := by
        rw [hall]
        exact List.mem_map.mpr ⟨d, List.mem_filter.mpr ⟨hd, beq_iff_eq.mpr hmine⟩, rfl⟩
      have hmem : svc.linked texts d.toMeta ∈ i.done := by
        rw [hdone]
        exact List.mem_map.mpr ⟨d.toMeta, hentry, rfl⟩
      have hheld := h.inLoop c i hrunning _ hmem
      exact hheld
    · rcases List.mem_cons.mp hcommitted with heq | hold
      · exact absurd heq hmine
      · exact h.inCase d hd hold

end

/-- **Main theorem**: when every case has been through its ingestion, the
    documents keep their identity if and only if their titles tell them. -/
theorem keeps_identity_iff {svc : TenderServices} {texts : Uuid → String}
    {documents : List TenderDocument} {es : List (Event Shelf ShelfAction)} {s : Shelf}
    (huuid : Set.InjOn svc.gateway.uuid5 (namesHashed svc documents))
    (h : Exec (shelving svc texts documents) es s)
    (hall : ∀ d ∈ documents, d.caseId ∈ s.committed) :
    KeepsIdentity svc texts s ↔ TitlesTell texts documents := by
  have hids : (documents.map (·.id)).Nodup := by
    apply h.invariant (P := fun _ => (documents.map (·.id)).Nodup)
    · exact fun _ h0 => h0.2.1
    · exact fun _ _ _ hp _ => hp
  have hlinking : Linking svc texts documents s :=
    h.invariant (fun _ h0 => linking_init h0) (fun _ _ _ hp hs => linking_step hp hids hs)
  -- a document of the shelf is one that was uploaded, under its own title
  have huploaded : ∀ d ∈ s.documents, d.unlinked ∈ documents := by
    intro d hd
    rw [← hlinking.uploaded]
    exact List.mem_map_of_mem hd
  have hback : ∀ d ∈ documents, ∃ d' ∈ s.documents, d'.unlinked = d := by
    intro d hd
    rw [← hlinking.uploaded] at hd
    exact List.mem_map.mp hd
  have hlink : ∀ d ∈ s.documents, d.knowledgeDocumentId = svc.linkOf texts d.id d.title :=
    fun d hd => hlinking.through d hd (hall d.unlinked (huploaded d hd))
  constructor
  · intro hkeeps
    have hfilled : ∀ d ∈ documents, texts d.id ≠ "" := by
      intro d hd hempty
      obtain ⟨d', hd', rfl⟩ := hback d hd
      obtain ⟨k, hk, _⟩ := hkeeps.linked d' hd'
      have hnone : texts d'.id = "" := hempty
      rw [hlink d' hd', TenderServices.linkOf, if_pos hnone] at hk
      cases hk
    refine ⟨hfilled, ?_⟩
    intro d₁ hd₁ d₂ hd₂ hstrip
    obtain ⟨d₁', hd₁', rfl⟩ := hback d₁ hd₁
    obtain ⟨d₂', hd₂', rfl⟩ := hback d₂ hd₂
    by_contra hne
    apply hkeeps.apart d₁' hd₁' d₂' hd₂' hne
    have hfilled₁ : texts d₁'.id ≠ "" := hfilled d₁'.unlinked hd₁
    have hfilled₂ : texts d₂'.id ≠ "" := hfilled d₂'.unlinked hd₂
    rw [hlink d₁' hd₁', hlink d₂' hd₂', TenderServices.linkOf, TenderServices.linkOf,
      if_neg hfilled₁, if_neg hfilled₂]
    exact congrArg some ((knowledgeId_inj huuid hd₁ hd₂).mpr hstrip)
  · intro htell
    have hshelved : Shelved svc texts documents s :=
      h.invariant (fun _ h0 => shelved_init h0)
        (fun _ _ _ hp hs => shelved_step huuid htell hids hp hs)
    have hsome : ∀ d ∈ s.documents, d.knowledgeDocumentId = some (svc.knowledgeId d.title) := by
      intro d hd
      have hfilled : texts d.id ≠ "" := htell.filled d.unlinked (huploaded d hd)
      rw [hlink d hd, TenderServices.linkOf, if_neg hfilled]
    constructor
    · intro d hd
      exact ⟨_, hsome d hd, hshelved.inCase d.unlinked (huploaded d hd) (hall _ (huploaded d hd))⟩
    · intro d hd d' hd' hne heq
      rw [hsome d hd, hsome d' hd'] at heq
      have hstrip := (knowledgeId_inj huuid (huploaded d hd) (huploaded d' hd')).mp
        (Option.some.inj heq)
      exact hne (htell.told d.unlinked (huploaded d hd) d'.unlinked (huploaded d' hd') hstrip)

/-! ## The loop of the node -/

section

open Shelf

variable {svc : TenderServices} {texts : Uuid → String} {documents : List TenderDocument}
  {inp : NodeInput} {st : TenderState} {c : Nat}

theorem loop_exec {i : Ingestion} {metas : List DocumentMeta} {lib' : Library} {k : Nat}
    {es : List (Event Shelf ShelfAction)} {s : Shelf}
    (hloop : classifyLoop svc i.rc inp st k i.todo s.library = (lib', .ok metas))
    (htexts : ∀ m ∈ i.todo, st.textOf m.id = texts m.id)
    (h : Exec (shelving svc texts documents) es s)
    (hsession : s.sessions c = some (.running i)) :
    ∃ es', Exec (shelving svc texts documents) es' { s with
      library := lib'
      sessions := s.sessions.put c (.running { i with done := i.done ++ metas, todo := [] }) } := by
  obtain ⟨rc, caseId, before, done, todo⟩ := i
  simp only at hloop htexts hsession ⊢
  induction todo generalizing k es s done metas with
  | nil =>
    obtain ⟨rfl, hmetas⟩ := Prod.mk.inj hloop
    obtain rfl := Except.ok.inj hmetas
    refine ⟨es, ?_⟩
    have hsame : s.sessions.put c (.running ⟨rc, caseId, before, done ++ [], []⟩) = s.sessions := by
      rw [List.append_nil]
      exact Function.update_eq_self_iff.mpr hsession.symm
    rw [hsame]
    exact h
  | cons m rest ih =>
    rw [classifyLoop, htexts m List.mem_cons_self] at hloop
    split at hloop
    · cases (Prod.mk.inj hloop).2
    · next lib₁ m' hturn =>
      split at hloop
      · cases (Prod.mk.inj hloop).2
      · next lib₂ rest' hrest =>
        obtain ⟨rfl, hmetas⟩ := Prod.mk.inj hloop
        obtain rfl := Except.ok.inj hmetas
        -- the first turn is one step, the others are the rest of the loop
        have hrunning : s.running c = some ⟨rc, caseId, before, done, m :: rest⟩ := by
          rw [Shelf.running, hsession]
        have hstep : (shelving svc texts documents).step s (.ingest c (inp.ingest k)) = some
            { s with
              library := lib₁
              sessions := s.sessions.put c
                (.running ⟨rc, caseId, before, done ++ [m'], rest⟩) } := by
          show s.ingest svc texts c (inp.ingest k) = _
          simp only [Shelf.ingest, hrunning, hturn]
          rfl
        obtain ⟨es', hes'⟩ := ih (h.snoc hstep) _ hrest
          (fun m hm => htexts m (List.mem_cons_of_mem _ hm)) (Sessions.put_self ..)
        refine ⟨es', ?_⟩
        simp only [Sessions.put, Function.update_idem, List.append_assoc,
          List.singleton_append] at hes' ⊢
        exact hes'

theorem step_commit_some {i : Ingestion} {s : Shelf}
    (hsession : s.sessions c = some (.running i)) (htodo : i.todo = []) :
    (shelving svc texts documents).step s (.commit c) = some { s with
      documents := linkDocuments i.before i.done s.documents
      sessions := s.sessions.put c .committed
      committed := i.caseId :: s.committed } := by
  have hrunning : s.running c = some i := by rw [Shelf.running, hsession]
  show s.commit c = _
  simp only [Shelf.commit, hrunning, htodo, List.isEmpty_nil, if_pos]

/-- **Refinement**: what `classify_documents` of a run does to the documents and
    the library, its session does step by step. -/
theorem node_exec {rc : RunContext} {caseId : Uuid} {s' : Stores} {stores : Stores}
    {st' : TenderState} {es : List (Event Shelf ShelfAction)} {s : Shelf}
    (hnode : classifyDocuments svc rc inp st stores = (s', .ok st'))
    (hmetas : st.documentMeta = metasOf s.documents caseId)
    (htexts : ∀ m ∈ st.documentMeta, st.textOf m.id = texts m.id)
    (h : Exec (shelving svc texts documents) es s) (hfresh : s.sessions c = none)
    (hlibrary : stores.library = s.library) (hdocuments : stores.db.documents = s.documents) :
    ∃ es' w, Exec (shelving svc texts documents) es' w ∧ w.library = s'.library ∧
      w.documents = s'.db.documents ∧ w.committed = caseId :: s.committed := by
  unfold classifyDocuments at hnode
  split at hnode
  · cases (Prod.mk.inj hnode).2
  · next library metas hloop =>
    split at hnode
    · cases (Prod.mk.inj hnode).2
    · obtain ⟨rfl, _⟩ := Prod.mk.inj hnode
      rw [hmetas, hlibrary] at hloop
      have hstart : (shelving svc texts documents).step s (.start c rc caseId) = some
          { s with sessions := s.sessions.put c (.running
            ⟨rc, caseId, metasOf s.documents caseId, [], metasOf s.documents caseId⟩) } := by
        show s.start c rc caseId = _
        rw [Shelf.start, hfresh]
        rfl
      rw [hmetas] at htexts
      obtain ⟨es', hes'⟩ := loop_exec hloop htexts (h.snoc hstart) (Sessions.put_self ..)
      refine ⟨_, _, hes'.snoc (step_commit_some (Sessions.put_self ..) rfl), rfl, ?_, rfl⟩
      show linkDocuments _ _ s.documents = linkDocuments _ _ _
      rw [hmetas, hdocuments]
      rfl

end

/-! ## Two bids of one title -/

namespace Tender

def secondBid : TenderDocument :=
  { submission with id := { text := "d3" }, storageKey := "d3" }

def textOf (id : Uuid) : String := id.text

def shelve : List ShelfAction :=
  [.start 0 run { text := "case" }, .ingest 0 {}, .ingest 0 {}, .commit 0]

def shelf (documents : List TenderDocument) : Shelf := { documents := documents, library := {} }

theorem shelf_init {documents : List TenderDocument} (hids : (documents.map (·.id)).Nodup)
    (hnone : ∀ d ∈ documents, d.knowledgeDocumentId = none) :
    (shelving services textOf documents).init (shelf documents) := by
  refine ⟨rfl, hids, hnone, ?_, fun _ => rfl, rfl⟩
  intro d _ r hr
  cases hr

theorem uuid5_inj (names : Set String) : Set.InjOn services.gateway.uuid5 names := by
  intro name _ name' _ h
  have htext : "uuid5:" ++ name = "uuid5:" ++ name' := congrArg Uuid.text h
  have hlist := congrArg String.toList htext
  simp only [String.toList_append, List.append_cancel_left_eq] at hlist
  exact String.toList_inj.mp hlist

def through (documents : List TenderDocument) (s : Shelf) : Bool :=
  documents.all (fun d => s.committed.contains d.caseId)

theorem through_all {documents : List TenderDocument} {s : Shelf} (h : through documents s = true) :
    ∀ d ∈ documents, d.caseId ∈ s.committed := by
  intro d hd
  exact List.contains_iff_mem.mp (List.all_eq_true.mp h d hd)

theorem distinct_runs : (shelving services textOf [rfq, submission]).runs
    (shelf [rfq, submission]) shelve (fun _ s => through [rfq, submission] s) = true := by
  decide +kernel

def parsed : TenderState :=
  { documentMeta := metasOf [rfq, submission] { text := "case" }
    documentTexts := [(rfq.id, "d1"), (submission.id, "d2")] }

def input : NodeInput := answers [] (draftOf "Minh Long" minhLong_named)

theorem node_shelves : ∃ es s, Exec (shelving services textOf [rfq, submission]) es s ∧
    s.committed = [{ text := "case" }] := by
  have hok : (classifyDocuments services run input parsed start).2.isOk = true := by
    decide +kernel
  cases hnode : classifyDocuments services run input parsed start with
  | mk s' result =>
    rw [hnode] at hok
    cases result with
    | error e => cases hok
    | ok st' =>
      obtain ⟨es, s, hexec, _, _, hcommitted⟩ := node_exec (c := 0) hnode rfl
        (by decide +kernel) (.start (shelf_init (by decide) (by decide))) rfl rfl rfl
      exact ⟨es, s, hexec, hcommitted⟩

theorem equal_runs : (shelving services textOf [submission, secondBid]).runs
    (shelf [submission, secondBid]) shelve (fun _ s => through [submission, secondBid] s &&
      s.documents.any (fun a => s.documents.any (fun b =>
        a.knowledgeDocumentId == b.knowledgeDocumentId && textOf a.id != textOf b.id))) = true := by
  decide +kernel

end Tender

/-- Two documents of two titles keep their identity. -/
theorem two_titles_kept : ∃ es s,
    Exec (shelving Tender.services Tender.textOf [Tender.rfq, Tender.submission]) es s ∧
    KeepsIdentity Tender.services Tender.textOf s := by
  obtain ⟨es, s, hexec, hthrough⟩ :=
    Machine.exec_of_runs (Tender.shelf_init (by decide) (by decide)) Tender.distinct_runs
  refine ⟨es, s, hexec, (keeps_identity_iff (Tender.uuid5_inj _) hexec
    (Tender.through_all hthrough)).mpr ⟨?_, ?_⟩⟩
  · decide
  · decide +kernel

/-- Two bids of one title are linked to one entry. -/
theorem two_bids_one_shelf : ∃ documents es s,
    Exec (shelving Tender.services Tender.textOf documents) es s ∧
    (∀ d ∈ documents, d.caseId ∈ s.committed) ∧
    (∃ a ∈ s.documents, ∃ b ∈ s.documents, Tender.textOf a.id ≠ Tender.textOf b.id ∧
      a.knowledgeDocumentId = b.knowledgeDocumentId) ∧
    ¬ KeepsIdentity Tender.services Tender.textOf s := by
  obtain ⟨es, s, hexec, htest⟩ :=
    Machine.exec_of_runs (Tender.shelf_init (by decide) (by decide)) Tender.equal_runs
  obtain ⟨hthrough, hany⟩ := Bool.and_eq_true_iff.mp htest
  obtain ⟨a, ha, hany⟩ := List.any_eq_true.mp hany
  obtain ⟨b, hb, hsame⟩ := List.any_eq_true.mp hany
  rw [Bool.and_eq_true, beq_iff_eq, bne_iff_ne] at hsame
  refine ⟨_, es, s, hexec, Tender.through_all hthrough, ⟨a, ha, b, hb, hsame.2, hsame.1⟩, ?_⟩
  intro hkeeps
  exact hkeeps.apart a ha b hb hsame.2 hsame.1

end DigitalWorker.Evaluation
