import DigitalWorker.Framework.Shortlist
import DigitalWorker.Knowledge.Passages

/-! # When the cache of legal searches shows

    A web that does not change holds a list of passages for a question. A search
    shortlists it by its own depth and threshold; what it stores is that shortlist,
    and a later search of the same key is answered from it.
-/

namespace DigitalWorker.Knowledge

open Framework

/-! ## A web that does not change -/

structure Web where
  asked : String → Except Error (List SearchHit × String)
  page : String → SearchHit → Except Error (Option FetchedPage)

structure OnWeb (env : WebEnv) (gw : WebLawGateway) (web : Web)
    (e : Event WebLawState WebLawSearch) : Prop where
  asked : (gw.client.search (allowedHits env gw.config) e.act.answers e.act.clock
    e.pre.cooldown).2 = web.asked e.act.query.text
  pages : ∀ hits provider, web.asked e.act.query.text = .ok (hits, provider) →
    ∀ (i : Nat) (hit : SearchHit), hits[i]? = some hit →
      (readPage env gw e.act provider i hit).2 = web.page provider hit

def nameless : Uuid := { text := "-" }

def unnamed (c : EvidenceChunk) : EvidenceChunk := { c with evidenceId := nameless }

section

variable (env : WebEnv) (gw : WebLawGateway) (web : Web)

def foundOn (text provider : String) : List SearchHit → List EvidenceChunk × Option Error
  | [] => ([], none)
  | hit :: rest =>
    match web.page provider hit with
    | .error e => ([], some e)
    | .ok none => foundOn text provider rest
    | .ok (some page) =>
      let later := foundOn text provider rest
      ((passages env gw.config page.text text).map (fun t =>
        toChunk env gw t page hit nameless) ++ later.1, later.2)

def found (text : String) : List EvidenceChunk × Option Error :=
  match web.asked text with
  | .error e => ([], some e)
  | .ok (hits, provider) => foundOn env gw web text provider (hits.take gw.config.maxPagesPerQuery)

/-- The first `k` of what is held. -/
def firstOf (k : Nat) (held : List EvidenceChunk × Option Error) :
    Except Error (List EvidenceChunk) :=
  match held.2 with
  | none => .ok (held.1.take k)
  | some e => if held.1.length < k then .error e else .ok (held.1.take k)

def relevant (q : SearchQuery) (c : EvidenceChunk) : Bool := q.minRelevance ≤ c.relevanceScore

def owed (q : SearchQuery) : Except Error (List EvidenceChunk) :=
  (firstOf q.topK (found env gw web q.text)).map (List.filter (relevant q))

end

/-! ## A search without the cache -/

section

variable {env : WebEnv} {gw : WebLawGateway} {web : Web} {s : WebLawSearch} {provider : String}

theorem unnamed_toChunk {text : String} {page : FetchedPage} {hit : SearchHit} {id : Uuid} :
    unnamed (toChunk env gw text page hit id) = toChunk env gw text page hit nameless := by
  simp only [unnamed, toChunk]

theorem appendPassages_take {page : FetchedPage} {hit : SearchHit} {texts : List String}
    {chunks : List EvidenceChunk} (h : chunks.length < s.query.topK) :
    (appendPassages env gw s page hit texts chunks).map unnamed =
      (chunks.map unnamed ++ texts.map (fun t => toChunk env gw t page hit nameless)).take
        s.query.topK := by
  induction texts generalizing chunks with
  | nil =>
    rw [appendPassages, List.map_nil, List.append_nil,
      List.take_of_length_le (by rw [List.length_map]; omega)]
  | cons text rest ih =>
    have hlength : (chunks ++ [toChunk env gw text page hit (s.newId chunks.length)]).length =
        chunks.length + 1 := by simp
    have hgrown : (chunks ++ [toChunk env gw text page hit (s.newId chunks.length)]).map unnamed =
        chunks.map unnamed ++ [toChunk env gw text page hit nameless] := by
      rw [List.map_append, List.map_cons, unnamed_toChunk, List.map_nil]
    rw [List.map_cons, List.append_cons, ← hgrown, appendPassages, hlength]
    split
    · -- the list is full: what is left of the page is not looked at
      rw [List.take_append_of_le_length (by rw [List.length_map]; omega),
        List.take_of_length_le (by rw [List.length_map]; omega)]
    · exact ih (by omega)

theorem firstOf_append {k : Nat} {before later : List EvidenceChunk} {e : Option Error}
    (h : k ≤ before.length) : firstOf k (before ++ later, e) = .ok (before.take k) := by
  unfold firstOf
  dsimp only
  rw [List.take_append_of_le_length h]
  cases e with
  | none => rfl
  | some e =>
    dsimp only
    rw [List.length_append, if_neg (by omega)]

/-- **The loop** over the hits gathers the first of what the web holds. -/
theorem collectChunks_firstOf {hits : List SearchHit} {i : Nat} {chunks : List EvidenceChunk}
    (h : chunks.length < s.query.topK)
    (hpages : ∀ (n : Nat) (hit : SearchHit), hits[n]? = some hit →
      (readPage env gw s provider (i + n) hit).2 = web.page provider hit) :
    (collectChunks env gw s provider i hits chunks).2.map (List.map unnamed) =
      firstOf s.query.topK
        (chunks.map unnamed ++ (foundOn env gw web s.query.text provider hits).1,
          (foundOn env gw web s.query.text provider hits).2) := by
  induction hits generalizing i chunks with
  | nil =>
    unfold collectChunks foundOn firstOf
    dsimp only
    rw [List.append_nil, List.take_of_length_le (by rw [List.length_map]; omega)]
    rfl
  | cons hit rest ih =>
    have hpage := hpages 0 hit rfl
    have hrest : ∀ (n : Nat) (g : SearchHit), rest[n]? = some g →
        (readPage env gw s provider (i + 1 + n) g).2 = web.page provider g := by
      intro n g hg
      rw [show i + 1 + n = i + (n + 1) by omega]
      exact hpages (n + 1) g hg
    rw [Nat.add_zero] at hpage
    unfold collectChunks foundOn
    dsimp only
    rw [hpage]
    cases hread : web.page provider hit with
    | error e =>
      unfold firstOf
      dsimp only
      rw [List.append_nil, List.length_map, if_pos h]
      rfl
    | ok page =>
      cases page with
      | none => exact ih h hrest
      | some page =>
        have htake := @appendPassages_take env gw s page hit
          (passages env gw.config page.text s.query.text) chunks h
        have hlength := congrArg List.length htake
        rw [List.length_map, List.length_take] at hlength
        dsimp only
        rw [← List.append_assoc]
        by_cases hfull : s.query.topK ≤ (appendPassages env gw s page hit
            (passages env gw.config page.text s.query.text) chunks).length
        · rw [if_pos hfull, firstOf_append (by omega), ← htake]
          rfl
        · -- the page leaves room: all its passages are listed
          rw [if_neg hfull]
          rw [List.take_of_length_le (by omega)] at htake
          rw [← htake]
          exact ih (by omega) hrest

theorem collectChunks_found {hits : List SearchHit}
    (hasked : web.asked s.query.text = .ok (hits, provider))
    (hpages : ∀ (i : Nat) (hit : SearchHit), hits[i]? = some hit →
      (readPage env gw s provider i hit).2 = web.page provider hit) :
    (collectChunks env gw s provider 0 (hits.take gw.config.maxPagesPerQuery) []).2.map
      (List.map unnamed) = firstOf s.query.topK (found env gw web s.query.text) := by
  have hread : ∀ (n : Nat) (hit : SearchHit),
      (hits.take gw.config.maxPagesPerQuery)[n]? = some hit →
        (readPage env gw s provider (0 + n) hit).2 = web.page provider hit := by
    intro n hit hn
    rw [List.getElem?_take] at hn
    split at hn
    · rw [Nat.zero_add]
      exact hpages n hit hn
    · cases hn
  rw [collectChunks_firstOf (show [].length < s.query.topK from s.query.topK_bounds.1) hread]
  unfold found
  rw [hasked, List.map_nil, List.nil_append]

theorem firstOf_ok {k : Nat} {held : List EvidenceChunk × Option Error} {xs : List EvidenceChunk}
    (h : firstOf k held = .ok xs) : xs = held.1.take k := by
  unfold firstOf at h
  split at h
  · exact (Except.ok.inj h).symm
  · split at h
    · cases h
    · exact (Except.ok.inj h).symm

variable {st : WebLawState}

theorem cached_cooldown : (cached env gw s st).1.cooldown = st.cooldown := by
  unfold cached
  split <;> rfl

theorem search_cooldown (h : (cached env gw s st).2 = none) : (gw.search env s st).1.cooldown =
    (gw.client.search (allowedHits env gw.config) s.answers s.clock st.cooldown).1 := by
  rw [← @cached_cooldown env gw s st]
  unfold WebLawGateway.search
  generalize cached env gw s st = read at h ⊢
  obtain ⟨st', value⟩ := read
  obtain rfl : value = none := h
  dsimp only
  cases (gw.client.search (allowedHits env gw.config) s.answers s.clock st'.cooldown).2 with
  | error e => rfl
  | ok answer =>
    dsimp only
    split
    · rfl
    · cases gw.cache <;> rfl

inductive Asked (env : WebEnv) (gw : WebLawGateway) (web : Web) (s : WebLawSearch)
    (before : CacheEntries) (after : CacheEntries) :
    Except Error (List EvidenceChunk) → Prop where
  /-- It failed, and stored nothing. -/
  | failed (e : Error) : owed env gw web s.query = .error e → after = before →
      Asked env gw web s before after (.error e)
  /-- Its answer is what it stored, where there is a cache. -/
  | answered (result : List EvidenceChunk) :
      result.map unnamed =
        shortlist s.query.topK (relevant s.query) (found env gw web s.query.text).1 →
      owed env gw web s.query = .ok (result.map unnamed) →
      after = (match gw.cache with
        | none => before
        | some cache => before.put cache (cacheKey env s) result s.storedAt) →
      Asked env gw web s before after (.ok result)

/-- **Fresh searches**: a search that is not answered from the cache answers what the
    web owes the question. -/
theorem search_asked {post : WebLawState} (hcached : (cached env gw s st).2 = none)
    (hweb : OnWeb env gw web ⟨st, s, post⟩) :
    Asked env gw web s (cached env gw s st).1.entries (gw.search env s st).1.entries
      (gw.search env s st).2.2 := by
  have hdeep : 0 < s.query.topK := s.query.topK_bounds.1
  have hasked := hweb.asked
  have hpages := hweb.pages
  dsimp only at hasked hpages
  rw [← @cached_cooldown env gw s st] at hasked
  unfold WebLawGateway.search
  generalize hread : cached env gw s st = read at hcached hasked ⊢
  obtain ⟨st', value⟩ := read
  obtain rfl : value = none := hcached
  dsimp only at hasked ⊢
  rw [hasked]
  cases hweb' : web.asked s.query.text with
  | error e =>
    refine .failed e ?_ rfl
    unfold owed found firstOf
    rw [hweb']
    dsimp only
    rw [List.length_nil, if_pos hdeep]
    rfl
  | ok answer =>
    obtain ⟨hits, provider⟩ := answer
    have hgathered := collectChunks_found hweb' (hpages hits provider hweb')
    dsimp only
    cases hcollect : (collectChunks env gw s provider 0
        (hits.take gw.config.maxPagesPerQuery) []).2 with
    | error e =>
      refine .failed e ?_ rfl
      unfold owed
      rw [← hgathered, hcollect]
      rfl
    | ok chunks =>
      rw [hcollect] at hgathered
      dsimp only
      have hresult :
          (chunks.filter (fun c => s.query.minRelevance ≤ c.relevanceScore)).map unnamed =
          shortlist s.query.topK (relevant s.query) (found env gw web s.query.text).1 := by
        unfold shortlist
        rw [← firstOf_ok hgathered.symm, List.filter_map]
        rfl
      have hshort : (chunks.filter (fun c => s.query.minRelevance ≤ c.relevanceScore)).length ≤
          s.query.topK := by
        rw [← @List.length_map _ _ _ unnamed, hresult]
        exact shortlist_length_le
      rw [List.take_of_length_le hshort]
      refine .answered _ hresult ?_ ?_
      · unfold owed
        rw [← hgathered, hresult, shortlist, ← firstOf_ok hgathered.symm]
        rfl
      · cases gw.cache <;> rfl

end

/-! ## What the cache holds -/

section

variable (env : WebEnv) (gw : WebLawGateway) (web : Web)

def stores (e : Event WebLawState WebLawSearch) : Bool :=
  gw.cache.isSome && (cached env gw e.act e.pre).2.isNone &&
    (match (gw.search env e.act e.pre).2.2 with
      | .ok _ => true
      | .error _ => false)

def lastStore (key : String) (es : List (Event WebLawState WebLawSearch)) :
    Option (Event WebLawState WebLawSearch) :=
  es.find? (fun e => stores env gw e && cacheKey env e.act == key)

def Stored (es : List (Event WebLawState WebLawSearch)) (entries : CacheEntries) : Prop :=
  ∀ entry ∈ entries, ∃ e, lastStore env gw entry.1 es = some e ∧
    entry.2.2.map unnamed = shortlist e.act.query.topK (relevant e.act.query)
      (found env gw web e.act.query.text).1

variable {env gw web} {es : List (Event WebLawState WebLawSearch)} {s : WebLawSearch}
  {st : WebLawState}

theorem get_mem {entries : CacheEntries} {key : String} {now : ℚ} :
    (∀ entry ∈ (entries.get key now).1, entry ∈ entries) ∧
      ∀ value, (entries.get key now).2 = some value → ∃ until_, (key, until_, value) ∈ entries := by
  unfold CacheEntries.get
  cases hlookup : entries.lookup key with
  | none => exact ⟨fun _ h => h, fun _ h => by cases h⟩
  | some found =>
    obtain ⟨until_, value⟩ := found
    have hmem : (key, until_, value) ∈ entries := by
      obtain ⟨before, after, rfl, -⟩ := List.lookup_eq_some_iff.mp hlookup
      exact List.mem_append_right _ List.mem_cons_self
    dsimp only
    split
    · exact ⟨fun _ h => List.mem_of_mem_filter h, fun _ h => by cases h⟩
    · refine ⟨?_, ?_⟩
      · intro entry h
        rcases List.mem_append.mp h with h | h
        · exact List.mem_of_mem_filter h
        · rw [List.mem_singleton.mp h]
          exact hmem
      · intro v hv
        obtain rfl := Option.some.inj hv
        exact ⟨until_, hmem⟩

theorem cached_mem :
    (∀ entry ∈ (cached env gw s st).1.entries, entry ∈ st.entries) ∧
      ∀ value, (cached env gw s st).2 = some value →
        ∃ until_, (cacheKey env s, until_, value) ∈ st.entries := by
  unfold cached
  cases gw.cache with
  | none => exact ⟨fun _ h => h, fun _ h => by cases h⟩
  | some cache => exact get_mem

theorem put_mem {cache : TtlCache} {entries : CacheEntries} {key : String}
    {value : List EvidenceChunk} {now : ℚ} {entry : String × ℚ × List EvidenceChunk}
    (h : entry ∈ entries.put cache key value now) :
    (entry ∈ entries ∧ entry.1 ≠ key) ∨ entry = (key, now + cache.ttlSeconds, value) := by
  rcases List.mem_append.mp (List.mem_of_mem_drop h) with h | h
  · obtain ⟨hmem, hkey⟩ := List.mem_filter.mp h
    exact .inl ⟨hmem, by simpa using hkey⟩
  · exact .inr (List.mem_singleton.mp h)

theorem search_cached {value : List EvidenceChunk} (h : (cached env gw s st).2 = some value) :
    gw.search env s st = ((cached env gw s st).1, [], .ok (value.take s.query.topK)) := by
  unfold WebLawGateway.search
  generalize cached env gw s st = read at h ⊢
  obtain ⟨st', v⟩ := read
  obtain rfl : v = some value := h
  rfl

theorem stored_mono {e : Event WebLawState WebLawSearch} {before after : CacheEntries}
    (h : Stored env gw web es before) (hafter : ∀ entry ∈ after, entry ∈ before)
    (hquiet : stores env gw e = false) : Stored env gw web (e :: es) after := by
  intro entry hentry
  obtain ⟨e₀, hlast, hvalue⟩ := h entry (hafter entry hentry)
  refine ⟨e₀, ?_, hvalue⟩
  unfold lastStore at hlast ⊢
  rw [List.find?_cons_of_neg (by simp [hquiet])]
  exact hlast

theorem stored_step {post : WebLawState} (hweb : OnWeb env gw web ⟨st, s, post⟩)
    (h : Stored env gw web es st.entries) :
    Stored env gw web (⟨st, s, post⟩ :: es) (gw.search env s st).1.entries := by
  have hread := (@cached_mem env gw s st).1
  cases hcached : (cached env gw s st).2 with
  | some value =>
    -- what is answered from the cache is not stored again
    have hquiet : stores env gw ⟨st, s, post⟩ = false := by simp [stores, hcached]
    rw [search_cached hcached]
    exact stored_mono h hread hquiet
  | none =>
    have hcase := search_asked hcached hweb
    generalize hafter : (gw.search env s st).1.entries = after at hcase ⊢
    generalize hout : (gw.search env s st).2.2 = out at hcase
    cases hcase with
    | failed e _ hkeep =>
      have hquiet : stores env gw ⟨st, s, post⟩ = false := by simp [stores, hout]
      rw [hkeep]
      exact stored_mono h hread hquiet
    | answered result hresult _ hput =>
      cases hcache : gw.cache with
      | none =>
        have hquiet : stores env gw ⟨st, s, post⟩ = false := by simp [stores, hcache]
        rw [hput, hcache]
        exact stored_mono h hread hquiet
      | some cache =>
        have hstores : stores env gw ⟨st, s, post⟩ = true := by
          simp [stores, hcache, hcached, hout]
        rw [hcache] at hput
        rw [hput]
        intro entry hentry
        rcases put_mem hentry with ⟨hold, hkey⟩ | rfl
        · obtain ⟨e₀, hlast, hvalue⟩ := h entry (hread entry hold)
          refine ⟨e₀, ?_, hvalue⟩
          unfold lastStore at hlast ⊢
          rw [List.find?_cons_of_neg (by simpa using fun _ heq => hkey heq.symm)]
          exact hlast
        · refine ⟨⟨st, s, post⟩, ?_, hresult⟩
          unfold lastStore
          exact List.find?_cons_of_pos (by simp [hstores])

end

/-! ## Searches answered from the cache -/

/-- The answer to one question, cut as another one asks, is the answer to that one:
    the web holds the same for both; of what the second looks at, both keep the same;
    and what only the first looks at does not move up. -/
structure ServesAs (env : WebEnv) (gw : WebLawGateway) (web : Web) (first second : SearchQuery) :
    Prop where
  same : found env gw web first.text = found env gw web second.text
  /-- No page fails before the second question has what it asks for. -/
  whole : second.topK ≤ (found env gw web second.text).1.length ∨
    (found env gw web second.text).2 = none
  alike : ∀ n c, (found env gw web second.text).1[n]? = some c → n < second.topK →
    ((n < first.topK ∧ relevant first c = true) ↔ relevant second c = true)
  beyond : ∀ n c, (found env gw web second.text).1[n]? = some c → second.topK ≤ n →
    n < first.topK → relevant first c = true →
    ∀ m d, (found env gw web second.text).1[m]? = some d → m < second.topK →
      relevant second d = true

def ServedAlike (env : WebEnv) (gw : WebLawGateway) (web : Web)
    (earlier : List (Event WebLawState WebLawSearch)) (e : Event WebLawState WebLawSearch) : Prop :=
  (cached env gw e.act e.pre).2 ≠ none →
    ∀ stored, lastStore env gw (cacheKey env e.act) earlier = some stored →
      ServesAs env gw web stored.act.query e.act.query

/-- The cache does not show: with an empty one the evidence would be the same. -/
def Transparent (env : WebEnv) (gw : WebLawGateway) (e : Event WebLawState WebLawSearch) : Prop :=
  (gw.search env e.act e.pre).2.2.map (List.map unnamed) =
    (gw.search env e.act { e.pre with entries := [] }).2.2.map (List.map unnamed)

section

variable {env : WebEnv} {gw : WebLawGateway} {web : Web}
  {es : List (Event WebLawState WebLawSearch)} {e : Event WebLawState WebLawSearch}

theorem asked_owed {s : WebLawSearch} {before after : CacheEntries}
    {out : Except Error (List EvidenceChunk)} (h : Asked env gw web s before after out) :
    out.map (List.map unnamed) = owed env gw web s.query := by
  cases h with
  | failed e howed _ => exact howed.symm
  | answered result _ howed _ => exact howed.symm

theorem emptied_owed (hweb : OnWeb env gw web e) :
    (gw.search env e.act { e.pre with entries := [] }).2.2.map (List.map unnamed) =
      owed env gw web e.act.query := by
  have hcached : (cached env gw e.act { e.pre with entries := [] }).2 = none := by
    unfold cached
    cases gw.cache with
    | none => rfl
    | some cache => rfl
  have hweb' : OnWeb env gw web ⟨{ e.pre with entries := [] }, e.act, e.post⟩ :=
    ⟨hweb.asked, hweb.pages⟩
  exact asked_owed (search_asked hcached hweb')

theorem owed_whole {q : SearchQuery} (h : q.topK ≤ (found env gw web q.text).1.length ∨
    (found env gw web q.text).2 = none) :
    owed env gw web q = .ok (shortlist q.topK (relevant q) (found env gw web q.text).1) := by
  have hfirst : firstOf q.topK (found env gw web q.text) =
      .ok ((found env gw web q.text).1.take q.topK) := by
    unfold firstOf
    cases hfails : (found env gw web q.text).2 with
    | none => rfl
    | some e =>
      dsimp only
      rcases h with hlong | hnone
      · rw [if_neg (by omega)]
      · rw [hfails] at hnone
        cases hnone
  unfold owed
  rw [hfirst]
  rfl

/-- **Event lemma**: a search that is served alike is transparent. -/
theorem served_transparent (hweb : OnWeb env gw web e)
    (hstored : Stored env gw web es e.pre.entries) (halike : ServedAlike env gw web es e) :
    Transparent env gw e := by
  unfold Transparent
  rw [emptied_owed hweb]
  cases hcached : (cached env gw e.act e.pre).2 with
  | none => exact asked_owed (search_asked hcached hweb)
  | some value =>
    obtain ⟨until_, hmem⟩ := cached_mem.2 value hcached
    obtain ⟨stored, hlast, hvalue⟩ := hstored _ hmem
    obtain ⟨hsame, hwhole, hfirst, hlater⟩ := halike (by simp [hcached]) stored hlast
    dsimp only at hvalue
    rw [search_cached hcached, owed_whole hwhole, ← shortlist_serves hfirst hlater, ← hsame,
      ← hvalue, ← List.map_take]
    rfl

theorem run_stored {st : WebLawState} (h : Exec (webLaw env gw) es st)
    (hweb : ∀ e ∈ es, OnWeb env gw web e) : Stored env gw web es st.entries := by
  induction h with
  | start hinit =>
    intro entry hentry
    rw [show _ = ({} : WebLawState) from hinit] at hentry
    cases hentry
  | snoc _ hs ih =>
    obtain rfl := Option.some.inj hs
    exact stored_step (hweb _ List.mem_cons_self)
      (ih (fun e he => hweb e (List.mem_cons_of_mem _ he)))

theorem serves_self {q : SearchQuery} (h : (found env gw web q.text).2 = none) :
    ServesAs env gw web q q where
  same := rfl
  whole := .inr h
  alike := fun _ _ _ hn => and_iff_right hn
  beyond := fun _ _ _ hlow hhigh => absurd hhigh (by omega)

end

/-- **Transparency**: in a run on a web that does not change, in which every search
    that is answered from the cache is served alike, the cache does not show. -/
theorem cache_transparent (env : WebEnv) (gw : WebLawGateway) (web : Web)
    {es : List (Event WebLawState WebLawSearch)} {st : WebLawState}
    (h : Exec (webLaw env gw) es st) (hweb : ∀ e ∈ es, OnWeb env gw web e)
    (halike : Along (ServedAlike env gw web) es) : ∀ e ∈ es, Transparent env gw e := by
  intro e he
  obtain ⟨later, earlier, rfl, hpre, -⟩ := h.split he
  have hstored := run_stored hpre (fun e' he' =>
    hweb e' (List.mem_append_right _ (List.mem_cons_of_mem _ he')))
  exact served_transparent (hweb e he) hstored halike.split.1

namespace Sample

def lawDesk : WebLawGateway where
  client := { providers := ["tavily"] }
  fetcher := { policy := { maxBytes := 1000, acceptContentTypes := ["text/plain"] } }
  config := tenderLaw
  cache := some { ttlSeconds := 86400, maxEntries := 512 }

def runOnHit (url : String) (position : Int) : SearchHit :=
  { title := "Luật Đấu thầu", url := url, position := position
    content := some { text := runOn, readFrom := "chinhphu.vn" } }

def lawHits : List SearchHit :=
  [runOnHit "https://chinhphu.vn/1" 1, runOnHit "https://chinhphu.vn/2" 2]

def lawWeb : Web where
  asked _ := .ok (lawHits, "tavily")
  page provider hit := .ok (pageFor hit provider)

def shallow : SearchQuery := { text := "thời hạn", topK := 1 }

def deep : SearchQuery := { text := "thời hạn", topK := 2 }

def ask (q : SearchQuery) : WebLawSearch where
  query := q
  tenantId := { text := "t" }
  answers _ := .hits lawHits
  exchange _ := { lookup := none, conversation := .unreachable }
  newId _ := { text := "e" }

end Sample

open Sample

theorem lawHits_asked (q : SearchQuery) :
    lawDesk.client.search (allowedHits plainWeb lawDesk.config) (ask q).answers (ask q).clock [] =
      ([], .ok (lawHits, "tavily")) := by
  have hadmitted : allowedHits plainWeb lawDesk.config lawHits = .ok lawHits := by
    have hreadable : (lawHits.any (fun h => (h.host? plainWeb).isNone)) = false := rfl
    have hkept : lawHits.filter (fun h => lawDesk.config.allows plainWeb (h.host plainWeb)) =
        lawHits := by decide +kernel
    rw [allowedHits, hreadable, hkept]
    rfl
  have hclient : lawDesk.client = { providers := ["tavily"] } := rfl
  simp [FailoverSearchClient.search, failover, hclient, ask, Cooldown.blocked, hadmitted]
  exact List.cons_ne_nil _ _

theorem lawHit_page {i : Nat} {hit : SearchHit} (h : lawHits[i]? = some hit) (provider : String) :
    ∃ page, pageFor hit provider = some page ∧ page.text = runOn := by
  have hfull : runOn ≠ "" := by
    intro hnil
    have hletters := congrArg String.toList hnil
    unfold runOn at hletters
    rw [String.toList_ofList] at hletters
    exact absurd hletters (by decide)
  have hmem := List.mem_of_getElem? h
  simp only [lawHits, List.mem_cons, List.not_mem_nil, or_false] at hmem
  unfold pageFor
  rcases hmem with rfl | rfl
  · exact ⟨_, if_neg hfull, rfl⟩
  · exact ⟨_, if_neg hfull, rfl⟩

theorem ask_onWeb {q : SearchQuery} {st post : WebLawState} (h : st.cooldown = []) :
    OnWeb plainWeb lawDesk lawWeb ⟨st, ask q, post⟩ := by
  constructor
  · dsimp only
    rw [h, lawHits_asked]
    rfl
  · intro hits provider hasked i hit hhit
    obtain ⟨rfl, rfl⟩ := Prod.mk.inj (Except.ok.inj hasked)
    obtain ⟨page, hpage, -⟩ := lawHit_page hhit "tavily"
    unfold readPage
    show _ = Except.ok (pageFor hit "tavily")
    rw [hpage]

theorem law_found : ∃ a b, found plainWeb lawDesk lawWeb "thời hạn" = ([a, b], none) ∧
    0 ≤ a.relevanceScore ∧ 0 ≤ b.relevanceScore := by
  obtain ⟨p, hp⟩ : ∃ p, passages plainWeb lawDesk.config runOn "thời hạn" = [p] := by
    refine ⟨passageOf runOn.toList (halfWindow tenderLaw) (0, 101, "thầu".toList), ?_⟩
    show passages plainWeb tenderLaw runOn "thời hạn" = _
    rw [passages_chosen, runOn_chosen, List.map_cons, List.map_nil]
  obtain ⟨first, hfirst, htext⟩ :=
    @lawHit_page 0 (runOnHit "https://chinhphu.vn/1" 1) rfl "tavily"
  obtain ⟨second, hsecond, htext'⟩ :=
    @lawHit_page 1 (runOnHit "https://chinhphu.vn/2" 2) rfl "tavily"
  have hpage : lawWeb.page "tavily" (runOnHit "https://chinhphu.vn/1" 1) = .ok (some first) :=
    congrArg Except.ok hfirst
  have hpage' : lawWeb.page "tavily" (runOnHit "https://chinhphu.vn/2" 2) = .ok (some second) :=
    congrArg Except.ok hsecond
  have hscore : ∀ (text : String) (page : FetchedPage) (hit : SearchHit),
      0 ≤ (toChunk plainWeb lawDesk text page hit nameless).relevanceScore :=
    fun _ _ _ => le_max_left _ _
  refine ⟨toChunk plainWeb lawDesk p first (runOnHit "https://chinhphu.vn/1" 1) nameless,
    toChunk plainWeb lawDesk p second (runOnHit "https://chinhphu.vn/2" 2) nameless, ?_,
    hscore _ _ _, hscore _ _ _⟩
  show foundOn plainWeb lawDesk lawWeb "thời hạn" "tavily"
    [runOnHit "https://chinhphu.vn/1" 1, runOnHit "https://chinhphu.vn/2" 2] = _
  rw [foundOn, hpage, foundOn, hpage', foundOn]
  dsimp only
  rw [htext, htext', hp]
  rfl

def afterAsking (q : SearchQuery) : WebLawState := (lawDesk.search plainWeb (ask q) {}).1

theorem asked_twice (q q' : SearchQuery) : Exec (webLaw plainWeb lawDesk)
    [⟨afterAsking q, ask q', (lawDesk.search plainWeb (ask q') (afterAsking q)).1⟩,
      ⟨{}, ask q, afterAsking q⟩] (lawDesk.search plainWeb (ask q') (afterAsking q)).1 :=
  Exec.snoc (Exec.snoc (.start rfl) rfl) rfl

theorem asked_onWeb (q q' : SearchQuery) : ∀ e ∈
    [⟨afterAsking q, ask q', (lawDesk.search plainWeb (ask q') (afterAsking q)).1⟩,
      ⟨{}, ask q, afterAsking q⟩], OnWeb plainWeb lawDesk lawWeb e := by
  have hcooldown : (afterAsking q).cooldown = [] := by
    unfold afterAsking
    rw [search_cooldown rfl, lawHits_asked]
  intro e he
  rcases List.mem_cons.mp he with rfl | he
  · exact ask_onWeb hcooldown
  · rw [List.mem_singleton.mp he]
    exact ask_onWeb rfl

theorem deep_twice : (∃ es st, Exec (webLaw plainWeb lawDesk) es st ∧ es.length = 2 ∧
    (∀ e ∈ es, OnWeb plainWeb lawDesk lawWeb e) ∧
    Along (ServedAlike plainWeb lawDesk lawWeb) es ∧ ∀ e ∈ es, Transparent plainWeb lawDesk e) := by
  obtain ⟨a, b, hfound, -⟩ := law_found
  have halike : Along (ServedAlike plainWeb lawDesk lawWeb)
      [⟨afterAsking deep, ask deep, (lawDesk.search plainWeb (ask deep) (afterAsking deep)).1⟩,
        ⟨{}, ask deep, afterAsking deep⟩] := by
    refine ⟨?_, ?_, trivial⟩
    · intro _ stored hstored
      have hmem := List.mem_of_find?_eq_some hstored
      rw [List.mem_singleton.mp hmem]
      exact serves_self (by rw [show (ask deep).query.text = "thời hạn" from rfl, hfound])
    · intro _ stored hstored
      cases hstored
  exact ⟨_, _, asked_twice deep deep, rfl, asked_onWeb deep deep, halike,
    cache_transparent plainWeb lawDesk lawWeb (asked_twice deep deep) (asked_onWeb deep deep)
      halike⟩

theorem get_put_nil {cache : TtlCache} {key : String} {value : List EvidenceChunk} {now later : ℚ}
    (hroom : 0 < cache.maxEntries) (hlive : later < now + cache.ttlSeconds) :
    ((CacheEntries.put cache [] key value now).get key later).2 = some value := by
  have hput : CacheEntries.put cache [] key value now = [(key, now + cache.ttlSeconds, value)] := by
    unfold CacheEntries.put
    dsimp only
    rw [List.filter_nil, List.nil_append, List.length_singleton,
      show 1 - cache.maxEntries = 0 by omega, List.drop_zero]
  rw [hput]
  unfold CacheEntries.get
  rw [List.lookup_cons_self]
  dsimp only
  rw [if_neg (not_le.mpr hlive)]

theorem deep_cached {st : WebLawState} {out : Except Error (List EvidenceChunk)}
    (h : Asked plainWeb lawDesk lawWeb (ask shallow) [] st.entries out) :
    ∃ value, (cached plainWeb lawDesk (ask deep) st).2 = some value ∧ value.length ≤ 1 := by
  obtain ⟨a, b, hfound, -⟩ := law_found
  cases h with
  | failed e howed _ =>
    rw [owed_whole (.inr (by rw [show (ask shallow).query.text = "thời hạn" from rfl, hfound]))]
      at howed
    cases howed
  | answered result hresult _ hput =>
    refine ⟨result, ?_, ?_⟩
    · have hkey : cacheKey plainWeb (ask deep) = cacheKey plainWeb (ask shallow) := rfl
      have hlive : (0 : ℚ) < 0 + 86400 := by decide +kernel
      show (st.entries.get (cacheKey plainWeb (ask deep)) 0).2 = some result
      rw [hkey, hput]
      exact get_put_nil (show 0 < 512 by omega) hlive
    · rw [← @List.length_map _ _ _ unnamed, hresult]
      exact shortlist_length_le

theorem shallow_asked : Asked plainWeb lawDesk lawWeb (ask shallow) []
    (afterAsking shallow).entries (lawDesk.search plainWeb (ask shallow) {}).2.2 := by
  have hweb := @ask_onWeb shallow {} (afterAsking shallow) rfl
  rw [afterAsking]
  exact search_asked rfl hweb

/-- **Counterexample**: the first question looks no further than one passage, and the
    second one, which wants two, is answered with that one. -/
theorem cut_by_the_first : ∃ es st, Exec (webLaw plainWeb lawDesk) es st ∧
    (∀ e ∈ es, OnWeb plainWeb lawDesk lawWeb e) ∧
    ¬ ∀ e ∈ es, Transparent plainWeb lawDesk e := by
  refine ⟨_, _, asked_twice shallow deep, asked_onWeb shallow deep, ?_⟩
  intro h
  have hshown := h _ List.mem_cons_self
  have hweb := asked_onWeb shallow deep _ List.mem_cons_self
  obtain ⟨a, b, hfound, ha, hb⟩ := law_found
  -- with an empty cache there are two passages
  have hfresh : owed plainWeb lawDesk lawWeb deep = .ok [a, b] := by
    rw [owed_whole (.inr (by rw [show deep.text = "thời hạn" from rfl, hfound])),
      show deep.text = "thời hạn" from rfl, hfound]
    have hrelevant : ∀ c ∈ [a, b], relevant deep c = true := by
      intro c hc
      rcases List.mem_cons.mp hc with rfl | hc
      · exact decide_eq_true ha
      · rw [List.mem_singleton.mp hc]
        exact decide_eq_true hb
    show Except.ok ([a, b].filter (relevant deep)) = _
    rw [List.filter_eq_self.mpr hrelevant]
  obtain ⟨value, hcached, hshort⟩ := deep_cached shallow_asked
  have hanswer := hshown.trans (emptied_owed hweb)
  dsimp only at hanswer
  rw [search_cached hcached] at hanswer
  have hlengths := congrArg List.length (Except.ok.inj (hanswer.trans hfresh))
  rw [List.length_map, List.length_take] at hlengths
  simp only [List.length_cons, List.length_nil] at hlengths
  omega

end DigitalWorker.Knowledge
