import DigitalWorker.Knowledge.LegalSources

/-! # Only named sources are quoted

    The allowlist and the outbound guard both look at the URL of a search hit.
    The text comes from wherever the exchange ends: the client follows redirects
    without asking again, and a provider may send the page along.
-/

namespace DigitalWorker.Knowledge

open Framework

section

variable {env : WebEnv} {gw : WebLawGateway}

/-! ## The property -/

/-- The allowlist admits a host, read as `SearchHit.host` reads it. -/
def LegalSourceConfig.admits (env : WebEnv) (config : LegalSourceConfig) (host : String) : Bool :=
  config.allows env (env.lower host)

def Excerpt (text page : String) : Prop :=
  ∃ left right, text = Evaluation.collapse (String.ofList (slice page.toList left right))

def Quoted (env : WebEnv) (gw : WebLawGateway) (c : EvidenceChunk) : Prop :=
  gw.config.admits env c.origin.host = true ∧ Excerpt c.content c.origin.page

/-- **The property**, of one search: what it returns is quoted, and its requests
    stay out of private address space. -/
def Fenced (env : WebEnv) (gw : WebLawGateway) (e : Event WebLawState WebLawSearch) : Prop :=
  (∀ chunks, (gw.search env e.act e.pre).2.2 = .ok chunks → ∀ c ∈ chunks, Quoted env gw c) ∧
  (gw.fetcher.allowPrivate = false →
    ∀ hop ∈ (gw.search env e.act e.pre).2.1, hop.address.inward = false)

/-! ## The condition -/

/-- The hits the loop gets to, with their positions, when `n` chunks are there. -/
def reads (env : WebEnv) (gw : WebLawGateway) (s : WebLawSearch) (provider : String) :
    Nat → List SearchHit → Nat → List (Nat × SearchHit)
  | _, [], _ => []
  | i, hit :: rest, n =>
    (i, hit) ::
      match (readPage env gw s provider i hit).2 with
      | .error _ => []
      | .ok none => reads env gw s provider (i + 1) rest n
      | .ok (some page) =>
        let m := n + (passages env gw.config page.text s.query.text).length
        if s.query.topK ≤ m then [] else reads env gw s provider (i + 1) rest m

def Contributes (env : WebEnv) (gw : WebLawGateway) (s : WebLawSearch) (hit : SearchHit)
    (page : FetchedPage) : Prop :=
  passages env gw.config page.text s.query.text ≠ [] ∧
    s.query.minRelevance ≤ score env gw.config hit

def ChainInside (env : WebEnv) (gw : WebLawGateway) (s : WebLawSearch) (hit : SearchHit)
    (lookup : Option (List Address)) (address : Address) (redirects : List Hop)
    (page : Option FetchedPage) : Prop :=
  (gw.fetcher.allowPrivate = false →
    (address ∈ lookup.getD [] ∨ address.inward = false) ∧
      ∀ hop ∈ redirects, hop.address.inward = false) ∧
  ∀ last, redirects.getLast? = some last → ∀ p, page = some p →
    Contributes env gw s hit p → gw.config.admits env last.host = true

def Inside (env : WebEnv) (gw : WebLawGateway) (s : WebLawSearch) (provider : String)
    (r : Nat × SearchHit) : Prop :=
  match pageFor r.2 provider with
  | some page => Contributes env gw s r.2 page → gw.config.admits env page.origin.host = true
  | none =>
    ∀ parts, env.urlsplit r.2.url = some parts →
      ∀ ok, ensureAllowedOutboundUrl r.2.url parts (s.exchange r.1).lookup
        gw.fetcher.allowPrivate = .ok ok →
      ∀ address redirects response,
        (s.exchange r.1).conversation = .reached address redirects response →
        ChainInside env gw s r.2 (s.exchange r.1).lookup address redirects
          (response.bind (readResponse env gw.fetcher.policy r.2.url (parts.hostname.getD "")
            redirects))

/-- **The condition**, of one search: it is answered from the cache, or no
    provider has hits, or every hit that is read stays inside. -/
def StaysInside (env : WebEnv) (gw : WebLawGateway) (e : Event WebLawState WebLawSearch) : Prop :=
  ∀ st hits provider, cached env gw e.act e.pre = (st, none) →
    (gw.client.search (allowedHits env gw.config) e.act.answers e.act.clock st.cooldown).2 =
      .ok (hits, provider) →
    ∀ r ∈ reads env gw e.act provider 0 (hits.take gw.config.maxPagesPerQuery) 0,
      Inside env gw e.act provider r

/-! ## Passages are excerpts -/

theorem windows_excerpts {text : List Char} {half : Nat} {starts : List (Nat × Nat × List Char)}
    {w : Windows} (h : ∀ p ∈ w.out, Excerpt p (String.ofList text)) :
    ∀ p ∈ (windows env gw.config text half starts w).out, Excerpt p (String.ofList text) := by
  -- induction on the anchor places, for every list of windows cut so far
  induction starts generalizing w with
  | nil => exact h
  | cons start rest ih =>
    obtain ⟨rank, hit, anchor⟩ := start
    rw [windows]
    split
    · exact ih h
    · have hnext : ∀ w' : Windows, (∀ p ∈ w'.out, Excerpt p (String.ofList text)) →
          ∀ p ∈ (if gw.config.maxPassagesPerPage ≤ w'.out.length then w'
            else windows env gw.config text half rest w').out, Excerpt p (String.ofList text) := by
        intro w' hw'
        split
        · exact hw'
        · exact ih hw'
      apply hnext
      split
      · intro p hp
        rcases List.mem_append.mp hp with hp | hp
        · exact h p hp
        · obtain rfl := List.mem_singleton.mp hp
          exact ⟨_, _, by rw [String.toList_ofList]⟩
      · exact h

theorem passages_excerpts {text query p : String} (hp : p ∈ passages env gw.config text query) :
    Excerpt p text := by
  have h := @windows_excerpts env gw text.toList
  rw [String.ofList_toList] at h
  exact h (fun p hp => absurd hp List.not_mem_nil) p hp

/-! ## One hit -/

variable {s : WebLawSearch} {provider : String} {i : Nat} {hit : SearchHit}

def Admitted (env : WebEnv) (gw : WebLawGateway) (hit : SearchHit) : Prop :=
  ∃ parts, env.urlsplit hit.url = some parts ∧
    gw.config.admits env (parts.hostname.getD "") = true

theorem allowedHits_admitted {found usable : List SearchHit}
    (h : allowedHits env gw.config found = .ok usable) : ∀ hit ∈ usable, Admitted env gw hit := by
  rw [allowedHits] at h
  split at h
  · cases h
  · next hreadable =>
    cases h
    intro hit hhit
    rw [List.mem_insertionSort, List.mem_filter] at hhit
    obtain ⟨hfound, hallowed⟩ := hhit
    cases hparts : env.urlsplit hit.url with
    | none =>
      exfalso
      apply hreadable
      rw [List.any_eq_true]
      exact ⟨hit, hfound, by simp [SearchHit.host?, hparts]⟩
    | some parts =>
      refine ⟨parts, hparts, ?_⟩
      simpa [LegalSourceConfig.admits, SearchHit.host, SearchHit.host?, hparts] using hallowed

structure ReadInside (env : WebEnv) (gw : WebLawGateway) (s : WebLawSearch) (provider : String)
    (r : Nat × SearchHit) : Prop where
  hops : gw.fetcher.allowPrivate = false →
    ∀ hop ∈ (readPage env gw s provider r.1 r.2).1, hop.address.inward = false
  page : ∀ page, (readPage env gw s provider r.1 r.2).2 = .ok (some page) →
    Contributes env gw s r.2 page → gw.config.admits env page.origin.host = true

theorem readResponse_page {policy : FetchPolicy} {url host : String} {redirects : List Hop}
    {response : Response} {page : FetchedPage}
    (h : readResponse env policy url host redirects response = some page) :
    page.origin.page = page.text ∧ page.origin.host = finalHost host redirects := by
  cases hdecoded : response.decoded with
  | none =>
    simp only [readResponse, hdecoded, Option.ite_none_left_eq_some] at h
    exact absurd h.2.2 (by simp)
  | some html =>
    simp only [readResponse, hdecoded, Option.ite_none_left_eq_some, Option.some.injEq] at h
    obtain ⟨-, -, -, rfl⟩ := h
    exact ⟨rfl, rfl⟩

theorem readPage_text {page : FetchedPage}
    (h : (readPage env gw s provider i hit).2 = .ok (some page)) :
    page.origin.page = page.text := by
  simp only [readPage] at h
  split at h
  · next body hbody =>
    cases h
    simp only [pageFor] at hbody
    split at hbody
    · cases hbody
    · split at hbody
      · cases hbody
      · cases hbody
        rfl
  · simp only [PageFetcher.fetch] at h
    split at h
    · cases h
    · split at h
      · cases h
      · split at h
        · cases h
        · simp only [Except.ok.injEq] at h
          obtain ⟨response, -, hresponse⟩ := Option.bind_eq_some_iff.mp h
          exact (readResponse_page hresponse).1

theorem readPage_ok (h : Admitted env gw hit) :
    ∃ page, (readPage env gw s provider i hit).2 = .ok page := by
  obtain ⟨parts, hparts, -⟩ := h
  simp only [readPage, PageFetcher.fetch, hparts]
  split
  · exact ⟨_, rfl⟩
  · split
    · exact ⟨_, rfl⟩
    · split
      · exact ⟨_, rfl⟩
      · exact ⟨_, rfl⟩

theorem guard_lookup {url ok : String} {parts : SplitUrl} {lookup : Option (List Address)}
    (h : ensureAllowedOutboundUrl url parts lookup false = .ok ok) :
    ∀ a ∈ lookup.getD [], a.inward = false := by
  simp only [ensureAllowedOutboundUrl, List.contains_nil, Bool.or_false, Bool.false_eq_true,
    ↓reduceIte, ↓raiseIf_bind_ok] at h
  obtain ⟨-, -, -, h⟩ := h
  intro a ha
  cases lookup with
  | none => simp at ha
  | some addresses =>
    simp only [isPrivateAddress, bind_ok, Except.ok.injEq, exists_eq_left', raiseIf_ok] at h
    obtain ⟨_, hall, -⟩ := h
    rw [List.any_eq_false] at hall
    have := hall a ha
    simp only [Bool.or_eq_true, not_or, Bool.not_eq_true] at this
    simp [Address.inward, this]

theorem finalHost_last {host : String} {redirects : List Hop} {last : Hop}
    (h : redirects.getLast? = some last) : finalHost host redirects = last.host := by
  rw [finalHost, h]

/-- **One read**: what the condition says of an admitted hit is what is asked of the
    read. -/
theorem inside_iff (h : Admitted env gw hit) :
    Inside env gw s provider (i, hit) ↔ ReadInside env gw s provider (i, hit) := by
  obtain ⟨parts, hparts, hhost⟩ := h
  cases hbody : pageFor hit provider with
  | some page =>
    have hread : readPage env gw s provider i hit = ([], .ok (some page)) := by
      simp only [readPage, hbody]
    simp only [Inside, hbody]
    constructor
    · intro h
      constructor
      · intro _ hop hhop
        rw [hread] at hhop
        cases hhop
      · intro p hp
        rw [hread] at hp
        cases hp
        exact h
    · intro h
      exact h.page page (by rw [hread])
  | none =>
    have hread : readPage env gw s provider i hit =
        gw.fetcher.fetch env hit.url (s.exchange i) := by
      simp only [readPage, hbody]
    simp only [Inside, hbody]
    cases hguard : ensureAllowedOutboundUrl hit.url parts (s.exchange i).lookup
        gw.fetcher.allowPrivate with
    | error e =>
      have hnone : readPage env gw s provider i hit = ([], .ok none) := by
        simp only [hread, PageFetcher.fetch, hparts, hguard]
      constructor
      · intro _
        constructor
        · intro _ hop hhop
          rw [hnone] at hhop
          cases hhop
        · intro p hp
          rw [hnone] at hp
          cases hp
      · intro _ parts' hparts' ok hok
        rw [hparts] at hparts'
        cases hparts'
        rw [hguard] at hok
        cases hok
    | ok url =>
      cases hconv : (s.exchange i).conversation with
      | unreachable =>
        have hnone : readPage env gw s provider i hit = ([], .ok none) := by
          simp only [hread, PageFetcher.fetch, hparts, hguard, hconv]
        constructor
        · intro _
          constructor
          · intro _ hop hhop
            rw [hnone] at hhop
            cases hhop
          · intro p hp
            rw [hnone] at hp
            cases hp
        · intro _ _ _ _ _ address redirects response hreached
          cases hreached
      | reached address redirects response =>
        have hsome : readPage env gw s provider i hit =
            ({ host := parts.hostname.getD "", address := address } :: redirects,
              .ok (response.bind (readResponse env gw.fetcher.policy hit.url
                (parts.hostname.getD "") redirects))) := by
          simp only [hread, PageFetcher.fetch, hparts, hguard, hconv]
        constructor
        · intro h
          obtain ⟨hhops, hlast⟩ := h parts hparts url hguard address redirects response rfl
          constructor
          · intro hprivate hop hhop
            rw [hsome] at hhop
            obtain ⟨hfirst, hrest⟩ := hhops hprivate
            rcases List.mem_cons.mp hhop with rfl | hhop
            · rcases hfirst with hfirst | hfirst
              · rw [hprivate] at hguard
                exact guard_lookup hguard address hfirst
              · exact hfirst
            · exact hrest hop hhop
          · intro p hp hcontributes
            rw [hsome] at hp
            have hp : response.bind (readResponse env gw.fetcher.policy hit.url
                (parts.hostname.getD "") redirects) = some p := by simpa using hp
            obtain ⟨r, -, hr⟩ := Option.bind_eq_some_iff.mp hp
            rw [(readResponse_page hr).2]
            -- without a redirect the page is of the host the allowlist saw
            cases hredirects : redirects.getLast? with
            | none =>
              rw [finalHost, hredirects]
              exact hhost
            | some last =>
              rw [finalHost_last hredirects]
              exact hlast last hredirects p hp hcontributes
        · intro h parts' hparts' ok hok address' redirects' response' hreached
          rw [hparts] at hparts'
          cases hparts'
          cases hreached
          constructor
          · intro hprivate
            have hall := h.hops hprivate
            rw [hsome] at hall
            constructor
            · exact .inr (hall _ List.mem_cons_self)
            · intro hop hhop
              exact hall hop (List.mem_cons_of_mem _ hhop)
          · intro last hlast p hp hcontributes
            have hpage := h.page p (by rw [hsome, hp]) hcontributes
            obtain ⟨r, -, hr⟩ := Option.bind_eq_some_iff.mp hp
            rw [(readResponse_page hr).2, finalHost_last hlast] at hpage
            exact hpage

/-! ## The loops -/

theorem appendPassages_length {page : FetchedPage} {texts : List String}
    {chunks : List EvidenceChunk} (h : chunks.length < s.query.topK) :
    (appendPassages env gw s page hit texts chunks).length =
      min s.query.topK (chunks.length + texts.length) := by
  induction texts generalizing chunks with
  | nil =>
    show chunks.length = min s.query.topK (chunks.length + 0)
    omega
  | cons text rest ih =>
    have hgrown : (chunks ++ [toChunk env gw text page hit (s.newId chunks.length)]).length =
        chunks.length + 1 := by simp
    rw [appendPassages, List.length_cons, hgrown]
    by_cases hfull : s.query.topK ≤ chunks.length + 1
    · rw [if_pos hfull, hgrown]
      omega
    · rw [if_neg hfull, ih (by omega), hgrown]
      omega

theorem appendPassages_keeps {page : FetchedPage} {texts : List String}
    {chunks : List EvidenceChunk} {c : EvidenceChunk} (hc : c ∈ chunks) :
    c ∈ appendPassages env gw s page hit texts chunks := by
  induction texts generalizing chunks with
  | nil => exact hc
  | cons text rest ih =>
    simp only [appendPassages]
    split
    · exact List.mem_append_left _ hc
    · exact ih (List.mem_append_left _ hc)

def CutFrom (env : WebEnv) (gw : WebLawGateway) (s : WebLawSearch) (hit : SearchHit)
    (page : FetchedPage) (c : EvidenceChunk) : Prop :=
  ∃ text ∈ passages env gw.config page.text s.query.text, ∃ id,
    c = toChunk env gw text page hit id

theorem mem_appendPassages {page : FetchedPage} {texts : List String}
    {chunks : List EvidenceChunk} {c : EvidenceChunk}
    (hc : c ∈ appendPassages env gw s page hit texts chunks) :
    c ∈ chunks ∨ ∃ text ∈ texts, ∃ id, c = toChunk env gw text page hit id := by
  induction texts generalizing chunks with
  | nil => exact .inl hc
  | cons text rest ih =>
    have hnew : ∀ c', c' ∈ chunks ++ [toChunk env gw text page hit (s.newId chunks.length)] →
        c' ∈ chunks ∨ ∃ t ∈ text :: rest, ∃ id, c' = toChunk env gw t page hit id := by
      intro c' hc'
      rcases List.mem_append.mp hc' with hc' | hc'
      · exact .inl hc'
      · exact .inr ⟨text, List.mem_cons_self, _, List.mem_singleton.mp hc'⟩
    simp only [appendPassages] at hc
    split at hc
    · exact hnew c hc
    · rcases ih hc with hc | ⟨t, ht, hid⟩
      · exact hnew c hc
      · exact .inr ⟨t, List.mem_cons_of_mem _ ht, hid⟩

theorem appendPassages_cuts {page : FetchedPage} {texts : List String}
    {chunks : List EvidenceChunk} (h : texts ≠ []) :
    ∃ text ∈ texts, ∃ id, toChunk env gw text page hit id ∈
      appendPassages env gw s page hit texts chunks := by
  cases texts with
  | nil => exact absurd rfl h
  | cons text rest =>
    refine ⟨text, List.mem_cons_self, s.newId chunks.length, ?_⟩
    simp only [appendPassages]
    split
    · exact List.mem_append_right _ List.mem_cons_self
    · exact appendPassages_keeps (List.mem_append_right _ List.mem_cons_self)

structure Collected (env : WebEnv) (gw : WebLawGateway) (s : WebLawSearch) (provider : String)
    (rs : List (Nat × SearchHit)) (chunks : List EvidenceChunk)
    (out : List Hop × Except Error (List EvidenceChunk)) : Prop where
  hops : ∀ hop, hop ∈ out.1 ↔ ∃ r ∈ rs, hop ∈ (readPage env gw s provider r.1 r.2).1
  ok : ∃ result, out.2 = .ok result ∧ result.length ≤ s.query.topK ∧
    (∀ c ∈ chunks, c ∈ result) ∧
    (∀ c ∈ result, c ∈ chunks ∨ ∃ r ∈ rs, ∃ page,
      (readPage env gw s provider r.1 r.2).2 = .ok (some page) ∧ CutFrom env gw s r.2 page c) ∧
    (∀ r ∈ rs, ∀ page, (readPage env gw s provider r.1 r.2).2 = .ok (some page) →
      passages env gw.config page.text s.query.text ≠ [] →
      ∃ c ∈ result, CutFrom env gw s r.2 page c)

theorem collectChunks_collected {hits : List SearchHit} {chunks : List EvidenceChunk}
    (hadmitted : ∀ hit ∈ hits, Admitted env gw hit) (hroom : chunks.length < s.query.topK) :
    Collected env gw s provider (reads env gw s provider i hits chunks.length) chunks
      (collectChunks env gw s provider i hits chunks) := by
  induction hits generalizing i chunks with
  | nil =>
    constructor
    · simp [collectChunks, reads]
    · exact ⟨chunks, rfl, hroom.le, fun c hc => hc, fun c hc => .inl hc,
        fun r hr => absurd hr List.not_mem_nil⟩
  | cons hit rest ih =>
    have hrest : ∀ h ∈ rest, Admitted env gw h := fun h hh =>
      hadmitted h (List.mem_cons_of_mem _ hh)
    obtain ⟨page, hpage⟩ := @readPage_ok env gw s provider i hit (hadmitted hit List.mem_cons_self)
    cases page with
    | none =>
      -- nothing could be read: the loop goes on with what it has
      obtain ⟨hhops, result, hok, hlength, hkeeps, hcut, hleaves⟩ := ih (i := i + 1) hrest hroom
      simp only [collectChunks, reads, hpage]
      constructor
      · intro hop
        rw [List.mem_append, hhops]
        simp only [List.exists_mem_cons_iff]
      · refine ⟨result, hok, hlength, hkeeps, ?_, ?_⟩
        · intro c hc
          rcases hcut c hc with hc | ⟨r, hr, hfrom⟩
          · exact .inl hc
          · exact .inr ⟨r, List.mem_cons_of_mem _ hr, hfrom⟩
        · intro r hr p hp hpassages
          rcases List.mem_cons.mp hr with rfl | hr
          · rw [hpage] at hp
            cases hp
          · exact hleaves r hr p hp hpassages
    | some page =>
      have hlength' := @appendPassages_length env gw s hit page
        (passages env gw.config page.text s.query.text) chunks hroom
      have hcut' : ∀ c ∈ appendPassages env gw s page hit
          (passages env gw.config page.text s.query.text) chunks,
          c ∈ chunks ∨ CutFrom env gw s hit page c := fun c hc => mem_appendPassages hc
      have hleaves' : passages env gw.config page.text s.query.text ≠ [] →
          ∃ c ∈ appendPassages env gw s page hit
            (passages env gw.config page.text s.query.text) chunks, CutFrom env gw s hit page c := by
        intro hpassages
        obtain ⟨text, htext, id, hc⟩ := @appendPassages_cuts env gw s hit page _ chunks hpassages
        exact ⟨_, hc, text, htext, id, rfl⟩
      by_cases hfull : s.query.topK ≤
          chunks.length + (passages env gw.config page.text s.query.text).length
      · -- the answer is full: the loop ends here
        simp only [collectChunks, reads, hpage, hlength', if_pos hfull,
          if_pos (show s.query.topK ≤ min s.query.topK (chunks.length +
            (passages env gw.config page.text s.query.text).length) by omega)]
        constructor
        · intro hop
          simp only [List.mem_singleton, exists_eq_left]
        · refine ⟨_, rfl, by rw [hlength']; omega, fun c hc => appendPassages_keeps hc, ?_, ?_⟩
          · intro c hc
            rcases hcut' c hc with hc | hc
            · exact .inl hc
            · exact .inr ⟨(i, hit), List.mem_cons_self, page, hpage, hc⟩
          · intro r hr p hp hpassages
            obtain rfl := List.mem_singleton.mp hr
            rw [hpage] at hp
            cases hp
            exact hleaves' hpassages
      · have hroom' : (appendPassages env gw s page hit
            (passages env gw.config page.text s.query.text) chunks).length < s.query.topK := by
          omega
        obtain ⟨hhops, result, hok, hlength, hkeeps, hcut, hleaves⟩ :=
          ih (i := i + 1) hrest hroom'
        rw [hlength', min_eq_right (by omega)] at hhops hcut hleaves
        simp only [collectChunks, reads, hpage, hlength', if_neg hfull,
          if_neg (show ¬ s.query.topK ≤ min s.query.topK (chunks.length +
            (passages env gw.config page.text s.query.text).length) by omega)]
        constructor
        · intro hop
          rw [List.mem_append, hhops]
          simp only [List.exists_mem_cons_iff]
        · refine ⟨result, hok, hlength, fun c hc => hkeeps c (appendPassages_keeps hc), ?_, ?_⟩
          · intro c hc
            rcases hcut c hc with hc | ⟨r, hr, hfrom⟩
            · rcases hcut' c hc with hc | hc
              · exact .inl hc
              · exact .inr ⟨(i, hit), List.mem_cons_self, page, hpage, hc⟩
            · exact .inr ⟨r, List.mem_cons_of_mem _ hr, hfrom⟩
          · intro r hr p hp hpassages
            rcases List.mem_cons.mp hr with rfl | hr
            · rw [hpage] at hp
              cases hp
              obtain ⟨c, hc, hfrom⟩ := hleaves' hpassages
              exact ⟨c, hkeeps c hc, hfrom⟩
            · exact hleaves r hr p hp hpassages

/-! ## One search -/

/-- The hits an answer of the providers consists of were let through by `accept`. -/
theorem failover_accepted {client : FailoverSearchClient}
    {accept : List SearchHit → Except Error (List SearchHit)} {answers : Nat → ProviderAnswer}
    {clock : Nat → ℚ} {providers : List String} {k : Nat} {c : Cooldown}
    {usable : List SearchHit} {provider : String}
    (h : (failover client accept answers clock k providers c).2 = .ok (usable, provider)) :
    ∃ found, accept found = .ok usable := by
  induction providers generalizing k c with
  | nil => cases h
  | cons p rest ih =>
    simp only [failover] at h
    split at h
    · exact ih h
    · split at h
      · exact ih h
      · exact ih h
      · exact ih h
      · exact ih h
      · next found _ =>
        split at h
        · cases h
        · next usable' haccept =>
          split at h
          · exact ih h
          · simp only [Except.ok.injEq, Prod.mk.injEq] at h
            exact ⟨found, by rw [haccept, h.1]⟩

theorem search_admitted {c : Cooldown} {hits : List SearchHit}
    (h : (gw.client.search (allowedHits env gw.config) s.answers s.clock c).2 =
      .ok (hits, provider)) :
    ∀ hit ∈ hits.take gw.config.maxPagesPerQuery, Admitted env gw hit := by
  rw [FailoverSearchClient.search] at h
  split at h
  · cases h
  · obtain ⟨found, hfound⟩ := failover_accepted h
    intro hit hhit
    exact allowedHits_admitted hfound hit (List.mem_of_mem_take hhit)

theorem CutFrom.origin {page : FetchedPage} {c : EvidenceChunk} (h : CutFrom env gw s hit page c) :
    c.origin = page.origin ∧ c.relevanceScore = score env gw.config hit ∧
      Excerpt c.content page.text := by
  obtain ⟨text, htext, id, rfl⟩ := h
  exact ⟨rfl, rfl, passages_excerpts htext⟩

def Kept (env : WebEnv) (gw : WebLawGateway) (st : WebLawState) : Prop :=
  ∀ entry ∈ st.entries, ∀ c ∈ entry.2.2, Quoted env gw c

theorem get_kept {entries : CacheEntries} {key : String} {now : ℚ}
    (h : ∀ entry ∈ entries, ∀ c ∈ entry.2.2, Quoted env gw c) :
    (∀ entry ∈ (entries.get key now).1, ∀ c ∈ entry.2.2, Quoted env gw c) ∧
      ∀ value, (entries.get key now).2 = some value → ∀ c ∈ value, Quoted env gw c := by
  cases hlookup : entries.lookup key with
  | none => simpa [CacheEntries.get, hlookup] using h
  | some found =>
    obtain ⟨expiresAt, value⟩ := found
    have hvalue : ∀ c ∈ value, Quoted env gw c := by
      obtain ⟨before, after, rfl, -⟩ := List.lookup_eq_some_iff.mp hlookup
      exact h (key, expiresAt, value) (List.mem_append_right _ List.mem_cons_self)
    have hothers : ∀ entry ∈ entries.filter (fun e => e.1 ≠ key), ∀ c ∈ entry.2.2,
        Quoted env gw c := fun entry he => h entry (List.mem_of_mem_filter he)
    simp only [CacheEntries.get, hlookup]
    split
    · exact ⟨hothers, fun v hv => by cases hv⟩
    · constructor
      · intro entry he
        rcases List.mem_append.mp he with he | he
        · exact hothers entry he
        · obtain rfl := List.mem_singleton.mp he
          exact hvalue
      · intro v hv
        cases hv
        exact hvalue

theorem put_kept {cache : TtlCache} {entries : CacheEntries} {key : String}
    {value : List EvidenceChunk} {now : ℚ}
    (h : ∀ entry ∈ entries, ∀ c ∈ entry.2.2, Quoted env gw c)
    (hvalue : ∀ c ∈ value, Quoted env gw c) :
    ∀ entry ∈ entries.put cache key value now, ∀ c ∈ entry.2.2, Quoted env gw c := by
  intro entry he
  rcases List.mem_append.mp (List.mem_of_mem_drop he) with he | he
  · exact h entry (List.mem_of_mem_filter he)
  · obtain rfl := List.mem_singleton.mp he
    exact hvalue

theorem cached_kept {st : WebLawState} (h : Kept env gw st) :
    Kept env gw (cached env gw s st).1 ∧
      ∀ value, (cached env gw s st).2 = some value → ∀ c ∈ value, Quoted env gw c := by
  rw [cached]
  split
  · exact ⟨h, fun v hv => by cases hv⟩
  · exact get_kept h

theorem reads_mem {hits : List SearchHit} {n : Nat} {r : Nat × SearchHit}
    (hr : r ∈ reads env gw s provider i hits n) : r.2 ∈ hits := by
  induction hits generalizing i n with
  | nil => cases hr
  | cons hit rest ih =>
    rcases List.mem_cons.mp hr with rfl | hr
    · exact List.mem_cons_self
    · apply List.mem_cons_of_mem
      split at hr
      · cases hr
      · exact ih hr
      · simp only at hr
        split at hr
        · cases hr
        · exact ih hr

theorem collected_fenced {rs : List (Nat × SearchHit)} {out : List Hop × Except Error (List EvidenceChunk)}
    (h : Collected env gw s provider rs [] out) {result : List EvidenceChunk}
    (hresult : out.2 = .ok result) :
    (∀ r ∈ rs, ReadInside env gw s provider r) ↔
      (∀ c ∈ result.filter (fun c => s.query.minRelevance ≤ c.relevanceScore),
        Quoted env gw c) ∧
      (gw.fetcher.allowPrivate = false → ∀ hop ∈ out.1, hop.address.inward = false) := by
  obtain ⟨hhops, result', hok, -, -, hcut, hleaves⟩ := h
  rw [hresult] at hok
  cases hok
  constructor
  · intro hreads
    constructor
    · intro c hc
      obtain ⟨hc, hscore⟩ := List.mem_filter.mp hc
      rcases hcut c hc with hc | ⟨r, hr, page, hpage, hfrom⟩
      · cases hc
      · obtain ⟨horigin, hrelevance, hexcerpt⟩ := hfrom.origin
        have hpassages : passages env gw.config page.text s.query.text ≠ [] := by
          obtain ⟨text, htext, -⟩ := hfrom
          exact List.ne_nil_of_mem htext
        have hadmits := (hreads r hr).page page hpage
          ⟨hpassages, by rw [← hrelevance]; exact of_decide_eq_true hscore⟩
        rw [Quoted, horigin, readPage_text hpage]
        exact ⟨hadmits, hexcerpt⟩
    · intro hprivate hop hhop
      obtain ⟨r, hr, hhop⟩ := (hhops hop).mp hhop
      exact (hreads r hr).hops hprivate hop hhop
  · intro h r hr
    constructor
    · intro hprivate hop hhop
      exact h.2 hprivate hop ((hhops hop).mpr ⟨r, hr, hhop⟩)
    · intro page hpage hcontributes
      obtain ⟨c, hc, hfrom⟩ := hleaves r hr page hpage hcontributes.1
      obtain ⟨horigin, hrelevance, -⟩ := hfrom.origin
      have hquoted := h.1 c (List.mem_filter.mpr ⟨hc, by
        rw [hrelevance]
        exact decide_eq_true hcontributes.2⟩)
      rw [← horigin]
      exact hquoted.1

/-- **One search**: what was kept so far being quoted, the search stays behind the
    fence exactly when its reads do; and then what is kept after it is quoted. -/
theorem search_fenced {st : WebLawState} (hkept : Kept env gw st) (post : WebLawState) :
    (Fenced env gw ⟨st, s, post⟩ ↔ StaysInside env gw ⟨st, s, post⟩) ∧
      (Fenced env gw ⟨st, s, post⟩ → Kept env gw (gw.search env s st).1) := by
  have hentries := @cached_kept env gw s st hkept
  cases hcached : cached env gw s st with
  | mk st' found =>
  rw [hcached] at hentries
  obtain ⟨hkept', hvalues⟩ := hentries
  cases found with
  | some value =>
    -- answered from the cache: nothing is read
    have hsearch : gw.search env s st = (st', [], .ok (value.take s.query.topK)) := by
      simp only [WebLawGateway.search, hcached]
    simp only [Fenced, StaysInside, hsearch, hcached]
    constructor
    · constructor
      · intro _ st'' hits provider hnone
        cases hnone
      · intro _
        constructor
        · intro chunks hchunks c hc
          cases hchunks
          exact hvalues value rfl c (List.mem_of_mem_take hc)
        · intro _ hop hhop
          cases hhop
    · intro _
      exact hkept'
  | none =>
    cases hasked : (gw.client.search (allowedHits env gw.config) s.answers s.clock
        st'.cooldown).2 with
    | error e =>
      have hsearch : gw.search env s st = ({ st' with
          cooldown := (gw.client.search (allowedHits env gw.config) s.answers s.clock
            st'.cooldown).1 }, [], .error e) := by
        simp only [WebLawGateway.search, hcached, hasked]
      simp only [Fenced, StaysInside, hsearch, hcached]
      constructor
      · constructor
        · intro _ st'' hits provider hnone hhits
          cases hnone
          rw [hasked] at hhits
          cases hhits
        · intro _
          constructor
          · intro chunks hchunks
            cases hchunks
          · intro _ hop hhop
            cases hhop
      · intro _
        exact hkept'
    | ok answer =>
      obtain ⟨hits, provider⟩ := answer
      have hadmitted := search_admitted hasked
      have hcollected := @collectChunks_collected env gw s provider 0
        (hits.take gw.config.maxPagesPerQuery) [] hadmitted s.query.topK_bounds.1
      obtain ⟨-, result, hok, hlength, -⟩ := id hcollected
      have htake : (result.filter (fun c => s.query.minRelevance ≤ c.relevanceScore)).take
          s.query.topK = result.filter (fun c => s.query.minRelevance ≤ c.relevanceScore) :=
        List.take_of_length_le ((List.length_filter_le _ _).trans hlength)
      have hfenced := collected_fenced hcollected hok
      have hinside : StaysInside env gw ⟨st, s, post⟩ ↔
          ∀ r ∈ reads env gw s provider 0 (hits.take gw.config.maxPagesPerQuery) 0,
            ReadInside env gw s provider r := by
        simp only [StaysInside, hcached]
        constructor
        · intro h r hr
          exact (inside_iff (hadmitted r.2 (reads_mem hr))).mp (h st' hits provider rfl hasked r hr)
        · intro h st'' hits' provider' hst hhits r hr
          cases hst
          rw [hasked] at hhits
          cases hhits
          exact (inside_iff (hadmitted r.2 (reads_mem hr))).mpr (h r hr)
      have hout : (gw.search env s st).2 = ((collectChunks env gw s provider 0
          (hits.take gw.config.maxPagesPerQuery) []).1, .ok (result.filter
            (fun c => s.query.minRelevance ≤ c.relevanceScore))) := by
        simp only [WebLawGateway.search, hcached, hasked, hok, htake]
      have hproperty : Fenced env gw ⟨st, s, post⟩ ↔
          (∀ c ∈ result.filter (fun c => s.query.minRelevance ≤ c.relevanceScore),
            Quoted env gw c) ∧
          (gw.fetcher.allowPrivate = false → ∀ hop ∈ (collectChunks env gw s provider 0
            (hits.take gw.config.maxPagesPerQuery) []).1, hop.address.inward = false) := by
        simp only [Fenced, hout, Except.ok.injEq, forall_eq']
      constructor
      · exact hproperty.trans (hfenced.symm.trans hinside.symm)
      · intro h
        have hquoted := (hproperty.mp h).1
        simp only [WebLawGateway.search, hcached, hasked, hok]
        split
        · exact hkept'
        · exact put_kept hkept' hquoted

/-- **Named sources**: over a run, whatever the servers do, everything returned is
    text of an allowed host and no request goes to a private address if and only if
    every search stays inside. -/
theorem fenced_iff {es : List (Event WebLawState WebLawSearch)} {st : WebLawState}
    (h : Exec (webLaw env gw) es st) :
    (∀ e ∈ es, Fenced env gw e) ↔ ∀ e ∈ es, StaysInside env gw e := by
  -- along the run, what is kept is quoted as long as nothing got past the fence
  have hrun := h.history_invariant
    (P := fun es st => ((∀ e ∈ es, Fenced env gw e) ↔ ∀ e ∈ es, StaysInside env gw e) ∧
      ((∀ e ∈ es, Fenced env gw e) → Kept env gw st)) ?_ ?_
  · exact hrun.1
  · intro st hst
    obtain rfl : st = {} := hst
    constructor
    · simp
    · intro _ entry he
      cases he
  · intro es st s st' _ ih hstep
    obtain rfl : (gw.search env s st).1 = st' := Option.some.inj hstep
    obtain ⟨hiff, hkeeps⟩ := ih
    simp only [List.forall_mem_cons]
    constructor
    · constructor
      · intro hall
        have hearlier := hiff.mp hall.2
        exact ⟨(search_fenced (hkeeps hall.2) _).1.mp hall.1, hearlier⟩
      · intro hall
        have hearlier := hiff.mpr hall.2
        exact ⟨(search_fenced (hkeeps hearlier) _).1.mpr hall.1, hearlier⟩
    · intro hall
      exact (search_fenced (hkeeps hall.2) _).2 hall.1

end

/-! ## Two searches -/

namespace LegalDesk

def clause : String :=
  "Điều 27. Hồ sơ mời thầu phải nêu rõ tiêu chuẩn đánh giá và thời hạn nộp hồ sơ dự thầu theo luật."

def env : WebEnv where
  urlsplit _ := some { scheme := "https", hostname := some "vanban.chinhphu.vn" }
  htmlEvents _ := []
  lower := id
  casefold := id
  searches _ _ := true
  uuid5 _ := { text := "law" }
  sha256 := id

def gateway : WebLawGateway where
  client := { providers := ["serper"] }
  fetcher := { policy := { maxBytes := 1000, acceptContentTypes := ["text/plain"] } }
  config := { allowedDomains := ["chinhphu.vn"], preferredOrder := ["chinhphu.vn"]
              anchors := ["Điều"] }

def office : Address := { text := "1.2.3.4" }

def loopback : Address := { text := "127.0.0.1", isLoopback := true }

def hit : SearchHit :=
  { title := "Luật Đấu thầu", url := "https://vanban.chinhphu.vn/l", position := 1 }

/-- A question with one hit, whose server sends the client on to `redirects`. -/
def question (redirects : List Hop) : WebLawSearch where
  query := { text := "thời hạn" }
  tenantId := { text := "t" }
  answers _ := .hits [hit]
  exchange _ :=
    { lookup := some [office]
      conversation := .reached office redirects
        (some { contentType := "text/plain", size := 100, decoded := some clause }) }
  newId _ := { text := "e" }

theorem question_exec (redirects : List Hop) :
    Exec (webLaw env gateway)
      [⟨{}, question redirects, (gateway.search env (question redirects) {}).1⟩]
      (gateway.search env (question redirects) {}).1 :=
  Exec.snoc (.start rfl) rfl

def sentInside : List Hop := [{ host := "evil.example", address := loopback }]

theorem asked_hit (redirects : List Hop) :
    (gateway.client.search (allowedHits env gateway.config) (question redirects).answers
      (question redirects).clock []).2 = .ok ([hit], "serper") := by
  have hallows : gateway.config.allows env (hit.host env) = true := by decide +kernel
  have hadmitted : allowedHits env gateway.config [hit] = .ok [hit] := by
    have hreadable : ([hit].any (fun h => (h.host? env).isNone)) = false := rfl
    rw [allowedHits, hreadable]
    simp only [List.filter_cons, hallows]
    rfl
  have hclient : gateway.client = { providers := ["serper"] } := rfl
  simp [FailoverSearchClient.search, failover, hclient, question, Cooldown.blocked, hadmitted]

/-- Without a redirect the page is quoted. -/
theorem page_quoted : ∃ es st, Exec (webLaw env gateway) es st ∧ es ≠ [] ∧
    ∀ e ∈ es, Fenced env gateway e := by
  refine ⟨_, _, question_exec [], by simp, ?_⟩
  rw [fenced_iff (question_exec [])]
  intro e he
  obtain rfl := List.mem_singleton.mp he
  intro st hits provider hcached hasked r hr
  cases hcached
  cases (asked_hit []).symm.trans hasked
  obtain ⟨i, r⟩ := r
  obtain rfl : r = hit := List.mem_singleton.mp (reads_mem hr)
  have hbody : pageFor hit "serper" = none := rfl
  simp only [Inside, hbody]
  intro parts _ ok _ address redirects response hreached
  cases hreached
  constructor
  · intro _
    exact ⟨.inl List.mem_cons_self, fun hop hhop => by cases hhop⟩
  · intro last hlast
    cases hlast

/-- The allowed page sends the client on to a service on the same machine, and the
    client goes there. -/
theorem redirected_past_the_fence : ∃ es st, Exec (webLaw env gateway) es st ∧
    ¬ (∀ e ∈ es, Fenced env gateway e) := by
  refine ⟨_, _, question_exec sentInside, ?_⟩
  rw [fenced_iff (question_exec sentInside)]
  intro h
  have hinside := h _ List.mem_cons_self {} [hit] "serper" rfl (asked_hit sentInside)
    (0, hit) List.mem_cons_self
  have hbody : pageFor hit "serper" = none := rfl
  simp only [Inside, hbody] at hinside
  have hchain := hinside _ rfl _ rfl office sentInside _ rfl
  have hredirect := (hchain.1 rfl).2 _ List.mem_cons_self
  cases hredirect

end LegalDesk

end DigitalWorker.Knowledge
