import Mathlib.Algebra.Order.Field.Rat
import Mathlib.Data.List.Sort
import DigitalWorker.Evaluation.Quotes
import DigitalWorker.Framework.Machine

/-! # Live legal retrieval

    A question is answered from the web: the providers are asked in order until
    one returns hits of a named source, the pages of the best hits are read or
    taken as the provider sent them, and passages around anchor terms are cut out.
    Answers are cached for the tenant.

    The outbound guard looks at a URL before a page is read; the request is made
    with a client that follows redirects.
-/

namespace DigitalWorker.Knowledge

/-! ## URLs and addresses -/

/-- What `urlsplit` makes of a URL, as far as the guard looks. -/
structure SplitUrl where
  scheme : String
  hostname : Option String
  username : Option String := none
  password : Option String := none
  deriving DecidableEq

/-- An `ipaddress` object, with the properties the guard asks for. -/
structure Address where
  text : String
  isPrivate : Bool := false
  isLoopback : Bool := false
  isLinkLocal : Bool := false
  isReserved : Bool := false
  isUnspecified : Bool := false
  deriving DecidableEq

def Address.inward (a : Address) : Bool := a.isPrivate || a.isLoopback

inductive HtmlEvent where
  | starttag (tag : String)
  | endtag (tag : String)
  | data (text : String)
  deriving DecidableEq

/-- The parts of the standard library the web sources rest on. -/
structure WebEnv where
  /-- `urlsplit`; `none` where it raises `ValueError`. -/
  urlsplit : String → Option SplitUrl
  /-- The events `HTMLParser.feed` reports. -/
  htmlEvents : String → List HtmlEvent
  lower : String → String
  casefold : String → String
  /-- `re.search(pattern, text, re.IGNORECASE) is not None`. -/
  searches : String → String → Bool
  /-- `uuid.uuid5(_URL_NAMESPACE, url)`. -/
  uuid5 : String → Uuid
  sha256 : String → String

/-- `bool(s)` of an optional string. -/
def given (s : Option String) : Bool :=
  match s with
  | none => false
  | some s => s ≠ ""

/-! ## The guard -/

/-- `_is_private_address`, of a host that resolved to `addresses`. -/
def isPrivateAddress (host : String) (addresses : Option (List Address)) : Except Error Bool :=
  match addresses with
  | none => .error { kind := .domain, message := "outbound host does not resolve"
                     details := [("host", host)] }
  | some addresses => .ok (addresses.any (fun a =>
      a.isPrivate || a.isLoopback || a.isLinkLocal || a.isReserved || a.isUnspecified))

/-- `ensure_allowed_outbound_url`, of a URL that `urlsplit` could read. -/
def ensureAllowedOutboundUrl (url : String) (parts : SplitUrl) (addresses : Option (List Address))
    (allowPrivate : Bool) (allowedHosts : List String := []) : Except Error String := do
  raiseIf (parts.scheme ≠ "http" && parts.scheme ≠ "https")
    { kind := .domain, message := "outbound URL must be http(s)"
      details := [("scheme", if parts.scheme = "" then "<none>" else parts.scheme)] }
  raiseIf (!given parts.hostname)
    { kind := .domain, message := "outbound URL has no host", details := [("url", url)] }
  let host := parts.hostname.getD ""
  raiseIf (given parts.username || given parts.password)
    { kind := .domain, message := "outbound URL must not embed credentials"
      details := [("host", host)] }
  if allowedHosts.contains host || allowPrivate then return url
  else
    let inward ← isPrivateAddress host addresses
    raiseIf inward
      { kind := .domain, message := "outbound URL resolves to a private address"
        details := [("host", host)] }
    return url

/-! ## Readable text -/

/-- `_TextExtractor._SKIP`. -/
def skipTags : List String :=
  ["script", "style", "noscript", "template", "svg", "nav", "header", "footer", "aside", "button",
    "select", "iframe"]

/-- `_TextExtractor._BREAK`. -/
def breakTags : List String :=
  ["p", "div", "br", "li", "tr", "h1", "h2", "h3", "h4", "h5", "h6", "section", "article"]

structure TextExtractor where
  parts : List String := []
  skipDepth : Nat := 0

def TextExtractor.handle (x : TextExtractor) : HtmlEvent → TextExtractor
  | .starttag tag =>
    if skipTags.contains tag then { x with skipDepth := x.skipDepth + 1 }
    else if breakTags.contains tag then { x with parts := x.parts ++ ["\n"] }
    else x
  | .endtag tag =>
    if skipTags.contains tag && x.skipDepth ≠ 0 then { x with skipDepth := x.skipDepth - 1 }
    else if breakTags.contains tag then { x with parts := x.parts ++ ["\n"] }
    else x
  | .data text => if x.skipDepth = 0 then { x with parts := x.parts ++ [text] } else x

/-- `_WHITESPACE.sub(" ", text)`: runs of blanks, tabs and hard blanks. -/
def collapseBlanks : Bool → List Char → List Char
  | _, [] => []
  | inRun, c :: rest =>
    if c = ' ' || c = '\t' || c.toNat = 160 then
      if inRun then collapseBlanks true rest else ' ' :: collapseBlanks true rest
    else c :: collapseBlanks false rest

/-- `_BLANKLINES.sub("\n\n", text)`, where `newlines` of a run were kept. -/
def limitNewlines : Nat → List Char → List Char
  | _, [] => []
  | newlines, c :: rest =>
    if c = '\n' then
      if newlines < 2 then c :: limitNewlines (newlines + 1) rest else limitNewlines newlines rest
    else c :: limitNewlines 0 rest

def TextExtractor.text (x : TextExtractor) : String :=
  let joined := collapseBlanks false (String.join x.parts).toList
  let lines := (joined.splitOn '\n').map (fun line => strip (String.ofList line))
  String.ofList (limitNewlines 0 ("\n".intercalate lines).toList)

def htmlToText (env : WebEnv) (html : String) : String :=
  strip ((env.htmlEvents html).foldl TextExtractor.handle {}).text

/-! ## The fetcher -/

structure Hop where
  host : String
  address : Address
  deriving DecidableEq

structure Response where
  contentType : String
  /-- The length of the body. -/
  size : Nat
  /-- `raw.decode(response.encoding or "utf-8", errors="replace")`. -/
  decoded : Option String
  lastModified : Option String := none
  etag : Option String := none
  deriving DecidableEq

/-- What the servers make of a GET, and what the guard's look-up found before. -/
inductive Conversation where
  /-- No request leaves. -/
  | unreachable
  /-- The first request is sent to `address`, the redirects are followed, and the
      end is a response or an `httpx.HTTPError`. -/
  | reached (address : Address) (redirects : List Hop) (response : Option Response)

structure Exchange where
  lookup : Option (List Address)
  conversation : Conversation

/-- Where a text was read. No code reads this; the statements are about it. -/
structure Origin where
  host : String
  page : String
  /-- The host of the URL itself has answered. -/
  direct : Bool
  deriving DecidableEq

structure FetchedPage where
  url : String
  text : String
  sourceVersion : String
  origin : Origin
  deriving DecidableEq

structure FetchPolicy where
  maxBytes : Nat
  acceptContentTypes : List String

structure PageFetcher where
  policy : FetchPolicy
  allowPrivate : Bool := false

def versionLabel (stamp : String) : String :=
  let quoted := ((strip stamp).toList.dropWhile (· = '"')).rdropWhile (· = '"')
  if quoted = [] then "web:unversioned" else "web:" ++ String.ofList quoted

/-- `a or b`. -/
def orElse (a b : Option String) : String := if given a then a.getD "" else b.getD ""

def finalHost (host : String) (redirects : List Hop) : String :=
  match redirects.getLast? with
  | some r => r.host
  | none => host

/-- What `fetch` makes of a response. -/
def readResponse (env : WebEnv) (policy : FetchPolicy) (url host : String) (redirects : List Hop)
    (response : Response) : Option FetchedPage :=
  let contentType := strip (String.ofList (response.contentType.toList.takeWhile (· ≠ ';')))
  if !policy.acceptContentTypes.contains (env.lower contentType) then none
  else if response.size > policy.maxBytes then none
  else
    match response.decoded with
    | none => none
    | some html =>
      let text := if env.lower contentType ≠ "text/plain" then htmlToText env html else strip html
      if text = "" then none
      else some
        { url := url, text := text
          sourceVersion := versionLabel (orElse response.lastModified response.etag)
          origin := { host := finalHost host redirects, page := text
                      direct := redirects.isEmpty } }

/-- `PageFetcher.fetch`: the requests that are sent, and the page. -/
def PageFetcher.fetch (env : WebEnv) (f : PageFetcher) (url : String) (x : Exchange) :
    List Hop × Except Error (Option FetchedPage) :=
  match env.urlsplit url with
  | none => ([], .error { kind := .value, message := "Invalid URL" })
  | some parts =>
    match ensureAllowedOutboundUrl url parts x.lookup f.allowPrivate with
    | .error _ => ([], .ok none)
    | .ok _ =>
      let host := parts.hostname.getD ""
      match x.conversation with
      | .unreachable => ([], .ok none)
      | .reached address redirects response =>
        ({ host := host, address := address } :: redirects,
          .ok (response.bind (readResponse env f.policy url host redirects)))

open Framework

/-! ## The source policy -/

/-- `host.lower().strip(".")`. -/
def trimDots (text : String) : String :=
  String.ofList ((text.toList.dropWhile (· = '.')).rdropWhile (· = '.'))

def under (env : WebEnv) (host domain : String) : Bool :=
  let host := trimDots (env.lower host)
  let domain := trimDots (env.lower domain)
  domain ≠ "" && (host == domain || ("." ++ domain).toList.isSuffixOf host.toList)

/-- `LegalSourceConfig`, as far as a search reads it. -/
structure LegalSourceConfig where
  allowedDomains : List String
  preferredOrder : List String
  maxPagesPerQuery : Nat := 3
  windowChars : Nat := 1200
  maxPassagesPerPage : Nat := 3
  anchors : List String
  anchorRequires : List (String × String) := []

namespace LegalSourceConfig

variable (env : WebEnv) (config : LegalSourceConfig)

def rankOf (host : String) : Nat := config.preferredOrder.findIdx (under env host)

def allows (host : String) : Bool := config.allowedDomains.any (under env host)

end LegalSourceConfig

/-! ## Hits -/

structure ProviderBody where
  text : String
  readFrom : String
  deriving DecidableEq

structure SearchHit where
  title : String
  url : String
  position : Int
  content : Option ProviderBody := none
  deriving DecidableEq

/-- `SearchHit.host`; `none` where `urlsplit` raises. -/
def SearchHit.host? (env : WebEnv) (hit : SearchHit) : Option String :=
  (env.urlsplit hit.url).map (fun parts => env.lower (parts.hostname.getD ""))

/-- `SearchHit.host`, of a hit whose URL could be read before. -/
def SearchHit.host (env : WebEnv) (hit : SearchHit) : String := (hit.host? env).getD ""

def allowedHits (env : WebEnv) (config : LegalSourceConfig) (hits : List SearchHit) :
    Except Error (List SearchHit) :=
  if hits.any (fun hit => (hit.host? env).isNone) then
    .error { kind := .value, message := "Invalid URL" }
  else
    .ok ((hits.filter (fun hit => config.allows env (hit.host env))).insertionSort (fun a b =>
      config.rankOf env (a.host env) < config.rankOf env (b.host env) ∨
        config.rankOf env (a.host env) = config.rankOf env (b.host env) ∧ a.position ≤ b.position))

/-! ## Passages -/

section

/-- `text.find(anchor, start)`. -/
def findFrom (text anchor : List Char) (start : Nat) : Option Nat :=
  if text.length < start then none
  else (Evaluation.findIn anchor (text.drop start)).map (· + start)

/-- The places of an anchor, at most `cap` of them. -/
def anchorStarts (lowered anchor : List Char) (rank : Nat) : Nat → Option Nat →
    List (Nat × Nat × List Char)
  | 0, _ => []
  | _ + 1, none => []
  | cap + 1, some position =>
    (rank, position, anchor) ::
      anchorStarts lowered anchor rank cap (findFrom lowered anchor (position + anchor.length))

/-- The ends of the matches of `_SENTENCE_END`: a blank after a closing mark. -/
def sentenceEnds (window : List Char) : List Nat :=
  (List.range window.length).filterMap (fun k =>
    match window[k]?, window[k + 1]? with
    | some mark, some space =>
      if (mark = '.' || mark = '!' || mark = '?' || mark = ';') && isSpace space then some (k + 2)
      else none
    | _, _ => none)

/-- `text[left:right]`. -/
def slice (text : List Char) (left right : Nat) : List Char := (text.take right).drop left

def sentenceStart (text : List Char) (index : Nat) : Nat :=
  if index = 0 then 0
  else
    match (sentenceEnds (slice text (index - 400) index)).getLast? with
    | some e => index - 400 + e
    | none => index

def sentenceEnd (text : List Char) (index : Nat) : Nat :=
  if text.length ≤ index then text.length
  else
    match (sentenceEnds (slice text index (index + 400))).head? with
    | some e => index + e
    | none => index

structure Windows where
  out : List String := []
  used : List (Nat × Nat) := []

variable (env : WebEnv) (config : LegalSourceConfig)

/-- `_satisfies(chunk, config.anchor_requires.get(anchor))`. -/
def satisfies (chunk : String) (anchor : List Char) : Bool :=
  match config.anchorRequires.lookup (String.ofList anchor) with
  | none => true
  | some pattern => env.searches pattern chunk

def windows (text : List Char) (half : Nat) : List (Nat × Nat × List Char) → Windows → Windows
  | [], w => w
  | (_, hit, anchor) :: rest, w =>
    let left := sentenceStart text (hit - half)
    let right := sentenceEnd text (min text.length (hit + half))
    if w.used.any (fun span => left < span.2 && span.1 < right) then windows text half rest w
    else
      let chunk := Evaluation.collapse (String.ofList (slice text left right))
      let w' :=
        if 80 ≤ chunk.length && satisfies env config chunk anchor then
          { out := w.out ++ [chunk], used := w.used ++ [(left, right)] }
        else w
      if config.maxPassagesPerPage ≤ w'.out.length then w' else windows text half rest w'

def passages (text query : String) : List String :=
  let lowered := (env.lower text).toList
  let asked := (env.casefold query).toList
  let relevant := config.anchors.filter (fun a => (Evaluation.findIn a.toList asked).isSome)
  let anchors := if relevant = [] then config.anchors else relevant
  let starts := anchors.zipIdx.flatMap (fun a =>
    anchorStarts lowered a.1.toList a.2 (config.maxPassagesPerPage * 2)
      (findFrom lowered a.1.toList 0))
  let half := max (config.windowChars / 2) 100
  (windows env config text.toList half (starts.insertionSort (fun a b =>
    a.1 < b.1 ∨ a.1 = b.1 ∧ a.2.1 ≤ b.2.1)) {}).out

end

/-! ## Asking the providers -/

inductive ProviderAnswer where
  | hits (found : List SearchHit)
  | authError
  | quotaError
  | circuitOpen
  | failed

/-- `FailoverSearchClient`, with the default of its cooldown. -/
structure FailoverSearchClient where
  providers : List String
  cooldownSeconds : ℚ := 21600
  advanceOnEmpty : Bool := true

/-- `ProviderCooldown._until`. -/
abbrev Cooldown := List (String × ℚ)

def Cooldown.block (c : Cooldown) (provider : String) (until_ : ℚ) : Cooldown :=
  (provider, until_) :: c.filter (fun e => e.1 ≠ provider)

/-- `blocked`, which forgets a block that is over. -/
def Cooldown.blocked (c : Cooldown) (provider : String) (now : ℚ) : Cooldown × Bool :=
  match c.lookup provider with
  | none => (c, false)
  | some until_ =>
    if until_ ≤ now then (c.filter (fun e => e.1 ≠ provider), false) else (c, true)

/-- The loop of `FailoverSearchClient.search`, over the providers from the
    `k`-th on. -/
def failover (client : FailoverSearchClient)
    (accept : List SearchHit → Except Error (List SearchHit)) (answers : Nat → ProviderAnswer)
    (clock : Nat → ℚ) : Nat → List String → Cooldown →
    Cooldown × Except Error (List SearchHit × String)
  | _, [], c => (c, .error { kind := .infrastructure
                             message := "mọi nhà cung cấp tìm kiếm đều không dùng được" })
  | k, provider :: rest, c =>
    let r := c.blocked provider (clock k)
    if r.2 then failover client accept answers clock (k + 1) rest r.1
    else
      match answers k with
      | .authError | .quotaError =>
        failover client accept answers clock (k + 1) rest
          (r.1.block provider (clock k + client.cooldownSeconds))
      | .circuitOpen | .failed => failover client accept answers clock (k + 1) rest r.1
      | .hits found =>
        match accept found with
        | .error e => (r.1, .error e)
        | .ok usable =>
          if usable = [] ∧ client.advanceOnEmpty = true then
            failover client accept answers clock (k + 1) rest r.1
          else (r.1, .ok (usable, provider))

def FailoverSearchClient.search (client : FailoverSearchClient)
    (accept : List SearchHit → Except Error (List SearchHit)) (answers : Nat → ProviderAnswer)
    (clock : Nat → ℚ) (c : Cooldown) : Cooldown × Except Error (List SearchHit × String) :=
  if client.providers = [] then
    (c, .error { kind := .infrastructure
                 message := "không có nhà cung cấp tìm kiếm nào được cấu hình" })
  else failover client accept answers clock 0 client.providers c

/-- `EvidenceChunk` with its `EvidenceRef`. The origin is where its text was read. -/
structure EvidenceChunk where
  content : String
  evidenceId : Uuid
  sourceDocumentId : Uuid
  sourceVersion : String
  quote : String
  sourceTitle : String
  sourceUri : String
  relevanceScore : ℚ
  classification : String
  provenanceHash : String
  origin : Origin
  deriving DecidableEq

structure SearchQuery where
  text : String
  domain : String := "shared"
  topK : Nat := 8
  minRelevance : ℚ := 0
  topK_bounds : 1 ≤ topK ∧ topK ≤ 50 := by decide

/-- `TtlCache._entries`, the least recently used first. -/
abbrev CacheEntries := List (String × ℚ × List EvidenceChunk)

/-- `TtlCache`, its limits. -/
structure TtlCache where
  ttlSeconds : ℚ
  maxEntries : Nat

def CacheEntries.get (entries : CacheEntries) (key : String) (now : ℚ) :
    CacheEntries × Option (List EvidenceChunk) :=
  match entries.lookup key with
  | none => (entries, none)
  | some (expiresAt, value) =>
    let others := entries.filter (fun e => e.1 ≠ key)
    if expiresAt ≤ now then (others, none)
    else (others ++ [(key, expiresAt, value)], some value)

def CacheEntries.put (cache : TtlCache) (entries : CacheEntries) (key : String)
    (value : List EvidenceChunk) (now : ℚ) : CacheEntries :=
  let grown := entries.filter (fun e => e.1 ≠ key) ++ [(key, now + cache.ttlSeconds, value)]
  grown.drop (grown.length - cache.maxEntries)

structure WebLawGateway where
  client : FailoverSearchClient
  fetcher : PageFetcher
  config : LegalSourceConfig
  cache : Option TtlCache := none

/-- What the process remembers between searches. -/
structure WebLawState where
  entries : CacheEntries := []
  cooldown : Cooldown := []

structure WebLawSearch where
  query : SearchQuery
  tenantId : Uuid
  /-- The answers of the providers, by their position. -/
  answers : Nat → ProviderAnswer
  clock : Nat → ℚ := fun _ => 0
  /-- The exchange a fetch of the page of the `i`-th hit leads to. -/
  exchange : Nat → Exchange
  newId : Nat → Uuid
  readAt : ℚ := 0
  storedAt : ℚ := 0

variable (env : WebEnv) (gw : WebLawGateway)

def cacheKey (s : WebLawSearch) : String :=
  s.tenantId.text ++ "|" ++ s.query.domain ++ "|" ++ env.casefold (Evaluation.collapse s.query.text)

def pageFor (hit : SearchHit) (provider : String) : Option FetchedPage :=
  match hit.content with
  | none => none
  | some body =>
    if body.text = "" then none
    else some
      { url := hit.url, text := body.text, sourceVersion := "web:" ++ provider
        origin := { host := body.readFrom, page := body.text, direct := false } }

def readPage (s : WebLawSearch) (provider : String) (i : Nat) (hit : SearchHit) :
    List Hop × Except Error (Option FetchedPage) :=
  match pageFor hit provider with
  | some page => ([], .ok (some page))
  | none => gw.fetcher.fetch env hit.url (s.exchange i)

def label (hit : SearchHit) : String :=
  let title := take (Evaluation.collapse hit.title) 120
  if title = "" then hit.host env else title ++ " — " ++ hit.host env

def score (config : LegalSourceConfig) (hit : SearchHit) : ℚ :=
  let sourcePenalty : ℚ := config.rankOf env (hit.host env) * (5 / 100)
  let rankPenalty : ℚ := (min (max (hit.position - 1) 0) 9 : Int) * (3 / 100)
  max 0 (min 1 (1 - sourcePenalty - rankPenalty))

def toChunk (text : String) (page : FetchedPage) (hit : SearchHit) (evidenceId : Uuid) :
    EvidenceChunk :=
  { content := text, evidenceId := evidenceId, sourceDocumentId := env.uuid5 page.url
    sourceVersion := page.sourceVersion, quote := take text 280, sourceTitle := label env hit
    sourceUri := page.url, relevanceScore := score env gw.config hit, classification := "internal"
    provenanceHash := env.sha256 text, origin := page.origin }

/-- The loop over the passages of a page: chunks are appended up to `top_k`. -/
def appendPassages (s : WebLawSearch) (page : FetchedPage) (hit : SearchHit) :
    List String → List EvidenceChunk → List EvidenceChunk
  | [], chunks => chunks
  | text :: rest, chunks =>
    let chunks' := chunks ++ [toChunk env gw text page hit (s.newId chunks.length)]
    if s.query.topK ≤ chunks'.length then chunks' else appendPassages s page hit rest chunks'

/-- The loop over the hits, from the `i`-th on: the requests that are sent, and the
    chunks. -/
def collectChunks (s : WebLawSearch) (provider : String) : Nat → List SearchHit →
    List EvidenceChunk → List Hop × Except Error (List EvidenceChunk)
  | _, [], chunks => ([], .ok chunks)
  | i, hit :: rest, chunks =>
    let r := readPage env gw s provider i hit
    match r.2 with
    | .error e => (r.1, .error e)
    | .ok none =>
      let later := collectChunks s provider (i + 1) rest chunks
      (r.1 ++ later.1, later.2)
    | .ok (some page) =>
      let chunks' := appendPassages env gw s page hit
        (passages env gw.config page.text s.query.text) chunks
      if s.query.topK ≤ chunks'.length then (r.1, .ok chunks')
      else
        let later := collectChunks s provider (i + 1) rest chunks'
        (r.1 ++ later.1, later.2)

/-- `cache.get`, where there is a cache. -/
def cached (s : WebLawSearch) (st : WebLawState) : WebLawState × Option (List EvidenceChunk) :=
  match gw.cache with
  | none => (st, none)
  | some _ =>
    let r := st.entries.get (cacheKey env s) s.readAt
    ({ st with entries := r.1 }, r.2)

/-- `WebLawGateway.search`: what the process remembers then, the requests that are
    sent for pages, and the answer. -/
def WebLawGateway.search (s : WebLawSearch) (st : WebLawState) :
    WebLawState × List Hop × Except Error (List EvidenceChunk) :=
  match cached env gw s st with
  | (st, some value) => (st, [], .ok (value.take s.query.topK))
  | (st, none) =>
    let asked := gw.client.search (allowedHits env gw.config) s.answers s.clock st.cooldown
    let st := { st with cooldown := asked.1 }
    match asked.2 with
    | .error e => (st, [], .error e)
    | .ok (hits, provider) =>
      let r := collectChunks env gw s provider 0 (hits.take gw.config.maxPagesPerQuery) []
      match r.2 with
      | .error e => (st, r.1, .error e)
      | .ok chunks =>
        let result := chunks.filter (fun c => s.query.minRelevance ≤ c.relevanceScore)
        let st := match gw.cache with
          | none => st
          | some cache =>
            { st with entries := st.entries.put cache (cacheKey env s) result s.storedAt }
        (st, r.1, .ok (result.take s.query.topK))

def webLaw : Machine WebLawState WebLawSearch where
  init st := st = {}
  step st s := some (gw.search env s st).1

end DigitalWorker.Knowledge
