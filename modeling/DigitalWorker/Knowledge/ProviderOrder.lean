import DigitalWorker.Knowledge.LegalSources

/-! # The order of the providers

    One walk over the configured providers, told with the calls it makes: who was
    asked, what the walk hands back, and which providers rest afterwards. A
    provider that rests is stepped over, one that refuses its key or is out of
    credit is sent to rest, and the first with a usable answer ends the walk.
-/

namespace DigitalWorker.Knowledge

/-! ## Who rests -/

/-- `blocked`, without what it forgets. -/
def Cooldown.cooling (c : Cooldown) (now : ℚ) (name : String) : Bool := (c.blocked name now).2

theorem Cooldown.cooling_eq (c : Cooldown) (now : ℚ) (name : String) :
    c.cooling now name = (c.lookup name).any (fun until_ => now < until_) := by
  unfold cooling blocked
  cases hl : c.lookup name with
  | none => simp
  | some until_ =>
    by_cases h : until_ ≤ now
    · simp [h]
    · simp [h, not_le.mp h]

theorem Cooldown.lookup_forget (c : Cooldown) (gone name : String) :
    List.lookup name (c.filter (fun e => e.1 ≠ gone)) =
      if name = gone then none else List.lookup name c := by
  induction c with
  | nil => simp
  | cons e c ih =>
    obtain ⟨k, until_⟩ := e
    by_cases hk : k = gone
    · subst hk
      rw [List.filter_cons_of_neg (by simp), ih]
      by_cases hn : name = k
      · simp [hn]
      · have hne : (name == k) = false := by simp [hn]
        simp [hn, List.lookup_cons, hne]
    · rw [List.filter_cons_of_pos (by simp [hk]), List.lookup_cons, List.lookup_cons, ih]
      by_cases hn : name = k
      · subst hn
        simp [hk]
      · have hne : (name == k) = false := by simp [hn]
        simp [hne]

theorem Cooldown.cooling_blocked (c : Cooldown) (now : ℚ) (asked name : String) :
    (c.blocked asked now).1.cooling now name = c.cooling now name := by
  unfold blocked
  cases hl : List.lookup asked c with
  | none => rfl
  | some until_ =>
    by_cases h : until_ ≤ now
    · -- the entry that is forgotten was over
      simp only [h, if_true]
      rw [cooling_eq, cooling_eq, lookup_forget]
      by_cases hn : name = asked
      · subst hn
        simp [hl, h]
      · simp [hn]
    · simp [h]

theorem Cooldown.cooling_block (c : Cooldown) {now until_ : ℚ} (h : now < until_)
    (sent name : String) :
    (c.block sent until_).cooling now name = (name == sent || c.cooling now name) := by
  rw [cooling_eq, cooling_eq]
  unfold block
  by_cases hn : name = sent
  · subst hn
    simp [h]
  · have hne : (name == sent) = false := by simp [hn]
    rw [List.lookup_cons, hne, lookup_forget]
    simp [hn]

/-- What a walk did: the places of the providers it called, who rests then, and
    what it hands back. -/
structure Walk where
  calls : List Nat
  cooldown : Cooldown
  result : Except Error (List SearchHit × String)

/-- The walk after the `k`-th provider was called. -/
def Walk.called (w : Walk) (k : Nat) : Walk := { w with calls := k :: w.calls }

section

variable (client : FailoverSearchClient)
  (accept : List SearchHit → Except Error (List SearchHit)) (answers : Nat → ProviderAnswer)
  (clock : Nat → ℚ)

/-- The loop of `FailoverSearchClient.search` with the calls it makes. -/
def walk : Nat → List String → Cooldown → Walk
  | _, [], c =>
    { calls := [], cooldown := c
      result := .error { kind := .infrastructure
                         message := "mọi nhà cung cấp tìm kiếm đều không dùng được" } }
  | k, provider :: rest, c =>
    let r := c.blocked provider (clock k)
    if r.2 then walk (k + 1) rest r.1
    else
      match answers k with
      | .authError | .quotaError =>
        (walk (k + 1) rest (r.1.block provider (clock k + client.cooldownSeconds))).called k
      | .circuitOpen | .failed => (walk (k + 1) rest r.1).called k
      | .hits found =>
        match accept found with
        | .error e => { calls := [k], cooldown := r.1, result := .error e }
        | .ok usable =>
          if usable = [] ∧ client.advanceOnEmpty = true then (walk (k + 1) rest r.1).called k
          else { calls := [k], cooldown := r.1, result := .ok (usable, provider) }

/-- `FailoverSearchClient.search` with the calls it makes. -/
def FailoverSearchClient.walked (c : Cooldown) : Walk :=
  if client.providers = [] then
    { calls := [], cooldown := c
      result := .error { kind := .infrastructure
                         message := "không có nhà cung cấp tìm kiếm nào được cấu hình" } }
  else walk client accept answers clock 0 client.providers c

theorem walk_failover (k : Nat) (names : List String) (c : Cooldown) :
    failover client accept answers clock k names c =
      ((walk client accept answers clock k names c).cooldown,
        (walk client accept answers clock k names c).result) := by
  induction names generalizing k c with
  | nil => rfl
  | cons provider rest ih =>
    simp only [failover, walk]
    by_cases hb : (c.blocked provider (clock k)).2 = true
    · simp only [hb, if_true]
      exact ih _ _
    · simp only [hb, if_false, Bool.false_eq_true]
      cases hans : answers k with
      | hits found =>
        cases hacc : accept found with
        | error e => simp only [hacc]
        | ok usable =>
          simp only [hacc]
          by_cases hempty : usable = [] ∧ client.advanceOnEmpty = true
          · simp only [if_pos hempty]
            exact ih _ _
          · simp only [if_neg hempty]
      | authError => exact ih _ _
      | quotaError => exact ih _ _
      | circuitOpen => exact ih _ _
      | failed => exact ih _ _

theorem search_walked (c : Cooldown) :
    client.search accept answers clock c =
      ((client.walked accept answers clock c).cooldown,
        (client.walked accept answers clock c).result) := by
  unfold FailoverSearchClient.search FailoverSearchClient.walked
  by_cases h : client.providers = []
  · simp [h]
  · simp only [if_neg h]
    exact walk_failover client accept answers clock 0 client.providers c

end

/-! ## What a walk owes -/

def ProviderAnswer.refuses : ProviderAnswer → Bool
  | .authError | .quotaError => true
  | _ => false

def ProviderAnswer.usable (accept : List SearchHit → List SearchHit) :
    ProviderAnswer → List SearchHit
  | .hits found => accept found
  | _ => []

section

variable (accept : List SearchHit → List SearchHit) (answers : Nat → ProviderAnswer) (now : ℚ)

/-- The `i`-th of the providers `names`, the first of which is the `k`-th, does
    not rest and has a usable answer. -/
def Qualifies (k : Nat) (names : List String) (c : Cooldown) (i : Nat) : Prop :=
  ∃ name, names[i]? = some name ∧ c.cooling now name = false ∧
    (answers (k + i)).usable accept ≠ []

/-- The first provider that qualifies is who is returned, nobody after it and
    nobody at rest is called, and exactly those who refused go to rest. -/
structure InOrder (k : Nat) (names : List String) (c : Cooldown) (w : Walk) : Prop where
  first : ∀ i name, names[i]? = some name → Qualifies accept answers now k names c i →
    (∀ j < i, ¬ Qualifies accept answers now k names c j) →
    w.result = .ok ((answers (k + i)).usable accept, name)
  raises : (∃ e, w.result = .error e) ↔ ∀ i, ¬ Qualifies accept answers now k names c i
  calls : ∀ n, n ∈ w.calls ↔ ∃ i name, n = k + i ∧ names[i]? = some name ∧
    c.cooling now name = false ∧ ∀ j < i, ¬ Qualifies accept answers now k names c j
  once : w.calls.Pairwise (· < ·)
  cooldown : ∀ name, w.cooldown.cooling now name = true ↔
    c.cooling now name = true ∨
      ∃ i, k + i ∈ w.calls ∧ names[i]? = some name ∧ (answers (k + i)).refuses = true

variable {accept answers now}

theorem qualifies_tail {k : Nat} {provider : String} {rest : List String} {c c' : Cooldown}
    (hrest : ∀ name ∈ rest, c'.cooling now name = c.cooling now name) (i : Nat) :
    Qualifies accept answers now k (provider :: rest) c (i + 1) ↔
      Qualifies accept answers now (k + 1) rest c' i := by
  unfold Qualifies
  have hplace : k + (i + 1) = k + 1 + i := by omega
  rw [List.getElem?_cons_succ, hplace]
  constructor
  · intro h
    obtain ⟨name, hname, hcool, husable⟩ := h
    rw [← hrest name (List.mem_of_getElem? hname)] at hcool
    exact ⟨name, hname, hcool, husable⟩
  · intro h
    obtain ⟨name, hname, hcool, husable⟩ := h
    rw [hrest name (List.mem_of_getElem? hname)] at hcool
    exact ⟨name, hname, hcool, husable⟩

/-- **A provider is passed**: it rests, or has nothing usable. What is owed for it
    and those behind it is what is owed for those behind it. -/
theorem InOrder.passed {k : Nat} {provider : String} {rest : List String} {c c' : Cooldown}
    {w w' : Walk} (h : InOrder accept answers now (k + 1) rest c' w) (hnew : provider ∉ rest)
    (hpassed : c.cooling now provider = true ∨ (answers k).usable accept = [])
    (hc' : ∀ name, c'.cooling now name = true ↔ c.cooling now name = true ∨
      name = provider ∧ c.cooling now provider = false ∧ (answers k).refuses = true)
    (hcalls : w'.calls = if c.cooling now provider then w.calls else k :: w.calls)
    (hcooldown : w'.cooldown = w.cooldown) (hresult : w'.result = w.result) :
    InOrder accept answers now k (provider :: rest) c w' := by
  have hrest : ∀ name ∈ rest, c'.cooling now name = c.cooling now name := by
    intro name hname
    have hne : name ≠ provider := fun heq => hnew (heq ▸ hname)
    rw [Bool.eq_iff_iff, hc']
    simp [hne]
  have htail : ∀ i, Qualifies accept answers now k (provider :: rest) c (i + 1) ↔
      Qualifies accept answers now (k + 1) rest c' i := qualifies_tail hrest
  have hhead : ¬ Qualifies accept answers now k (provider :: rest) c 0 := by
    intro hq
    obtain ⟨name, hname, hcool, husable⟩ := hq
    obtain rfl : provider = name := by simpa using hname
    cases hpassed with
    | inl hrests => simp [hrests] at hcool
    | inr hnone => exact husable hnone
  -- nobody qualifies before the next of them, and before the same of those behind
  have hbefore : ∀ i, (∀ j < i + 1, ¬ Qualifies accept answers now k (provider :: rest) c j) ↔
      ∀ j < i, ¬ Qualifies accept answers now (k + 1) rest c' j := by
    intro i
    constructor
    · intro hno j hj
      rw [← htail]
      exact hno (j + 1) (by omega)
    · intro hno j hj
      cases j with
      | zero => exact hhead
      | succ j =>
        rw [htail]
        exact hno j (by omega)
  have hplace : ∀ i, k + (i + 1) = k + 1 + i := fun i => by omega
  have hmem : ∀ n, n ∈ w'.calls ↔ n = k ∧ c.cooling now provider = false ∨ n ∈ w.calls := by
    intro n
    rw [hcalls]
    cases hcool : c.cooling now provider with
    | true => simp
    | false => simp
  have hlater : ∀ n ∈ w.calls, k < n := by
    intro n hn
    obtain ⟨i, name, rfl, -⟩ := (h.calls n).mp hn
    omega
  exact
    { first := by
        intro i name hname hq hno
        cases i with
        | zero => exact absurd hq hhead
        | succ i =>
          rw [hresult, hplace]
          rw [List.getElem?_cons_succ] at hname
          exact h.first i name hname ((htail i).mp hq) ((hbefore i).mp hno)
      raises := by
        rw [hresult, h.raises]
        constructor
        · intro hno i
          cases i with
          | zero => exact hhead
          | succ i =>
            rw [htail]
            exact hno i
        · intro hno i
          rw [← htail]
          exact hno (i + 1)
      calls := by
        intro n
        rw [hmem, h.calls]
        constructor
        · intro hn
          rcases hn with hn | hn
          · exact ⟨0, provider, by omega, rfl, hn.2, fun j hj => absurd hj (by omega)⟩
          · obtain ⟨i, name, hi, hname, hcool, hno⟩ := hn
            rw [hrest name (List.mem_of_getElem? hname)] at hcool
            exact ⟨i + 1, name, by omega, by simpa using hname, hcool, (hbefore i).mpr hno⟩
        · intro hn
          obtain ⟨i, name, hi, hname, hcool, hno⟩ := hn
          cases i with
          | zero =>
            obtain rfl : provider = name := by simpa using hname
            exact Or.inl ⟨by omega, hcool⟩
          | succ i =>
            rw [List.getElem?_cons_succ] at hname
            rw [← hrest name (List.mem_of_getElem? hname)] at hcool
            exact Or.inr ⟨i, name, by omega, hname, hcool, (hbefore i).mp hno⟩
      once := by
        rw [hcalls]
        split
        · exact h.once
        · exact List.pairwise_cons.mpr ⟨hlater, h.once⟩
      cooldown := by
        intro name
        rw [hcooldown, h.cooldown, hc']
        constructor
        · intro hcool
          rcases hcool with (hcool | ⟨rfl, hcool, hrefuses⟩) | ⟨i, hi, hname, hrefuses⟩
          · exact Or.inl hcool
          · exact Or.inr ⟨0, (hmem _).mpr (Or.inl ⟨rfl, hcool⟩), rfl, hrefuses⟩
          · refine Or.inr ⟨i + 1, (hmem _).mpr (Or.inr ?_), by simpa using hname, ?_⟩
            · rw [hplace]
              exact hi
            · rw [hplace]
              exact hrefuses
        · intro hcool
          rcases hcool with hcool | ⟨i, hi, hname, hrefuses⟩
          · exact Or.inl (Or.inl hcool)
          · cases i with
            | zero =>
              obtain rfl : provider = name := by simpa using hname
              rcases (hmem _).mp hi with hi | hi
              · exact Or.inl (Or.inr ⟨rfl, hi.2, hrefuses⟩)
              · exact absurd (hlater _ hi) (by omega)
            | succ i =>
              rw [List.getElem?_cons_succ] at hname
              rcases (hmem _).mp hi with hi' | hi'
              · exact absurd hi'.1 (by omega)
              · rw [hplace] at hi' hrefuses
                exact Or.inr ⟨i, hi', hname, hrefuses⟩ }

/-- **A provider serves**: the walk ends with it. -/
theorem InOrder.served {k : Nat} {provider : String} {rest : List String} {c c' : Cooldown}
    (hcool : c.cooling now provider = false) (husable : (answers k).usable accept ≠ [])
    (hc' : ∀ name, c'.cooling now name = c.cooling now name) :
    InOrder accept answers now k (provider :: rest) c
      { calls := [k], cooldown := c', result := .ok ((answers k).usable accept, provider) } := by
  have hhead : Qualifies accept answers now k (provider :: rest) c 0 :=
    ⟨provider, rfl, hcool, husable⟩
  -- the answers that are usable are no refusals
  have hserves : (answers k).refuses = false := by
    cases hans : answers k <;> simp_all [ProviderAnswer.usable, ProviderAnswer.refuses]
  exact
    { first := by
        intro i name hname hq hno
        cases i with
        | zero =>
          obtain rfl : provider = name := by simpa using hname
          rfl
        | succ i => exact absurd hhead (hno 0 (by omega))
      raises := by
        constructor
        · intro h
          obtain ⟨e, he⟩ := h
          cases he
        · intro hno
          exact absurd hhead (hno 0)
      calls := by
        intro n
        constructor
        · intro hn
          rw [List.mem_singleton] at hn
          exact ⟨0, provider, hn, rfl, hcool, fun j hj => absurd hj (by omega)⟩
        · intro hn
          obtain ⟨i, name, hi, hname, -, hno⟩ := hn
          cases i with
          | zero => exact List.mem_singleton.mpr hi
          | succ i => exact absurd hhead (hno 0 (by omega))
      once := List.pairwise_singleton _ _
      cooldown := by
        intro name
        rw [hc']
        constructor
        · intro h
          exact Or.inl h
        · intro h
          rcases h with h | ⟨i, hi, hname, hrefuses⟩
          · exact h
          · have hi0 : i = 0 := by
              have := List.mem_singleton.mp hi
              omega
            subst hi0
            rw [Nat.add_zero, hserves] at hrefuses
            cases hrefuses }

theorem InOrder.exhausted (k : Nat) (c : Cooldown) (e : Error) :
    InOrder accept answers now k [] c { calls := [], cooldown := c, result := .error e } := by
  have hno : ∀ i, ¬ Qualifies accept answers now k [] c i := by
    intro i hq
    obtain ⟨name, hname, -⟩ := hq
    cases hname
  exact
    { first := fun i name hname _ _ => by cases hname
      raises := ⟨fun _ => hno, fun _ => ⟨e, rfl⟩⟩
      calls := by simp
      once := List.Pairwise.nil
      cooldown := by simp }

/-- **The loop keeps the order**, by induction on the providers still to be asked. -/
theorem walk_inOrder {client : FailoverSearchClient} (hadvance : client.advanceOnEmpty = true)
    (hrest : 0 < client.cooldownSeconds) (k : Nat) (names : List String) (hnames : names.Nodup)
    (c : Cooldown) :
    InOrder accept answers now k names c
      (walk client (fun hits => .ok (accept hits)) answers (fun _ => now) k names c) := by
  induction names generalizing k c with
  | nil => exact InOrder.exhausted k c _
  | cons provider rest ih =>
    obtain ⟨hnew, hrestnames⟩ := List.nodup_cons.mp hnames
    have hkept : ∀ name, (c.blocked provider now).1.cooling now name = c.cooling now name :=
      fun name => c.cooling_blocked now provider name
    simp only [walk]
    by_cases hcool : (c.blocked provider now).2 = true
    · -- the provider rests
      have hrests : c.cooling now provider = true := hcool
      rw [if_pos hcool]
      refine (ih (k + 1) hrestnames _).passed hnew (Or.inl hrests) ?_ ?_ rfl rfl
      · intro name
        rw [hkept]
        simp [hrests]
      · rw [if_pos hrests]
    · have hup : c.cooling now provider = false := Bool.eq_false_iff.mpr hcool
      rw [if_neg hcool]
      -- what is owed of a walk that goes on and leaves the others as they are
      have hgoes : (answers k).usable accept = [] → (answers k).refuses = false →
          InOrder accept answers now k (provider :: rest) c
            ((walk client (fun hits => .ok (accept hits)) answers (fun _ => now) (k + 1) rest
              (c.blocked provider now).1).called k) := by
        intro hnone hserves
        refine (ih (k + 1) hrestnames _).passed hnew (Or.inr hnone) ?_ ?_ rfl rfl
        · intro name
          rw [hkept]
          simp [hserves]
        · simp [hup, Walk.called]
      -- and of one that goes on with the provider sent to rest
      have hsent : (answers k).usable accept = [] → (answers k).refuses = true →
          InOrder accept answers now k (provider :: rest) c
            ((walk client (fun hits => .ok (accept hits)) answers (fun _ => now) (k + 1) rest
              ((c.blocked provider now).1.block provider
                (now + client.cooldownSeconds))).called k) := by
        intro hnone hrefuses
        refine (ih (k + 1) hrestnames _).passed hnew (Or.inr hnone) ?_ ?_ rfl rfl
        · intro name
          rw [Cooldown.cooling_block _ (lt_add_of_pos_right now hrest), hkept]
          simp [hup, hrefuses, or_comm]
        · simp [hup, Walk.called]
      cases hans : answers k with
      | authError => exact hsent (by rw [hans]; rfl) (by rw [hans]; rfl)
      | quotaError => exact hsent (by rw [hans]; rfl) (by rw [hans]; rfl)
      | circuitOpen => exact hgoes (by rw [hans]; rfl) (by rw [hans]; rfl)
      | failed => exact hgoes (by rw [hans]; rfl) (by rw [hans]; rfl)
      | hits found =>
        have husable : (answers k).usable accept = accept found := by rw [hans]; rfl
        dsimp only
        by_cases hempty : accept found = []
        · rw [if_pos ⟨hempty, hadvance⟩]
          exact hgoes (husable.trans hempty) (by rw [hans]; rfl)
        · rw [if_neg (fun h => hempty h.1), ← husable]
          exact InOrder.served hup (by rw [husable]; exact hempty) hkept

end

namespace Sample

def threeEngines : FailoverSearchClient := { providers := ["serper", "brave", "tavily"] }

def statute : SearchHit :=
  { title := "Điều 45", url := "https://luatvietnam.vn/dieu-45", position := 1 }

def threeAnswers : Nat → ProviderAnswer
  | 0 => .quotaError
  | 1 => .hits []
  | _ => .hits [statute]

end Sample

end DigitalWorker.Knowledge
