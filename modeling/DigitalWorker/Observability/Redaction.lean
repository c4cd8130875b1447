import DigitalWorker.Kernel.Basic

/-! # Redaction

    What goes to logs and traces is copied with its secrets replaced: a value under a
    sensitive key by the mark, a bearer token in a text likewise. The copying goes
    into mappings within mappings, and hands on everything else as it is. What is
    left of a text has no token: the mark is none, and it makes none of what stands
    around it.
-/

namespace DigitalWorker.Observability

section

/-! ## The pattern -/

def ignoreCase (c : Char) : Char :=
  let n := c.toNat
  if 65 ≤ n ∧ n ≤ 90 then Char.ofNat (n + 32)
  else if n = 304 ∨ n = 305 then 'i'
  else if n = 383 then 's'
  else if n = 8490 then 'k'
  else c

/-- `[A-Za-z0-9._~+/=-]`, ignoring case. -/
def isTokenChar (c : Char) : Bool :=
  let n := (ignoreCase c).toNat
  (97 ≤ n && n ≤ 122) || (48 ≤ n && n ≤ 57) || n == 46 || n == 95 || n == 126 || n == 43 ||
    n == 47 || n == 61 || n == 45

def dropWord : List Char → List Char → Option (List Char)
  | [], cs => some cs
  | _ :: _, [] => none
  | letter :: word, c :: cs => if ignoreCase c = letter then dropWord word cs else none

section

variable (isWord : Char → Bool)

/-- `\b`, between the character before and what follows. -/
def boundary (before : Option Char) (cs : List Char) : Bool :=
  before.any isWord != cs.head?.any isWord

/-- `\s+[A-Za-z0-9._~+/=-]{8,}`: how many characters it takes. -/
def blanksAndToken (cs : List Char) : Option Nat :=
  let blanks := (cs.takeWhile isSpace).length
  let token := ((cs.dropWhile isSpace).takeWhile isTokenChar).length
  if blanks = 0 ∨ token < 8 then none else some (blanks + token)

/-- `_BEARER_PATTERN.match` at a place of the text: how many characters it takes. -/
def bearerAt (before : Option Char) (cs : List Char) : Option Nat :=
  if boundary isWord before cs then
    (dropWord "bearer".toList cs).bind (fun rest => (blanksAndToken rest).map (6 + ·))
  else none

/-- `_BEARER_PATTERN.search(text) is not None`, from a place on. -/
def hasBearer (before : Option Char) : List Char → Bool
  | [] => false
  | c :: cs => (bearerAt isWord before (c :: cs)).isSome || hasBearer (some c) cs

/-- `f"Bearer {REDACTED}"`. -/
def mark : List Char := "Bearer [REDACTED]".toList

/-- `_BEARER_PATTERN.sub(mark, text)` from a place on, the next `skip` characters
    belonging to a match. -/
def redactFrom : Option Char → Nat → List Char → List Char
  | _, _, [] => []
  | _, skip + 1, c :: cs => redactFrom (some c) skip cs
  | before, 0, c :: cs =>
    match bearerAt isWord before (c :: cs) with
    | some taken => mark ++ redactFrom (some c) (taken - 1) cs
    | none => c :: redactFrom (some c) 0 cs

def redactText (text : String) : String :=
  String.ofList (redactFrom isWord none 0 text.toList)

def Leaks (text : String) : Prop := hasBearer isWord none text.toList = true

instance (text : String) : Decidable (Leaks isWord text) := inferInstanceAs (Decidable (_ = _))

end

/-! ## Without a token nothing changes -/

section

variable {isWord : Char → Bool} {before : Option Char} {c : Char} {cs : List Char}

theorem hasBearer_cons : hasBearer isWord before (c :: cs) = false ↔
    bearerAt isWord before (c :: cs) = none ∧ hasBearer isWord (some c) cs = false := by
  simp [hasBearer]

theorem redactFrom_pass (h : bearerAt isWord before (c :: cs) = none) :
    redactFrom isWord before 0 (c :: cs) = c :: redactFrom isWord (some c) 0 cs := by
  rw [redactFrom, h]

theorem redactFrom_hit {taken : Nat} (h : bearerAt isWord before (c :: cs) = some taken) :
    redactFrom isWord before 0 (c :: cs) = mark ++ redactFrom isWord (some c) (taken - 1) cs := by
  rw [redactFrom, h]

theorem redactFrom_quiet (h : hasBearer isWord before cs = false) :
    redactFrom isWord before 0 cs = cs := by
  induction cs generalizing before with
  | nil => rfl
  | cons c cs ih =>
    obtain ⟨hnone, hrest⟩ := hasBearer_cons.mp h
    rw [redactFrom_pass hnone, ih hrest]

theorem redactFrom_skip (skip : Nat) (before : Option Char) (cs : List Char) :
    ∃ before', redactFrom isWord before skip cs = redactFrom isWord before' 0 (cs.drop skip) := by
  induction cs generalizing skip before with
  | nil => exact ⟨before, by simp [redactFrom]⟩
  | cons c cs ih =>
    cases skip with
    | zero => exact ⟨before, rfl⟩
    | succ skip =>
      obtain ⟨before', h⟩ := ih skip (some c)
      exact ⟨before', by rw [redactFrom, h, List.drop_succ_cons]⟩

end

/-! ## The letters of the pattern -/

section

variable {c : Char} {cs rest : List Char} {word : List Char}

theorem isSpace_ignoreCase (h : isSpace c = true) : ignoreCase c = c := by
  simp only [isSpace, Bool.or_eq_true, Bool.and_eq_true, decide_eq_true_eq, beq_iff_eq] at h
  unfold ignoreCase
  rw [if_neg (by omega), if_neg (by omega), if_neg (by omega), if_neg (by omega)]

theorem letter_b (h : ignoreCase c = 'b') : isSpace c = false ∧ isTokenChar c = true := by
  constructor
  · by_contra hspace
    have hspace : isSpace c = true := by simpa using hspace
    rw [isSpace_ignoreCase hspace] at h
    subst h
    revert hspace
    decide
  · unfold isTokenChar
    rw [h]
    decide

theorem dropWord_drop (h : dropWord word cs = some rest) : cs.drop word.length = rest := by
  induction word generalizing cs with
  | nil => exact Option.some.inj h
  | cons letter word ih =>
    cases cs with
    | nil => cases h
    | cons c cs =>
      simp only [dropWord] at h
      split at h
      · exact ih h
      · cases h

theorem dropWord_token (hword : ∀ letter ∈ word, ∀ c, ignoreCase c = letter → isTokenChar c = true)
    (h : dropWord word cs = some rest) : word.length ≤ (cs.takeWhile isTokenChar).length := by
  induction word generalizing cs with
  | nil => exact Nat.zero_le _
  | cons letter word ih =>
    cases cs with
    | nil => cases h
    | cons c cs =>
      simp only [dropWord] at h
      split at h
      · next hletter =>
        have hc : isTokenChar c = true := hword letter List.mem_cons_self c hletter
        have hrest := ih (fun l hl => hword l (List.mem_cons_of_mem _ hl)) h
        rw [List.takeWhile_cons_of_pos hc]
        simpa using hrest
      · cases h

theorem bearer_letters : ∀ letter ∈ "bearer".toList, ∀ c, ignoreCase c = letter →
    isTokenChar c = true := by
  intro letter hletter c hc
  have hall : "bearer".toList.all (fun l => 97 ≤ l.toNat && l.toNat ≤ 122) = true := by decide
  have hrange := List.all_eq_true.mp hall letter hletter
  unfold isTokenChar
  rw [hc]
  simp only [hrange, Bool.true_or]

end

/-! ## What a match is -/

section

variable {isWord : Char → Bool} {before before' : Option Char} {c : Char} {cs rest : List Char}
  {taken : Nat}

theorem bearerAt_some (h : bearerAt isWord before cs = some taken) :
    ∃ rest n, dropWord "bearer".toList cs = some rest ∧ blanksAndToken rest = some n ∧
      taken = 6 + n := by
  unfold bearerAt at h
  split at h
  · obtain ⟨rest, hrest, hmap⟩ := Option.bind_eq_some_iff.mp h
    obtain ⟨n, hn, rfl⟩ := Option.map_eq_some_iff.mp hmap
    exact ⟨rest, n, hrest, hn, rfl⟩
  · cases h

theorem bearerAt_head (h : bearerAt isWord before (c :: cs) = some taken) : ignoreCase c = 'b' := by
  obtain ⟨rest, n, hrest, -, -⟩ := bearerAt_some h
  by_contra hne
  have hnone : dropWord "bearer".toList (c :: cs) = none := by
    show (if ignoreCase c = 'b' then _ else none) = none
    rw [if_neg hne]
  rw [hnone] at hrest
  cases hrest

theorem bearerAt_eq_none (h : ignoreCase c ≠ 'b') : bearerAt isWord before (c :: cs) = none := by
  cases hat : bearerAt isWord before (c :: cs) with
  | none => rfl
  | some taken => exact absurd (bearerAt_head hat) h

theorem drop_takeWhile_length (p : Char → Bool) (cs : List Char) :
    cs.drop (cs.takeWhile p).length = cs.dropWhile p := by
  induction cs with
  | nil => rfl
  | cons c cs ih =>
    by_cases h : p c = true
    · rw [List.takeWhile_cons_of_pos h, List.dropWhile_cons_of_pos h, List.length_cons,
        List.drop_succ_cons, ih]
    · rw [List.takeWhile_cons_of_neg h, List.dropWhile_cons_of_neg h]
      rfl

theorem blanksAndToken_isSome : (blanksAndToken cs).isSome = true ↔
    cs.takeWhile isSpace ≠ [] ∧ 8 ≤ ((cs.dropWhile isSpace).takeWhile isTokenChar).length := by
  unfold blanksAndToken
  by_cases h : cs.takeWhile isSpace = []
  · simp [h]
  · have hne : (cs.takeWhile isSpace).length ≠ 0 := by simpa using h
    by_cases htoken : ((cs.dropWhile isSpace).takeWhile isTokenChar).length < 8
    · simp only [htoken, or_true, if_true, Option.isSome_none, Bool.false_eq_true, false_iff]
      omega
    · simp only [hne, htoken, or_self, if_false, Option.isSome_some, true_iff]
      exact ⟨h, by omega⟩

theorem bearerAt_rest (h : bearerAt isWord before cs = some taken) :
    ∀ d, (cs.drop taken).head? = some d → isTokenChar d = false := by
  obtain ⟨rest, n, hrest, hn, rfl⟩ := bearerAt_some h
  have hdrop : cs.drop 6 = rest := dropWord_drop hrest
  unfold blanksAndToken at hn
  dsimp only at hn
  split at hn
  · cases hn
  · obtain rfl := Option.some.inj hn
    intro d hd
    rw [← List.drop_drop, hdrop, ← List.drop_drop, drop_takeWhile_length,
      drop_takeWhile_length] at hd
    have hnot := List.head?_dropWhile_not isTokenChar (rest.dropWhile isSpace)
    rw [hd] at hnot
    exact hnot

end

/-! ## No token is made -/

variable {isWord : Char → Bool} {before before' : Option Char} {c : Char} {cs rest out : List Char}
  {taken : Nat}

/-- A word without a `b` is found in what is left of a text only where the text has it. -/
theorem dropWord_redacted {word : List Char} (hword : 'b' ∉ word)
    (h : dropWord word (redactFrom isWord before 0 cs) = some out) :
    ∃ before' rest, dropWord word cs = some rest ∧ out = redactFrom isWord before' 0 rest := by
  induction word generalizing before cs with
  | nil => exact ⟨before, cs, rfl, (Option.some.inj h).symm⟩
  | cons letter word ih =>
    have hletter : letter ≠ 'b' := fun heq => hword (by simp [heq])
    cases cs with
    | nil => cases h
    | cons c cs =>
      cases hat : bearerAt isWord before (c :: cs) with
      | some taken =>
        -- the mark begins with the letter that the word has not
        rw [redactFrom_hit hat] at h
        change (if 'b' = letter then _ else none) = some out at h
        rw [if_neg (Ne.symm hletter)] at h
        cases h
      | none =>
        rw [redactFrom_pass hat] at h
        simp only [dropWord] at h ⊢
        split at h
        · next hc =>
          rw [if_pos hc]
          exact ih (fun hmem => hword (List.mem_cons_of_mem _ hmem)) h
        · cases h

theorem blanks_redacted (before : Option Char) (cs : List Char) :
    (redactFrom isWord before 0 cs).takeWhile isSpace = cs.takeWhile isSpace ∧
    ∃ before', (redactFrom isWord before 0 cs).dropWhile isSpace =
      redactFrom isWord before' 0 (cs.dropWhile isSpace) := by
  induction cs generalizing before with
  | nil => exact ⟨rfl, before, rfl⟩
  | cons c cs ih =>
    cases hat : bearerAt isWord before (c :: cs) with
    | some taken =>
      have hspace : ¬ isSpace c = true := by simp [(letter_b (bearerAt_head hat)).1]
      rw [List.takeWhile_cons_of_neg hspace, List.dropWhile_cons_of_neg hspace]
      refine ⟨?_, before, ?_⟩
      · rw [redactFrom_hit hat]
        exact List.takeWhile_cons_of_neg (by decide)
      · conv_lhs => rw [redactFrom_hit hat]
        rw [redactFrom_hit hat]
        exact List.dropWhile_cons_of_neg (by decide)
    | none =>
      rw [redactFrom_pass hat]
      by_cases hspace : isSpace c = true
      · obtain ⟨htake, before', hdrop⟩ := ih (some c)
        rw [List.takeWhile_cons_of_pos hspace, List.takeWhile_cons_of_pos hspace, htake,
          List.dropWhile_cons_of_pos hspace, List.dropWhile_cons_of_pos hspace]
        exact ⟨rfl, before', hdrop⟩
      · rw [List.takeWhile_cons_of_neg hspace, List.takeWhile_cons_of_neg hspace,
          List.dropWhile_cons_of_neg hspace, List.dropWhile_cons_of_neg hspace]
        exact ⟨rfl, before, (redactFrom_pass hat).symm⟩

theorem token_redacted (before : Option Char) (cs : List Char) :
    ((redactFrom isWord before 0 cs).takeWhile isTokenChar).length ≤
      (cs.takeWhile isTokenChar).length := by
  induction cs generalizing before with
  | nil => exact Nat.zero_le _
  | cons c cs ih =>
    cases hat : bearerAt isWord before (c :: cs) with
    | some taken =>
      obtain ⟨rest, n, hrest, -, -⟩ := bearerAt_some hat
      have hletters := dropWord_token bearer_letters hrest
      have hmark : (redactFrom isWord before 0 (c :: cs)).takeWhile isTokenChar =
          "Bearer".toList := by
        rw [redactFrom_hit hat]
        have hsplit : mark = "Bearer".toList ++ " [REDACTED]".toList := by decide
        have hall : "Bearer".toList.all isTokenChar = true := by decide
        rw [hsplit, List.append_assoc, List.takeWhile_append_of_pos (List.all_eq_true.mp hall)]
        have hblank : (" [REDACTED]".toList ++ redactFrom isWord (some c) (taken - 1) cs).takeWhile
            isTokenChar = [] := List.takeWhile_cons_of_neg (by decide)
        rw [hblank, List.append_nil]
      rw [hmark]
      exact hletters
    | none =>
      rw [redactFrom_pass hat]
      by_cases htoken : isTokenChar c = true
      · rw [List.takeWhile_cons_of_pos htoken, List.takeWhile_cons_of_pos htoken]
        exact Nat.succ_le_succ (ih (some c))
      · rw [List.takeWhile_cons_of_neg htoken]
        exact Nat.zero_le _

/-- **No token is made**: where the text has none at a place that stays, what is left
    has none there. -/
theorem bearerAt_redacted (h : bearerAt isWord before (c :: cs) = none) :
    bearerAt isWord before (c :: redactFrom isWord (some c) 0 cs) = none := by
  cases hat : bearerAt isWord before (c :: redactFrom isWord (some c) 0 cs) with
  | none => rfl
  | some taken =>
    exfalso
    have hboundary : boundary isWord before (c :: cs) = true := by
      by_contra hb
      have hsame : ¬ boundary isWord before (c :: redactFrom isWord (some c) 0 cs) = true := hb
      unfold bearerAt at hat
      rw [if_neg hsame] at hat
      cases hat
    have hb := bearerAt_head hat
    obtain ⟨out, n, hout, hblanks, -⟩ := bearerAt_some hat
    -- the letters, then the blanks, then the token
    have hword : "bearer".toList = 'b' :: "earer".toList := by decide
    rw [hword, dropWord, if_pos hb] at hout
    obtain ⟨before', rest, hrest, rfl⟩ := dropWord_redacted (by decide) hout
    have hsome : (blanksAndToken (redactFrom isWord before' 0 rest)).isSome = true := by
      rw [hblanks]
      rfl
    obtain ⟨htake, before'', hdrop⟩ := @blanks_redacted isWord before' rest
    rw [blanksAndToken_isSome, htake, hdrop] at hsome
    have htoken := @token_redacted isWord before'' (rest.dropWhile isSpace)
    have hfound : (blanksAndToken rest).isSome = true :=
      blanksAndToken_isSome.mpr ⟨hsome.1, by omega⟩
    have hdropWord : dropWord "bearer".toList (c :: cs) = some rest := by
      rw [hword, dropWord, if_pos hb]
      exact hrest
    unfold bearerAt at h
    rw [if_pos hboundary, hdropWord, Option.bind_some] at h
    rw [Option.map_eq_none_iff.mp h] at hfound
    cases hfound

theorem hasBearer_without_b {d : Char} (hcs : cs.all (fun c => ignoreCase c ≠ 'b') = true)
    (hd : ignoreCase d ≠ 'b') :
    hasBearer isWord before (cs ++ d :: rest) = hasBearer isWord (some d) rest := by
  induction cs generalizing before with
  | nil =>
    rw [List.nil_append, hasBearer, bearerAt_eq_none hd]
    rfl
  | cons c cs ih =>
    rw [List.all_cons, Bool.and_eq_true, decide_eq_true_eq] at hcs
    rw [List.cons_append, hasBearer, bearerAt_eq_none hcs.1, ih hcs.2]
    rfl

theorem mark_quiet (h : hasBearer isWord (some ']') rest = false) :
    hasBearer isWord before (mark ++ rest) = false := by
  have hfirst : ∀ before, bearerAt isWord before (mark ++ rest) = none := by
    intro before
    cases hat : bearerAt isWord before (mark ++ rest) with
    | none => rfl
    | some taken =>
      obtain ⟨out, n, hout, hblanks, -⟩ := bearerAt_some hat
      obtain rfl : " [REDACTED]".toList ++ rest = out := Option.some.inj hout
      have hsome : (blanksAndToken (" [REDACTED]".toList ++ rest)).isSome = true := by
        rw [hblanks]
        rfl
      -- behind the blank stands a bracket
      have hnothing : ((" [REDACTED]".toList ++ rest).dropWhile isSpace).takeWhile isTokenChar =
          [] := by
        have hbracket : (" [REDACTED]".toList ++ rest).dropWhile isSpace =
            "[REDACTED]".toList ++ rest := rfl
        rw [hbracket]
        exact List.takeWhile_cons_of_neg (by decide)
      have hshort := (blanksAndToken_isSome.mp hsome).2
      rw [hnothing] at hshort
      exact absurd hshort (by decide)
  have hmark : mark = 'B' :: ("earer [REDACTED".toList ++ [']']) := by decide
  have htail : ∀ before, hasBearer isWord before (("earer [REDACTED".toList ++ [']']) ++ rest) =
      false := by
    intro before
    rw [List.append_assoc, List.singleton_append, hasBearer_without_b (by decide) (by decide), h]
  have hat := hfirst before
  rw [hmark, List.cons_append] at hat ⊢
  exact hasBearer_cons.mpr ⟨hat, htail _⟩

/-- **What is left of a text has no token**, by induction on its length. After a mark
    the character before is not the one of the text, but no token begins there. -/
theorem redactFrom_clean (n : Nat) (cs : List Char) (hn : cs.length ≤ n) (before before' : Option Char)
    (hbefore : before = before' ∨ ∀ d, cs.head? = some d → isTokenChar d = false) :
    hasBearer isWord before (redactFrom isWord before' 0 cs) = false := by
  induction n generalizing cs before before' with
  | zero =>
    have hnil : cs = [] := List.length_eq_zero_iff.mp (by omega)
    subst hnil
    rfl
  | succ n ih =>
    cases cs with
    | nil => rfl
    | cons c cs =>
      cases hat : bearerAt isWord before' (c :: cs) with
      | some taken =>
        rw [redactFrom_hit hat]
        apply mark_quiet
        obtain ⟨rest, k, -, -, htaken⟩ := bearerAt_some hat
        obtain ⟨last, hskip⟩ := @redactFrom_skip isWord (taken - 1) (some c) cs
        rw [hskip]
        have hdrop : cs.drop (taken - 1) = (c :: cs).drop taken := by
          have hsucc : taken = taken - 1 + 1 := by omega
          rw [hsucc, List.drop_succ_cons, Nat.add_sub_cancel]
        refine ih _ ?_ _ _ (Or.inr ?_)
        · rw [List.length_drop]
          simp only [List.length_cons] at hn
          omega
        · rw [hdrop]
          exact bearerAt_rest hat
      | none =>
        rw [redactFrom_pass hat]
        refine hasBearer_cons.mpr ⟨?_, ih cs ?_ _ _ (Or.inl rfl)⟩
        · rcases hbefore with rfl | hhead
          · exact bearerAt_redacted hat
          · apply bearerAt_eq_none
            intro hb
            have htoken := (letter_b hb).2
            rw [hhead c rfl] at htoken
            cases htoken
        · simp only [List.length_cons] at hn
          omega

theorem redacted_quiet : ¬ Leaks isWord "[REDACTED]" := by
  have hsplit : "[REDACTED]".toList = "[REDACTED".toList ++ [']'] := by decide
  unfold Leaks
  rw [hsplit, hasBearer_without_b (by decide) (by decide)]
  simp [hasBearer]

theorem redactText_clean (text : String) : ¬ Leaks isWord (redactText isWord text) := by
  unfold Leaks redactText
  rw [String.toList_ofList, redactFrom_clean text.toList.length _ le_rfl none none (Or.inl rfl)]
  simp

theorem redactText_quiet {text : String} (h : ¬ Leaks isWord text) : redactText isWord text = text := by
  unfold Leaks at h
  unfold redactText
  rw [redactFrom_quiet (Bool.eq_false_iff.mpr h), String.ofList_toList]

theorem redactText_idem (text : String) :
    redactText isWord (redactText isWord text) = redactText isWord text :=
  redactText_quiet (redactText_clean text)

end

/-- The words of `_SENSITIVE_KEY_PATTERN`, one for each way to write them. -/
def sensitiveWords : List String :=
  ["password", "passwd", "secret", "token", "apikey", "api_key", "api-key", "authorization",
    "credential", "privatekey", "private_key", "private-key", "clientsecret", "client_secret",
    "client-secret", "accesskey", "access_key", "access-key", "session"]

/-- `(?:$|_)`: the end, also before a last line feed, or an underscore. -/
def endsWord : List Char → Bool
  | [] => true
  | '_' :: _ => true
  | '\n' :: [] => true
  | _ => false

def sensitiveAt (cs : List Char) : Bool :=
  sensitiveWords.any (fun word => (dropWord word.toList cs).any endsWord)

/-- `_SENSITIVE_KEY_PATTERN.search`, at the places after an underscore. -/
def sensitiveFrom : List Char → Bool
  | [] => false
  | c :: cs => (c = '_' && sensitiveAt cs) || sensitiveFrom cs

def isSensitiveKey (key : String) : Bool := sensitiveAt key.toList || sensitiveFrom key.toList

/-- A value that is logged; `σ` are the values that are no text, list or mapping. -/
inductive Logged (σ : Type) where
  | text (s : String)
  | other (x : σ)
  | list (items : List (Logged σ))
  | mapping (fields : List (String × Logged σ))

variable {σ : Type}

def redacted : Logged σ := .text "[REDACTED]"

section

variable (isWord : Char → Bool)

mutual

def redactValue : Logged σ → Logged σ
  | .mapping fields => .mapping (redactMapping fields)
  | .text s => .text (redactText isWord s)
  | .list items => .list items
  | .other x => .other x

def redactMapping : List (String × Logged σ) → List (String × Logged σ)
  | [] => []
  | (key, value) :: rest =>
    (key, if isSensitiveKey key then redacted else redactValue value) :: redactMapping rest

end

/-! ## What redaction promises -/

mutual

/-- At no depth a sensitive key has another value than the mark, or a text a token. -/
def Clean : Logged σ → Prop
  | .text s => ¬ Leaks isWord s
  | .other _ => True
  | .list items => CleanItems items
  | .mapping fields => CleanFields fields

def CleanItems : List (Logged σ) → Prop
  | [] => True
  | item :: items => Clean item ∧ CleanItems items

def CleanFields : List (String × Logged σ) → Prop
  | [] => True
  | (key, value) :: rest =>
    (isSensitiveKey key = true → value = redacted) ∧ Clean value ∧ CleanFields rest

end

mutual

def Kept : Logged σ → Logged σ → Prop
  | .text s, v => ∃ s', v = .text s' ∧ (¬ Leaks isWord s → s' = s)
  | .other x, v => v = .other x
  | .list items, v => ∃ items', v = .list items' ∧ KeptItems items items'
  | .mapping fields, v => ∃ fields', v = .mapping fields' ∧ KeptFields fields fields'

def KeptItems : List (Logged σ) → List (Logged σ) → Prop
  | [], vs => vs = []
  | item :: items, vs => ∃ v vs', vs = v :: vs' ∧ Kept item v ∧ KeptItems items vs'

def KeptFields : List (String × Logged σ) → List (String × Logged σ) → Prop
  | [], fs => fs = []
  | (key, value) :: rest, fs => ∃ v fs', fs = (key, v) :: fs' ∧
      (isSensitiveKey key = false → Kept value v) ∧ KeptFields rest fs'

end

mutual

def CleanLists : Logged σ → Prop
  | .list items => CleanItems isWord items
  | .mapping fields => CleanListFields fields
  | .text _ => True
  | .other _ => True

def CleanListFields : List (String × Logged σ) → Prop
  | [] => True
  | (key, value) :: rest => (isSensitiveKey key = false → CleanLists value) ∧ CleanListFields rest

end

end

/-! ## What redaction keeps -/

section

variable {isWord : Char → Bool}

mutual

theorem kept_refl : (v : Logged σ) → Kept isWord v v
  | .text s => ⟨s, rfl, fun _ => rfl⟩
  | .other _ => rfl
  | .list items => ⟨items, rfl, keptItems_refl items⟩
  | .mapping fields => ⟨fields, rfl, keptFields_refl fields⟩

theorem keptItems_refl : (items : List (Logged σ)) → KeptItems isWord items items
  | [] => rfl
  | item :: items => ⟨item, items, rfl, kept_refl item, keptItems_refl items⟩

theorem keptFields_refl : (fields : List (String × Logged σ)) → KeptFields isWord fields fields
  | [] => rfl
  | (_, value) :: rest => ⟨value, rest, rfl, fun _ => kept_refl value, keptFields_refl rest⟩

end

mutual

/-- **Everything else is unchanged**, at every depth. -/
theorem kept_redactValue : (v : Logged σ) → Kept isWord v (redactValue isWord v)
  | .text s => ⟨redactText isWord s, by rw [redactValue], redactText_quiet⟩
  | .other x => by rw [redactValue]; exact kept_refl (.other x)
  | .list items => by rw [redactValue]; exact kept_refl (.list items)
  | .mapping fields =>
    ⟨redactMapping isWord fields, by rw [redactValue], kept_redactMapping fields⟩

theorem kept_redactMapping :
    (fields : List (String × Logged σ)) → KeptFields isWord fields (redactMapping isWord fields)
  | [] => by rw [redactMapping]; rfl
  | (key, value) :: rest => by
    refine ⟨_, _, by rw [redactMapping], fun hkey => ?_, kept_redactMapping rest⟩
    rw [if_neg (by simp [hkey])]
    exact kept_redactValue value

end

mutual

/-- **A second time changes nothing.** -/
theorem redactValue_idem : (v : Logged σ) →
    redactValue isWord (redactValue isWord v) = redactValue isWord v
  | .text s => by rw [redactValue, redactValue, redactText_idem]
  | .other x => by rw [redactValue, redactValue]
  | .list items => by rw [redactValue, redactValue]
  | .mapping fields => by rw [redactValue, redactValue, redactMapping_idem fields]

theorem redactMapping_idem : (fields : List (String × Logged σ)) →
    redactMapping isWord (redactMapping isWord fields) = redactMapping isWord fields
  | [] => by rw [redactMapping, redactMapping]
  | (key, value) :: rest => by
    rw [redactMapping, redactMapping, redactMapping_idem rest]
    by_cases hkey : isSensitiveKey key = true
    · simp only [if_pos hkey]
    · simp only [if_neg hkey, redactValue_idem value]

end

theorem redacted_clean : Clean isWord (redacted : Logged σ) := by
  unfold redacted
  rw [Clean]
  exact redacted_quiet

mutual

/-- **What is left is clean** exactly when the lists the copying comes to were. -/
theorem clean_redactValue_iff : (v : Logged σ) →
    (Clean isWord (redactValue isWord v) ↔ CleanLists isWord v)
  | .text s => by
    rw [redactValue, Clean, CleanLists]
    exact iff_true_intro (redactText_clean s)
  | .other x => by rw [redactValue, Clean, CleanLists]
  | .list items => by rw [redactValue, Clean, CleanLists]
  | .mapping fields => by
    rw [redactValue, Clean, CleanLists]
    exact clean_redactMapping_iff fields

theorem clean_redactMapping_iff : (fields : List (String × Logged σ)) →
    (CleanFields isWord (redactMapping isWord fields) ↔ CleanListFields isWord fields)
  | [] => by rw [redactMapping, CleanFields, CleanListFields]
  | (key, value) :: rest => by
    rw [redactMapping, CleanFields, CleanListFields, clean_redactMapping_iff rest]
    by_cases hkey : isSensitiveKey key = true
    · -- the value is the mark
      simp [hkey, redacted_clean]
    · simp [hkey, clean_redactValue_iff value]

end

end

/-- What the redaction of a mapping promises. -/
structure ReachesEveryDepth (isWord : Char → Bool) (data : List (String × Logged σ)) : Prop where
  clean : CleanFields isWord (redactMapping isWord data)
  kept : KeptFields isWord data (redactMapping isWord data)
  idempotent : redactMapping isWord (redactMapping isWord data) = redactMapping isWord data

/-- **Redaction reaches every depth, but for lists**: what it leaves is clean exactly
    when no list under keys that are not sensitive has anything in it to redact. The
    rest is unchanged, and a second time changes nothing, in any case. -/
theorem reachesEveryDepth_iff (isWord : Char → Bool) (data : List (String × Logged σ)) :
    ReachesEveryDepth isWord data ↔ CleanListFields isWord data := by
  rw [← clean_redactMapping_iff]
  constructor
  · intro h
    exact h.clean
  · intro hclean
    exact { clean := hclean, kept := kept_redactMapping data, idempotent := redactMapping_idem data }

/-- A password in a mapping in a list is handed on. -/
theorem reachesEveryDepth_breaks : ¬ ReachesEveryDepth (σ := Unit) (fun _ => true)
    [("items", .list [.mapping [("password", .text "hunter2")]])] := by
  intro h
  have hlists := (clean_redactMapping_iff _).mp h.clean
  simp only [CleanListFields, CleanLists, CleanItems, Clean, CleanFields] at hlists
  have hmark := (hlists.1 (by decide)).1.1 (by decide)
  simp [redacted] at hmark

end DigitalWorker.Observability
