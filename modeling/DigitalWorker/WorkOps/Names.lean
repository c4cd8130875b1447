import DigitalWorker.Framework.Dicts
import DigitalWorker.Framework.Squeeze
import DigitalWorker.WorkOps.Nodes
import DigitalWorker.WorkOps.Transcript

/-! # Names of people

    Spoken and extracted names are looked up in the directory: by the full display
    name, ignoring case, and then by its ending. Both lookups go through a
    dictionary under the folded names, in which people of one name share an entry.
-/

namespace DigitalWorker.WorkOps

open Framework

/-- `key.endswith(suffix)`. -/
def endsWith (key suffix : String) : Bool := suffix.toList.isSuffixOf key.toList

section

variable (casefold : String → String) {α : Type} (nameOf : α → String)

def folded (people : List α) : List (String × α) :=
  dictOf (fun p => some (casefold (nameOf p))) id people

/-- The lookup of a name: the person, and whether by the full name. `blanks` tells
    whether an empty name is looked up by the ending too. -/
def resolveName (blanks : Bool) (people : List α) (name : String) : Option (α × Bool) :=
  match (folded casefold nameOf people).lookup (casefold name) with
  | some p => some (p, true)
  | none =>
    if name = "" ∧ blanks = false then none
    else
      match (folded casefold nameOf people).filter (fun e => endsWith e.1 (casefold name)) with
      | [e] => some (e.2, false)
      | _ => none

end

section

variable (casefold : String → String)

def resolveSpeakerNames (segments : List TranscriptSegment) (knownNames : List String) :
    List (String × Option String) :=
  segments.foldl (fun mapping segment =>
    let raw := strip segment.speaker
    if raw ∈ keys mapping then mapping
    else setKey mapping raw ((resolveName casefold id true knownNames raw).map (·.1))) []

structure DirectoryPerson where
  personId : Uuid
  displayName : String
  department : String
  email : Option String := none
  deriving DecidableEq

def DirectoryPerson.resolved (p : DirectoryPerson) (confidence : ℚ) : ResolvedAssignee :=
  { personId := p.personId, displayName := p.displayName, department := p.department
    confidence := confidence }

structure ExtractedAction where
  assigneeName : Option String
  candidate : ActionCandidate

/-- `(candidate.get("assignee_name") or "").strip()`. -/
def ExtractedAction.name (action : ExtractedAction) : String := strip (action.assigneeName.getD "")

/-- `resolve_assignees`: the candidates, and the warnings after those so far. -/
def resolveAssignees (people : List DirectoryPerson) :
    List ExtractedAction → List String → List ActionCandidate × List String
  | [], warnings => ([], warnings)
  | action :: rest, warnings =>
    match resolveName casefold DirectoryPerson.displayName false people action.name with
    | none =>
      let later := resolveAssignees people rest (warnings ++
        ["assignee_unresolved:" ++ if action.name = "" then "unknown" else action.name])
      ({ action.candidate with resolved := none } :: later.1, later.2)
    | some (person, exactly) =>
      let later := resolveAssignees people rest warnings
      ({ action.candidate with
         resolved := some (person.resolved (if exactly then 95 / 100 else 3 / 4)) } :: later.1,
        later.2)

end

/-! ## What is no guess -/

section

variable (casefold : String → String) {α : Type} (nameOf : α → String)

def holders (people : List α) (key : String) : List α :=
  people.filter (fun p => casefold (nameOf p) = key)

def EndsInWords (name : String) (p : α) : Prop :=
  wordsOf isSpace (casefold name).toList <:+ wordsOf isSpace (casefold (nameOf p)).toList

instance (name : String) (p : α) : Decidable (EndsInWords casefold nameOf name p) :=
  inferInstanceAs (Decidable (_ <:+ _))

/-- The name is that of `p` alone: as the full display name, or else as its last words. -/
def Justified (people : List α) (name : String) (p : α) : Prop :=
  name ≠ "" ∧ (holders casefold nameOf people (casefold name) = [p] ∨
    holders casefold nameOf people (casefold name) = [] ∧
      people.filter (fun q => EndsInWords casefold nameOf name q) = [p])

def Picks (blanks : Bool) (people : List α) (name key : String) : Prop :=
  (∃ p ∈ people, casefold (nameOf p) = key) ∧
    (key = casefold name ∨
      (∀ p ∈ people, casefold (nameOf p) ≠ casefold name) ∧ (name = "" → blanks = true) ∧
        endsWith key (casefold name) = true ∧
        ∀ p ∈ people, endsWith (casefold (nameOf p)) (casefold name) = true →
          casefold (nameOf p) = key)

def Clear (blanks : Bool) (people : List α) (name : String) : Prop :=
  ∀ key, Picks casefold nameOf blanks people name key →
    name ≠ "" ∧ (holders casefold nameOf people key).length = 1 ∧
      (key ≠ casefold name → ∀ p ∈ people,
        EndsInWords casefold nameOf name p ↔ casefold (nameOf p) = key)

variable {casefold nameOf} {people : List α} {name key : String} {blanks exactly : Bool} {p : α}

theorem mem_holders : p ∈ holders casefold nameOf people key ↔
    p ∈ people ∧ casefold (nameOf p) = key := by
  simp [holders]

theorem folded_lookup (people : List α) (key : String) :
    (folded casefold nameOf people).lookup key =
      (holders casefold nameOf people key).getLast? := by
  rw [folded, lookup_dictOf, Option.map_id]
  congr 1

theorem mem_keys_folded : key ∈ keys (folded casefold nameOf people) ↔
    ∃ p ∈ people, casefold (nameOf p) = key := by
  constructor
  · intro h
    obtain ⟨q, hq⟩ := exists_lookup h
    rw [folded_lookup] at hq
    exact ⟨q, mem_holders.mp (List.mem_of_getLast? hq)⟩
  · intro h
    obtain ⟨q, hq⟩ := h
    by_contra hnone
    rw [← lookup_eq_none, folded_lookup, List.getLast?_eq_none_iff] at hnone
    have hmem := mem_holders.mpr hq
    rw [hnone] at hmem
    cases hmem

theorem resolveName_some (h : resolveName casefold nameOf blanks people name = some (p, exactly)) :
    ∃ key, Picks casefold nameOf blanks people name key ∧
      (holders casefold nameOf people key).getLast? = some p := by
  unfold resolveName at h
  cases hfull : (folded casefold nameOf people).lookup (casefold name) with
  | some q =>
    rw [hfull] at h
    obtain ⟨rfl, -⟩ := Prod.mk.inj (Option.some.inj h)
    rw [folded_lookup] at hfull
    exact ⟨casefold name, ⟨⟨q, mem_holders.mp (List.mem_of_getLast? hfull)⟩, Or.inl rfl⟩, hfull⟩
  | none =>
    rw [hfull] at h
    have hnobody : ∀ q ∈ people, casefold (nameOf q) ≠ casefold name := by
      intro q hq heq
      exact lookup_eq_none.mp hfull (mem_keys_folded.mpr ⟨q, hq, heq⟩)
    dsimp only at h
    split at h
    · cases h
    · next hguard =>
      split at h
      · next e hfilter =>
        obtain ⟨rfl, -⟩ := Prod.mk.inj (Option.some.inj h)
        have honly : ∀ e' ∈ folded casefold nameOf people,
            endsWith e'.1 (casefold name) = true → e' = e := by
          intro e' he' hends
          have hmem : e' ∈ (folded casefold nameOf people).filter
              (fun e => endsWith e.1 (casefold name)) := List.mem_filter.mpr ⟨he', hends⟩
          rw [hfilter] at hmem
          exact List.mem_singleton.mp hmem
        obtain ⟨he, hends⟩ := List.mem_filter.mp (hfilter ▸ List.mem_singleton_self e :
          e ∈ (folded casefold nameOf people).filter (fun e => endsWith e.1 (casefold name)))
        have hkey : e.1 ∈ keys (folded casefold nameOf people) := List.mem_map_of_mem he
        -- the entry is the one the dictionary holds under its key
        obtain ⟨v, hv⟩ := exists_lookup hkey
        have hentry : (e.1, v) = e := honly _ (mem_of_lookup hv) hends
        rw [folded_lookup, show v = e.2 by rw [← hentry]] at hv
        refine ⟨e.1, ⟨mem_keys_folded.mp hkey, Or.inr ⟨hnobody, ?_, hends, ?_⟩⟩, hv⟩
        · intro hempty
          by_contra hblanks
          exact hguard ⟨hempty, by simpa using hblanks⟩
        · intro q hq hqends
          obtain ⟨w, hw⟩ := exists_lookup (mem_keys_folded.mpr ⟨q, hq, rfl⟩)
          exact congrArg Prod.fst (honly _ (mem_of_lookup hw) hqends)
      · cases h

theorem resolveName_of_picks (h : Picks casefold nameOf blanks people name key) :
    ∃ p exactly, resolveName casefold nameOf blanks people name = some (p, exactly) ∧
      (holders casefold nameOf people key).getLast? = some p := by
  obtain ⟨hsome, hcases⟩ := h
  obtain ⟨p, hp⟩ := exists_lookup (mem_keys_folded.mpr hsome)
  have hlast := hp
  rw [folded_lookup] at hlast
  rcases hcases with rfl | ⟨hnobody, hguard, hends, honly⟩
  · refine ⟨p, true, ?_, hlast⟩
    unfold resolveName
    rw [hp]
  · refine ⟨p, false, ?_, hlast⟩
    have hnone : (folded casefold nameOf people).lookup (casefold name) = none := by
      rw [lookup_eq_none, mem_keys_folded]
      intro hmem
      obtain ⟨q, hq, heq⟩ := hmem
      exact hnobody q hq heq
    have hfilter : (folded casefold nameOf people).filter
        (fun e => endsWith e.1 (casefold name)) = [(key, p)] := by
      refine filter_eq_singleton (dictOf_nodup people) (mem_of_lookup hp) hends ?_
      intro e' he' hends'
      obtain ⟨q, hq, heq⟩ := mem_keys_folded.mp (List.mem_map_of_mem he')
      rw [← heq] at hends' ⊢
      exact honly q hq hends'
    have hpass : ¬ (name = "" ∧ blanks = false) := by
      intro hstop
      rw [hguard hstop.1] at hstop
      cases hstop.2
    unfold resolveName
    rw [hnone]
    dsimp only
    rw [if_neg hpass, hfilter]

/-- **No guess where the lookup is clear.** -/
theorem justified_of_clear (hclear : Clear casefold nameOf blanks people name)
    (h : resolveName casefold nameOf blanks people name = some (p, exactly)) :
    Justified casefold nameOf people name p := by
  obtain ⟨key, hpicks, hlast⟩ := resolveName_some h
  obtain ⟨hname, hone, hwords⟩ := hclear key hpicks
  have hsingle : holders casefold nameOf people key = [p] := by
    obtain ⟨q, hq⟩ := List.length_eq_one_iff.mp hone
    rw [hq] at hlast ⊢
    simpa using hlast
  refine ⟨hname, ?_⟩
  by_cases hkey : key = casefold name
  · left
    rw [← hkey]
    exact hsingle
  · right
    have hnobody : ∀ q ∈ people, casefold (nameOf q) ≠ casefold name := by
      rcases hpicks.2 with hsame | hends
      · exact absurd hsame hkey
      · exact hends.1
    constructor
    · exact List.filter_eq_nil_iff.mpr (fun q hq => by simpa using hnobody q hq)
    · rw [← hsingle]
      refine List.filter_congr (fun q hq => ?_)
      simp [hwords hkey q hq]

/-- **A guess where it is not**: whoever the name resolves to would be of one display
    name with the one it is justified for. -/
theorem clear_of_justified
    (h : ∀ p exactly, resolveName casefold nameOf blanks people name = some (p, exactly) →
      ∃ q, nameOf q = nameOf p ∧ Justified casefold nameOf people name q) :
    Clear casefold nameOf blanks people name := by
  intro key hpicks
  obtain ⟨p, exactly, hresolve, hlast⟩ := resolveName_of_picks hpicks
  obtain ⟨q, hsame, hname, hjust⟩ := h p exactly hresolve
  have hp := mem_holders.mp (List.mem_of_getLast? hlast)
  have hq : casefold (nameOf q) = key := by rw [hsame, hp.2]
  refine ⟨hname, ?_⟩
  rcases hjust with hfull | ⟨hnobody, hwords⟩
  · -- the full display name: the key is the folded name
    have hmem : q ∈ holders casefold nameOf people (casefold name) := by
      rw [hfull]
      exact List.mem_singleton_self q
    have hkey : key = casefold name := hq.symm.trans (mem_holders.mp hmem).2
    rw [hkey, hfull]
    exact ⟨rfl, fun hne => absurd rfl hne⟩
  · have hends : ∀ r ∈ people, EndsInWords casefold nameOf name r ↔ casefold (nameOf r) = key := by
      have honly : ∀ r ∈ people, EndsInWords casefold nameOf name r → r = q := by
        intro r hr hrends
        have hmem : r ∈ people.filter (fun q => EndsInWords casefold nameOf name q) :=
          List.mem_filter.mpr ⟨hr, by simpa using hrends⟩
        rw [hwords] at hmem
        exact List.mem_singleton.mp hmem
      have hqends : EndsInWords casefold nameOf name q := by
        have hmem : q ∈ people.filter (fun q => EndsInWords casefold nameOf name q) := by
          rw [hwords]
          exact List.mem_singleton_self q
        simpa using (List.mem_filter.mp hmem).2
      intro r hr
      constructor
      · intro hrends
        rw [honly r hr hrends]
        exact hq
      · intro hkey
        -- of one folded name, of the same words
        unfold EndsInWords at hqends ⊢
        rw [hkey, ← hq]
        exact hqends
    have hsingle : holders casefold nameOf people key = [q] := by
      rw [← hwords]
      refine List.filter_congr (fun r hr => ?_)
      simp [hends r hr]
    rw [hsingle]
    exact ⟨rfl, fun _ => hends⟩

end

/-! ## Names are never guessed -/

variable (casefold : String → String)

theorem lookup_speakers (knownNames : List String) (segments : List TranscriptSegment)
    (mapping : List (String × Option String)) (label : String) :
    (segments.foldl (fun mapping segment =>
      let raw := strip segment.speaker
      if raw ∈ keys mapping then mapping
      else setKey mapping raw ((resolveName casefold id true knownNames raw).map (·.1)))
      mapping).lookup label =
      if label ∈ keys mapping then mapping.lookup label
      else if label ∈ segments.map (fun s => strip s.speaker) then
        some ((resolveName casefold id true knownNames label).map (·.1))
      else none := by
  induction segments generalizing mapping with
  | nil =>
    by_cases h : label ∈ keys mapping
    · simp [h]
    · simp [h, lookup_eq_none.mpr h]
  | cons segment segments ih =>
    rw [List.foldl_cons, ih]
    by_cases hraw : strip segment.speaker ∈ keys mapping
    · simp only [if_pos hraw]
      by_cases h : label ∈ keys mapping
      · simp [h]
      · have hne : label ≠ strip segment.speaker := fun heq => h (heq ▸ hraw)
        simp [h, hne]
    · simp only [if_neg hraw, mem_keys_setKey]
      by_cases hlabel : label = strip segment.speaker
      · subst hlabel
        simp [hraw]
      · by_cases h : label ∈ keys mapping
        · simp [h, lookup_setKey_ne hlabel]
        · simp [h, hlabel]

def assigned (people : List DirectoryPerson) (action : ExtractedAction) : ActionCandidate :=
  { action.candidate with
    resolved := (resolveName casefold DirectoryPerson.displayName false people action.name).map
      (fun found => found.1.resolved (if found.2 then 95 / 100 else 3 / 4)) }

theorem resolveAssignees_candidates (people : List DirectoryPerson)
    (actions : List ExtractedAction) (warnings : List String) :
    (resolveAssignees casefold people actions warnings).1 =
      actions.map (assigned casefold people) := by
  induction actions generalizing warnings with
  | nil => rfl
  | cons action rest ih =>
    simp only [resolveAssignees, List.map_cons, assigned]
    cases resolveName casefold DirectoryPerson.displayName false people action.name with
    | none => simp [ih]
    | some found => simp [ih]

/-- **Names are never guessed, where the directory is clear**: every label the
    speakers are mapped by, and every person an action is assigned to, is the one
    the name is of, exactly when for each spoken and extracted name the display name
    the lookup ends at is one person's and the name its whole words. -/
theorem names_justified_iff (segments : List TranscriptSegment) (knownNames : List String)
    (people : List DirectoryPerson) (actions : List ExtractedAction) (warnings : List String) :
    ((∀ label name, (resolveSpeakerNames casefold segments knownNames).lookup label =
          some (some name) → Justified casefold id knownNames label name) ↔
        ∀ segment ∈ segments, Clear casefold id true knownNames (strip segment.speaker)) ∧
      ((∀ (i : Nat) (action : ExtractedAction) (out : ActionCandidate) (r : ResolvedAssignee),
          actions[i]? = some action →
          (resolveAssignees casefold people actions warnings).1[i]? = some out →
          out.resolved = some r → ∃ p, r = p.resolved r.confidence ∧
            Justified casefold DirectoryPerson.displayName people action.name p) ↔
        ∀ action ∈ actions, Clear casefold DirectoryPerson.displayName false people
          action.name) := by
  constructor
  · have hlookup : ∀ label, (resolveSpeakerNames casefold segments knownNames).lookup label =
        if label ∈ segments.map (fun s => strip s.speaker) then
          some ((resolveName casefold id true knownNames label).map (·.1)) else none := by
      intro label
      rw [resolveSpeakerNames, lookup_speakers]
      simp [keys]
    constructor
    · intro h segment hsegment
      apply clear_of_justified
      intro name exactly hresolve
      refine ⟨name, rfl, h _ name ?_⟩
      rw [hlookup, if_pos (List.mem_map_of_mem hsegment), hresolve]
      rfl
    · intro h label name hmapped
      rw [hlookup] at hmapped
      split at hmapped
      · next hlabel =>
        obtain ⟨segment, hsegment, rfl⟩ := List.mem_map.mp hlabel
        obtain ⟨found, hresolve, rfl⟩ := Option.map_eq_some_iff.mp (Option.some.inj hmapped)
        exact justified_of_clear (h segment hsegment) hresolve
      · cases hmapped
  · rw [resolveAssignees_candidates]
    constructor
    · intro h action haction
      apply clear_of_justified
      intro p exactly hresolve
      obtain ⟨i, hi⟩ := List.mem_iff_getElem?.mp haction
      obtain ⟨q, hq, hjust⟩ := h i action (assigned casefold people action)
        (p.resolved (if exactly then 95 / 100 else 3 / 4)) hi (by simp [hi]) (by
          simp [assigned, hresolve])
      exact ⟨q, (congrArg ResolvedAssignee.displayName hq).symm, hjust⟩
    · intro h i action out r hi hout hr
      rw [List.getElem?_map, hi] at hout
      obtain rfl : assigned casefold people action = out := Option.some.inj hout
      obtain ⟨found, hresolve, rfl⟩ := Option.map_eq_some_iff.mp hr
      exact ⟨found.1, rfl, justified_of_clear (h action (List.mem_of_getElem? hi)) hresolve⟩

/-- Two people of one name: the name resolves all the same. -/
theorem names_justified_breaks :
    ¬ ∀ (casefold : String → String) (segments : List TranscriptSegment) (knownNames : List String),
      ∀ label name, (resolveSpeakerNames casefold segments knownNames).lookup label =
        some (some name) → Justified casefold id knownNames label name := by
  intro h
  have hjust := h id [{ index := 0, speaker := "An", text := "a", notBlank := by decide }]
    ["An", "An"] "An" "An" (by decide)
  revert hjust
  unfold Justified
  decide

end DigitalWorker.WorkOps
