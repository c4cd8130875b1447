import DigitalWorker.Conversation.Labels
import DigitalWorker.Framework.Ranking
import Mathlib.Algebra.Order.BigOperators.Group.Finset
import Mathlib.Algebra.Order.Field.Basic

/-! # The order of the candidates does not matter

    A label is scored against all labels of the menu: by their number, and by how
    many of them share each of its words. Neither depends on the order. The case
    that an approval is for is the one candidate whose score stands out, whatever
    the order of the menu.
-/

namespace DigitalWorker.Conversation

open Framework

section

variable (fold : String → String) (text : String)

def scoreAmong (labels : List String) (label : String) : ℚ :=
  if labels.length ≤ 1 then ((tokens fold label ∩ tokens fold text).card : ℚ)
  else ∑ token ∈ tokens fold label ∩ tokens fold text,
    (1 - (sharedBy (labels.map (tokens fold)) token : ℚ) / labels.length)

theorem rankByLabel_eq (labels : List String) :
    rankByLabel fold text labels = labels.map (scoreAmong fold text labels) := by
  unfold rankByLabel scoreAmong
  dsimp only
  rw [List.length_map]
  by_cases hfew : labels.length ≤ 1
  · simp only [if_pos hfew, List.map_map]
    rfl
  · simp only [if_neg hfew, List.map_map]
    rfl

theorem scoreAmong_perm {labels labels' : List String} (h : labels.Perm labels') :
    scoreAmong fold text labels = scoreAmong fold text labels' := by
  funext label
  have hshared : sharedBy (labels.map (tokens fold)) = sharedBy (labels'.map (tokens fold)) := by
    funext token
    exact (h.map _).countP_eq _
  unfold scoreAmong
  rw [h.length_eq, hshared]

/-! ## What a score says -/

def Telling (labels : List String) (label token : String) : Prop :=
  token ∈ tokens fold label ∧ token ∈ tokens fold text ∧
    (labels.length ≤ 1 ∨ ∃ other ∈ labels, token ∉ tokens fold other)

theorem shared_weight {labels : List String} (hpos : 0 < labels.length) (token : String) :
    0 ≤ (1 - (sharedBy (labels.map (tokens fold)) token : ℚ) / labels.length) ∧
      (0 < (1 - (sharedBy (labels.map (tokens fold)) token : ℚ) / labels.length) ↔
        ∃ other ∈ labels, token ∉ tokens fold other) := by
  have hcount : sharedBy (labels.map (tokens fold)) token =
      labels.countP (fun label => token ∈ tokens fold label) := by
    unfold sharedBy
    rw [List.countP_map]
    rfl
  have hle : labels.countP (fun label => token ∈ tokens fold label) ≤ labels.length :=
    List.countP_le_length
  have htotal : (0 : ℚ) < labels.length := by exact_mod_cast hpos
  rw [hcount]
  constructor
  · rw [sub_nonneg, div_le_one htotal]
    exact_mod_cast hle
  · rw [sub_pos, div_lt_one htotal, Nat.cast_lt, lt_iff_le_and_ne, and_iff_right hle]
    have hall : labels.countP (fun label => token ∈ tokens fold label) = labels.length ↔
        ∀ other ∈ labels, token ∈ tokens fold other := by
      rw [List.countP_eq_length]
      simp
    rw [ne_eq, hall]
    push Not
    exact Iff.rfl

/-- **A positive score**: the text has a word that tells the label. -/
theorem scoreAmong_pos_iff {labels : List String} {label : String} :
    0 < scoreAmong fold text labels label ↔ ∃ token, Telling fold text labels label token := by
  unfold scoreAmong
  by_cases hfew : labels.length ≤ 1
  · rw [if_pos hfew, Nat.cast_pos, Finset.card_pos]
    constructor
    · rintro ⟨token, htoken⟩
      obtain ⟨hlabel, htext⟩ := Finset.mem_inter.mp htoken
      exact ⟨token, hlabel, htext, .inl hfew⟩
    · rintro ⟨token, hlabel, htext, _⟩
      exact ⟨token, Finset.mem_inter.mpr ⟨hlabel, htext⟩⟩
  · have hpos : 0 < labels.length := by omega
    rw [if_neg hfew, Finset.sum_pos_iff_of_nonneg (fun token _ => (shared_weight fold hpos token).1)]
    constructor
    · rintro ⟨token, htoken, hweight⟩
      obtain ⟨hlabel, htext⟩ := Finset.mem_inter.mp htoken
      exact ⟨token, hlabel, htext, .inr ((shared_weight fold hpos token).2.mp hweight)⟩
    · rintro ⟨token, hlabel, htext, htells⟩
      exact ⟨token, Finset.mem_inter.mpr ⟨hlabel, htext⟩,
        (shared_weight fold hpos token).2.mpr (htells.resolve_left hfew)⟩

end

/-! ## The candidate that stands out -/

section

variable (fold : String → String) (text : String) {menu menu' : List Candidate} {c : Candidate}

/-- `f"{c.title} {c.owner_name}".strip()`. -/
def Candidate.label (c : Candidate) : String := labelOf c.title c.ownerName

def menuScore (menu : List Candidate) (c : Candidate) : ℚ :=
  scoreAmong fold text (menu.map Candidate.label) c.label

theorem menuScore_perm (h : menu.Perm menu') : menuScore fold text menu = menuScore fold text menu' := by
  funext c
  unfold menuScore
  rw [scoreAmong_perm fold text (h.map _)]

/-- The scores `_named_in` works with. -/
theorem rank_menu (menu : List Candidate) :
    rankByLabel fold text (menu.map Candidate.label) = menu.map (menuScore fold text menu) := by
  rw [rankByLabel_eq, List.map_map]
  rfl

def Names (menu : List Candidate) (c : Candidate) : Prop :=
  (∃ token, Telling fold text (menu.map Candidate.label) c.label token) ∧
    ∀ d ∈ menu, menuScore fold text menu d ≤ menuScore fold text menu c

def namedCandidates (menu : List Candidate) : List Candidate :=
  bests (menuScore fold text menu) 0 menu

theorem mem_namedCandidates :
    c ∈ namedCandidates fold text menu ↔ c ∈ menu ∧ Names fold text menu c := by
  unfold namedCandidates Names menuScore
  rw [mem_bests, scoreAmong_pos_iff]

/-- **Naming**: the candidate found is the one the text names. -/
theorem namedIn_eq_some : namedIn fold text menu = some c ↔ namedCandidates fold text menu = [c] := by
  have hrank : rankByLabel fold text (menu.map (fun c => labelOf c.title c.ownerName)) =
      menu.map (menuScore fold text menu) := rank_menu fold text menu
  unfold namedIn namedCandidates
  rw [hrank, Option.bind_eq_some_iff]
  constructor
  · rintro ⟨i, hwin, hi⟩
    unfold clearWinner at hwin
    dsimp only at hwin
    split at hwin
    · cases hwin
    · next hclear =>
      obtain rfl := Option.some.inj hwin
      rw [Bool.or_eq_true, decide_eq_true_eq, decide_eq_true_eq, not_or, not_le, not_lt] at hclear
      obtain ⟨hpos, honce⟩ := hclear
      cases hmax : (menu.map (menuScore fold text menu)).max? with
      | none =>
        rw [hmax] at hpos
        exact absurd hpos (lt_irrefl _)
      | some best =>
        rw [hmax, Option.getD_some] at hpos honce hi
        obtain ⟨hmem, hbest⟩ := List.max?_eq_some_iff.mp hmax
        -- the best score is the score of the candidate at its place
        have hscore : menuScore fold text menu c = best := by
          have hget := List.getElem?_idxOf hmem
          rw [List.getElem?_map, hi] at hget
          exact Option.some.inj hget
        refine standout_of_place hi (hscore ▸ hpos) (fun d hd => ?_) ?_
        · rw [hscore]
          exact hbest _ (List.mem_map_of_mem hd)
        · rw [hscore]
          exact le_antisymm honce (List.count_pos_iff.mpr hmem)
  · intro hone
    obtain ⟨hpos, hbest, honce, hplace⟩ := place_of_standout hone
    have hc : c ∈ menu := List.mem_of_getElem? hplace
    have hmax : (menu.map (menuScore fold text menu)).max? = some (menuScore fold text menu c) := by
      rw [List.max?_eq_some_iff]
      refine ⟨List.mem_map_of_mem hc, fun s hs => ?_⟩
      obtain ⟨d, hd, rfl⟩ := List.mem_map.mp hs
      exact hbest d hd
    refine ⟨_, ?_, hplace⟩
    unfold clearWinner
    rw [hmax, Option.getD_some]
    dsimp only
    rw [if_neg]
    rw [Bool.or_eq_true, decide_eq_true_eq, decide_eq_true_eq, not_or, not_le, not_lt]
    exact ⟨hpos, honce.le⟩

theorem resolve_approve : resolve (namedIn fold) menu none text .approve = .resolved c ↔
    namedCandidates fold text menu = [c] := by
  rw [← namedIn_eq_some]
  cases menu with
  | nil => simp [resolve, namedIn, clearWinner, rankByLabel]
  | cons d menu =>
    unfold resolve
    rw [List.isEmpty_cons, if_neg Bool.false_ne_true]
    dsimp only
    cases hnamed : namedIn fold text (d :: menu) with
    | none => simp
    | some e => simp

theorem label_unique (h : namedCandidates fold text menu = [c]) :
    menu.countP (fun d => d.label = c.label) = 1 := by
  obtain ⟨hpos, hbest, honce, hplace⟩ := place_of_standout h
  have hc : c ∈ menu := List.mem_of_getElem? hplace
  have hle : menu.countP (fun d => d.label = c.label) ≤
      menu.countP (fun d => menuScore fold text menu d = menuScore fold text menu c) := by
    refine List.countP_mono_left (fun d _ hd => ?_)
    rw [decide_eq_true_eq] at hd ⊢
    unfold menuScore
    rw [hd]
  rw [count_scores, ← List.countP_eq_length_filter] at honce
  rw [honce] at hle
  exact le_antisymm hle (List.countP_pos_iff.mpr ⟨c, hc, by simp⟩)

/-- **Order**: for two orders of a menu each candidate has one score, candidates of
    one label tie and are not told apart, and an approval is resolved to the one
    candidate the text names, the same one in both. -/
theorem resolution_order_free (hperm : menu.Perm menu') :
    (∀ (i j : Nat) (d d' : Candidate), menu[i]? = some d → menu'[j]? = some d' → d.label = d'.label →
      (rankByLabel fold text (menu.map Candidate.label))[i]? =
        (rankByLabel fold text (menu'.map Candidate.label))[j]?) ∧
    (∀ c, resolve (namedIn fold) menu none text .approve = .resolved c →
      menu.countP (fun d => d.label = c.label) = 1) ∧
    (∀ c, c ∈ namedCandidates fold text menu ↔ c ∈ menu ∧ Names fold text menu c) ∧
    (∀ c, resolve (namedIn fold) menu none text .approve = .resolved c ↔
      namedCandidates fold text menu = [c]) ∧
    ∀ c, resolve (namedIn fold) menu none text .approve = .resolved c ↔
      resolve (namedIn fold) menu' none text .approve = .resolved c := by
  refine ⟨?_, ?_, ?_, ?_, ?_⟩
  · intro i j d d' hd hd' hlabel
    have hsame : menuScore fold text menu d = menuScore fold text menu' d' := by
      rw [menuScore_perm fold text hperm]
      unfold menuScore
      rw [hlabel]
    rw [rank_menu, rank_menu, List.getElem?_map, List.getElem?_map, hd, hd', Option.map_some,
      Option.map_some, hsame]
  · intro c hc
    exact label_unique fold text ((resolve_approve fold text).mp hc)
  · exact fun c => mem_namedCandidates fold text
  · exact fun c => resolve_approve fold text
  · intro c
    have hscores : menuScore fold text menu' = menuScore fold text menu :=
      (menuScore_perm fold text hperm).symm
    rw [resolve_approve, resolve_approve]
    unfold namedCandidates
    rw [hscores]
    exact standout_perm hperm

end

/-! ## Two requests -/

def laptopRental : Candidate :=
  { ref := 1, title := "thue laptop", state := "cp1_pending", relations := [.actionable] }

def laptopPurchase : Candidate :=
  { ref := 2, title := "mua laptop", state := "cp1_pending", relations := [.actionable] }

/-- The word that only one of them has decides, in either order. -/
theorem rental_named_in_both_orders :
    resolve (namedIn id) [laptopPurchase, laptopRental] none "duyet thue laptop" .approve =
      .resolved laptopRental := by
  have hfirst : resolve (namedIn id) [laptopRental, laptopPurchase] none "duyet thue laptop"
      .approve = .resolved laptopRental := by decide +kernel
  have horders := resolution_order_free id "duyet thue laptop"
    (List.Perm.swap laptopPurchase laptopRental [])
  exact (horders.2.2.2.2 laptopRental).mp hfirst

end DigitalWorker.Conversation
