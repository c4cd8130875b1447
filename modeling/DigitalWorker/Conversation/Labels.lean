import Mathlib.Algebra.BigOperators.Group.Finset.Basic
import Mathlib.Algebra.Order.Field.Rat
import Mathlib.Data.Rat.Cast.Order
import DigitalWorker.Conversation.Focus

/-! # What a message names

    `rank_by_label` scores how specifically a message names each of a list of
    labels: a word counts for less the more labels share it. A label is named
    when its score is positive and no other label reaches it.

    Unicode folding is a parameter. The scores are exact, where the source adds
    floats.
-/

namespace DigitalWorker.Conversation

/-- The characters of a token: `[0-9a-z]`. -/
def isTokenChar (c : Char) : Bool := ('0' ≤ c && c ≤ '9') || ('a' ≤ c && c ≤ 'z')

/-- `_tokens`: the words of three characters and more, after folding. -/
def tokens (fold : String → String) (text : String) : Finset String :=
  ((((fold text).toList.splitOnP (fun c => !isTokenChar c)).filter (fun t => 3 ≤ t.length)).map
    String.ofList).toFinset

/-! ## Scores -/

def sharedBy (perLabel : List (Finset String)) (token : String) : Nat :=
  perLabel.countP (fun label => token ∈ label)

def rankByLabel (fold : String → String) (text : String) (labels : List String) : List ℚ :=
  let folded := tokens fold text
  let perLabel := labels.map (tokens fold)
  -- nothing to tell apart: any overlap is a match
  if perLabel.length ≤ 1 then perLabel.map (fun label => ((label ∩ folded).card : ℚ))
  else perLabel.map (fun label =>
    ∑ token ∈ label ∩ folded, (1 - (sharedBy perLabel token : ℚ) / perLabel.length))

def clearWinner (scores : List ℚ) : Option Nat :=
  let best := scores.max?.getD 0
  if best ≤ 0 || 1 < scores.count best then none else some (scores.idxOf best)

def labelOf (title ownerName : String) : String := strip (title ++ " " ++ ownerName)

/-- `_named_in`: the candidate the message names, by title or by requester. -/
def namedIn (fold : String → String) (text : String) (menu : List Candidate) :
    Option Candidate :=
  (clearWinner (rankByLabel fold text (menu.map (fun c => labelOf c.title c.ownerName)))).bind
    (menu[·]?)

/-! ## One winner -/

variable {fold : String → String} {text : String} {labels : List String}

theorem clearWinner_singleton (score : ℚ) :
    clearWinner [score] = if 0 < score then some 0 else none := by
  by_cases hpos : 0 < score
  · simp [clearWinner, hpos, not_le.mpr hpos]
  · simp [clearWinner, hpos, not_lt.mp hpos]

/-- **One label**: it is named when the message shares a word with it. -/
theorem clearWinner_rank_singleton (label : String) :
    clearWinner (rankByLabel fold text [label]) =
      if (tokens fold label ∩ tokens fold text).Nonempty then some 0 else none := by
  have hrank : rankByLabel fold text [label] =
      [((tokens fold label ∩ tokens fold text).card : ℚ)] := rfl
  rw [hrank, clearWinner_singleton]
  have hpos : (0 < ((tokens fold label ∩ tokens fold text).card : ℚ)) ↔
      (tokens fold label ∩ tokens fold text).Nonempty := by
    rw [Nat.cast_pos, Finset.card_pos]
  simp only [hpos]

end DigitalWorker.Conversation
