import Mathlib.Data.Prod.Lex
import Mathlib.Data.String.Basic
import DigitalWorker.Framework.Plurality
import DigitalWorker.Preparation.ReworkBlock

/-! # The assessment depends on what is counted, not on how it arrives

    `assessRework` filters one list twice, compares two lengths with two
    thresholds and names the most frequent reason. The store gives no order and
    the guard fetches a part of the history only. None of this may show in the
    verdict.
-/

namespace DigitalWorker

open Framework

variable {rules : ReworkSupportRules} {events events' : List ReworkEvent} {now : DateTime}

/-- The events that count in a window of `n` days. -/
def countedWithin (rules : ReworkSupportRules) (events : List ReworkEvent) (now : DateTime)
    (n : Int) : List ReworkEvent :=
  countsWithin (events.filter (considered rules)) now n

theorem assessRework_congr
    (hnudge : countedWithin rules events now rules.nudgeWindowDays =
      countedWithin rules events' now rules.nudgeWindowDays)
    (hblock : countedWithin rules events now rules.blockWindowDays =
      countedWithin rules events' now rules.blockWindowDays) :
    assessRework events now rules = assessRework events' now rules := by
  unfold countedWithin at hnudge hblock
  simp only [assessRework, hnudge, hblock]

theorem countedWithin_perm (hperm : events.Perm events') (n : Int) :
    (countedWithin rules events now n).Perm (countedWithin rules events' now n) := by
  unfold countedWithin countsWithin
  by_cases hn : n ≤ 0
  · rw [if_pos hn, if_pos hn]
  · rw [if_neg hn, if_neg hn]
    exact (hperm.filter _).filter _

theorem countedWithin_sublist (hsub : events.Sublist events') (n : Int) :
    (countedWithin rules events now n).Sublist (countedWithin rules events' now n) := by
  unfold countedWithin countsWithin
  by_cases hn : n ≤ 0
  · rw [if_pos hn, if_pos hn]
  · rw [if_neg hn, if_neg hn]
    exact (hsub.filter _).filter _

def SupportLevel.severity : SupportLevel → Nat
  | .none => 0
  | .nudge => 1
  | .block => 2

def levelOf (rules : ReworkSupportRules) (nudgeCount blockCount : Nat) : SupportLevel :=
  if 0 < rules.blockThreshold ∧ rules.blockThreshold ≤ blockCount then .block
  else if 0 < rules.nudgeThreshold ∧ rules.nudgeThreshold ≤ nudgeCount then .nudge
  else .none

theorem thresholds_of_disabled (h : ¬ rules.isEnabled = true) :
    ¬ 0 < rules.nudgeThreshold ∧ ¬ 0 < rules.blockThreshold := by
  simpa [ReworkSupportRules.isEnabled] using h

theorem assessRework_level : (assessRework events now rules).level =
    levelOf rules (countedWithin rules events now rules.nudgeWindowDays).length
      (countedWithin rules events now rules.blockWindowDays).length := by
  unfold assessRework
  by_cases hen : rules.isEnabled = true
  · rw [if_pos hen]
    rfl
  · obtain ⟨hnudge, hblock⟩ := thresholds_of_disabled hen
    rw [if_neg hen, levelOf, if_neg (fun h => hblock h.1), if_neg (fun h => hnudge h.1)]
    rfl

theorem levelOf_mono {n n' b b' : Nat} (hn : n ≤ n') (hb : b ≤ b') :
    (levelOf rules n b).severity ≤ (levelOf rules n' b').severity := by
  unfold levelOf
  by_cases hblock : 0 < rules.blockThreshold ∧ rules.blockThreshold ≤ b
  · have hblock' : 0 < rules.blockThreshold ∧ rules.blockThreshold ≤ b' := by omega
    rw [if_pos hblock, if_pos hblock']
  · rw [if_neg hblock]
    by_cases hnudge : 0 < rules.nudgeThreshold ∧ rules.nudgeThreshold ≤ n
    · have hnudge' : 0 < rules.nudgeThreshold ∧ rules.nudgeThreshold ≤ n' := by omega
      rw [if_pos hnudge, if_pos hnudge']
      split <;> simp [SupportLevel.severity]
    · rw [if_neg hnudge]
      exact Nat.zero_le _

theorem level_mono (hsub : events.Sublist events') :
    (assessRework events now rules).level.severity ≤
      (assessRework events' now rules).level.severity := by
  rw [assessRework_level, assessRework_level]
  exact levelOf_mono (countedWithin_sublist hsub _).length_le (countedWithin_sublist hsub _).length_le

/-! ## The named reason -/

def reasonKey (rules : ReworkSupportRules) (code : String) : Nat ×ₗ String :=
  toLex (rules.rankOf code, code)

theorem reasonKey_injective (rules : ReworkSupportRules) :
    Function.Injective (reasonKey rules) := by
  intro a b h
  have hpair : (rules.rankOf a, a) = (rules.rankOf b, b) := toLex_inj.mp h
  exact (Prod.mk.inj hpair).2

/-- The key function of `min` in `_top_reason`. -/
def reasonBefore (rules : ReworkSupportRules) (a b : String) : Bool :=
  rules.rankOf a < rules.rankOf b || (rules.rankOf a == rules.rankOf b && a < b)

theorem reasonBefore_iff (rules : ReworkSupportRules) (a b : String) :
    reasonBefore rules a b = true ↔ reasonKey rules a < reasonKey rules b := by
  simp only [reasonBefore, reasonKey, Prod.Lex.toLex_lt_toLex, Bool.or_eq_true,
    Bool.and_eq_true, decide_eq_true_eq, beq_iff_eq]

theorem topReason_eq (events : List ReworkEvent) (rules : ReworkSupportRules) :
    topReason events rules =
      winner? (reasonBefore rules) ((events.map (·.reasonCode)).filter (· ≠ "")) := by
  unfold topReason winner?
  dsimp only
  split
  · next h => simp only [h]
  · next h =>
    simp only [h]
    rfl

theorem topReason_perm (hperm : events.Perm events') :
    topReason events rules = topReason events' rules := by
  rw [topReason_eq, topReason_eq]
  exact winner?_perm _ (reasonBefore_iff rules) (reasonKey_injective rules)
    ((hperm.map _).filter _)

def topOf (rules : ReworkSupportRules) (nudgeEvents blockEvents : List ReworkEvent) :
    Option String :=
  let level := levelOf rules nudgeEvents.length blockEvents.length
  if level = .none then none
  else topReason (if level = .block then blockEvents else nudgeEvents) rules

theorem topOf_perm {nudge nudge' block block' : List ReworkEvent} (hnudge : nudge.Perm nudge')
    (hblock : block.Perm block') : topOf rules nudge block = topOf rules nudge' block' := by
  unfold topOf
  rw [hnudge.length_eq, hblock.length_eq]
  by_cases hb : levelOf rules nudge'.length block'.length = .block
  · simp only [if_pos hb, topReason_perm hblock]
  · simp only [if_neg hb, topReason_perm hnudge]

theorem assessRework_perm (hperm : events.Perm events') :
    (assessRework events now rules).nudgeCount = (assessRework events' now rules).nudgeCount ∧
      (assessRework events now rules).blockCount = (assessRework events' now rules).blockCount ∧
      (assessRework events now rules).level = (assessRework events' now rules).level ∧
      (assessRework events now rules).topReasonCode =
        (assessRework events' now rules).topReasonCode := by
  have hnudge := @countedWithin_perm rules events events' now hperm rules.nudgeWindowDays
  have hblock := @countedWithin_perm rules events events' now hperm rules.blockWindowDays
  have hlevel : (assessRework events now rules).level = (assessRework events' now rules).level := by
    rw [assessRework_level, assessRework_level, hnudge.length_eq, hblock.length_eq]
  by_cases hen : rules.isEnabled = true
  · refine ⟨?_, ?_, hlevel, ?_⟩
    · simp only [assessRework, if_pos hen]
      exact hnudge.length_eq
    · simp only [assessRework, if_pos hen]
      exact hblock.length_eq
    · simp only [assessRework, if_pos hen]
      show topOf rules (countedWithin rules events now _) (countedWithin rules events now _) =
        topOf rules (countedWithin rules events' now _) (countedWithin rules events' now _)
      exact topOf_perm hnudge hblock
  · simp only [assessRework, if_neg hen, and_self]

/-! ## What never counts -/

theorem not_considered {e : ReworkEvent}
    (h : e.voided = true ∨ ∃ start, rules.enabledFrom = some start ∧ e.occurredAt < start) :
    considered rules e = false := by
  rcases h with hvoid | ⟨start, hfrom, hearly⟩
  · simp [considered, hvoid]
  · simp [considered, hfrom, hearly]

theorem assessRework_skip {e : ReworkEvent} (h : considered rules e = false)
    (before after : List ReworkEvent) :
    assessRework (before ++ e :: after) now rules = assessRework (before ++ after) now rules := by
  have hfilter : (before ++ e :: after).filter (considered rules) =
      (before ++ after).filter (considered rules) := by
    simp [List.filter_append, h]
  apply assessRework_congr <;> simp only [countedWithin, hfilter]

theorem countedWithin_prefilter {n span : Int} (hn : n ≤ span) :
    countedWithin rules (events.filter (fun e => now - days span ≤ e.occurredAt)) now n =
      countedWithin rules events now n := by
  unfold countedWithin countsWithin
  by_cases hpos : n ≤ 0
  · rw [if_pos hpos, if_pos hpos]
  · rw [if_neg hpos, if_neg hpos, List.filter_filter, List.filter_filter, List.filter_filter]
    refine List.filter_congr fun e _ => ?_
    rw [Bool.eq_iff_iff]
    simp only [Bool.and_eq_true, decide_eq_true_eq]
    have hbound : now - days span ≤ now - days n := sub_le_sub_left (days_le_days hn) now
    constructor
    · intro h
      exact h.1
    · intro h
      -- an event of the window is younger than the bound
      exact ⟨h, hbound.trans h.1.1⟩

theorem assessRework_prefilter :
    assessRework (events.filter
        (fun e => now - days (ReworkGuard.spanDays rules) ≤ e.occurredAt)) now rules =
      assessRework events now rules :=
  assessRework_congr (countedWithin_prefilter (le_max_left _ _))
    (countedWithin_prefilter (le_max_right _ _))

/-- What the guard fetches, in terms of the author's whole history. -/
theorem listForCreator_eq (store : ReworkStore) (creator : Uuid) (since : DateTime) :
    listForCreator store creator since =
      (store.events.filter (fun e => e.creatorUserId == creator)).filter
        (fun e => since ≤ e.occurredAt) := by
  rw [listForCreator, List.filter_filter]
  exact List.filter_congr fun e _ => Bool.and_comm _ _

/-- **Main theorem**: the assessment is a function of the counted set. The
    order of the events is irrelevant; a further event never lowers the level;
    what does not count changes nothing; a block prevails whenever the blocking
    window reaches its threshold, whatever the other window holds; and the
    guard, which fetches the longest window only, judges as it would judge the
    author's whole history. -/
theorem assessment_of_counted (rules : ReworkSupportRules) (now : DateTime)
    (events : List ReworkEvent) :
    (∀ events', events.Perm events' →
      (assessRework events now rules).nudgeCount = (assessRework events' now rules).nudgeCount ∧
        (assessRework events now rules).blockCount =
          (assessRework events' now rules).blockCount ∧
        (assessRework events now rules).level = (assessRework events' now rules).level ∧
        (assessRework events now rules).topReasonCode =
          (assessRework events' now rules).topReasonCode) ∧
    (∀ before after e, events = before ++ after →
      (assessRework events now rules).level.severity ≤
        (assessRework (before ++ e :: after) now rules).level.severity) ∧
    (∀ before after e, events = before ++ after →
      (e.voided = true ∨ ∃ start, rules.enabledFrom = some start ∧ e.occurredAt < start) →
        assessRework (before ++ e :: after) now rules = assessRework events now rules) ∧
    ((assessRework events now rules).level = .block ↔
      0 < rules.blockThreshold ∧
        rules.blockThreshold ≤ (countedWithin rules events now rules.blockWindowDays).length) ∧
    assessRework (events.filter (fun e =>
        now - days (max rules.nudgeWindowDays rules.blockWindowDays) ≤ e.occurredAt)) now rules =
      assessRework events now rules ∧
    ∀ (store : ReworkStore) (creator : Uuid),
      assessRework (listForCreator store creator (now - days (ReworkGuard.spanDays rules)))
          now rules =
        assessRework (store.events.filter (fun e => e.creatorUserId == creator)) now rules := by
  refine ⟨fun events' hperm => assessRework_perm hperm, ?_, ?_,
    ReworkGuard.assessRework_block_iff, assessRework_prefilter, ?_⟩
  · intro before after e hsplit
    rw [hsplit]
    exact level_mono ((List.sublist_cons_self e after).append_left before)
  · intro before after e hsplit hskip
    rw [hsplit]
    exact assessRework_skip (not_considered hskip) before after
  · intro store creator
    rw [listForCreator_eq]
    exact assessRework_prefilter

end DigitalWorker
