import Mathlib.Data.List.Count
import DigitalWorker.Preparation.ReworkBlock

/-! # Whose returns count where

    Returns are to be counted within a workspace. The rows say which workspace
    they belong to, but neither query of the guard asks for it: row-level
    security leaves the rows of one tenant, and the guard takes all of them.

    The statement is about two stores that agree in one workspace.
-/

namespace DigitalWorker

/-- A row, with its column `workspace_id`. -/
structure Placed (α : Type) where
  workspaceId : Uuid
  row : α
  deriving DecidableEq

structure TenantRework where
  events : List (Placed ReworkEvent)
  explanations : List (Placed ExplanationRecord)

namespace TenantRework

def visible (s : TenantRework) : ReworkStore :=
  { events := s.events.map (·.row), explanations := s.explanations.map (·.row) }

def within (w : Uuid) (s : TenantRework) : TenantRework :=
  { events := s.events.filter (fun r => r.workspaceId = w)
    explanations := s.explanations.filter (fun r => r.workspaceId = w) }

def elsewhere (w : Uuid) (s : TenantRework) : TenantRework :=
  { events := s.events.filter (fun r => !decide (r.workspaceId = w))
    explanations := s.explanations.filter (fun r => !decide (r.workspaceId = w)) }

end TenantRework

/-- Who asks, and where. The guard reads the principal. -/
structure Acting where
  principalId : Uuid
  workspaceId : Uuid
  deriving DecidableEq

namespace ReworkGuard

/-- `ReworkGuard.assess`, for the context of a request. -/
def assessFor (rules : ReworkSupportRules) (s : TenantRework) (context : Acting)
    (now : DateTime) : ReworkAssessment :=
  assess rules (.ok s.visible) context.principalId now

/-- `ReworkGuard.require_not_blocked`, for the context of a request. -/
def requireNotBlockedFor (rules : ReworkSupportRules) (s : TenantRework) (context : Acting)
    (now : DateTime) : Except Error Unit :=
  requireNotBlocked rules (.ok s.visible) context.principalId now

/-! ## The property -/

/-- Two stores contain the same rows of a workspace. -/
structure AgreeIn (w : Uuid) (s s' : TenantRework) : Prop where
  events : (s.within w).events.Perm (s'.within w).events
  explanations : (s.within w).explanations.Perm (s'.within w).explanations

/-- **The property**, of two stores: the guard finds the same level and the same
    counts, and it refuses in both or in neither. -/
structure SameStanding (rules : ReworkSupportRules) (context : Acting) (now : DateTime)
    (s s' : TenantRework) : Prop where
  level : (assessFor rules s context now).level = (assessFor rules s' context now).level
  nudgeCount :
    (assessFor rules s context now).nudgeCount = (assessFor rules s' context now).nudgeCount
  blockCount :
    (assessFor rules s context now).blockCount = (assessFor rules s' context now).blockCount
  refused : requireNotBlockedFor rules s context now = .ok () ↔
    requireNotBlockedFor rules s' context now = .ok ()

/-! ## The condition -/

/-- A return that counts against somebody in the `n` days up to `t`. -/
def countsAgainst (rules : ReworkSupportRules) (user : Uuid) (t : DateTime) (n : Int)
    (r : Placed ReworkEvent) : Bool :=
  r.row.creatorUserId == user && considered rules r.row &&
    (t - days n ≤ r.row.occurredAt && r.row.occurredAt ≤ t)

def returnsOf (rules : ReworkSupportRules) (user : Uuid) (t : DateTime) (n : Int)
    (s : TenantRework) : Nat :=
  if n ≤ 0 then 0 else s.events.countP (countsAgainst rules user t n)

def reached (rules : ReworkSupportRules) (user : Uuid) (t : DateTime) (s : TenantRework) : Prop :=
  0 < rules.blockThreshold ∧
    rules.blockThreshold ≤ returnsOf rules user t rules.blockWindowDays s

def approvedIn (rules : ReworkSupportRules) (user : Uuid) (t : DateTime) (s : TenantRework) :
    Prop :=
  hasApprovedSince s.visible user (t - days (spanDays rules)) = true

/-- **The condition**, of two stores: the rows of the other workspaces weigh the
    same. They hold as many counted returns in either window, and where the
    threshold is reached without an approval in the workspace itself, both or neither
    has an approval elsewhere. -/
structure EvenElsewhere (rules : ReworkSupportRules) (context : Acting) (t : DateTime)
    (s s' : TenantRework) : Prop where
  nudge : returnsOf rules context.principalId t rules.nudgeWindowDays
      (s.elsewhere context.workspaceId) =
    returnsOf rules context.principalId t rules.nudgeWindowDays (s'.elsewhere context.workspaceId)
  block : returnsOf rules context.principalId t rules.blockWindowDays
      (s.elsewhere context.workspaceId) =
    returnsOf rules context.principalId t rules.blockWindowDays (s'.elsewhere context.workspaceId)
  lifted : reached rules context.principalId t s →
    ¬ approvedIn rules context.principalId t (s.within context.workspaceId) →
    (approvedIn rules context.principalId t (s.elsewhere context.workspaceId) ↔
      approvedIn rules context.principalId t (s'.elsewhere context.workspaceId))

/-! ## Counting by workspace -/

section

variable {rules : ReworkSupportRules} {user w : Uuid} {t : DateTime} {n : Int}
  {s s' : TenantRework} {context : Acting}

theorem returnsOf_split (w : Uuid) : returnsOf rules user t n s =
    returnsOf rules user t n (s.within w) + returnsOf rules user t n (s.elsewhere w) := by
  unfold returnsOf TenantRework.within TenantRework.elsewhere
  by_cases hn : n ≤ 0
  · simp only [if_pos hn]
  · simp only [if_neg hn]
    exact List.countP_eq_countP_filter_add _ _ _

theorem returnsOf_agree (h : AgreeIn w s s') :
    returnsOf rules user t n (s.within w) = returnsOf rules user t n (s'.within w) := by
  unfold returnsOf
  rw [h.events.countP_eq]

theorem approvedIn_iff : approvedIn rules user t s ↔
    ∃ r ∈ s.explanations, (r.row.creatorUserId == user && r.row.status == .approved &&
      match r.row.decidedAt with
      | some at_ => decide (t - days (spanDays rules) ≤ at_)
      | none => false) = true := by
  unfold approvedIn hasApprovedSince TenantRework.visible
  rw [List.any_map, List.any_eq_true]
  rfl

theorem approvedIn_split (w : Uuid) : approvedIn rules user t s ↔
    approvedIn rules user t (s.within w) ∨ approvedIn rules user t (s.elsewhere w) := by
  simp only [approvedIn_iff, TenantRework.within, TenantRework.elsewhere, List.mem_filter]
  constructor
  · rintro ⟨r, hr, happroved⟩
    by_cases hw : r.workspaceId = w
    · exact .inl ⟨r, ⟨hr, decide_eq_true hw⟩, happroved⟩
    · exact .inr ⟨r, ⟨hr, by simp [hw]⟩, happroved⟩
  · rintro (⟨r, ⟨hr, -⟩, happroved⟩ | ⟨r, ⟨hr, -⟩, happroved⟩)
    · exact ⟨r, hr, happroved⟩
    · exact ⟨r, hr, happroved⟩

theorem approvedIn_agree (h : AgreeIn w s s') :
    approvedIn rules user t (s.within w) ↔ approvedIn rules user t (s'.within w) := by
  simp only [approvedIn_iff, h.explanations.mem_iff]

/-! ## What the guard finds -/

theorem fetched_count (h : n ≤ spanDays rules) :
    (countsWithin ((listForCreator s.visible user (t - days (spanDays rules))).filter
      (considered rules)) t n).length = returnsOf rules user t n s := by
  by_cases hn : n ≤ 0
  · rw [countsWithin, returnsOf, if_pos hn, if_pos hn]
    rfl
  · rw [countsWithin, returnsOf, if_neg hn, if_neg hn, listForCreator, TenantRework.visible,
      List.filter_filter, List.filter_filter, List.filter_map, List.length_map,
      List.countP_eq_length_filter]
    congr 1
    apply List.filter_congr
    intro r _
    have hspan : days n ≤ days (spanDays rules) := days_le_days h
    rw [Bool.eq_iff_iff]
    simp only [countsAgainst, Function.comp_apply, Bool.and_eq_true, decide_eq_true_eq,
      beq_iff_eq]
    constructor
    · rintro ⟨⟨hwindow, hconsidered⟩, hcreator, -⟩
      exact ⟨⟨hcreator, hconsidered⟩, hwindow⟩
    · rintro ⟨⟨hcreator, hconsidered⟩, hwindow⟩
      exact ⟨⟨hwindow, hconsidered⟩, hcreator, (sub_le_sub_left hspan t).trans hwindow.1⟩

def levelOf (rules : ReworkSupportRules) (nudges blocks : Nat) (approved : Prop)
    [Decidable approved] : SupportLevel :=
  if 0 < rules.blockThreshold ∧ rules.blockThreshold ≤ blocks then
    if approved then (if nudges ≠ 0 then .nudge else .none) else .block
  else if 0 < rules.nudgeThreshold ∧ rules.nudgeThreshold ≤ nudges then .nudge
  else .none

instance : Decidable (approvedIn rules user t s) := inferInstanceAs (Decidable (_ = _))

/-- **What the guard finds** for a user, wherever they act. -/
theorem assessFor_enabled (h : rules.isEnabled = true) :
    (assessFor rules s context t).nudgeCount =
        returnsOf rules context.principalId t rules.nudgeWindowDays s ∧
      (assessFor rules s context t).blockCount =
        returnsOf rules context.principalId t rules.blockWindowDays s ∧
      (assessFor rules s context t).level =
        levelOf rules (returnsOf rules context.principalId t rules.nudgeWindowDays s)
          (returnsOf rules context.principalId t rules.blockWindowDays s)
          (approvedIn rules context.principalId t s) := by
  have hnudge := @fetched_count rules context.principalId t _ s (le_max_left _ _)
  have hblock := @fetched_count rules context.principalId t _ s (le_max_right _ _)
  rw [spanDays] at hnudge hblock
  simp only [assessFor, assess, assessStore, assessRework, if_pos h, hnudge, hblock]
  unfold levelOf approvedIn spanDays
  generalize returnsOf rules context.principalId t rules.nudgeWindowDays s = nudges
  generalize returnsOf rules context.principalId t rules.blockWindowDays s = blocks
  by_cases hreached : 0 < rules.blockThreshold ∧ rules.blockThreshold ≤ blocks
  · by_cases happroved : hasApprovedSince s.visible context.principalId
        (t - days (max rules.nudgeWindowDays rules.blockWindowDays)) = true
    · simp only [if_pos hreached, if_pos happroved, ne_eq, not_true, if_false]
      exact ⟨trivial, trivial, (if_pos happroved).symm⟩
    · simp only [if_pos hreached, if_neg happroved, ne_eq, not_true, if_false]
      exact ⟨trivial, trivial, (if_neg happroved).symm⟩
  · simp only [if_neg hreached]
    by_cases hnudges : 0 < rules.nudgeThreshold ∧ rules.nudgeThreshold ≤ nudges
    · simp [if_pos hnudges]
    · simp [if_neg hnudges]

theorem refused_iff : requireNotBlockedFor rules s context t = .ok () ↔
    (assessFor rules s context t).level ≠ .block := by
  unfold requireNotBlockedFor requireNotBlocked
  rw [raiseIf_ok]
  simp [assessFor]

theorem lifted_ne_block {nudges : Nat} :
    (if nudges ≠ 0 then SupportLevel.nudge else SupportLevel.none) ≠ .block := by
  by_cases h : nudges ≠ 0
  · simp [if_pos h]
  · simp [if_neg h]

theorem levelOf_congr_iff {nudges blocks : Nat} {p q : Prop} [Decidable p] [Decidable q] :
    levelOf rules nudges blocks p = levelOf rules nudges blocks q ↔
      (0 < rules.blockThreshold ∧ rules.blockThreshold ≤ blocks → (p ↔ q)) := by
  unfold levelOf
  by_cases hreached : 0 < rules.blockThreshold ∧ rules.blockThreshold ≤ blocks
  · rw [if_pos hreached, if_pos hreached]
    by_cases hp : p
    · by_cases hq : q
      · simp only [hp, hq, implies_true]
      · rw [if_pos hp, if_neg hq]
        exact iff_of_false lifted_ne_block (fun h => hq ((h hreached).mp hp))
    · by_cases hq : q
      · rw [if_neg hp, if_pos hq]
        exact iff_of_false (Ne.symm lifted_ne_block) (fun h => hp ((h hreached).mpr hq))
      · simp only [hp, hq, implies_true]
  · rw [if_neg hreached, if_neg hreached]
    exact iff_of_true rfl (fun h => absurd h hreached)

/-! ## Main theorem -/

/-- **Standing**: for two stores with the same rows in the workspace the user acts in,
    the guard says the same of both if and only if the rows elsewhere weigh the same. -/
theorem standing_confined_iff (h : AgreeIn context.workspaceId s s') :
    SameStanding rules context t s s' ↔
      (rules.isEnabled = true → EvenElsewhere rules context t s s') := by
  by_cases hen : rules.isEnabled = true
  · obtain ⟨hnudge, hblock, hlevel⟩ := @assessFor_enabled rules t s context hen
    obtain ⟨hnudge', hblock', hlevel'⟩ := @assessFor_enabled rules t s' context hen
    have hcounts : ∀ n, (returnsOf rules context.principalId t n s =
        returnsOf rules context.principalId t n s' ↔
        returnsOf rules context.principalId t n (s.elsewhere context.workspaceId) =
          returnsOf rules context.principalId t n (s'.elsewhere context.workspaceId)) := by
      intro n
      have hsplit := @returnsOf_split rules context.principalId t n s context.workspaceId
      have hsplit' := @returnsOf_split rules context.principalId t n s' context.workspaceId
      have hagree := @returnsOf_agree rules context.principalId _ t n s s' h
      omega
    have hsplit := @approvedIn_split rules context.principalId t s context.workspaceId
    have hsplit' := @approvedIn_split rules context.principalId t s' context.workspaceId
    have hagree := @approvedIn_agree rules context.principalId _ t s s' h
    constructor
    · intro hsame _
      have hnudges := hsame.nudgeCount
      have hblocks := hsame.blockCount
      have hlevels := hsame.level
      rw [hnudge, hnudge'] at hnudges
      rw [hblock, hblock'] at hblocks
      rw [hlevel, hlevel', hnudges, hblocks, levelOf_congr_iff, ← hblocks] at hlevels
      constructor
      · exact (hcounts _).mp hnudges
      · exact (hcounts _).mp hblocks
      · intro hreached hnone
        have hnone' := (not_congr hagree).mp hnone
        have hboth := hlevels hreached
        rw [hsplit, hsplit'] at hboth
        simpa only [hnone, hnone', false_or] using hboth
    · intro heven
      obtain ⟨hnudges, hblocks, hlifted⟩ := heven hen
      have hnudges := (hcounts _).mpr hnudges
      have hblocks := (hcounts _).mpr hblocks
      have hlevels : (assessFor rules s context t).level = (assessFor rules s' context t).level := by
        rw [hlevel, hlevel', hnudges, hblocks, levelOf_congr_iff, ← hblocks]
        intro hreached
        rw [hsplit, hsplit', hagree]
        by_cases hin : approvedIn rules context.principalId t (s'.within context.workspaceId)
        · simp only [hin, true_or]
        · simp only [hin, false_or]
          exact hlifted hreached ((not_congr hagree).mpr hin)
      constructor
      · exact hlevels
      · rw [hnudge, hnudge', hnudges]
      · rw [hblock, hblock', hblocks]
      · rw [refused_iff, refused_iff, hlevels]
  · have hoff : ∀ x : TenantRework, assessFor rules x context t = .disabled rules := by
      intro x
      rw [assessFor, assess, if_neg hen]
    constructor
    · intro _ h
      exact absurd h hen
    · intro _
      constructor
      · rw [hoff, hoff]
      · rw [hoff, hoff]
      · rw [hoff, hoff]
      · rw [refused_iff, refused_iff, hoff, hoff]

end

/-! ## Two workspaces -/

namespace Branches

def headquarters : Uuid := { text := "hq" }

def branch : Uuid := { text := "branch" }

def anAtHeadquarters : Acting := { principalId := an, workspaceId := headquarters }

def inBranch : TenantRework :=
  { events := fiveReturns.events.map (Placed.mk branch), explanations := [] }

def inBoth : TenantRework :=
  { events := fiveReturns.events.map (Placed.mk headquarters) ++ inBranch.events
    explanations := [] }

def nothing : TenantRework := { events := [], explanations := [] }

/-- Two stores with the same rows have the same standing. -/
theorem both_stand_alike :
    SameStanding shippedRules anAtHeadquarters (days 10) inBoth inBoth :=
  (standing_confined_iff ⟨.refl _, .refl _⟩).mpr fun _ => ⟨rfl, rfl, fun _ _ => Iff.rfl⟩

/-- Five returns in the branch block their author at headquarters, where there is none. -/
theorem blocked_by_elsewhere :
    ¬ ∀ (rules : ReworkSupportRules) (context : Acting) (t : DateTime) (s s' : TenantRework),
      AgreeIn context.workspaceId s s' → SameStanding rules context t s s' := by
  intro hall
  have hsame := hall shippedRules anAtHeadquarters (days 10) inBranch nothing
    ⟨by decide, by decide⟩
  have hcounts := hsame.blockCount
  revert hcounts
  decide

end Branches

end ReworkGuard

end DigitalWorker
