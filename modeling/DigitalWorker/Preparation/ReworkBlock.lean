import Mathlib.Algebra.Order.Group.Int
import DigitalWorker.Framework.SlidingWindow
import DigitalWorker.Preparation.Rework

/-! # When does the rework guard block?

    The requirement describes a latch: a block starts when the counted returns
    come up to the threshold, does not end because old returns leave the
    window, and ends when an explanation is approved. The guard keeps no latch.
    It recounts the window that ends now, and accepts any approval that is not
    older than its longest window.
-/

namespace DigitalWorker

open Framework

namespace ReworkGuard

variable (rules : ReworkSupportRules) (store : ReworkStore) (creator : Uuid)

/-! ## The data both sides speak about -/

/-- When the returns that count against `creator` occurred. -/
def countedTimes : List DateTime :=
  (store.events.filter (fun e => e.creatorUserId == creator && considered rules e)).map
    (·.occurredAt)

/-- When explanations of `creator` were approved. -/
def approvalTimes : List DateTime :=
  (store.explanations.filter
    (fun x => x.creatorUserId == creator && x.status == .approved)).filterMap (·.decidedAt)

def BlockingEnabled : Prop := 0 < rules.blockThreshold ∧ 0 < rules.blockWindowDays

instance : Decidable (BlockingEnabled rules) := inferInstanceAs (Decidable (_ ∧ _))

/-- Counted returns in the blocking window that ends at `t`. -/
def blockLoad (t : DateTime) : Nat :=
  load (countedTimes rules store creator) (days rules.blockWindowDays) t

/-- **The requirement**: at some moment up to `t` the counted returns reached
    the threshold, and no explanation has been approved since then. -/
def BlockRequired (t : DateTime) : Prop :=
  BlockingEnabled rules ∧
    Latched (countedTimes rules store creator) (days rules.blockWindowDays)
      rules.blockThreshold.toNat (approvalTimes store creator) t

/-- The guard stops `creator` at `t`, its store being available. -/
def Blocks (t : DateTime) : Prop :=
  (assess rules (.ok store) creator t).level = .block

instance (t : DateTime) : Decidable (Blocks rules store creator t) :=
  inferInstanceAs (Decidable (_ = _))

variable {rules store creator}

/-! ## What the guard computes -/

def spanDays (rules : ReworkSupportRules) : Int := max rules.nudgeWindowDays rules.blockWindowDays

theorem blockCount_eq_load {t : DateTime} (h : 0 < rules.blockWindowDays) :
    (countsWithin ((listForCreator store creator (t - days (spanDays rules))).filter
      (considered rules)) t rules.blockWindowDays).length = blockLoad rules store creator t := by
  have hspan : days rules.blockWindowDays ≤ days (spanDays rules) :=
    days_le_days (le_max_right _ _)
  rw [countsWithin, if_neg (not_le.mpr h), blockLoad, load, countedTimes, listForCreator,
    List.countP_map, List.countP_eq_length_filter, List.filter_filter, List.filter_filter,
    List.filter_filter]
  congr 1
  refine List.filter_congr fun e _ => ?_
  rw [Bool.eq_iff_iff]
  simp only [Function.comp_apply, Bool.and_eq_true, decide_eq_true_eq, beq_iff_eq]
  constructor
  · rintro ⟨⟨hwin, hcons⟩, hcr, _⟩
    exact ⟨hwin, hcr, hcons⟩
  · rintro ⟨hwin, hcr, hcons⟩
    -- inside the blocking window the fetch bound holds by itself
    exact ⟨⟨hwin, hcons⟩, hcr, (sub_le_sub_left hspan t).trans hwin.1⟩

theorem hasApprovedSince_iff {since : DateTime} :
    hasApprovedSince store creator since = true ↔
      ∃ a ∈ approvalTimes store creator, since ≤ a := by
  simp only [hasApprovedSince, approvalTimes, List.any_eq_true, List.mem_filterMap,
    List.mem_filter, Bool.and_eq_true]
  constructor
  · rintro ⟨x, hx, hmatch, hsince⟩
    cases hd : x.decidedAt with
    | none => simp [hd] at hsince
    | some a => exact ⟨a, ⟨x, ⟨hx, hmatch⟩, hd⟩, by simpa [hd] using hsince⟩
  · rintro ⟨a, ⟨x, ⟨hx, hmatch⟩, hd⟩, hsince⟩
    exact ⟨x, hx, hmatch, by simpa [hd] using hsince⟩

theorem assessRework_block_iff {events : List ReworkEvent} {t : DateTime} :
    (assessRework events t rules).level = .block ↔
      0 < rules.blockThreshold ∧ rules.blockThreshold ≤
        (countsWithin (events.filter (considered rules)) t rules.blockWindowDays).length := by
  unfold assessRework
  by_cases hen : rules.isEnabled = true
  · simp only [hen, if_true]
    split
    · next h => exact iff_of_true rfl h
    · next h =>
      refine iff_of_false ?_ h
      split <;> simp
  · have hoff : ¬ 0 < rules.blockThreshold := by
      intro h
      exact hen (by simp [ReworkSupportRules.isEnabled, h])
    simp [hen, hoff, ReworkAssessment.disabled, ReworkAssessment.unavailable]

private theorem assessed_block_iff {t : DateTime} :
    (assessRework (listForCreator store creator (t - days (spanDays rules))) t rules).level =
        .block ↔
      BlockingEnabled rules ∧ rules.blockThreshold.toNat ≤ blockLoad rules store creator t := by
  rw [assessRework_block_iff]
  by_cases hdays : 0 < rules.blockWindowDays
  · rw [blockCount_eq_load hdays, BlockingEnabled]
    constructor
    · rintro ⟨hpos, hcount⟩
      exact ⟨⟨hpos, hdays⟩, by omega⟩
    · rintro ⟨⟨hpos, _⟩, hcount⟩
      exact ⟨hpos, by omega⟩
  · -- with no blocking window nothing is ever counted
    have hnil : ∀ es, countsWithin es t rules.blockWindowDays = [] := by
      intro es
      rw [countsWithin, if_pos (not_lt.mp hdays)]
    rw [hnil]
    refine iff_of_false ?_ (fun h => hdays h.1.2)
    rintro ⟨hpos, hcount⟩
    simp only [List.length_nil] at hcount
    omega

/-- **The guard**: it blocks iff the blocking window that ends now holds
    threshold-many counted returns and no approval falls into the longest
    window. -/
theorem assess_block_iff {t : DateTime} :
    Blocks rules store creator t ↔ BlockingEnabled rules ∧
      rules.blockThreshold.toNat ≤ blockLoad rules store creator t ∧
      ∀ a ∈ approvalTimes store creator, ¬ t - days (spanDays rules) ≤ a := by
  have happ := @hasApprovedSince_iff store creator (t - days (spanDays rules))
  have hlevel := @assessed_block_iff rules store creator t
  unfold Blocks assess
  by_cases hen : rules.isEnabled = true
  · rw [if_pos hen]
    simp only [assessStore]
    rw [← spanDays, ← and_assoc, ← hlevel]
    by_cases hb : (assessRework (listForCreator store creator (t - days (spanDays rules)))
        t rules).level = .block
    · by_cases ha : hasApprovedSince store creator (t - days (spanDays rules)) = true
      · obtain ⟨a, hmem, hsince⟩ := happ.mp ha
        refine iff_of_false ?_ (fun h => h.2 a hmem hsince)
        rw [if_neg (not_not.mpr hb), if_pos ha]
        show (if _ then SupportLevel.nudge else SupportLevel.none) ≠ .block
        split <;> simp
      · rw [if_neg (not_not.mpr hb), if_neg ha]
        refine ⟨fun h => ⟨h, fun a hmem hsince => ha (happ.mpr ⟨a, hmem, hsince⟩)⟩, And.left⟩
    · rw [if_pos hb]
      exact iff_of_false hb (fun h => hb h.1)
  · rw [if_neg hen]
    refine iff_of_false (by simp [ReworkAssessment.disabled, ReworkAssessment.unavailable]) ?_
    rintro ⟨⟨hpos, _⟩, _⟩
    exact hen (by simp [ReworkSupportRules.isEnabled, hpos])

/-! ## Where guard and requirement part -/

variable (rules store creator)

/-- `c` is the last moment up to `t` at which the returns reached the threshold. -/
def LastReached (t c : DateTime) : Prop :=
  LatestCrossing (countedTimes rules store creator) (days rules.blockWindowDays)
    rules.blockThreshold.toNat t c

/-- **Aged out**: the last time the threshold was reached nobody has approved
    anything since, but returns have left the window and the load is below the
    threshold again. -/
def AgedOut (t : DateTime) : Prop :=
  ∃ c, LastReached rules store creator t c ∧
    (∀ a ∈ approvalTimes store creator, ¬ (c ≤ a ∧ a ≤ t)) ∧
    blockLoad rules store creator t < rules.blockThreshold.toNat

/-- **Stray approval**: the load is at the threshold and nobody has approved
    anything since it was reached, but an approval from before that moment (or
    dated after `t`) lies within the longest window. -/
def StrayApproval (t : DateTime) : Prop :=
  rules.blockThreshold.toNat ≤ blockLoad rules store creator t ∧
    ∃ c, LastReached rules store creator t c ∧
      (∀ a ∈ approvalTimes store creator, ¬ (c ≤ a ∧ a ≤ t)) ∧
      ∃ a ∈ approvalTimes store creator, t - days (spanDays rules) ≤ a ∧ (a < c ∨ t < a)

/-- **Expired approval**: the returns have stayed at the threshold since it was
    last reached, an explanation was approved in between, but every approval is
    older than the longest window. -/
def ExpiredApproval (t : DateTime) : Prop :=
  rules.blockThreshold.toNat ≤ blockLoad rules store creator t ∧
    (∃ c, LastReached rules store creator t c ∧
      ∃ a ∈ approvalTimes store creator, c ≤ a ∧ a ≤ t) ∧
    ∀ a ∈ approvalTimes store creator, a < t - days (spanDays rules)

variable {rules store creator}

theorem exists_lastReached {t : DateTime} (h : 0 < rules.blockThreshold)
    (hload : rules.blockThreshold.toNat ≤ blockLoad rules store creator t) :
    ∃ c, LastReached rules store creator t c :=
  exists_latestCrossing (exists_crossing (by omega) hload)

theorem blockRequired_iff {t : DateTime} :
    BlockRequired rules store creator t ↔ BlockingEnabled rules ∧
      ∃ c, LastReached rules store creator t c ∧
        ∀ a ∈ approvalTimes store creator, ¬ (c ≤ a ∧ a ≤ t) := by
  rw [BlockRequired, latched_iff_latest]
  rfl

theorem missed_iff {t : DateTime} :
    BlockRequired rules store creator t ∧ ¬ Blocks rules store creator t ↔
      BlockingEnabled rules ∧
        (AgedOut rules store creator t ∨ StrayApproval rules store creator t) := by
  rw [blockRequired_iff, assess_block_iff]
  constructor
  · rintro ⟨⟨hen, c, hc, hun⟩, hnot⟩
    refine ⟨hen, ?_⟩
    rcases Nat.lt_or_ge (blockLoad rules store creator t) rules.blockThreshold.toNat with hlt | hge
    · exact .inl ⟨c, hc, hun, hlt⟩
    · have hrecent : ∃ a ∈ approvalTimes store creator, t - days (spanDays rules) ≤ a := by
        by_contra hnone
        exact hnot ⟨hen, hge, fun a ha hsince => hnone ⟨a, ha, hsince⟩⟩
      obtain ⟨a, ha, hsince⟩ := hrecent
      refine .inr ⟨hge, c, hc, hun, a, ha, hsince, ?_⟩
      rw [← not_le, ← not_le, ← not_and_or]
      exact hun a ha
  · rintro ⟨hen, ⟨c, hc, hun, hlt⟩ | ⟨_, c, hc, hun, a, ha, hsince, _⟩⟩
    · exact ⟨⟨hen, c, hc, hun⟩, fun h => absurd h.2.1 (not_le.mpr hlt)⟩
    · exact ⟨⟨hen, c, hc, hun⟩, fun h => h.2.2 a ha hsince⟩

theorem spurious_iff {t : DateTime} :
    Blocks rules store creator t ∧ ¬ BlockRequired rules store creator t ↔
      BlockingEnabled rules ∧ ExpiredApproval rules store creator t := by
  rw [blockRequired_iff, assess_block_iff]
  constructor
  · rintro ⟨⟨hen, hload, hold⟩, hnot⟩
    obtain ⟨c, hc⟩ := exists_lastReached hen.1 hload
    have hanswered : ∃ a ∈ approvalTimes store creator, c ≤ a ∧ a ≤ t := by
      by_contra hnone
      exact hnot ⟨hen, c, hc, fun a ha hca => hnone ⟨a, ha, hca⟩⟩
    exact ⟨hen, hload, ⟨c, hc, hanswered⟩, fun a ha => not_le.mp (hold a ha)⟩
  · rintro ⟨hen, hload, ⟨c, hc, a, ha, hca⟩, hold⟩
    refine ⟨⟨hen, hload, fun a ha => not_le.mpr (hold a ha)⟩, ?_⟩
    rintro ⟨_, c', hc', hun⟩
    -- the last moment is unique, and it has been answered
    rw [hc'.unique hc] at hun
    exact hun a ha hca

/-- **Main theorem**: guard and requirement agree at `t` exactly when the
    history is none of aged out, stray approval and expired approval. -/
theorem guard_meets_requirement_iff (rules : ReworkSupportRules) (store : ReworkStore)
    (creator : Uuid) (t : DateTime) :
    (Blocks rules store creator t ↔ BlockRequired rules store creator t) ↔
      ¬ (BlockingEnabled rules ∧ (AgedOut rules store creator t ∨
        StrayApproval rules store creator t ∨ ExpiredApproval rules store creator t)) := by
  have hmiss := @missed_iff rules store creator t
  have hspur := @spurious_iff rules store creator t
  constructor
  · rintro hagree ⟨hen, haged | hstray | hexp⟩
    · obtain ⟨hreq, hno⟩ := hmiss.mpr ⟨hen, .inl haged⟩
      exact hno (hagree.mpr hreq)
    · obtain ⟨hreq, hno⟩ := hmiss.mpr ⟨hen, .inr hstray⟩
      exact hno (hagree.mpr hreq)
    · obtain ⟨hblock, hno⟩ := hspur.mpr ⟨hen, hexp⟩
      exact hno (hagree.mp hblock)
  · intro hnone
    constructor
    · intro hblock
      by_contra hno
      obtain ⟨hen, hexp⟩ := hspur.mp ⟨hblock, hno⟩
      exact hnone ⟨hen, .inr (.inr hexp)⟩
    · intro hreq
      by_contra hno
      obtain ⟨hen, hmissed⟩ := hmiss.mp ⟨hreq, hno⟩
      exact hnone ⟨hen, hmissed.imp_right .inl⟩

/-! ## A block that lapses by itself -/

def shippedRules : ReworkSupportRules :=
  { policyVersion := "1.0.0", enabledFrom := none, nudgeWindowDays := 7, nudgeThreshold := 3
    blockWindowDays := 30, blockThreshold := 5, generalGuidance := "", reasonCodes := [] }

def an : Uuid := { text := "an" }

def fiveReturns : ReworkStore :=
  { events := [1, 2, 3, 4, 5].map fun (n : Int) =>
      { id := { text := "event" }, caseId := { text := "case" }
        creatorUserId := an, decidedByUserId := { text := "binh" }
        checkpoint := .intake, reasonCode := "other", reasonText := "thiếu dự toán"
        policyVersion := "1.0.0", occurredAt := days n }
    explanations := [] }

/-- On day 40 the block of day 5 is gone although nobody approved anything. -/
theorem block_lapses_by_ageing :
    ¬ ∀ (rules : ReworkSupportRules) (store : ReworkStore) (creator : Uuid) (t : DateTime),
      Blocks rules store creator t ↔ BlockRequired rules store creator t := by
  intro hall
  have hreq : BlockRequired shippedRules fiveReturns an (days 40) := by
    refine ⟨by decide, days 5, by decide, by decide, ?_⟩
    intro a ha
    cases ha
  have hfree : ¬ Blocks shippedRules fiveReturns an (days 40) := by decide
  exact hfree ((hall shippedRules fiveReturns an (days 40)).mpr hreq)

end ReworkGuard

end DigitalWorker
