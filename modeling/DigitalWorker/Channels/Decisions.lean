import DigitalWorker.Conversation.Labels

/-! # A decision typed in chat

    `DecisionEngine.try_text` turns a sentence into a decision on one of the
    items that wait. A model says whether the sentence is a decision at all;
    which item it is about is decided here, from the text: by the number of a
    checkpoint, by the stage, and between several by the title.

    The conversation broker asks for a case to be named before anything is signed.
    Here an item that is the only one left is signed without being named.
-/

namespace DigitalWorker.Channels

open Conversation

/-! ## Items that wait -/

inductive DecisionKind where
  | intake
  | cp
  | cp4
  deriving DecidableEq

/-- One row of `DecisionEngine.pending`. -/
structure PendingItem where
  kind : DecisionKind
  cp : String
  caseId : String
  label : String
  title : String
  ownerName : String
  deriving DecidableEq

/-- The actions `DecisionEngine.execute` knows. -/
inductive ActionId where
  | intakeApprove
  | intakeReject
  | cpApprove
  | cpReject
  | cp4Confirm
  | publish
  | addendumSubmit
  | addendumDismiss
  | openBids
  deriving DecidableEq

/-! ## What the model answers -/

inductive Verdict where
  | approve
  | reject
  | none
  deriving DecidableEq

inductive Stage where
  | intake
  | checkpoint
  | any
  deriving DecidableEq

structure DecisionIntent where
  decision : Verdict := .none
  stage : Stage := .any
  deriving DecidableEq

/-- `_decision_intent`: any failure of the model is "not a decision". -/
def decisionIntent (answered : Except Error DecisionIntent) : DecisionIntent :=
  match answered with
  | .ok intent => intent
  | .error _ => {}

/-! ## Which item is meant -/

/-- `\s*([1-4])`, at the start of a text. -/
def checkpointDigit (cs : List Char) : Option Char :=
  match cs.dropWhile isSpace with
  | d :: _ => if '1' ≤ d && d ≤ '4' then some d else none
  | [] => none

/-- `re.search(r"cp\s*([1-4])", …)`: the digit of the first match. -/
def checkpointNumber : List Char → Option Char
  | [] => none
  | c :: rest =>
    (match c, rest with
      | 'c', 'p' :: after => checkpointDigit after
      | _, _ => none) <|> checkpointNumber rest

section

variable (fold casefold : String → String) (text : String)

def meant (stage : Stage) (item : PendingItem) : Bool :=
  match checkpointNumber (casefold text).toList with
  | some digit => item.cp == "cp" ++ toString digit
  | none =>
    match stage with
    | .intake => item.kind == .intake
    | .checkpoint => item.kind != .intake
    | .any => true

def labelScores (candidates : List PendingItem) : List ℚ :=
  rankByLabel fold text (candidates.map (fun c => labelOf c.title c.ownerName))

/-- `_match_by_title`: the candidate whose title the message names, else all. -/
def matchByTitle (candidates : List PendingItem) : List PendingItem :=
  match clearWinner (labelScores fold text candidates) with
  | some i => (candidates[i]?).toList
  | none => candidates

def narrowed (candidates : List PendingItem) : List PendingItem :=
  if 1 < candidates.length ∧ (matchByTitle fold text candidates).length = 1 then
    matchByTitle fold text candidates
  else candidates

def askWhich (candidates : List PendingItem) : String :=
  "Đang chờ " ++ toString candidates.length ++ " mục:\n" ++
    "\n".intercalate (candidates.map (fun c =>
      "  " ++ c.label ++ " — " ++ c.title ++ " (do " ++ c.ownerName ++ " đề nghị)")) ++
    "\n👉 Bạn nói rõ hồ sơ nào giúp mình — vd «duyệt cp2 vụ laptop»."

def PendingItem.act (target : PendingItem) (approve : Bool) : Option (ActionId × String) :=
  match target.kind with
  | .intake => some (if approve then .intakeApprove else .intakeReject, target.caseId)
  | .cp4 => if approve then some (.cp4Confirm, target.caseId) else none
  | .cp => some (if approve then .cpApprove else .cpReject, target.cp ++ ":" ++ target.caseId)

inductive TextOutcome where
  /-- Intake chat handles it. -/
  | notDecision
  | replies (reply : String)
  | executes (target : PendingItem) (action : ActionId) (value : String)
  deriving DecidableEq

/-- `DecisionEngine.try_text`, up to the call of `execute`. -/
def tryText (pending : List PendingItem) (answered : Except Error DecisionIntent) :
    TextOutcome :=
  if pending.isEmpty then .notDecision
  else
    let intent := decisionIntent answered
    if intent.decision = .none then .notDecision
    else
      let candidates := pending.filter (meant casefold text intent.stage)
      if candidates.isEmpty then
        .replies "Hiện không có mục nào như vậy đang chờ bạn quyết định."
      else
        match narrowed fold text candidates with
        | [target] =>
          match target.act (intent.decision == .approve) with
          | some (action, value) => .executes target action value
          | none => .replies "CP4 chỉ có bước xác nhận mở thầu — không có luồng từ chối."
        | several => .replies (askWhich several)

/-! ## What the broker would resolve -/

def PendingItem.candidate (item : PendingItem) (ref : Int) : Candidate :=
  { ref := ref
    title := item.title
    state := ""
    relations := [.actionable]
    caseId := if h : item.caseId = "" then none else some { text := item.caseId, nonempty := h }
    ownerName := item.ownerName }

def menuOf (items : List PendingItem) : List Candidate :=
  items.mapIdx (fun i item => item.candidate (i + 1))

/-- `focus.resolve` returns the item when something is to be approved and the
    user points at no row. -/
def Resolves (items : List PendingItem) (x : PendingItem) : Prop :=
  ∃ i : Nat, items[i]? = some x ∧
    resolve (namedIn fold) (menuOf items) none text .approve = .resolved (x.candidate (i + 1))

def SignsWhatIsNamed (pending : List PendingItem) (answered : Except Error DecisionIntent) : Prop :=
  ∀ target action value,
    tryText fold casefold text pending answered = .executes target action value →
      Resolves fold text
        (pending.filter (meant casefold text (decisionIntent answered).stage)) target

def SoleItemNamed (pending : List PendingItem) (answered : Except Error DecisionIntent) : Prop :=
  ∀ only, pending.filter (meant casefold text (decisionIntent answered).stage) = [only] →
    (decisionIntent answered).decision ≠ .none →
    ¬ (only.kind = .cp4 ∧ (decisionIntent answered).decision = .reject) →
      (tokens fold (labelOf only.title only.ownerName) ∩ tokens fold text).Nonempty

end

/-! ## Two readings of one text -/

section

variable {fold casefold : String → String} {text : String}

theorem menuOf_getElem? (items : List PendingItem) (i : Nat) :
    (menuOf items)[i]? = (items[i]?).map (fun item => item.candidate (i + 1)) := by
  rw [menuOf, List.getElem?_mapIdx]

theorem namedIn_menuOf (items : List PendingItem) :
    namedIn fold text (menuOf items) =
      (clearWinner (labelScores fold text items)).bind ((menuOf items)[·]?) := by
  have hlabels : (menuOf items).map (fun c => labelOf c.title c.ownerName) =
      items.map (fun c => labelOf c.title c.ownerName) := by
    apply List.ext_getElem?
    intro i
    rw [List.getElem?_map, menuOf_getElem?, List.getElem?_map, Option.map_map]
    rfl
  rw [namedIn, hlabels, labelScores]

/-- **What the broker signs**: the item whose label wins. -/
theorem resolves_iff {items : List PendingItem} {x : PendingItem} :
    Resolves fold text items x ↔
      ∃ i, clearWinner (labelScores fold text items) = some i ∧ items[i]? = some x := by
  have hresolve : ∀ c, resolve (namedIn fold) (menuOf items) none text .approve = .resolved c ↔
      namedIn fold text (menuOf items) = some c := by
    intro c
    by_cases hempty : menuOf items = []
    · simp [resolve, hempty, namedIn]
    · simp only [resolve, List.isEmpty_iff, hempty, if_false, if_true]
      cases namedIn fold text (menuOf items) <;> simp
  unfold Resolves
  simp only [hresolve, namedIn_menuOf]
  constructor
  · intro h
    obtain ⟨i, hx, hnamed⟩ := h
    obtain ⟨j, hwins, hrow⟩ := Option.bind_eq_some_iff.mp hnamed
    refine ⟨j, hwins, ?_⟩
    rw [menuOf_getElem?, Option.map_eq_some_iff] at hrow
    obtain ⟨y, hy, hcandidate⟩ := hrow
    -- the rows are numbered, so the winner is the row of the item
    have href := congrArg Candidate.ref hcandidate
    have hij : (j : Int) + 1 = i + 1 := href
    obtain rfl : j = i := by omega
    exact hx
  · intro h
    obtain ⟨i, hwins, hx⟩ := h
    refine ⟨i, hx, ?_⟩
    rw [hwins, Option.bind_some, menuOf_getElem?, hx]
    rfl

theorem narrowed_several {items : List PendingItem} {target : PendingItem}
    (hseveral : 1 < items.length) (h : narrowed fold text items = [target]) :
    Resolves fold text items target := by
  have hlength : (matchByTitle fold text items).length = 1 := by
    by_contra hnot
    rw [narrowed, if_neg (fun hboth => hnot hboth.2)] at h
    rw [h] at hseveral
    simp at hseveral
  rw [narrowed, if_pos ⟨hseveral, hlength⟩] at h
  unfold matchByTitle at h hlength
  rw [resolves_iff]
  cases hwins : clearWinner (labelScores fold text items) with
  | none =>
    simp only [hwins] at hlength
    omega
  | some i =>
    simp only [hwins] at h
    cases hrow : items[i]? with
    | none => simp [hrow] at h
    | some x =>
      simp only [hrow, Option.toList_some, List.cons.injEq, and_true] at h
      exact ⟨i, rfl, h ▸ hrow⟩

theorem narrowed_single (only : PendingItem) : narrowed fold text [only] = [only] := by
  simp [narrowed]

theorem resolves_single (only : PendingItem) : Resolves fold text [only] only ↔
    (tokens fold (labelOf only.title only.ownerName) ∩ tokens fold text).Nonempty := by
  rw [resolves_iff]
  have hscores : labelScores fold text [only] =
      rankByLabel fold text [labelOf only.title only.ownerName] := rfl
  rw [hscores, clearWinner_rank_singleton]
  by_cases hshared : (tokens fold (labelOf only.title only.ownerName) ∩
      tokens fold text).Nonempty
  · simp [hshared]
  · simp [hshared]

theorem act_eq_none_iff {item : PendingItem} {approve : Bool} :
    item.act approve = none ↔ item.kind = .cp4 ∧ approve = false := by
  unfold PendingItem.act
  cases item.kind <;> cases approve <;> simp

/-- **What is signed**: the sentence decides, it leaves one of the items it can
    mean, and there is an action for it. -/
theorem tryText_executes {pending : List PendingItem} {answered : Except Error DecisionIntent}
    {target : PendingItem} {action : ActionId} {value : String} :
    tryText fold casefold text pending answered = .executes target action value ↔
      (decisionIntent answered).decision ≠ .none ∧
      narrowed fold text
        (pending.filter (meant casefold text (decisionIntent answered).stage)) = [target] ∧
      target.act ((decisionIntent answered).decision == .approve) = some (action, value) := by
  unfold tryText
  dsimp only
  split
  · next hempty =>
    -- nothing waits: there is nothing to narrow
    rw [List.isEmpty_iff.mp hempty]
    simp [narrowed]
  · split
    · next hnone => simp [hnone]
    · next hsome =>
      split
      · next hcandidates =>
        rw [List.isEmpty_iff.mp hcandidates]
        simp [narrowed]
      · split
        · next only honly =>
          rw [honly]
          split
          · next a v hact =>
            simp only [TextOutcome.executes.injEq, List.cons.injEq, and_true]
            constructor
            · intro h
              obtain ⟨rfl, rfl, rfl⟩ := h
              exact ⟨hsome, rfl, hact⟩
            · intro h
              obtain ⟨_, rfl, h⟩ := h
              rw [hact] at h
              obtain ⟨rfl, rfl⟩ := Prod.mk.inj (Option.some.inj h)
              exact ⟨rfl, rfl, rfl⟩
          · next hact =>
            simp only [reduceCtorEq, false_iff, not_and]
            intro _ honly' h
            obtain rfl := List.singleton_inj.mp honly'
            rw [hact] at h
            cases h
        · next several hseveral =>
          simp only [reduceCtorEq, false_iff, not_and]
          intro _ hone
          exact absurd hone (hseveral target)

/-- **What is signed is what is named**: the engine signs what the broker would
    have resolved if and only if a single item that is meant shares a word with
    the sentence. -/
theorem signs_what_is_named_iff {pending : List PendingItem}
    {answered : Except Error DecisionIntent} :
    SignsWhatIsNamed fold casefold text pending answered ↔
      SoleItemNamed fold casefold text pending answered := by
  constructor
  · intro hsigns only honly hdecides hcp4
    rw [← resolves_single]
    have hact : only.act ((decisionIntent answered).decision == .approve) ≠ none := by
      intro hnone
      obtain ⟨hkind, hreject⟩ := act_eq_none_iff.mp hnone
      apply hcp4
      refine ⟨hkind, ?_⟩
      cases hdecision : (decisionIntent answered).decision with
      | approve => simp [hdecision] at hreject
      | reject => rfl
      | none => exact absurd hdecision hdecides
    obtain ⟨⟨action, value⟩, hact⟩ := Option.ne_none_iff_exists'.mp hact
    have hsigned := hsigns only action value
      (tryText_executes.mpr ⟨hdecides, by rw [honly, narrowed_single], hact⟩)
    rw [honly] at hsigned
    exact hsigned
  · intro hnamed target action value hexec
    obtain ⟨hdecides, hone, hact⟩ := tryText_executes.mp hexec
    by_cases hseveral :
        1 < (pending.filter (meant casefold text (decisionIntent answered).stage)).length
    · exact narrowed_several hseveral hone
    · -- what is not several is left as it is, and is the target alone
      rw [narrowed, if_neg (fun hboth => hseveral hboth.1)] at hone
      rw [hone, resolves_single]
      apply hnamed target hone hdecides
      intro hrejected
      have hnone : target.act ((decisionIntent answered).decision == .approve) = none := by
        rw [act_eq_none_iff]
        exact ⟨hrejected.1, by simp [hrejected.2]⟩
      rw [hnone] at hact
      cases hact

end

/-! ## One sentence -/

def laptopsAtCp2 : PendingItem :=
  { kind := .cp, cp := "cp2", caseId := "laptops", label := "CP2 — duyệt"
    title := "Mua 50 laptop cho phong ban hang", ownerName := "Le Thu Ha" }

def monitors : Candidate :=
  { ref := 1, title := "Mua 200 man hinh", state := "published", relations := [.related] }

def approveMonitors : String := "duyet vu man hinh"

def approves : Except Error DecisionIntent := .ok { decision := .approve }

theorem approveMonitors_scores :
    rankByLabel String.toLower approveMonitors
      [labelOf monitors.title monitors.ownerName,
        labelOf laptopsAtCp2.title laptopsAtCp2.ownerName] = [1, 0] := by
  have hmonitors : tokens String.toLower (labelOf monitors.title monitors.ownerName) =
      {"mua", "200", "man", "hinh"} := by decide +kernel
  have hlaptops : tokens String.toLower (labelOf laptopsAtCp2.title laptopsAtCp2.ownerName) =
      {"mua", "laptop", "cho", "phong", "ban", "hang", "thu"} := by decide +kernel
  have hsentence : tokens String.toLower approveMonitors = {"duyet", "man", "hinh"} := by
    decide +kernel
  simp only [rankByLabel, List.map_cons, List.map_nil, hmonitors, hlaptops, hsentence]
  decide +kernel

/-- The sentence names the monitors; the laptops are the only item that waits,
    and are signed. -/
theorem monitors_sign_the_laptops :
    namedIn String.toLower approveMonitors [monitors, laptopsAtCp2.candidate 2] = some monitors ∧
    tryText String.toLower String.toLower approveMonitors [laptopsAtCp2] approves =
      .executes laptopsAtCp2 .cpApprove "cp2:laptops" ∧
    ¬ SignsWhatIsNamed String.toLower String.toLower approveMonitors [laptopsAtCp2] approves := by
  have hnamed : namedIn String.toLower approveMonitors [monitors, laptopsAtCp2.candidate 2] =
      some monitors := by
    have hwins : clearWinner (rankByLabel String.toLower approveMonitors
        ([monitors, laptopsAtCp2.candidate 2].map (fun c => labelOf c.title c.ownerName))) =
        some 0 := by
      show clearWinner (rankByLabel String.toLower approveMonitors
        [labelOf monitors.title monitors.ownerName,
          labelOf laptopsAtCp2.title laptopsAtCp2.ownerName]) = some 0
      rw [approveMonitors_scores]
      decide +kernel
    rw [namedIn, hwins]
    rfl
  have hsigned : tryText String.toLower String.toLower approveMonitors [laptopsAtCp2] approves =
      .executes laptopsAtCp2 .cpApprove "cp2:laptops" := by decide +kernel
  have honly : [laptopsAtCp2].filter (meant String.toLower approveMonitors
      (decisionIntent approves).stage) = [laptopsAtCp2] := by decide +kernel
  have hshared : ¬ (tokens String.toLower (labelOf laptopsAtCp2.title laptopsAtCp2.ownerName) ∩
      tokens String.toLower approveMonitors).Nonempty := by decide +kernel
  refine ⟨hnamed, hsigned, ?_⟩
  intro h
  have hresolves := h laptopsAtCp2 .cpApprove "cp2:laptops" hsigned
  rw [honly, resolves_single] at hresolves
  exact hshared hresolves

end DigitalWorker.Channels
