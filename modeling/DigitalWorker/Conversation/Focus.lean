import DigitalWorker.Conversation.Store
import DigitalWorker.Platform.Access
import DigitalWorker.Preparation.Case

/-! # Which case the person means

    The menu of everything a person could be talking about is built from the
    cases they can see and the drafts they have open, and numbered by code. The
    model points at a number; `resolve` maps it back.

    The prompt of a turn and the broker that acts on it build the menu
    separately: the prompt with the case of the current conversation in front
    and the first six rows of it, the broker with the case of the first open
    conversation in front and all of it.
-/

namespace DigitalWorker.Conversation

open Framework

/-! ## Candidates -/

inductive Relation where
  | focus
  | actionable
  | related
  | recent
  | pendingInput
  deriving DecidableEq

def awaitingAHuman : List CaseState := [.draft, .cp1Pending, .cp2Pending, .cp3Pending, .cp4Ready]

/-- `CaseFact`: a filed case, as the broker needs to see it. -/
structure CaseFact where
  caseId : Uuid
  title : String
  ownerName : String := ""
  state : CaseState
  createdBy : Uuid
  deriving DecidableEq

/-- `DraftFact`: a request still being typed. -/
structure DraftFact where
  conversationId : Uuid
  label : String
  status : String := ""
  deriving DecidableEq

structure Candidate where
  ref : Int
  title : String
  state : String
  relations : List Relation
  caseId : Option Uuid := none
  conversationId : Option Uuid := none
  ownerName : String := ""
  deriving DecidableEq

/-- `Candidate.describe`: the line a prompt shows for a candidate. -/
def Candidate.describe (c : Candidate) : String :=
  toString c.ref ++ ". " ++ c.title ++ (if c.state = "" then "" else " (" ++ c.state ++ ")") ++
    (if c.ownerName = "" then "" else " — " ++ c.ownerName ++ " đề nghị")

/-! ## The menu -/

namespace CaseFact

def awaiting (c : CaseFact) : Bool := awaitingAHuman.contains c.state

def inFocus (focus : Option Uuid) (c : CaseFact) : Bool := some c.caseId == focus

/-- The sort key of `build_menu`. -/
def rank (focus : Option Uuid) (c : CaseFact) : Nat :=
  if c.inFocus focus then 0 else if c.awaiting then 1 else 2

def candidate (focus : Option Uuid) (c : CaseFact) (ref : Int) : Candidate :=
  { ref := ref
    title := c.title
    state := c.state.value
    relations := (if c.inFocus focus then [.focus] else []) ++
      (if c.awaiting then [.actionable] else [.related])
    caseId := some c.caseId
    ownerName := c.ownerName }

end CaseFact

def DraftFact.candidate (d : DraftFact) (ref : Int) : Candidate :=
  { ref := ref
    title := d.label
    state := d.status
    relations := [.pendingInput]
    conversationId := some d.conversationId }

def visibleCases (cases : List CaseFact) (actorId : Uuid) (canDecide : Bool) : List CaseFact :=
  cases.filter (fun c => canDecide || c.createdBy == actorId)

/-- `sorted(visible, key=rank)`. -/
def sortedByRank (focus : Option Uuid) (visible : List CaseFact) : List CaseFact :=
  visible.insertionSort (fun a b => a.rank focus ≤ b.rank focus)

/-- `build_menu`: the cases by rank, then the drafts, numbered from one. -/
def buildMenu (cases : List CaseFact) (drafts : List DraftFact) (actorId : Uuid)
    (canDecide : Bool) (focusCaseId : Option Uuid) : List Candidate :=
  ((sortedByRank focusCaseId (visibleCases cases actorId canDecide)).map
      (CaseFact.candidate focusCaseId) ++
    drafts.map DraftFact.candidate).mapIdx (fun i row => row (i + 1))

def rendered (menu : List Candidate) (limit : Nat) : List Candidate := menu.take limit

/-- `render`: their lines. -/
def render (menu : List Candidate) (limit : Nat) : String :=
  "\n".intercalate ((rendered menu limit).map Candidate.describe)

inductive Resolution where
  | resolved (candidate : Candidate)
  | ambiguous (options : List Candidate)
  | noTarget
  deriving DecidableEq

/-- `resolve`; `named` is `_named_in`, the candidate a message names. -/
def resolve (named : String → List Candidate → Option Candidate) (menu : List Candidate)
    (targetRef : Option Int) (message : String) (risk : Risk) : Resolution :=
  if menu.isEmpty then .noTarget
  else match targetRef with
    | some n =>
      -- `{c.ref: c for c in menu}.get(n)`: the last row under a number counts
      match menu.reverse.find? (fun c => c.ref == n) with
      | some chosen => .resolved chosen
      | none => .ambiguous menu
    | none =>
      match named message menu with
      | some candidate => .resolved candidate
      | none =>
        if risk = .approve then .ambiguous menu
        else match menu with
          | [only] => .resolved only
          | menu =>
            if risk = .read || risk = .draft then
              match menu.filter (fun c => c.relations.contains .focus) with
              | [inFocus] => .resolved inFocus
              | _ => .ambiguous menu
            else .ambiguous menu


/-! ## The prompt and the broker -/

/-- What one turn has to go on: the rules, the cases `list_cases` returns, if it
    is wired, the candidate a message names, and who is speaking. -/
structure Desk where
  rules : ProcurementRules
  listCases : Option (List CaseFact)
  named : String → List Candidate → Option Candidate
  context : AccessContext

namespace Desk

variable (desk : Desk)

/-- `context.has_scope("approvals.decide")`. -/
def canDecide : Bool := desk.context.scopes.contains "approvals.decide"

def openDrafts (openConvs : List ConversationView) : List ConversationView :=
  openConvs.filter (fun c => c.caseId.isNone && c.hasContent)

def drafts (openConvs : List ConversationView) : Except Error (List DraftFact) :=
  (openDrafts openConvs).mapM fun c => do
    let status ← c.status desk.rules
    return { conversationId := c.id, label := c.label, status := status }

def menuFor (openConvs : List ConversationView) (focus : Option Uuid) :
    Except Error (List Candidate) :=
  match desk.listCases with
  | none => return []
  | some cases => do
    let drafts ← desk.drafts openConvs
    return buildMenu cases drafts desk.context.principalId desk.canDecide focus

/-- The rows `_run_turn` shows the model. -/
def promptRows (conversation : ConversationView) (openConvs : List ConversationView) :
    Except Error (List Candidate) := do
  let menu ← desk.menuFor openConvs conversation.caseId
  return rendered menu 6

def brokerFocus (openConvs : List ConversationView) : Option Uuid :=
  openConvs.findSome? ConversationView.caseId

/-- How `_brokered_turn` ends. -/
inductive Brokered where
  /-- The turn is not the broker's business. -/
  | declined
  | asksWhich (options : List Candidate)
  | noTarget
  | acts (caseId : Uuid)
  deriving DecidableEq

def caseScoped (intent : ChatIntent) : Bool :=
  [ChatIntent.amendRequest, .requestAddendum, .recordSubmission, .openBids].contains intent

def blankRequest (turn : IntakeChatTurn) (conversation : ConversationView) : Bool :=
  (turn.intent == .createRequest && turn.goods == "") ||
    (turn.intent == .provideInfo && turn.goods == "" && !conversation.hasContent)

def brokeredTurn (turn : IntakeChatTurn) (conversation : ConversationView)
    (openConvs : List ConversationView) (message : String) : Except Error Brokered := do
  if conversation.caseId.isSome || !(caseScoped turn.intent || blankRequest turn conversation) then
    return .declined
  let menu ← desk.menuFor openConvs (brokerFocus openConvs)
  if blankRequest turn conversation then
    return if menu.isEmpty then .declined else .asksWhich menu
  match resolve desk.named menu turn.targetRef message turn.intent.risk with
  | .noTarget => return .noTarget
  | .ambiguous options => return .asksWhich (if options.isEmpty then menu else options)
  | .resolved chosen =>
    if turn.certain then
      match chosen.caseId with
      | none => return .asksWhich menu
      | some caseId => return .acts caseId
    else return .asksWhich menu

end Desk

/-- Row `i` of the menu carries the number `i + 1`. -/
def Numbered (menu : List Candidate) : Prop :=
  ∀ (i : Nat) (c : Candidate), menu[i]? = some c → c.ref = i + 1

theorem buildMenu_numbered (cases : List CaseFact) (drafts : List DraftFact) (actorId : Uuid)
    (canDecide : Bool) (focus : Option Uuid) :
    Numbered (buildMenu cases drafts actorId canDecide focus) := by
  intro i c hc
  unfold buildMenu at hc
  rw [List.getElem?_mapIdx, Option.map_eq_some_iff] at hc
  obtain ⟨row, hrow, rfl⟩ := hc
  rcases List.mem_append.mp (List.mem_of_getElem? hrow) with hmem | hmem
  · obtain ⟨fact, -, rfl⟩ := List.mem_map.mp hmem
    rfl
  · obtain ⟨fact, -, rfl⟩ := List.mem_map.mp hmem
    rfl

/-- **A number resolves** to the row that carries it, or to nothing. -/
theorem resolve_ref {named : String → List Candidate → Option Candidate} {menu : List Candidate}
    (hmenu : Numbered menu) {n : Int} {message : String} {risk : Risk} {chosen : Candidate} :
    resolve named menu (some n) message risk = .resolved chosen ↔
      ∃ i : Nat, menu[i]? = some chosen ∧ n = i + 1 := by
  have hfind : resolve named menu (some n) message risk = .resolved chosen ↔
      menu.reverse.find? (fun c => c.ref == n) = some chosen := by
    cases menu with
    | nil => simp [resolve]
    | cons c menu =>
      simp only [resolve, List.isEmpty_cons, Bool.false_eq_true, if_false]
      split
      · next c' hc => rw [hc]; simp
      · next hc => rw [hc]; simp
  rw [hfind]
  constructor
  · intro h
    obtain ⟨i, hi⟩ := List.getElem?_of_mem (List.mem_reverse.mp (List.mem_of_find?_eq_some h))
    have hn : chosen.ref = n := by simpa using List.find?_some h
    exact ⟨i, hi, by rw [← hn, hmenu i chosen hi]⟩
  · rintro ⟨i, hi, rfl⟩
    have hmem : chosen ∈ menu.reverse := List.mem_reverse.mpr (List.mem_of_getElem? hi)
    have hsome : (menu.reverse.find? (fun c => c.ref == (i : Int) + 1)).isSome = true := by
      rw [List.find?_isSome]
      exact ⟨chosen, hmem, by simp [hmenu i chosen hi]⟩
    obtain ⟨found, hfound⟩ := Option.isSome_iff_exists.mp hsome
    obtain ⟨j, hj⟩ := List.getElem?_of_mem (List.mem_reverse.mp (List.mem_of_find?_eq_some hfound))
    have href : found.ref = (i : Int) + 1 := by simpa using List.find?_some hfound
    -- the numbers are distinct, so the row found is the one at place `i`
    have hij : j = i := by
      have := hmenu j found hj
      omega
    subst hij
    rw [hfound, ← hj, hi]

def Candidate.row (c : Candidate) : Candidate := { c with relations := [] }

@[simp] theorem Candidate.row_ref (c : Candidate) : c.row.ref = c.ref := rfl
@[simp] theorem Candidate.row_caseId (c : Candidate) : c.row.caseId = c.caseId := rfl

/-- **The number the model picks is the row it was shown**: what a number acts
    on is the row of the prompt under that number, and a number that was not in
    the prompt acts on nothing. -/
def PointsAtPrompt (named : String → List Candidate → Option Candidate)
    (prompt menu : List Candidate) : Prop :=
  ∀ (n : Int) (message : String) (risk : Risk),
    (∀ chosen, resolve named menu (some n) message risk = .resolved chosen →
      ∃ shown ∈ prompt, shown.ref = n ∧ shown.row = chosen.row) ∧
    ((∀ shown ∈ prompt, shown.ref ≠ n) →
      ∀ chosen, resolve named menu (some n) message risk ≠ .resolved chosen)

theorem pointsAtPrompt_iff {named : String → List Candidate → Option Candidate}
    {shown menu : List Candidate} {limit : Nat} (hshown : Numbered shown) (hmenu : Numbered menu)
    (hlen : shown.length = menu.length) :
    PointsAtPrompt named (rendered shown limit) menu ↔
      menu.length ≤ limit ∧ shown.map Candidate.row = menu.map Candidate.row := by
  constructor
  · intro h
    -- the number of a row of the menu leads to the row of the prompt at its place
    have hrow : ∀ i, ∀ (hi : i < menu.length), i < limit ∧
        (shown.map Candidate.row)[i]? = some menu[i].row := by
      intro i hi
      have hres : resolve named menu (some ((i : Int) + 1)) "" .read = .resolved menu[i] :=
        (resolve_ref hmenu).mpr ⟨i, List.getElem?_eq_getElem hi, rfl⟩
      obtain ⟨row, hmem, href, hsame⟩ := (h _ "" .read).1 _ hres
      obtain ⟨j, hj⟩ := List.getElem?_of_mem hmem
      obtain ⟨hlimit, hat⟩ : j < limit ∧ shown[j]? = some row := by
        have hlt : j < (shown.take limit).length := (List.getElem?_eq_some_iff.mp hj).1
        rw [List.length_take] at hlt
        have hj' : j < limit := by omega
        exact ⟨hj', by rw [← List.getElem?_take_of_lt hj']; exact hj⟩
      have hij : j = i := by
        have := hshown j row hat
        omega
      subst hij
      exact ⟨hlimit, by rw [List.getElem?_map, hat, Option.map_some, hsame]⟩
    refine ⟨?_, ?_⟩
    · by_contra hlong
      have := (hrow limit (by omega)).1
      omega
    · apply List.ext_getElem?
      intro i
      by_cases hi : i < menu.length
      · rw [(hrow i hi).2, List.getElem?_map, List.getElem?_eq_getElem hi, Option.map_some]
      · rw [List.getElem?_eq_none (by simp; omega), List.getElem?_eq_none (by simp; omega)]
  · rintro ⟨hlimit, hsame⟩
    have hall : rendered shown limit = shown := List.take_of_length_le (by omega)
    have hacts : ∀ n message risk chosen,
        resolve named menu (some n) message risk = .resolved chosen →
          ∃ row ∈ rendered shown limit, row.ref = n ∧ row.row = chosen.row := by
      intro n message risk chosen hres
      obtain ⟨i, hi, rfl⟩ := (resolve_ref hmenu).mp hres
      have hat : (shown.map Candidate.row)[i]? = some chosen.row := by
        rw [hsame, List.getElem?_map, hi, Option.map_some]
      rw [List.getElem?_map, Option.map_eq_some_iff] at hat
      obtain ⟨row, hrow, heq⟩ := hat
      rw [hall]
      exact ⟨row, List.mem_of_getElem? hrow, hshown i row hrow, heq⟩
    intro n message risk
    refine ⟨hacts n message risk, ?_⟩
    intro hunseen chosen hres
    obtain ⟨row, hmem, href, -⟩ := hacts n message risk chosen hres
    exact hunseen row hmem href

/-! ## Orders -/

def listedCases (visible : List CaseFact) : List CaseFact :=
  visible.filter CaseFact.awaiting ++ visible.filter (fun c => !c.awaiting)

theorem sortedByRank_eq (focus : Option Uuid) (visible : List CaseFact) :
    sortedByRank focus visible = visible.filter (CaseFact.inFocus focus) ++
      listedCases (visible.filter (fun c => !c.inFocus focus)) := by
  unfold sortedByRank listedCases
  rw [insertionSort_split (p := CaseFact.inFocus focus)]
  · congr 1
    -- among the rest the rank only tells the waiting ones from the others
    rw [insertionSort_split (p := CaseFact.awaiting)]
    · congr 1
      apply insertionSort_of_all
      intro a ha b hb
      simp only [List.mem_filter, Bool.not_eq_eq_eq_not, Bool.not_true] at ha hb
      simp [CaseFact.rank, ha.1.2, ha.2, hb.1.2, hb.2]
    · intro a ha b hb hpa
      have hfa := (List.mem_filter.mp ha).2
      have hfb := (List.mem_filter.mp hb).2
      simp only [Bool.not_eq_eq_eq_not, Bool.not_true] at hfa hfb
      simp only [CaseFact.rank, hfa, hfb, hpa, if_true, Bool.false_eq_true, if_false]
      split <;> omega
    · intro a ha b hb hpa hpb
      have hfa := (List.mem_filter.mp ha).2
      have hfb := (List.mem_filter.mp hb).2
      simp only [Bool.not_eq_eq_eq_not, Bool.not_true] at hfa hfb
      simp [CaseFact.rank, hfa, hfb, hpa, hpb]
  · intro a _ b _ hpa
    simp [CaseFact.rank, hpa]
  · intro a _ b _ hpa hpb
    simp only [CaseFact.rank, hpa, hpb, if_true, Bool.false_eq_true, if_false]
    split <;> omega

theorem filter_inFocus {cases : List CaseFact} (hids : (cases.map CaseFact.caseId).Nodup)
    (focus : Option Uuid) :
    cases.filter (CaseFact.inFocus focus) = [] ∨
      ∃ c, cases.filter (CaseFact.inFocus focus) = [c] := by
  have hsub : ((cases.filter (CaseFact.inFocus focus)).map CaseFact.caseId).Nodup :=
    hids.sublist (List.filter_sublist.map _)
  match hrows : cases.filter (CaseFact.inFocus focus) with
  | [] => exact .inl rfl
  | [c] => exact .inr ⟨c, rfl⟩
  | c :: d :: rest =>
    have hc := (List.mem_filter.mp (hrows ▸ List.mem_cons_self :
      c ∈ cases.filter (CaseFact.inFocus focus))).2
    have hd := (List.mem_filter.mp (hrows ▸ List.mem_cons_of_mem c List.mem_cons_self :
      d ∈ cases.filter (CaseFact.inFocus focus))).2
    simp only [CaseFact.inFocus, beq_iff_eq] at hc hd
    have hsame : c.caseId = d.caseId := by
      rw [← hd] at hc
      exact Option.some.inj hc
    rw [hrows] at hsub
    simp [hsame] at hsub

theorem filter_listedCases (p : CaseFact → Bool) (visible : List CaseFact) :
    (listedCases visible).filter p = listedCases (visible.filter p) := by
  unfold listedCases
  rw [List.filter_append, List.filter_comm p, List.filter_comm p]

theorem listedCases_singleton (c : CaseFact) : listedCases [c] = [c] := by
  cases h : c.awaiting <;> simp [listedCases, h]

theorem sortedByRank_listed {visible : List CaseFact}
    (hids : (visible.map CaseFact.caseId).Nodup) (focus : Option Uuid) :
    sortedByRank focus visible =
      (listedCases visible).filter (CaseFact.inFocus focus) ++
        (listedCases visible).filter (fun c => !c.inFocus focus) := by
  have hfront : listedCases (visible.filter (CaseFact.inFocus focus)) =
      visible.filter (CaseFact.inFocus focus) := by
    rcases filter_inFocus hids focus with h | ⟨c, h⟩
    · rw [h]
      rfl
    · rw [h, listedCases_singleton]
  rw [sortedByRank_eq, filter_listedCases, filter_listedCases, hfront]

theorem sortedByRank_none (visible : List CaseFact) :
    sortedByRank none visible = listedCases visible := by
  have hnone : ∀ c ∈ visible, c.inFocus none = false := fun _ _ => rfl
  rw [sortedByRank_eq, List.filter_eq_nil_iff.mpr (by simpa using hnone), List.nil_append,
    List.filter_eq_self.mpr (by simpa using hnone)]

theorem inFocus_tail_of_order {visible : List CaseFact}
    (hids : (visible.map CaseFact.caseId).Nodup) {focus : Option Uuid}
    (hsame : (sortedByRank focus visible).map CaseFact.caseId =
      (listedCases visible).map CaseFact.caseId) :
    ∀ c ∈ (listedCases visible).tail, c.inFocus focus = false := by
  rw [sortedByRank_listed hids] at hsame
  have hnodup : ((listedCases visible).map CaseFact.caseId).Nodup :=
    ((List.filter_append_perm CaseFact.awaiting visible).map _).nodup_iff.mpr hids
  cases hlist : listedCases visible with
  | nil => simp
  | cons first rest =>
    rw [hlist] at hsame hnodup
    rw [List.tail_cons]
    intro c hc
    by_contra hin
    rw [Bool.not_eq_false] at hin
    -- some case is in front, and the first one listed has its id
    obtain ⟨d, ds, hfront⟩ := List.exists_cons_of_ne_nil
      (List.ne_nil_of_mem (List.mem_filter.mpr ⟨List.mem_cons_of_mem first hc, hin⟩))
    have hd := (List.mem_filter.mp (hfront ▸ List.mem_cons_self)).2
    rw [hfront] at hsame
    simp only [List.cons_append, List.map_cons, List.cons.injEq] at hsame
    simp only [CaseFact.inFocus, beq_iff_eq] at hin hd
    have hsecond : first.caseId = c.caseId := by
      rw [← hsame.1]
      exact Option.some.inj (hd.trans hin.symm)
    rw [List.map_cons, List.nodup_cons, hsecond] at hnodup
    exact hnodup.1 (List.mem_map_of_mem hc)

theorem sortedByRank_of_tail {visible : List CaseFact}
    (hids : (visible.map CaseFact.caseId).Nodup) {focus : Option Uuid}
    (htail : ∀ c ∈ (listedCases visible).tail, c.inFocus focus = false) :
    sortedByRank focus visible = listedCases visible := by
  rw [sortedByRank_listed hids]
  cases hlist : listedCases visible with
  | nil => rfl
  | cons first rest =>
    rw [hlist, List.tail_cons] at htail
    have hnone : rest.filter (CaseFact.inFocus focus) = [] :=
      List.filter_eq_nil_iff.mpr (fun c hc => by simp [htail c hc])
    have hall : rest.filter (fun c => !c.inFocus focus) = rest :=
      List.filter_eq_self.mpr (fun c hc => by simp [htail c hc])
    cases hfirst : first.inFocus focus <;> simp [hfirst, hnone, hall]

/-! ## The two menus of one turn -/

section

variable (cases : List CaseFact) (drafts : List DraftFact) (actorId : Uuid) (canDecide : Bool)
  (focus : Option Uuid)

theorem buildMenu_length :
    (buildMenu cases drafts actorId canDecide focus).length =
      (visibleCases cases actorId canDecide).length + drafts.length := by
  simp [buildMenu, sortedByRank, List.length_insertionSort]

theorem buildMenu_row :
    (buildMenu cases drafts actorId canDecide focus).map Candidate.row =
      ((sortedByRank focus (visibleCases cases actorId canDecide)).map
          (fun c ref => (c.candidate none ref).row) ++
        drafts.map (fun d ref => (d.candidate ref).row)).mapIdx (fun i row => row (i + 1)) := by
  unfold buildMenu
  apply List.ext_getElem?
  intro i
  rw [List.getElem?_map, List.getElem?_mapIdx, List.getElem?_mapIdx, List.getElem?_append, List.getElem?_append]
  simp only [List.length_map, List.getElem?_map]
  split
  · simp only [Option.map_map]
    rfl
  · simp only [Option.map_map]
    rfl

theorem buildMenu_caseId :
    (buildMenu cases drafts actorId canDecide focus).map Candidate.caseId =
      (sortedByRank focus (visibleCases cases actorId canDecide)).map (some ·.caseId) ++
        drafts.map (fun _ => none) := by
  unfold buildMenu
  apply List.ext_getElem?
  intro i
  rw [List.getElem?_map, List.getElem?_mapIdx, List.getElem?_append, List.getElem?_append]
  simp only [List.length_map, List.getElem?_map]
  split
  · simp only [Option.map_map]
    rfl
  · simp only [Option.map_map]
    rfl

/-- **Two menus with the same rows**: the one with a case in front shows what
    the one without shows, if and only if that case is not listed behind
    another. -/
theorem buildMenu_row_iff
    (hids : ((visibleCases cases actorId canDecide).map CaseFact.caseId).Nodup) :
    (buildMenu cases drafts actorId canDecide none).map Candidate.row =
        (buildMenu cases drafts actorId canDecide focus).map Candidate.row ↔
      ∀ c ∈ (listedCases (visibleCases cases actorId canDecide)).tail, c.inFocus focus = false := by
  constructor
  · intro hrows
    have hcases := congrArg (List.map Candidate.caseId) hrows
    rw [List.map_map, List.map_map] at hcases
    have hcases : (buildMenu cases drafts actorId canDecide none).map Candidate.caseId =
        (buildMenu cases drafts actorId canDecide focus).map Candidate.caseId := hcases
    rw [buildMenu_caseId, buildMenu_caseId, List.append_cancel_right_eq, sortedByRank_none]
      at hcases
    apply inFocus_tail_of_order hids
    have hinj : Function.Injective (Option.some : Uuid → Option Uuid) := Option.some_injective _
    apply List.map_injective_iff.mpr hinj
    rw [List.map_map, List.map_map]
    exact hcases.symm
  · intro htail
    rw [buildMenu_row, buildMenu_row, sortedByRank_none, sortedByRank_of_tail hids htail]

end

namespace Desk

variable (desk : Desk)

def visible (cases : List CaseFact) : List CaseFact :=
  visibleCases cases desk.context.principalId desk.canDecide

def AllShownInOrder (openConvs : List ConversationView) : Prop :=
  ∀ cases, desk.listCases = some cases →
    (desk.visible cases).length + (openDrafts openConvs).length ≤ 6 ∧
      ∀ c ∈ (listedCases (desk.visible cases)).tail, brokerFocus openConvs ≠ some c.caseId

theorem drafts_length {openConvs : List ConversationView} {drafts : List DraftFact}
    (h : desk.drafts openConvs = .ok drafts) : drafts.length = (openDrafts openConvs).length :=
  mapM_ok_length h

theorem menuFor_ok {cases : List CaseFact} (hlist : desk.listCases = some cases)
    {openConvs : List ConversationView} {focus : Option Uuid} {menu : List Candidate} :
    desk.menuFor openConvs focus = .ok menu ↔
      ∃ drafts, desk.drafts openConvs = .ok drafts ∧
        buildMenu cases drafts desk.context.principalId desk.canDecide focus = menu := by
  simp only [menuFor, hlist, bind_ok, pure, Except.pure, Except.ok.injEq]

/-- **The number the model picks**: on a turn of a conversation without a case,
    the numbers of the prompt are the numbers the broker acts on if and only if
    the menu fits the prompt and the broker's case is listed behind no other. -/
theorem numbering_agrees_iff {conversation : ConversationView}
    {openConvs : List ConversationView} {prompt : List Candidate}
    (hids : ∀ cases, desk.listCases = some cases → (cases.map CaseFact.caseId).Nodup)
    (hnone : conversation.caseId = none)
    (hprompt : desk.promptRows conversation openConvs = .ok prompt) :
    (∃ menu, desk.menuFor openConvs (brokerFocus openConvs) = .ok menu ∧
      PointsAtPrompt desk.named prompt menu) ↔ desk.AllShownInOrder openConvs := by
  unfold promptRows at hprompt
  rw [hnone, bind_ok] at hprompt
  obtain ⟨shown, hshown, hprompt⟩ := hprompt
  obtain rfl : rendered shown 6 = prompt := Except.ok.inj hprompt
  cases hlist : desk.listCases with
  | none =>
    -- no case list: both menus are empty
    have hempty : ∀ focus, desk.menuFor openConvs focus = .ok [] := by
      intro focus
      simp only [menuFor, hlist]
      rfl
    rw [hempty] at hshown
    obtain rfl : [] = shown := Except.ok.inj hshown
    have hright : desk.AllShownInOrder openConvs := by
      intro cases hcases
      rw [hlist] at hcases
      cases hcases
    refine ⟨fun _ => hright, fun _ => ⟨[], hempty _, ?_⟩⟩
    intro n message risk
    refine ⟨?_, ?_⟩ <;> simp [resolve]
  | some cases =>
    obtain ⟨drafts, hdrafts, rfl⟩ := (menuFor_ok desk hlist).mp hshown
    have hvisible : ((desk.visible cases).map CaseFact.caseId).Nodup :=
      (hids cases hlist).sublist (List.filter_sublist.map _)
    have hmenus := @pointsAtPrompt_iff desk.named _ _ 6
      (buildMenu_numbered cases drafts desk.context.principalId desk.canDecide none)
      (buildMenu_numbered cases drafts desk.context.principalId desk.canDecide
        (brokerFocus openConvs)) (by rw [buildMenu_length, buildMenu_length])
    rw [buildMenu_length, desk.drafts_length hdrafts,
      buildMenu_row_iff _ _ _ _ _ hvisible] at hmenus
    constructor
    · rintro ⟨menu, hmenu, hpoints⟩
      obtain ⟨drafts', hdrafts', rfl⟩ := (menuFor_ok desk hlist).mp hmenu
      obtain rfl : drafts = drafts' := Except.ok.inj (hdrafts.symm.trans hdrafts')
      obtain ⟨hfits, htail⟩ := hmenus.mp hpoints
      intro cases' hcases'
      obtain rfl : cases = cases' := Option.some.inj (hlist.symm.trans hcases')
      refine ⟨hfits, ?_⟩
      intro c hc hfocus
      have := htail c hc
      simp [CaseFact.inFocus, hfocus] at this
    · intro hall
      obtain ⟨hfits, htail⟩ := hall cases hlist
      refine ⟨_, (menuFor_ok desk hlist).mpr ⟨drafts, hdrafts, rfl⟩, hmenus.mpr ⟨hfits, ?_⟩⟩
      intro c hc
      have hother : some c.caseId ≠ brokerFocus openConvs := fun h => htail c hc h.symm
      simp [CaseFact.inFocus, hother]

end Desk

/-! ## One desk -/

def chairs : CaseFact :=
  { caseId := { text := "chairs" }, title := "Mua ghế", state := .draft
    createdBy := { text := "an" } }

def laptops : CaseFact :=
  { caseId := { text := "laptops" }, title := "Mua laptop", state := .published
    createdBy := { text := "an" } }

def approverDesk : Desk :=
  { rules := { methods := [] }
    listCases := some [chairs, laptops]
    named := fun _ _ => none
    context := { principalId := { text := "bình" }, scopes := ["approvals.decide"] } }

def blankConversation : ConversationView := { id := { text := "blank" }, state := .collecting }

def caseConversation (c : CaseFact) : ConversationView :=
  { id := { text := "owner" }, state := .caseCreated, caseId := some c.caseId }

/-- The case that waits is in front of both menus. -/
theorem chairs_numbered_alike :
    ∃ menu, approverDesk.menuFor [blankConversation, caseConversation chairs]
        (Desk.brokerFocus [blankConversation, caseConversation chairs]) = .ok menu ∧
      PointsAtPrompt approverDesk.named
        [chairs.candidate none 1, laptops.candidate none 2] menu := by
  apply (@Desk.numbering_agrees_iff approverDesk blankConversation _ _ ?_ rfl ?_).mpr
  · intro cases hcases
    obtain rfl : [chairs, laptops] = cases := Option.some.inj hcases
    decide
  · intro cases hcases
    obtain rfl : [chairs, laptops] = cases := Option.some.inj hcases
    decide
  · decide

/-- The laptops stand second in the prompt and first in the broker's menu, so an
    extension for row 2 goes to the chairs. -/
theorem laptops_taken_for_chairs :
    (approverDesk.promptRows blankConversation [blankConversation, caseConversation laptops] =
        .ok [chairs.candidate none 1, laptops.candidate none 2] ∧
      approverDesk.brokeredTurn { intent := .requestAddendum, targetRef := some 2 }
          blankConversation [blankConversation, caseConversation laptops] "gia hạn" =
        .ok (.acts chairs.caseId)) ∧
    ¬ ∃ menu, approverDesk.menuFor [blankConversation, caseConversation laptops]
        (Desk.brokerFocus [blankConversation, caseConversation laptops]) = .ok menu ∧
      PointsAtPrompt approverDesk.named
        [chairs.candidate none 1, laptops.candidate none 2] menu := by
  refine ⟨⟨by decide, by decide⟩, ?_⟩
  rintro ⟨menu, hmenu, hpoints⟩
  obtain rfl : [laptops.candidate (some laptops.caseId) 1,
      chairs.candidate (some laptops.caseId) 2] = menu :=
    Except.ok.inj (Eq.trans (by decide) hmenu)
  obtain ⟨shown, hmem, href, hrow⟩ :=
    (hpoints 2 "" .mutate).1 (chairs.candidate (some laptops.caseId) 2) (by decide)
  rcases List.mem_cons.mp hmem with rfl | hmem
  · revert href
    decide
  · obtain rfl := List.mem_singleton.mp hmem
    revert hrow
    decide

end DigitalWorker.Conversation
