import DigitalWorker.Framework.StableSort
import DigitalWorker.Preparation.Rules

/-! # Turns and conversations

    The model's reading of one chat message names no conversation and no case, it
    only describes them. One person talks to the worker on one channel about
    several requests: a conversation is one of them, half typed or already a case.
-/

namespace DigitalWorker.Conversation

/-- Everything the chat has collected so far. -/
structure IntakeSlots where
  title : Option String := none
  itemSummary : Option String := none
  quantity : Option Int := none
  estimatedValueVnd : Option Int := none
  deadlineDays : Option Int := none
  deliveryLocation : Option String := none
  purpose : Option String := none
  supplierNames : List String := []
  warrantyMonths : Option Int := none
  osLicense : Option String := none
  paymentTerms : Option String := none
  deriving DecidableEq

/-- `merged_with`: new values win, and no value keeps the old one. -/
def IntakeSlots.mergedWith (s update : IntakeSlots) : IntakeSlots :=
  { title := update.title <|> s.title
    itemSummary := update.itemSummary <|> s.itemSummary
    quantity := update.quantity <|> s.quantity
    estimatedValueVnd := update.estimatedValueVnd <|> s.estimatedValueVnd
    deadlineDays := update.deadlineDays <|> s.deadlineDays
    deliveryLocation := update.deliveryLocation <|> s.deliveryLocation
    purpose := update.purpose <|> s.purpose
    supplierNames := if update.supplierNames.isEmpty then s.supplierNames else update.supplierNames
    warrantyMonths := update.warrantyMonths <|> s.warrantyMonths
    osLicense := update.osLicense <|> s.osLicense
    paymentTerms := update.paymentTerms <|> s.paymentTerms }

/-- `s or ""`. -/
def text (s : Option String) : String := s.getD ""

/-- The labels of `_REQUIRED_LABELS` whose field is `None` or empty. -/
def missingLabels (s : IntakeSlots) : List String :=
  (if text s.itemSummary = "" then ["Hàng hoá/dịch vụ cần mua"] else []) ++
    (if s.quantity.isNone then ["Số lượng"] else []) ++
    (if s.estimatedValueVnd.isNone then ["Ngân sách dự kiến (VND)"] else []) ++
    (if s.deadlineDays.isNone then ["Thời hạn cần hàng (số ngày hoặc ngày cụ thể)"] else []) ++
    (if text s.deliveryLocation = "" then ["Địa điểm giao hàng"] else [])

def missingRequired (rules : ProcurementRules) (s : IntakeSlots) : Except Error (List String) :=
  let missing := missingLabels s
  match s.estimatedValueVnd with
  | some value =>
    if value ≠ 0 then do
      let method ← rules.selectMethod value
      return missing ++
        (if s.supplierNames.length < method.minSuppliers then
          ["Nhà cung cấp dự kiến mời (tối thiểu " ++ toString method.minSuppliers ++
            " cho phương án " ++ method.label ++ ", đang có " ++
            toString s.supplierNames.length ++ ")"]
        else [])
    else
      return missing ++ (if s.supplierNames.isEmpty then ["Nhà cung cấp dự kiến mời"] else [])
  | none =>
    return missing ++ (if s.supplierNames.isEmpty then ["Nhà cung cấp dự kiến mời"] else [])

inductive ChatIntent where
  | createRequest
  | provideInfo
  | askStatus
  | cancel
  | other
  | confirmRequest
  | editRequest
  | switchRequest
  | listRequests
  | listCases
  | askKnowledge
  | checkReadiness
  | amendRequest
  | requestAddendum
  | recordSubmission
  | openBids
  deriving DecidableEq

/-- How wrong it is to act on the wrong case. -/
inductive Risk where
  | read
  | draft
  | mutate
  | approve
  deriving DecidableEq

/-- The risk `spec_for` registers for an intent. -/
def ChatIntent.risk : ChatIntent → Risk
  | .confirmRequest | .amendRequest | .requestAddendum | .recordSubmission => .mutate
  | .openBids => .approve
  | _ => .read

/-- `IntakeChatTurn`, as far as it decides which conversation or case is meant. -/
structure IntakeChatTurn where
  intent : ChatIntent
  slots : IntakeSlots := {}
  targetRequest : String := ""
  targetRef : Option Int := none
  certain : Bool := true
  deriving DecidableEq

def IntakeChatTurn.goods (turn : IntakeChatTurn) : String := strip (text turn.slots.itemSummary)

open Framework

inductive ConversationState where
  | collecting
  | confirming
  | caseCreated
  | cancelled
  | parked
  deriving DecidableEq

/-- `_ACTIVE_STATES`. -/
def ConversationState.isActive : ConversationState → Bool
  | .collecting | .confirming => true
  | _ => false

/-- `_OPEN_STATES`: everything one can still come back to. -/
def ConversationState.isOpen : ConversationState → Bool
  | .cancelled => false
  | _ => true

/-- `ConversationView`, of one tenant, channel and person. -/
structure ConversationView where
  id : Uuid
  state : ConversationState
  slots : IntakeSlots := {}
  caseId : Option Uuid := none
  deriving DecidableEq

namespace ConversationView

variable (c : ConversationView)

/-- `_conv_label`. -/
def label : String :=
  if text c.slots.itemSummary ≠ "" then text c.slots.itemSummary
  else if text c.slots.title ≠ "" then text c.slots.title
  else match c.caseId with
    | some caseId => take caseId.text 8
    | none => "yêu cầu chưa đặt tên"

def hasContent : Bool :=
  c.caseId.isSome || !blank (text c.slots.itemSummary) || !blank (text c.slots.title)

/-- `_conv_status`. -/
def status (rules : ProcurementRules) : Except Error String :=
  if c.state = .caseCreated then return "hồ sơ đã tạo, đang chạy"
  else do
    let missing ← missingRequired rules c.slots
    return if c.state = .confirming then "chờ bạn xác nhận để tạo hồ sơ"
      else if missing.isEmpty then "đã đủ thông tin"
      else "đang khai dở, thiếu " ++ toString missing.length ++ " mục"

end ConversationView

/-! ## The table of one channel -/

/-- A row of `chat_conversations`, of one tenant, channel and person. -/
structure ConversationRow where
  view : ConversationView
  createdAt : Nat
  updatedAt : Nat
  deriving DecidableEq

structure ChannelStore where
  rows : List ConversationRow := []
  clock : Nat := 0
  deriving DecidableEq

namespace ChannelStore

variable (s : ChannelStore)

/-! ### Queries -/

def latestFirst (moment : ConversationRow → Nat) (rows : List ConversationRow) :
    List ConversationRow :=
  rows.insertionSort (fun a b => moment b ≤ moment a)

def get (id : Uuid) : Option ConversationView :=
  (s.rows.find? (fun r => r.view.id = id)).map ConversationRow.view

/-- `find_active`: the one created last. -/
def findActive : Option ConversationView :=
  ((latestFirst ConversationRow.createdAt
    (s.rows.filter (fun r => r.view.state.isActive))).head?).map ConversationRow.view

/-- `find_parked`: the one touched last. -/
def findParked : Option ConversationView :=
  ((latestFirst ConversationRow.updatedAt
    (s.rows.filter (fun r => r.view.state = .parked))).head?).map ConversationRow.view

/-- `list_open`: the eight touched last. -/
def listOpen : List ConversationView :=
  ((latestFirst ConversationRow.updatedAt
    (s.rows.filter (fun r => r.view.state.isOpen))).take 8).map ConversationRow.view

/-! ### Writes -/

def create (id : Uuid) : ChannelStore :=
  { rows := s.rows ++
      [{ view := { id := id, state := .collecting }, createdAt := s.clock, updatedAt := s.clock }]
    clock := s.clock + 1 }

/-- The conversation `create` returns. -/
def created (id : Uuid) : ConversationView := { id := id, state := .collecting }

/-- An `UPDATE … WHERE id = …`; it sets `updated_at` besides what `f` changes. -/
def write (id : Uuid) (f : ConversationView → ConversationView) : ChannelStore :=
  { rows := s.rows.map (fun r =>
      if r.view.id = id then { r with view := f r.view, updatedAt := s.clock } else r)
    clock := s.clock + 1 }

/-- `update` with a state. -/
def setState (id : Uuid) (state : ConversationState) : ChannelStore :=
  s.write id (fun c => { c with state := state })

/-- `update` with a state and slots. -/
def setSlots (id : Uuid) (state : ConversationState) (slots : IntakeSlots) : ChannelStore :=
  s.write id (fun c => { c with state := state, slots := slots })

/-- `update` with a state and a case. -/
def setCase (id : Uuid) (state : ConversationState) (caseId : Uuid) : ChannelStore :=
  s.write id (fun c => { c with state := state, caseId := some caseId })

def touch (id : Uuid) : ChannelStore := s.write id (fun c => c)

/-! ### What a write leaves -/

variable {f : ConversationView → ConversationView} {r : ConversationRow} {id : Uuid}

theorem get_write {s : ChannelStore}
    (hid : ∀ c, (f c).id = c.id) (other : Uuid) :
    (s.write id f).get other = if other = id then (s.get id).map f else s.get other := by
  unfold get write
  rw [List.find?_map, Option.map_map]
  have hpred : ((fun r : ConversationRow => decide (r.view.id = other)) ∘ fun r =>
      if r.view.id = id then { r with view := f r.view, updatedAt := s.clock } else r) =
      fun r => decide (r.view.id = other) := by
    funext r
    by_cases hr : r.view.id = id <;> simp [hr, hid]
  rw [hpred]
  by_cases hother : other = id
  · subst hother
    rw [if_pos rfl, Option.map_map]
    cases hfind : s.rows.find? (fun r => decide (r.view.id = other)) with
    | none => rfl
    | some r =>
      have hr : r.view.id = other := by simpa using List.find?_some hfind
      simp [hr]
  · rw [if_neg hother]
    cases hfind : s.rows.find? (fun r => decide (r.view.id = other)) with
    | none => rfl
    | some r =>
      have hr : r.view.id = other := by simpa using List.find?_some hfind
      simp [hr, hother]

theorem get_create {s : ChannelStore} (hfresh : s.get id = none) (other : Uuid) :
    (s.create id).get other = if other = id then some (created id) else s.get other := by
  unfold get at hfresh ⊢
  rw [create, List.find?_append]
  by_cases hother : other = id
  · subst hother
    rw [if_pos rfl, Option.map_eq_none_iff.mp hfresh]
    simp [created]
  · rw [if_neg hother]
    have hne : ¬ id = other := fun h => hother h.symm
    simp [hne]

theorem mem_create {s : ChannelStore} :
    r ∈ (s.create id).rows ↔ r ∈ s.rows ∨
      r = { view := created id, createdAt := s.clock, updatedAt := s.clock } := by
  simp [create, created]

theorem mem_write {s : ChannelStore} :
    r ∈ (s.write id f).rows ↔
      (∃ q ∈ s.rows, q.view.id = id ∧ r = { q with view := f q.view, updatedAt := s.clock }) ∨
        (r ∈ s.rows ∧ r.view.id ≠ id) := by
  simp only [write, List.mem_map]
  constructor
  · rintro ⟨q, hq, rfl⟩
    by_cases hid : q.view.id = id
    · exact .inl ⟨q, hq, hid, by rw [if_pos hid]⟩
    · rw [if_neg hid]
      exact .inr ⟨hq, hid⟩
  · rintro (⟨q, hq, hid, rfl⟩ | ⟨hr, hid⟩)
    · exact ⟨q, hq, by rw [if_pos hid]⟩
    · exact ⟨r, hr, by rw [if_neg hid]⟩

def written (r : ConversationRow) (f : ConversationView → ConversationView) : ConversationRow :=
  { r with view := f r.view, updatedAt := s.clock }

theorem written_mem {s : ChannelStore} (hr : r ∈ s.rows)
    (f : ConversationView → ConversationView) : s.written r f ∈ (s.write r.view.id f).rows :=
  mem_write.mpr (.inl ⟨r, hr, rfl, rfl⟩)

/-! ## Sound stores -/

/-- Nothing but `id` is active. -/
def OnlyActive (id : Uuid) : Prop := ∀ r ∈ s.rows, r.view.state.isActive = true → r.view.id = id

/-- What every run of the service keeps: an active conversation was touched
    after every other one, and a conversation whose case was created has it. -/
structure Sound : Prop where
  ids : (s.rows.map (·.view.id)).Nodup
  past : ∀ r ∈ s.rows, r.updatedAt < s.clock
  recent : ∀ a ∈ s.rows, a.view.state.isActive = true →
    ∀ r ∈ s.rows, r ≠ a → r.updatedAt < a.updatedAt
  filed : ∀ r ∈ s.rows, r.view.state = .caseCreated → r.view.caseId.isSome = true

namespace Sound

variable {s}

theorem eq_of_id (h : Sound s) {r q : ConversationRow} (hr : r ∈ s.rows) (hq : q ∈ s.rows)
    (hid : r.view.id = q.view.id) : r = q :=
  List.inj_on_of_nodup_map h.ids hr hq hid

theorem single (h : Sound s) {a b : ConversationRow} (ha : a ∈ s.rows) (hb : b ∈ s.rows)
    (hactive : a.view.state.isActive = true) (hactive' : b.view.state.isActive = true) : a = b := by
  by_contra hne
  have h₁ := h.recent a ha hactive b hb (Ne.symm hne)
  have h₂ := h.recent b hb hactive' a ha hne
  omega

theorem onlyActive (h : Sound s) {a : ConversationRow} (ha : a ∈ s.rows)
    (hactive : a.view.state.isActive = true) : s.OnlyActive a.view.id := by
  intro r hr hr'
  rw [h.single hr ha hr' hactive]

theorem active_length (h : Sound s) :
    (s.rows.filter (fun r => r.view.state.isActive)).length ≤ 1 := by
  have hnodup : (s.rows.filter (fun r => r.view.state.isActive)).Nodup :=
    (List.Nodup.of_map _ h.ids).filter _
  match hlist : s.rows.filter (fun r => r.view.state.isActive) with
  | [] => rw [hlist]; simp
  | [a] => rw [hlist]; simp
  | a :: b :: rest =>
    have ha : a ∈ s.rows.filter (fun r => r.view.state.isActive) := by rw [hlist]; simp
    have hb : b ∈ s.rows.filter (fun r => r.view.state.isActive) := by rw [hlist]; simp
    obtain ⟨ha, hactive⟩ := List.mem_filter.mp ha
    obtain ⟨hb, hactive'⟩ := List.mem_filter.mp hb
    rw [hlist, h.single ha hb hactive hactive'] at hnodup
    simp at hnodup

theorem write (h : Sound s) {id : Uuid} (honly : s.OnlyActive id)
    {f : ConversationView → ConversationView} (hid : ∀ c, (f c).id = c.id)
    (hfiled : ∀ r ∈ s.rows, (f r.view).state = .caseCreated → (f r.view).caseId.isSome = true) :
    Sound (s.write id f) where
  ids := by
    have hsame : (s.write id f).rows.map (·.view.id) = s.rows.map (·.view.id) := by
      simp only [ChannelStore.write, List.map_map]
      apply List.map_congr_left
      intro r _
      by_cases hr : r.view.id = id <;> simp [hr, hid]
    rw [hsame]
    exact h.ids
  past := by
    intro r hr
    show r.updatedAt < s.clock + 1
    rcases mem_write.mp hr with ⟨q, _, _, rfl⟩ | ⟨hr, _⟩
    · exact Nat.lt_succ_self _
    · exact Nat.lt_succ_of_lt (h.past r hr)
  recent := by
    intro a ha hactive r hr hne
    -- only the row written can be active, and it was touched just now
    rcases mem_write.mp ha with ⟨q, hq, hqid, rfl⟩ | ⟨ha, haid⟩
    · rcases mem_write.mp hr with ⟨q', hq', hqid', rfl⟩ | ⟨hr, _⟩
      · exact absurd (by rw [h.eq_of_id hq' hq (hqid'.trans hqid.symm)]) hne
      · exact h.past r hr
    · exact absurd (honly a ha hactive) haid
  filed := by
    intro r hr hstate
    rcases mem_write.mp hr with ⟨q, hq, _, rfl⟩ | ⟨hr, _⟩
    · exact hfiled q hq hstate
    · exact h.filed r hr hstate

end Sound

theorem Sound.written_latest {s : ChannelStore} (h : Sound s)
    (hr : r ∈ s.rows) (f : ConversationView → ConversationView) :
    ∀ q ∈ (s.write r.view.id f).rows, q ≠ s.written r f →
      q.updatedAt < (s.written r f).updatedAt := by
  intro q hq hne
  rcases mem_write.mp hq with ⟨p, hp, hid, rfl⟩ | ⟨hq, _⟩
  · exact absurd (by rw [h.eq_of_id hp hr hid]; rfl) hne
  · exact h.past q hq

theorem onlyActive_write {s : ChannelStore} (honly : s.OnlyActive id)
    (hid : ∀ c, (f c).id = c.id) :
    (s.write id f).OnlyActive id := by
  intro r hr hactive
  rcases mem_write.mp hr with ⟨q, _, hqid, rfl⟩ | ⟨hr, hrid⟩
  · exact (hid q.view).trans hqid
  · exact absurd (honly r hr hactive) hrid

theorem Sound.create {s : ChannelStore} (h : Sound s)
    (hquiet : ∀ r ∈ s.rows, r.view.state.isActive = false)
    (hfresh : ∀ r ∈ s.rows, r.view.id ≠ id) : Sound (s.create id) where
  ids := by
    simp only [ChannelStore.create, List.map_append, List.nodup_append, List.map_cons,
      List.map_nil]
    refine ⟨h.ids, by simp, ?_⟩
    intro i hi j hj
    obtain ⟨r, hr, rfl⟩ := List.mem_map.mp hi
    rw [List.mem_singleton.mp hj]
    exact hfresh r hr
  past := by
    intro r hr
    show r.updatedAt < s.clock + 1
    rcases mem_create.mp hr with hr | rfl
    · exact Nat.lt_succ_of_lt (h.past r hr)
    · exact Nat.lt_succ_self _
  recent := by
    intro a ha hactive r hr hne
    rcases mem_create.mp ha with ha | rfl
    · rw [hquiet a ha] at hactive
      cases hactive
    · rcases mem_create.mp hr with hr | rfl
      · exact h.past r hr
      · exact absurd rfl hne
  filed := by
    intro r hr hstate
    rcases mem_create.mp hr with hr | rfl
    · exact h.filed r hr hstate
    · cases hstate

theorem onlyActive_create {s : ChannelStore}
    (hquiet : ∀ r ∈ s.rows, r.view.state.isActive = false) : (s.create id).OnlyActive id := by
  intro r hr hactive
  rcases mem_create.mp hr with hr | rfl
  · rw [hquiet r hr] at hactive
    cases hactive
  · rfl

/-! ## What the queries find -/

theorem mem_of_findActive {s : ChannelStore} {c : ConversationView} (h : s.findActive = some c) :
    ∃ r ∈ s.rows, r.view = c ∧ r.view.state.isActive = true := by
  unfold findActive latestFirst at h
  obtain ⟨r, hr, rfl⟩ := Option.map_eq_some_iff.mp h
  have hmem := (List.mem_insertionSort _).mp (List.mem_of_mem_head? hr)
  exact ⟨r, (List.mem_filter.mp hmem).1, rfl, (List.mem_filter.mp hmem).2⟩

theorem mem_of_listOpen {s : ChannelStore} {c : ConversationView} (h : c ∈ s.listOpen) :
    ∃ r ∈ s.rows, r.view = c ∧ r.view.state.isOpen = true := by
  unfold listOpen latestFirst at h
  obtain ⟨r, hr, rfl⟩ := List.mem_map.mp h
  have hmem := (List.mem_insertionSort _).mp (List.mem_of_mem_take hr)
  exact ⟨r, (List.mem_filter.mp hmem).1, rfl, (List.mem_filter.mp hmem).2⟩

theorem mem_of_get {s : ChannelStore} {c : ConversationView} (h : s.get id = some c) :
    ∃ r ∈ s.rows, r.view = c ∧ c.id = id := by
  obtain ⟨r, hr, rfl⟩ := Option.map_eq_some_iff.mp h
  exact ⟨r, List.mem_of_find?_eq_some hr, rfl, by simpa using List.find?_some hr⟩

theorem quiet_of_findActive {s : ChannelStore} (h : s.findActive = none) :
    ∀ r ∈ s.rows, r.view.state.isActive = false := by
  intro r hr
  by_contra hactive
  rw [Bool.not_eq_false] at hactive
  unfold findActive latestFirst at h
  rw [Option.map_eq_none_iff, List.head?_eq_none_iff] at h
  have hmem : r ∈ (s.rows.filter (fun r => r.view.state.isActive)).insertionSort
      (fun a b => b.createdAt ≤ a.createdAt) :=
    (List.mem_insertionSort _).mpr (List.mem_filter.mpr ⟨hr, hactive⟩)
  rw [h] at hmem
  cases hmem

theorem Sound.findActive {s : ChannelStore} (h : Sound s) {a : ConversationRow} (ha : a ∈ s.rows)
    (hactive : a.view.state.isActive = true) : s.findActive = some a.view := by
  cases hfound : s.findActive with
  | none =>
    rw [quiet_of_findActive hfound a ha] at hactive
    cases hactive
  | some c =>
    obtain ⟨r, hr, rfl, hr'⟩ := mem_of_findActive hfound
    rw [h.single ha hr hactive hr']

theorem listOpen_head? {s : ChannelStore} (hr : r ∈ s.rows)
    (hopen : r.view.state.isOpen = true)
    (hlatest : ∀ q ∈ s.rows, q ≠ r → q.updatedAt < r.updatedAt) :
    s.listOpen.head? = some r.view := by
  have hfirst : (latestFirst ConversationRow.updatedAt
      (s.rows.filter (fun r => r.view.state.isOpen))).head? = some r := by
    have htotal : Std.Total (fun a b : ConversationRow => b.updatedAt ≤ a.updatedAt) :=
      ⟨fun a b => Nat.le_total b.updatedAt a.updatedAt⟩
    have htrans : IsTrans ConversationRow (fun a b => b.updatedAt ≤ a.updatedAt) :=
      ⟨fun a b c hab hbc => Nat.le_trans hbc hab⟩
    apply insertionSort_head? (List.mem_filter.mpr ⟨hr, hopen⟩)
    intro q hq hne
    have := hlatest q (List.mem_filter.mp hq).1 hne
    omega
  unfold listOpen
  rw [List.head?_map, List.head?_take, if_neg (by decide), hfirst, Option.map_some]

theorem Sound.mem_listOpen {s : ChannelStore} (h : Sound s) {a : ConversationRow}
    (ha : a ∈ s.rows) (hactive : a.view.state.isActive = true) : a.view ∈ s.listOpen := by
  have hopen : a.view.state.isOpen = true := by
    revert hactive
    cases a.view.state <;> decide
  exact List.mem_of_mem_head? (listOpen_head? ha hopen (h.recent a ha hactive))

end ChannelStore

end DigitalWorker.Conversation
