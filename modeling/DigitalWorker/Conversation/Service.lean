import DigitalWorker.Conversation.Focus
import DigitalWorker.Framework.Machine

/-! # One channel, several conversations

    A person types messages, presses the buttons of a card and picks from a
    list of conversations; each moves the conversations of the channel between
    their states. What the language model reads in a message, what the case
    handlers answer and which ids are drawn are inputs of the model. A call
    that raises stops where it is: every write of the store is a transaction of
    its own and stays.
-/

namespace DigitalWorker.Conversation

open Framework

/-! ## Inputs -/

structure Service where
  rules : ProcurementRules
  casefold : String → String
  parseVndAmounts : String → List Int
  /-- The place of the one label a message names best, by `rank_by_label`. -/
  bestLabel : String → List String → Option Nat

inductive LifecycleReading where
  /-- The case waits for clarifications, and the message is taken as answers. -/
  | clarifies
  | turn (turn : IntakeChatTurn)
  deriving DecidableEq

/-- A message, and what is outside while it is handled. -/
structure Incoming where
  text : String
  /-- The turn of a conversation with a case. -/
  lifecycle : Except Error LifecycleReading
  /-- The turn of the intake. -/
  turn : Except Error IntakeChatTurn
  /-- `rework_guard.assess(context).blocked`. -/
  blocked : Except Error Bool
  /-- The desk `_brokered_turn` works at. -/
  desk : Desk
  createCase : Except Error Uuid
  newId : Uuid

namespace Service

variable (service : Service)

/-! ## Switching -/

def matchConversation (message : String) (candidates : List ConversationView) :
    Option ConversationView :=
  (service.bestLabel message (candidates.map ConversationView.label)).bind (candidates[·]?)

/-- The conversations `_focus` takes out of the way. -/
def inTheWay (target : ConversationView) (openConvs : List ConversationView) :
    List ConversationView :=
  openConvs.filter (fun c => c.id ≠ target.id && c.state.isActive)

def setAside (s : ChannelStore) (c : ConversationView) : ChannelStore :=
  s.setState c.id (if c.hasContent then .parked else .cancelled)

/-- The writes of `_focus`. -/
def focus (target : ConversationView) (openConvs : List ConversationView) (s : ChannelStore) :
    ChannelStore :=
  let s := (inTheWay target openConvs).foldl setAside s
  if target.state = .parked then s.setState target.id .collecting else s.touch target.id

/-- `_focus_from_turn`; `none` when the turn is no switch and no question. -/
def focusFromTurn (turn : IntakeChatTurn) (current : ConversationView)
    (openConvs : List ConversationView) (message : String) (s : ChannelStore) :
    Option ChannelStore :=
  match turn.intent with
  | .checkReadiness | .askKnowledge | .listCases | .listRequests => some s
  | .switchRequest =>
    let candidates := openConvs.filter (fun c => c.id ≠ current.id)
    if candidates.isEmpty then none
    else
      let named := if turn.targetRequest = "" then message else turn.targetRequest
      match service.matchConversation named candidates with
      | none => some s
      | some target => some (focus target openConvs s)
  | _ => none

def resumeParked (s : ChannelStore) : ChannelStore :=
  match s.findParked with
  | none => s
  | some parked => s.setState parked.id .collecting

/-! ## Buttons and picks -/

inductive Button where
  | confirm
  | edit
  deriving DecidableEq

def handleAction (button : Button) (id : Uuid) (createCase : Except Error Uuid)
    (s : ChannelStore) : ChannelStore :=
  match s.get id with
  | none => s
  | some conversation =>
    if conversation.state ≠ .confirming then s
    else match button with
      | .edit => s.setState conversation.id .collecting
      | .confirm =>
        match createCase with
        | .error _ => s
        | .ok caseId => resumeParked (s.setCase conversation.id .caseCreated caseId)

def handlePickCase (id : Uuid) (s : ChannelStore) : ChannelStore :=
  match s.get id with
  | none => s
  | some conversation => focus conversation s.listOpen s

/-! ## Messages -/

def caseConversations (openConvs : List ConversationView) : List ConversationView :=
  openConvs.filter (fun c => c.state = .caseCreated && c.caseId.isSome)

def handledIn (s : ChannelStore) : Option ConversationView :=
  match s.findActive with
  | some active => some active
  | none => (caseConversations s.listOpen).head?

/-- `_try_lifecycle_turn`; `none` when the message is a new purchase request. -/
def tryLifecycleTurn (conversation : ConversationView) (openConvs : List ConversationView)
    (message : Incoming) (s : ChannelStore) : Option ChannelStore :=
  match message.lifecycle with
  | .error _ => some s
  | .ok .clarifies => some s
  | .ok (.turn turn) =>
    match service.focusFromTurn turn conversation openConvs message.text s with
    | some s' => some s'
    | none => if turn.intent = .createRequest then none else some s

def pivots (turn : IntakeChatTurn) (conversation : ConversationView) : Bool :=
  turn.intent == .createRequest && conversation.state.isActive &&
    !blank (text conversation.slots.itemSummary) && turn.goods != "" &&
    service.casefold turn.goods != service.casefold (strip (text conversation.slots.itemSummary))

/-- The draft is parked, and the message goes on in an earlier draft of the
    same goods or in a fresh one. -/
def pivot (turn : IntakeChatTurn) (conversation : ConversationView)
    (openConvs : List ConversationView) (newId : Uuid) (s : ChannelStore) :
    ConversationView × ChannelStore :=
  let s := s.setState conversation.id .parked
  let parked := openConvs.filter (fun c => c.id ≠ conversation.id && c.state = .parked)
  match service.matchConversation (text turn.slots.itemSummary) parked with
  | some resumed => (resumed, s.setState resumed.id .collecting)
  | none => (ChannelStore.created newId, s.create newId)

def mergedSlots (turn : IntakeChatTurn) (conversation : ConversationView) (message : String) :
    IntakeSlots :=
  let merged := conversation.slots.mergedWith turn.slots
  match turn.slots.estimatedValueVnd with
  | none => merged
  | some value =>
    let mentioned := service.parseVndAmounts message
    if some value ≠ conversation.slots.estimatedValueVnd ∧ mentioned ≠ [] ∧ value ∉ mentioned then
      { merged with estimatedValueVnd := none }
    else merged

def settle (turn : IntakeChatTurn) (conversation : ConversationView) (message : String)
    (s : ChannelStore) : ChannelStore :=
  if turn.intent = .cancel then resumeParked (s.setState conversation.id .cancelled)
  else
    let merged := service.mergedSlots turn conversation message
    match missingRequired service.rules merged with
    | .error _ => s
    | .ok missing =>
      s.setSlots conversation.id (if missing.isEmpty then .confirming else .collecting) merged

/-- The intake's part of `handle_message`, from the turn on. -/
def intakeTurn (turn : IntakeChatTurn) (conversation : ConversationView)
    (openConvs : List ConversationView) (message : Incoming) (s : ChannelStore) : ChannelStore :=
  if conversation.state = .confirming ∧ turn.intent = .confirmRequest then
    handleAction .confirm conversation.id message.createCase s
  else if conversation.state = .confirming ∧ turn.intent = .editRequest then
    handleAction .edit conversation.id message.createCase s
  else
    -- `rework_guard`: refused, or not to be told
    let stopped := turn.intent == .createRequest && conversation.state != .caseCreated &&
      message.blocked.toOption != some false
    if stopped then s
    else
      match service.focusFromTurn turn conversation openConvs message.text s with
      | some s' => s'
      | none =>
        match message.desk.brokeredTurn turn conversation openConvs message.text with
        | .ok .declined =>
          if service.pivots turn conversation then
            let (conversation, s) := service.pivot turn conversation openConvs message.newId s
            service.settle turn conversation message.text s
          else service.settle turn conversation message.text s
        | _ => s

def intake (conversation : ConversationView) (openConvs : List ConversationView)
    (message : Incoming) (s : ChannelStore) : ChannelStore :=
  match message.turn with
  | .error _ => s
  | .ok turn => service.intakeTurn turn conversation openConvs message s

def handleMessage (message : Incoming) (s : ChannelStore) : ChannelStore :=
  let openConvs := s.listOpen
  match s.findActive with
  | some active => service.intake active openConvs message s
  | none =>
    let lifecycle := match (caseConversations openConvs).head? with
      | some conversation => service.tryLifecycleTurn conversation openConvs message s
      | none => none
    match lifecycle with
    | some s' => s'
    | none =>
      let conversation := ChannelStore.created message.newId
      service.intake conversation (conversation :: openConvs) message (s.create message.newId)

def Quiet (s : ChannelStore) : Prop := ∀ r ∈ s.rows, r.view.state.isActive = false

variable {s : ChannelStore} {openConvs : List ConversationView} {conversation : ConversationView}

theorem Quiet.onlyActive (h : Quiet s) (id : Uuid) : s.OnlyActive id := by
  intro r hr hactive
  rw [h r hr] at hactive
  cases hactive

theorem quiet_write {id : Uuid} (honly : s.OnlyActive id)
    {f : ConversationView → ConversationView} (hf : ∀ c, (f c).state.isActive = false) :
    Quiet (s.write id f) := by
  intro r hr
  rcases ChannelStore.mem_write.mp hr with ⟨q, _, _, rfl⟩ | ⟨hr, hid⟩
  · exact hf q.view
  · by_contra hactive
    exact hid (honly r hr (by simpa using hactive))

theorem sound_setState (h : s.Sound) {id : Uuid} {state : ConversationState}
    (honly : s.OnlyActive id) (hstate : state ≠ .caseCreated) : (s.setState id state).Sound :=
  h.write honly (fun _ => rfl) (fun _ _ hcreated => absurd hcreated hstate)

theorem sound_touch (h : s.Sound) {id : Uuid} (honly : s.OnlyActive id) :
    (s.touch id).Sound :=
  h.write honly (fun _ => rfl) (fun r hr hcreated => h.filed r hr hcreated)

/-! ## Switching keeps the store sound -/

structure Covers (openConvs : List ConversationView) (s : ChannelStore) : Prop where
  active : ∀ r ∈ s.rows, r.view.state.isActive = true → r.view ∈ openConvs
  stored : ∀ c ∈ openConvs, ∃ r ∈ s.rows, r.view = c

theorem covers_listOpen (h : s.Sound) : Covers s.listOpen s where
  active := fun _ hr hactive => h.mem_listOpen hr hactive
  stored := by
    intro c hc
    obtain ⟨r, hr, hview, _⟩ := ChannelStore.mem_of_listOpen hc
    exact ⟨r, hr, hview⟩

theorem setAside_state (c : ConversationView) :
    (if c.hasContent then ConversationState.parked else .cancelled).isActive = false ∧
      (if c.hasContent then ConversationState.parked else .cancelled) ≠ .caseCreated := by
  cases c.hasContent <;> decide

theorem sound_setAside (h : s.Sound) {c : ConversationView}
    (honly : s.OnlyActive c.id) : (setAside s c).Sound ∧ Quiet (setAside s c) :=
  ⟨sound_setState h honly (setAside_state c).2, quiet_write honly (fun _ => (setAside_state c).1)⟩

theorem sound_setAside_all {cs : List ConversationView} (h : s.Sound)
    (hquiet : Quiet s) : (cs.foldl setAside s).Sound ∧ Quiet (cs.foldl setAside s) := by
  induction cs generalizing s with
  | nil => exact ⟨h, hquiet⟩
  | cons c cs ih =>
    obtain ⟨h', hquiet'⟩ := sound_setAside h (hquiet.onlyActive c.id)
    exact ih h' hquiet'

theorem onlyActive_of_inTheWay (h : s.Sound) {target c : ConversationView}
    (hcovers : Covers openConvs s)
    (hc : c ∈ inTheWay target openConvs) : s.OnlyActive c.id := by
  obtain ⟨hmem, hc⟩ := List.mem_filter.mp hc
  simp only [Bool.and_eq_true] at hc
  obtain ⟨r, hr, rfl⟩ := hcovers.stored c hmem
  exact h.onlyActive hr hc.2

theorem onlyActive_of_clear {target : ConversationView}
    (hcovers : Covers openConvs s)
    (hclear : inTheWay target openConvs = []) : s.OnlyActive target.id := by
  intro r hr hactive
  by_contra hne
  have hmem : r.view ∈ inTheWay target openConvs :=
    List.mem_filter.mpr ⟨hcovers.active r hr hactive, by simp [hne, hactive]⟩
  rw [hclear] at hmem
  cases hmem

/-- The store `_focus` has when it comes to the target. -/
def cleared (target : ConversationView) (openConvs : List ConversationView) (s : ChannelStore) :
    ChannelStore :=
  (inTheWay target openConvs).foldl setAside s

theorem focus_eq (target : ConversationView) (openConvs : List ConversationView)
    (s : ChannelStore) :
    focus target openConvs s =
      if target.state = .parked then (cleared target openConvs s).setState target.id .collecting
      else (cleared target openConvs s).touch target.id := rfl

theorem sound_cleared (h : s.Sound) {target : ConversationView}
    (hcovers : Covers openConvs s) :
    (cleared target openConvs s).Sound ∧ (cleared target openConvs s).OnlyActive target.id := by
  unfold cleared
  cases hway : inTheWay target openConvs with
  | nil => exact ⟨h, onlyActive_of_clear hcovers hway⟩
  | cons c cs =>
    -- the first one set aside was the active one; nothing else is
    have honly : s.OnlyActive c.id :=
      onlyActive_of_inTheWay h hcovers (by rw [hway]; exact List.mem_cons_self)
    obtain ⟨h', hquiet'⟩ := sound_setAside h honly
    obtain ⟨h'', hquiet''⟩ := @sound_setAside_all _ cs h' hquiet'
    exact ⟨h'', hquiet''.onlyActive target.id⟩

theorem sound_focus (h : s.Sound) {target : ConversationView}
    (hcovers : Covers openConvs s) :
    (focus target openConvs s).Sound := by
  obtain ⟨h', honly⟩ := @sound_cleared s openConvs h target hcovers
  rw [focus_eq]
  split
  · exact sound_setState h' honly (by decide)
  · exact sound_touch h' honly

/-! ## Every handler keeps the store sound -/

theorem sound_resumeParked (h : s.Sound) (hquiet : Quiet s) :
    (resumeParked s).Sound := by
  unfold resumeParked
  split
  · exact h
  · next parked _ => exact sound_setState h (hquiet.onlyActive parked.id) (by decide)

theorem sound_handleAction (h : s.Sound) (button : Button) (id : Uuid)
    (createCase : Except Error Uuid) : (handleAction button id createCase s).Sound := by
  unfold handleAction
  split
  · exact h
  · next c hget =>
    obtain ⟨r, hr, rfl, -⟩ := ChannelStore.mem_of_get hget
    split
    · exact h
    · next hstate =>
      -- the conversation waits for its confirmation, so it is the active one
      have hactive : r.view.state.isActive = true := by
        rw [Classical.not_not.mp hstate]
        rfl
      have honly := h.onlyActive hr hactive
      cases button with
      | edit => exact sound_setState h honly (by decide)
      | confirm =>
        cases createCase with
        | error _ => exact h
        | ok caseId =>
          have h' : (s.setCase r.view.id .caseCreated caseId).Sound :=
            h.write honly (fun _ => rfl) (fun _ _ _ => rfl)
          exact sound_resumeParked h' (quiet_write honly (fun _ => rfl))

variable (service : Service)

theorem sound_settle (h : s.Sound)
    (honly : s.OnlyActive conversation.id) (turn : IntakeChatTurn) (message : String) :
    (service.settle turn conversation message s).Sound := by
  unfold settle
  split
  · exact sound_resumeParked (sound_setState h honly (by decide))
      (quiet_write honly (fun _ => rfl))
  · simp only
    split
    · exact h
    · next missing _ =>
      refine h.write honly (fun _ => rfl) ?_
      intro r _ hcreated
      cases hempty : missing.isEmpty <;> simp [hempty] at hcreated

def Fresh (id : Uuid) (s : ChannelStore) : Prop := ∀ r ∈ s.rows, r.view.id ≠ id

theorem fresh_setState {newId : Uuid} (h : Fresh newId s) (id : Uuid)
    (state : ConversationState) : Fresh newId (s.setState id state) := by
  intro r hr
  rcases ChannelStore.mem_write.mp hr with ⟨q, hq, _, rfl⟩ | ⟨hr, _⟩
  · exact h q hq
  · exact h r hr

theorem sound_pivot (h : s.Sound)
    (honly : s.OnlyActive conversation.id) {newId : Uuid} (hfresh : Fresh newId s)
    (turn : IntakeChatTurn) (openConvs : List ConversationView) :
    (service.pivot turn conversation openConvs newId s).2.Sound ∧
      (service.pivot turn conversation openConvs newId s).2.OnlyActive
        (service.pivot turn conversation openConvs newId s).1.id := by
  have hparked : (s.setState conversation.id .parked).Sound := sound_setState h honly (by decide)
  have hquiet : Quiet (s.setState conversation.id .parked) := quiet_write honly (fun _ => rfl)
  unfold pivot
  simp only
  split
  · next resumed _ =>
    exact ⟨sound_setState hparked (hquiet.onlyActive _) (by decide),
      ChannelStore.onlyActive_write (hquiet.onlyActive resumed.id) (fun _ => rfl)⟩
  · exact ⟨hparked.create hquiet (fresh_setState hfresh _ _),
      ChannelStore.onlyActive_create hquiet⟩

theorem sound_focusFromTurn {s s' : ChannelStore} (h : s.Sound)
    (hcovers : Covers openConvs s) {turn : IntakeChatTurn} {current : ConversationView}
    {message : String} (hfocus : service.focusFromTurn turn current openConvs message s = some s') :
    s'.Sound := by
  unfold focusFromTurn at hfocus
  split at hfocus
  iterate 4
    obtain rfl := Option.some.inj hfocus
    exact h
  · simp only at hfocus
    split at hfocus
    · cases hfocus
    · split at hfocus
      · obtain rfl := Option.some.inj hfocus
        exact h
      · obtain rfl := Option.some.inj hfocus
        exact sound_focus h hcovers
  · cases hfocus

theorem sound_intakeTurn (h : s.Sound)
    (honly : s.OnlyActive conversation.id)
    (hcovers : Covers openConvs s) {message : Incoming} {turn : IntakeChatTurn}
    (hfresh : service.pivots turn conversation = true → Fresh message.newId s) :
    (service.intakeTurn turn conversation openConvs message s).Sound := by
  unfold intakeTurn
  split
  · exact sound_handleAction h _ _ _
  split
  · exact sound_handleAction h _ _ _
  simp only
  split
  · exact h
  split
  · next s' hfocus => exact service.sound_focusFromTurn h hcovers hfocus
  split
  · split
    · next hpivots =>
      obtain ⟨h', honly'⟩ := service.sound_pivot h honly (hfresh hpivots) turn openConvs
      exact service.sound_settle h' honly' turn message.text
    · exact service.sound_settle h honly turn message.text
  · exact h

theorem sound_intake (h : s.Sound)
    (honly : s.OnlyActive conversation.id)
    (hcovers : Covers openConvs s) {message : Incoming}
    (hfresh : ∀ turn, service.pivots turn conversation = true → Fresh message.newId s) :
    (service.intake conversation openConvs message s).Sound := by
  unfold intake
  split
  · exact h
  · next turn _ => exact service.sound_intakeTurn h honly hcovers (hfresh turn)

theorem pivots_created (turn : IntakeChatTurn) (newId : Uuid) :
    service.pivots turn (ChannelStore.created newId) = false := by
  simp [pivots, ChannelStore.created, text]

theorem sound_handleMessage (h : s.Sound) {message : Incoming}
    (hfresh : Fresh message.newId s) : (service.handleMessage message s).Sound := by
  unfold handleMessage
  simp only
  have hcovers := covers_listOpen h
  split
  · next active hactive =>
    obtain ⟨r, hr, rfl, hr'⟩ := ChannelStore.mem_of_findActive hactive
    exact service.sound_intake h (h.onlyActive hr hr') hcovers (fun _ _ => hfresh)
  · next hnone =>
    have hquiet := ChannelStore.quiet_of_findActive hnone
    split
    · next s' hlifecycle =>
      split at hlifecycle
      · next conversation _ =>
        unfold tryLifecycleTurn at hlifecycle
        split at hlifecycle
        · obtain rfl := Option.some.inj hlifecycle
          exact h
        · obtain rfl := Option.some.inj hlifecycle
          exact h
        · split at hlifecycle
          · next hfocus =>
            obtain rfl := Option.some.inj hlifecycle
            exact service.sound_focusFromTurn h hcovers hfocus
          · split at hlifecycle
            · cases hlifecycle
            · obtain rfl := Option.some.inj hlifecycle
              exact h
      · cases hlifecycle
    · have hcreated := h.create hquiet hfresh
      refine service.sound_intake hcreated (ChannelStore.onlyActive_create hquiet) ⟨?_, ?_⟩ ?_
      · intro r hr hactive
        rcases ChannelStore.mem_create.mp hr with hr | rfl
        · rw [hquiet r hr] at hactive
          cases hactive
        · exact List.mem_cons_self
      · intro c hc
        rcases List.mem_cons.mp hc with rfl | hc
        · exact ⟨_, ChannelStore.mem_create.mpr (.inr rfl), rfl⟩
        · obtain ⟨r, hr, hview⟩ := hcovers.stored c hc
          exact ⟨r, ChannelStore.mem_create.mpr (.inl hr), hview⟩
      · intro turn hpivots
        rw [pivots_created] at hpivots
        cases hpivots

/-! ## Where the next message is read -/

theorem open_of_handledIn {c : ConversationView} (h : handledIn s = some c) :
    ∃ r ∈ s.rows, r.view = c ∧ r.view.state.isOpen = true := by
  unfold handledIn at h
  split at h
  · next active hactive =>
    obtain rfl := Option.some.inj h
    obtain ⟨r, hr, hview, hr'⟩ := ChannelStore.mem_of_findActive hactive
    refine ⟨r, hr, hview, ?_⟩
    revert hr'
    cases r.view.state <;> decide
  · exact ChannelStore.mem_of_listOpen (List.mem_of_mem_filter (List.mem_of_mem_head? h))

theorem handledIn_of_active (h : s.Sound) {r : ConversationRow}
    (hr : r ∈ s.rows) (hactive : r.view.state.isActive = true) : handledIn s = some r.view := by
  unfold handledIn
  rw [h.findActive hr hactive]

theorem handledIn_of_latest (h : s.Sound) (hquiet : Quiet s)
    {r : ConversationRow} (hr : r ∈ s.rows) (hstate : r.view.state = .caseCreated)
    (hlatest : ∀ q ∈ s.rows, q ≠ r → q.updatedAt < r.updatedAt) :
    handledIn s = some r.view := by
  have hnone : s.findActive = none := by
    cases hactive : s.findActive with
    | none => rfl
    | some c =>
      obtain ⟨q, hq, _, hq'⟩ := ChannelStore.mem_of_findActive hactive
      rw [hquiet q hq] at hq'
      cases hq'
  have hhead := ChannelStore.listOpen_head? hr (by rw [hstate]; rfl) hlatest
  have hcase : (decide (r.view.state = .caseCreated) && r.view.caseId.isSome) = true := by
    simp [hstate, h.filed r hr hstate]
  unfold handledIn caseConversations
  rw [hnone]
  cases hopen : s.listOpen with
  | nil =>
    rw [hopen] at hhead
    cases hhead
  | cons c rest =>
    rw [hopen, List.head?_cons] at hhead
    obtain rfl := Option.some.inj hhead
    simp only [List.filter_cons, hcase, if_true, List.head?_cons]

theorem mem_cleared {target : ConversationRow} (hr : target ∈ s.rows)
    (openConvs : List ConversationView) :
    target ∈ (cleared target.view openConvs s).rows := by
  have hfold : ∀ (cs : List ConversationView) (s : ChannelStore), target ∈ s.rows →
      (∀ c ∈ cs, c.id ≠ target.view.id) → target ∈ (cs.foldl setAside s).rows := by
    intro cs
    induction cs with
    | nil => exact fun s hr _ => hr
    | cons c cs ih =>
      intro s hr hne
      apply ih
      · exact ChannelStore.mem_write.mpr (.inr ⟨hr, Ne.symm (hne c List.mem_cons_self)⟩)
      · exact fun c' hc' => hne c' (List.mem_cons_of_mem c hc')
  apply hfold _ s hr
  intro c hc
  have hway := (List.mem_filter.mp hc).2
  simp only [ne_eq, decide_not, Bool.and_eq_true, Bool.not_eq_eq_eq_not, Bool.not_true,
    decide_eq_false_iff_not] at hway
  exact hway.1

/-- **A switch is followed** by the next message, unless its target is
    cancelled. -/
theorem focus_followed_iff (h : s.Sound) {target : ConversationRow}
    (hr : target ∈ s.rows) (hcovers : Covers openConvs s) :
    (handledIn (focus target.view openConvs s)).map ConversationView.id = some target.view.id ↔
      target.view.state ≠ .cancelled := by
  obtain ⟨hclear, honly⟩ := @sound_cleared s openConvs h target.view hcovers
  have hsound := @sound_focus s openConvs h target.view hcovers
  have hmem := mem_cleared hr openConvs
  rw [focus_eq] at hsound ⊢
  by_cases hparked : target.view.state = .parked
  · -- it becomes the active one
    rw [if_pos hparked] at hsound ⊢
    rw [handledIn_of_active hsound (ChannelStore.written_mem hmem _) rfl]
    simp [hparked, ChannelStore.written]
  · rw [if_neg hparked] at hsound ⊢
    have htouched := ChannelStore.written_mem hmem (fun c => c)
    by_cases hcancelled : target.view.state = .cancelled
    · -- a cancelled conversation is touched, and stays closed
      have hclosed : ∀ c, handledIn ((cleared target.view openConvs s).touch target.view.id) =
          some c → c.id ≠ target.view.id := by
        intro c hc hid
        obtain ⟨q, hq, rfl, hopen⟩ := open_of_handledIn hc
        rw [hsound.eq_of_id hq htouched hid] at hopen
        simp [ChannelStore.written, hcancelled, ConversationState.isOpen] at hopen
      constructor
      · intro hread
        obtain ⟨c, hc, hid⟩ := Option.map_eq_some_iff.mp hread
        exact absurd hid (hclosed c hc)
      · intro h
        exact absurd hcancelled h
    · refine ⟨fun _ => hcancelled, fun _ => ?_⟩
      by_cases hactive : target.view.state.isActive = true
      · rw [handledIn_of_active hsound htouched hactive]
        rfl
      · -- a case: nothing is active, and it was touched last
        have hstate : target.view.state = .caseCreated := by
          revert hparked hcancelled hactive
          cases target.view.state <;> decide
        have hquiet : Quiet ((cleared target.view openConvs s).touch target.view.id) := by
          intro q hq
          by_contra hq'
          rw [Bool.not_eq_false] at hq'
          have hid : q.view.id = target.view.id :=
            ChannelStore.onlyActive_write honly (fun _ => rfl) q hq hq'
          rw [hsound.eq_of_id hq htouched hid] at hq'
          exact hactive hq'
        rw [handledIn_of_latest hsound hquiet htouched hstate (hclear.written_latest hmem _)]
        rfl

/-! ## Runs -/

inductive ChatAction where
  | message (message : Incoming)
  | button (button : Button) (id : Uuid) (createCase : Except Error Uuid)
  | pick (id : Uuid)

def chat : Machine ChannelStore ChatAction where
  init s := s.rows = []
  step s a :=
    match a with
    | .message message =>
      if ∀ r ∈ s.rows, r.view.id ≠ message.newId then some (service.handleMessage message s)
      else none
    | .button button id createCase => some (handleAction button id createCase s)
    | .pick id => some (handlePickCase id s)

theorem sound_step {s s' : ChannelStore} {a : ChatAction} (h : s.Sound)
    (hs : service.chat.step s a = some s') : s'.Sound := by
  cases a with
  | message message =>
    simp only [chat, Option.ite_none_right_eq_some, Option.some.injEq] at hs
    obtain ⟨hfresh, rfl⟩ := hs
    exact service.sound_handleMessage h hfresh
  | button button id createCase =>
    obtain rfl := Option.some.inj hs
    exact sound_handleAction h button id createCase
  | pick id =>
    obtain rfl := Option.some.inj hs
    unfold handlePickCase
    split
    · exact h
    · exact sound_focus h (covers_listOpen h)

theorem sound_init (s : ChannelStore) (h : s.rows = []) : s.Sound where
  ids := by simp [h]
  past := by simp [h]
  recent := by simp [h]
  filed := by simp [h]

def AtMostOneActive (s : ChannelStore) : Prop :=
  (s.rows.filter (fun r => r.view.state.isActive)).length ≤ 1

def PickFollowed (e : Event ChannelStore ChatAction) : Prop :=
  ∀ id c, e.act = .pick id → e.pre.get id = some c →
    (handledIn e.post).map ConversationView.id = some id

def PicksOpen (e : Event ChannelStore ChatAction) : Prop :=
  ∀ id c, e.act = .pick id → e.pre.get id = some c → c.state ≠ .cancelled

theorem pickFollowed_iff {e : Event ChannelStore ChatAction} (h : e.pre.Sound)
    (hs : service.chat.step e.pre e.act = some e.post) : PickFollowed e ↔ PicksOpen e := by
  -- the event is a pick of a stored conversation, or both sides are empty
  have hpick : ∀ id c, e.act = .pick id → e.pre.get id = some c →
      ((handledIn e.post).map ConversationView.id = some id ↔ c.state ≠ .cancelled) := by
    intro id c hact hget
    rw [hact] at hs
    obtain hpost : handlePickCase id e.pre = e.post := Option.some.inj hs
    obtain ⟨r, hr, rfl, rfl⟩ := ChannelStore.mem_of_get hget
    rw [← hpost]
    unfold handlePickCase
    rw [hget]
    exact focus_followed_iff h hr (covers_listOpen h)
  constructor
  · intro hfollowed id c hact hget
    exact (hpick id c hact hget).mp (hfollowed id c hact hget)
  · intro hopen id c hact hget
    exact (hpick id c hact hget).mpr (hopen id c hact hget)

/-- **One active conversation per channel**: in every run at most one
    conversation is active after every step, and the message after a pick is
    read in what was picked if and only if no cancelled conversation is picked. -/
theorem chat_iff {es : List (Event ChannelStore ChatAction)} {s : ChannelStore}
    (h : Exec service.chat es s) :
    (∀ e ∈ es, AtMostOneActive e.post ∧ PickFollowed e) ↔ ∀ e ∈ es, PicksOpen e := by
  have hevents := h.pre_invariant sound_init (fun _ _ _ => service.sound_step)
  constructor
  · intro hall e he
    obtain ⟨hsound, hs⟩ := hevents e he
    exact (service.pickFollowed_iff hsound hs).mp (hall e he).2
  · intro hopen e he
    obtain ⟨hsound, hs⟩ := hevents e he
    exact ⟨(service.sound_step hsound hs).active_length,
      (service.pickFollowed_iff hsound hs).mpr (hopen e he)⟩

end Service

/-! ## One channel -/

def plainService : Service :=
  { rules := { methods := [] }
    casefold := id
    parseVndAmounts := fun _ => []
    bestLabel := fun message labels => labels.findIdx? (fun label => label = message) }

/-- A message that the model reads as `turn`. -/
def typed (turn : IntakeChatTurn) (newId : Uuid) : Service.ChatAction :=
  .message
    { text := ""
      lifecycle := .ok (.turn turn)
      turn := .ok turn
      blocked := .ok false
      desk := { approverDesk with listCases := none }
      createCase := .ok { text := "case" }
      newId := newId }

def wants (goods : String) : IntakeChatTurn :=
  { intent := .createRequest, slots := { itemSummary := some goods } }

def chairsDraft : Uuid := { text := "d1" }
def laptopDraft : Uuid := { text := "d2" }

def afterChairs : ChannelStore := plainService.chat.next {} (typed (wants "ghế") chairsDraft)
def afterLaptop : ChannelStore :=
  plainService.chat.next afterChairs (typed (wants "laptop") laptopDraft)

def draftEvents : List (Event ChannelStore Service.ChatAction) :=
  [⟨afterChairs, typed (wants "laptop") laptopDraft, afterLaptop⟩,
    ⟨{}, typed (wants "ghế") chairsDraft, afterChairs⟩]

theorem drafts_exec : Exec plainService.chat draftEvents afterLaptop := by
  have hempty : Exec plainService.chat [] {} := .start rfl
  have hchairs := hempty.next (typed (wants "ghế") chairsDraft) (by decide +kernel)
  exact hchairs.next (typed (wants "laptop") laptopDraft) (by decide +kernel)

theorem drafts_open : ∀ e ∈ draftEvents, Service.PicksOpen e := by
  intro e he id c hact
  simp only [draftEvents, typed, List.mem_cons, List.not_mem_nil, or_false] at he
  rcases he with rfl | rfl <;> cases hact

def afterPick : ChannelStore := plainService.chat.next afterLaptop (.pick chairsDraft)

/-- The parked chairs are picked while the laptops are active. -/
theorem pick_resumes_chairs :
    Service.AtMostOneActive afterPick ∧
      Service.PickFollowed ⟨afterLaptop, .pick chairsDraft, afterPick⟩ := by
  have hall : ∀ e ∈ (⟨afterLaptop, .pick chairsDraft, afterPick⟩ :: draftEvents :
      List (Event ChannelStore Service.ChatAction)),
      Service.AtMostOneActive e.post ∧ Service.PickFollowed e := by
    apply (plainService.chat_iff (drafts_exec.next (.pick chairsDraft) rfl)).mpr
    intro e he
    rcases List.mem_cons.mp he with rfl | he
    · intro id c hact hget
      obtain rfl : chairsDraft = id := Service.ChatAction.pick.inj hact
      have hparked : (afterLaptop.get chairsDraft).map ConversationView.state = some .parked := by
        decide +kernel
      rw [hget, Option.map_some] at hparked
      rw [Option.some.inj hparked]
      decide
    · exact drafts_open e he
  exact hall _ List.mem_cons_self

def cancels : Service.ChatAction := typed { intent := .cancel } { text := "d3" }
def afterCancel : ChannelStore := plainService.chat.next afterLaptop cancels
def afterStalePick : ChannelStore := plainService.chat.next afterCancel (.pick laptopDraft)

/-- The cancelled laptops are picked from a list that still shows them: the
    chairs are parked, and the next message is read in neither. -/
theorem pick_of_cancelled_not_followed :
    Service.handledIn afterStalePick = none ∧
    ∃ es, Exec plainService.chat es afterStalePick ∧
      ¬ ∀ e ∈ es, Service.AtMostOneActive e.post ∧ Service.PickFollowed e := by
  have hlost : Service.handledIn afterStalePick = none := by decide +kernel
  have hcancelled := drafts_exec.next cancels (by decide +kernel)
  refine ⟨hlost, _, hcancelled.next (.pick laptopDraft) rfl, ?_⟩
  intro h
  obtain ⟨c, hc⟩ := Option.isSome_iff_exists.mp
    (show (afterCancel.get laptopDraft).isSome = true by decide +kernel)
  have hfollowed := (h _ List.mem_cons_self).2 laptopDraft c rfl hc
  have hlost' : Service.handledIn (plainService.chat.next afterCancel (.pick laptopDraft)) = none :=
    hlost
  rw [show plainService.chat.next afterLaptop cancels = afterCancel from rfl, hlost'] at hfollowed
  cases hfollowed

end DigitalWorker.Conversation
