import DigitalWorker.Framework.Machine
import DigitalWorker.Kernel.Json
import DigitalWorker.Kernel.Resilience

/-! # The request every provider makes

    A provider sends one request and reads its body as JSON. Its breaker is told of
    the outcome in two places: of the round trip by the request, of a body that
    cannot be read by the reading. The calls of one provider are a machine over
    what its breaker remembers.
-/

namespace DigitalWorker.Knowledge

open Framework

/-- How a round trip ends: with the error of the transport, or with a status and
    the JSON of the body, `none` where the body is not valid JSON. -/
inductive RoundTrip where
  | httpError (error : String)
  | response (status : Nat) (body : Option Json)

inductive SearchError where
  | circuitOpen (e : Error)
  | auth (e : Error)
  | quota (e : Error)
  | provider (e : Error)

/-- `SearchProviderError(message, details=…)` and its subclasses. -/
def searchError (provider message : String) (details : List (String × String)) : Error :=
  { kind := .infrastructure, message := provider ++ message
    details := ("provider", provider) :: details }

def exhaustedStatus (status : Nat) : Bool := status = 403 || status = 429

def authStatus (status : Nat) : Bool := status = 401

/-- `response.is_success`: otherwise `raise_for_status` raises. -/
def isSuccess (status : Nat) : Bool := 200 ≤ status && status ≤ 299

section

variable (b : CircuitBreaker) (provider : String)

/-- `request`, of a provider with a breaker: what the breaker remembers then, and
    the body that came back. -/
def request (s : BreakerStatus) (asked answered : DateTime) (trip : RoundTrip) :
    BreakerStatus × Except SearchError (Option Json) :=
  match b.beforeCall s asked with
  | .error e => (s, .error (.circuitOpen e))
  | .ok s =>
    match trip with
    | .httpError error =>
      (b.recordFailure s answered,
        .error (.provider (searchError provider ": không gọi được" [("error", error)])))
    | .response status body =>
      if isSuccess status then (CircuitBreaker.recordSuccess s, .ok body)
      else if authStatus status then
        (s, .error (.auth (searchError provider
          ": khoá bị từ chối — kiểm tra lại khoá trong .env" [("status", toString status)])))
      else if exhaustedStatus status then
        (s, .error (.quota (searchError provider
          ": hết lượt hoặc key bị từ chối" [("status", toString status)])))
      else
        (b.recordFailure s answered,
          .error (.provider (searchError provider
            ": máy chủ tìm kiếm trả lỗi" [("status", toString status)])))

def jsonBody (s : BreakerStatus) (answered : DateTime) (body : Option Json) :
    BreakerStatus × Except SearchError Json :=
  match body with
  | some json => (s, .ok json)
  | none =>
    (b.recordFailure s answered,
      .error (.provider (searchError provider ": phản hồi không phải JSON hợp lệ" [])))

structure ProviderCall where
  asked : DateTime
  answered : DateTime
  trip : RoundTrip

def searchCall (s : BreakerStatus) (call : ProviderCall) :
    BreakerStatus × Except SearchError Json :=
  match request b provider s call.asked call.answered call.trip with
  | (s, .error e) => (s, .error e)
  | (s, .ok body) => jsonBody b provider s call.answered body

def providerCalls : Machine BreakerStatus ProviderCall where
  init s := s = {}
  step s call := some (searchCall b provider s call).1

end

/-! ## What an answer is -/

namespace RoundTrip

def unwell : RoundTrip → Bool
  | .httpError _ => true
  | .response status _ => 500 ≤ status && status ≤ 599

def unreadable : RoundTrip → Bool
  | .httpError _ => false
  | .response status body => isSuccess status && body.isNone

def served : RoundTrip → Bool
  | .httpError _ => false
  | .response status body => isSuccess status && body.isSome

def rejected : RoundTrip → Bool
  | .httpError _ => false
  | .response status _ => authStatus status || exhaustedStatus status

def fails (trip : RoundTrip) : Bool := trip.unwell || trip.unreadable

def recorded (trip : RoundTrip) : Bool := !trip.served && !trip.rejected

end RoundTrip

section

variable (b : CircuitBreaker)

def sent (e : Event BreakerStatus ProviderCall) : Bool :=
  (b.beforeCall e.pre e.act.asked).toBool

def answeredBy (kind : RoundTrip → Bool) (e : Event BreakerStatus ProviderCall) : Bool :=
  sent b e && kind e.act.trip

structure Notices (es : List (Event BreakerStatus ProviderCall))
    (e : Event BreakerStatus ProviderCall) : Prop where
  /-- Failures of the service, as many as the threshold since the last successful
      answer, leave the breaker open. -/
  opens : answeredBy b RoundTrip.fails e = true →
    b.failureThreshold ≤ countSince (answeredBy b RoundTrip.fails)
      (answeredBy b RoundTrip.served) (e :: es) → e.post.state = .opened
  /-- A rejection is not counted, and does not start the count again. -/
  ignores : answeredBy b RoundTrip.rejected e = true →
    e.post.consecutiveFailures = e.pre.consecutiveFailures

def Steady (es : List (Event BreakerStatus ProviderCall))
    (e : Event BreakerStatus ProviderCall) : Prop :=
  answeredBy b RoundTrip.fails e = true →
    b.failureThreshold ≤ countSince (answeredBy b RoundTrip.fails)
      (answeredBy b RoundTrip.served) (e :: es) →
    b.failureThreshold ≤ countSince (answeredBy b RoundTrip.recorded)
      (answeredBy b (fun trip => trip.served || trip.unreadable)) (e :: es)

end

/-! ## What the breaker remembers after a call -/

section

variable {b : CircuitBreaker} {provider : String} {s s₁ : BreakerStatus} {call : ProviderCall}

theorem searchCall_refused {e : Error} (h : b.beforeCall s call.asked = .error e) :
    (searchCall b provider s call).1 = s := by
  simp [searchCall, request, h]

/-- **The outcome of a call that was sent**, for each kind of answer. -/
theorem searchCall_sent (h : b.beforeCall s call.asked = .ok s₁) :
    (searchCall b provider s call).1 =
      if call.trip.served then CircuitBreaker.recordSuccess s₁
      else if call.trip.unreadable then
        b.recordFailure (CircuitBreaker.recordSuccess s₁) call.answered
      else if call.trip.rejected then s₁
      else b.recordFailure s₁ call.answered := by
  simp only [searchCall, request, h]
  cases call.trip with
  | httpError error => simp [RoundTrip.served, RoundTrip.unreadable, RoundTrip.rejected]
  | response status body =>
    cases hok : isSuccess status with
    | true =>
      cases body with
      | none => simp [RoundTrip.served, RoundTrip.unreadable, jsonBody, hok]
      | some json => simp [RoundTrip.served, jsonBody, hok]
    | false =>
      by_cases hauth : authStatus status = true
      · simp [RoundTrip.served, RoundTrip.unreadable, RoundTrip.rejected, hok, hauth]
      · by_cases hquota : exhaustedStatus status = true
        · simp [RoundTrip.served, RoundTrip.unreadable, RoundTrip.rejected, hok, hauth, hquota]
        · simp [RoundTrip.served, RoundTrip.unreadable, RoundTrip.rejected, hok, hauth, hquota]

theorem beforeCall_admits {asked : DateTime} (h : b.beforeCall s asked = .ok s₁) :
    s₁.consecutiveFailures = s.consecutiveFailures ∧ s₁.state ≠ .opened ∧
      (s₁.state = .closed ↔ s.state = .closed) := by
  rcases CircuitBreaker.beforeCall_ok.mp h with ⟨hstate, rfl⟩ | ⟨hstate, -, rfl⟩
  · exact ⟨rfl, hstate, Iff.rfl⟩
  · simp [hstate]

end

/-! ## The kinds of answers -/

section

variable {trip : RoundTrip}

theorem RoundTrip.not_success_of_rejected (h : trip.rejected = true) :
    trip.served = false ∧ trip.unreadable = false := by
  cases trip with
  | httpError error => simp [rejected] at h
  | response status body =>
    -- 401, 403 and 429 are no success
    have hok : isSuccess status = false := by
      simp only [rejected, authStatus, exhaustedStatus, Bool.or_eq_true, decide_eq_true_eq] at h
      simp only [isSuccess, Bool.and_eq_false_iff, decide_eq_false_iff_not]
      omega
    simp [served, unreadable, hok]

theorem RoundTrip.not_rejected_of_unreadable (h : trip.unreadable = true) :
    trip.served = false ∧ trip.rejected = false := by
  have hrejected : trip.rejected = false := by
    by_contra hr
    have := (not_success_of_rejected (Bool.eq_true_of_not_eq_false hr)).2
    rw [h] at this
    cases this
  cases trip with
  | httpError error => simp [unreadable] at h
  | response status body =>
    cases body with
    | none => exact ⟨by simp [served], hrejected⟩
    | some json => simp [unreadable] at h

theorem RoundTrip.recorded_of_fails (h : trip.fails = true) : trip.recorded = true := by
  unfold fails at h
  rw [Bool.or_eq_true] at h
  rcases h with h | h
  · cases trip with
    | httpError error => rfl
    | response status body =>
      simp only [unwell, Bool.and_eq_true, decide_eq_true_eq] at h
      have hok : isSuccess status = false := by
        simp only [isSuccess, Bool.and_eq_false_iff, decide_eq_false_iff_not]
        omega
      have hrejected : (RoundTrip.response status body).rejected = false := by
        simp only [rejected, authStatus, exhaustedStatus, Bool.or_eq_false_iff,
          decide_eq_false_iff_not]
        omega
      simp [recorded, served, hok, hrejected]
  · obtain ⟨hserved, hrejected⟩ := not_rejected_of_unreadable h
    simp [recorded, hserved, hrejected]

end

/-! ## What the breaker counts -/

section

variable (b : CircuitBreaker)

def recordedSince (es : List (Event BreakerStatus ProviderCall)) : Nat :=
  countSince (answeredBy b RoundTrip.recorded)
    (answeredBy b (fun trip => trip.served || trip.unreadable)) es

structure Counts (es : List (Event BreakerStatus ProviderCall)) (s : BreakerStatus) : Prop where
  closed : s.state = .closed → s.consecutiveFailures = recordedSince b es ∧
    (0 < s.consecutiveFailures → (s.consecutiveFailures : Int) < b.failureThreshold)
  tripped : s.state ≠ .closed → b.failureThreshold ≤ recordedSince b es

variable {b} {provider : String} {es es' : List (Event BreakerStatus ProviderCall)}
  {s s₁ : BreakerStatus} {call : ProviderCall}

theorem Counts.start : Counts b [] {} where
  closed _ := ⟨rfl, fun h => absurd h (by decide)⟩
  tripped h := absurd rfl h

theorem Counts.carry (h : Counts b es s) (hcount : recordedSince b es' = recordedSince b es)
    (hfailures : s₁.consecutiveFailures = s.consecutiveFailures)
    (hstate : s₁.state = .closed ↔ s.state = .closed) : Counts b es' s₁ where
  closed hclosed := by
    rw [hfailures, hcount]
    exact h.closed (hstate.mp hclosed)
  tripped hnot := by
    rw [hcount]
    exact h.tripped (fun hclosed => hnot (hstate.mpr hclosed))

theorem Counts.record {now : DateTime} (h : Counts b es s)
    (hcount : recordedSince b es' = recordedSince b es + 1) :
    Counts b es' (b.recordFailure s now) := by
  by_cases htrips : b.Trips s
  · rw [CircuitBreaker.recordFailure_trips htrips]
    exact
      { closed := fun hclosed => by cases hclosed
        tripped := by
          intro _
          rw [hcount]
          by_cases hclosed : s.state = .closed
          · have hsame := (h.closed hclosed).1
            rcases htrips with hhalf | hreached
            · cases hclosed.symm.trans hhalf
            · omega
          · have := h.tripped hclosed
            omega }
  · rw [CircuitBreaker.recordFailure_counts htrips]
    have hbelow : ¬ b.failureThreshold ≤ (s.consecutiveFailures + 1 : Nat) :=
      fun hreached => htrips (Or.inr hreached)
    exact
      { closed := by
          intro hclosed
          have hsame := (h.closed hclosed).1
          show s.consecutiveFailures + 1 = recordedSince b es' ∧ (0 < s.consecutiveFailures + 1 →
            ((s.consecutiveFailures + 1 : Nat) : Int) < b.failureThreshold)
          exact ⟨by rw [hcount, hsame], fun _ => by omega⟩
        tripped := by
          intro hnot
          rw [hcount]
          have := h.tripped hnot
          omega }

theorem recordedSince_sent {e : Event BreakerStatus ProviderCall} (hsent : sent b e = true) :
    recordedSince b (e :: es) =
      if e.act.trip.served then 0
      else if e.act.trip.unreadable then 1
      else if e.act.trip.rejected then recordedSince b es
      else recordedSince b es + 1 := by
  unfold recordedSince
  by_cases hserved : e.act.trip.served = true
  · rw [countSince_stop (by simp [answeredBy, hsent, hserved])]
    simp [answeredBy, RoundTrip.recorded, hserved]
  · by_cases hunreadable : e.act.trip.unreadable = true
    · have hrejected := (RoundTrip.not_rejected_of_unreadable hunreadable).2
      rw [countSince_stop (by simp [answeredBy, hsent, hunreadable])]
      simp [answeredBy, RoundTrip.recorded, hserved, hunreadable, hrejected, hsent]
    · have hgoes : answeredBy b (fun trip => trip.served || trip.unreadable) e = false := by
        simp [answeredBy, hserved, hunreadable]
      by_cases hrejected : e.act.trip.rejected = true
      · rw [countSince_pass (by simp [answeredBy, RoundTrip.recorded, hrejected]) hgoes]
        simp [hserved, hunreadable, hrejected]
      · rw [countSince_hit
          (by simp [answeredBy, RoundTrip.recorded, hserved, hrejected, hsent]) hgoes]
        simp [hserved, hunreadable, hrejected]

theorem Counts.step (h : Counts b es s) :
    Counts b (⟨s, call, (searchCall b provider s call).1⟩ :: es)
      (searchCall b provider s call).1 := by
  cases hb : b.beforeCall s call.asked with
  | error e =>
    rw [searchCall_refused hb]
    have hquiet : ∀ kind, answeredBy b kind ⟨s, call, s⟩ = false := by
      intro kind
      simp [answeredBy, sent, hb, Except.toBool]
    exact h.carry (countSince_pass (hquiet _) (hquiet _)) rfl Iff.rfl
  | ok s₁ =>
    obtain ⟨hfailures, -, hstate⟩ := beforeCall_admits hb
    have hsent : sent b ⟨s, call, (searchCall b provider s call).1⟩ = true := by
      simp [sent, hb, Except.toBool]
    have hcount : recordedSince b (⟨s, call, (searchCall b provider s call).1⟩ :: es) = _ :=
      recordedSince_sent hsent
    have hkept : Counts b es s₁ := h.carry rfl hfailures hstate
    rw [searchCall_sent hb] at hcount ⊢
    dsimp only at hcount
    by_cases hserved : call.trip.served = true
    · simp only [hserved, if_true] at hcount ⊢
      exact Counts.start.carry hcount rfl (by simp [CircuitBreaker.recordSuccess])
    · by_cases hunreadable : call.trip.unreadable = true
      · -- reported as a success first: the count starts again
        simp only [hserved, hunreadable, if_true, Bool.false_eq_true, if_false] at hcount ⊢
        exact Counts.start.record hcount
      · by_cases hrejected : call.trip.rejected = true
        · simp only [hserved, hunreadable, hrejected, if_true, Bool.false_eq_true,
            if_false] at hcount ⊢
          exact hkept.carry hcount rfl Iff.rfl
        · simp only [hserved, hunreadable, hrejected, Bool.false_eq_true, if_false] at hcount ⊢
          exact hkept.record hcount

theorem recorded_not_halfOpen
    (hrecorded : answeredBy b RoundTrip.recorded
      ⟨s, call, (searchCall b provider s call).1⟩ = true) :
    (searchCall b provider s call).1.state ≠ .halfOpen := by
  simp only [answeredBy, RoundTrip.recorded, Bool.and_eq_true, Bool.not_eq_true'] at hrecorded
  obtain ⟨hsent, hserved, hrejected⟩ := hrecorded
  cases hb : b.beforeCall s call.asked with
  | error e => simp [sent, hb, Except.toBool] at hsent
  | ok s₁ =>
    rw [searchCall_sent hb]
    simp only [hserved, hrejected, Bool.false_eq_true, if_false]
    split
    · exact CircuitBreaker.recordFailure_state_ne
    · exact CircuitBreaker.recordFailure_state_ne

theorem opened_iff (h : Counts b es s)
    (hrecorded : answeredBy b RoundTrip.recorded
      ⟨s, call, (searchCall b provider s call).1⟩ = true) :
    (searchCall b provider s call).1.state = .opened ↔
      b.failureThreshold ≤
        recordedSince b (⟨s, call, (searchCall b provider s call).1⟩ :: es) := by
  have hpost : Counts b (⟨s, call, (searchCall b provider s call).1⟩ :: es)
      (searchCall b provider s call).1 := h.step
  have hpos : 0 < recordedSince b (⟨s, call, (searchCall b provider s call).1⟩ :: es) := by
    unfold recordedSince countSince
    rw [if_pos hrecorded]
    omega
  constructor
  · intro hopen
    exact hpost.tripped (fun hclosed => by cases hopen.symm.trans hclosed)
  · intro hreached
    cases hstate : (searchCall b provider s call).1.state with
    | opened => rfl
    | closed =>
      obtain ⟨hsame, hbelow⟩ := hpost.closed hstate
      rw [hsame] at hbelow
      have := hbelow hpos
      omega
    | halfOpen =>
      exact absurd hstate (recorded_not_halfOpen hrecorded)

theorem rejected_ignored (hrejected : answeredBy b RoundTrip.rejected
    ⟨s, call, (searchCall b provider s call).1⟩ = true) :
    (searchCall b provider s call).1.consecutiveFailures = s.consecutiveFailures := by
  simp only [answeredBy, Bool.and_eq_true] at hrejected
  obtain ⟨hsent, hrejected⟩ := hrejected
  cases hb : b.beforeCall s call.asked with
  | error e => simp [sent, hb, Except.toBool] at hsent
  | ok s₁ =>
    obtain ⟨hserved, hunreadable⟩ := RoundTrip.not_success_of_rejected hrejected
    rw [searchCall_sent hb]
    simp only [hserved, hunreadable, hrejected, Bool.false_eq_true, if_false, if_true]
    exact (beforeCall_admits hb).1

theorem notices_iff (h : Counts b es s) :
    Notices b es ⟨s, call, (searchCall b provider s call).1⟩ ↔
      Steady b es ⟨s, call, (searchCall b provider s call).1⟩ := by
  have hrecorded : answeredBy b RoundTrip.fails ⟨s, call, (searchCall b provider s call).1⟩ = true →
      answeredBy b RoundTrip.recorded ⟨s, call, (searchCall b provider s call).1⟩ = true := by
    intro hfails
    simp only [answeredBy, Bool.and_eq_true] at hfails ⊢
    exact ⟨hfails.1, RoundTrip.recorded_of_fails hfails.2⟩
  constructor
  · intro hnotices hfails hreached
    exact (opened_iff h (hrecorded hfails)).mp (hnotices.opens hfails hreached)
  · intro hsteady
    exact
      { opens := fun hfails hreached =>
          (opened_iff h (hrecorded hfails)).mpr (hsteady hfails hreached)
        ignores := rejected_ignored }

end

/-- **The breaker notices a sick provider, when its failures are steady**: after as
    many failures of the service as its threshold it is open, and rejections do not
    touch its count, exactly when the failures from the latest unreadable body on
    reach the threshold too. -/
theorem notices_iff_steady {b : CircuitBreaker} {provider : String}
    {es : List (Event BreakerStatus ProviderCall)} {s : BreakerStatus}
    (h : Exec (providerCalls b provider) es s) : Along (Notices b) es ↔ Along (Steady b) es := by
  have hcarry : ∀ {P Q : List (Event BreakerStatus ProviderCall) →
      Event BreakerStatus ProviderCall → Prop},
      (∀ es s call, Counts b es s → P es ⟨s, call, (searchCall b provider s call).1⟩ →
        Q es ⟨s, call, (searchCall b provider s call).1⟩) → Along P es → Along Q es := by
    intro P Q hPQ hP
    refine (h.along (I := Counts b) ?_ ?_ hP).1
    · intro s hinit
      obtain rfl : s = {} := hinit
      exact Counts.start
    · intro es s call s' hcounts hs hP
      obtain rfl : (searchCall b provider s call).1 = s' := Option.some.inj hs
      exact ⟨hPQ es s call hcounts hP, hcounts.step⟩
  constructor
  · exact hcarry (fun es s call hcounts => (notices_iff hcounts).mp)
  · exact hcarry (fun es s call hcounts => (notices_iff hcounts).mpr)

namespace Sample

def garbled : ProviderCall := { asked := 0, answered := 0, trip := .response 200 none }

def fiveGarbled : List (Event BreakerStatus ProviderCall) × BreakerStatus :=
  (((providerCalls {} "serper").run [] {} (List.replicate 5 garbled))).getD ([], {})

end Sample

/-- Five unreadable bodies in a row leave the breaker closed. -/
theorem notices_breaks :
    ∃ es s, Exec (providerCalls {} "serper") es s ∧ ¬ Along (Notices {}) es := by
  have hstart : Exec (providerCalls {} "serper") [] {} := Exec.start rfl
  have hrun : (providerCalls {} "serper").run [] {} (List.replicate 5 Sample.garbled) =
      some Sample.fiveGarbled := rfl
  refine ⟨_, _, Machine.run_exec hstart hrun, ?_⟩
  intro hnotices
  have hopen := hnotices.1.opens (by decide) (by decide)
  revert hopen
  decide

/-- One unreadable body, to a breaker that opens at the first failure. -/
theorem notices_iff_steady_first :
    let e : Event BreakerStatus ProviderCall :=
      ⟨{}, Sample.garbled, (providerCalls { failureThreshold := 1 } "serper").next {}
        Sample.garbled⟩
    Along (Notices { failureThreshold := 1 }) [e] ↔ Along (Steady { failureThreshold := 1 }) [e] :=
  have hstart : Exec (providerCalls { failureThreshold := 1 } "serper") [] {} := Exec.start rfl
  notices_iff_steady (hstart.next Sample.garbled rfl)

end DigitalWorker.Knowledge
