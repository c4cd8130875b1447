import DigitalWorker.Framework.Dicts
import DigitalWorker.Framework.Machine
import DigitalWorker.Framework.SlidingWindow
import Mathlib.Algebra.Order.Ring.Rat
import Mathlib.Data.Rat.Floor
import Mathlib.Tactic.Linarith

/-! # How often somebody may call

    `RateLimitMiddleware` counts the requests of every caller in a window of a minute,
    in one dictionary. Once there are more than ten thousand callers in it, those whose
    window was opened more than a minute ago are thrown out. A request is dealt with in
    one piece, so requests come one after the other, in the order of a clock that never
    goes back.
-/

namespace DigitalWorker

open Framework

/-! ## The middleware -/

structure HttpRequest where
  path : String
  authorization : Option String := none
  clientHost : Option String := none
  deriving DecidableEq

structure RateLimitMiddleware where
  requestsPerMinute : Int
  /-- The first half of the hexadecimal SHA-256 of a token. -/
  digest : String → String

/-- Whether the request goes on, or what its caller is told. -/
inductive LimitResponse where
  | callNext
  | rateLimited (retryAfter : Int) (limitPerMinute : Int)
  deriving DecidableEq

/-- `_counters`: when the window of a caller was opened, and the requests in it. -/
abbrev Counters := List (String × (ℚ × Nat))

def windowSeconds : ℚ := 60

def exemptPaths : List String := ["/api/v1/health", "/api/v1/ready"]

namespace RateLimitMiddleware

variable (m : RateLimitMiddleware)

/-- `_key`. -/
def key (request : HttpRequest) : String :=
  match request.authorization.filter (· ≠ "") with
  | some token => m.digest token
  | none => "ip:" ++ request.clientHost.getD "unknown"

def counts (request : HttpRequest) : Bool :=
  !(m.requestsPerMinute ≤ 0 || exemptPaths.contains request.path)

def answer (window : ℚ × Nat) (now : ℚ) : LimitResponse :=
  if m.requestsPerMinute < window.2 then
    .rateLimited (max 1 (windowSeconds - (now - window.1)).floor) m.requestsPerMinute
  else .callNext

/-- `dispatch`. -/
def dispatch (counters : Counters) (now : ℚ) (request : HttpRequest) : Counters × LimitResponse :=
  if m.counts request then
    let key := m.key request
    let (windowStart, count) := (counters.lookup key).getD (now, 0)
    let (windowStart, count) :=
      if windowSeconds ≤ now - windowStart then (now, 0) else (windowStart, count)
    let count := count + 1
    let counters := setKey counters key (windowStart, count)
    let counters :=
      if 10000 < counters.length then
        counters.filter (fun c => now - windowSeconds ≤ c.2.1)
      else counters
    (counters, m.answer (windowStart, count) now)
  else (counters, .callNext)

structure LimiterState where
  counters : Counters := []
  clock : ℚ

def rateLimiter (m : RateLimitMiddleware) : Machine LimiterState (ℚ × HttpRequest) where
  init s := s.counters = []
  step s a := if s.clock ≤ a.1 then some ⟨(m.dispatch s.counters a.1 a.2).1, a.1⟩ else none

abbrev LimiterEvent := Event LimiterState (ℚ × HttpRequest)

def response (e : LimiterEvent) : LimitResponse := (m.dispatch e.pre.counters e.act.1 e.act.2).2

def isOf (key : String) (e : LimiterEvent) : Bool := m.counts e.act.2 && m.key e.act.2 == key

def calls (es : List LimiterEvent) (key : String) : List ℚ :=
  (es.filter (m.isOf key)).map (·.act.1)

def served (es : List LimiterEvent) (key : String) : List ℚ :=
  (es.filter (fun e => m.isOf key e && m.response e == .callNext)).map (·.act.1)

def responses (es : List LimiterEvent) (key : String) : List LimitResponse :=
  (es.filter (m.isOf key)).map m.response

def answerAfter (before : List ℚ) (now : ℚ) : LimitResponse :=
  m.answer (FixedWindow.next windowSeconds (FixedWindow.after windowSeconds before) now) now

def answers : List ℚ → List LimitResponse
  | [] => []
  | now :: before => m.answerAfter before now :: answers before

/-! ## What the dictionary remembers -/

section

variable {m} {es later earlier : List LimiterEvent} {s s' : LimiterState}
  {e : LimiterEvent} {now : ℚ} {request : HttpRequest}

theorem dispatch_exempt (h : m.counts request = false) (counters : Counters) :
    m.dispatch counters now request = (counters, .callNext) := by
  simp [dispatch, h]

theorem dispatch_counted (h : m.counts request = true) (counters : Counters) :
    m.dispatch counters now request =
      (let window := FixedWindow.next windowSeconds (counters.lookup (m.key request)) now
      let counters := setKey counters (m.key request) window
      (if 10000 < counters.length then
          counters.filter (fun c => now - windowSeconds ≤ c.2.1) else counters,
        m.answer window now)) := by
  cases hlookup : counters.lookup (m.key request) with
  | none => simp [dispatch, h, hlookup, FixedWindow.next]
  | some w =>
    by_cases hover : windowSeconds ≤ now - w.1 <;>
      simp [dispatch, h, hlookup, FixedWindow.next, hover]

theorem isOf_iff {key : String} :
    m.isOf key e = true ↔ m.counts e.act.2 = true ∧ m.key e.act.2 = key := by
  simp [isOf]

theorem counts_pos (h : m.counts request = true) : 0 < m.requestsPerMinute := by
  simp only [counts, Bool.not_eq_true', Bool.or_eq_false_iff, decide_eq_false_iff_not,
    not_le] at h
  exact h.1

theorem calls_cons {key : String} : m.calls (e :: es) key =
    if m.isOf key e = true then e.act.1 :: m.calls es key else m.calls es key := by
  unfold calls
  by_cases hof : m.isOf key e = true <;> simp [hof]

/-- What is thrown out is as good as not there, from then on. -/
structure Remembers (m : RateLimitMiddleware) (es : List LimiterEvent) (s : LimiterState) : Prop where
  keys : (keys s.counters).Nodup
  past : ∀ e ∈ es, e.act.1 ≤ s.clock
  same : ∀ key now, s.clock ≤ now →
    FixedWindow.next windowSeconds (s.counters.lookup key) now =
      FixedWindow.next windowSeconds (FixedWindow.after windowSeconds (m.calls es key)) now

theorem not_over (w : Option (ℚ × Nat)) (now : ℚ) :
    now - windowSeconds ≤ (FixedWindow.next windowSeconds w now).1 := by
  have hpos : (0 : ℚ) ≤ windowSeconds := by decide
  unfold FixedWindow.next
  split
  · split
    · exact sub_le_self now hpos
    · next hover =>
      simp only
      linarith
  · exact sub_le_self now hpos

theorem rateLimiter_step (hs : (rateLimiter m).step s (now, request) = some s') :
    s.clock ≤ now ∧ s' = ⟨(m.dispatch s.counters now request).1, now⟩ := by
  simp only [rateLimiter] at hs
  split at hs
  · next hclock => exact ⟨hclock, (Option.some.inj hs).symm⟩
  · cases hs

theorem same_kept {d : Counters} (hd : (keys d).Nodup) {key : String} {later : ℚ}
    (hlater : now ≤ later) :
    FixedWindow.next windowSeconds
        ((d.filter (fun c => now - windowSeconds ≤ c.2.1)).lookup key) later =
      FixedWindow.next windowSeconds (d.lookup key) later := by
  rw [lookup_filter hd]
  cases d.lookup key with
  | none => rfl
  | some w =>
    by_cases hkept : now - windowSeconds ≤ w.1
    · rw [Option.filter_some_pos (by simpa using hkept)]
    · have hover : windowSeconds ≤ later - w.1 := by linarith
      rw [Option.filter_some_neg (by simpa using hkept), FixedWindow.next_over hover]

theorem Remembers.step (h : Remembers m es s)
    (hs : (rateLimiter m).step s (now, request) = some s') :
    Remembers m (⟨s, (now, request), s'⟩ :: es) s' := by
  obtain ⟨hclock, rfl⟩ := rateLimiter_step hs
  have hpast : ∀ counters, ∀ e ∈ (⟨s, (now, request), ⟨counters, now⟩⟩ : LimiterEvent) :: es,
      e.act.1 ≤ now := by
    intro counters e he
    rcases List.mem_cons.mp he with rfl | he
    · exact le_refl now
    · exact (h.past e he).trans hclock
  cases hcounts : m.counts request with
  | false =>
    rw [dispatch_exempt hcounts]
    refine ⟨h.keys, hpast _, ?_⟩
    intro key later hlater
    simpa [calls, isOf, hcounts] using
      h.same key later (hclock.trans hlater)
  | true =>
    rw [dispatch_counted hcounts]
    have hwindow := h.same (m.key request) now hclock
    generalize hw : FixedWindow.next windowSeconds (s.counters.lookup (m.key request)) now = w
    rw [hw] at hwindow
    have hkeys : (Framework.keys (setKey s.counters (m.key request) w)).Nodup := setKey_nodup h.keys
    have hsame : ∀ key later, now ≤ later →
        FixedWindow.next windowSeconds ((setKey s.counters (m.key request) w).lookup key) later =
          FixedWindow.next windowSeconds (FixedWindow.after windowSeconds
            (if key = m.key request then now :: m.calls es key else m.calls es key)) later := by
      intro key later hlater
      by_cases hkey : key = m.key request
      · rw [if_pos hkey, hkey, lookup_setKey_self, FixedWindow.after, ← hwindow]
      · rw [if_neg hkey, lookup_setKey_ne hkey]
        exact h.same key later (hclock.trans hlater)
    have hcalls : ∀ key s', m.calls (⟨s, (now, request), s'⟩ :: es) key =
        if key = m.key request then now :: m.calls es key else m.calls es key := by
      intro key s'
      simp [calls_cons, isOf, hcounts, @eq_comm _ key]
    by_cases hmany : 10000 < (setKey s.counters (m.key request) w).length
    · simp only [if_pos hmany]
      refine ⟨hkeys.sublist (List.filter_sublist.map _), hpast _, ?_⟩
      intro key later hlater
      rw [hcalls, same_kept hkeys hlater]
      exact hsame key later hlater
    · simp only [if_neg hmany]
      refine ⟨hkeys, hpast _, ?_⟩
      intro key later hlater
      rw [hcalls]
      exact hsame key later hlater

theorem exec_remembers (h : Exec (rateLimiter m) es s) : Remembers m es s := by
  refine h.history_invariant ?_ ?_
  · intro s hinit
    have hnil : s.counters = [] := hinit
    exact ⟨by simp [hnil, keys], by simp, by simp [hnil, calls, FixedWindow.after]⟩
  · intro es s a s' _ hremembers hs
    exact hremembers.step hs

theorem Remembers.answered (h : Remembers m es e.pre) (hclock : e.pre.clock ≤ e.act.1)
    (hcounts : m.counts e.act.2 = true) :
    m.response e = m.answerAfter (m.calls es (m.key e.act.2)) e.act.1 := by
  rw [response, dispatch_counted hcounts, answerAfter,
    h.same _ _ hclock]

theorem responses_eq (h : Exec (rateLimiter m) es s) (key : String) :
    m.responses es key = m.answers (m.calls es key) := by
  induction h with
  | start _ => rfl
  | @snoc es s s' a hexec hs ih =>
    rw [calls_cons]
    unfold responses at ih ⊢
    by_cases hof : m.isOf key ⟨s, a, s'⟩ = true
    · obtain ⟨hcounts, rfl⟩ := isOf_iff.mp hof
      rw [List.filter_cons_of_pos hof, List.map_cons, if_pos hof, answers, ih,
        (exec_remembers hexec).answered (rateLimiter_step hs).1 hcounts]
    · rw [List.filter_cons_of_neg hof, if_neg hof]
      exact ih

/-- **A caller on its own**: in two runs in which a caller makes its requests at the
    same times, it gets the same answers, whatever the others do and however many
    windows are thrown out for it. -/
theorem own_requests_alone {es' : List LimiterEvent} (h : Exec (rateLimiter m) es s)
    (h' : Exec (rateLimiter m) es' s') {key : String} (hcalls : m.calls es key = m.calls es' key) :
    m.responses es key = m.responses es' key := by
  rw [responses_eq h, responses_eq h', hcalls]

/-! ## How many go on -/

theorem calls_ordered (h : Exec (rateLimiter m) es s) (key : String) :
    (m.calls es key).Pairwise (fun x y => y ≤ x) := by
  induction h with
  | start _ => exact List.Pairwise.nil
  | @snoc es s s' a hexec hs ih =>
    rw [calls_cons]
    split
    · refine List.pairwise_cons.mpr ⟨?_, ih⟩
      intro x hx
      obtain ⟨e, he, rfl⟩ := List.mem_map.mp hx
      exact ((exec_remembers hexec).past e (List.mem_filter.mp he).1).trans (rateLimiter_step hs).1
    · exact ih

theorem answer_eq_callNext {w : ℚ × Nat} :
    m.answer w now = .callNext ↔ (w.2 : Int) ≤ m.requestsPerMinute := by
  unfold answer
  by_cases hw : m.requestsPerMinute < w.2
  · simp [hw]
  · simp [hw, Int.not_lt.mp hw]

theorem served_eq (h : Exec (rateLimiter m) es s) (key : String) :
    m.served es key = FixedWindow.passed windowSeconds m.requestsPerMinute.toNat (m.calls es key) := by
  induction h with
  | start _ => rfl
  | @snoc es s s' a hexec hs ih =>
    rw [calls_cons]
    unfold served at ih ⊢
    by_cases hof : m.isOf key ⟨s, a, s'⟩ = true
    · obtain ⟨hcounts, rfl⟩ := isOf_iff.mp hof
      have hpos := counts_pos hcounts
      have hresponse := (exec_remembers hexec).answered (e := ⟨s, a, s'⟩)
        (rateLimiter_step hs).1 hcounts
      rw [if_pos hof, FixedWindow.passed, ← ih]
      by_cases hpass : m.response ⟨s, a, s'⟩ = .callNext
      · have hle := answer_eq_callNext.mp (hresponse ▸ hpass)
        rw [List.filter_cons_of_pos (by simp [hof, hpass]), if_pos (by omega), List.map_cons]
      · have hnot := mt answer_eq_callNext.mpr (hresponse ▸ hpass)
        rw [List.filter_cons_of_neg (by simp [hpass]), if_neg (by omega)]
    · rw [List.filter_cons_of_neg (by simp [hof]), if_neg hof]
      exact ih

/-- **Twice the limit**: of the requests of one caller, in whatever minute, no more go
    on than twice as many as a minute allows. -/
theorem at_most_twice (h : Exec (rateLimiter m) es s) (key : String) (t : ℚ) :
    (m.served es key).countP (fun x => t ≤ x ∧ x < t + windowSeconds) ≤
      2 * m.requestsPerMinute.toNat := by
  rw [served_eq h]
  exact FixedWindow.passed_le (by decide) (calls_ordered h key) t

theorem answer_rateLimited {w : ℚ × Nat} {n p : Int} (h : m.answer w now = .rateLimited n p) :
    m.requestsPerMinute < w.2 ∧ windowSeconds - (now - w.1) < n + 1 := by
  unfold answer at h
  split at h
  · next hmany =>
    cases h
    have hfloor := Rat.lt_floor_add_one (windowSeconds - (now - w.1))
    have hle : ((windowSeconds - (now - w.1)).floor : ℚ) ≤
        ((max 1 (windowSeconds - (now - w.1)).floor : Int) : ℚ) := by
      exact_mod_cast le_max_right _ _
    push_cast at hfloor
    exact ⟨hmany, by linarith⟩
  · cases h

/-- **Refused for a reason, and not for long**: before a request that is refused, as
    many as a minute allows went on within the minute; and if its caller makes no other
    request until a second after the time it was told to wait, that one goes on. -/
theorem refused_for_a_minute (h : Exec (rateLimiter m) (later ++ e :: earlier) s) {n p : Int}
    (hcounts : m.counts e.act.2 = true) (hrefused : m.response e = .rateLimited n p) :
    m.requestsPerMinute.toNat ≤ (m.served earlier (m.key e.act.2)).countP
        (fun x => e.act.1 - windowSeconds < x ∧ x ≤ e.act.1) ∧
      ((∀ e' ∈ later, m.isOf (m.key e.act.2) e' = false) →
        ∀ now request, s.clock ≤ now → e.act.1 + n + 1 ≤ now → m.counts request = true →
          m.key request = m.key e.act.2 → (m.dispatch s.counters now request).2 = .callNext) := by
  obtain ⟨hearlier, hthere, hs⟩ := h.upTo
  have hof : m.isOf (m.key e.act.2) e = true := isOf_iff.mpr ⟨hcounts, rfl⟩
  have hpos := counts_pos hcounts
  rw [(exec_remembers hearlier).answered (rateLimiter_step hs).1 hcounts] at hrefused
  obtain ⟨hmany, hwait⟩ := answer_rateLimited hrefused
  have hcalls : m.calls (e :: earlier) (m.key e.act.2) =
      e.act.1 :: m.calls earlier (m.key e.act.2) := by
    rw [calls_cons, if_pos hof]
  refine ⟨?_, ?_⟩
  · rw [served_eq hearlier]
    refine FixedWindow.limit_le_of_refused (by decide) (by omega) ?_ (by omega)
    rw [← hcalls]
    exact calls_ordered hthere _
  · intro hquiet now request hnow hlater hcounted hkey
    -- nothing was counted since, so the window is the one of the refusal
    have hsame : m.calls (later ++ e :: earlier) (m.key e.act.2) =
        e.act.1 :: m.calls earlier (m.key e.act.2) := by
      have hnone : later.filter (m.isOf (m.key e.act.2)) = [] :=
        List.filter_eq_nil_iff.mpr (fun e' he' => by simp [hquiet e' he'])
      rw [← hcalls, calls, List.filter_append, hnone]
      rfl
    have hover : windowSeconds ≤ now - (FixedWindow.next windowSeconds (FixedWindow.after
        windowSeconds (m.calls earlier (m.key e.act.2))) e.act.1).1 := by linarith
    have hfresh : FixedWindow.next windowSeconds (s.counters.lookup (m.key request)) now = (now, 1) := by
      rw [hkey, (exec_remembers h).same _ _ hnow, hsame, FixedWindow.after,
        FixedWindow.next_over hover]
      rfl
    rw [dispatch_counted hcounted, hfresh]
    exact answer_eq_callNext.mpr (by omega)

end

namespace OneAMinute

def limiter : RateLimitMiddleware := { requestsPerMinute := 1, digest := id }

def request : HttpRequest := { path := "/api/v1/cases", clientHost := some "10.0.0.1" }

theorem twice_runs : ∃ e earlier s, Exec (rateLimiter limiter) (e :: earlier) s ∧
    limiter.response e = .rateLimited 59 1 ∧ e.act = (1, request) ∧ s.clock = 1 := by
  obtain ⟨es, s, hexec, htest⟩ := Machine.exec_of_runs (M := rateLimiter limiter)
    (s := { clock := 0 }) rfl (show (rateLimiter limiter).runs { clock := 0 }
      [(0, request), (1, request)] (fun es s => match es with
        | e :: _ => limiter.response e == .rateLimited 59 1 && e.act == (1, request) && s.clock == 1
        | [] => false) = true by decide +kernel)
  cases es with
  | nil => cases htest
  | cons e earlier =>
    simp only [Bool.and_eq_true, beq_iff_eq] at htest
    exact ⟨e, earlier, s, hexec, htest.1.1, htest.1.2, htest.2⟩

theorem one_of_two : ∃ es s, Exec (rateLimiter limiter) es s ∧
    (limiter.served es "ip:10.0.0.1").countP (fun x => 0 ≤ x ∧ x < 0 + windowSeconds) ≤ 2 := by
  obtain ⟨e, earlier, s, hexec, -⟩ := twice_runs
  exact ⟨_, s, hexec, at_most_twice hexec _ 0⟩

theorem served_again : ∃ es s, Exec (rateLimiter limiter) es s ∧
    (limiter.dispatch s.counters 61 request).2 = .callNext := by
  obtain ⟨e, earlier, s, hexec, hrefused, hact, hclock⟩ := twice_runs
  have hcounts : limiter.counts e.act.2 = true := by
    rw [hact]
    decide
  have h := refused_for_a_minute (show Exec (rateLimiter limiter) ([] ++ e :: earlier) s from hexec)
    hcounts hrefused
  refine ⟨_, s, hexec, h.2 (by simp) 61 request ?_ ?_ (by decide) (by rw [hact])⟩
  · rw [hclock]
    decide
  · rw [hact]
    decide +kernel

theorem same_beside_another : ∃ es s es' s', Exec (rateLimiter limiter) es s ∧
    Exec (rateLimiter limiter) es' s' ∧ es ≠ es' ∧
      limiter.responses es "ip:10.0.0.1" = limiter.responses es' "ip:10.0.0.1" := by
  obtain ⟨es, s, hexec, htest⟩ := Machine.exec_of_runs (M := rateLimiter limiter)
    (s := { clock := 0 }) rfl (show (rateLimiter limiter).runs { clock := 0 }
      [(0, request)] (fun es _ => es.length == 1 && limiter.calls es "ip:10.0.0.1" == [0]) = true by
      decide +kernel)
  obtain ⟨es', s', hexec', htest'⟩ := Machine.exec_of_runs (M := rateLimiter limiter)
    (s := { clock := 0 }) rfl (show (rateLimiter limiter).runs { clock := 0 }
      [(0, request), (0, { request with clientHost := none })]
      (fun es _ => es.length == 2 && limiter.calls es "ip:10.0.0.1" == [0]) = true by
      decide +kernel)
  simp only [Bool.and_eq_true, beq_iff_eq] at htest htest'
  refine ⟨es, s, es', s', hexec, hexec', ?_,
    own_requests_alone hexec hexec' (htest.2.trans htest'.2.symm)⟩
  rintro rfl
  exact absurd (htest.1.symm.trans htest'.1) (by decide)

end OneAMinute

end RateLimitMiddleware

end DigitalWorker
