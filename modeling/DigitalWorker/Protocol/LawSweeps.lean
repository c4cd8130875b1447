import DigitalWorker.Preparation.LawWatch
import DigitalWorker.Protocol.Ingestor

/-! # The sweeps of the law watch

    A sweep lists the waiting cases, the one that was changed longest ago first,
    as far as its limit, and reviews them one by one. Between two reviews anybody
    else may act, a review may meet any failure, and the process may die; what it
    remembers of the alerts it sent dies with it, the jobs of the outbox do not.
-/

namespace DigitalWorker

open Framework

/-! ## The scanner -/

structure LawWatchReport where
  checked : List String := []
  changed : List String := []
  skipped : List String := []
  deriving DecidableEq

/-- `LawChangeScanner`, with the store it works on and the sweep under way. -/
structure LawScanner where
  store : LawStore
  directory : Directory
  rules : ProcurementRules
  limit : Nat := 20
  announced : List String := []
  /-- The cases of the sweep that the loop has not come to. -/
  queue : List PreparationCase := []
  report : LawWatchReport := {}

/-- What a transaction can meet: it raises, before or after its commit. -/
structure TxFault where
  committed : Bool
  failure : HandlerFault
  deriving DecidableEq

structure ReviewInput where
  actor : Uuid
  now : DateTime
  recordId : Uuid
  alertId : Uuid
  /-- Reading the approach raises. -/
  readFault : Option HandlerFault := none
  /-- `read_current(case, context)`. -/
  current : Except HandlerFault (Option LegalPosition)
  recordFault : Option TxFault := none
  alertFault : Option TxFault := none

inductive ReviewEnd where
  | failed (fault : HandlerFault)
  | unverified
  | unchanged
  | changed (text : String)
  deriving DecidableEq

/-- A transaction that leads to `after`, or raises. -/
def LawStore.transact (before after : LawStore) : Option TxFault → LawStore × Option HandlerFault
  | none => (after, none)
  | some f => (if f.committed then after else before, some f.failure)

namespace LawScanner

variable (env : Env) (casefold : String → String) (s : LawScanner)

def positions (case : PreparationCase) (inp : ReviewInput) :
    Except HandlerFault (Option (LegalPosition × LegalPosition)) :=
  match inp.readFault with
  | some f => .error f
  | none =>
    match (latest (s.store.artifacts case.id) .procurementApproach).bind
        (fun a => LegalPosition.fromArtifact env.repr a.content) with
    | none => .ok none
    | some drafted =>
      if drafted.minBidPreparationDays = none then .ok none
      else
        match inp.current with
        | .error f => .error f
        | .ok none => .ok none
        | .ok (some current) =>
          if current.minBidPreparationDays = none then .ok none
          else .ok (some (drafted, current))

/-- The rest of `_review` where the law has changed and the change is recorded. -/
def announce (case : PreparationCase) (drafted current : LegalPosition) (inp : ReviewInput) :
    LawScanner × ReviewEnd :=
  let guard := lawGuard case.id (current.fingerprint casefold env.sha256)
  let text := changeText case drafted current
  if guard ∈ s.announced then (s, .changed text)
  else
    match s.store.transact (s.store.alerted env casefold case drafted current s.directory s.rules
        inp.alertId inp.now) inp.alertFault with
    | (store, some f) => ({ s with store := store }, .failed f)
    | (store, none) => ({ s with store := store, announced := guard :: s.announced }, .changed text)

def review (case : PreparationCase) (inp : ReviewInput) : LawScanner × ReviewEnd :=
  match s.positions env case inp with
  | .error f => (s, .failed f)
  | .ok none => (s, .unverified)
  | .ok (some (drafted, current)) =>
    let changed := drafted.differsFrom casefold current
    match s.store.transact (s.store.recorded env case drafted current inp.recordId inp.actor inp.now
        changed) inp.recordFault with
    | (store, some f) => ({ s with store := store }, .failed f)
    | (store, none) =>
      if changed then announce env casefold { s with store := store } case drafted current inp
      else ({ s with store := store }, .unchanged)

def skippedText (case : PreparationCase) : String → String := fun why => case.title ++ ": " ++ why

/-- The report after a review, and the cases still to come. An exception that is
    no `DWError` leaves the loop. -/
def proceed (case : PreparationCase) (rest : List PreparationCase) : ReviewEnd → LawScanner
  | .failed (.refused e) =>
    { s with
      queue := rest
      report := { s.report with skipped := s.report.skipped ++ [skippedText case e.message] } }
  | .failed .raised => { s with queue := [] }
  | .unverified =>
    { s with
      queue := rest
      report := { s.report with
        skipped := s.report.skipped ++
          [skippedText case "chưa có căn cứ đã kiểm chứng để đối chiếu"] } }
  | .unchanged =>
    { s with queue := rest, report := { s.report with checked := s.report.checked ++ [case.title] } }
  | .changed text =>
    { s with
      queue := rest
      report := { s.report with
        checked := s.report.checked ++ [case.title], changed := s.report.changed ++ [text] } }

def Sorted (rows order : List WatchedRow) : Prop :=
  order.Perm rows ∧ order.Pairwise (fun a b => a.updatedAt ≤ b.updatedAt)

instance (rows order : List WatchedRow) : Decidable (Sorted rows order) :=
  inferInstanceAs (Decidable (_ ∧ _))

end LawScanner

/-! ## Runs -/

inductive WatchAction where
  | poll (order : List WatchedRow)
  /-- The loop comes to its next case. -/
  | review (inp : ReviewInput)
  /-- The process dies; another one takes its place. -/
  | restart
  /-- Anybody else acts on the cases, their artifacts, the roles and the rules. -/
  | change (rows : List WatchedRow) (artifacts : Uuid → List PreparationArtifact)
      (directory : Directory) (rules : ProcurementRules) (limit : Nat)

def LawScanner.step (env : Env) (casefold : String → String) (s : LawScanner) :
    WatchAction → Option LawScanner
  | .poll order =>
    if s.queue = [] ∧ LawScanner.Sorted s.store.waiting order then
      some { s with queue := (order.take s.limit).map (·.case), report := {} }
    else none
  | .review inp =>
    match s.queue with
    | [] => none
    | case :: rest =>
      let (s', result) := s.review env casefold case inp
      some (s'.proceed case rest result)
  | .restart => some { s with announced := [], queue := [] }
  | .change rows artifacts directory rules limit => some
      { s with
        store := { s.store with rows := rows, artifacts := artifacts }
        directory := directory, rules := rules, limit := limit }

def lawWatch (env : Env) (casefold : String → String) : Machine LawScanner WatchAction where
  init s := s.announced = [] ∧ s.queue = [] ∧ (s.store.alerts.map (·.idempotencyKey)).Nodup
  step := LawScanner.step env casefold

/-! ## What a review does to the outbox -/

section

variable {env : Env} {casefold : String → String} {s s' : LawScanner} {case : PreparationCase}
  {inp : ReviewInput} {guard : String}

namespace LawScanner

def detected (env : Env) (casefold : String → String) (s : LawScanner) (case : PreparationCase)
    (inp : ReviewInput) : Option String :=
  match s.positions env case inp with
  | .ok (some (drafted, current)) =>
    if drafted.differsFrom casefold current && inp.recordFault.isNone then
      some (lawGuard case.id (current.fingerprint casefold env.sha256))
    else none
  | _ => none

def attempted (env : Env) (casefold : String → String) (s : LawScanner) (case : PreparationCase)
    (inp : ReviewInput) : Option String :=
  (s.detected env casefold case inp).filter (fun guard => guard ∉ s.announced)

def staffed (s : LawScanner) (case : PreparationCase) : Bool :=
  (lawRecipient case s.directory s.rules).isSome

end LawScanner

theorem alertKey_inj {guard guard' : String} : alertKey guard = alertKey guard' ↔ guard = guard' := by
  constructor
  · intro h
    have hlist := congrArg String.toList h
    simp only [alertKey, String.toList_append, List.append_cancel_left_eq] at hlist
    exact String.toList_inj.mp hlist
  · intro h
    rw [h]

structure Alerted (store store' : LawStore) (guard : String) (staffed : Bool) : Prop where
  queued : ∀ g, store'.Queued g ↔ store.Queued g ∨ (staffed = true ∧ g = guard)
  nodup : (store.alerts.map (·.idempotencyKey)).Nodup →
    (store'.alerts.map (·.idempotencyKey)).Nodup

inductive AlertMove (env : Env) (casefold : String → String) (s s' : LawScanner)
    (case : PreparationCase) (inp : ReviewInput) : Prop where
  | silent (attempted : s.attempted env casefold case inp = none)
      (marks : s'.announced = s.announced) (alerts : s'.store.alerts = s.store.alerts)
  /-- The alert raised, with or without its job. -/
  | raised (guard : String) (attempted : s.attempted env casefold case inp = some guard)
      (fault : inp.alertFault.isSome = true) (marks : s'.announced = s.announced)
      (alerts : s'.store.alerts = s.store.alerts ∨
        Alerted s.store s'.store guard (s.staffed case))
  | returned (guard : String) (attempted : s.attempted env casefold case inp = some guard)
      (fault : inp.alertFault = none) (marks : s'.announced = guard :: s.announced)
      (alerts : Alerted s.store s'.store guard (s.staffed case))

/-- **Reviews**: a review makes one of these moves and leaves the rest alone. -/
theorem review_move : AlertMove env casefold s (s.review env casefold case inp).1 case inp := by
  unfold LawScanner.review
  cases hpositions : s.positions env case inp with
  | error f => exact .silent (by simp [LawScanner.attempted, LawScanner.detected, hpositions]) rfl rfl
  | ok found =>
    cases found with
    | none =>
      exact .silent (by simp [LawScanner.attempted, LawScanner.detected, hpositions]) rfl rfl
    | some pair =>
      obtain ⟨drafted, current⟩ := pair
      dsimp only
      cases hrecord : inp.recordFault with
      | some f =>
        refine .silent ?_ rfl ?_
        · simp [LawScanner.attempted, LawScanner.detected, hpositions, hrecord]
        · show (if f.committed then _ else s.store).alerts = _
          split <;> rfl
      | none =>
        dsimp only [LawStore.transact]
        by_cases hchanged : drafted.differsFrom casefold current = true
        · rw [if_pos hchanged]
          have hdetected : s.detected env casefold case inp =
              some (lawGuard case.id (current.fingerprint casefold env.sha256)) := by
            simp [LawScanner.detected, hpositions, hchanged, hrecord]
          unfold LawScanner.announce
          dsimp only
          by_cases hmarked : lawGuard case.id (current.fingerprint casefold env.sha256) ∈ s.announced
          · rw [if_pos hmarked]
            refine .silent ?_ rfl rfl
            rw [LawScanner.attempted, hdetected]
            simp [hmarked]
          · rw [if_neg hmarked]
            have hattempted : s.attempted env casefold case inp =
                some (lawGuard case.id (current.fingerprint casefold env.sha256)) := by
              rw [LawScanner.attempted, hdetected]
              simp [hmarked]
            have halerted : ∀ store : LawStore, store.alerts = s.store.alerts →
                Alerted s.store (store.alerted env casefold case drafted current s.directory s.rules
                  inp.alertId inp.now) (lawGuard case.id (current.fingerprint casefold env.sha256))
                  (s.staffed case) := by
              intro store hstore
              constructor
              · intro g
                rw [alerted_queued, alertKey_inj, LawStore.Queued, hstore]
                rfl
              · intro hnodup
                rw [← hstore] at hnodup
                exact alerted_nodup hnodup
            cases hfault : inp.alertFault with
            | none => exact .returned _ hattempted hfault rfl (halerted _ rfl)
            | some f =>
              refine .raised _ hattempted (by rw [hfault]; rfl) rfl ?_
              simp only [LawStore.transact]
              by_cases hcommitted : f.committed = true
              · rw [if_pos hcommitted]
                exact .inr (halerted _ rfl)
              · rw [if_neg hcommitted]
                exact .inl rfl
        · rw [if_neg hchanged]
          refine .silent ?_ rfl rfl
          simp [LawScanner.attempted, LawScanner.detected, hpositions, hchanged]

end

/-! ## Announced changes -/

section

variable {env : Env} {casefold : String → String} {s s' : LawScanner}

def reviewed (e : Event LawScanner WatchAction) : Option (PreparationCase × ReviewInput) :=
  match e.act, e.pre.queue with
  | .review inp, case :: _ => some (case, inp)
  | _, _ => none

structure Announced (s : LawScanner) : Prop where
  marked : ∀ guard ∈ s.announced, s.store.Queued guard
  once : (s.store.alerts.map (·.idempotencyKey)).Nodup

/-- A change that is found again while it has no job is announced again. -/
def Retried (env : Env) (casefold : String → String) (e : Event LawScanner WatchAction) : Prop :=
  ∀ case inp, reviewed e = some (case, inp) → ∀ guard,
    e.pre.detected env casefold case inp = some guard → ¬ e.pre.store.Queued guard →
    e.pre.attempted env casefold case inp = some guard

def AnnouncedOnce (env : Env) (casefold : String → String)
    (_ : List (Event LawScanner WatchAction)) (e : Event LawScanner WatchAction) : Prop :=
  Announced e.post ∧ Retried env casefold e

/-- **The condition**: a change without a job, whose alert does not raise, is
    announced while somebody holds the role of its checkpoint or the fallback
    role. -/
def HeardOf (env : Env) (casefold : String → String) (_ : List (Event LawScanner WatchAction))
    (e : Event LawScanner WatchAction) : Prop :=
  ∀ case inp, reviewed e = some (case, inp) → ∀ guard,
    e.pre.attempted env casefold case inp = some guard → inp.alertFault = none →
    ¬ e.pre.store.Queued guard → e.pre.staffed case = true

theorem attempted_some {case : PreparationCase} {inp : ReviewInput} {guard : String} :
    s.attempted env casefold case inp = some guard ↔
      s.detected env casefold case inp = some guard ∧ guard ∉ s.announced := by
  rw [LawScanner.attempted, Option.filter_eq_some_iff]
  simp

theorem Announced.retried {e : Event LawScanner WatchAction} (h : Announced e.pre) :
    Retried env casefold e := by
  intro case inp _ guard hdetected hnot
  exact attempted_some.mpr ⟨hdetected, fun hmarked => hnot (h.marked guard hmarked)⟩

@[simp] theorem proceed_store {case : PreparationCase} {rest : List PreparationCase}
    {result : ReviewEnd} : (s.proceed case rest result).store = s.store := by
  unfold LawScanner.proceed
  split <;> rfl

@[simp] theorem proceed_announced {case : PreparationCase} {rest : List PreparationCase}
    {result : ReviewEnd} : (s.proceed case rest result).announced = s.announced := by
  unfold LawScanner.proceed
  split <;> rfl

theorem step_alerts {a : WatchAction} (h : s.step env casefold a = some s') :
    (∃ case inp, reviewed ⟨s, a, s'⟩ = some (case, inp) ∧
      AlertMove env casefold s s' case inp) ∨
    (reviewed ⟨s, a, s'⟩ = none ∧ s'.store.alerts = s.store.alerts ∧
      (s'.announced = s.announced ∨ s'.announced = [])) := by
  cases a with
  | poll order =>
    simp only [LawScanner.step] at h
    split at h
    · obtain rfl := Option.some.inj h
      exact .inr ⟨rfl, rfl, .inl rfl⟩
    · cases h
  | review inp =>
    simp only [LawScanner.step] at h
    split at h
    · cases h
    · next case rest hqueue =>
      obtain rfl := Option.some.inj h
      refine .inl ⟨case, inp, by simp only [reviewed, hqueue], ?_⟩
      have hmove : AlertMove env casefold s (s.review env casefold case inp).1 case inp := review_move
      cases hmove with
      | silent hattempted hmarks halerts =>
        exact .silent hattempted (by rw [proceed_announced, hmarks]) (by rw [proceed_store, halerts])
      | raised guard hattempted hfault hmarks halerts =>
        refine .raised guard hattempted hfault (by rw [proceed_announced, hmarks]) ?_
        rw [proceed_store]
        exact halerts
      | returned guard hattempted hfault hmarks halerts =>
        refine .returned guard hattempted hfault (by rw [proceed_announced, hmarks]) ?_
        rw [proceed_store]
        exact halerts
  | restart =>
    obtain rfl := Option.some.inj h
    exact .inr ⟨rfl, rfl, .inr rfl⟩
  | change rows artifacts directory rules limit =>
    obtain rfl := Option.some.inj h
    exact .inr ⟨rfl, rfl, .inl rfl⟩

theorem queued_congr {store store' : LawStore} (h : store'.alerts = store.alerts) (guard : String) :
    store'.Queued guard ↔ store.Queued guard := by
  rw [LawStore.Queued, h]
  rfl

theorem Announced.step {a : WatchAction} (hs : s.step env casefold a = some s')
    (h : Announced s) (hheard : HeardOf env casefold [] ⟨s, a, s'⟩) : Announced s' := by
  rcases step_alerts hs with ⟨case, inp, hreviewed, hmove⟩ | ⟨-, halerts, hmarks⟩
  · cases hmove with
    | silent _ hmarks halerts =>
      refine ⟨fun guard hguard => ?_, by rw [halerts]; exact h.once⟩
      rw [hmarks] at hguard
      exact (queued_congr halerts guard).mpr (h.marked guard hguard)
    | raised guard _ _ hmarks halerts =>
      rcases halerts with hsame | hadded
      · refine ⟨fun g hg => ?_, by rw [hsame]; exact h.once⟩
        rw [hmarks] at hg
        exact (queued_congr hsame g).mpr (h.marked g hg)
      · refine ⟨fun g hg => ?_, hadded.nodup h.once⟩
        rw [hmarks] at hg
        exact (hadded.queued g).mpr (.inl (h.marked g hg))
    | returned guard hattempted hfault hmarks hadded =>
      refine ⟨fun g hg => (hadded.queued g).mpr ?_, hadded.nodup h.once⟩
      rw [hmarks] at hg
      rcases List.mem_cons.mp hg with rfl | hold
      · -- the new mark: its job was there, or somebody gets it
        by_cases hqueued : s.store.Queued g
        · exact .inl hqueued
        · exact .inr ⟨hheard case inp hreviewed g hattempted hfault hqueued, rfl⟩
      · exact .inl (h.marked g hold)
  · refine ⟨fun guard hguard => (queued_congr halerts guard).mpr ?_, by rw [halerts]; exact h.once⟩
    rcases hmarks with hmarks | hmarks
    · rw [hmarks] at hguard
      exact h.marked guard hguard
    · rw [hmarks] at hguard
      cases hguard

theorem not_announced {a : WatchAction} (hs : s.step env casefold a = some s')
    (hunheard : ¬ HeardOf env casefold [] ⟨s, a, s'⟩) : ¬ Announced s' := by
  intro h
  refine hunheard (fun case inp hreviewed guard hattempted hfault hqueued => ?_)
  rcases step_alerts hs with ⟨case', inp', hreviewed', hmove⟩ | ⟨hnone, -, -⟩
  · rw [hreviewed] at hreviewed'
    obtain ⟨rfl, rfl⟩ := Prod.mk.inj (Option.some.inj hreviewed')
    cases hmove with
    | silent hnone _ _ =>
      rw [hattempted] at hnone
      cases hnone
    | raised _ _ hraised _ _ =>
      rw [hfault] at hraised
      cases hraised
    | returned guard' hattempted' _ hmarks hadded =>
      rw [hattempted] at hattempted'
      obtain rfl := Option.some.inj hattempted'
      have hmarked : guard ∈ s'.announced := by
        rw [hmarks]
        exact List.mem_cons_self
      rcases (hadded.queued guard).mp (h.marked guard hmarked) with hold | hnew
      · exact absurd hold hqueued
      · exact hnew.1
  · rw [hreviewed] at hnone
    cases hnone

/-- **Main theorem on announcements**: in a run every change that is marked has
    its one job, and a change without a job is announced again, exactly if each
    announcement found somebody. -/
theorem announced_iff {es : List (Event LawScanner WatchAction)}
    (h : Exec (lawWatch env casefold) es s) :
    Along (AnnouncedOnce env casefold) es ↔ Along (HeardOf env casefold) es := by
  constructor
  · intro hall
    induction h with
    | start _ => trivial
    | snoc _ hs ih =>
      refine ⟨?_, ih hall.2⟩
      by_contra hunheard
      exact not_announced hs hunheard hall.1.1
  · intro hheard
    refine (h.along (I := fun _ s => Announced s) ?_ ?_ hheard).1
    · intro s hinit
      refine ⟨fun guard hguard => ?_, hinit.2.2⟩
      rw [hinit.1] at hguard
      cases hguard
    · intro es s a s' hannounced hs hheard
      have hafter := hannounced.step hs hheard
      exact ⟨⟨hafter, hannounced.retried⟩, hafter⟩

end

/-! ### An unstaffed office

    The package was drafted with 15 days, and the sources now say 20. -/

namespace Office

def cited : PreparationCase :=
  { id := { text := "case" }, createdBy := an, title := "Máy chủ", state := .published }

def citedApproach : PreparationArtifact :=
  { id := { text := "approach" }, artifactType := .procurementApproach, artifactVersion := 1
    status := .draft, createdBy := an, contentHash := ""
    content := [("legal_constraints", .obj [("extracted", .obj
      [("min_bid_preparation_days", .num 15), ("article_ref", .str "Điều 45")])])] }

def watching (directory : Directory) : LawScanner :=
  { store := { rows := [⟨cited, 0⟩], artifacts := fun _ => [citedApproach] }
    directory := directory, rules := env.rules }

def changedLaw : List WatchAction :=
  [.poll [⟨cited, 0⟩],
    .review { actor := an, now := 1, recordId := { text := "r" }, alertId := { text := "a" }
              current := .ok (some ⟨some 20, "Điều 45", "tối thiểu 20 ngày"⟩) }]

theorem watching_init (directory : Directory) : (lawWatch env id).init (watching directory) :=
  ⟨rfl, rfl, List.nodup_nil⟩

def marks (test : Event LawScanner WatchAction → Bool) (es : List (Event LawScanner WatchAction))
    (s : LawScanner) : Bool :=
  !s.announced.isEmpty && es.all test

theorem staffed_runs : (lawWatch env id).runs (watching directory) changedLaw
    (marks (fun e => (reviewed e).all (fun p => e.pre.staffed p.1))) = true := by
  decide +kernel

theorem unstaffed_runs : (lawWatch env id).runs (watching []) changedLaw
    (marks (fun e => e.post.store.alerts.isEmpty)) = true := by
  decide +kernel

end Office

theorem heardOf_of_staffed {env : Env} {casefold : String → String}
    {es : List (Event LawScanner WatchAction)}
    (h : ∀ e ∈ es, (reviewed e).all (fun p => e.pre.staffed p.1) = true) :
    Along (HeardOf env casefold) es := by
  induction es with
  | nil => trivial
  | cons e es ih =>
    refine ⟨fun case inp hreviewed guard _ _ _ => ?_,
      ih (fun e he => h e (List.mem_cons_of_mem _ he))⟩
    have hstaffed := h e List.mem_cons_self
    rw [hreviewed] at hstaffed
    exact hstaffed

/-- With an approver the change is announced once. -/
theorem changed_law_announced : ∃ es s, Exec (lawWatch Office.env id) es s ∧ s.announced ≠ [] ∧
    Along (AnnouncedOnce Office.env id) es := by
  obtain ⟨es, s, hexec, htest⟩ := Machine.exec_of_runs (Office.watching_init _) Office.staffed_runs
  rw [Office.marks, Bool.and_eq_true, List.all_eq_true] at htest
  refine ⟨es, s, hexec, ?_, (announced_iff hexec).mpr (heardOf_of_staffed htest.2)⟩
  simpa using htest.1

/-- Without one it is marked as announced, and nobody hears of it. -/
theorem unstaffed_law_change : ¬ ∀ (env : Env) (casefold : String → String)
    (es : List (Event LawScanner WatchAction)) (s : LawScanner),
    Exec (lawWatch env casefold) es s → Along (AnnouncedOnce env casefold) es := by
  intro hclaim
  obtain ⟨es, s, hexec, htest⟩ := Machine.exec_of_runs (Office.watching_init _) Office.unstaffed_runs
  rw [Office.marks, Bool.and_eq_true, List.all_eq_true] at htest
  have halong := hclaim _ _ es s hexec
  cases hexec with
  | start hinit =>
    rw [hinit.1] at htest
    cases htest.1
  | @snoc es s₀ s a hexec hs =>
    have hannounced : Announced s := halong.1.1
    have hnone : s.store.alerts = [] := by
      have hempty := htest.2 _ List.mem_cons_self
      simpa using hempty
    cases hmarks : s.announced with
    | nil =>
      rw [hmarks] at htest
      cases htest.1
    | cons guard rest =>
      have hqueued := hannounced.marked guard (by rw [hmarks]; exact List.mem_cons_self)
      rw [LawStore.Queued, hnone] at hqueued
      cases hqueued

/-! ## Consecutive sweeps -/

section

variable {env : Env} {casefold : String → String} {s s' s₀ : LawScanner}

/-- Sweeps one after the other, from `s₀`: nobody else acts, and no exception
    leaves the loop. -/
def consecutive (env : Env) (casefold : String → String) (s₀ : LawScanner) :
    Machine LawScanner WatchAction where
  init s := s = s₀
  step s a := match a with
    | .poll order => s.step env casefold (.poll order)
    | .review inp =>
      if s.queue.head?.all (fun case => (s.review env casefold case inp).2 != .failed .raised) then
        s.step env casefold (.review inp)
      else none
    | .restart | .change .. => none

def reviewedCases (es : List (Event LawScanner WatchAction)) : List PreparationCase :=
  es.filterMap (fun e => (reviewed e).map (·.1))

def sweeps (es : List (Event LawScanner WatchAction)) : Nat :=
  es.countP (fun e => match e.act with
    | .poll _ => true
    | _ => false)

def SweepsCover (env : Env) (casefold : String → String) (s₀ : LawScanner) : Prop :=
  ∀ es s, Exec (consecutive env casefold s₀) es s → s.queue = [] →
    sweeps es = (s₀.store.waiting.length + s₀.limit - 1) / s₀.limit →
    ∀ row ∈ s₀.store.waiting, row.case ∈ reviewedCases es

inductive SweepMove (s s' : LawScanner) (e : Event LawScanner WatchAction) : Prop where
  | polls (order : List WatchedRow) (listed : LawScanner.Sorted s.store.waiting order)
      (idle : s.queue = []) (queue : s'.queue = (order.take s.limit).map (·.case))
      (none : reviewed e = none) (counted : sweeps [e] = 1)
  | reviews (case : PreparationCase) (inp : ReviewInput) (queue : s.queue = case :: s'.queue)
      (one : reviewed e = some (case, inp)) (counted : sweeps [e] = 0)

theorem review_frame {case : PreparationCase} {inp : ReviewInput} :
    (s.review env casefold case inp).1.store.rows = s.store.rows ∧
      (s.review env casefold case inp).1.limit = s.limit := by
  have hrows : ∀ (before after : LawStore) fault, after.rows = before.rows →
      (before.transact after fault).1.rows = before.rows := by
    intro before after fault hsame
    cases fault with
    | none => exact hsame
    | some f =>
      simp only [LawStore.transact]
      split
      · exact hsame
      · rfl
  unfold LawScanner.review
  split
  · exact ⟨rfl, rfl⟩
  · exact ⟨rfl, rfl⟩
  · next drafted current _ =>
    have hrecorded := hrows s.store (s.store.recorded env case drafted current inp.recordId inp.actor
      inp.now (drafted.differsFrom casefold current)) inp.recordFault rfl
    dsimp only
    split
    · next store f htransact =>
      rw [htransact] at hrecorded
      exact ⟨hrecorded, rfl⟩
    · next store htransact =>
      rw [htransact] at hrecorded
      split
      · unfold LawScanner.announce
        dsimp only
        split
        · exact ⟨hrecorded, rfl⟩
        · have halerted := hrows store (store.alerted env casefold case drafted current s.directory
            s.rules inp.alertId inp.now) inp.alertFault alerted_rows
          split
          · next hsent =>
            rw [hsent] at halerted
            exact ⟨halerted.trans hrecorded, rfl⟩
          · next hsent =>
            rw [hsent] at halerted
            exact ⟨halerted.trans hrecorded, rfl⟩
      · exact ⟨hrecorded, rfl⟩

/-- **Steps of a sweep**: it lists the cases, or reviews the next one; the rows and
    the limit stay. -/
theorem sweep_step {a : WatchAction}
    (h : (consecutive env casefold s₀).step s a = some s') :
    SweepMove s s' ⟨s, a, s'⟩ ∧ s'.store.rows = s.store.rows ∧ s'.limit = s.limit := by
  cases a with
  | poll order =>
    have hs : s.step env casefold (.poll order) = some s' := h
    simp only [LawScanner.step] at hs
    split at hs
    · next hdue =>
      obtain rfl := Option.some.inj hs
      exact ⟨.polls order hdue.2 hdue.1 rfl rfl rfl, rfl, rfl⟩
    · cases hs
  | review inp =>
    simp only [consecutive] at h
    split at h
    · next hquiet =>
      simp only [LawScanner.step] at h
      split at h
      · cases h
      · next case rest hqueue =>
        rw [hqueue, List.head?_cons, Option.all_some, bne_iff_ne] at hquiet
        obtain rfl := Option.some.inj h
        obtain ⟨hrows, hlimit⟩ := @review_frame env casefold s case inp
        refine ⟨.reviews case inp ?_ (by simp only [reviewed, hqueue]) rfl, ?_, ?_⟩
        · rw [hqueue]
          refine congrArg (case :: ·) ?_
          unfold LawScanner.proceed
          split
          · rfl
          · next hraised => exact absurd hraised hquiet
          · rfl
          · rfl
          · rfl
        · rw [proceed_store]
          exact hrows
        · rw [← hlimit]
          unfold LawScanner.proceed
          split <;> rfl
    · cases h
  | restart => cases h
  | change => cases h

theorem sweeps_cons (e : Event LawScanner WatchAction) (es : List (Event LawScanner WatchAction)) :
    sweeps (e :: es) = sweeps es + sweeps [e] := by
  unfold sweeps
  rw [List.countP_cons, List.countP_cons, List.countP_nil, Nat.zero_add]

theorem mem_reviewedCases {e : Event LawScanner WatchAction}
    {es : List (Event LawScanner WatchAction)} {case : PreparationCase} :
    case ∈ reviewedCases (e :: es) ↔
      (∃ inp, reviewed e = some (case, inp)) ∨ case ∈ reviewedCases es := by
  unfold reviewedCases
  cases hreviewed : reviewed e with
  | none => simp [hreviewed]
  | some p =>
    obtain ⟨case', inp⟩ := p
    simp [hreviewed, eq_comm]

theorem sweeps_frame {es : List (Event LawScanner WatchAction)}
    (h : Exec (consecutive env casefold s₀) es s) :
    s.store.rows = s₀.store.rows ∧ s.limit = s₀.limit := by
  refine h.invariant (P := fun s => s.store.rows = s₀.store.rows ∧ s.limit = s₀.limit) ?_ ?_
  · intro s hinit
    rw [show s = s₀ from hinit]
    exact ⟨rfl, rfl⟩
  · intro s a s' hp hs
    obtain ⟨-, hrows, hlimit⟩ := sweep_step hs
    exact ⟨hrows.trans hp.1, hlimit.trans hp.2⟩

theorem sweep_covers (hle : s₀.store.waiting.length ≤ s₀.limit) {row : WatchedRow}
    (hrow : row ∈ s₀.store.waiting) {es : List (Event LawScanner WatchAction)}
    (h : Exec (consecutive env casefold s₀) es s) (hone : 0 < sweeps es) :
    row.case ∈ reviewedCases es ∨ row.case ∈ s.queue := by
  induction h with
  | start _ => cases hone
  | @snoc es s s' a h hs ih =>
    obtain ⟨hmove, -, -⟩ := sweep_step hs
    obtain ⟨hrows, hlimit⟩ := sweeps_frame h
    rw [sweeps_cons] at hone
    cases hmove with
    | polls order hsorted _ hqueue _ _ =>
      -- the whole listing is queued
      have hwaiting : s.store.waiting = s₀.store.waiting := by
        rw [LawStore.waiting, hrows, ← LawStore.waiting]
      have hall : order.take s.limit = order := by
        refine List.take_of_length_le ?_
        rw [hsorted.1.length_eq, hwaiting, hlimit]
        exact hle
      refine .inr ?_
      rw [hqueue, hall]
      refine List.mem_map_of_mem ((hsorted.1.mem_iff).mpr ?_)
      rw [hwaiting]
      exact hrow
    | reviews case inp hqueue hreviewed hcounted =>
      rw [hcounted, Nat.add_zero] at hone
      rcases ih hone with hdone | hleft
      · exact .inl (mem_reviewedCases.mpr (.inr hdone))
      · rw [hqueue] at hleft
        rcases List.mem_cons.mp hleft with heq | hrest
        · exact .inl (mem_reviewedCases.mpr (.inl ⟨inp, heq ▸ hreviewed⟩))
        · exact .inr hrest

def silentReview : ReviewInput :=
  { actor := { text := "an" }, now := 0, recordId := { text := "r" }, alertId := { text := "a" }
    current := .ok none }

theorem review_silent {case : PreparationCase} :
    s.review env casefold case silentReview = (s, .unverified) := by
  have hpositions : s.positions env case silentReview = .ok none := by
    unfold LawScanner.positions
    dsimp only [silentReview]
    split
    · rfl
    · split <;> rfl
  unfold LawScanner.review
  rw [hpositions]

theorem drain {es : List (Event LawScanner WatchAction)}
    (h : Exec (consecutive env casefold s₀) es s) : ∃ es' s',
    Exec (consecutive env casefold s₀) es' s' ∧ s'.queue = [] ∧ sweeps es' = sweeps es ∧
      ∀ case ∈ reviewedCases es', case ∈ reviewedCases es ∨ case ∈ s.queue := by
  induction hqueue : s.queue generalizing es s with
  | nil => exact ⟨es, s, h, hqueue, rfl, fun case hcase => .inl hcase⟩
  | cons case rest ih =>
    let s₁ := s.proceed case rest .unverified
    have hs : (consecutive env casefold s₀).step s (.review silentReview) = some s₁ := by
      simp only [consecutive, hqueue, List.head?_cons, Option.all_some, review_silent]
      rw [if_pos (by decide)]
      simp only [LawScanner.step, hqueue, review_silent]
      rfl
    obtain ⟨es', s', hexec, hidle, hsweeps, hreviewed⟩ := ih (h.snoc hs) rfl
    refine ⟨es', s', hexec, hidle, ?_, fun c hc => ?_⟩
    · rw [hsweeps, sweeps_cons]
      rfl
    · rcases hreviewed c hc with hdone | hleft
      · rcases mem_reviewedCases.mp hdone with ⟨inp, hthis⟩ | hbefore
        · simp only [reviewed, hqueue, Option.some.injEq, Prod.mk.injEq] at hthis
          rw [← hthis.1]
          exact .inr List.mem_cons_self
        · exact .inl hbefore
      · exact .inr (List.mem_cons_of_mem _ hleft)

theorem same_sweeps (hidle : s₀.queue = []) {order : List WatchedRow}
    (horder : LawScanner.Sorted s₀.store.waiting order) (m : Nat) : ∃ es s,
    Exec (consecutive env casefold s₀) es s ∧ s.queue = [] ∧ sweeps es = m ∧
      ∀ case ∈ reviewedCases es, case ∈ (order.take s₀.limit).map (·.case) := by
  induction m with
  | zero =>
    refine ⟨[], s₀, .start rfl, hidle, rfl, fun case hcase => ?_⟩
    cases hcase
  | succ m ih =>
    obtain ⟨es, s, h, hqueue, hsweeps, hreviewed⟩ := ih
    obtain ⟨hrows, hlimit⟩ := sweeps_frame h
    have hsorted : LawScanner.Sorted s.store.waiting order := by
      rw [LawStore.waiting, hrows, ← LawStore.waiting]
      exact horder
    have hs : (consecutive env casefold s₀).step s (.poll order) = some
        { s with queue := (order.take s.limit).map (·.case), report := {} } := by
      simp only [consecutive, LawScanner.step]
      rw [if_pos ⟨hqueue, hsorted⟩]
    obtain ⟨es', s', hexec, hidle', hsweeps', hreviewed'⟩ := drain (h.snoc hs)
    refine ⟨es', s', hexec, hidle', ?_, fun c hc => ?_⟩
    · rw [hsweeps', sweeps_cons, hsweeps]
      rfl
    · rcases hreviewed' c hc with hdone | hqueued
      · rcases mem_reviewedCases.mp hdone with ⟨inp, hthis⟩ | hbefore
        · cases hthis
        · exact hreviewed c hbefore
      · rw [← hlimit]
        exact hqueued

theorem exists_sorted (rows : List WatchedRow) : ∃ order, LawScanner.Sorted rows order := by
  refine ⟨rows.insertionSort (fun a b => a.updatedAt ≤ b.updatedAt), List.perm_insertionSort _ _, ?_⟩
  have : IsTrans WatchedRow (fun a b => a.updatedAt ≤ b.updatedAt) := ⟨fun _ _ _ => le_trans⟩
  have : Std.Total (fun a b : WatchedRow => a.updatedAt ≤ b.updatedAt) :=
    ⟨fun a b => le_total a.updatedAt b.updatedAt⟩
  exact List.pairwise_insertionSort _ _

/-- **Main theorem on coverage**: consecutive sweeps come to every waiting case
    exactly if the limit covers them all. -/
theorem sweeps_cover_iff (hidle : s₀.queue = []) (hlimit : 0 < s₀.limit)
    (hkeys : (s₀.store.waiting.map (·.case.id)).Nodup) :
    SweepsCover env casefold s₀ ↔ s₀.store.waiting.length ≤ s₀.limit := by
  constructor
  · intro hcover
    by_contra hmany
    rw [not_le] at hmany
    obtain ⟨order, horder⟩ := exists_sorted s₀.store.waiting
    obtain ⟨es, s, h, hqueue, hsweeps, hreviewed⟩ := @same_sweeps env casefold s₀ hidle order
      horder ((s₀.store.waiting.length + s₀.limit - 1) / s₀.limit)
    -- the row behind the limit is never listed
    have hlong : s₀.limit < order.length := by
      rw [horder.1.length_eq]
      exact hmany
    have hnodup : (order.map (·.case.id)).Nodup :=
      (horder.1.map _).nodup_iff.mpr hkeys
    have hcovered := hcover es s h hqueue hsweeps order[s₀.limit]
      (horder.1.mem_iff.mp (List.getElem_mem hlong))
    obtain ⟨row, hrow, hsame⟩ := List.mem_map.mp (hreviewed _ hcovered)
    obtain ⟨i, hi, hget⟩ := List.getElem_of_mem hrow
    rw [List.getElem_take] at hget
    rw [List.length_take] at hi
    have hindex : i = s₀.limit := by
      have hi' : i < (order.map (·.case.id)).length := by
        rw [List.length_map]
        omega
      have hlimit : s₀.limit < (order.map (·.case.id)).length := by
        rw [List.length_map]
        exact hlong
      refine (@List.Nodup.getElem_inj_iff _ _ hnodup i hi' s₀.limit hlimit).mp ?_
      · rw [List.getElem_map, List.getElem_map, hget]
        exact congrArg PreparationCase.id hsame
    omega
  · intro hle es s h hqueue hsweeps row hrow
    have hpos : 0 < s₀.store.waiting.length := List.length_pos_of_mem hrow
    have hone : 0 < sweeps es := by
      rw [hsweeps]
      exact Nat.div_pos (by omega) hlimit
    rcases sweep_covers hle hrow h hone with hdone | hleft
    · exact hdone
    · rw [hqueue] at hleft
      cases hleft

end

namespace Office

def laterCase : PreparationCase := { cited with id := { text := "later" } }

def backlog : LawScanner :=
  { watching directory with
    store := { rows := [⟨cited, 0⟩, ⟨laterCase, 1⟩] }
    limit := 1 }

def twoSweeps : List WatchAction :=
  [.poll [⟨cited, 0⟩, ⟨laterCase, 1⟩], .review silentReview,
    .poll [⟨cited, 0⟩, ⟨laterCase, 1⟩], .review silentReview]

theorem backlog_runs : (consecutive env id backlog).runs backlog twoSweeps
    (fun es s => s.queue.isEmpty && sweeps es == 2 && !(reviewedCases es).contains laterCase) =
      true := by
  decide +kernel

end Office

/-- One case under the limit of twenty is reviewed. -/
theorem single_case_covered : SweepsCover Office.env id (Office.watching Office.directory) :=
  (sweeps_cover_iff rfl (by decide) (by decide)).mpr (by decide)

/-- Both sweeps review the first case, and none the second. -/
theorem later_case_starved : ¬ ∀ (env : Env) (casefold : String → String) (s₀ : LawScanner),
    s₀.queue = [] → 0 < s₀.limit → (s₀.store.waiting.map (·.case.id)).Nodup →
    SweepsCover env casefold s₀ := by
  intro hclaim
  have hcover := hclaim Office.env id Office.backlog rfl (by decide) (by decide)
  obtain ⟨es, s, hexec, htest⟩ := Machine.exec_of_runs (M := consecutive Office.env id Office.backlog)
    rfl Office.backlog_runs
  rw [Bool.and_eq_true, Bool.and_eq_true] at htest
  obtain ⟨⟨hidle, hsweeps⟩, hmissed⟩ := htest
  have hreviewed := hcover es s hexec (List.isEmpty_iff.mp hidle)
    ((beq_iff_eq.mp hsweeps).trans (by decide)) ⟨Office.laterCase, 1⟩ (by decide)
  rw [Bool.not_eq_true', List.contains_eq_mem] at hmissed
  simp only [decide_eq_false_iff_not] at hmissed
  exact hmissed hreviewed

end DigitalWorker
