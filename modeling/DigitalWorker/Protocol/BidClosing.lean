import DigitalWorker.Protocol.AutoCp4

/-! # Closing the register at its moment

    A poll lists the open cases whose bids have closed, the earliest first and
    twenty at most, and asks for CP4 of each that this process has not dealt with.
    It has dealt with a case once the request came back, also with a refusal: then
    the case is in a set that nothing is taken out of.
-/

namespace DigitalWorker

open Framework

/-! ## The scanner -/

structure ClosingReport where
  closed : List String := []
  skipped : List String := []
  deriving DecidableEq

/-- `BidClosingScanner`, with the cases it acts on. -/
structure ClosingScanner where
  workspace : Workspace
  seen : List Uuid := []

structure ClosingPoll where
  scanner : ClosingScanner
  report : ClosingReport := {}
  /-- The cases whose request has come back, one way or the other. -/
  asked : List Uuid := []

namespace ClosingPoll

variable (p : ClosingPoll)

/-- `_seen.add(case_id)`. -/
def mark (caseId : Uuid) : ClosingPoll :=
  { p with
    scanner := { p.scanner with seen := caseId :: p.scanner.seen }
    asked := caseId :: p.asked }

/-- `except DWError`: no silent retry. -/
def skip (case : PreparationCase) (e : Error) : ClosingPoll :=
  { p with report := { p.report with
      skipped := p.report.skipped ++ [case.title ++ ": " ++ e.message] } }.mark case.id

def closedText (case : PreparationCase) (count : Nat) (minimum : Int) : String :=
  case.title ++ ": đã tới hạn, trình CP4 với " ++ toString count ++ " hồ sơ" ++
    (if minimum ≤ count then ""
      else " (chỉ " ++ toString count ++ "/" ++ toString minimum ++ " nhà cung cấp tối thiểu)")

def close (case : PreparationCase) (count : Nat) (minimum : Int) : ClosingPoll :=
  { p with report := { p.report with
      closed := p.report.closed ++ [closedText case count minimum] } }.mark case.id

end ClosingPoll

/-- The loop of `poll_once`, with what else the requests meet; `false` when an
    exception leaves it. -/
def closingLoop (env : Env) (call : Call) (faults : Uuid → Option HandlerFault) :
    List PreparationCase → ClosingPoll → ClosingPoll × Bool
  | [], p => (p, true)
  | case :: rest, p =>
    if case.id ∈ p.scanner.seen then closingLoop env call faults rest p
    else
      match faults case.id with
      | some .raised => (p, false)
      | some (.refused e) => closingLoop env call faults rest (p.skip case e)
      | none =>
        match p.scanner.workspace.requestCp4 env call case.id with
        | .error e => closingLoop env call faults rest (p.skip case e)
        | .ok (workspace, count) =>
          let p := { p with scanner := { p.scanner with workspace := workspace } }
          match env.rules.selectMethod case.estimatedValueMinor with
          -- an `IndexError`, after the request and before the mark
          | .error _ => (p, false)
          | .ok method => closingLoop env call faults rest (p.close case count method.minSuppliers)

/-! ## Listing -/

namespace Workspace

variable (s : Workspace)

def closingOf (caseId : Uuid) : Option DateTime :=
  (s.caseOf caseId).bind (fun w => w.db.case.bidsCloseAt)

def isDue (now : DateTime) (case : PreparationCase) : Bool :=
  [CaseState.published, CaseState.receivingBids].contains case.state &&
    case.bidsCloseAt.any (fun t => decide (t ≤ now))

/-- The cases `list_due_for_closing` selects from. -/
def due (now : DateTime) : List PreparationCase := (s.worlds.map (·.db.case)).filter (isDue now)

def IsOrder (now : DateTime) (order : List Uuid) : Prop :=
  order.Perm ((s.due now).map (·.id)) ∧
    order.Pairwise (fun a b => (s.closingOf a).getD 0 ≤ (s.closingOf b).getD 0)

instance (now : DateTime) (order : List Uuid) : Decidable (s.IsOrder now order) :=
  inferInstanceAs (Decidable (_ ∧ _))

/-- `list_due_for_closing`. -/
def listDue (order : List Uuid) : List PreparationCase :=
  (order.take 20).filterMap (fun caseId => (s.caseOf caseId).map (·.db.case))

end Workspace

/-! ## Runs -/

structure PollInput where
  call : Call
  order : List Uuid
  faults : Uuid → Option HandlerFault := fun _ => none

inductive ClosingAction where
  /-- Anybody else acts on the cases. -/
  | others (a : WorkspaceAction)
  | poll (inp : PollInput)
  /-- The process dies; another one takes its place. -/
  | restart

/-- `poll_once`. -/
def ClosingScanner.poll (env : Env) (s : ClosingScanner) (inp : PollInput) : ClosingPoll × Bool :=
  closingLoop env inp.call inp.faults (s.workspace.listDue inp.order) { scanner := s }

def ClosingScanner.step (env : Env) (s : ClosingScanner) : ClosingAction → Option ClosingScanner
  | .others a =>
    match s.workspace.step env a with
    | some workspace => some { s with workspace := workspace }
    | none => none
  | .poll inp =>
    if s.workspace.IsOrder inp.call.now inp.order then some (s.poll env inp).1.scanner else none
  | .restart => some { s with seen := [] }

def closing (env : Env) : Machine ClosingScanner ClosingAction where
  init s := (∀ w ∈ s.workspace.worlds, Reachable (preparation env) w) ∧ s.seen = []
  step := ClosingScanner.step env

/-! ## The property and the condition -/

def finishedPoll (env : Env) (e : Event ClosingScanner ClosingAction) :
    Option (PollInput × ClosingPoll) :=
  match e.act with
  | .poll inp => if (e.pre.poll env inp).2 then some (inp, (e.pre.poll env inp).1) else none
  | _ => none

def askedAbout (env : Env) (e : Event ClosingScanner ClosingAction) : List Uuid :=
  match e.act with
  | .poll inp => (e.pre.poll env inp).1.asked
  | _ => []

def CardQueued (c : Uuid) (e : Event ClosingScanner ClosingAction) : Prop :=
  ∃ dedupe, cardKey c "CP4" dedupe ∈ e.post.workspace.keysOf c ∧
    cardKey c "CP4" dedupe ∉ e.pre.workspace.keysOf c

def Carded (es : List (Event ClosingScanner ClosingAction)) (c : Uuid) (t : DateTime) : Prop :=
  ∃ e ∈ es, CardQueued c e ∧ e.pre.workspace.closingOf c = some t

structure OwedCp4 (es : List (Event ClosingScanner ClosingAction)) (s : ClosingScanner)
    (now : DateTime) (w : World) : Prop where
  known : w ∈ s.workspace.worlds
  due : Workspace.isDue now w.db.case = true
  bids : submissions w.db ≠ []
  uncarded : ∀ t, w.db.case.bidsCloseAt = some t → ¬ Carded es w.db.case.id t

/-- **The property**: a poll that comes to its end has asked about every case that
    was owed it. -/
def NothingForgotten (env : Env) (es : List (Event ClosingScanner ClosingAction))
    (e : Event ClosingScanner ClosingAction) : Prop :=
  ∀ inp p, finishedPoll env e = some (inp, p) → ∀ w, OwedCp4 es e.pre inp.call.now w →
    w.db.case.id ∈ p.asked

def dealtWith (env : Env) (es : List (Event ClosingScanner ClosingAction)) (c : Uuid) : Bool :=
  (es.takeWhile (fun e => match e.act with
    | .restart => false
    | _ => true)).any (fun e => (askedAbout env e).contains c)

/-- **The condition**: a case that is owed is among the first twenty that are due,
    and this process has not asked about it before. -/
def FirstAsked (env : Env) (es : List (Event ClosingScanner ClosingAction))
    (e : Event ClosingScanner ClosingAction) : Prop :=
  ∀ inp p, finishedPoll env e = some (inp, p) → ∀ w, OwedCp4 es e.pre inp.call.now w →
    w.db.case.id ∈ inp.order.take 20 ∧ dealtWith env es w.db.case.id = false

/-! ## The loop -/

section

variable {env : Env} {call : Call} {faults : Uuid → Option HandlerFault}
  {listed : List PreparationCase} {p : ClosingPoll} {s s' : ClosingScanner} {c : Uuid}

/-- What a loop from `p` has asked about, and whether that is all of `cases` that
    was not seen. -/
structure LoopAsked (listed : List PreparationCase) (p p' : ClosingPoll) (finished : Bool)
    (new : List Uuid) : Prop where
  asked : p'.asked = new ++ p.asked
  seen : p'.scanner.seen = new ++ p.scanner.seen
  all : finished = true → ∀ c, c ∈ new ↔ c ∈ listed.map (·.id) ∧ c ∉ p.scanner.seen

theorem LoopAsked.after {case : PreparationCase} {p₁ p' : ClosingPoll} {finished : Bool}
    {new : List Uuid} (hnot : case.id ∉ p.scanner.seen)
    (hasked : p₁.asked = case.id :: p.asked)
    (hseen : p₁.scanner.seen = case.id :: p.scanner.seen) (h : LoopAsked listed p₁ p' finished new) :
    LoopAsked (case :: listed) p p' finished (new ++ [case.id]) := by
  refine ⟨?_, ?_, fun hfinished c => ?_⟩
  · rw [h.asked, hasked, List.append_assoc, List.singleton_append]
  · rw [h.seen, hseen, List.append_assoc, List.singleton_append]
  · rw [List.mem_append, List.mem_singleton, h.all hfinished, hseen, List.map_cons, List.mem_cons,
      List.mem_cons, not_or]
    by_cases hc : c = case.id
    · subst hc
      simp [hnot]
    · simp [hc]

/-- **The loop** marks what it asks about, and asks about what was not marked. -/
theorem closingLoop_asked : ∃ new, LoopAsked listed p (closingLoop env call faults listed p).1
    (closingLoop env call faults listed p).2 new := by
  induction listed generalizing p with
  | nil => exact ⟨[], rfl, rfl, fun _ c => by simp⟩
  | cons case rest ih =>
    unfold closingLoop
    by_cases hmarked : case.id ∈ p.scanner.seen
    · rw [if_pos hmarked]
      obtain ⟨new, h⟩ := @ih p
      refine ⟨new, h.asked, h.seen, fun hfinished c => ?_⟩
      rw [h.all hfinished, List.map_cons, List.mem_cons]
      constructor
      · intro hc
        exact ⟨.inr hc.1, hc.2⟩
      · rintro ⟨rfl | hrest, hnot⟩
        · exact absurd hmarked hnot
        · exact ⟨hrest, hnot⟩
    · rw [if_neg hmarked]
      have hraised : ∀ scanner : ClosingScanner, scanner.seen = p.scanner.seen →
          LoopAsked (case :: rest) p { p with scanner := scanner } false [] := fun scanner hsame =>
        ⟨rfl, hsame, fun hfinished => by cases hfinished⟩
      cases faults case.id with
      | some fault =>
        cases fault with
        | raised => exact ⟨[], hraised p.scanner rfl⟩
        | refused e =>
          obtain ⟨new, h⟩ := @ih (p.skip case e)
          exact ⟨_, h.after hmarked rfl rfl⟩
      | none =>
        dsimp only
        split
        · next e _ =>
          obtain ⟨new, h⟩ := @ih (p.skip case e)
          exact ⟨_, h.after hmarked rfl rfl⟩
        · next workspace count _ =>
          split
          · exact ⟨[], hraised _ rfl⟩
          · next method _ =>
            obtain ⟨new, h⟩ := @ih (ClosingPoll.close
              { p with scanner := { p.scanner with workspace := workspace } } case count
              method.minSuppliers)
            exact ⟨_, h.after hmarked rfl rfl⟩

theorem poll_asked {inp : PollInput} (hfinished : (s.poll env inp).2 = true) :
    c ∈ (s.poll env inp).1.asked ↔
      c ∈ (s.workspace.listDue inp.order).map (·.id) ∧ c ∉ s.seen := by
  obtain ⟨new, h⟩ : ∃ new, LoopAsked (s.workspace.listDue inp.order) { scanner := s }
      (s.poll env inp).1 (s.poll env inp).2 new := closingLoop_asked
  have hasked : (s.poll env inp).1.asked = new := h.asked.trans (List.append_nil _)
  rw [hasked]
  exact h.all hfinished c

theorem poll_seen {inp : PollInput} :
    c ∈ (s.poll env inp).1.scanner.seen ↔ c ∈ (s.poll env inp).1.asked ∨ c ∈ s.seen := by
  obtain ⟨new, h⟩ : ∃ new, LoopAsked (s.workspace.listDue inp.order) { scanner := s }
      (s.poll env inp).1 (s.poll env inp).2 new := closingLoop_asked
  have hasked : (s.poll env inp).1.asked = new := h.asked.trans (List.append_nil _)
  have hseen : (s.poll env inp).1.scanner.seen = new ++ s.seen := h.seen
  rw [hseen, List.mem_append, hasked]

theorem mem_listDue {workspace : Workspace} {order : List Uuid} {w : World}
    (hw : w ∈ workspace.worlds) :
    w.db.case.id ∈ (workspace.listDue order).map (·.id) ↔ w.db.case.id ∈ order.take 20 := by
  obtain ⟨v, hv⟩ : ∃ v, workspace.caseOf w.db.case.id = some v := by
    rw [← Option.isSome_iff_exists, Workspace.caseOf, List.find?_isSome]
    exact ⟨w, hw, beq_self_eq_true _⟩
  unfold Workspace.listDue
  rw [List.map_filterMap, List.mem_filterMap]
  constructor
  · rintro ⟨caseId, hmem, hid⟩
    obtain ⟨case, hcase, heq⟩ := Option.map_eq_some_iff.mp hid
    obtain ⟨u, hu, rfl⟩ := Option.map_eq_some_iff.mp hcase
    rw [← heq, (caseOf_some hu).2]
    exact hmem
  · intro hmem
    refine ⟨_, hmem, ?_⟩
    rw [hv, Option.map_some, Option.map_some, (caseOf_some hv).2]

end

/-! ## What a process has seen -/

section

variable {env : Env} {s s' : ClosingScanner} {es : List (Event ClosingScanner ClosingAction)}

/-- **Seen**: a process has in its set what it has asked about, and nothing
    leaves the set before the process dies. -/
theorem seen_iff (h : Exec (closing env) es s) (c : Uuid) :
    c ∈ s.seen ↔ dealtWith env es c = true := by
  refine h.history_invariant (P := fun es s => c ∈ s.seen ↔ dealtWith env es c = true) ?_ ?_
  · intro s hinit
    rw [hinit.2]
    simp [dealtWith]
  · intro es s a s' _ ih hs
    cases a with
    | others b =>
      simp only [closing, ClosingScanner.step] at hs
      split at hs
      · obtain rfl := Option.some.inj hs
        show c ∈ s.seen ↔ _
        rw [ih]
        simp [dealtWith, askedAbout]
      · cases hs
    | poll inp =>
      simp only [closing, ClosingScanner.step] at hs
      split at hs
      · obtain rfl := Option.some.inj hs
        rw [poll_seen, ih]
        simp [dealtWith, askedAbout]
      · cases hs
    | restart =>
      obtain rfl := Option.some.inj hs
      show c ∈ ([] : List Uuid) ↔ _
      simp [dealtWith]

theorem forgotten_iff (h : Exec (closing env) es s) (a : ClosingAction) :
    NothingForgotten env es ⟨s, a, s'⟩ ↔ FirstAsked env es ⟨s, a, s'⟩ := by
  refine forall_congr' (fun inp => forall_congr' (fun p => forall_congr' (fun hpoll =>
    forall_congr' (fun w => forall_congr' (fun howed => ?_)))))
  obtain ⟨hfinished, hp⟩ : (s.poll env inp).2 = true ∧ p = (s.poll env inp).1 := by
    unfold finishedPoll at hpoll
    split at hpoll
    · split at hpoll
      · next hdone =>
        obtain ⟨rfl, rfl⟩ := Prod.mk.inj (Option.some.inj hpoll)
        exact ⟨hdone, rfl⟩
      · cases hpoll
    · cases hpoll
  rw [hp, poll_asked hfinished, mem_listDue howed.known, seen_iff h, Bool.not_eq_true]

/-- **Main theorem**: in a run every finished poll asks about every closed case
    that is owed, exactly if each such case is among the first twenty, and the
    process has not asked about it before. -/
theorem nothing_forgotten_iff (h : Exec (closing env) es s) :
    Along (NothingForgotten env) es ↔ Along (FirstAsked env) es := by
  induction h with
  | start _ => rfl
  | snoc h hs ih => exact and_congr (forgotten_iff h _) ih

end

/-! ### A bid before the first poll, and one after it -/

def freshPoll (env : Env) (es : List (Event ClosingScanner ClosingAction))
    (e : Event ClosingScanner ClosingAction) : Bool :=
  match e.act with
  | .poll inp => e.pre.workspace.worlds.all (fun w =>
      (inp.order.take 20).contains w.db.case.id && !dealtWith env es w.db.case.id)
  | _ => true

theorem firstAsked_of_fresh {env : Env} {es : List (Event ClosingScanner ClosingAction)}
    {e : Event ClosingScanner ClosingAction} (h : freshPoll env es e = true) :
    FirstAsked env es e := by
  intro inp p hpoll w howed
  have hact : e.act = .poll inp := by
    unfold finishedPoll at hpoll
    split at hpoll
    · next inp' hact =>
      split at hpoll
      · obtain ⟨rfl, -⟩ := Prod.mk.inj (Option.some.inj hpoll)
        exact hact
      · cases hpoll
    · cases hpoll
  rw [freshPoll, hact] at h
  have hw := List.all_eq_true.mp h w howed.known
  rw [Bool.and_eq_true, List.contains_iff_mem, Bool.not_eq_true'] at hw
  exact hw

namespace Office

def closingOffice : ClosingScanner := { workspace := mailOffice }

theorem closing_init : (closing env).init closingOffice := by
  refine ⟨?_, rfl⟩
  intro w hw
  rw [List.mem_singleton.mp hw]
  exact publishedCase_reachable

def closingPoll : ClosingAction :=
  .poll { call := { call binh with now := days 20 }, order := [taggedId] }

def bidArrives : ClosingAction := .others (.act taggedId (bid { text := "bid-a" } "late"))

theorem closed_runs : (closing env).runs closingOffice [bidArrives, closingPoll]
    (fun es _ => es.any (fun e => (askedAbout env e).contains taggedId) &&
      decide (Along (fun es e => freshPoll env es e = true) es)) = true := by
  decide +kernel

def forgotten (es : List (Event ClosingScanner ClosingAction)) : Bool :=
  match es with
  | [] => false
  | e :: es =>
    (finishedPoll env e).any (fun r => r.2.asked.isEmpty &&
      e.pre.workspace.worlds.any (fun w => Workspace.isDue r.1.call.now w.db.case &&
        !(submissions w.db).isEmpty && w.db.case.id == taggedId)) &&
      es.all (fun e => (e.post.workspace.keysOf taggedId).all (fun key =>
        !(cardKey taggedId "CP4" "").toList.isPrefixOf key.toList))

-- Bytes, unlike characters, need no decoding.
theorem isPrefixOf_of_bytes {a b : String}
    (h : a.toByteArray.data.toList.isPrefixOf b.toByteArray.data.toList = false) :
    a.toList.isPrefixOf b.toList = false := by
  rw [← Bool.not_eq_true, List.isPrefixOf_iff_prefix] at h ⊢
  rintro ⟨t, ht⟩
  have hb : b = a ++ String.ofList t := by
    rw [← String.toList_inj, String.toList_append, String.toList_ofList, ht]
  exact h ⟨(String.ofList t).toByteArray.data.toList, by simp [hb]⟩

theorem forgotten_runs : (closing env).runs closingOffice [closingPoll, bidArrives, closingPoll]
    (fun es _ => forgotten es) = true := by
  have hrun : (closing env).runs closingOffice [closingPoll, bidArrives, closingPoll]
      (fun es _ => forgotten (es.take 1) && es.tail.all (fun e =>
        (e.post.workspace.keysOf taggedId).all (fun key =>
          !(cardKey taggedId "CP4" "").toByteArray.data.toList.isPrefixOf
            key.toByteArray.data.toList))) = true := by
    decide +kernel
  refine Machine.runs_mono (fun es _ h => ?_) hrun
  cases es with
  | nil => cases h
  | cons e es =>
    simp only [forgotten, List.take_succ_cons, List.take_zero, List.all_nil, Bool.and_true,
      Bool.and_eq_true] at h ⊢
    refine ⟨h.1, List.all_eq_true.mpr fun e' he' => List.all_eq_true.mpr fun key hkey => ?_⟩
    have hbytes := List.all_eq_true.mp (List.all_eq_true.mp h.2 e' he') key hkey
    rw [Bool.not_eq_true'] at hbytes ⊢
    exact isPrefixOf_of_bytes hbytes

end Office

/-- A case that has its bid at the first poll goes to CP4. -/
theorem closed_case_asked : ∃ es s, Exec (closing Office.env) es s ∧
    (∃ e ∈ es, Office.taggedId ∈ askedAbout Office.env e) ∧
    Along (NothingForgotten Office.env) es := by
  obtain ⟨es, s, hexec, htest⟩ := Machine.exec_of_runs Office.closing_init Office.closed_runs
  rw [Bool.and_eq_true, List.any_eq_true, decide_eq_true_eq] at htest
  obtain ⟨⟨e, he, hasked⟩, hfresh⟩ := htest
  refine ⟨es, s, hexec, ⟨e, he, List.contains_iff_mem.mp hasked⟩,
    (nothing_forgotten_iff hexec).mpr (hfresh.mono (fun _ _ h => firstAsked_of_fresh h))⟩

/-- A refused request in an earlier poll, and the case is never asked about. -/
theorem late_bid_forgotten : ¬ ∀ (env : Env) (es : List (Event ClosingScanner ClosingAction))
    (s : ClosingScanner), Exec (closing env) es s → Along (NothingForgotten env) es := by
  intro hclaim
  obtain ⟨es, s, hexec, htest⟩ := Machine.exec_of_runs Office.closing_init Office.forgotten_runs
  have halong := hclaim _ es s hexec
  unfold Office.forgotten at htest
  split at htest
  · cases htest
  · next e es =>
    rw [Bool.and_eq_true, Option.any_eq_true] at htest
    obtain ⟨⟨⟨inp, p⟩, hpoll, hcase⟩, hkeys⟩ := htest
    simp only [Bool.and_eq_true, List.any_eq_true, List.isEmpty_iff, beq_iff_eq] at hcase
    obtain ⟨hnone, w, hw, ⟨hdue, hbids⟩, hid⟩ := hcase
    have hasked := halong.1 inp p hpoll w ⟨hw, hdue, by simpa using hbids, fun t _ hcarded => ?_⟩
    · rw [hnone] at hasked
      cases hasked
    · -- no card was queued
      obtain ⟨e', he', ⟨dedupe, hcard, -⟩, -⟩ := hcarded
      rw [hid] at hcard
      have hkey := List.all_eq_true.mp (List.all_eq_true.mp hkeys e' he') _ hcard
      rw [Bool.not_eq_true', ← Bool.not_eq_true, List.isPrefixOf_iff_prefix] at hkey
      refine hkey ?_
      unfold cardKey jobKey
      simp only [String.toList_append, List.append_assoc, List.prefix_append_right_inj]
      exact List.nil_prefix

end DigitalWorker
