import DigitalWorker.Evaluation.Bidders
import DigitalWorker.Evaluation.World

/-! # The pack and the approval it was given

    A run shows an approver the payload its gate left and exports, once approved,
    what the store has by then. Between the two another analysis may have
    rewritten the requirements, the findings and the recommendation of the case.
-/

namespace DigitalWorker.Evaluation

open Framework TenderWorld

/-! ## The property and the condition -/

def exportDue (e : Event TenderWorld TenderAction) : Option Uuid :=
  match e.act with
  | .node runId _ =>
    match e.pre.due runId with
    | some (r, .exportEvaluationPack) =>
      if r.state.approvalDecision.any (·.approved) then some runId else none
    | _ => none
  | _ => none

def exported (e : Event TenderWorld TenderAction) : Option (Uuid × Dict) :=
  match nodeDone e, e.post.stores.exports with
  | some (runId, .exportEvaluationPack), (_, pack) :: rest =>
    if rest.length = e.pre.stores.exports.length then some (runId, pack) else none
  | _, _ => none

def recommendationOf (pack : Dict) : Dict :=
  match pack.get? "recommendation" with
  | some (.obj d) => d
  | _ => []

structure Belongs (svc : TenderServices) (es : List (Event TenderWorld TenderAction))
    (w : TenderWorld) (runId : Uuid) (pack : Dict) : Prop where
  shown : ∃ q ∈ w.requests, q.runId = some runId ∧ q.status = .approved ∧
    (recommendationOf pack).get? "supplier" = q.payload.get? "recommended_supplier" ∧
    (recommendationOf pack).get? "scores" = q.payload.get? "scores"
  computed : ∃ g requirements outcome draft, es.find? (gateOf runId) = some g ∧
    g.pre.stores.db.listRequirements = .ok requirements ∧
    evaluate svc.policy requirements g.pre.stores.db.listFindings draft = .ok outcome ∧
    (recommendationOf pack).get? "scores" =
      some (.arr ((scoreDicts svc outcome).map .obj)) ∧
    pack.get? "requirements" = some (.arr (requirements.map (fun r => .obj (packRequirement r)))) ∧
    pack.get? "findings" =
      some (.arr (g.pre.stores.db.listFindings.map (fun f => .obj (packFinding f))))
  latest : ∀ e ∈ sinceGate runId es, ∀ other, gateOf other e = false

/-- **Property**: every pack belongs to the approval that led to it. -/
def PacksBelong (svc : TenderServices) (es : List (Event TenderWorld TenderAction))
    (e : Event TenderWorld TenderAction) : Prop :=
  ∀ runId pack, exported e = some (runId, pack) → Belongs svc es e.pre runId pack

/-- **The condition**: when an approved run comes to its export, no node of any
    run has written the rows of the case since its gate. -/
def Undisturbed (es : List (Event TenderWorld TenderAction))
    (e : Event TenderWorld TenderAction) : Prop :=
  ∀ runId ∈ exportDue e, ∀ e' ∈ sinceGate runId es, rewrites e' = false

instance (es : List (Event TenderWorld TenderAction)) (e : Event TenderWorld TenderAction) :
    Decidable (Undisturbed es e) :=
  inferInstanceAs (Decidable (∀ runId ∈ exportDue e, ∀ e' ∈ sinceGate runId es,
    rewrites e' = false))

/-! ## What the approvers were told -/

section

variable {svc : TenderServices} {env : Env} {w w' : TenderWorld}
  {es : List (Event TenderWorld TenderAction)} {runId : Uuid}

structure Told (svc : TenderServices) (es : List (Event TenderWorld TenderAction))
    (w : TenderWorld) : Prop where
  ids : (w.requests.map (·.id)).Nodup
  gated : ∀ runId r, w.runs runId = some r → r.position.pastGate = true →
    ∃ g requirements outcome, es.find? (gateOf runId) = some g ∧
      Filed svc g r.state.approvalPayload requirements outcome
  /-- A request has the payload of its run. -/
  asked : ∀ q ∈ w.requests, ∀ runId, q.runId = some runId → ∃ r, w.runs runId = some r ∧
    r.position.pastGate = true ∧ r.state.approvalPayload = q.payload
  answered : ∀ p ∈ w.resumptions, p.decision.approved = true → Approved w p.runId
  decided : ∀ runId r d, w.runs runId = some r → r.state.approvalDecision = some d →
    d.approved = true → Approved w runId

theorem step_past {a : TenderAction} (h : step svc env w a = some w') {r : TenderRun}
    (hr : w.runs runId = some r) (hpast : r.position.pastGate = true) :
    ∃ r', w'.runs runId = some r' ∧ r'.position.pastGate = true ∧
      r'.state.approvalPayload = r.state.approvalPayload := by
  obtain ⟨r', hr'⟩ := step_keeps h hr
  refine ⟨r', hr', ?_⟩
  cases step_run h hr' with
  | moves r₀ hbefore hshown hpast' _ =>
    obtain rfl := Option.some.inj (hr.symm.trans hbefore)
    exact ⟨hpast'.trans hpast, congrArg Prod.fst hshown⟩
  | starts hbefore =>
    rw [hr] at hbefore
    cases hbefore
  | gates r₀ hbefore hnot =>
    obtain rfl := Option.some.inj (hr.symm.trans hbefore)
    rw [hpast] at hnot
    cases hnot
  | answers r₀ p hbefore _ _ _ hpast' hpayload =>
    obtain rfl := Option.some.inj (hr.symm.trans hbefore)
    exact ⟨hpast', hpayload⟩

theorem told_init (h : (evaluation svc env).init w) : Told svc [] w := by
  obtain ⟨hruns, hrequests, _, hresumptions, _⟩ := h
  constructor
  · rw [hrequests]
    exact List.nodup_nil
  · intro runId r hr
    rw [hruns runId] at hr
    cases hr
  · intro q hq
    rw [hrequests] at hq
    cases hq
  · intro p hp
    rw [hresumptions] at hp
    cases hp
  · intro runId r d hr
    rw [hruns runId] at hr
    cases hr

theorem told_step {a : TenderAction} (htold : Told svc es w) (h : step svc env w a = some w') :
    Told svc (⟨w, a, w'⟩ :: es) w' := by
  constructor
  · exact step_ids h htold.ids
  · intro runId r' hr' hpast
    -- the latest gate of the run is this event or the one before it
    cases step_run h hr' with
    | moves r hbefore hshown hpast' hquiet =>
      obtain ⟨g, requirements, outcome, hg, hfiled⟩ :=
        htold.gated runId r hbefore (hpast'.symm.trans hpast)
      refine ⟨g, requirements, outcome, ?_, ?_⟩
      · rw [List.find?_cons, hquiet]
        exact hg
      · rw [show r'.state.approvalPayload = r.state.approvalPayload from congrArg Prod.fst hshown]
        exact hfiled
    | starts _ hpast' =>
      rw [hpast] at hpast'
      cases hpast'
    | gates r _ _ _ hfiled hgate =>
      obtain ⟨requirements, outcome, hfiled⟩ := hfiled
      refine ⟨_, requirements, outcome, ?_, hfiled⟩
      rw [List.find?_cons, hgate]
    | answers r p hbefore _ _ hpast' _ hpayload _ hquiet =>
      obtain ⟨g, requirements, outcome, hg, hfiled⟩ := htold.gated runId r hbefore hpast'
      refine ⟨g, requirements, outcome, ?_, ?_⟩
      · rw [List.find?_cons, hquiet]
        exact hg
      · rw [hpayload]
        exact hfiled
  · intro q hq runId hrun
    rcases step_request h hq with ⟨q₀, hq₀, hrun₀, hpayload⟩ | ⟨r, runId', hrun', hr, hstands, hq'⟩
    · obtain ⟨r, hr, hpast, hsame⟩ := htold.asked q₀ hq₀ runId (hrun₀.trans hrun)
      obtain ⟨r', hr', hpast', hsame'⟩ := step_past h hr hpast
      exact ⟨r', hr', hpast', (hsame'.trans hsame).trans hpayload⟩
    · obtain rfl := Option.some.inj (hrun'.symm.trans hrun)
      obtain ⟨r', hr', hpast', hsame'⟩ := step_past h hr (by rw [hstands]; rfl)
      exact ⟨r', hr', hpast', hsame'.trans hq'.symm⟩
  · intro p hp happroves
    rcases step_resumption h hp happroves with hold | happroved
    · exact step_approved h htold.ids (htold.answered p hold happroves)
    · exact happroved
  · intro runId r' d hr' hd happroved
    have hold : ∀ r, w.runs runId = some r →
        r'.state.approvalDecision = r.state.approvalDecision → Approved w' runId := by
      intro r hr hsame
      exact step_approved h htold.ids (htold.decided runId r d hr (hsame.symm.trans hd) happroved)
    cases step_run h hr' with
    | moves r hbefore hshown _ _ => exact hold r hbefore (congrArg Prod.snd hshown)
    | starts _ _ hnone =>
      rw [hnone] at hd
      cases hd
    | gates r hbefore _ hsame _ _ => exact hold r hbefore hsame
    | answers r p _ howed hmine _ _ _ hanswer _ =>
      have hdecision : d = p.decision := Option.some.inj (hd.symm.trans hanswer)
      subst hdecision
      have hwas := htold.answered p howed happroved
      rw [hmine] at hwas
      exact step_approved h htold.ids hwas

theorem told (h : Exec (evaluation svc env) es w) : Told svc es w :=
  h.history_invariant (fun _ h0 => told_init h0) (fun _ _ _ _ _ htold hs => told_step htold hs)

/-! ## What an export reads -/

theorem exported_some {a : TenderAction} {pack : Dict} (h : step svc env w a = some w')
    (hexported : exported ⟨w, a, w'⟩ = some (runId, pack)) :
    ∃ inp r decision requirements, a = .node runId inp ∧ w.runs runId = some r ∧
      r.position = .running .exportEvaluationPack ∧ r.state.approvalDecision = some decision ∧
      decision.approved = true ∧ w.stores.db.listRequirements = .ok requirements ∧
      pack = evaluationPack { runId := runId, actorId := r.requestedBy } decision.comment
        requirements w.stores.db := by
  cases a with
  | node runId' inp =>
    obtain ⟨r, n, s, result, writes, hrun, hposition, hran, hdone, rfl⟩ := step_node h
    cases result with
    | error e =>
      have hnone : nodeDone _ = none := hdone
      rw [exported, hnone] at hexported
      cases hexported
    | ok st =>
      have hsome : nodeDone _ = some (runId', n) := hdone
      rw [exported, hsome] at hexported
      split at hexported
      · next runId'' _ pack' rest hnode hexports =>
        obtain ⟨rfl, rfl⟩ := Prod.mk.inj (Option.some.inj hnode)
        split at hexported
        · next hlength =>
          obtain ⟨rfl, rfl⟩ := Prod.mk.inj (Option.some.inj hexported)
          rcases (exportEvaluationPack_ok (committed_ok.mp hran)).1 with
            ⟨decision, key, requirements, hdecision, happroved, hread, rfl⟩ | rfl
          · obtain ⟨hpack, _⟩ := List.cons.inj hexports
            exact ⟨inp, r, decision, requirements, rfl, hrun, hposition, hdecision, happroved,
              hread, (Prod.mk.inj hpack).2.symm⟩
          · -- nothing was exported, so the list cannot have grown
            have hlong : w.stores.exports.length = rest.length + 1 := by
              rw [show w.stores.exports = _ from hexports, List.length_cons]
            have hsame : rest.length = w.stores.exports.length := hlength
            omega
        · cases hexported
      · cases hexported
  | _ => cases hexported

theorem exportDue_eq {inp : NodeInput} {r : TenderRun} {decision : Decision}
    (hrun : w.runs runId = some r) (hposition : r.position = .running .exportEvaluationPack)
    (hdecision : r.state.approvalDecision = some decision) (happroved : decision.approved = true) :
    exportDue ⟨w, .node runId inp, w'⟩ = some runId := by
  have hdue : w.due runId = some (r, .exportEvaluationPack) := due_some.mpr ⟨hrun, hposition⟩
  simp only [exportDue, hdue, hdecision, Option.any_some, happroved, if_pos]

theorem sinceGate_split {g : Event TenderWorld TenderAction}
    (h : es.find? (gateOf runId) = some g) :
    ∃ earlier, es = sinceGate runId es ++ g :: earlier := by
  obtain ⟨hg, later, earlier, hes, hlater⟩ := List.find?_eq_some_iff_append.mp h
  refine ⟨earlier, ?_⟩
  have hsince : sinceGate runId es = later := by
    rw [sinceGate, hes, List.takeWhile_append_of_pos hlater, List.takeWhile_cons, hg]
    simp
  rw [hsince]
  exact hes

/-- **Rows since the gate**: what no node has written since is what the gate
    left. -/
theorem rows_since {g : Event TenderWorld TenderAction} (h : Exec (evaluation svc env) es w)
    (hg : es.find? (gateOf runId) = some g)
    (hquiet : ∀ e ∈ sinceGate runId es, rewrites e = false) :
    w.stores.db.rows = g.post.stores.db.rows := by
  obtain ⟨earlier, hes⟩ := sinceGate_split hg
  rw [hes] at h
  exact h.unchanged_since (f := fun w => w.stores.db.rows) (fun _ _ _ hs he => step_rows hs he)
    hquiet

theorem belongs_of_rows {r : TenderRun} {decision : Decision} {requirements : List Requirement}
    {g : Event TenderWorld TenderAction} {rc : RunContext} (htold : Told svc es w)
    (hrun : w.runs runId = some r) (hpast : r.position.pastGate = true)
    (hdecision : r.state.approvalDecision = some decision) (happroved : decision.approved = true)
    (hread : w.stores.db.listRequirements = .ok requirements)
    (hg : es.find? (gateOf runId) = some g)
    (hquiet : ∀ e ∈ sinceGate runId es, rewrites e = false)
    (hrows : w.stores.db.rows = g.post.stores.db.rows) :
    Belongs svc es w runId (evaluationPack rc decision.comment requirements w.stores.db) := by
  obtain ⟨g', requirements', outcome, hg', hfiled⟩ := htold.gated runId r hrun hpast
  obtain rfl := Option.some.inj (hg.symm.trans hg')
  obtain ⟨hrequirements, hrest⟩ := Prod.mk.inj hrows
  obtain ⟨hfindings, hrecommendation⟩ := Prod.mk.inj hrest
  obtain ⟨recommendation, hfound, hsupplier, hscores⟩ := hfiled.recommendation
  obtain ⟨draft, hcomputed⟩ := hfiled.computed
  -- the export reads what the gate read
  have hsame : requirements' = requirements := by
    have hlisted : w.stores.db.listRequirements = g.pre.stores.db.listRequirements := by
      rw [TenderDb.listRequirements, TenderDb.listRequirements, hrequirements, hfiled.requirements]
    rw [hread, hfiled.read] at hlisted
    exact (Except.ok.inj hlisted).symm
  have hlist : w.stores.db.listFindings = g.pre.stores.db.listFindings := by
    rw [TenderDb.listFindings, TenderDb.listFindings, hfindings, hfiled.findings]
  have hpack : recommendationOf (evaluationPack rc decision.comment requirements w.stores.db) =
      packRecommendation (some recommendation) := by
    rw [← hfound, ← hrecommendation]
    rfl
  constructor
  · obtain ⟨q, hq, hqrun, hqstatus⟩ := htold.decided runId r decision hrun hdecision happroved
    obtain ⟨r', hr', _, hpayload⟩ := htold.asked q hq runId hqrun
    obtain rfl := Option.some.inj (hrun.symm.trans hr')
    refine ⟨q, hq, hqrun, hqstatus, ?_, ?_⟩
    · rw [hpack, ← hpayload, hfiled.supplier, ← hsupplier]
      rfl
    · rw [hpack, ← hpayload, hfiled.scores, ← hscores]
      rfl
  · subst hsame
    refine ⟨g, requirements', outcome, draft, hg, hfiled.read, hcomputed, ?_, rfl, ?_⟩
    · rw [hpack, ← hscores]
      rfl
    · rw [← hlist]
      rfl
  · intro e he other
    have hkept := hquiet e he
    rw [Bool.eq_false_iff]
    intro hgate
    rw [rewrites, beq_iff_eq.mp hgate] at hkept
    cases hkept

end

/-- **Main theorem**: in a run in which nobody writes the rows of the case between
    the gate of an approved analysis and its export, every pack belongs to the
    approval that led to it. -/
theorem packs_belong {svc : TenderServices} {env : Env} {w : TenderWorld}
    {es : List (Event TenderWorld TenderAction)} (h : Exec (evaluation svc env) es w)
    (hundisturbed : Along Undisturbed es) : Along (PacksBelong svc) es := by
  refine (h.along (I := Exec (evaluation svc env)) (fun _ => .start) ?_ hundisturbed).1
  intro es w a w' hexec hs hquiet
  refine ⟨?_, hexec.snoc hs⟩
  intro runId pack hexported
  obtain ⟨inp, r, decision, requirements, rfl, hrun, hposition, hdecision, happroved, hread, rfl⟩ :=
    exported_some hs hexported
  have hpast : r.position.pastGate = true := by rw [hposition]; rfl
  have hsince := hquiet runId (exportDue_eq hrun hposition hdecision happroved)
  obtain ⟨g, _, _, hg, _⟩ := (told hexec).gated runId r hrun hpast
  exact belongs_of_rows (told hexec) hrun hpast hdecision happroved hread hg hsince
    (rows_since hexec hg hsince)

/-! ## Two analyses of one case

    Minh Long and An Phát bid. The first analysis knows of Minh Long only and
    waits for an approver; the second one puts An Phát on top. -/

namespace Tender

def first : Uuid := { text := "first" }
def second : Uuid := { text := "second" }
def request : Uuid := { text := "request" }

def rival : TenderDocument :=
  { id := { text := "d3" }, caseId := { text := "case" }, kind := .supplierSubmission
    title := "Hồ sơ dự thầu An Phát", storageKey := "d3", contentHash := ""
    supplierName := some "An Phát", submitted := by decide +kernel }

def contest : TenderWorld :=
  { stores := { start with db := { start.db with documents := [rfq, submission, rival] } } }

def rivalled : AssessedFinding :=
  { supplierName := "An Phát", requirementCode := "REQ-01", claimedCompliant := true
    rawScore := 90, named := by decide, coded := req01_coded, inRange := ninety_in_range }

def toGate (user runId : Uuid) (inp : NodeInput) : List TenderAction :=
  .analyze (Office.call user) runId :: List.replicate 11 (.node runId inp)

def asked : List TenderAction :=
  toGate Office.an first (answers [spelt] (draftOf "Minh Long" minhLong_named)) ++
    [.createApproval first request 0,
      .setStatus { runId := first, status := .waitingApproval, approvalRequestId := some request }]

def exports : List TenderAction :=
  let approve : DecideCommand := { approvalId := request, approve := true, comment := "đồng ý" }
  [.decide (Office.call Office.binh) approve,
    .resume { runId := first, decision := resumeDecision (Office.call Office.binh) approve },
    .node first (answers [] (draftOf "Minh Long" minhLong_named))]

def overtaken : List TenderAction :=
  asked ++ toGate Office.chi second (answers [spelt, rivalled] (draftOf "An Phát" rivalled.named)) ++
    exports

def textIn (d : Dict) (key : String) : Option String :=
  match d.get? key with
  | some (.str s) => some s
  | _ => none

def packShows (supplier asked : String) : List (Event TenderWorld TenderAction) → Bool
  | [] => false
  | e :: _ =>
    match exported e with
    | none => false
    | some (runId, pack) =>
      textIn (recommendationOf pack) "supplier" == some supplier &&
        e.pre.requests.all (fun q => q.runId != some runId ||
          textIn q.payload "recommended_supplier" == some asked)

theorem contest_init : (evaluation services Office.env).init contest :=
  ⟨fun _ => rfl, rfl, rfl, rfl, rfl⟩

theorem overtaken_runs : (evaluation services Office.env).runs contest overtaken
    (fun es _ => packShows "An Phát" "Minh Long" es) = true := by
  decide +kernel

theorem undisturbed_runs : (evaluation services Office.env).runs contest (asked ++ exports)
    (fun es _ => packShows "Minh Long" "Minh Long" es && Decidable.decide (Along Undisturbed es)) =
      true := by
  decide +kernel

theorem packShows_some {supplier asked : String} {es : List (Event TenderWorld TenderAction)}
    (h : packShows supplier asked es = true) : ∃ e rest runId pack, es = e :: rest ∧
      exported e = some (runId, pack) ∧ textIn (recommendationOf pack) "supplier" = some supplier ∧
      ∀ q ∈ e.pre.requests, q.runId = some runId →
        textIn q.payload "recommended_supplier" = some asked := by
  unfold packShows at h
  split at h
  · cases h
  · next e rest =>
    split at h
    · cases h
    · next runId pack hexported =>
      rw [Bool.and_eq_true] at h
      refine ⟨e, rest, runId, pack, rfl, hexported, beq_iff_eq.mp h.1, ?_⟩
      intro q hq hrun
      have hshown := List.all_eq_true.mp h.2 q hq
      rw [hrun, bne_self_eq_false, Bool.false_or] at hshown
      exact beq_iff_eq.mp hshown

end Tender

/-- One analysis at a time: its pack is what was approved. -/
theorem approved_exported : ∃ es w, Exec (evaluation Tender.services Office.env) es w ∧
    (∃ e ∈ es, (exported e).isSome = true) ∧ Along (PacksBelong Tender.services) es := by
  obtain ⟨es, w, hexec, htest⟩ :=
    Machine.exec_of_runs Tender.contest_init Tender.undisturbed_runs
  obtain ⟨hshows, hquiet⟩ := Bool.and_eq_true_iff.mp htest
  refine ⟨es, w, hexec, ?_, packs_belong hexec (of_decide_eq_true hquiet)⟩
  obtain ⟨e, rest, runId, pack, rfl, hexported, _⟩ := Tender.packShows_some hshows
  exact ⟨e, List.mem_cons_self, by rw [hexported]; rfl⟩

/-- The approval of the first analysis exports the recommendation of the
    second. -/
theorem overtaken_pack : ∃ e es w runId pack,
    Exec (evaluation Tender.services Office.env) (e :: es) w ∧
    exported e = some (runId, pack) ∧
    Tender.textIn (recommendationOf pack) "supplier" = some "An Phát" ∧
    (∀ q ∈ e.pre.requests, q.runId = some runId →
      Tender.textIn q.payload "recommended_supplier" = some "Minh Long") ∧
    ¬ Along (PacksBelong Tender.services) (e :: es) := by
  obtain ⟨es, w, hexec, htest⟩ :=
    Machine.exec_of_runs Tender.contest_init Tender.overtaken_runs
  obtain ⟨e, rest, runId, pack, rfl, hexported, hsupplier, hasked⟩ := Tender.packShows_some htest
  refine ⟨e, rest, w, runId, pack, hexec, hexported, hsupplier, hasked, ?_⟩
  intro hbelong
  obtain ⟨q, hq, hrun, _, hsame, _⟩ := (hbelong.1 runId pack hexported).shown
  have hshown := hasked q hq hrun
  rw [Tender.textIn, ← hsame, ← Tender.textIn, hsupplier] at hshown
  exact absurd (Option.some.inj hshown) (by decide)

end DigitalWorker.Evaluation
