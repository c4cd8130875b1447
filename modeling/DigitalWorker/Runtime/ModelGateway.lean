import Mathlib.Data.Rat.Defs
import DigitalWorker.Framework.Effects
import DigitalWorker.Kernel.Json
import DigitalWorker.Runtime.Prompts

/-! # The model gateway

    The single entry point for calls of a model. A profile names the route of a
    request; the gateway calls it, once more if no valid output came back, and
    then the fallback of the profile where that is another model. Every output
    is validated into the schema of the caller, and the usage of every call that
    came back is recorded, valid or not.
-/

namespace DigitalWorker.Runtime

open Framework

/-! ## Profiles and requests -/

inductive ReasoningEffort where
  | minimal
  | low
  | medium
  | high
  deriving DecidableEq

structure ModelRoute where
  provider : String
  model : String
  timeoutSeconds : Nat := 60
  reasoningEffort : Option ReasoningEffort := none
  deriving DecidableEq

/-- `(route.provider, route.model)`. -/
def ModelRoute.identity (route : ModelRoute) : String × String := (route.provider, route.model)

structure ModelProfile where
  profileId : String
  structuredExtraction : ModelRoute
  reasoning : ModelRoute
  deepReasoning : Option ModelRoute := none
  fallback : Option ModelRoute := none
  deriving DecidableEq

abbrev ModelProfileRegistry := List ModelProfile

def ModelProfileRegistry.resolve (profiles : ModelProfileRegistry) (profileId : String) :
    Except Error ModelProfile :=
  match profiles.find? (fun p => p.profileId == profileId) with
  | some profile => .ok profile
  | none => .error (notFoundError "model profile not registered" [("profile_id", profileId)])

inductive RouteKind where
  | auto
  | structuredExtraction
  | reasoning
  | deepReasoning
  deriving DecidableEq

structure ModelRequest where
  task : String
  promptId : String
  promptVersion : String
  vars : Variables := []
  modelProfile : String := "balanced"
  maxOutputTokens : Option Nat := none
  routeKind : RouteKind := .auto

/-- A schema of the caller: its name, and `model_validate`, which counts the
    errors of an output it does not accept. -/
structure OutputType (α : Type) where
  name : String
  modelValidate : Dict → Except Nat α

structure ModelUsage where
  provider : String
  model : String
  inputTokens : Nat
  outputTokens : Nat
  costUsd : ℚ := 0
  deriving DecidableEq

/-- How a call of `complete_json` ends: with an `InfrastructureError`, with any
    other exception, or with what the provider returned. -/
inductive ProviderAnswer where
  | infrastructure (e : Error)
  | raised (e : Error)
  | completed (raw : Dict) (usage : ModelUsage) (reasoning : Option String)

def ProviderAnswer.usage? : ProviderAnswer → Option ModelUsage
  | .completed _ usage _ => some usage
  | _ => none

structure RoutingModelGateway where
  profiles : ModelProfileRegistry
  prompts : PromptRegistry
  adapters : List String
  /-- How `str.format` renders the fields that are no names. -/
  special : String → Variables → Except Error String

structure GatewayRun (α : Type) where
  calls : List ModelRoute
  records : List (Uuid × ModelUsage)
  result : Except Error α

def GatewayRun.refused {α : Type} (e : Error) : GatewayRun α :=
  { calls := [], records := [], result := .error e }

namespace RoutingModelGateway

variable {α : Type} (gw : RoutingModelGateway)

/-- `adapters.get(route.provider) is not None`. -/
def wired (route : ModelRoute) : Bool := gw.adapters.contains route.provider

/-- `_route`, of the resolved profile. -/
def route (profile : ModelProfile) (request : ModelRequest) : ModelRoute :=
  if request.routeKind = .deepReasoning then profile.deepReasoning.getD profile.reasoning
  else if request.routeKind = .reasoning ∨
      (request.routeKind = .auto ∧ request.task = "reasoning") then
    profile.reasoning
  else profile.structuredExtraction

def attempts (profile : ModelProfile) (request : ModelRequest) : List ModelRoute :=
  let primary := route profile request
  match profile.fallback with
  | some fallback =>
    if fallback.identity ≠ primary.identity then [primary, primary, fallback]
    else [primary, primary]
  | none => [primary, primary]

theorem attempts_cons (profile : ModelProfile) (request : ModelRequest) :
    ∃ rest, attempts profile request = route profile request :: rest := by
  unfold attempts
  dsimp only
  split
  · split
    · exact ⟨_, rfl⟩
    · exact ⟨_, rfl⟩
  · exact ⟨_, rfl⟩

def notConfigured (route : ModelRoute) (request : ModelRequest) : Error :=
  notFoundError "model provider not configured"
    [("provider", route.provider), ("profile", request.modelProfile)]

def validationFailed (request : ModelRequest) (output : OutputType α) (errors : Nat) : Error :=
  { kind := .domain, message := "model output failed schema validation"
    details := [("prompt_id", request.promptId), ("output_type", output.name),
      ("errors", toString errors)] }

/-- `assert last_error is not None`. -/
def noAttempt : Error := { kind := .assertion, message := "" }

/-- The loop over the attempts: `index` is the place of the next one, and the
    providers answer call by call. -/
def attemptLoop (request : ModelRequest) (output : OutputType α) (runId : Uuid)
    (answers : Nat → ProviderAnswer) :
    Nat → Option Error → List ModelRoute → List ModelRoute → List (Uuid × ModelUsage) →
      GatewayRun (α × String)
  | _, lastError, [], calls, records =>
    { calls := calls, records := records, result := .error (lastError.getD noAttempt) }
  | index, lastError, route :: rest, calls, records =>
    if !gw.wired route then
      if index = 0 then
        { calls := calls, records := records, result := .error (notConfigured route request) }
      else attemptLoop request output runId answers (index + 1) lastError rest calls records
    else
      match answers calls.length with
      | .infrastructure e =>
        attemptLoop request output runId answers (index + 1) (some e) rest (calls ++ [route])
          records
      | .raised e => { calls := calls ++ [route], records := records, result := .error e }
      | .completed raw usage reasoning =>
        match output.modelValidate raw with
        | .ok value =>
          { calls := calls ++ [route], records := records ++ [(runId, usage)]
            result := .ok (value, reasoning.getD "") }
        | .error errors =>
          attemptLoop request output runId answers (index + 1)
            (some (validationFailed request output errors)) rest (calls ++ [route])
            (records ++ [(runId, usage)])

def generateStructuredTraced (request : ModelRequest) (output : OutputType α) (runId : Uuid)
    (answers : Nat → ProviderAnswer) : GatewayRun (α × String) :=
  match gw.prompts.render gw.special request.promptId request.promptVersion request.vars with
  | .error e => .refused e
  | .ok _ =>
    match gw.profiles.resolve request.modelProfile with
    | .error e => .refused e
    | .ok profile =>
      gw.attemptLoop request output runId answers 0 none (attempts profile request) [] []

/-- `generate_structured`: without the reasoning. -/
def generateStructured (request : ModelRequest) (output : OutputType α) (runId : Uuid)
    (answers : Nat → ProviderAnswer) : GatewayRun α :=
  let run := gw.generateStructuredTraced request output runId answers
  { calls := run.calls, records := run.records, result := run.result.map (·.1) }

end RoutingModelGateway

/-! ## The attempts of a request -/

section

variable {α : Type} (gw : RoutingModelGateway) (request : ModelRequest) (output : OutputType α)
  (answers : Nat → ProviderAnswer)

def verdict : ProviderAnswer → Option (Except Error (α × String))
  | .infrastructure _ => none
  | .raised e => some (.error e)
  | .completed raw _ reasoning =>
    match output.modelValidate raw with
    | .ok value => some (.ok (value, reasoning.getD ""))
    | .error _ => none

def attemptVerdict (attempt : ModelRoute × ProviderAnswer) : Option (Except Error (α × String)) :=
  verdict output attempt.2

def attemptError : ProviderAnswer → Error
  | .infrastructure e => e
  | .raised e => e
  | .completed raw _ _ =>
    match output.modelValidate raw with
    | .ok _ => RoutingModelGateway.noAttempt
    | .error errors => RoutingModelGateway.validationFailed request output errors

def attemptOrder (profile : ModelProfile) : List ModelRoute :=
  let primary := RoutingModelGateway.route profile request
  [primary, primary] ++ profile.fallback.toList.filter (fun fallback =>
    fallback.identity ≠ primary.identity && gw.wired fallback)

/-- Routes with the answers they get, from the `n`-th on. -/
def answered : Nat → List ModelRoute → List (ModelRoute × ProviderAnswer)
  | _, [] => []
  | n, route :: rest => (route, answers n) :: answered (n + 1) rest

@[simp] theorem answered_routes (n : Nat) (routes : List ModelRoute) :
    (answered answers n routes).map (·.1) = routes := by
  induction routes generalizing n with
  | nil => rfl
  | cons route rest ih =>
    show route :: (answered answers (n + 1) rest).map (·.1) = route :: rest
    rw [ih]

@[simp] theorem answered_answers (n : Nat) (routes : List ModelRoute) :
    (answered answers n routes).map (·.2) = (List.range' n routes.length).map answers := by
  induction routes generalizing n with
  | nil => rfl
  | cons route rest ih =>
    show answers n :: (answered answers (n + 1) rest).map (·.2) = _
    rw [ih, List.length_cons, List.range'_succ, List.map_cons]

def attemptsRun (runId : Uuid) (lastError : Option Error)
    (tried : List (ModelRoute × ProviderAnswer) × Option (Except Error (α × String))) :
    GatewayRun (α × String) :=
  { calls := tried.1.map (·.1)
    records := (tried.1.filterMap (·.2.usage?)).map (fun usage => (runId, usage))
    result := tried.2.getD (.error
      (((tried.1.getLast?.map (fun a => attemptError request output a.2)).or lastError).getD
        RoutingModelGateway.noAttempt)) }

def GatewayRun.after (calls : List ModelRoute) (records : List (Uuid × ModelUsage))
    (run : GatewayRun (α × String)) : GatewayRun (α × String) :=
  { run with calls := calls ++ run.calls, records := records ++ run.records }

def recordsOf (runId : Uuid) (answer : ProviderAnswer) : List (Uuid × ModelUsage) :=
  answer.usage?.toList.map (fun usage => (runId, usage))

end

/-! ## What the loop does -/

section

variable {α : Type} {gw : RoutingModelGateway} {request : ModelRequest} {output : OutputType α}
  {runId : Uuid} {answers : Nat → ProviderAnswer} {index : Nat} {lastError : Option Error}
  {route : ModelRoute} {rest routes calls : List ModelRoute} {records : List (Uuid × ModelUsage)}

open RoutingModelGateway

theorem attemptLoop_unwired (hwired : gw.wired route = false) (hindex : index ≠ 0) :
    gw.attemptLoop request output runId answers index lastError (route :: rest) calls records =
      gw.attemptLoop request output runId answers (index + 1) lastError rest calls records := by
  rw [attemptLoop, hwired, Bool.not_false, if_pos rfl, if_neg hindex]

theorem attemptLoop_settled (hwired : gw.wired route = true) {v : Except Error (α × String)}
    (h : verdict output (answers calls.length) = some v) :
    gw.attemptLoop request output runId answers index lastError (route :: rest) calls records =
      { calls := calls ++ [route]
        records := records ++ recordsOf runId (answers calls.length), result := v } := by
  rw [attemptLoop, hwired, Bool.not_true, if_neg Bool.false_ne_true]
  unfold verdict at h
  split at h
  · cases h
  · next e hanswer =>
    obtain rfl := Option.some.inj h
    simp only [hanswer, recordsOf, ProviderAnswer.usage?, Option.toList_none, List.map_nil,
      List.append_nil]
  · next raw usage reasoning hanswer =>
    split at h
    · next value _ =>
      obtain rfl := Option.some.inj h
      simp only [hanswer, recordsOf, ProviderAnswer.usage?, Option.toList_some, List.map_cons,
        List.map_nil]
    · cases h

theorem attemptLoop_unsettled (hwired : gw.wired route = true)
    (h : verdict output (answers calls.length) = none) :
    gw.attemptLoop request output runId answers index lastError (route :: rest) calls records =
      gw.attemptLoop request output runId answers (index + 1)
        (some (attemptError request output (answers calls.length))) rest (calls ++ [route])
        (records ++ recordsOf runId (answers calls.length)) := by
  rw [attemptLoop, hwired, Bool.not_true, if_neg Bool.false_ne_true]
  unfold verdict at h
  split at h
  · next e hanswer =>
    simp only [hanswer, recordsOf, ProviderAnswer.usage?, Option.toList_none, List.map_nil,
      List.append_nil, attemptError]
  · cases h
  · next raw usage reasoning hanswer =>
    split at h
    · cases h
    · next errors hvalid =>
      simp only [hanswer, hvalid, recordsOf, ProviderAnswer.usage?, Option.toList_some,
        List.map_cons, List.map_nil, attemptError]

theorem filterMap_usage_cons (answer : ProviderAnswer)
    (attempts : List (ModelRoute × ProviderAnswer)) :
    ((route, answer) :: attempts).filterMap (·.2.usage?) =
      answer.usage?.toList ++ attempts.filterMap (·.2.usage?) := by
  rw [List.filterMap_cons]
  cases answer.usage? <;> rfl

theorem attemptsRun_cons (answer : ProviderAnswer)
    (tried : List (ModelRoute × ProviderAnswer) × Option (Except Error (α × String))) :
    attemptsRun request output runId lastError ((route, answer) :: tried.1, tried.2) =
      GatewayRun.after [route] (recordsOf runId answer)
        (attemptsRun request output runId (some (attemptError request output answer)) tried) := by
  have hlast : ((((route, answer) :: tried.1).getLast?.map
        (fun a => attemptError request output a.2)).or lastError) =
      (tried.1.getLast?.map (fun a => attemptError request output a.2)).or
        (some (attemptError request output answer)) := by
    rw [List.getLast?_cons]
    cases tried.1.getLast? <;> rfl
  simp only [attemptsRun, GatewayRun.after, recordsOf, filterMap_usage_cons, hlast, List.map_append,
    List.map_cons, List.singleton_append]

theorem attemptLoop_eq (hfirst : index = 0 → ∀ r ∈ routes.head?, gw.wired r = true) :
    gw.attemptLoop request output runId answers index lastError routes calls records =
      GatewayRun.after calls records (attemptsRun request output runId lastError
        (tryAll (attemptVerdict output)
          (answered answers calls.length (routes.filter gw.wired)))) := by
  induction routes generalizing index lastError calls records with
  | nil =>
    show _ = GatewayRun.after calls records (attemptsRun request output runId lastError ([], none))
    simp [attemptLoop, attemptsRun, GatewayRun.after]
  | cons route rest ih =>
    by_cases hwired : gw.wired route = true
    · rw [List.filter_cons_of_pos hwired]
      show _ = GatewayRun.after calls records (attemptsRun request output runId lastError
        (tryAll _ ((route, answers calls.length) :: answered answers (calls.length + 1)
          (rest.filter gw.wired))))
      cases hverdict : verdict output (answers calls.length) with
      | some v =>
        have hhead : attemptVerdict output (route, answers calls.length) = some v := hverdict
        rw [attemptLoop_settled hwired hverdict, tryAll_settled hhead]
        simp only [attemptsRun, GatewayRun.after, filterMap_usage_cons, recordsOf, List.map_cons,
          List.map_nil, List.filterMap_nil, List.append_nil, Option.getD_some]
      | none =>
        have hhead : attemptVerdict output (route, answers calls.length) = none := hverdict
        rw [attemptLoop_unsettled hwired hverdict, tryAll_unsettled hhead, attemptsRun_cons,
          ih (fun h => absurd h (Nat.succ_ne_zero _)), List.length_append]
        simp only [GatewayRun.after, List.append_assoc, List.length_singleton]
    · have hindex : index ≠ 0 := fun h0 => hwired (hfirst h0 route rfl)
      rw [Bool.not_eq_true] at hwired
      rw [attemptLoop_unwired hwired hindex, ih (fun h => absurd h (Nat.succ_ne_zero _)),
        List.filter_cons_of_neg (by rw [hwired]; exact Bool.false_ne_true)]

end

/-! ## The protocol -/

variable {α : Type} (gw : RoutingModelGateway) (request : ModelRequest) (output : OutputType α)
  (runId : Uuid) (answers : Nat → ProviderAnswer) (profile : ModelProfile)
  (run : GatewayRun (α × String))

structure AttemptProtocol : Prop where
  /-- The calls are the first `n` attempts. All answers before the last have no
      verdict; the last one's is the result, or no attempt is left and its error
      is. -/
  ends : ∃ n, run.calls = (attemptOrder gw request profile).take (n + 1) ∧
    n < (attemptOrder gw request profile).length ∧
    (∀ i < n, verdict output (answers i) = none) ∧
    (verdict output (answers n) = some run.result ∨
      (n + 1 = (attemptOrder gw request profile).length ∧ verdict output (answers n) = none ∧
        run.result = .error (attemptError request output (answers n))))
  /-- One record for each call that completed, in the order of the calls. -/
  recorded : run.records = ((List.range run.calls.length).filterMap (fun i =>
    (answers i).usage?)).map (fun usage => (runId, usage))
  /-- A route other than the primary one is the fallback: wired, and another
      model. -/
  fallbackOnly : ∀ route ∈ run.calls, route = RoutingModelGateway.route profile request ∨
    (profile.fallback = some route ∧ gw.wired route = true ∧
      route.identity ≠ (RoutingModelGateway.route profile request).identity)

def Attempted : Prop :=
  match gw.prompts.render gw.special request.promptId request.promptVersion request.vars with
  | .error e => run = .refused e
  | .ok _ =>
    match gw.profiles.resolve request.modelProfile with
    | .error e => run = .refused e
    | .ok profile =>
      if gw.wired (RoutingModelGateway.route profile request) then
        AttemptProtocol gw request output runId answers profile run
      else run = .refused (RoutingModelGateway.notConfigured
        (RoutingModelGateway.route profile request) request)

variable {gw request output runId answers profile run}

theorem attempts_wired (h : gw.wired (RoutingModelGateway.route profile request) = true) :
    (RoutingModelGateway.attempts profile request).filter gw.wired =
      attemptOrder gw request profile := by
  unfold RoutingModelGateway.attempts attemptOrder
  cases profile.fallback with
  | none => simp [h]
  | some fallback =>
    by_cases hdiff : fallback.identity ≠ (RoutingModelGateway.route profile request).identity
    · by_cases hwired : gw.wired fallback = true
      · simp [h, hdiff, hwired]
      · simp [h, hdiff, hwired]
    · simp [h, hdiff]

theorem mem_attemptOrder {route : ModelRoute} (h : route ∈ attemptOrder gw request profile) :
    route = RoutingModelGateway.route profile request ∨
      (profile.fallback = some route ∧ gw.wired route = true ∧
        route.identity ≠ (RoutingModelGateway.route profile request).identity) := by
  rcases List.mem_append.mp h with hprimary | hfallback
  · left
    simpa using hprimary
  · right
    rw [List.mem_filter, Option.mem_toList, Bool.and_eq_true, decide_eq_true_eq] at hfallback
    exact ⟨hfallback.1, hfallback.2.2, hfallback.2.1⟩

theorem attemptOrder_pos : 0 < (attemptOrder gw request profile).length := by
  unfold attemptOrder
  rw [List.length_append]
  exact Nat.add_pos_left Nat.two_pos _

theorem answered_split {made rest : List (ModelRoute × ProviderAnswer)} {routes : List ModelRoute}
    (h : answered answers 0 routes = made ++ rest) :
    made.map (·.1) = routes.take made.length ∧
      made.map (·.2) = (List.range made.length).map answers := by
  have hroutes := answered_routes answers 0 routes
  have hanswers := answered_answers answers 0 routes
  rw [h, List.map_append] at hroutes hanswers
  rw [← List.range_eq_range'] at hanswers
  constructor
  · rw [← hroutes, List.take_left' (List.length_map _)]
  · have hlen : made.length ≤ routes.length := by
      have htotal := congrArg List.length hroutes
      rw [List.length_append, List.length_map] at htotal
      omega
    have htake := congrArg (List.take made.length) hanswers
    rw [List.take_left' (List.length_map _), ← List.map_take, List.take_range,
      Nat.min_eq_left hlen] at htake
    exact htake

theorem protocol_of_made (runId : Uuid) {pre post : List (ModelRoute × ProviderAnswer)}
    {a : ModelRoute × ProviderAnswer} {result : Except Error (α × String)}
    (hmade : answered answers 0 (attemptOrder gw request profile) = (pre ++ [a]) ++ post)
    (hpre : ∀ x ∈ pre, attemptVerdict output x = none)
    (hend : attemptVerdict output a = some result ∨ (post = [] ∧ attemptVerdict output a = none ∧
      result = .error (attemptError request output a.2))) :
    AttemptProtocol gw request output runId answers profile
      { calls := (pre ++ [a]).map (·.1)
        records := ((pre ++ [a]).filterMap (·.2.usage?)).map (fun usage => (runId, usage))
        result := result } := by
  obtain ⟨hroutes, hanswers⟩ := answered_split hmade
  have hlength : (pre ++ [a]).length = pre.length + 1 := by simp
  have htotal : (attemptOrder gw request profile).length = pre.length + 1 + post.length := by
    have h := congrArg List.length hmade
    rw [List.length_append, hlength] at h
    rw [← h, ← List.length_map (fun a : ModelRoute × ProviderAnswer => a.1), answered_routes]
  -- the answers one by one
  have heach := hanswers
  rw [hlength, List.range_succ, List.map_append, List.map_append] at heach
  obtain ⟨hbefore, hlast⟩ := List.append_inj heach (by simp)
  have ha : a.2 = answers pre.length := List.singleton_inj.mp hlast
  have hverdict : attemptVerdict output a = verdict output (answers pre.length) := by
    rw [attemptVerdict, ha]
  rw [hverdict, ha] at hend
  refine ⟨⟨pre.length, ?_, ?_, ?_, ?_⟩, ?_, ?_⟩
  · show (pre ++ [a]).map (·.1) = _
    rw [hroutes, hlength]
  · omega
  · intro i hi
    have hmem : answers i ∈ pre.map (·.2) := by
      rw [hbefore]
      exact List.mem_map_of_mem (List.mem_range.mpr hi)
    obtain ⟨x, hx, hxi⟩ := List.mem_map.mp hmem
    rw [← hxi]
    exact hpre x hx
  · rcases hend with hsome | ⟨rfl, hnone, hresult⟩
    · exact .inl hsome
    · refine .inr ⟨?_, hnone, hresult⟩
      rw [htotal, List.length_nil, Nat.add_zero]
  · show ((pre ++ [a]).filterMap (·.2.usage?)).map _ = _
    have husage : (pre ++ [a]).filterMap (·.2.usage?) =
        ((pre ++ [a]).map (·.2)).filterMap ProviderAnswer.usage? := by
      rw [List.filterMap_map]
      rfl
    rw [husage, hanswers, List.filterMap_map, List.length_map]
    rfl
  · intro route hroute
    have hmem : route ∈ (pre ++ [a]).map (·.1) := hroute
    rw [hroutes] at hmem
    exact mem_attemptOrder (List.mem_of_mem_take hmem)

theorem attemptsRun_protocol :
    AttemptProtocol gw request output runId answers profile
      (attemptsRun request output runId none (tryAll (attemptVerdict output)
        (answered answers 0 (attemptOrder gw request profile)))) := by
  rcases tryAll_cases (attemptVerdict output) (answered answers 0 (attemptOrder gw request profile))
    with ⟨pre, a, post, v, hsplit, hpre, ha, htry⟩ | ⟨hnone, htry⟩
  · -- the attempt after `pre` decides
    have hmade : answered answers 0 (attemptOrder gw request profile) = (pre ++ [a]) ++ post := by
      rw [hsplit, List.append_assoc, List.singleton_append]
    rw [htry]
    exact protocol_of_made _ hmade hpre (.inl ha)
  · -- no attempt decides, and the last one's error is the result
    rcases List.eq_nil_or_concat (answered answers 0 (attemptOrder gw request profile)) with
      hnil | ⟨pre, a, hlast⟩
    · have hroutes := answered_routes answers 0 (attemptOrder gw request profile)
      rw [hnil, List.map_nil] at hroutes
      have hpos := @attemptOrder_pos gw request profile
      rw [← hroutes] at hpos
      exact absurd hpos (Nat.lt_irrefl 0)
    · rw [List.concat_eq_append] at hlast
      have hmade : answered answers 0 (attemptOrder gw request profile) = (pre ++ [a]) ++ [] := by
        rw [hlast, List.append_nil]
      have hall : ∀ x ∈ pre ++ [a], attemptVerdict output x = none := by
        rw [← hlast]
        exact hnone
      have hrun := protocol_of_made runId hmade
        (fun x hx => hall x (List.mem_append_left _ hx))
        (.inr ⟨rfl, hall a (List.mem_append_right _ List.mem_cons_self), rfl⟩)
      rw [htry, hlast]
      unfold attemptsRun
      rw [List.getLast?_concat]
      exact hrun

/-- **The attempt protocol**: of every request, with every output type, profile
    and sequence of answers. -/
theorem attempt_protocol (gw : RoutingModelGateway) (request : ModelRequest)
    (output : OutputType α) (runId : Uuid) (answers : Nat → ProviderAnswer) :
    Attempted gw request output runId answers
      (gw.generateStructuredTraced request output runId answers) := by
  unfold Attempted RoutingModelGateway.generateStructuredTraced
  cases gw.prompts.render gw.special request.promptId request.promptVersion request.vars with
  | error e => rfl
  | ok prompt =>
    cases gw.profiles.resolve request.modelProfile with
    | error e => rfl
    | ok profile =>
      dsimp only
      by_cases hwired : gw.wired (RoutingModelGateway.route profile request) = true
      · rw [if_pos hwired, attemptLoop_eq, attempts_wired hwired]
        · exact attemptsRun_protocol
        · intro _ r hr
          obtain ⟨rest, hattempts⟩ := RoutingModelGateway.attempts_cons profile request
          rw [hattempts, List.head?_cons, Option.mem_some_iff] at hr
          rw [← hr]
          exact hwired
      · -- the first attempt is the primary route
        rw [if_neg hwired]
        obtain ⟨rest, hattempts⟩ := RoutingModelGateway.attempts_cons profile request
        rw [Bool.not_eq_true] at hwired
        rw [hattempts, RoutingModelGateway.attemptLoop, hwired, Bool.not_false, if_pos rfl,
          if_pos rfl]
        rfl

end DigitalWorker.Runtime
