import DigitalWorker.Kernel.Basic

/-! # Access: who is asking, and may they

    The verified access context of a request, the scope-based authorization
    service and the plan entitlement check. Authorization answers "may this
    principal do this action", entitlement answers "does the plan include it".
-/

namespace DigitalWorker

/-- The verified identity a request runs under. -/
structure AccessContext where
  principalId : Uuid
  roles : List String := []
  scopes : List String := []
  planId : String := "professional"
  featureFlags : List String := []
  deriving DecidableEq

def platformAdminRole : String := "platform_admin"

def isAllowed (context : AccessContext) (action : String) : Bool :=
  context.roles.contains platformAdminRole || context.scopes.contains action

/-- `ScopeAuthorizationService.require`. -/
def authorize (context : AccessContext) (action resourceType resourceId : String) :
    Except Error Unit :=
  raiseIf (!isAllowed context action)
    { kind := .permissionDenied, message := "action not permitted"
      details := [("action", action), ("resource_type", resourceType)] ++
        (if resourceId = "" then [] else [("resource_id", resourceId)]) }

abbrev PlanCatalog := List (String × List String)

def hasFeature (plans : PlanCatalog) (context : AccessContext) (feature : String) : Bool :=
  context.featureFlags.contains feature ||
    match plans.find? (fun p => p.1 == context.planId) with
    | some plan => plan.2.contains feature
    | none => false

def requireFeature (plans : PlanCatalog) (context : AccessContext) (feature : String) :
    Except Error Unit :=
  raiseIf (!hasFeature plans context feature)
    { kind := .entitlementDenied, message := "plan does not include this capability"
      details := [("feature", feature), ("plan_id", context.planId)] }

end DigitalWorker
