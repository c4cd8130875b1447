import Mathlib.Data.String.Basic
import DigitalWorker.Framework.Machine
import DigitalWorker.Framework.Rows
import DigitalWorker.Platform.Access

/-! # Who somebody is

    A verified identity is resolved twice. At login it is bootstrapped: mapped to
    a platform user, provisioned when it is new, and told its workspaces. At every
    request it is looked up again for the tenant and workspace the request names.
-/

namespace DigitalWorker.Identity

open Framework

/-! ## The tables -/

structure VerifiedIdentity where
  subject : String
  email : Option String
  issuer : String
  name : Option String := none
  deriving DecidableEq

structure User where
  id : Uuid
  subject : String
  email : Option String
  displayName : String
  deriving DecidableEq

structure ExternalIdentity where
  userId : Uuid
  issuer : String
  subject : String
  provider : String
  deriving DecidableEq

structure Tenant where
  id : Uuid
  slug : String
  name : String
  deriving DecidableEq

structure Workspace where
  id : Uuid
  tenantId : Uuid
  slug : String
  name : String
  deriving DecidableEq

structure Role where
  key : String
  scopes : List String
  deriving DecidableEq

structure Membership where
  tenantId : Uuid
  workspaceId : Uuid
  userId : Uuid
  roleKeys : List String
  department : String := "general"
  deriving DecidableEq

structure Plan where
  planId : String
  features : List String
  deriving DecidableEq

structure Entitlement where
  tenantId : Uuid
  planId : String
  featureOverrides : List String
  deriving DecidableEq

structure IdentityStore where
  users : List User
  externals : List ExternalIdentity := []
  tenants : List Tenant
  workspaces : List Workspace
  roles : List Role
  memberships : List Membership
  plans : List Plan
  entitlements : List Entitlement
  deriving DecidableEq

/-- The constraints of the tables: primary keys, unique columns and foreign keys. -/
structure WellFormed (s : IdentityStore) : Prop where
  userIds : (s.users.map (·.id)).Nodup
  subjects : (s.users.map (·.subject)).Nodup
  mappings : (s.externals.map (fun x => (x.issuer, x.subject))).Nodup
  mapped : ∀ x ∈ s.externals, ∃ u ∈ s.users, u.id = x.userId
  members : (s.memberships.map (fun m => (m.tenantId, m.workspaceId, m.userId))).Nodup
  memberUsers : ∀ m ∈ s.memberships, ∃ u ∈ s.users, u.id = m.userId
  roleKeys : (s.roles.map (·.key)).Nodup
  tenantIds : (s.tenants.map (·.id)).Nodup
  workspaceIds : (s.workspaces.map (·.id)).Nodup

/-- `asyncpg`'s violation of a constraint. -/
def integrityError (constraint : String) : Error :=
  { kind := .infrastructure, message := "IntegrityError", details := [("constraint", constraint)] }

/-! ## Bootstrap -/

structure WorkspaceMembershipView where
  tenantId : Uuid
  tenantSlug : String
  tenantName : String
  workspaceId : Uuid
  workspaceSlug : String
  workspaceName : String
  roles : List String
  scopes : List String
  deriving DecidableEq

structure BootstrapView where
  principalId : Uuid
  subject : String
  email : Option String
  displayName : String
  memberships : List WorkspaceMembershipView
  deriving DecidableEq

structure SqlIdentityBootstrap where
  defaultTenantId : Uuid
  defaultWorkspaceId : Uuid
  defaultRole : String := "member"
  provider : String := "oidc"

def displayNameFor (identity : VerifiedIdentity) : String :=
  match identity.name, identity.email with
  | some name, email =>
    if name ≠ "" then name
    else
      match email with
      | some email =>
        if email ≠ "" then String.ofList (email.toList.takeWhile (· ≠ '@'))
        else take identity.subject 64
      | none => take identity.subject 64
  | none, some email =>
    if email ≠ "" then String.ofList (email.toList.takeWhile (· ≠ '@'))
    else take identity.subject 64
  | none, none => take identity.subject 64

namespace IdentityStore

def mappedUser (s : IdentityStore) (issuer subject : String) : Option Uuid :=
  (s.externals.find? (fun x => x.issuer = issuer && x.subject = subject)).map (·.userId)

def subjectUser (s : IdentityStore) (subject : String) : Option User :=
  s.users.find? (fun u => u.subject = subject)

def addExternal (s : IdentityStore) (x : ExternalIdentity) : IdentityStore :=
  if s.externals.any (fun y => y.issuer = x.issuer && y.subject = x.subject) then s
  else { s with externals := s.externals ++ [x] }

def addUser (s : IdentityStore) (u : User) : Except Error IdentityStore :=
  if s.users.any (fun v => v.subject = u.subject) then .ok s
  else if s.users.any (fun v => u.email.isSome && v.email = u.email) then
    .error (integrityError "users_email_key")
  else .ok { s with users := s.users ++ [u] }

def addMembership (s : IdentityStore) (m : Membership) : Except Error IdentityStore :=
  if s.memberships.any (fun x => x.tenantId = m.tenantId && x.workspaceId = m.workspaceId &&
      x.userId = m.userId) then .ok s
  else if s.workspaces.any (fun w => w.id = m.workspaceId) then
    .ok { s with memberships := s.memberships ++ [m] }
  else .error (integrityError "memberships_workspace_id_fkey")

end IdentityStore

namespace SqlIdentityBootstrap

variable (b : SqlIdentityBootstrap)

/-- `_resolve_user`. `newId` is the identifier drawn for a new user. -/
def resolveUser (s : IdentityStore) (identity : VerifiedIdentity) (newId : Uuid) :
    Except Error (IdentityStore × Uuid × Bool) :=
  match s.mappedUser identity.issuer identity.subject with
  | some userId => .ok (s, userId, false)
  | none => do
    let existing := s.subjectUser identity.subject
    let (s, userId) ← match existing with
      | some u => pure (s, u.id)
      | none => do
        let s ← s.addUser { id := newId, subject := identity.subject, email := identity.email
                            displayName := displayNameFor identity }
        -- the id is read back
        match s.subjectUser identity.subject with
        | some u => pure (s, u.id)
        | none => .error { kind := .infrastructure, message := "NoResultFound" }
    return (s.addExternal { userId := userId, issuer := identity.issuer
                            subject := identity.subject, provider := b.provider },
      userId, existing.isNone)

def provisionDefaultMembership (s : IdentityStore) (userId : Uuid) : Except Error IdentityStore :=
  if s.tenants.any (fun t => t.id = b.defaultTenantId) then
    s.addMembership { tenantId := b.defaultTenantId, workspaceId := b.defaultWorkspaceId
                      userId := userId, roleKeys := [b.defaultRole] }
  else .ok s

/-- `scope_by_role.get(key, [])`, from the rows of the roles among `keys`. -/
def scopeByRole (roles : List Role) (keys : List String) (key : String) : List String :=
  match (roles.filter (fun r => keys.contains r.key && r.key = key)).getLast? with
  | some r => r.scopes
  | none => []

def memberRows (s : IdentityStore) (tenantId userId : Uuid) :
    List (Membership × Workspace × Tenant) :=
  (s.memberships.filter (fun m => m.tenantId = tenantId && m.userId = userId)).filterMap (fun m =>
    match s.workspaces.find? (fun w => w.id = m.workspaceId && w.tenantId = tenantId),
      s.tenants.find? (fun t => t.id = m.tenantId) with
    | some w, some t => some (m, w, t)
    | _, _ => none)

def viewOf (roles : List Role) (keys : List String) (row : Membership × Workspace × Tenant) :
    WorkspaceMembershipView :=
  { tenantId := row.2.2.id, tenantSlug := row.2.2.slug, tenantName := row.2.2.name
    workspaceId := row.1.workspaceId, workspaceSlug := row.2.1.slug, workspaceName := row.2.1.name
    roles := row.1.roleKeys.insertionSort (· ≤ ·)
    scopes := (row.1.roleKeys.flatMap (scopeByRole roles keys)).dedup.insertionSort (· ≤ ·) }

/-- `_read_memberships`, with the default tenant as the context. -/
def readMemberships (s : IdentityStore) (userId : Uuid) : List WorkspaceMembershipView :=
  let rows := memberRows s b.defaultTenantId userId
  rows.map (viewOf s.roles (rows.flatMap (·.1.roleKeys)))

/-- `bootstrap`: one transaction, and what it reports. -/
def bootstrap (s : IdentityStore) (identity : VerifiedIdentity) (newId : Uuid) :
    Except Error (IdentityStore × BootstrapView) := do
  let (s, userId, isNew) ← b.resolveUser s identity newId
  let s ← if isNew then b.provisionDefaultMembership s userId else pure s
  match s.users.find? (fun u => u.id = userId) with
  | none => .error { kind := .infrastructure, message := "NoResultFound" }
  | some u =>
    return (s, { principalId := userId, subject := u.subject, email := u.email
                 displayName := u.displayName, memberships := b.readMemberships s userId })

end SqlIdentityBootstrap

/-! ## Lookup -/

structure FirstRow where
  pick : List Membership → Option Membership
  none_of : pick [] = none
  mem_of : ∀ rows m, pick rows = some m → m ∈ rows
  some_of : ∀ rows, rows ≠ [] → (pick rows).isSome = true

/-- `SqlMembershipLookup.find_access`: the access of the first matching membership. -/
def findAccess (first : FirstRow) (s : IdentityStore) (subject issuer : String)
    (tenantId workspaceId : Uuid) : Option AccessContext :=
  let candidateUsers :=
    (s.users.filter (fun u => u.subject = subject)).map (·.id) ++
      (s.externals.filter (fun x => x.issuer = issuer && x.subject = subject)).map (·.userId)
  match first.pick (s.memberships.filter (fun m =>
      candidateUsers.contains m.userId && m.tenantId = tenantId &&
        m.workspaceId = workspaceId)) with
  | none => none
  | some m =>
    let scopes := (s.roles.filter (fun r => m.roleKeys.contains r.key)).flatMap (·.scopes)
    match s.entitlements.find? (fun e => e.tenantId = tenantId &&
        s.plans.any (fun p => p.planId = e.planId)) with
    | none => none
    | some e =>
      let features := ((s.plans.find? (fun p => p.planId = e.planId)).map (·.features)).getD []
      some
        { principalId := m.userId, roles := m.roleKeys, scopes := scopes
          planId := e.planId, featureFlags := features ++ e.featureOverrides }

def build (first : FirstRow) (s : IdentityStore) (identity : VerifiedIdentity)
    (requestedTenantId requestedWorkspaceId : Option Uuid) : Except Error AccessContext :=
  match requestedTenantId, requestedWorkspaceId with
  | some tenantId, some workspaceId =>
    match findAccess first s identity.subject identity.issuer tenantId workspaceId with
    | none => .error { kind := .permissionDenied
                       message := "no membership for the requested tenant/workspace"
                       details := [("tenant_id", tenantId.text)] }
    | some access => .ok access
  | _, _ => .error { kind := .permissionDenied
                     message := "X-Tenant-Id and X-Workspace-Id headers are required" }

/-! ## The store over time -/

structure Login where
  identity : VerifiedIdentity
  newId : Uuid
  deriving DecidableEq

structure Seeded (b : SqlIdentityBootstrap) (s : IdentityStore) : Prop where
  tenant : ∃ t ∈ s.tenants, t.id = b.defaultTenantId
  workspace : ∃ w ∈ s.workspaces, w.id = b.defaultWorkspaceId ∧ w.tenantId = b.defaultTenantId
  plan : ∃ e ∈ s.entitlements, e.tenantId = b.defaultTenantId ∧
    ∃ p ∈ s.plans, p.planId = e.planId

/-- Verified identities are bootstrapped, one after the other; no identifier is drawn
    twice. -/
def identityPlane (b : SqlIdentityBootstrap) : Machine IdentityStore Login where
  init s := WellFormed s ∧ Seeded b s
  step s l :=
    if s.users.any (fun u => u.id = l.newId) then none
    else
      match b.bootstrap s l.identity l.newId with
      | .ok (s', _) => some s'
      | .error _ => some s

end DigitalWorker.Identity
