import Mathlib.Data.List.Dedup
import DigitalWorker.Platform.Identity

/-! # Login and request agree

    The bootstrap prefers the mapping of an identity and falls back on the user of
    the same subject, whoever issued it. The lookup takes both and the first
    membership of either.
-/

namespace DigitalWorker.Identity

open Framework

/-! ## The property -/

structure SamePerson (userId : Uuid) (m : WorkspaceMembershipView) (access : AccessContext) :
    Prop where
  principal : access.principalId = userId
  roles : ∀ r, r ∈ access.roles ↔ r ∈ m.roles
  scopes : ∀ scope, scope ∈ access.scopes ↔ scope ∈ m.scopes

def TiedElsewhere (s : IdentityStore) (issuer : String) (userId : Uuid) : Prop :=
  (∃ x ∈ s.externals, x.userId = userId) ∧
    ∀ x ∈ s.externals, x.userId = userId → x.issuer ≠ issuer

structure Agrees (b : SqlIdentityBootstrap) (s : IdentityStore) (identity : VerifiedIdentity)
    (s' : IdentityStore) (view : BootstrapView) : Prop where
  /-- It can be repeated. -/
  idempotent : ∀ newId, b.bootstrap s' identity newId = .ok (s', view)
  /-- Every membership it reports is the one a request finds. -/
  request : ∀ m ∈ view.memberships, ∀ first, ∃ access,
    build first s' identity (some m.tenantId) (some m.workspaceId) = .ok access ∧
      SamePerson view.principalId m access
  /-- It gives nobody the user of another issuer. -/
  own : ¬ TiedElsewhere s identity.issuer view.principalId

/-- **The property**, of a bootstrap: it succeeds, and login and request agree. -/
def LoginAgrees (b : SqlIdentityBootstrap) (s : IdentityStore) (l : Login) : Prop :=
  ∃ s' view, b.bootstrap s l.identity l.newId = .ok (s', view) ∧ Agrees b s l.identity s' view

/-! ## The condition -/

def AloneInWorkspaces (b : SqlIdentityBootstrap) (s : IdentityStore) (subject : String)
    (userId : Uuid) : Prop :=
  ∀ u ∈ s.users, u.subject = subject → u.id ≠ userId →
    ∀ row ∈ SqlIdentityBootstrap.memberRows s b.defaultTenantId userId,
      ∀ m ∈ s.memberships, m.userId = u.id → m.tenantId = b.defaultTenantId →
        m.workspaceId ≠ row.1.workspaceId

/-- **The condition**, of a bootstrap. A mapped identity shares no reported workspace with
    another user of its subject; an unmapped one whose subject a user has is no stranger
    to the issuers of that user; a new one brings an e-mail that nobody has. -/
def Unmistaken (b : SqlIdentityBootstrap) (s : IdentityStore) (identity : VerifiedIdentity) :
    Prop :=
  match s.mappedUser identity.issuer identity.subject with
  | some userId => AloneInWorkspaces b s identity.subject userId
  | none =>
    match s.subjectUser identity.subject with
    | some u => (∃ x ∈ s.externals, x.userId = u.id) →
        ∃ x ∈ s.externals, x.userId = u.id ∧ x.issuer = identity.issuer
    | none => ∀ email, identity.email = some email → ∀ u ∈ s.users, u.email ≠ some email

/-! ## Resolving -/

section

variable {b : SqlIdentityBootstrap} {s s' : IdentityStore} {identity : VerifiedIdentity}
  {newId userId : Uuid} {u : User}

theorem mappedUser_some (h : s.mappedUser identity.issuer identity.subject = some userId) :
    ∃ x ∈ s.externals, x.issuer = identity.issuer ∧ x.subject = identity.subject ∧
      x.userId = userId := by
  obtain ⟨x, hx, rfl⟩ := Option.map_eq_some_iff.mp h
  have hmatch := List.find?_some hx
  simp only [Bool.and_eq_true, decide_eq_true_eq] at hmatch
  exact ⟨x, List.mem_of_find?_eq_some hx, hmatch.1, hmatch.2, rfl⟩

theorem mappedUser_none (h : s.mappedUser identity.issuer identity.subject = none) :
    ∀ x ∈ s.externals, x.issuer = identity.issuer → x.subject ≠ identity.subject := by
  intro x hx hissuer hsubject
  have hnone := Option.map_eq_none_iff.mp h
  have hno := List.find?_eq_none.mp hnone x hx
  simp [hissuer, hsubject] at hno

theorem WellFormed.mappedUser (hs : WellFormed s) {x : ExternalIdentity} (hx : x ∈ s.externals)
    (hissuer : x.issuer = identity.issuer) (hsubject : x.subject = identity.subject) :
    s.mappedUser identity.issuer identity.subject = some x.userId := by
  cases hmapped : s.mappedUser identity.issuer identity.subject with
  | none => exact absurd hsubject (mappedUser_none hmapped x hx hissuer)
  | some userId =>
    obtain ⟨y, hy, hyissuer, hysubject, rfl⟩ := mappedUser_some hmapped
    have hkey : (y.issuer, y.subject) = (x.issuer, x.subject) := by
      rw [hyissuer, hysubject, hissuer, hsubject]
    rw [Rows.eq_of_key hs.mappings hy hx hkey]

theorem subjectUser_some {subject : String} (h : s.subjectUser subject = some u) :
    u ∈ s.users ∧ u.subject = subject :=
  ⟨List.mem_of_find?_eq_some h, by simpa using List.find?_some h⟩

theorem subjectUser_none {subject : String} (h : s.subjectUser subject = none) :
    ∀ u ∈ s.users, u.subject ≠ subject := by
  intro u hu
  simpa using List.find?_eq_none.mp h u hu

def report (b : SqlIdentityBootstrap) (s : IdentityStore) (u : User) : BootstrapView :=
  { principalId := u.id, subject := u.subject, email := u.email, displayName := u.displayName
    memberships := b.readMemberships s u.id }

theorem WellFormed.find_user (hs : WellFormed s) (hu : u ∈ s.users) :
    s.users.find? (fun v => v.id = u.id) = some u := by
  have hfind := Rows.lookup_of_mem hs.userIds hu
  rw [← hfind]
  rfl

/-- **A mapped identity** is its user, and nothing is written. -/
theorem WellFormed.bootstrap_mapped (hs : WellFormed s) (newId : Uuid)
    (h : s.mappedUser identity.issuer identity.subject = some userId) :
    ∃ u ∈ s.users, u.id = userId ∧ b.bootstrap s identity newId = .ok (s, report b s u) := by
  obtain ⟨x, hx, -, -, rfl⟩ := mappedUser_some h
  obtain ⟨u, hu, hid⟩ := hs.mapped x hx
  refine ⟨u, hu, hid, ?_⟩
  have hfind := hs.find_user hu
  rw [hid] at hfind
  simp [SqlIdentityBootstrap.bootstrap, SqlIdentityBootstrap.resolveUser, h, bind, Except.bind,
    pure, Except.pure, hfind, report, hid]

def newMapping (b : SqlIdentityBootstrap) (identity : VerifiedIdentity) (userId : Uuid) :
    ExternalIdentity :=
  { userId := userId, issuer := identity.issuer, subject := identity.subject
    provider := b.provider }

theorem addExternal_new (h : s.mappedUser identity.issuer identity.subject = none)
    (userId : Uuid) : s.addExternal (newMapping b identity userId) =
      { s with externals := s.externals ++ [newMapping b identity userId] } := by
  unfold IdentityStore.addExternal
  rw [if_neg]
  rw [List.any_eq_true]
  rintro ⟨x, hx, hmatch⟩
  obtain ⟨hissuer, hsubject⟩ := Bool.and_eq_true_iff.mp hmatch
  exact mappedUser_none h x hx (of_decide_eq_true hissuer) (of_decide_eq_true hsubject)

/-- **An unmapped identity** whose subject a user has is that user from now on. -/
theorem WellFormed.bootstrap_known (hs : WellFormed s) (newId : Uuid)
    (hnone : s.mappedUser identity.issuer identity.subject = none)
    (h : s.subjectUser identity.subject = some u) :
    b.bootstrap s identity newId =
      .ok ({ s with externals := s.externals ++ [newMapping b identity u.id] },
        report b { s with externals := s.externals ++ [newMapping b identity u.id] } u) := by
  have hfind := hs.find_user (subjectUser_some h).1
  have hadd := @addExternal_new b s identity hnone u.id
  rw [newMapping] at hadd
  simp [SqlIdentityBootstrap.bootstrap, SqlIdentityBootstrap.resolveUser, hnone, h, bind,
    Except.bind, pure, Except.pure, hadd, hfind, report, newMapping]

def newUser (identity : VerifiedIdentity) (newId : Uuid) : User :=
  { id := newId, subject := identity.subject, email := identity.email
    displayName := displayNameFor identity }

/-- **A taken e-mail** makes the bootstrap of a new identity fail. -/
theorem bootstrap_clash (newId : Uuid) (hnone : s.mappedUser identity.issuer identity.subject = none)
    (h : s.subjectUser identity.subject = none) {email : String}
    (hemail : identity.email = some email) (hu : u ∈ s.users) (htaken : u.email = some email) :
    ∃ e, b.bootstrap s identity newId = .error e := by
  have hfresh : s.users.any (fun v => v.subject = (newUser identity newId).subject) = false := by
    rw [List.any_eq_false]
    intro v hv hsame
    exact subjectUser_none h v hv (of_decide_eq_true hsame)
  have hclash : s.users.any (fun v => (newUser identity newId).email.isSome &&
      v.email = (newUser identity newId).email) = true := by
    rw [List.any_eq_true]
    exact ⟨u, hu, by simp [newUser, hemail, htaken]⟩
  have hadd : s.addUser (newUser identity newId) = .error (integrityError "users_email_key") := by
    unfold IdentityStore.addUser
    rw [hfresh, hclash]
    rfl
  rw [newUser] at hadd
  exact ⟨integrityError "users_email_key", by
    simp [SqlIdentityBootstrap.bootstrap, SqlIdentityBootstrap.resolveUser, hnone, h, hadd, bind,
      Except.bind]⟩

def enrolled (b : SqlIdentityBootstrap) (s : IdentityStore) (identity : VerifiedIdentity)
    (newId : Uuid) : IdentityStore :=
  { s with
    users := s.users ++ [newUser identity newId]
    externals := s.externals ++ [newMapping b identity newId]
    memberships := s.memberships ++
      [{ tenantId := b.defaultTenantId, workspaceId := b.defaultWorkspaceId, userId := newId
         roleKeys := [b.defaultRole] }] }

section

variable (hs : WellFormed s) (hseeded : Seeded b s) (hnewId : ∀ u ∈ s.users, u.id ≠ newId)
  (hnone : s.mappedUser identity.issuer identity.subject = none)
  (h : s.subjectUser identity.subject = none)
  (hemail : ∀ email, identity.email = some email → ∀ u ∈ s.users, u.email ≠ some email)

include h hemail in
theorem addUser_new : s.addUser (newUser identity newId) =
    .ok { s with users := s.users ++ [newUser identity newId] } := by
  have hfresh : s.users.any (fun v => v.subject = (newUser identity newId).subject) = false := by
    rw [List.any_eq_false]
    intro v hv hsame
    exact subjectUser_none h v hv (of_decide_eq_true hsame)
  have hfree : s.users.any (fun v => (newUser identity newId).email.isSome &&
      v.email = (newUser identity newId).email) = false := by
    rw [List.any_eq_false]
    intro v hv hmatch
    obtain ⟨hsome, hsame⟩ := Bool.and_eq_true_iff.mp hmatch
    obtain ⟨email, hgiven⟩ := Option.isSome_iff_exists.mp hsome
    exact hemail email hgiven v hv ((of_decide_eq_true hsame).trans hgiven)
  unfold IdentityStore.addUser
  rw [hfresh, hfree]
  rfl

include h in
theorem subjectUser_new :
    ({ s with users := s.users ++ [newUser identity newId] } : IdentityStore).subjectUser
      identity.subject = some (newUser identity newId) := by
  have hno : s.users.find? (fun u => u.subject = identity.subject) = none := h
  simp only [IdentityStore.subjectUser, List.find?_append, hno, Option.none_or]
  simp [newUser]

include hnewId in
theorem find_newUser : (s.users ++ [newUser identity newId]).find? (fun u => u.id = newId) =
    some (newUser identity newId) := by
  have hno : s.users.find? (fun u => u.id = newId) = none := by
    rw [List.find?_eq_none]
    intro u hu
    simpa using hnewId u hu
  rw [List.find?_append, hno, Option.none_or]
  simp [newUser]

include hs hseeded hnewId in
theorem addMembership_new (users : List User) (externals : List ExternalIdentity) :
    b.provisionDefaultMembership { s with users := users, externals := externals } newId =
      .ok { s with
        users := users, externals := externals
        memberships := s.memberships ++
          [{ tenantId := b.defaultTenantId, workspaceId := b.defaultWorkspaceId, userId := newId
             roleKeys := [b.defaultRole] }] } := by
  obtain ⟨t, ht, htid⟩ := hseeded.tenant
  obtain ⟨w, hw, hwid, -⟩ := hseeded.workspace
  have htenant : s.tenants.any (fun t => t.id = b.defaultTenantId) = true :=
    List.any_eq_true.mpr ⟨t, ht, decide_eq_true htid⟩
  have hworkspace : s.workspaces.any (fun w => w.id = b.defaultWorkspaceId) = true :=
    List.any_eq_true.mpr ⟨w, hw, decide_eq_true hwid⟩
  have hnoMember : s.memberships.any (fun x => x.tenantId = b.defaultTenantId &&
      x.workspaceId = b.defaultWorkspaceId && x.userId = newId) = false := by
    rw [List.any_eq_false]
    intro m hm hmatch
    obtain ⟨u, hu, hid⟩ := hs.memberUsers m hm
    exact hnewId u hu (hid.trans (of_decide_eq_true (Bool.and_eq_true_iff.mp hmatch).2))
  unfold SqlIdentityBootstrap.provisionDefaultMembership IdentityStore.addMembership
  simp only [htenant, hworkspace, hnoMember, if_true, Bool.false_eq_true, if_false]

include hs hseeded hnewId hnone h hemail in
/-- **A new identity** is enrolled in the default workspace. -/
theorem bootstrap_new :
    b.bootstrap s identity newId = .ok (enrolled b s identity newId,
      report b (enrolled b s identity newId) (newUser identity newId)) := by
  have hadd := @addUser_new s identity newId h hemail
  have hread := @subjectUser_new s identity newId h
  have hmap := @addExternal_new b { s with users := s.users ++ [newUser identity newId] } identity
    hnone newId
  have hmember := addMembership_new hs hseeded hnewId (s.users ++ [newUser identity newId])
    (s.externals ++ [newMapping b identity newId])
  have hfind := @find_newUser s identity newId hnewId
  have hid : (newUser identity newId).id = newId := rfl
  simp only [SqlIdentityBootstrap.bootstrap, SqlIdentityBootstrap.resolveUser, hnone, h, bind,
    Except.bind, pure, Except.pure]
  rw [show ({ id := newId, subject := identity.subject, email := identity.email
              displayName := displayNameFor identity } : User) = newUser identity newId from rfl,
    hadd]
  simp only [hread, hid]
  rw [show ({ userId := newId, issuer := identity.issuer, subject := identity.subject
              provider := b.provider } : ExternalIdentity) = newMapping b identity newId from rfl,
    hmap]
  simp only [Option.isNone_none, if_true, hmember, hfind]
  rfl

end

/-! ## The constraints stay -/

theorem nodup_map_concat {α β : Type} {f : α → β} {xs : List α} {x : α} (h : (xs.map f).Nodup)
    (hx : ∀ y ∈ xs, f y ≠ f x) : ((xs ++ [x]).map f).Nodup := by
  rw [List.map_append, List.map_singleton, List.nodup_append]
  refine ⟨h, List.nodup_singleton _, ?_⟩
  intro k hk k' hk' heq
  obtain ⟨y, hy, rfl⟩ := List.mem_map.mp hk
  exact hx y hy (heq.trans (List.mem_singleton.mp hk'))

theorem WellFormed.addMapping (hs : WellFormed s)
    (hnone : s.mappedUser identity.issuer identity.subject = none) (hu : ∃ u ∈ s.users, u.id = userId) :
    WellFormed { s with externals := s.externals ++ [newMapping b identity userId] } := by
  refine { hs with mappings := ?_, mapped := ?_ }
  · refine nodup_map_concat hs.mappings ?_
    intro x hx heq
    obtain ⟨hissuer, hsubject⟩ := Prod.mk.inj heq
    exact mappedUser_none hnone x hx hissuer hsubject
  · intro x hx
    rcases List.mem_append.mp hx with hx | hx
    · exact hs.mapped x hx
    · rw [List.mem_singleton.mp hx]
      exact hu

theorem WellFormed.addUser (hs : WellFormed s) (hnewId : ∀ u ∈ s.users, u.id ≠ newId)
    (h : s.subjectUser identity.subject = none) :
    WellFormed { s with users := s.users ++ [newUser identity newId] } := by
  refine { hs with userIds := ?_, subjects := ?_, mapped := ?_, memberUsers := ?_ }
  · exact nodup_map_concat hs.userIds hnewId
  · exact nodup_map_concat hs.subjects (fun u hu heq => subjectUser_none h u hu heq)
  · intro x hx
    obtain ⟨u, hu, hid⟩ := hs.mapped x hx
    exact ⟨u, List.mem_append_left _ hu, hid⟩
  · intro m hm
    obtain ⟨u, hu, hid⟩ := hs.memberUsers m hm
    exact ⟨u, List.mem_append_left _ hu, hid⟩

theorem WellFormed.addMembership (hs : WellFormed s) {m : Membership}
    (hu : ∃ u ∈ s.users, u.id = m.userId) (hfirst : ∀ x ∈ s.memberships, x.userId ≠ m.userId) :
    WellFormed { s with memberships := s.memberships ++ [m] } := by
  refine { hs with members := ?_, memberUsers := ?_ }
  · refine nodup_map_concat hs.members ?_
    exact fun x hx heq => hfirst x hx (Prod.mk.inj (Prod.mk.inj heq).2).2
  · intro x hx
    rcases List.mem_append.mp hx with hx | hx
    · exact hs.memberUsers x hx
    · rw [List.mem_singleton.mp hx]
      exact hu

theorem WellFormed.enrolled (hs : WellFormed s) (hnewId : ∀ u ∈ s.users, u.id ≠ newId)
    (hnone : s.mappedUser identity.issuer identity.subject = none)
    (h : s.subjectUser identity.subject = none) : WellFormed (enrolled b s identity newId) := by
  have hnew : ∃ u ∈ s.users ++ [newUser identity newId], u.id = newId :=
    ⟨newUser identity newId, List.mem_append_right _ List.mem_cons_self, rfl⟩
  have huser := hs.addUser hnewId h
  have hmapping := huser.addMapping (b := b) hnone hnew
  apply hmapping.addMembership hnew
  intro x hx hid
  obtain ⟨u, hu, huid⟩ := hs.memberUsers x hx
  exact hnewId u hu (huid.trans hid)

/-! ## Reporting and looking up -/

theorem WellFormed.scopeByRole (hs : WellFormed s) {keys : List String} {key scope : String}
    (hkey : key ∈ keys) : scope ∈ SqlIdentityBootstrap.scopeByRole s.roles keys key ↔
      ∃ r ∈ s.roles, r.key = key ∧ scope ∈ r.scopes := by
  have hmatch : ∀ r : Role, (keys.contains r.key && decide (r.key = key)) = true ↔ r.key = key := by
    intro r
    rw [Bool.and_eq_true, decide_eq_true_eq]
    constructor
    · exact And.right
    · rintro rfl
      exact ⟨by simpa using hkey, rfl⟩
  unfold SqlIdentityBootstrap.scopeByRole
  split
  · next r hr =>
    have hmem := List.mem_of_getLast? hr
    rw [List.mem_filter, hmatch] at hmem
    constructor
    · intro hscope
      exact ⟨r, hmem.1, hmem.2, hscope⟩
    · rintro ⟨r', hr', hkey', hscope⟩
      rw [Rows.eq_of_key hs.roleKeys hmem.1 hr' (hmem.2.trans hkey'.symm)]
      exact hscope
  · next hnil =>
    rw [List.getLast?_eq_none_iff, List.filter_eq_nil_iff] at hnil
    constructor
    · intro hscope
      cases hscope
    · rintro ⟨r, hr, hkey', -⟩
      exact absurd ((hmatch r).mpr hkey') (hnil r hr)

theorem mem_memberRows {tenantId : Uuid} {row : Membership × Workspace × Tenant}
    (h : row ∈ SqlIdentityBootstrap.memberRows s tenantId userId) :
    row.1 ∈ s.memberships ∧ row.1.tenantId = tenantId ∧ row.1.userId = userId ∧
      row.2.2.id = tenantId := by
  obtain ⟨m, hm, hrow⟩ := List.mem_filterMap.mp h
  obtain ⟨hmem, hmatch⟩ := List.mem_filter.mp hm
  rw [Bool.and_eq_true, decide_eq_true_eq, decide_eq_true_eq] at hmatch
  split at hrow
  · next w t hw ht =>
    obtain rfl := Option.some.inj hrow
    have htid : t.id = m.tenantId := by simpa using List.find?_some ht
    exact ⟨hmem, hmatch.1, hmatch.2, htid.trans hmatch.1⟩
  · cases hrow

theorem mem_candidates (hs : WellFormed s)
    (hmapped : s.mappedUser identity.issuer identity.subject = some userId) {id : Uuid} :
    ((s.users.filter (fun u => u.subject = identity.subject)).map (·.id) ++
      (s.externals.filter (fun x => x.issuer = identity.issuer &&
        x.subject = identity.subject)).map (·.userId)).contains id = true ↔
      id = userId ∨ ∃ u ∈ s.users, u.subject = identity.subject ∧ u.id = id := by
  rw [List.contains_iff_mem, List.mem_append, List.mem_map, List.mem_map]
  simp only [List.mem_filter, Bool.and_eq_true, decide_eq_true_eq]
  constructor
  · rintro (⟨u, ⟨hu, hsubject⟩, rfl⟩ | ⟨x, ⟨hx, hissuer, hsubject⟩, rfl⟩)
    · exact .inr ⟨u, hu, hsubject, rfl⟩
    · have hsame := hs.mappedUser hx hissuer hsubject
      rw [hmapped] at hsame
      exact .inl (Option.some.inj hsame).symm
  · rintro (rfl | ⟨u, hu, hsubject, rfl⟩)
    · obtain ⟨x, hx, hissuer, hsubject, rfl⟩ := mappedUser_some hmapped
      exact .inr ⟨x, ⟨hx, hissuer, hsubject⟩, rfl⟩
    · exact .inl ⟨u, ⟨hu, hsubject⟩, rfl⟩

def choices (s : IdentityStore) (identity : VerifiedIdentity) (tenantId workspaceId : Uuid) :
    List Membership :=
  s.memberships.filter (fun m =>
    ((s.users.filter (fun u => u.subject = identity.subject)).map (·.id) ++
      (s.externals.filter (fun x => x.issuer = identity.issuer &&
        x.subject = identity.subject)).map (·.userId)).contains m.userId &&
      m.tenantId = tenantId && m.workspaceId = workspaceId)

theorem mem_choices (hs : WellFormed s)
    (hmapped : s.mappedUser identity.issuer identity.subject = some userId)
    {tenantId workspaceId : Uuid} {m : Membership} :
    m ∈ choices s identity tenantId workspaceId ↔ m ∈ s.memberships ∧
      (m.userId = userId ∨ ∃ u ∈ s.users, u.subject = identity.subject ∧ u.id = m.userId) ∧
      m.tenantId = tenantId ∧ m.workspaceId = workspaceId := by
  rw [choices, List.mem_filter, Bool.and_eq_true, Bool.and_eq_true, mem_candidates hs hmapped,
    decide_eq_true_eq, decide_eq_true_eq, and_assoc]

/-- **A request** in a tenant with a plan runs as the user of the chosen membership. -/
theorem build_chosen (hseeded : Seeded b s) {first : FirstRow} {workspaceId : Uuid}
    {m : Membership}
    (hpick : first.pick (choices s identity b.defaultTenantId workspaceId) = some m) :
    ∃ access, build first s identity (some b.defaultTenantId) (some workspaceId) = .ok access ∧
      access.principalId = m.userId ∧ access.roles = m.roleKeys ∧
      access.scopes = (s.roles.filter (fun r => m.roleKeys.contains r.key)).flatMap (·.scopes) := by
  obtain ⟨e, he, htenant, p, hp, hplan⟩ := hseeded.plan
  have hfound : (s.entitlements.find? (fun e => e.tenantId = b.defaultTenantId &&
      s.plans.any (fun p => p.planId = e.planId))).isSome = true := by
    rw [List.find?_isSome]
    refine ⟨e, he, ?_⟩
    rw [Bool.and_eq_true, decide_eq_true_eq, List.any_eq_true]
    exact ⟨htenant, p, hp, decide_eq_true hplan⟩
  obtain ⟨e', he'⟩ := Option.isSome_iff_exists.mp hfound
  rw [choices] at hpick
  simp only [build, findAccess, hpick, he']
  exact ⟨_, rfl, rfl, rfl, rfl⟩

def preferring (m : Membership) : FirstRow where
  pick rows := if m ∈ rows then some m else rows.head?
  none_of := rfl
  mem_of rows m' h := by
    by_cases hm : m ∈ rows
    · rw [if_pos hm] at h
      obtain rfl := Option.some.inj h
      exact hm
    · rw [if_neg hm] at h
      exact List.mem_of_mem_head? h
  some_of rows h := by
    by_cases hm : m ∈ rows
    · rw [if_pos hm]
      rfl
    · rw [if_neg hm]
      cases rows with
      | nil => exact absurd rfl h
      | cons x rest => rfl

theorem scopes_agree (hs : WellFormed s) {row : Membership × Workspace × Tenant}
    {keys : List String} (hkeys : ∀ k ∈ row.1.roleKeys, k ∈ keys) {scope : String} :
    scope ∈ (s.roles.filter (fun r => row.1.roleKeys.contains r.key)).flatMap (·.scopes) ↔
      scope ∈ (SqlIdentityBootstrap.viewOf s.roles keys row).scopes := by
  simp only [SqlIdentityBootstrap.viewOf, List.mem_insertionSort, List.mem_dedup,
    List.mem_flatMap, List.mem_filter, List.contains_iff_mem]
  constructor
  · rintro ⟨r, ⟨hr, hkey⟩, hscope⟩
    exact ⟨r.key, hkey, (hs.scopeByRole (hkeys _ hkey)).mpr ⟨r, hr, rfl, hscope⟩⟩
  · rintro ⟨key, hkey, hscope⟩
    obtain ⟨r, hr, hrkey, hin⟩ := (hs.scopeByRole (hkeys _ hkey)).mp hscope
    rw [← hrkey] at hkey
    exact ⟨r, ⟨hr, hkey⟩, hin⟩

/-- **Login and request**: what is reported of a mapped identity is what every request
    finds, exactly when no other user of its subject is a member beside it. -/
theorem request_iff (hs : WellFormed s) (hseeded : Seeded b s)
    (hmapped : s.mappedUser identity.issuer identity.subject = some userId) :
    (∀ m ∈ b.readMemberships s userId, ∀ first, ∃ access,
      build first s identity (some m.tenantId) (some m.workspaceId) = .ok access ∧
        SamePerson userId m access) ↔ AloneInWorkspaces b s identity.subject userId := by
  constructor
  · intro h u hu hsubject hne row hrow m hm huser htenant hworkspace
    obtain ⟨hmem, -, -, hreported⟩ := mem_memberRows hrow
    have hview : SqlIdentityBootstrap.viewOf s.roles
        ((SqlIdentityBootstrap.memberRows s b.defaultTenantId userId).flatMap (·.1.roleKeys)) row ∈
        b.readMemberships s userId := List.mem_map_of_mem hrow
    have hchoice : m ∈ choices s identity b.defaultTenantId row.1.workspaceId :=
      (mem_choices hs hmapped).mpr ⟨hm, .inr ⟨u, hu, hsubject, huser.symm⟩, htenant, hworkspace⟩
    -- a database that returns the other user's membership first
    obtain ⟨access, hbuild, hsame⟩ := h _ hview (preferring m)
    obtain ⟨access', hbuild', hprincipal, -, -⟩ :=
      @build_chosen b s identity hseeded (preferring m) row.1.workspaceId m (if_pos hchoice)
    have htid : (SqlIdentityBootstrap.viewOf s.roles
        ((SqlIdentityBootstrap.memberRows s b.defaultTenantId userId).flatMap (·.1.roleKeys))
        row).tenantId = b.defaultTenantId := hreported
    rw [htid] at hbuild
    cases hbuild.symm.trans hbuild'
    exact hne (by rw [← huser, ← hprincipal, hsame.principal])
  · intro halone m hm first
    obtain ⟨row, hrow, rfl⟩ := List.mem_map.mp hm
    obtain ⟨hmem, htenant, huser, hreported⟩ := mem_memberRows hrow
    have hchoice : row.1 ∈ choices s identity b.defaultTenantId row.1.workspaceId :=
      (mem_choices hs hmapped).mpr ⟨hmem, .inl huser, htenant, rfl⟩
    obtain ⟨m', hpick⟩ := Option.isSome_iff_exists.mp
      (first.some_of _ (List.ne_nil_of_mem hchoice))
    obtain ⟨hmem', hcandidate, htenant', hworkspace'⟩ :=
      (mem_choices hs hmapped).mp (first.mem_of _ _ hpick)
    have huser' : m'.userId = userId := by
      rcases hcandidate with hmapped' | ⟨u, hu, hsubject, hid⟩
      · exact hmapped'
      · by_contra hne
        exact halone u hu hsubject (fun h => hne (hid.symm.trans h)) row hrow m' hmem' hid.symm
          htenant' hworkspace'
    have hrow' : m' = row.1 := by
      apply Rows.eq_of_key hs.members hmem' hmem
      rw [htenant', hworkspace', huser', htenant, huser]
    subst hrow'
    obtain ⟨access, hbuild, hprincipal, hroles, hscopes⟩ := build_chosen hseeded hpick
    refine ⟨access, ?_, ?_, ?_, ?_⟩
    · show build first s identity (some row.2.2.id) (some row.1.workspaceId) = .ok access
      rw [hreported]
      exact hbuild
    · rw [hprincipal, huser]
    · intro r
      rw [hroles]
      exact (List.mem_insertionSort _).symm
    · intro scope
      rw [hscopes]
      apply scopes_agree hs
      intro k hk
      exact List.mem_flatMap.mpr ⟨row, hrow, hk⟩

/-! ## One bootstrap -/

theorem agrees_iff (hs : WellFormed s') (hseeded : Seeded b s') (hu : u ∈ s'.users)
    (hmapped : s'.mappedUser identity.issuer identity.subject = some u.id) :
    Agrees b s identity s' (report b s' u) ↔ AloneInWorkspaces b s' identity.subject u.id ∧
      ¬ TiedElsewhere s identity.issuer u.id := by
  have hrequest := request_iff hs hseeded hmapped
  constructor
  · intro h
    exact ⟨hrequest.mp h.request, h.own⟩
  · rintro ⟨halone, hown⟩
    refine ⟨?_, hrequest.mpr halone, hown⟩
    intro newId
    obtain ⟨v, hv, hid, hbootstrap⟩ := hs.bootstrap_mapped (b := b) newId hmapped
    rw [Rows.eq_of_key hs.userIds hv hu hid] at hbootstrap
    exact hbootstrap

theorem WellFormed.alone (hs : WellFormed s) (hu : u ∈ s.users)
    (hsubject : u.subject = identity.subject) : AloneInWorkspaces b s identity.subject u.id := by
  intro v hv hsame hne
  exact absurd (congrArg (·.id) (Rows.eq_of_key hs.subjects hv hu (hsame.trans hsubject.symm))) hne

theorem WellFormed.login_iff (hs : WellFormed s) (hseeded : Seeded b s)
    (hnewId : ∀ u ∈ s.users, u.id ≠ newId) :
    LoginAgrees b s ⟨identity, newId⟩ ↔ Unmistaken b s identity := by
  have hresult : ∀ {s' view}, b.bootstrap s identity newId = .ok (s', view) →
      (LoginAgrees b s ⟨identity, newId⟩ ↔ Agrees b s identity s' view) := by
    intro s' view hok
    constructor
    · rintro ⟨s₁, view₁, hok₁, hagrees⟩
      cases hok.symm.trans hok₁
      exact hagrees
    · intro hagrees
      exact ⟨s', view, hok, hagrees⟩
  cases hmapped : s.mappedUser identity.issuer identity.subject with
  | some userId =>
    obtain ⟨u, hu, rfl, hok⟩ := hs.bootstrap_mapped (b := b) newId hmapped
    rw [hresult hok, agrees_iff hs hseeded hu hmapped, Unmistaken, hmapped]
    -- the mapping itself is of this issuer
    have hown : ¬ TiedElsewhere s identity.issuer u.id := by
      rintro ⟨-, hothers⟩
      obtain ⟨x, hx, hissuer, -, hid⟩ := mappedUser_some hmapped
      exact hothers x hx hid hissuer
    simp only [hown, not_false_eq_true, and_true]
  | none =>
    cases hsubject : s.subjectUser identity.subject with
    | some u =>
      obtain ⟨hu, hsame⟩ := subjectUser_some hsubject
      have hok := hs.bootstrap_known (b := b) newId hmapped hsubject
      have hs' := hs.addMapping (b := b) hmapped ⟨u, hu, rfl⟩
      have hmapped' : ({ s with externals := s.externals ++ [newMapping b identity u.id] } :
          IdentityStore).mappedUser identity.issuer identity.subject = some u.id :=
        hs'.mappedUser (List.mem_append_right _ List.mem_cons_self) rfl rfl
      rw [hresult hok, agrees_iff hs' ⟨hseeded.tenant, hseeded.workspace, hseeded.plan⟩ hu hmapped',
        Unmistaken, hmapped]
      simp only [hsubject, hs'.alone (b := b) hu hsame, true_and, TiedElsewhere, not_and, not_forall]
      constructor
      · intro h hsome
        obtain ⟨x, hx, hid, hissuer⟩ := h hsome
        exact ⟨x, hx, hid, not_not.mp hissuer⟩
      · intro h hsome
        obtain ⟨x, hx, hid, hissuer⟩ := h hsome
        exact ⟨x, hx, hid, not_not.mpr hissuer⟩
    | none =>
      have hunmistaken : Unmistaken b s identity ↔
          ∀ email, identity.email = some email → ∀ u ∈ s.users, u.email ≠ some email := by
        rw [Unmistaken, hmapped]
        simp only [hsubject]
      rw [hunmistaken]
      constructor
      · rintro ⟨s', view, hok, -⟩ email hemail u hu htaken
        obtain ⟨e, herror⟩ := bootstrap_clash (b := b) newId hmapped hsubject hemail hu htaken
        cases herror.symm.trans hok
      · intro hemail
        have hok := bootstrap_new hs hseeded hnewId hmapped hsubject hemail
        have hs' := hs.enrolled (b := b) hnewId hmapped hsubject
        have hu : newUser identity newId ∈ (Identity.enrolled b s identity newId).users :=
          List.mem_append_right _ List.mem_cons_self
        have hmapped' : (Identity.enrolled b s identity newId).mappedUser identity.issuer identity.subject =
            some newId := by
          have hnew : newMapping b identity newId ∈ (Identity.enrolled b s identity newId).externals :=
            List.mem_append_right _ List.mem_cons_self
          exact hs'.mappedUser hnew rfl rfl
        rw [hresult hok, agrees_iff hs' ⟨hseeded.tenant, hseeded.workspace, hseeded.plan⟩ hu hmapped']
        refine ⟨hs'.alone hu rfl, ?_⟩
        -- nothing refers to an identifier that was not drawn before
        rintro ⟨⟨x, hx, hid⟩, -⟩
        obtain ⟨u, hu, huid⟩ := hs.mapped x hx
        exact hnewId u hu (huid.trans hid)

/-! ## Runs -/

theorem plane_step {l : Login} (h : WellFormed s ∧ Seeded b s)
    (hstep : (identityPlane b).step s l = some s') : WellFormed s' ∧ Seeded b s' := by
  obtain ⟨hs, hseeded⟩ := h
  simp only [identityPlane] at hstep
  split at hstep
  · cases hstep
  · next hnew =>
    have hnewId : ∀ u ∈ s.users, u.id ≠ l.newId := by
      intro u hu hid
      apply hnew
      rw [List.any_eq_true]
      exact ⟨u, hu, decide_eq_true hid⟩
    cases hok : b.bootstrap s l.identity l.newId with
    | error e =>
      rw [hok] at hstep
      obtain rfl := Option.some.inj hstep
      exact ⟨hs, hseeded⟩
    | ok result =>
      rw [hok] at hstep
      obtain rfl : result.1 = s' := Option.some.inj hstep
      cases hmapped : s.mappedUser l.identity.issuer l.identity.subject with
      | some userId =>
        obtain ⟨u, -, -, hok'⟩ := hs.bootstrap_mapped (b := b) l.newId hmapped
        cases hok.symm.trans hok'
        exact ⟨hs, hseeded⟩
      | none =>
        cases hsubject : s.subjectUser l.identity.subject with
        | some u =>
          cases hok.symm.trans (hs.bootstrap_known (b := b) l.newId hmapped hsubject)
          exact ⟨hs.addMapping hmapped ⟨u, (subjectUser_some hsubject).1, rfl⟩,
            hseeded.tenant, hseeded.workspace, hseeded.plan⟩
        | none =>
          by_cases hemail : ∀ email, l.identity.email = some email →
              ∀ u ∈ s.users, u.email ≠ some email
          · cases hok.symm.trans (bootstrap_new hs hseeded hnewId hmapped hsubject hemail)
            exact ⟨hs.enrolled hnewId hmapped hsubject,
              hseeded.tenant, hseeded.workspace, hseeded.plan⟩
          · push Not at hemail
            obtain ⟨email, hgiven, u, hu, htaken⟩ := hemail
            obtain ⟨e, herror⟩ :=
              bootstrap_clash (b := b) l.newId hmapped hsubject hgiven hu htaken
            cases herror.symm.trans hok

end

/-- **Login and request**: over a run of bootstraps from a seeded store, each of them
    succeeds, can be repeated, agrees with every request and keeps issuers apart if and
    only if none is mistaken. -/
theorem logins_agree_iff {b : SqlIdentityBootstrap} {es : List (Event IdentityStore Login)}
    {s : IdentityStore} (h : Exec (identityPlane b) es s) :
    (∀ e ∈ es, LoginAgrees b e.pre e.act) ↔ ∀ e ∈ es, Unmistaken b e.pre e.act.identity := by
  have hpre := h.pre_invariant (P := fun s => WellFormed s ∧ Seeded b s) (fun _ hinit => hinit)
    (fun _ _ _ hprev hstep => plane_step hprev hstep)
  refine forall₂_congr fun e he => ?_
  obtain ⟨⟨hs, hseeded⟩, hstep⟩ := hpre e he
  apply hs.login_iff hseeded
  intro u hu hid
  simp only [identityPlane] at hstep
  rw [if_pos (List.any_eq_true.mpr ⟨u, hu, decide_eq_true hid⟩)] at hstep
  cases hstep

/-! ## A realm -/

namespace Realm

def alpha : Uuid := { text := "alpha" }

def main : Uuid := { text := "main" }

def an : User :=
  { id := { text := "an" }, subject := "dev|an", email := some "an@alpha.local", displayName := "An" }

def service : SqlIdentityBootstrap := { defaultTenantId := alpha, defaultWorkspaceId := main }

def seed : IdentityStore :=
  { users := [an]
    tenants := [{ id := alpha, slug := "alpha", name := "Alpha" }]
    workspaces := [{ id := main, tenantId := alpha, slug := "main", name := "Main" }]
    roles := [{ key := "member", scopes := ["tender.read"] }]
    memberships := [{ tenantId := alpha, workspaceId := main, userId := an.id, roleKeys := ["member"] }]
    plans := [{ planId := "basic", features := [] }]
    entitlements := [{ tenantId := alpha, planId := "basic", featureOverrides := [] }] }

theorem seed_init : (identityPlane service).init seed := by
  constructor
  · constructor
    all_goals decide
  · exact ⟨by decide, by decide, by decide⟩

def firstLogin (email : String) : Login :=
  { identity := { subject := "7f3a", email := some email, issuer := "realm" }
    newId := { text := "new" } }

theorem login_exec (l : Login) (h : ((identityPlane service).step seed l).isSome = true) :
    Exec (identityPlane service) [⟨seed, l, (identityPlane service).next seed l⟩]
      ((identityPlane service).next seed l) :=
  (Exec.start seed_init).next l h

/-- A new colleague gets in, and is the same person at every request. -/
theorem new_colleague : ∃ es s, Exec (identityPlane service) es s ∧ es ≠ [] ∧
    ∀ e ∈ es, LoginAgrees service e.pre e.act := by
  have hexec := login_exec (firstLogin "binh@alpha.local") (by decide +kernel)
  refine ⟨_, _, hexec, by simp, ?_⟩
  rw [logins_agree_iff hexec]
  intro e he
  obtain rfl := List.mem_singleton.mp he
  intro email hemail u hu htaken
  obtain rfl := List.mem_singleton.mp hu
  cases hemail
  revert htaken
  decide

/-- An, who is seeded, logs in through the realm with the same e-mail, and cannot. -/
theorem taken_email : ∃ es s, Exec (identityPlane service) es s ∧
    ¬ ∀ e ∈ es, LoginAgrees service e.pre e.act := by
  have hexec := login_exec (firstLogin "an@alpha.local") (by decide +kernel)
  refine ⟨_, _, hexec, ?_⟩
  intro h
  obtain ⟨s', view, hok, -⟩ := h _ List.mem_cons_self
  have hfails : (service.bootstrap seed (firstLogin "an@alpha.local").identity
      (firstLogin "an@alpha.local").newId).isOk = false := by decide +kernel
  rw [hok] at hfails
  cases hfails

end Realm

end DigitalWorker.Identity
