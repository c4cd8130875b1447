import DigitalWorker.Platform.Identity
import DigitalWorker.Preparation.Store

/-! # Routing by role

    A card goes to one member of the tenant: the longest-serving holder of a role,
    or of the next role of a list when nobody holds the first. Whether that member
    may act is another matter, decided by the scopes of all their roles, by the role
    the item asks for, and by who they are.
-/

namespace DigitalWorker

/-! ## The oldest holder of a role -/

namespace Directory

def IsOldest (directory : Directory) (role : String) (leftOut : Option Uuid) (m : Membership) :
    Prop :=
  ∃ older younger, directory = older ++ m :: younger ∧ role ∈ m.roleKeys ∧
    leftOut ≠ some m.userId ∧ ∀ o ∈ older, role ∈ o.roleKeys → leftOut = some o.userId

def Unheld (directory : Directory) (role : String) (leftOut : Option Uuid) : Prop :=
  ∀ m ∈ directory, role ∈ m.roleKeys → leftOut = some m.userId

inductive Routes (directory : Directory) (leftOut : Option Uuid) : List String → Membership → Prop
  | here {role : String} {roles : List String} {m : Membership} :
      directory.IsOldest role leftOut m → Routes directory leftOut (role :: roles) m
  | next {role : String} {roles : List String} {m : Membership} :
      directory.Unheld role leftOut → Routes directory leftOut roles m →
      Routes directory leftOut (role :: roles) m

def routed (directory : Directory) (leftOut : Option Uuid) (roles : List String) : Option Uuid :=
  roles.findSome? (directory.recipient · leftOut)

variable {directory : Directory} {role : String} {roles : List String} {leftOut : Option Uuid}
  {user : Uuid}

theorem recipient_eq_some : directory.recipient role leftOut = some user ↔
    ∃ m, directory.IsOldest role leftOut m ∧ m.userId = user := by
  unfold recipient
  rw [Option.map_eq_some_iff]
  constructor
  · intro h
    obtain ⟨m, hfind, huser⟩ := h
    obtain ⟨hm, older, younger, heq, holder⟩ := List.find?_eq_some_iff_append.mp hfind
    simp only [Bool.and_eq_true, List.contains_iff_mem, bne_iff_ne] at hm
    refine ⟨m, ⟨older, younger, heq, hm.1, hm.2, ?_⟩, huser⟩
    intro o ho hrole
    have hnot := holder o ho
    simpa [hrole] using hnot
  · intro h
    obtain ⟨m, ⟨older, younger, heq, hrole, hout, holder⟩, huser⟩ := h
    refine ⟨m, List.find?_eq_some_iff_append.mpr ⟨?_, older, younger, heq, ?_⟩, huser⟩
    · simpa [hrole] using hout
    · intro o ho
      by_cases hheld : role ∈ o.roleKeys
      · simp [holder o ho hheld]
      · simp [hheld]

theorem recipient_eq_none : directory.recipient role leftOut = none ↔
    directory.Unheld role leftOut := by
  unfold recipient Unheld
  rw [Option.map_eq_none_iff, List.find?_eq_none]
  constructor
  · intro h m hm hrole
    have hnot := h m hm
    simpa [hrole] using hnot
  · intro h m hm
    by_cases hrole : role ∈ m.roleKeys
    · simp [h m hm hrole]
    · simp [hrole]

/-- **Routing**: the recipient is the member the roles lead to. -/
theorem routed_eq_some : directory.routed leftOut roles = some user ↔
    ∃ m, directory.Routes leftOut roles m ∧ m.userId = user := by
  induction roles with
  | nil =>
    constructor
    · intro h
      cases h
    · intro h
      obtain ⟨m, hroutes, _⟩ := h
      cases hroutes
  | cons role roles ih =>
    unfold routed at ih ⊢
    rw [List.findSome?_cons]
    cases hfirst : directory.recipient role leftOut with
    | some first =>
      obtain ⟨m₀, hm₀, hfirst₀⟩ := recipient_eq_some.mp hfirst
      constructor
      · intro h
        obtain rfl := Option.some.inj h
        exact ⟨m₀, .here hm₀, hfirst₀⟩
      · intro h
        obtain ⟨m, hroutes, huser⟩ := h
        cases hroutes with
        | here hm =>
          have hsame := recipient_eq_some.mpr ⟨m, hm, huser⟩
          rw [← hsame, hfirst]
        | next hunheld _ =>
          rw [recipient_eq_none.mpr hunheld] at hfirst
          cases hfirst
    | none =>
      rw [ih]
      constructor
      · intro h
        obtain ⟨m, hroutes, huser⟩ := h
        exact ⟨m, .next (recipient_eq_none.mp hfirst) hroutes, huser⟩
      · intro h
        obtain ⟨m, hroutes, huser⟩ := h
        cases hroutes with
        | here hm =>
          rw [recipient_eq_some.mpr ⟨m, hm, huser⟩] at hfirst
          cases hfirst
        | next _ hroutes => exact ⟨m, hroutes, huser⟩

theorem routed_one : directory.routed leftOut [role] = directory.recipient role leftOut := by
  unfold routed
  rw [List.findSome?_singleton]

theorem routed_two {other : String} : directory.routed leftOut [role, other] =
    (directory.recipient role leftOut <|> directory.recipient other leftOut) := by
  unfold routed
  rw [List.findSome?_cons, List.findSome?_singleton]
  cases directory.recipient role leftOut with
  | none => rfl
  | some first => rfl

end Directory

/-- `find_access`: the context a member acts under, by the catalogue of roles. The
    plan of the tenant is left at its default; no decision looks at it. -/
def Membership.access (catalogue : List Identity.Role) (m : Membership) : AccessContext :=
  { principalId := m.userId
    roles := m.roleKeys
    scopes := (catalogue.filter (fun r => m.roleKeys.contains r.key)).flatMap (·.scopes) }

def Membership.Fits (catalogue : List Identity.Role) (required : String) (excluded : Uuid)
    (m : Membership) : Prop :=
  m.userId ≠ excluded ∧ isAllowed (m.access catalogue) "approvals.decide" = true ∧
    (required = "" ∨ required ∈ m.roleKeys)

instance (catalogue : List Identity.Role) (required : String) (excluded : Uuid)
    (m : Membership) : Decidable (m.Fits catalogue required excluded) :=
  inferInstanceAs (Decidable (_ ∧ _ ∧ _))

end DigitalWorker
