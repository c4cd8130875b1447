import Mathlib.Data.Set.Function
import DigitalWorker.Kernel.Basic

/-! # Identities of the knowledge plane

    Documents, their version-independent keys and their chunks get identifiers
    computed from what they are, so that ingesting one document again overwrites
    its rows. The identifiers are `uuid5` of a text in a fixed namespace; that
    two of the texts that occur get two identifiers is a property of `uuid5` and
    an assumption here.
-/

namespace DigitalWorker.Knowledge

section

-- `uuid.uuid5(NAMESPACE, name)`
variable (uuid5 : String → Uuid)

/-- The name `document_id_for` hashes. -/
def documentName (tenantId workspaceId : Uuid) (domain title sourceVersion scope : String) :
    String :=
  if scope = "global" then
    -- a global document is the same for every tenant that ingests it
    "doc:global:" ++ domain ++ ":" ++ strip title ++ ":" ++ sourceVersion
  else
    "doc:" ++ scope ++ ":" ++ tenantId.text ++ ":" ++ workspaceId.text ++ ":" ++ domain ++ ":" ++
      strip title ++ ":" ++ sourceVersion

def documentIdFor (tenantId workspaceId : Uuid) (domain title sourceVersion scope : String) :
    Uuid :=
  uuid5 (documentName tenantId workspaceId domain title sourceVersion scope)

/-- The name `doc_key_for` hashes. -/
def docKeyName (tenantId workspaceId : Uuid) (domain title scope : String) : String :=
  if scope = "global" then "dockey:global:" ++ domain ++ ":" ++ strip title
  else "dockey:" ++ tenantId.text ++ ":" ++ workspaceId.text ++ ":" ++ domain ++ ":" ++ strip title

/-- `doc_key_for`: what the versions of one document have in common. -/
def docKeyFor (tenantId workspaceId : Uuid) (domain title scope : String) : Uuid :=
  uuid5 (docKeyName tenantId workspaceId domain title scope)

def chunkIdFor (documentId : Uuid) (indexVersion : String) (seq : Nat) : Uuid :=
  uuid5 ("chunk:" ++ documentId.text ++ ":" ++ indexVersion ++ ":" ++ toString seq)

end

/-! ## Telling documents of one workspace apart -/

variable {uuid5 : String → Uuid} {tenantId workspaceId : Uuid}
  {domain title title' sourceVersion scope : String} {names : Set String}

private theorem append_between {a s t b : String} (h : a ++ s ++ b = a ++ t ++ b) : s = t := by
  have hlist := congrArg String.toList h
  simp only [String.toList_append, List.append_cancel_right_eq, List.append_cancel_left_eq] at hlist
  exact String.toList_inj.mp hlist

theorem documentName_inj
    (h : documentName tenantId workspaceId domain title sourceVersion scope =
      documentName tenantId workspaceId domain title' sourceVersion scope) :
    strip title = strip title' := by
  unfold documentName at h
  split at h
  · have hbetween : ("doc:global:" ++ domain ++ ":") ++ strip title ++ (":" ++ sourceVersion) =
        ("doc:global:" ++ domain ++ ":") ++ strip title' ++ (":" ++ sourceVersion) := by
      simpa only [String.append_assoc] using h
    exact append_between hbetween
  · have hbetween : ("doc:" ++ scope ++ ":" ++ tenantId.text ++ ":" ++ workspaceId.text ++ ":" ++
          domain ++ ":") ++ strip title ++ (":" ++ sourceVersion) =
        ("doc:" ++ scope ++ ":" ++ tenantId.text ++ ":" ++ workspaceId.text ++ ":" ++
          domain ++ ":") ++ strip title' ++ (":" ++ sourceVersion) := by
      simpa only [String.append_assoc] using h
    exact append_between hbetween

theorem docKeyName_inj
    (h : docKeyName tenantId workspaceId domain title scope =
      docKeyName tenantId workspaceId domain title' scope) : strip title = strip title' := by
  unfold docKeyName at h
  split at h
  · have hbetween : ("dockey:global:" ++ domain ++ ":") ++ strip title ++ "" =
        ("dockey:global:" ++ domain ++ ":") ++ strip title' ++ "" := by
      simpa only [String.append_assoc, String.append_empty] using h
    exact append_between hbetween
  · have hbetween : ("dockey:" ++ tenantId.text ++ ":" ++ workspaceId.text ++ ":" ++ domain ++
          ":") ++ strip title ++ "" =
        ("dockey:" ++ tenantId.text ++ ":" ++ workspaceId.text ++ ":" ++ domain ++ ":") ++
          strip title' ++ "" := by
      simpa only [String.append_assoc, String.append_empty] using h
    exact append_between hbetween

theorem documentIdFor_inj (huuid : Set.InjOn uuid5 names)
    (hname : documentName tenantId workspaceId domain title sourceVersion scope ∈ names)
    (hname' : documentName tenantId workspaceId domain title' sourceVersion scope ∈ names) :
    documentIdFor uuid5 tenantId workspaceId domain title sourceVersion scope =
      documentIdFor uuid5 tenantId workspaceId domain title' sourceVersion scope ↔
    strip title = strip title' := by
  constructor
  · intro h
    exact documentName_inj (huuid hname hname' h)
  · intro h
    simp only [documentIdFor, documentName, h]

theorem docKeyFor_inj (huuid : Set.InjOn uuid5 names)
    (hname : docKeyName tenantId workspaceId domain title scope ∈ names)
    (hname' : docKeyName tenantId workspaceId domain title' scope ∈ names) :
    docKeyFor uuid5 tenantId workspaceId domain title scope =
      docKeyFor uuid5 tenantId workspaceId domain title' scope ↔ strip title = strip title' := by
  constructor
  · intro h
    exact docKeyName_inj (huuid hname hname' h)
  · intro h
    simp only [docKeyFor, docKeyName, h]

end DigitalWorker.Knowledge
