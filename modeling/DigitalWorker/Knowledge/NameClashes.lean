import DigitalWorker.Framework.Cuts
import DigitalWorker.Framework.Fields
import DigitalWorker.Knowledge.Identity

/-! # Documents with one identifier

    Scope, tenant, workspace, domain, title and version of a document are joined
    by colons and hashed. The first three hold no colon; the last three are free
    text. A document can be mistaken for another one exactly when one of its
    colons has no blank on the side where a title could begin or end.
-/

namespace DigitalWorker.Knowledge

open Framework

/-! ## Documents -/

inductive Scope where
  | tenant
  | global
  deriving DecidableEq

def Scope.value : Scope → String
  | .tenant => "tenant"
  | .global => "global"

/-- `str(uuid)`: 32 digits and four hyphens. -/
def Canonical (u : Uuid) : Prop := u.text.length = 36 ∧ ':' ∉ u.text.toList

instance (u : Uuid) : Decidable (Canonical u) :=
  inferInstanceAs (Decidable (u.text.length = 36 ∧ ':' ∉ u.text.toList))

structure Document where
  scope : Scope
  tenantId : Uuid
  workspaceId : Uuid
  domain : String
  title : String
  sourceVersion : String
  canonical : Canonical tenantId ∧ Canonical workspaceId

namespace Document

variable (uuid5 : String → Uuid) (d d' : Document)

/-- Its `document_id`. -/
def id : Uuid :=
  documentIdFor uuid5 d.tenantId d.workspaceId d.domain d.title d.sourceVersion d.scope.value

/-- Its `doc_key`. -/
def docKey : Uuid := docKeyFor uuid5 d.tenantId d.workspaceId d.domain d.title d.scope.value

/-- Versions of one document. A global document has no owner. -/
structure Same : Prop where
  scope : d.scope = d'.scope
  owner : d.scope = .tenant → d.tenantId = d'.tenantId ∧ d.workspaceId = d'.workspaceId
  domain : d.domain = d'.domain
  title : strip d.title = strip d'.title

def Unmistakable : Prop :=
  ∀ d', (d.id uuid5 = d'.id uuid5 → d.Same d' ∧ d.sourceVersion = d'.sourceVersion) ∧
    (d.docKey uuid5 = d'.docKey uuid5 → d.Same d') ∧
    (d.id uuid5 = d'.id uuid5 → d.docKey uuid5 = d'.docKey uuid5)

structure Tidy : Prop where
  domain : BlankAfter ':' isSpace d.domain.toList
  titleAfter : BlankAfter ':' isSpace (strip d.title).toList
  titleBefore : BlankBefore ':' isSpace (strip d.title).toList
  version : BlankBefore ':' isSpace d.sourceVersion.toList

end Document

/-- A text that stripping leaves as it is has no blank at either end. -/
theorem trimmed_of_strip {s : String} (h : strip s = s) : Trimmed isSpace s.toList := by
  have hlist : (s.toList.dropWhile isSpace).rdropWhile isSpace = s.toList := by
    rw [← String.toList_ofList (l := (s.toList.dropWhile isSpace).rdropWhile isSpace)]
    exact congrArg String.toList h
  have hprefix := List.rdropWhile_prefix isSpace (s.toList.dropWhile isSpace)
  have hsuffix := List.dropWhile_suffix (l := s.toList) isSpace
  rw [hlist] at hprefix
  -- nothing is dropped in front, so nothing behind
  have hdrop : s.toList.dropWhile isSpace = s.toList :=
    hsuffix.eq_of_length_le hprefix.length_le
  rw [hdrop] at hlist
  constructor
  · intro c hc
    cases htext : s.toList with
    | nil =>
      rw [htext] at hc
      cases hc
    | cons x rest =>
      rw [htext, List.head?_cons, Option.some.injEq] at hc
      rw [htext, List.dropWhile_eq_self_iff] at hdrop
      have hx := hdrop (by simp)
      rw [List.getElem_cons_zero] at hx
      rw [← hc]
      simpa using hx
  · intro c hc
    have hne : s.toList ≠ [] := by
      intro hnil
      rw [hnil] at hc
      cases hc
    have hx := List.rdropWhile_eq_self_iff.mp hlist hne
    rw [List.getLast?_eq_some_getLast hne, Option.some.injEq] at hc
    rw [← hc]
    simpa using hx

theorem strip_trimmed (s : String) : Trimmed isSpace (strip s).toList :=
  trimmed_of_strip (strip_strip s)

theorem strip_of_trimmed {l : List Char} (h : Trimmed isSpace l) :
    strip (String.ofList l) = String.ofList l := by
  have hdrop : l.dropWhile isSpace = l := by
    rw [List.dropWhile_eq_self_iff]
    intro hpos hspace
    have hfirst := h.1 _ (List.head?_eq_getElem? ▸ List.getElem?_eq_getElem hpos)
    rw [hspace] at hfirst
    cases hfirst
  have hrdrop : l.rdropWhile isSpace = l := by
    rw [List.rdropWhile_eq_self_iff]
    intro hne hspace
    have hlast := h.2 _ (List.getLast?_eq_some_getLast hne)
    rw [hspace] at hlast
    cases hlast
  unfold strip
  rw [String.toList_ofList, hdrop, hrdrop]

/-! ## Names -/

section

variable {uuid5 : String → Uuid} {d d' : Document}

def Document.owned (d : Document) (rest : List Char) : List Char :=
  match d.scope with
  | .global => rest
  | .tenant => d.tenantId.text.toList ++ ':' :: (d.workspaceId.text.toList ++ ':' :: rest)

def Document.titled (d : Document) : List Char :=
  d.domain.toList ++ ':' :: (strip d.title).toList

def Document.free (d : Document) : List Char :=
  d.domain.toList ++ ':' :: ((strip d.title).toList ++ ':' :: d.sourceVersion.toList)

theorem documentName_toList (d : Document) :
    (documentName d.tenantId d.workspaceId d.domain d.title d.sourceVersion d.scope.value).toList =
      "doc".toList ++ ':' :: (d.scope.value.toList ++ ':' :: d.owned d.free) := by
  unfold documentName Document.owned Document.free
  cases d.scope with
  | tenant => simp [Scope.value, String.toList_append]
  | global => simp [Scope.value, String.toList_append]

theorem docKeyName_toList (d : Document) :
    (docKeyName d.tenantId d.workspaceId d.domain d.title d.scope.value).toList =
      "dockey".toList ++ ':' :: ((match d.scope with
        | .global => "global".toList ++ [':']
        | .tenant => []) ++ d.owned d.titled) := by
  unfold docKeyName Document.owned Document.titled
  cases d.scope with
  | tenant => simp [Scope.value, String.toList_append]
  | global => simp [Scope.value, String.toList_append]

private theorem uuid_of_text {u v : Uuid} (h : u.text.toList = v.text.toList) : u = v := by
  cases u
  cases v
  obtain rfl := String.toList_inj.mp h
  rfl

theorem owned_inj {rest rest' : List Char} (hscope : d.scope = d'.scope)
    (h : d.owned rest = d'.owned rest') :
    (d.scope = .tenant → d.tenantId = d'.tenantId ∧ d.workspaceId = d'.workspaceId) ∧
      rest = rest' := by
  unfold Document.owned at h
  rw [← hscope] at h
  cases hd : d.scope with
  | global =>
    rw [hd] at h
    exact ⟨(fun hne => by cases hne), h⟩
  | tenant =>
    rw [hd] at h
    obtain ⟨htenant, h⟩ := first_field_inj d.canonical.1.2 d'.canonical.1.2 h
    obtain ⟨hworkspace, h⟩ := first_field_inj d.canonical.2.2 d'.canonical.2.2 h
    exact ⟨fun _ => ⟨uuid_of_text htenant, uuid_of_text hworkspace⟩, h⟩

theorem Scope.value_clean (s : Scope) : ':' ∉ s.value.toList := by
  cases s <;> decide

theorem documentName_eq
    (h : documentName d.tenantId d.workspaceId d.domain d.title d.sourceVersion d.scope.value =
      documentName d'.tenantId d'.workspaceId d'.domain d'.title d'.sourceVersion d'.scope.value) :
    d.scope = d'.scope ∧
      (d.scope = .tenant → d.tenantId = d'.tenantId ∧ d.workspaceId = d'.workspaceId) ∧
      d.free = d'.free := by
  have hlist := congrArg String.toList h
  rw [documentName_toList, documentName_toList] at hlist
  obtain ⟨-, hlist⟩ := first_field_inj (by decide) (by decide) hlist
  obtain ⟨hvalue, hrest⟩ := first_field_inj (Scope.value_clean _) (Scope.value_clean _) hlist
  have hscope : d.scope = d'.scope := by
    cases hd : d.scope <;> cases hd' : d'.scope <;> rw [hd, hd'] at hvalue <;>
      first
        | rfl
        | exact absurd hvalue (by decide)
  exact ⟨hscope, owned_inj hscope hrest⟩

theorem owned_ne_global (htenant : d.scope = .tenant) {rest rest' : List Char} :
    d.owned rest ≠ "global".toList ++ ':' :: rest' := by
  intro h
  unfold Document.owned at h
  rw [htenant] at h
  have hname := (first_field_inj d.canonical.1.2 (by decide) h).1
  have hlength := congrArg List.length hname
  rw [String.length_toList, d.canonical.1.1] at hlength
  exact absurd hlength (by decide)

theorem docKeyName_eq
    (h : docKeyName d.tenantId d.workspaceId d.domain d.title d.scope.value =
      docKeyName d'.tenantId d'.workspaceId d'.domain d'.title d'.scope.value) :
    d.scope = d'.scope ∧
      (d.scope = .tenant → d.tenantId = d'.tenantId ∧ d.workspaceId = d'.workspaceId) ∧
      d.titled = d'.titled := by
  have hlist := congrArg String.toList h
  rw [docKeyName_toList, docKeyName_toList] at hlist
  obtain ⟨-, hlist⟩ := first_field_inj (by decide) (by decide) hlist
  cases hd : d.scope with
  | tenant =>
    cases hd' : d'.scope with
    | tenant =>
      rw [hd, hd'] at hlist
      have howned := owned_inj (hd.trans hd'.symm) hlist
      rw [hd] at howned
      exact ⟨rfl, howned⟩
    | global =>
      rw [hd, hd', List.append_assoc] at hlist
      exact absurd hlist (owned_ne_global hd)
  | global =>
    cases hd' : d'.scope with
    | tenant =>
      rw [hd, hd', List.append_assoc] at hlist
      exact absurd hlist.symm (owned_ne_global hd')
    | global =>
      rw [hd, hd'] at hlist
      have howned := owned_inj (hd.trans hd'.symm) (List.append_cancel_left hlist)
      rw [hd] at howned
      exact ⟨rfl, howned⟩

/-! ## When a document cannot be mistaken -/

theorem tidy_iff : d.Tidy ↔ CutsOneWay ':' isSpace d.domain.toList (strip d.title).toList
    d.sourceVersion.toList := by
  rw [cutsOneWay_iff (by decide) (strip_trimmed d.title)]
  exact ⟨fun h => ⟨h.domain, h.titleAfter, h.titleBefore, h.version⟩,
    fun h => ⟨h.1, h.2.1, h.2.2.1, h.2.2.2⟩⟩

def Document.reread (d : Document) (domain title sourceVersion : List Char) : Document :=
  { d with
    domain := String.ofList domain
    title := String.ofList title
    sourceVersion := String.ofList sourceVersion }

theorem reread_id {domain title version : List Char} (htitle : Trimmed isSpace title)
    (h : d.free = domain ++ ':' :: (title ++ ':' :: version)) :
    d.id uuid5 = (d.reread domain title version).id uuid5 := by
  have hfree : (d.reread domain title version).free = d.free := by
    rw [h]
    unfold Document.free Document.reread
    dsimp only
    rw [strip_of_trimmed htitle, String.toList_ofList, String.toList_ofList, String.toList_ofList]
  unfold Document.id documentIdFor
  apply congrArg
  apply String.toList_injective
  rw [documentName_toList, documentName_toList, hfree]
  rfl

/-- **Unmistakable**: a document has its identifier and its key for itself exactly
    when its colons have a blank where a title could begin or end. -/
theorem unmistakable_iff (huuid : Function.Injective uuid5) : d.Unmistakable uuid5 ↔ d.Tidy := by
  rw [tidy_iff]
  constructor
  · intro h domain title version htitle hcut
    have hid : d.id uuid5 = (d.reread domain title version).id uuid5 := reread_id htitle hcut
    obtain ⟨hsame, hversion⟩ := (h (d.reread domain title version)).1 hid
    have hdomain : d.domain = String.ofList domain := hsame.domain
    have hstrip : strip d.title = strip (String.ofList title) := hsame.title
    have hversion : d.sourceVersion = String.ofList version := hversion
    rw [strip_of_trimmed htitle] at hstrip
    rw [hdomain, hstrip, hversion]
    simp
  · intro hcuts d'
    have hfirst : d.id uuid5 = d'.id uuid5 →
        d.Same d' ∧ d.sourceVersion = d'.sourceVersion := by
      intro hid
      obtain ⟨hscope, howner, hfree⟩ := documentName_eq (huuid hid)
      obtain ⟨hdomain, htitle, hversion⟩ := hcuts _ _ _ (strip_trimmed d'.title) hfree
      exact ⟨⟨hscope, howner, String.toList_inj.mp hdomain, String.toList_inj.mp htitle⟩,
        String.toList_inj.mp hversion⟩
    have hsecond : d.docKey uuid5 = d'.docKey uuid5 → d.Same d' := by
      intro hkey
      obtain ⟨hscope, howner, htitled⟩ := docKeyName_eq (huuid hkey)
      -- one version behind both titles
      have hjoined := congrArg (· ++ ':' :: d.sourceVersion.toList) htitled
      unfold Document.titled at hjoined
      rw [List.append_assoc, List.append_assoc, List.cons_append, List.cons_append] at hjoined
      obtain ⟨hdomain, htitle, -⟩ := hcuts _ _ _ (strip_trimmed d'.title) hjoined
      exact ⟨hscope, howner, String.toList_inj.mp hdomain, String.toList_inj.mp htitle⟩
    refine ⟨hfirst, hsecond, ?_⟩
    intro hid
    obtain ⟨hsame, -⟩ := hfirst hid
    unfold Document.docKey docKeyFor docKeyName
    rw [← hsame.scope, ← hsame.domain, ← hsame.title]
    cases hd : d.scope with
    | global => rfl
    | tenant =>
      obtain ⟨htenant, hworkspace⟩ := hsame.owner hd
      rw [htenant, hworkspace]

end

/-! ## Three documents -/

namespace Sample

/-- Names as they are, behind a letter: told apart as `uuid5` tells them. -/
def named (name : String) : Uuid :=
  { text := "u" ++ name
    nonempty := by
      intro h
      have hlist := congrArg String.toList h
      rw [String.toList_append] at hlist
      cases hlist }

theorem named_injective : Function.Injective named := by
  intro a b h
  have hlist := congrArg (fun u : Uuid => u.text.toList) h
  simp only [named, String.toList_append, List.append_cancel_left_eq] at hlist
  exact String.toList_inj.mp hlist

def owner : Uuid := { text := "0f0e0d0c-0b0a-4908-8706-050403020100" }

theorem owner_canonical : Canonical owner := by decide

def charter : Document :=
  { scope := .tenant, tenantId := owner, workspaceId := owner, domain := "policy"
    title := "Quy chế", sourceVersion := "1", canonical := ⟨owner_canonical, owner_canonical⟩ }

def byDomain : Document :=
  { charter with scope := .global, domain := "legal:vn", title := "22/2023" }

def byTitle : Document :=
  { charter with scope := .global, domain := "legal", title := "vn:22/2023" }

end Sample

open Sample

/-- A document without colons is told apart from every other one. -/
theorem charter_unmistakable : charter.Unmistakable named :=
  (unmistakable_iff named_injective).mpr
    { domain := blankAfter_of_not_mem (by decide +kernel)
      titleAfter := blankAfter_of_not_mem (by decide +kernel)
      titleBefore := blankBefore_of_not_mem (by decide +kernel)
      version := blankBefore_of_not_mem (by decide +kernel) }

/-- Two documents of different domains and titles with one identifier and one key. -/
theorem colon_in_the_domain :
    byDomain.id named = byTitle.id named ∧ byDomain.docKey named = byTitle.docKey named ∧
    ¬ byDomain.Same byTitle ∧ ¬ byDomain.Unmistakable named := by
  have hid : byDomain.id named = byTitle.id named := by decide +kernel
  have hdiffer : ¬ byDomain.Same byTitle := fun h => absurd h.domain (by decide)
  exact ⟨hid, by decide +kernel, hdiffer, fun h => hdiffer ((h byTitle).1 hid).1⟩

end DigitalWorker.Knowledge
