import DigitalWorker.Framework.Shortlist
import DigitalWorker.Preparation.EmailIngest

/-! # Whose bid a mail is

    Every supplier may write from one mailbox, so a mail is attributed to the
    shortlisted name that its text contains. The names are looked for in every
    edition of the shortlist that was ever stored, the oldest first, and within an
    edition in its order.
-/

namespace DigitalWorker

open Framework

/-! ## What the text of a mail is matched with -/

def shortlistEntries (a : PreparationArtifact) : List Dict :=
  dictItems (a.content.getD "shortlist" (.arr []))

/-- `str(item.get("name", ""))`. -/
def entryName (env : Env) (item : Dict) : String := (item.getD "name" (.str "")).pyStr env.repr

def listedNames (env : Env) (a : PreparationArtifact) : List String :=
  (shortlistEntries a).map (entryName env)

/-- `name and name.lower() in haystack`. -/
def mentions (lower : String → String) (m : InboundMail) (name : String) : Bool :=
  name ≠ "" && containsText (lower (m.subject ++ "\n" ++ m.bodyText)) (lower name)

def senderName (m : InboundMail) : String :=
  let mailbox := strip (String.ofList (m.sender.toList.takeWhile (· ≠ '@')))
  (if mailbox = "" then "Nhà cung cấp (email)" else mailbox) ++ " (qua email)"

/-- The artifacts that `get_case` shows, the oldest first; nothing if it raises. -/
def caseView (db : CaseDb) (read : Bool) : Option (List PreparationArtifact) :=
  if read then some db.artifacts.reverse else none

/-- The shortlisted name that `_supplier_name` returns, if it finds one. -/
def namedSupplier (env : Env) (lower : String → String)
    (view : Option (List PreparationArtifact)) (m : InboundMail) : Option String :=
  (viewNames env (view.getD [])).find? (mentions lower m)

variable {env : Env} {lower : String → String} {db : CaseDb} {read : Bool} {m : InboundMail}
  {name : String}

theorem supplierName_eq {view : Option (List PreparationArtifact)} :
    supplierName env lower view m = (namedSupplier env lower view m).getD (senderName m) := by
  have hfind : (viewNames env (view.getD [])).find? (fun name => name ≠ "" &&
      containsText (lower (m.subject ++ "\n" ++ m.bodyText)) (lower name)) =
      namedSupplier env lower view m := rfl
  unfold supplierName
  simp only [hfind]
  cases namedSupplier env lower view m with
  | none => rfl
  | some name => rfl

/-! ## The property -/

def currentNames (env : Env) (db : CaseDb) : List String :=
  (storedItems db .supplierShortlist "shortlist").map (entryName env)

def occursIn (lower : String → String) (m : InboundMail) (name : String) : Prop :=
  containsText (lower m.subject) (lower name) = true ∨
    containsText (lower m.bodyText) (lower name) = true

def LongerName (lower : String → String) (name longer : String) : Prop :=
  name.length < longer.length ∧ containsText (lower longer) (lower name) = true

def Reordered (a b : PreparationArtifact) : Prop :=
  ∃ entries : List Dict, entries.Perm (shortlistEntries a) ∧
    b = { a with content := a.content.set "shortlist" (.arr (entries.map .obj)) }

def SameLists (artifacts artifacts' : List PreparationArtifact) : Prop :=
  List.Forall₂ (fun a b => b = a ∨ a.artifactType = .supplierShortlist ∧ Reordered a b)
    artifacts artifacts'

/-- **The property**: a mail is attributed to the supplier it names. -/
structure MailAttributed (env : Env) (lower : String → String) (db : CaseDb) (read : Bool)
    (m : InboundMail) : Prop where
  named : ∀ name, namedSupplier env lower (caseView db read) m = some name →
    name ∈ currentNames env db ∧ occursIn lower m name ∧
      ∀ longer ∈ currentNames env db, LongerName lower name longer → ¬ occursIn lower m longer
  unnamed : (∀ name ∈ currentNames env db, ¬ occursIn lower m name) →
    supplierName env lower (caseView db read) m = senderName m
  unordered : ∀ artifacts, SameLists db.artifacts artifacts →
    supplierName env lower (caseView { db with artifacts := artifacts } read) m =
      supplierName env lower (caseView db read) m

/-! ## When the mail is attributed so -/

def editions (env : Env) (artifacts : List PreparationArtifact) : List (List String) :=
  (artifacts.reverse.filter (·.artifactType == .supplierShortlist)).map (listedNames env)

structure PlainlyNamed (env : Env) (lower : String → String) (db : CaseDb) (m : InboundMail)
    (edition : List String) : Prop where
  one : ∀ name ∈ edition, ∀ other ∈ edition,
    mentions lower m name = true → mentions lower m other = true → name = other
  listed : ∀ name ∈ edition, mentions lower m name = true → name ∈ currentNames env db
  /-- Not across the break between the subject and the body. -/
  outright : ∀ name ∈ edition, mentions lower m name = true → occursIn lower m name
  longest : ∀ name ∈ edition, mentions lower m name = true →
    ∀ longer ∈ currentNames env db, LongerName lower name longer → ¬ occursIn lower m longer

/-! ## The search over the editions -/

theorem viewNames_editions {artifacts : List PreparationArtifact} :
    viewNames env artifacts.reverse = (editions env artifacts).flatten := by
  unfold viewNames editions
  rw [List.flatMap_def]
  rfl

theorem namedSupplier_read :
    namedSupplier env lower (caseView db true) m =
      firstMatch (mentions lower m) (editions env db.artifacts) := by
  unfold namedSupplier firstMatch
  rw [← viewNames_editions]
  rfl

theorem namedSupplier_unread : namedSupplier env lower (caseView db false) m = none := rfl

theorem shortlistEntries_set {a : PreparationArtifact} {entries : List Dict} :
    shortlistEntries
      { a with content := a.content.set "shortlist" (.arr (entries.map .obj)) } = entries := by
  unfold shortlistEntries Dict.getD
  rw [Dict.get?_set_self, Option.getD_some, dictItems_arr_obj]

theorem Reordered.names {a b : PreparationArtifact} (h : Reordered a b) :
    (listedNames env a).Perm (listedNames env b) := by
  obtain ⟨entries, hperm, rfl⟩ := h
  unfold listedNames
  rw [shortlistEntries_set]
  exact (hperm.map _).symm

theorem sameLists_editions {artifacts : List PreparationArtifact}
    (h : SameLists db.artifacts artifacts) :
    List.Forall₂ List.Perm (editions env db.artifacts) (editions env artifacts) := by
  have hrev : SameLists db.artifacts.reverse artifacts.reverse := List.rel_reverse h
  unfold editions
  generalize db.artifacts.reverse = as at hrev ⊢
  generalize artifacts.reverse = bs at hrev ⊢
  induction hrev with
  | nil => exact List.Forall₂.nil
  | @cons a b as bs hab hrest ih =>
    have htype : b.artifactType = a.artifactType := by
      obtain rfl | ⟨_, _, _, rfl⟩ := hab
      · rfl
      · rfl
    have hnames : (listedNames env a).Perm (listedNames env b) := by
      obtain rfl | ⟨_, hre⟩ := hab
      · exact List.Perm.refl _
      · exact hre.names
    rw [List.filter_cons, List.filter_cons, htype]
    by_cases ha : (a.artifactType == .supplierShortlist) = true
    · rw [if_pos ha, if_pos ha, List.map_cons, List.map_cons]
      exact List.Forall₂.cons hnames ih
    · rw [if_neg ha, if_neg ha]
      exact ih

/-! ## Putting a name first -/

def favouring (env : Env) (name : String) (a : PreparationArtifact) : PreparationArtifact :=
  if a.artifactType = .supplierShortlist then
    { a with content := a.content.set "shortlist" (.arr
        (((shortlistEntries a).filter (fun item => decide (entryName env item = name)) ++
            (shortlistEntries a).filter (fun item => !decide (entryName env item = name))).map
          .obj)) }
  else a

theorem favouring_type {a : PreparationArtifact} :
    (favouring env name a).artifactType = a.artifactType := by
  unfold favouring
  split
  · rfl
  · rfl

theorem favouring_names {a : PreparationArtifact} (h : a.artifactType = .supplierShortlist) :
    listedNames env (favouring env name a) = favour name (listedNames env a) := by
  unfold favouring listedNames favour
  rw [if_pos h, shortlistEntries_set, List.map_append, List.filter_map, List.filter_map]
  rfl

theorem favouring_same {artifacts : List PreparationArtifact} :
    SameLists artifacts (artifacts.map (favouring env name)) := by
  unfold SameLists
  rw [List.forall₂_map_right_iff, List.forall₂_same]
  intro a _
  unfold favouring
  by_cases h : a.artifactType = .supplierShortlist
  · rw [if_pos h]
    exact Or.inr ⟨h, _, List.filter_append_perm _ _, rfl⟩
  · rw [if_neg h]
    exact Or.inl rfl

theorem favouring_editions {artifacts : List PreparationArtifact} :
    editions env (artifacts.map (favouring env name)) =
      (editions env artifacts).map (favour name) := by
  unfold editions
  rw [← List.map_reverse, List.filter_map, List.map_map, List.map_map]
  have htype : ((fun a : PreparationArtifact => a.artifactType == .supplierShortlist) ∘
      favouring env name) = fun a => a.artifactType == .supplierShortlist := by
    funext a
    show ((favouring env name a).artifactType == _) = _
    rw [favouring_type]
  rw [htype]
  apply List.map_congr_left
  intro a ha
  exact favouring_names (eq_of_beq (List.mem_filter.mp ha).2)

/-! ## The property, exactly -/

theorem PlainlyNamed.right {edition : List String} (h : PlainlyNamed env lower db m edition)
    (hmem : name ∈ edition) (hin : mentions lower m name = true) :
    name ∈ currentNames env db ∧ occursIn lower m name ∧
      ∀ longer ∈ currentNames env db, LongerName lower name longer → ¬ occursIn lower m longer :=
  ⟨h.listed name hmem hin, h.outright name hmem hin, h.longest name hmem hin⟩

theorem attributed_unread : MailAttributed env lower db false m where
  named name h := nomatch h
  unnamed _ := by rw [supplierName_eq, namedSupplier_unread, Option.getD_none]
  unordered artifacts _ := by
    rw [supplierName_eq, supplierName_eq, namedSupplier_unread, namedSupplier_unread]

theorem MailAttributed.any_first (h : MailAttributed env lower db true m) {edition : List String}
    (hedition : deciding (mentions lower m) (editions env db.artifacts) = some edition)
    (hmem : name ∈ edition) (hin : mentions lower m name = true) :
    namedSupplier env lower (caseView db true) m = some name := by
  obtain ⟨first, hfirst⟩ := firstMatch_of_deciding hedition
  -- the lists with the name brought forward are searched with the same result
  have hsame := h.unordered (db.artifacts.map (favouring env name)) favouring_same
  rw [supplierName_eq, supplierName_eq, namedSupplier_read, namedSupplier_read,
    favouring_editions, firstMatch_favoured hedition hmem hin, hfirst, Option.getD_some,
    Option.getD_some] at hsame
  rw [namedSupplier_read, hfirst, hsame]

/-- **Exactly when a mail is attributed to the supplier it names.** -/
theorem attributed_iff : MailAttributed env lower db read m ↔
    (read = true → ∀ edition,
      deciding (mentions lower m) (editions env db.artifacts) = some edition →
        PlainlyNamed env lower db m edition) := by
  constructor
  · intro h hread edition hedition
    subst hread
    have hfirst : ∀ name ∈ edition, mentions lower m name = true →
        namedSupplier env lower (caseView db true) m = some name :=
      fun name hmem hin => h.any_first hedition hmem hin
    exact
      { one := fun name hname other hother hin hin' =>
          Option.some.inj ((hfirst name hname hin).symm.trans (hfirst other hother hin'))
        listed := fun name hmem hin => (h.named name (hfirst name hmem hin)).1
        outright := fun name hmem hin => (h.named name (hfirst name hmem hin)).2.1
        longest := fun name hmem hin => (h.named name (hfirst name hmem hin)).2.2 }
  · intro h
    by_cases hread : read = true
    · subst hread
      have hplain := h rfl
      have hright : ∀ name, namedSupplier env lower (caseView db true) m = some name →
          name ∈ currentNames env db ∧ occursIn lower m name ∧ ∀ longer ∈ currentNames env db,
            LongerName lower name longer → ¬ occursIn lower m longer := by
        intro name hname
        rw [namedSupplier_read] at hname
        obtain ⟨edition, hedition, hmem, hin⟩ := firstMatch_deciding hname
        exact (hplain edition hedition).right hmem hin
      refine ⟨hright, ?_, ?_⟩
      · -- a name that was found would be on the latest list, and occur
        intro hnone
        rw [supplierName_eq]
        cases hname : namedSupplier env lower (caseView db true) m with
        | none => rfl
        | some name => exact absurd (hright name hname).2.1 (hnone name (hright name hname).1)
      · intro artifacts hsame
        rw [supplierName_eq, supplierName_eq, namedSupplier_read, namedSupplier_read,
          firstMatch_reordered (sameLists_editions hsame)
            (fun edition hedition => (hplain edition hedition).one)]
    · rw [Bool.not_eq_true] at hread
      subst hread
      exact attributed_unread

/-! ## A name within a name -/

namespace Sample

def bidEnv : Env :=
  { sha256 := id, repr := fun _ => "", isoformat := fun _ => "", plans := []
    rules := { methods := [] }, reworkRules := none }

def twoAlphas : CaseDb :=
  ({ case := { id := { text := "case" }, createdBy := { text := "an" } } } : CaseDb).addNodeArtifact
    bidEnv { text := "list" } .supplierShortlist
    [("shortlist", .arr ((shortlistOf bidEnv
      [[("name", .str "Alpha")], [("name", .str "Alpha Nam")]]).map .obj))]

def fromAlphaNam : InboundMail :=
  { number := 0, messageId := "m", subject := "Re: mời thầu", sender := "ncc@example"
    bodyText := "Alpha Nam", attachmentName := some "bid.pdf", attachmentBytes := some "%PDF" }

end Sample

/-- The bid of the second supplier goes to the first. -/
theorem attributed_breaks :
    supplierName Sample.bidEnv String.toLower (caseView Sample.twoAlphas true)
        Sample.fromAlphaNam = "Alpha" ∧
      ¬ MailAttributed Sample.bidEnv String.toLower Sample.twoAlphas true Sample.fromAlphaNam := by
  have hfound : namedSupplier Sample.bidEnv String.toLower (caseView Sample.twoAlphas true)
      Sample.fromAlphaNam = some "Alpha" := by decide +kernel
  have hlisted : "Alpha Nam" ∈ currentNames Sample.bidEnv Sample.twoAlphas := by decide +kernel
  have hlonger : LongerName String.toLower "Alpha" "Alpha Nam" :=
    ⟨by decide +kernel, by decide +kernel⟩
  have hoccurs : occursIn String.toLower Sample.fromAlphaNam "Alpha Nam" :=
    Or.inr (by decide +kernel)
  constructor
  · rw [supplierName_eq, hfound, Option.getD_some]
  · intro h
    exact (h.named "Alpha" hfound).2.2 "Alpha Nam" hlisted hlonger hoccurs

end DigitalWorker
