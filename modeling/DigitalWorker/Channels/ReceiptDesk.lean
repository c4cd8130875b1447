import DigitalWorker.Framework.Squeeze
import DigitalWorker.Preparation.Readiness

/-! # The receipt desk

    While a case is receiving bids, a person drops a file and says who it is from. The
    desk looks for the invited suppliers in the text, and takes the only one that it
    finds: by the name, or by the first word of it, anywhere in the text. Suppliers whose
    bid is recorded are not looked for.
-/

namespace DigitalWorker.Channels

open Framework

/-! ## The match -/

structure ReceiptCase where
  id : Uuid
  title : String
  state : CaseState
  artifacts : List PreparationArtifact

structure ReceiptState where
  title : String
  suppliers : List String
  recorded : List String

/-- `str.casefold`, and `str` of a container. -/
structure DeskText where
  casefold : String → String
  repr : Json → String

section

variable (t : DeskText)

def namesUnder (content : Dict) (listKey nameKey : String) : List String :=
  (dictItems (content.getD listKey (.arr []))).map
    (fun item => strip ((item.getD nameKey (.str "")).pyStr t.repr))

def receiptState (case : ReceiptCase) : ReceiptState where
  title := case.title
  suppliers := match currentOf case.artifacts "supplier_input" with
    | none => []
    | some a => (namesUnder t a.content "suppliers" "name").filter (· ≠ "")
  recorded := match currentOf case.artifacts "submission_register" with
    | none => []
    | some a => namesUnder t a.content "items" "supplier_name"

def openDesks (cases : List ReceiptCase) : List (Uuid × ReceiptState) :=
  (cases.filter (fun c => c.state = .published ∨ c.state = .receivingBids)).map
    (fun c => (c.id, receiptState t c))

def waitingSuppliers (cases : List ReceiptCase) : List (Uuid × String) :=
  (openDesks t cases).flatMap (fun d =>
    (d.2.suppliers.filter (· ∉ d.2.recorded)).map (fun name => (d.1, name)))

def firstWord (n : List Char) : List Char := (wordsOf isSpace n).head?.getD n

def foldedName (name : String) : List Char := (t.casefold name).toList

def hits (text name : String) : Bool :=
  foldedName t name <:+: foldedName t text ∨
    4 ≤ (firstWord (foldedName t name)).length ∧
      firstWord (foldedName t name) <:+: foldedName t text

def receiptKeywords : List String := ["nộp", "gửi", "nop", "gui", "submit"]

def asksReceipt (text : String) (requireKeyword : Bool) : Bool :=
  !blank text &&
    (!requireKeyword || receiptKeywords.any (fun k => k.toList <:+: foldedName t text))

def matchReceiptSupplier (cases : List ReceiptCase) (text : String) (requireKeyword : Bool) :
    Option (Uuid × String) :=
  if asksReceipt t text requireKeyword then
    match (waitingSuppliers t cases).filter (fun w => hits t text w.2) with
    | [found] => some found
    | _ => none
  else none

/-! ## Whom a text names -/

def Stands (isWord : Char → Bool) (word text : List Char) : Prop :=
  ∃ before after, text = before ++ word ++ after ∧
    before.getLast?.any isWord = false ∧ after.head?.any isWord = false

theorem Stands.infix {isWord : Char → Bool} {word text : List Char}
    (h : Stands isWord word text) : word <:+: text := by
  obtain ⟨before, after, rfl, -, -⟩ := h
  exact ⟨before, after, rfl⟩

def invitedSuppliers (cases : List ReceiptCase) : List String :=
  (openDesks t cases).flatMap (·.2.suppliers)

def recordedSuppliers (cases : List ReceiptCase) : List String :=
  (openDesks t cases).flatMap (fun d => d.2.suppliers.filter (· ∈ d.2.recorded))

variable (isWord : Char → Bool)

structure Names (cases : List ReceiptCase) (text : String) (found : Uuid × String) : Prop where
  invited : found ∈ waitingSuppliers t cases
  named : Stands isWord (foldedName t found.2) (foldedName t text) ∨
    Stands isWord (firstWord (foldedName t found.2)) (foldedName t text) ∧
      ∀ other ∈ invitedSuppliers t cases, other ≠ found.2 →
        firstWord (foldedName t other) ≠ firstWord (foldedName t found.2)
  alone : ∀ other ∈ invitedSuppliers t cases, other ≠ found.2 →
    ¬ Stands isWord (foldedName t other) (foldedName t text)

def Reordered (cases cases' : List ReceiptCase) : Prop :=
  ∃ desks, (openDesks t cases).Perm desks ∧
    List.Forall₂ (fun d d' => d.1 = d'.1 ∧ d.2.suppliers.Perm d'.2.suppliers ∧
      ∀ name, name ∈ d.2.recorded ↔ name ∈ d'.2.recorded) desks (openDesks t cases')

def FiledAsNamed (cases : List ReceiptCase) (text : String) (requireKeyword : Bool) : Prop :=
  (∀ found, matchReceiptSupplier t cases text requireKeyword = some found →
    Names t isWord cases text found) ∧
  ∀ cases', Reordered t cases cases' →
    matchReceiptSupplier t cases' text requireKeyword =
      matchReceiptSupplier t cases text requireKeyword

def Unmistakable (cases : List ReceiptCase) (text : String) (requireKeyword : Bool) : Prop :=
  asksReceipt t text requireKeyword = true →
    (waitingSuppliers t cases).countP (fun w => hits t text w.2) = 1 →
    ∀ w ∈ waitingSuppliers t cases, hits t text w.2 = true →
      (Stands isWord (foldedName t w.2) (foldedName t text) ∨
        Stands isWord (firstWord (foldedName t w.2)) (foldedName t text) ∧
          ∀ other, other ≠ w.2 →
            (other ∈ recordedSuppliers t cases ∨
              (firstWord (foldedName t w.2)).length < 4 ∧ other ∈ invitedSuppliers t cases) →
            firstWord (foldedName t other) ≠ firstWord (foldedName t w.2)) ∧
      ∀ other ∈ recordedSuppliers t cases, other ≠ w.2 →
        ¬ Stands isWord (foldedName t other) (foldedName t text)

end

/-! ## One that is hit alone -/

section

variable {t : DeskText} {isWord : Char → Bool} {cases cases' : List ReceiptCase} {text : String}
  {requireKeyword : Bool} {found : Uuid × String}

theorem matchReceiptSupplier_some :
    matchReceiptSupplier t cases text requireKeyword = some found ↔
      asksReceipt t text requireKeyword = true ∧
      (waitingSuppliers t cases).filter (fun w => hits t text w.2) = [found] := by
  unfold matchReceiptSupplier
  by_cases hasks : asksReceipt t text requireKeyword = true
  · rw [if_pos hasks]
    split
    · next w hw => simp [hasks, hw]
    · next hother =>
      constructor
      · intro h
        cases h
      · rintro ⟨-, h⟩
        exact absurd h (hother found)
  · rw [if_neg hasks]
    simp [hasks]

theorem hits_alone {w : Uuid × String} (hw : w ∈ waitingSuppliers t cases)
    (hhit : hits t text w.2 = true) :
    (waitingSuppliers t cases).filter (fun w => hits t text w.2) = [w] ↔
      (waitingSuppliers t cases).countP (fun w => hits t text w.2) = 1 := by
  rw [List.countP_eq_length_filter, List.length_eq_one_iff]
  constructor
  · intro h
    exact ⟨w, h⟩
  · rintro ⟨x, hx⟩
    have hmem : w ∈ (waitingSuppliers t cases).filter (fun w => hits t text w.2) :=
      List.mem_filter.mpr ⟨hw, hhit⟩
    rw [hx, List.mem_singleton] at hmem
    rw [hx, hmem]

theorem mem_invitedSuppliers {name : String} :
    name ∈ invitedSuppliers t cases ↔
      name ∈ recordedSuppliers t cases ∨ ∃ id, (id, name) ∈ waitingSuppliers t cases := by
  simp only [invitedSuppliers, recordedSuppliers, waitingSuppliers, List.mem_flatMap,
    List.mem_filter, List.mem_map, Prod.mk.injEq, decide_eq_true_eq]
  constructor
  · rintro ⟨d, hd, hname⟩
    by_cases hrecorded : name ∈ d.2.recorded
    · exact .inl ⟨d, hd, hname, hrecorded⟩
    · exact .inr ⟨d.1, d, hd, name, ⟨hname, hrecorded⟩, rfl, rfl⟩
  · rintro (⟨d, hd, hname, -⟩ | ⟨id, d, hd, name', ⟨hname, -⟩, -, rfl⟩)
    · exact ⟨d, hd, hname⟩
    · exact ⟨d, hd, hname⟩

theorem recorded_of_hit
    (halone : (waitingSuppliers t cases).filter (fun w => hits t text w.2) = [found])
    {other : String} (hother : other ∈ invitedSuppliers t cases) (hne : other ≠ found.2)
    (hhit : hits t text other = true) : other ∈ recordedSuppliers t cases := by
  rcases mem_invitedSuppliers.mp hother with hrecorded | ⟨id, hwaiting⟩
  · exact hrecorded
  · have hmem : (id, other) ∈ (waitingSuppliers t cases).filter (fun w => hits t text w.2) :=
      List.mem_filter.mpr ⟨hwaiting, hhit⟩
    rw [halone, List.mem_singleton] at hmem
    exact absurd (congrArg Prod.snd hmem) hne

theorem hits_of_piece {name : String} (h : foldedName t name <:+: foldedName t text) :
    hits t text name = true := by
  simp [hits, h]

theorem hits_of_first {name : String} (hlength : 4 ≤ (firstWord (foldedName t name)).length)
    (h : firstWord (foldedName t name) <:+: foldedName t text) : hits t text name = true := by
  simp [hits, hlength, h]

/-! ## Orders -/

theorem waitingSuppliers_reordered (h : Reordered t cases cases') :
    (waitingSuppliers t cases).Perm (waitingSuppliers t cases') := by
  obtain ⟨desks, hperm, hsame⟩ := h
  refine (hperm.flatMap_right _).trans ?_
  unfold waitingSuppliers
  clear hperm
  generalize openDesks t cases' = desks' at hsame ⊢
  induction hsame with
  | nil => exact .refl _
  | cons hd _ ih =>
    obtain ⟨hid, hsuppliers, hrecorded⟩ := hd
    rw [List.flatMap_cons, List.flatMap_cons, hid]
    simp only [hrecorded]
    exact ((hsuppliers.filter _).map _).append ih

theorem matchReceiptSupplier_reordered (h : Reordered t cases cases') :
    matchReceiptSupplier t cases' text requireKeyword =
      matchReceiptSupplier t cases text requireKeyword := by
  have hfiltered := (waitingSuppliers_reordered h).filter (fun w => hits t text w.2)
  apply Option.ext
  intro found
  rw [matchReceiptSupplier_some, matchReceiptSupplier_some]
  refine and_congr_right (fun _ => ?_)
  constructor
  · intro hone
    rw [hone] at hfiltered
    exact List.perm_singleton.mp hfiltered
  · intro hone
    rw [hone] at hfiltered
    exact List.perm_singleton.mp hfiltered.symm

/-! ## When a bid is filed as named -/

/-- **Filed as named**: the supplier that is taken is the one the text names exactly when
    the text is unmistakable; and the order of cases and suppliers never matters. -/
theorem filed_as_named_iff (t : DeskText) (isWord : Char → Bool) (cases : List ReceiptCase)
    (text : String) (requireKeyword : Bool) :
    FiledAsNamed t isWord cases text requireKeyword ↔
      Unmistakable t isWord cases text requireKeyword := by
  constructor
  · rintro ⟨hnames, -⟩ hasks hcount w hw hhit
    have halone := (hits_alone hw hhit).mpr hcount
    have hnamed := hnames w (matchReceiptSupplier_some.mpr ⟨hasks, halone⟩)
    refine ⟨hnamed.named.imp_right (And.imp_right ?_), ?_⟩
    · intro hfirst other hne hother
      refine hfirst other ?_ hne
      rcases hother with hrecorded | ⟨-, hinvited⟩
      · exact mem_invitedSuppliers.mpr (.inl hrecorded)
      · exact hinvited
    · intro other hrecorded
      exact hnamed.alone other (mem_invitedSuppliers.mpr (.inl hrecorded))
  · intro hclear
    refine ⟨?_, fun cases' h => matchReceiptSupplier_reordered h⟩
    intro found hfound
    obtain ⟨hasks, halone⟩ := matchReceiptSupplier_some.mp hfound
    have hmem : found ∈ (waitingSuppliers t cases).filter (fun w => hits t text w.2) := by
      rw [halone]
      exact List.mem_singleton_self found
    obtain ⟨hwaiting, hhit⟩ := List.mem_filter.mp hmem
    obtain ⟨hnamed, hrecorded⟩ :=
      hclear hasks ((hits_alone hwaiting hhit).mp halone) found hwaiting hhit
    refine ⟨hwaiting, hnamed.imp_right ?_, ?_⟩
    · rintro ⟨hstands, hfirst⟩
      refine ⟨hstands, ?_⟩
      intro other hinvited hne hsame
      refine hfirst other hne ?_ hsame
      by_cases hlength : (firstWord (foldedName t found.2)).length < 4
      · exact .inr ⟨hlength, hinvited⟩
      · -- a first word that is looked for hits whoever has it
        refine .inl (recorded_of_hit halone hinvited hne (hits_of_first ?_ ?_))
        · rw [hsame]
          omega
        · rw [hsame]
          exact hstands.infix
    · intro other hinvited hne hstands
      exact hrecorded other (recorded_of_hit halone hinvited hne (hits_of_piece hstands.infix))
        hne hstands

end

/-! ## A supplier that is recorded -/

namespace TwoOfOneName

def isWord (c : Char) : Bool := c.isAlphanum

def desk : DeskText := { casefold := String.toLower, repr := fun _ => "" }

def artifact (id : Uuid) (kind : ArtifactType) (content : Dict) : PreparationArtifact :=
  { id := id, artifactType := kind, artifactVersion := 1, status := .draft, content := content
    createdBy := { text := "an" }, contentHash := "" }

def receiving : ReceiptCase where
  id := { text := "case" }
  title := "Laptop"
  state := .receivingBids
  artifacts :=
    [artifact { text := "a-1" } .supplierInput
      [("suppliers", .arr [.obj [("name", .str "Synnex FPT")], .obj [("name", .str "Synnex VN")]])],
     artifact { text := "a-2" } .submissionRegister
      [("items", .arr [.obj [("supplier_name", .str "Synnex FPT")]])]]

def text : String := "Synnex FPT nộp lại file"

/-- **Filed under another**: the text names a supplier whose bid is recorded, and the one
    that shares a word with it is taken. -/
theorem filed_under_other :
    matchReceiptSupplier desk [receiving] text true = some (receiving.id, "Synnex VN") ∧
      ¬ FiledAsNamed desk isWord [receiving] text true := by
  have hfound : matchReceiptSupplier desk [receiving] text true =
      some (receiving.id, "Synnex VN") := by decide +kernel
  refine ⟨hfound, ?_⟩
  intro hfiled
  have hinvited : "Synnex FPT" ∈ invitedSuppliers desk [receiving] := by decide +kernel
  refine (hfiled.1 _ hfound).alone "Synnex FPT" hinvited (by decide) ?_
  refine ⟨[], " nộp lại file".toList, by decide +kernel, rfl, by decide⟩

end TwoOfOneName

end DigitalWorker.Channels
