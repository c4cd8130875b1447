import DigitalWorker.Framework.Dicts

/-! # Schemas in the strict form

    The provider takes a JSON schema in which every object is closed and lists
    all its properties as required. `_to_strict_schema` brings a generated schema
    into that form: it strips the constraint keywords the provider rejects and
    closes the objects. It knows a keyword by its name, at every dictionary of
    the schema, so a property of that name is taken for one.
-/

namespace DigitalWorker.Runtime

open Framework

inductive SchemaJson (ν : Type) where
  | null
  | bool (b : Bool)
  | num (n : ν)
  | str (s : String)
  | arr (items : List (SchemaJson ν))
  | obj (fields : List (String × SchemaJson ν))

abbrev SchemaDict (ν : Type) := List (String × SchemaJson ν)

def strictUnsupported : List String :=
  ["pattern", "format", "default", "minLength", "maxLength", "minimum", "maximum",
    "exclusiveMinimum", "exclusiveMaximum", "multipleOf", "minItems", "maxItems", "uniqueItems"]

variable {ν : Type}

def keyTexts (d : SchemaDict ν) : List (SchemaJson ν) := d.map (fun e => .str e.1)

/-- What `_to_strict_schema` makes of the converted entries of a dictionary. -/
def closeObject (result : SchemaDict ν) : SchemaDict ν :=
  match result.lookup "$ref" with
  | some ref => [("$ref", ref)]
  | none =>
    match result.lookup "properties" with
    | some (.obj properties) =>
      setKey (setKey result "additionalProperties" (.bool false)) "required"
        (.arr (keyTexts properties))
    | _ => result

mutual

def toStrictSchema : SchemaJson ν → SchemaJson ν
  | .arr items => .arr (strictItems items)
  | .obj fields => .obj (closeObject (strictFields fields))
  | .null => .null
  | .bool b => .bool b
  | .num n => .num n
  | .str s => .str s

def strictItems : List (SchemaJson ν) → List (SchemaJson ν)
  | [] => []
  | v :: vs => toStrictSchema v :: strictItems vs

/-- The entries of a dictionary that are no stripped keywords, converted. -/
def strictFields : SchemaDict ν → SchemaDict ν
  | [] => []
  | (key, value) :: rest =>
    if strictUnsupported.contains key then strictFields rest
    else (key, toStrictSchema value) :: strictFields rest

end

/-! ## The entries of a converted dictionary -/

section

variable {d : SchemaDict ν} {key : String} {v : SchemaJson ν}

theorem mem_keys_strictFields :
    key ∈ keys (strictFields d) ↔ key ∈ keys d ∧ key ∉ strictUnsupported := by
  induction d with
  | nil => simp [strictFields, keys]
  | cons e d ih =>
    obtain ⟨k, w⟩ := e
    rw [strictFields, keys_cons, List.mem_cons]
    by_cases hk : strictUnsupported.contains k = true
    · rw [if_pos hk, ih]
      have hmem : k ∈ strictUnsupported := by simpa using hk
      constructor
      · exact fun h => ⟨.inr h.1, h.2⟩
      · rintro ⟨rfl | h, hkey⟩
        · exact absurd hmem hkey
        · exact ⟨h, hkey⟩
    · rw [if_neg hk, keys_cons, List.mem_cons, ih]
      have hmem : k ∉ strictUnsupported := by simpa using hk
      constructor
      · rintro (rfl | h)
        · exact ⟨.inl rfl, hmem⟩
        · exact ⟨.inr h.1, h.2⟩
      · rintro ⟨rfl | h, hkey⟩
        · exact .inl rfl
        · exact .inr ⟨h, hkey⟩

theorem lookup_strictFields (h : key ∉ strictUnsupported) :
    (strictFields d).lookup key = (d.lookup key).map toStrictSchema := by
  induction d with
  | nil => rfl
  | cons e d ih =>
    obtain ⟨k, w⟩ := e
    rw [strictFields]
    by_cases hk : strictUnsupported.contains k = true
    · have hne : key ≠ k := by
        rintro rfl
        exact h (by simpa using hk)
      rw [if_pos hk, ih, List.lookup_cons, beq_false_of_ne hne]
    · rw [if_neg hk, List.lookup_cons, List.lookup_cons, ih]
      by_cases hkey : key = k
      · rw [hkey, beq_self_eq_true]
        rfl
      · rw [beq_false_of_ne hkey]

def properties? (d : SchemaDict ν) : Option (SchemaDict ν) :=
  match d.lookup "properties" with
  | some (.obj properties) => some properties
  | _ => none

theorem closeObject_ref (h : d.lookup "$ref" = some v) : closeObject d = [("$ref", v)] := by
  rw [closeObject, h]

theorem closeObject_open (href : d.lookup "$ref" = none) (hprops : properties? d = none) :
    closeObject d = d := by
  unfold properties? at hprops
  rw [closeObject, href]
  dsimp only
  split
  · next p hp => simp [hp] at hprops
  · rfl

theorem closeObject_props {p : SchemaDict ν} (href : d.lookup "$ref" = none)
    (hprops : properties? d = some p) :
    closeObject d = setKey (setKey d "additionalProperties" (.bool false)) "required"
      (.arr (keyTexts p)) := by
  unfold properties? at hprops
  split at hprops
  · next q hq =>
    obtain rfl := Option.some.inj hprops
    rw [closeObject, href, hq]
  · cases hprops

theorem properties?_strictFields :
    properties? (strictFields d) = (properties? d).map (fun p => closeObject (strictFields p)) := by
  unfold properties?
  rw [lookup_strictFields (by decide)]
  cases d.lookup "properties" with
  | none => rfl
  | some v => cases v <;> simp [toStrictSchema]

end

/-! ## Converting twice -/

/-- Entries that are no stripped keywords and keep their values are kept. -/
theorem strictFields_eq_self {d : SchemaDict ν}
    (h : ∀ e ∈ d, e.1 ∉ strictUnsupported ∧ toStrictSchema e.2 = e.2) : strictFields d = d := by
  induction d with
  | nil => rfl
  | cons e d ih =>
    obtain ⟨k, v⟩ := e
    obtain ⟨hk, hv⟩ := h (k, v) List.mem_cons_self
    rw [strictFields, if_neg (by simpa using hk), hv,
      ih (fun e he => h e (List.mem_cons_of_mem _ he))]

theorem strictItems_keyTexts (d : SchemaDict ν) : strictItems (keyTexts d) = keyTexts d := by
  induction d with
  | nil => rfl
  | cons e d ih =>
    show toStrictSchema (.str e.1) :: strictItems (keyTexts d) = _
    rw [ih]
    rfl

theorem mem_closeObject {d : SchemaDict ν} {e : String × SchemaJson ν} (h : e ∈ closeObject d) :
    e ∈ d ∨ e = ("additionalProperties", .bool false) ∨ ∃ p, e = ("required", .arr (keyTexts p)) := by
  unfold closeObject at h
  split at h
  · next ref href =>
    rw [List.mem_singleton] at h
    rw [h]
    exact .inl (mem_of_lookup href)
  · split at h
    · next p hp =>
      rcases mem_setKey h with rfl | ⟨-, h⟩
      · exact .inr (.inr ⟨p, rfl⟩)
      · rcases mem_setKey h with rfl | ⟨-, h⟩
        · exact .inr (.inl rfl)
        · exact .inl h
    · exact .inl h

theorem closeObject_idem (d : SchemaDict ν) : closeObject (closeObject d) = closeObject d := by
  cases href : d.lookup "$ref" with
  | some ref =>
    rw [closeObject_ref href]
    exact closeObject_ref List.lookup_cons_self
  | none =>
    cases hprops : properties? d with
    | none => rw [closeObject_open href hprops, closeObject_open href hprops]
    | some p =>
      have hclosed := closeObject_props href hprops
      have hread : ∀ key, key ≠ "additionalProperties" → key ≠ "required" →
          (closeObject d).lookup key = d.lookup key := by
        intro key hkey hkey'
        rw [hclosed, lookup_setKey_ne hkey', lookup_setKey_ne hkey]
      have href' : (closeObject d).lookup "$ref" = none := by
        rw [hread _ (by decide) (by decide), href]
      have hprops' : properties? (closeObject d) = some p := by
        rw [← hprops, properties?, hread _ (by decide) (by decide), properties?]
      -- the two entries are there already
      have hadditional : setKey (closeObject d) "additionalProperties" (.bool false) =
          closeObject d := by
        rw [hclosed]
        refine setKey_eq_self (by simp) (fun e he hkey => ?_)
        rcases mem_setKey he with rfl | ⟨-, he⟩
        · exact absurd hkey (by simp)
        · rcases mem_setKey he with rfl | ⟨hne, -⟩
          · rfl
          · exact absurd hkey hne
      have hrequired : setKey (closeObject d) "required" (.arr (keyTexts p)) = closeObject d := by
        rw [hclosed]
        refine setKey_eq_self (by simp) (fun e he hkey => ?_)
        rcases mem_setKey he with rfl | ⟨hne, -⟩
        · rfl
        · exact absurd hkey hne
      rw [closeObject_props href' hprops', hadditional, hrequired]

mutual

/-- **Converting twice** is converting once. -/
theorem toStrictSchema_idem :
    ∀ j : SchemaJson ν, toStrictSchema (toStrictSchema j) = toStrictSchema j
  | .arr items => by
    rw [toStrictSchema, toStrictSchema, strictItems_idem items]
  | .obj fields => by
    -- nothing of what was kept is stripped or changed the second time
    have hfixed : strictFields (closeObject (strictFields fields)) =
        closeObject (strictFields fields) := by
      refine strictFields_eq_self (fun e he => ?_)
      rcases mem_closeObject he with he | rfl | ⟨p, rfl⟩
      · exact strictFields_fixed fields e he
      · exact ⟨show "additionalProperties" ∉ strictUnsupported by decide, rfl⟩
      · refine ⟨show "required" ∉ strictUnsupported by decide, ?_⟩
        rw [toStrictSchema, strictItems_keyTexts]
    rw [toStrictSchema, toStrictSchema, hfixed, closeObject_idem]
  | .null => rfl
  | .bool _ => rfl
  | .num _ => rfl
  | .str _ => rfl

theorem strictItems_idem :
    ∀ items : List (SchemaJson ν), strictItems (strictItems items) = strictItems items
  | [] => rfl
  | v :: vs => by
    rw [strictItems, strictItems, toStrictSchema_idem v, strictItems_idem vs]

theorem strictFields_fixed : ∀ fields : SchemaDict ν, ∀ e ∈ strictFields fields,
    e.1 ∉ strictUnsupported ∧ toStrictSchema e.2 = e.2
  | [] => fun e he => absurd he List.not_mem_nil
  | (key, value) :: rest => by
    intro e he
    rw [strictFields] at he
    by_cases hkey : strictUnsupported.contains key = true
    · rw [if_pos hkey] at he
      exact strictFields_fixed rest e he
    · rw [if_neg hkey] at he
      rcases List.mem_cons.mp he with rfl | he
      · exact ⟨by simpa using hkey, toStrictSchema_idem value⟩
      · exact strictFields_fixed rest e he

end

/-! ## Positions in a schema -/

inductive DictKeyword where
  | properties
  | defs
  | patternProperties
  deriving DecidableEq

def DictKeyword.value : DictKeyword → String
  | .properties => "properties"
  | .defs => "$defs"
  | .patternProperties => "patternProperties"

inductive ListKeyword where
  | prefixItems
  | anyOf
  | oneOf
  | allOf
  deriving DecidableEq

def ListKeyword.value : ListKeyword → String
  | .prefixItems => "prefixItems"
  | .anyOf => "anyOf"
  | .oneOf => "oneOf"
  | .allOf => "allOf"

inductive OneKeyword where
  | items
  | additionalProperties
  | propertyNames
  deriving DecidableEq

def OneKeyword.value : OneKeyword → String
  | .items => "items"
  | .additionalProperties => "additionalProperties"
  | .propertyNames => "propertyNames"

inductive SchemaStep where
  | entry (keyword : DictKeyword) (name : String)
  | place (keyword : ListKeyword) (i : Nat)
  | inside (keyword : OneKeyword)

def schemasOf (d : SchemaDict ν) (keyword : String) : SchemaDict ν :=
  match d.lookup keyword with
  | some (.obj schemas) => schemas
  | _ => []

def listOf (d : SchemaDict ν) (keyword : String) : List (SchemaJson ν) :=
  match d.lookup keyword with
  | some (.arr values) => values
  | _ => []

def stepInto (d : SchemaDict ν) : SchemaStep → Option (SchemaJson ν)
  | .entry keyword name => (schemasOf d keyword.value).lookup name
  | .place keyword i => (listOf d keyword.value)[i]?
  | .inside keyword => d.lookup keyword.value

def follow : SchemaJson ν → List SchemaStep → Option (SchemaJson ν)
  | j, [] => some j
  | .obj d, step :: rest => (stepInto d step).bind (fun next => follow next rest)
  | _, _ :: _ => none

/-- `"type": "object"`. -/
def IsObject (d : SchemaDict ν) : Prop := d.lookup "type" = some (.str "object")

def propertyNames (d : SchemaDict ν) : List String := keys (schemasOf d "properties")

structure Closed (d : SchemaDict ν) : Prop where
  additional : d.lookup "additionalProperties" = some (.bool false)
  required : listOf d "required" = keyTexts (schemasOf d "properties")

structure StrictFaithful (j : SchemaJson ν) : Prop where
  objects : ∀ path d, follow j path = some (.obj d) → IsObject d →
    ∃ d', follow (toStrictSchema j) path = some (.obj d') ∧
      (∀ name, name ∈ propertyNames d' ↔ name ∈ propertyNames d) ∧ Closed d'
  idempotent : toStrictSchema (toStrictSchema j) = toStrictSchema j

/-! ## What the conversion keeps -/

/-- The schema of this name is kept: the name is no stripped keyword, no `$ref`
    stands beside it, and it is not overwritten because one of the names is
    `properties`. -/
structure KeptName (schemas : SchemaDict ν) (name : String) : Prop where
  supported : name ∉ strictUnsupported
  noRef : "$ref" ∈ keys schemas → name = "$ref"
  notClosed : (properties? schemas).isSome → name ≠ "additionalProperties" ∧ name ≠ "required"

def KeptStep (d : SchemaDict ν) : SchemaStep → Prop
  | .entry keyword name => "$ref" ∉ keys d ∧ KeptName (schemasOf d keyword.value) name
  | .place _ _ => "$ref" ∉ keys d
  | .inside keyword => "$ref" ∉ keys d ∧ (keyword = .additionalProperties → properties? d = none)

def Kept : SchemaJson ν → List SchemaStep → Prop
  | .obj d, step :: rest => KeptStep d step ∧ ∀ next, stepInto d step = some next → Kept next rest
  | _, _ => True

structure NamesOk (p : SchemaDict ν) : Prop where
  supported : ∀ name ∈ keys p, name ∉ strictUnsupported
  noRef : "$ref" ∈ keys p → ∀ name ∈ keys p, name = "$ref"
  both : (properties? p).isSome → "additionalProperties" ∈ keys p ∧ "required" ∈ keys p

def ObjectOk (d : SchemaDict ν) : Prop :=
  "$ref" ∉ keys d ∧
    match properties? d with
    | some p => NamesOk p
    | none => d.lookup "additionalProperties" = some (.bool false) ∧ listOf d "required" = []

section

variable {d p : SchemaDict ν} {key name : String} {v : SchemaJson ν}

def converted (d : SchemaDict ν) : SchemaDict ν := closeObject (strictFields d)

theorem ref_strictFields : "$ref" ∈ keys (strictFields d) ↔ "$ref" ∈ keys d := by
  rw [mem_keys_strictFields]
  exact and_iff_left (by decide)

theorem converted_ref (h : "$ref" ∈ keys d) : ∃ v, converted d = [("$ref", v)] := by
  obtain ⟨v, hv⟩ := exists_lookup (ref_strictFields.mpr h)
  exact ⟨v, closeObject_ref hv⟩

theorem lookup_converted_ref (h : "$ref" ∈ keys d) (hkey : key ≠ "$ref") :
    (converted d).lookup key = none := by
  obtain ⟨v, hv⟩ := converted_ref h
  rw [hv, List.lookup_cons, beq_false_of_ne hkey]
  rfl

theorem converted_open (href : "$ref" ∉ keys d) (hprops : properties? d = none) :
    converted d = strictFields d := by
  refine closeObject_open (lookup_eq_none.mpr (fun h => href (ref_strictFields.mp h))) ?_
  rw [properties?_strictFields, hprops]
  rfl

theorem converted_props (href : "$ref" ∉ keys d) (hprops : properties? d = some p) :
    converted d = setKey (setKey (strictFields d) "additionalProperties" (.bool false)) "required"
      (.arr (keyTexts (converted p))) := by
  refine closeObject_props (lookup_eq_none.mpr (fun h => href (ref_strictFields.mp h))) ?_
  rw [properties?_strictFields, hprops]
  rfl

theorem lookup_converted (href : "$ref" ∉ keys d) (hkey : key ∉ strictUnsupported)
    (hclose : (properties? d).isSome → key ≠ "additionalProperties" ∧ key ≠ "required") :
    (converted d).lookup key = (d.lookup key).map toStrictSchema := by
  cases hprops : properties? d with
  | none => rw [converted_open href hprops, lookup_strictFields hkey]
  | some p =>
    rw [hprops] at hclose
    obtain ⟨hadditional, hrequired⟩ := hclose rfl
    rw [converted_props href hprops, lookup_setKey_ne hrequired, lookup_setKey_ne hadditional,
      lookup_strictFields hkey]

theorem lookup_kept (h : KeptName d name) :
    (converted d).lookup name = (d.lookup name).map toStrictSchema := by
  by_cases href : "$ref" ∈ keys d
  · obtain rfl := h.noRef href
    obtain ⟨v, hv⟩ := exists_lookup href
    have hstrict := lookup_strictFields (d := d) h.supported
    rw [hv] at hstrict ⊢
    rw [converted, closeObject_ref hstrict]
    exact List.lookup_cons_self
  · exact lookup_converted href h.supported h.notClosed

theorem lookup_lost (h : ¬ KeptName d name) (d' : SchemaDict ν) :
    (converted d).lookup name ≠ some (.obj d') := by
  intro hfound
  refine h ⟨?_, ?_, ?_⟩
  · intro hname
    rcases mem_closeObject (mem_of_lookup hfound) with hmem | heq | ⟨p, heq⟩
    · exact (strictFields_fixed d _ hmem).1 hname
    · cases heq
    · cases heq
  · intro href
    by_contra hne
    rw [lookup_converted_ref href hne] at hfound
    cases hfound
  · intro hprops
    obtain ⟨p, hp⟩ := Option.isSome_iff_exists.mp hprops
    constructor
    · rintro rfl
      by_cases href : "$ref" ∈ keys d
      · rw [lookup_converted_ref href (by decide)] at hfound
        cases hfound
      · rw [converted_props href hp, lookup_setKey_ne (by decide), lookup_setKey_self] at hfound
        cases hfound
    · rintro rfl
      by_cases href : "$ref" ∈ keys d
      · rw [lookup_converted_ref href (by decide)] at hfound
        cases hfound
      · rw [converted_props href hp, lookup_setKey_self] at hfound
        cases hfound

theorem properties?_mem (h : (properties? d).isSome) : "properties" ∈ keys d := by
  unfold properties? at h
  split at h
  · next p hp => exact mem_keys_of_lookup hp
  · cases h

theorem mem_keys_converted (h : key ∈ keys (converted d)) :
    key ∉ strictUnsupported := by
  obtain ⟨v, hv⟩ := exists_lookup h
  rcases mem_closeObject (mem_of_lookup hv) with hmem | heq | ⟨p, heq⟩
  · exact (strictFields_fixed d _ hmem).1
  · rw [(Prod.mk.inj heq).1]
    decide
  · rw [(Prod.mk.inj heq).1]
    decide

theorem keys_converted_ref (h : "$ref" ∈ keys d) : keys (converted d) = ["$ref"] := by
  obtain ⟨v, hv⟩ := converted_ref h
  rw [hv]
  rfl

theorem mem_keys_converted_props (href : "$ref" ∉ keys d) (hprops : properties? d = some p) :
    key ∈ keys (converted d) ↔
      key = "required" ∨ key = "additionalProperties" ∨ key ∈ keys (strictFields d) := by
  rw [converted_props href hprops, mem_keys_setKey, mem_keys_setKey]

theorem names_kept_iff :
    (∀ name, name ∈ keys (converted p) ↔ name ∈ keys p) ↔ NamesOk p := by
  constructor
  · intro hsame
    have href : "$ref" ∈ keys p → ∀ name ∈ keys p, name = "$ref" := by
      intro href name hname
      have hmem := (hsame name).mpr hname
      rw [keys_converted_ref href] at hmem
      exact List.mem_singleton.mp hmem
    refine ⟨fun name hname => mem_keys_converted ((hsame name).mpr hname), href, ?_⟩
    intro hprops
    obtain ⟨q, hq⟩ := Option.isSome_iff_exists.mp hprops
    have hnoref : "$ref" ∉ keys p := by
      intro h
      exact absurd (href h _ (properties?_mem hprops)) (by decide)
    constructor
    · exact (hsame _).mp ((mem_keys_converted_props hnoref hq).mpr (.inr (.inl rfl)))
    · exact (hsame _).mp ((mem_keys_converted_props hnoref hq).mpr (.inl rfl))
  · intro h name
    by_cases href : "$ref" ∈ keys p
    · rw [keys_converted_ref href, List.mem_singleton]
      constructor
      · rintro rfl
        exact href
      · exact h.noRef href name
    · have hfields : name ∈ keys (strictFields p) ↔ name ∈ keys p := by
        rw [mem_keys_strictFields]
        exact and_iff_left_of_imp (h.supported name)
      cases hprops : properties? p with
      | none => rw [converted_open href hprops, hfields]
      | some q =>
        obtain ⟨hadditional, hrequired⟩ := h.both (by rw [hprops]; rfl)
        rw [mem_keys_converted_props href hprops, hfields]
        constructor
        · rintro (rfl | rfl | hname)
          · exact hrequired
          · exact hadditional
          · exact hname
        · exact fun hname => .inr (.inr hname)

end

/-! ## Positions before and after -/

section

variable {d d' : SchemaDict ν} {j : SchemaJson ν} {step : SchemaStep} {path : List SchemaStep}

theorem strictItems_eq_map (items : List (SchemaJson ν)) :
    strictItems items = items.map toStrictSchema := by
  induction items with
  | nil => rfl
  | cons v vs ih => rw [strictItems, ih, List.map_cons]

theorem schemasOf_converted (keyword : String) (href : "$ref" ∉ keys d)
    (hkey : keyword ∉ strictUnsupported)
    (hclose : keyword ≠ "additionalProperties" ∧ keyword ≠ "required") :
    schemasOf (converted d) keyword = converted (schemasOf d keyword) := by
  unfold schemasOf
  rw [lookup_converted href hkey (fun _ => hclose)]
  cases d.lookup keyword with
  | none => rfl
  | some v => cases v <;> rfl

theorem listOf_converted (keyword : String) (href : "$ref" ∉ keys d)
    (hkey : keyword ∉ strictUnsupported)
    (hclose : (properties? d).isSome → keyword ≠ "additionalProperties" ∧ keyword ≠ "required") :
    listOf (converted d) keyword = (listOf d keyword).map toStrictSchema := by
  unfold listOf
  rw [lookup_converted href hkey hclose]
  cases d.lookup keyword with
  | none => rfl
  | some v => cases v <;> simp [toStrictSchema, strictItems_eq_map]

theorem stepInto_kept (h : KeptStep d step) :
    stepInto (converted d) step = (stepInto d step).map toStrictSchema := by
  cases step with
  | entry keyword name =>
    obtain ⟨href, hname⟩ := h
    have hschemas := schemasOf_converted keyword.value href
      (by cases keyword <;> decide) (by cases keyword <;> decide)
    rw [stepInto, hschemas, lookup_kept hname]
    rfl
  | place keyword i =>
    have hlist := listOf_converted keyword.value h
      (by cases keyword <;> decide) (fun _ => by cases keyword <;> decide)
    rw [stepInto, hlist, List.getElem?_map]
    rfl
  | inside keyword =>
    obtain ⟨href, hadditional⟩ := h
    refine lookup_converted href (by cases keyword <;> decide) (fun hprops => ?_)
    cases keyword with
    | items => decide
    | propertyNames => decide
    | additionalProperties =>
      rw [hadditional rfl] at hprops
      cases hprops

theorem stepInto_lost (h : ¬ KeptStep d step) : stepInto (converted d) step ≠ some (.obj d') := by
  by_cases href : "$ref" ∈ keys d
  · -- only the reference is left
    have hgone : ∀ key, key ≠ "$ref" → (converted d).lookup key = none :=
      fun key hkey => lookup_converted_ref href hkey
    cases step with
    | entry keyword name =>
      have hkey := hgone keyword.value (by cases keyword <;> decide)
      simp [stepInto, schemasOf, hkey]
    | place keyword i =>
      have hkey := hgone keyword.value (by cases keyword <;> decide)
      simp [stepInto, listOf, hkey]
    | inside keyword =>
      have hkey := hgone keyword.value (by cases keyword <;> decide)
      simp [stepInto, hkey]
  · cases step with
    | entry keyword name =>
      have hschemas := schemasOf_converted keyword.value href
        (by cases keyword <;> decide) (by cases keyword <;> decide)
      rw [stepInto, hschemas]
      exact lookup_lost (fun hname => h ⟨href, hname⟩) d'
    | place keyword i => exact absurd href h
    | inside keyword =>
      -- the schema of other properties was closed
      by_cases hadditional : keyword = .additionalProperties ∧ (properties? d).isSome
      · obtain ⟨rfl, hprops⟩ := hadditional
        exact lookup_lost (fun hname => (hname.notClosed hprops).1 rfl) d'
      · refine absurd ⟨href, fun hkeyword => ?_⟩ h
        by_contra hne
        exact hadditional ⟨hkeyword, Option.isSome_iff_ne_none.mpr hne⟩

theorem follow_kept (h : Kept j path) :
    follow (toStrictSchema j) path = (follow j path).map toStrictSchema := by
  induction path generalizing j with
  | nil => simp [follow]
  | cons step rest ih =>
    cases j with
    | obj d =>
      obtain ⟨hstep, hrest⟩ := h
      show (stepInto (converted d) step).bind (fun next => follow next rest) =
        ((stepInto d step).bind (fun next => follow next rest)).map toStrictSchema
      rw [stepInto_kept hstep]
      cases hnext : stepInto d step with
      | none => rfl
      | some next => exact ih (hrest next hnext)
    | null => rfl
    | bool b => rfl
    | num n => rfl
    | str t => rfl
    | arr items => rfl

theorem follow_lost (h : ¬ Kept j path) : follow (toStrictSchema j) path ≠ some (.obj d') := by
  induction path generalizing j with
  | nil => exact absurd (by simp [Kept]) h
  | cons step rest ih =>
    cases j with
    | obj d =>
      show (stepInto (converted d) step).bind (fun next => follow next rest) ≠ _
      by_cases hstep : KeptStep d step
      · rw [stepInto_kept hstep]
        cases hnext : stepInto d step with
        | none => simp
        | some next =>
          refine ih (fun hkept => h ⟨hstep, fun other hother => ?_⟩)
          rw [hnext] at hother
          obtain rfl := Option.some.inj hother
          exact hkept
      · intro hfound
        obtain ⟨next, hnext, hrest⟩ := Option.bind_eq_some_iff.mp hfound
        cases rest with
        | nil =>
          rw [follow] at hrest
          exact stepInto_lost hstep (hnext.trans hrest)
        | cons step' rest' =>
          cases next with
          | obj d'' => exact stepInto_lost hstep hnext
          | null => cases hrest
          | bool b => cases hrest
          | num n => cases hrest
          | str t => cases hrest
          | arr items => cases hrest
    | null => exact absurd trivial h
    | bool b => exact absurd trivial h
    | num n => exact absurd trivial h
    | str t => exact absurd trivial h
    | arr items => exact absurd trivial h

end

/-! ## When the conversion is faithful -/

section

variable {d p : SchemaDict ν}

theorem schemasOf_properties (h : properties? d = some p) : schemasOf d "properties" = p := by
  unfold properties? at h
  unfold schemasOf
  split at h
  · next q hq => exact Option.some.inj h
  · cases h

theorem schemasOf_no_properties (h : properties? d = none) : schemasOf d "properties" = [] := by
  unfold properties? at h
  unfold schemasOf
  split at h
  · cases h
  · rfl

theorem toStrictSchema_eq_false {v : SchemaJson ν} :
    toStrictSchema v = .bool false ↔ v = .bool false := by
  cases v <;> simp [toStrictSchema]

theorem object_faithful_iff :
    ((∀ name, name ∈ propertyNames (converted d) ↔ name ∈ propertyNames d) ∧
      Closed (converted d)) ↔ ObjectOk d := by
  unfold ObjectOk
  by_cases href : "$ref" ∈ keys d
  · constructor
    · rintro ⟨-, hclosed⟩
      have hgone := hclosed.additional
      rw [lookup_converted_ref href (by decide)] at hgone
      cases hgone
    · exact fun h => absurd href h.1
  · rw [and_iff_right href]
    have hnames : propertyNames (converted d) = keys (converted (schemasOf d "properties")) := by
      rw [propertyNames, schemasOf_converted _ href (by decide) (by decide)]
    cases hprops : properties? d with
    | some p =>
      have hschemas := schemasOf_properties hprops
      have hconverted := schemasOf_converted "properties" href (by decide) (by decide)
      rw [hschemas] at hconverted hnames
      have hclosed : Closed (converted d) := by
        constructor
        · rw [converted_props href hprops, lookup_setKey_ne (by decide), lookup_setKey_self]
        · rw [hconverted, listOf, converted_props href hprops, lookup_setKey_self]
      rw [and_iff_left hclosed, hnames, propertyNames, hschemas]
      exact names_kept_iff
    | none =>
      have hschemas := schemasOf_no_properties hprops
      have hconverted := schemasOf_converted "properties" href (by decide) (by decide)
      rw [hschemas] at hconverted hnames
      have hsame : ∀ name, name ∈ propertyNames (converted d) ↔ name ∈ propertyNames d := by
        intro name
        rw [hnames, propertyNames, hschemas]
        exact Iff.rfl
      rw [and_iff_right hsame]
      have hlookup : (converted d).lookup "additionalProperties" =
          (d.lookup "additionalProperties").map toStrictSchema := lookup_converted href (by decide)
        (fun h => by rw [hprops] at h; cases h)
      have hlist := listOf_converted "required" href (by decide)
        (fun h => by rw [hprops] at h; cases h)
      constructor
      · intro hclosed
        have hadditional := hclosed.additional
        have hrequired := hclosed.required
        rw [hlookup, Option.map_eq_some_iff] at hadditional
        obtain ⟨v, hv, hfalse⟩ := hadditional
        rw [toStrictSchema_eq_false] at hfalse
        rw [hlist, hconverted] at hrequired
        exact ⟨hfalse ▸ hv, List.map_eq_nil_iff.mp hrequired⟩
      · rintro ⟨hadditional, hrequired⟩
        constructor
        · rw [hlookup, hadditional]
          rfl
        · rw [hlist, hrequired, hconverted]
          rfl

def Convertible (j : SchemaJson ν) : Prop :=
  ∀ path d, follow j path = some (.obj d) → IsObject d → Kept j path ∧ ObjectOk d

/-- **Main theorem**: the conversion is faithful exactly to the schemas whose
    names it does not take for keywords and whose objects list their
    properties. -/
theorem strict_faithful_iff (j : SchemaJson ν) : StrictFaithful j ↔ Convertible j := by
  constructor
  · intro h path d hfollow hobject
    obtain ⟨d', hfollow', hnames, hclosed⟩ := h.objects path d hfollow hobject
    have hkept : Kept j path := by
      by_contra hlost
      exact follow_lost hlost hfollow'
    rw [follow_kept hkept, hfollow] at hfollow'
    obtain rfl : converted d = d' := SchemaJson.obj.inj (Option.some.inj hfollow')
    exact ⟨hkept, object_faithful_iff.mp ⟨hnames, hclosed⟩⟩
  · intro h
    refine ⟨fun path d hfollow hobject => ?_, toStrictSchema_idem j⟩
    obtain ⟨hkept, hok⟩ := h path d hfollow hobject
    obtain ⟨hnames, hclosed⟩ := object_faithful_iff.mpr hok
    refine ⟨converted d, ?_, hnames, hclosed⟩
    rw [follow_kept hkept, hfollow]
    rfl

end

/-- The schema of a model with one text field named `pattern`. -/
def ruleSchema : SchemaJson Nat :=
  .obj [("properties", .obj [("pattern", .obj [("title", .str "Pattern"), ("type", .str "string")])]),
    ("required", .arr [.str "pattern"]), ("title", .str "Rule"), ("type", .str "object")]

/-- The field is dropped. -/
theorem pattern_dropped : ¬ ∀ j : SchemaJson Nat, StrictFaithful j := by
  intro hclaim
  obtain ⟨d', hfollow, hnames, -⟩ := (hclaim ruleSchema).objects [] _ rfl rfl
  have hkept : "pattern" ∈ propertyNames d' := (hnames _).mpr List.mem_cons_self
  obtain rfl := SchemaJson.obj.inj (Option.some.inj hfollow)
  exact absurd hkept (by decide)

end DigitalWorker.Runtime
