import Mathlib.Data.List.Sort
import DigitalWorker.Kernel.Basic

/-! # JSON values as Python handles them

    Artifact contents and approval payloads are plain dictionaries. A handler
    reads them defensively (`content.get(key, default)`, `_dict_items`), so the
    shape of a value decides what the next step sees, and the content hash that
    suppresses duplicates is taken over the text `json.dumps` prints.
-/

namespace DigitalWorker

/-- A JSON value. Objects keep their insertion order, as Python's do. -/
inductive Json where
  | null
  | bool (b : Bool)
  | num (n : Int)
  | str (s : String)
  | arr (items : List Json)
  | obj (fields : List (String × Json))
  deriving BEq

/-- A Python dictionary with text keys. -/
abbrev Dict := List (String × Json)

/-! ## Reading dictionaries -/

/-- `d.get(key)`. -/
def Dict.get? (d : Dict) (key : String) : Option Json :=
  (d.find? (fun f => f.1 == key)).map (·.2)

/-- `d.get(key, default)`. -/
def Dict.getD (d : Dict) (key : String) (default : Json) : Json :=
  (d.get? key).getD default

/-- `{**d, key: value}`: an existing key keeps its place. -/
def Dict.set (d : Dict) (key : String) (value : Json) : Dict :=
  if d.any (fun f => f.1 == key) then
    d.map (fun f => if f.1 == key then (key, value) else f)
  else d ++ [(key, value)]

@[simp] theorem Dict.get?_set_self (d : Dict) (key : String) (value : Json) :
    (d.set key value).get? key = some value := by
  unfold Dict.set Dict.get?
  by_cases h : (d.any fun f => f.1 == key) = true
  · rw [if_pos h]
    induction d with
    | nil => simp at h
    | cons f d ih =>
      by_cases hf : f.1 = key
      · simp [hf]
      · have hrest : (d.any fun f => f.1 == key) = true := by simpa [hf] using h
        simpa [hf] using ih hrest
  · rw [if_neg h, List.find?_append]
    have hnone : d.find? (fun f => f.1 == key) = none := by
      rw [List.find?_eq_none]
      intro f hf hk
      exact h (List.any_eq_true.mpr ⟨f, hf, hk⟩)
    simp [hnone]

theorem Dict.get?_set_ne (d : Dict) {key other : String} (value : Json) (h : other ≠ key) :
    (d.set key value).get? other = d.get? other := by
  unfold Dict.set Dict.get?
  split
  · next hany =>
    clear hany
    induction d with
    | nil => rfl
    | cons f d ih =>
      by_cases hf : f.1 = key
      · simpa [hf, Ne.symm h] using ih
      · by_cases ho : f.1 = other
        · simp [ho, h]
        · simpa [hf, ho] using ih
  · rw [List.find?_append]
    simp [Ne.symm h]

/-- `bool(value)`. -/
def Json.truthy : Json → Bool
  | .null => false
  | .bool b => b
  | .num n => n != 0
  | .str s => s != ""
  | .arr items => !items.isEmpty
  | .obj fields => !fields.isEmpty

def Json.dict? : Json → Option Dict
  | .obj d => some d
  | _ => none

/-- `_dict_items`: the dictionaries of a list, and nothing of anything else. -/
def dictItems : Json → List Dict
  | .arr items => items.filterMap Json.dict?
  | _ => []

@[simp] theorem dictItems_arr_obj (ds : List Dict) :
    dictItems (.arr (ds.map Json.obj)) = ds := by
  have hsome : Json.dict? ∘ Json.obj = some := rfl
  rw [dictItems, List.filterMap_map, hsome, List.filterMap_some]

@[simp] theorem dictItems_nil : dictItems (.arr []) = [] := rfl

/-- `str(value)`. The text of a nested container is `repr`'s, which no decision
    of the modelled code looks into; it is left to the parameter. -/
def Json.pyStr (repr : Json → String) : Json → String
  | .null => "None"
  | .bool true => "True"
  | .bool false => "False"
  | .num n => toString n
  | .str s => s
  | v => repr v

@[simp] theorem Json.pyStr_str (repr : Json → String) (s : String) :
    (Json.str s).pyStr repr = s := rfl

/-! ## `json.dumps(value, sort_keys=True, ensure_ascii=False)` -/

private def hexDigit (n : Nat) : Char :=
  if n < 10 then Char.ofNat (48 + n) else Char.ofNat (87 + n)

def escapeChar (c : Char) : String :=
  if c = '"' then "\\\""
  else if c = '\\' then "\\\\"
  else if c = '\n' then "\\n"
  else if c = '\r' then "\\r"
  else if c = '\t' then "\\t"
  else if c.toNat = 8 then "\\b"
  else if c.toNat = 12 then "\\f"
  else if c.toNat < 32 then
    "\\u00" ++ String.ofList [hexDigit (c.toNat / 16), hexDigit (c.toNat % 16)]
  else c.toString

def quoted (s : String) : String :=
  "\"" ++ String.join (s.toList.map escapeChar) ++ "\""

mutual

def Json.dumps : Json → String
  | .null => "null"
  | .bool true => "true"
  | .bool false => "false"
  | .num n => toString n
  | .str s => quoted s
  | .arr items => "[" ++ ", ".intercalate (dumpsItems items) ++ "]"
  | .obj fields =>
      let sorted := (dumpsFields fields).insertionSort (fun a b => a.1 ≤ b.1)
      "\x7b" ++ ", ".intercalate (sorted.map (fun f => quoted f.1 ++ ": " ++ f.2)) ++ "\x7d"

def dumpsItems : List Json → List String
  | [] => []
  | v :: vs => v.dumps :: dumpsItems vs

def dumpsFields : List (String × Json) → List (String × String)
  | [] => []
  | (k, v) :: fs => (k, v.dumps) :: dumpsFields fs

end

example : (Json.obj [("reasons", .arr []), ("passed", .bool true)]).dumps =
    "\x7b\"passed\": true, \"reasons\": []\x7d" := by decide

end DigitalWorker
