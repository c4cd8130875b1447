import DigitalWorker.Kernel.Basic

/-! # Locating quotes

    A quote the model proposes becomes evidence only when it is found in the
    document it is said to come from. Both are compared in a normal form; the
    place found in the normal form is carried back to the text by walking it.
-/

namespace DigitalWorker.Evaluation

/-- `unicodedata.normalize("NFC", s)` and `str.casefold`. -/
structure TextForms where
  nfc : String → String
  casefold : String → String

/-- `" ".join(text.split())`. -/
def collapse (text : String) : String :=
  " ".intercalate (((text.toList.splitOnP isSpace).filter (· ≠ [])).map String.ofList)

def TextForms.normalize (forms : TextForms) (text : String) : String :=
  forms.casefold (forms.nfc (collapse text))

/-- `str.find`: the place where `needle` first starts. -/
def findIn (needle : List Char) : List Char → Option Nat
  | [] => if needle = [] then some 0 else none
  | c :: rest =>
    if needle.isPrefixOf (c :: rest) then some 0 else (findIn needle rest).map (· + 1)

def rawOffsets : Nat → Bool → Bool → List Char → List Nat
  | _, _, _, [] => []
  | index, previousSpace, started, c :: rest =>
    if isSpace c then
      if !previousSpace && started then index :: rawOffsets (index + 1) true true rest
      else rawOffsets (index + 1) true started rest
    else index :: rawOffsets (index + 1) false true rest

structure LocatedQuote where
  startOffset : Nat
  endOffset : Nat
  normalizedQuote : String
  sourceHash : String
  deriving DecidableEq

def locateQuote (forms : TextForms) (sha256 : String → String) (quote sourceText : String) :
    Option LocatedQuote :=
  if blank quote then none
  else
    let needle := forms.normalize quote
    match findIn needle.toList (forms.normalize sourceText).toList with
    | none => none
    | some position =>
      let offsets := rawOffsets 0 false false sourceText.toList
      match offsets[position]? with
      | none => none
      | some start =>
        let last := min (position + needle.length - 1) (offsets.length - 1)
        some
          { startOffset := start, endOffset := offsets.getD last 0 + 1
            normalizedQuote := needle, sourceHash := sha256 sourceText }

example : (locateQuote ⟨id, id⟩ id "b  c" " a b c").map (fun q => (q.startOffset, q.endOffset)) =
    some (3, 6) := by decide +kernel

end DigitalWorker.Evaluation
