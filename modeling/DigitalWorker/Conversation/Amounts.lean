import DigitalWorker.Framework.Binary64
import DigitalWorker.Framework.Matching
import DigitalWorker.Kernel.Basic

/-! # Amounts of money in a message

    The assistant prints an amount in groups of three digits with dots, and reads
    amounts back with two regular expressions: a number with the unit triệu or tỷ,
    where the last separator of any kind is a decimal point, and a long run of
    digits, where separators do not count. Numbers with a unit are computed in
    double precision.
-/

namespace DigitalWorker.Conversation

open Framework

/-- What the engine knows of characters: the value of a decimal digit, of whatever
    script, and the word characters. -/
structure CharClasses where
  digit : Char → Option ℕ
  word : Char → Bool
  digit_ascii : ∀ c : Char, c.toNat < 128 →
    digit c = if c.isDigit then some (c.toNat - '0'.toNat) else none
  word_ascii : ∀ c : Char, c.toNat < 128 → word c = (c.isAlphanum || c == '_')
  digit_word : ∀ c, (digit c).isSome = true → word c = true
  space_word : ∀ c, isSpace c = true → word c = false
  letters : digit 'ỷ' = none ∧ digit 'ệ' = none

/-- `[.,]`. -/
def isSeparator (c : Char) : Bool := c == '.' || c == ','

/-- The characters `re.IGNORECASE` takes for a letter of the units. -/
def caseForms : Char → List Char
  | 't' => ['t', 'T']
  | 'r' => ['r', 'R']
  | 'i' => ['i', 'I', 'İ', 'ı']
  | 'u' => ['u', 'U']
  | 'y' => ['y', 'Y']
  | 'ỷ' => ['ỷ', 'Ỷ']
  | 'ỉ' => ['ỉ', 'Ỉ']
  | 'ệ' => ['ệ', 'Ệ']
  | c => [c]

/-- `str.lower` on the letters of the units of a thousand million. -/
def lowerLetter : Char → Char
  | 'Ỷ' => 'ỷ'
  | 'Ỉ' => 'ỉ'
  | c => c.toLower

namespace CharClasses

variable (u : CharClasses)

/-- `\\d`. -/
def isDigit (c : Char) : Bool := (u.digit c).isSome

/-- `int` on a text of digits, below its limit. -/
def decimalOf (digits : List Char) : ℕ :=
  digits.foldl (fun n c => 10 * n + (u.digit c).getD 0) 0

/-- `float`, before rounding, on digits with at most one separator, which
    `replace` has made a point. -/
def floatOf (number : List Char) : ℚ :=
  let whole := number.takeWhile (fun c => !isSeparator c)
  let decimals := number.drop (whole.length + 1)
  u.decimalOf whole + u.decimalOf decimals / 10 ^ decimals.length

end CharClasses

/-! ## The two expressions -/

def literal : List Char → Matcher (List Char)
  | [] => pure []
  | x :: xs => do
    let c ← Matcher.one (fun c => (caseForms x).contains c)
    let cs ← literal xs
    pure (c :: cs)

section

variable (u : CharClasses)

def wholeWord (cs : List Char) : Matcher (List Char) := do
  let found ← literal cs
  let _ ← Matcher.boundary u.word
  pure found

/-- `(tỷ|tỉ|ty\\b|triệu|tr\\b)`. -/
def unitWord : Matcher (List Char) :=
  Matcher.alt (literal ['t', 'ỷ']) <| Matcher.alt (literal ['t', 'ỉ']) <|
    Matcher.alt (wholeWord u ['t', 'y']) <|
    Matcher.alt (literal ['t', 'r', 'i', 'ệ', 'u']) (wholeWord u ['t', 'r'])

def separated (lo : ℕ) (hi : Option ℕ) : Matcher (List Char) := do
  let sep ← Matcher.one isSeparator
  let digits ← Matcher.run u.isDigit lo hi
  pure (sep :: digits)

/-- `_VND_UNIT`: the number and the unit. -/
def vndUnit : Matcher (List Char × List Char) := do
  let whole ← Matcher.run u.isDigit 1 none
  let decimals ← Matcher.opt (separated u 1 none)
  let _ ← Matcher.run isSpace 0 none
  let unit ← unitWord u
  pure (whole ++ decimals.getD [], unit)

/-- `\\d{1,3}(?:[.,]\\d{3}){2,}`. -/
def groupedDigits : Matcher (List Char) := do
  let lead ← Matcher.run u.isDigit 1 (some 3)
  let groups ← Matcher.atLeast 2 (separated u 3 (some 3))
  pure (lead ++ groups.flatten)

def vndPlain : Matcher (List Char) := do
  let _ ← Matcher.boundary u.word
  let raw ← Matcher.alt (groupedDigits u) (Matcher.run u.isDigit 7 none)
  let _ ← Matcher.boundary u.word
  pure raw

/-! ## Reading -/

/-- The digits `int` and `format` convert at most. -/
def maxStrDigits : ℕ := 4300

/-- The amount of a number with a unit; `round` raises on infinity. -/
def unitAmount (found : List Char × List Char) : Option ℤ := do
  let value ← Binary64.ofRat (u.floatOf found.1)
  let scale : ℚ :=
    if [['t', 'ỷ'], ['t', 'ỉ'], ['t', 'y']].contains (found.2.map lowerLetter) then 1000000000
    else 1000000
  let product ← Binary64.ofRat (value * scale)
  some (Binary64.roundEven product)

def plainAmount (raw : List Char) : Option ℤ :=
  let digits := raw.filter (fun c => !isSeparator c)
  if maxStrDigits < digits.length then none else some (u.decimalOf digits)

/-- `parse_vnd_amounts`: the elements of the set, or none for an exception. -/
def parseVndAmounts (text : String) : Option (List ℤ) := do
  let withUnit ← (findall (vndUnit u) text.toList).mapM (unitAmount u)
  let plain ← (findall (vndPlain u) text.toList).mapM (plainAmount u)
  some (withUnit ++ plain)

end

/-- `_fmt_vnd`, as far as `format` goes. -/
def printVnd : Option ℤ → Option String
  | none => some "—"
  | some value =>
    if value = 0 then some "—"
    else if maxStrDigits < (toString value.natAbs).length then none
    else some (fmtVnd value)

/-! ## Vietnamese numerals -/

abbrev valueOf (digits : List Char) : ℕ := Nat.ofDigitChars 10 digits 0

/-- A number as it is written: the whole part in one piece or in groups of three
    after dots, and decimals after a comma. -/
structure Numeral where
  lead : List Char
  groups : List (List Char) := []
  decimals : List Char := []
  digits : ∀ c ∈ lead ++ groups.flatten ++ decimals, c.isDigit = true
  started : (lead = ['0'] ∧ groups = []) ∨ ∃ c rest, lead = c :: rest ∧ c ≠ '0'
  grouped : groups ≠ [] → lead.length ≤ 3
  triples : ∀ g ∈ groups, g.length = 3

namespace Numeral

variable (n : Numeral)

def whole : ℕ := valueOf (n.lead ++ n.groups.flatten)

def value : ℚ := n.whole + valueOf n.decimals / 10 ^ n.decimals.length

def text : List Char :=
  n.lead ++ n.groups.flatMap (fun g => '.' :: g) ++
    (if n.decimals = [] then [] else ',' :: n.decimals)

end Numeral

inductive VndUnit where
  | trieu
  | ty
  deriving DecidableEq

namespace VndUnit

def text : VndUnit → List Char
  | trieu => ['t', 'r', 'i', 'ệ', 'u']
  | ty => ['t', 'ỷ']

def zeros : VndUnit → ℕ
  | trieu => 6
  | ty => 9

end VndUnit

/-- **The property** of a number before a unit: the text is read as one amount, and
    it is the number times the unit. -/
def ReadExactly (u : CharClasses) (n : Numeral) (spaces : List Char) (unit : VndUnit) : Prop :=
  ∃ amounts amount, parseVndAmounts u (String.ofList (n.text ++ spaces ++ unit.text)) = some amounts ∧
    (∀ a, a ∈ amounts ↔ a = amount) ∧ (amount : ℚ) = n.value * 10 ^ unit.zeros

/-- **The condition**: no dots, a whole part of six digits at most, and decimals that
    are not long enough to be read as an amount of their own, unless they are that
    amount. Written without a space, decimals of any length that leave no fraction
    of a dong, and without decimals any whole part whose amount is a double. -/
def Unambiguous (n : Numeral) (spaces : List Char) (unit : VndUnit) : Prop :=
  n.groups = [] ∧
    if spaces = [] then
      if n.decimals = [] then
        Binary64.IsDouble (n.whole * 10 ^ unit.zeros) ∧ n.whole * 10 ^ unit.zeros < 2 ^ 1024
      else n.lead.length ≤ 6 ∧ 10 ^ n.decimals.length ∣ valueOf n.decimals * 10 ^ unit.zeros
    else n.lead.length ≤ 6 ∧
      (n.decimals.length ≤ 6 ∨
        n.whole = 0 ∧ valueOf n.decimals = 0 ∧ n.decimals.length ≤ maxStrDigits ∨
        n.whole = 0 ∧ unit = .ty ∧ n.decimals.length = 9)

end DigitalWorker.Conversation
