import Mathlib.Data.List.DropRight

/-! # Kernel: identifiers, time, errors and text

    The vocabulary every bounded context shares: UUIDs, moments of time, the
    error taxonomy of `dw_kernel.errors`, and the two Python string functions
    the decisions of the program depend on.
-/

namespace DigitalWorker

theorem ne_empty_of_isEmpty {text : String} (h : text.isEmpty = false) : text ≠ "" := by
  rintro rfl
  cases h

theorem false_eq_false : false = false := rfl

/-- A UUID in its canonical text form, as `str(uuid)` prints it. The text is
    never empty, so a stored identifier is never mistaken for a missing one. -/
@[ext] structure Uuid where
  text : String
  nonempty : text ≠ "" := by exact ne_empty_of_isEmpty false_eq_false

instance : DecidableEq Uuid := fun u v => decidable_of_iff (u.text = v.text) Uuid.ext_iff.symm

/-- `UUID.hex`: the digits without the hyphens. -/
def Uuid.hex (u : Uuid) : String :=
  String.ofList (u.text.toList.filter (· ≠ '-'))

/-- A moment, in microseconds since an arbitrary epoch. -/
abbrev DateTime := Int

/-- `timedelta(days=n)`. -/
def days (n : Int) : Int := n * 86400000000

theorem days_le_days {m n : Int} (h : m ≤ n) : days m ≤ days n := by
  unfold days; omega

theorem days_pos {n : Int} (h : 0 < n) : 0 < days n := by
  unfold days; omega

/-- The classes of `dw_kernel.errors` the modelled code raises, and the Python
    errors its nodes can run into. -/
inductive ErrorKind where
  | domain
  | notFound
  | conflict
  | permissionDenied
  | entitlementDenied
  | infrastructure
  | assertion
  | key
  | index
  | value
  deriving DecidableEq

structure Error where
  kind : ErrorKind
  message : String
  details : List (String × String) := []
  deriving DecidableEq

/-- `DomainError(message)` and its subclass `TenderDomainError(message)`. -/
def domainError (message : String) : Error := { kind := .domain, message := message }

/-- `ConflictError(message, details=…)`. -/
def conflictError (message : String) (details : List (String × String)) : Error :=
  { kind := .conflict, message := message, details := details }

/-- `NotFoundError(message, details=…)`. -/
def notFoundError (message : String) (details : List (String × String)) : Error :=
  { kind := .notFound, message := message, details := details }

/-- `if cond: raise e`. -/
def raiseIf (cond : Bool) (e : Error) : Except Error Unit :=
  if cond then .error e else .ok ()

@[simp] theorem raiseIf_ok {cond : Bool} {e : Error} {u : Unit} :
    raiseIf cond e = .ok u ↔ cond = false := by
  cases cond <;> simp [raiseIf]

/-- What a successful sequential composition says about its two halves. -/
theorem bind_ok {ε α β : Type} {x : Except ε α} {f : α → Except ε β} {b : β} :
    (x >>= f) = .ok b ↔ ∃ a, x = .ok a ∧ f a = .ok b := by
  cases x with
  | error e => simp [bind, Except.bind]
  | ok a => simp [bind, Except.bind]

theorem mapM_ok_length {ε α β : Type} {f : α → Except ε β} {xs : List α} {ys : List β}
    (h : xs.mapM f = .ok ys) : ys.length = xs.length := by
  induction xs generalizing ys with
  | nil =>
    obtain rfl : [] = ys := Except.ok.inj h
    rfl
  | cons x xs ih =>
    rw [List.mapM_cons, bind_ok] at h
    obtain ⟨y, -, h⟩ := h
    rw [bind_ok] at h
    obtain ⟨rest, hrest, h⟩ := h
    obtain rfl : y :: rest = ys := Except.ok.inj h
    rw [List.length_cons, List.length_cons, ih hrest]

/-- A guard that passes can be dropped from a successful computation. -/
theorem raiseIf_bind_ok {β : Type} {cond : Bool} {e : Error}
    {f : Unit → Except Error β} {b : β} :
    (raiseIf cond e >>= f) = .ok b ↔ cond = false ∧ f () = .ok b := by
  cases cond <;> simp [raiseIf, bind, Except.bind]

/-- A guarded result: the guard passed, and the result is the one returned. -/
theorem raiseIf_pure {β : Type} {cond : Bool} {e : Error} {a b : β} :
    (raiseIf cond e >>= fun _ => pure a) = .ok b ↔ cond = false ∧ b = a := by
  rw [raiseIf_bind_ok]
  simp [pure, Except.pure, eq_comm]

/-! ## Text -/

/-- The characters `str.strip` removes and `str.isspace` accepts. -/
def isSpace (c : Char) : Bool :=
  let n := c.toNat
  (9 ≤ n && n ≤ 13) || (28 ≤ n && n ≤ 32) || n == 133 || n == 160 || n == 5760 ||
    (8192 ≤ n && n ≤ 8202) || n == 8232 || n == 8233 || n == 8239 || n == 8287 || n == 12288

/-- `str.strip()`. -/
def strip (s : String) : String :=
  String.ofList ((s.toList.dropWhile isSpace).rdropWhile isSpace)

/-- `s.startswith(start)`. -/
def startsWith (s start : String) : Bool := start.toList.isPrefixOf s.toList

/-- `s[:n]`. -/
def take (s : String) (n : Nat) : String := String.ofList (s.toList.take n)

def groupThousands : List Char → List Char
  | a :: b :: c :: d :: rest => groupThousands (d :: rest) ++ ['.', c, b, a]
  | digits => digits.reverse

def fmtVnd (minor : Int) : String :=
  (if minor < 0 then "-" else "") ++
    String.ofList (groupThousands (toString minor.natAbs).toList.reverse) ++ " VND"

example : fmtVnd 1234567 = "1.234.567 VND" := by decide

/-- `not s.strip()`. -/
def blank (s : String) : Bool := strip s == ""

private theorem dropWhile_rdropWhile (l : List Char) :
    ((l.dropWhile isSpace).rdropWhile isSpace).dropWhile isSpace =
      (l.dropWhile isSpace).rdropWhile isSpace := by
  rw [List.dropWhile_eq_self_iff]
  intro hpos hspace
  have hprefix := List.rdropWhile_prefix isSpace (l.dropWhile isSpace)
  have hne : l.dropWhile isSpace ≠ [] := by
    intro hnil
    simp [hnil] at hpos
  have hhead := List.head_dropWhile_not isSpace hne
  rw [List.IsPrefix.getElem hprefix hpos] at hspace
  rw [List.head_eq_getElem] at hhead
  exact absurd hspace (by simp [hhead])

@[simp] theorem strip_strip (s : String) : strip (strip s) = strip s := by
  unfold strip
  rw [String.toList_ofList, dropWhile_rdropWhile, List.rdropWhile_idempotent]

@[simp] theorem blank_strip (s : String) : blank (strip s) = blank s := by
  simp [blank]

@[simp] theorem blank_empty : blank "" = true := by
  simp [blank, strip]

end DigitalWorker
