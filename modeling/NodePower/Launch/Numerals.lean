import NodePower.Common.Binary64

/-!
# Numbers on a command line

The experiment script prints numbers into a shell command, and the program it starts reads
them back. A word of the command is kept as the number that its numeral denotes; words that
start with no numeral are kept as texts.

Python prints an integer exactly and a float as the shortest decimal that reads back as it.
`std::stod` rounds to the nearest `double` and throws on a range error. Conversion to `int`
drops the fraction and is undefined outside the range of `int`.
-/

namespace NodePower

/-- What a numeral denotes, and what a `double` holds: a rational, an infinity, or not a number.
The sign of a zero is not kept. -/
inductive Number where
  | finite (value : ℚ)
  | infinity (negative : Bool)
  | nan
  deriving DecidableEq

/-- The numbers that a `double` can hold. -/
def Number.IsDouble : Number → Prop
  | .finite value => IsBinary64 value
  | .infinity _ | .nan => True

/-- The numbers that are zero, normal, infinite or not a number. -/
def Number.NotSubnormal : Number → Prop
  | .finite value => value = 0 ∨ smallestNormal ≤ |value|
  | .infinity _ | .nan => True

/-- A float of Python. -/
structure PyFloat where
  value : Number
  isDouble : value.IsDouble

/-- The float that a decimal in the script denotes. -/
def floatLiteral (decimal : ℚ) (hfinite : |roundBinary64 decimal| < 2 ^ 1024) : PyFloat :=
  ⟨.finite (roundBinary64 decimal), isBinary64_roundBinary64 hfinite⟩

/-- A word of a command line: a numeral with what it denotes, or a text that starts with no
numeral. -/
inductive Word where
  | number (denoted : Number)
  | text (spelling : String)

/-- Options with their values, as words. -/
def valueWords (pairs : List (String × Word)) : List Word :=
  pairs.flatMap fun pair => [.text pair.1, pair.2]

/-- The word `str(x)` of a float. -/
def strFloat (x : PyFloat) : Word :=
  .number (match x.value with
    | .finite value => .finite (shortestDecimal value)
    | value => value)

/-- The word `str(n)` of an integer. -/
def strInt (n : ℤ) : Word := .number (.finite n)

/-- `std::stod`, or nothing when it throws. -/
def stod : Word → Option Number
  | .number (.finite value) => (readDecimal value).map .finite
  | .number special => some special
  | .text _ => none

/-- The range of `int`. -/
def InIntRange (n : ℤ) : Prop := -2 ^ 31 ≤ n ∧ n < 2 ^ 31

instance (n : ℤ) : Decidable (InIntRange n) := inferInstanceAs (Decidable (_ ∧ _))

/-- Conversion of a `double` to `int`, or nothing where it is undefined. -/
def toInt : Number → Option Int32
  | .finite value => if InIntRange (truncate value) then some (Int32.ofInt (truncate value)) else none
  | .infinity _ | .nan => none

/-- An `int` global that is assigned the result of `std::stod`. -/
def stodToInt (word : Word) : Option Int32 := (stod word).bind toInt

/-- A printed float is read back exactly when it is not subnormal. -/
theorem stod_strFloat_iff (x : PyFloat) :
    stod (strFloat x) = some x.value ↔ x.value.NotSubnormal := by
  obtain ⟨value, hdouble⟩ := x
  cases value with
  | finite value =>
    rw [strFloat, stod, Option.map_eq_some_iff]
    simpa [Number.NotSubnormal] using readDecimal_shortestDecimal_iff hdouble
  | infinity negative => simp [strFloat, stod, Number.NotSubnormal]
  | nan => simp [strFloat, stod, Number.NotSubnormal]

/-- A printed integer is read into a `double` unchanged exactly when it is one. -/
theorem stod_strInt_iff (n : ℤ) : stod (strInt n) = some (.finite n) ↔ IsBinary64 n := by
  rw [strInt, stod, Option.map_eq_some_iff, ← readDecimal_eq_self_iff]
  simp

/-- A printed integer is read into an `int` unchanged exactly when it is in its range. -/
theorem exists_stodToInt_strInt_iff (n : ℤ) :
    (∃ k, stodToInt (strInt n) = some k ∧ k.toInt = n) ↔ InIntRange n := by
  constructor
  · rintro ⟨k, -, rfl⟩
    exact ⟨k.le_toInt, k.toInt_lt⟩
  · intro hrange
    have hsmall : |n| ≤ 2 ^ 53 := by
      rw [abs_le]
      obtain ⟨hlow, hhigh⟩ := hrange
      constructor <;> omega
    have hstod := (stod_strInt_iff n).mpr (isBinary64_intCast hsmall)
    refine ⟨Int32.ofInt n, ?_, Int32.toInt_ofInt_of_le hrange.1 hrange.2⟩
    simp [stodToInt, hstod, toInt, hrange]

end NodePower
