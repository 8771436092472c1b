/-!
# Whole numbers as text

Numbers are written in decimal with no needless zero and a minus sign only. They are read back in a
range: leading zeros and a plus sign are allowed, a minus sign only where the range has negative
numbers, and the first character that cannot stand, or takes the number out of range, decides the
flaw.
-/

namespace TwinStore.Decimal

/-- Why a text is not a number of a range. -/
inductive Flaw where
  | empty
  | badDigit
  | tooLarge
  | tooSmall
  deriving DecidableEq

/-- The text of a flaw. -/
def Flaw.message : Flaw → String
  | empty => "cannot parse integer from empty string"
  | badDigit => "invalid digit found in string"
  | tooLarge => "number too large to fit in target type"
  | tooSmall => "number too small to fit in target type"

/-- The digits of a number. -/
def ofNat (n : Nat) : List Char :=
  Nat.toDigits 10 n

/-- The text of a number. -/
def ofInt : Int → List Char
  | .ofNat n => ofNat n
  | .negSucc n => '-' :: ofNat (n + 1)

/-- The value of a digit. -/
def digit (c : Char) : Nat := c.toNat - '0'.toNat

/-- Read digits after a value read so far, none of them taking it above `limit`. -/
def readDigits (limit : Nat) (beyond : Flaw) : Nat → List Char → Except Flaw Nat
  | value, [] => .ok value
  | value, c :: cs =>
    if c.isDigit then
      let next := 10 * value + digit c
      if next ≤ limit then readDigits limit beyond next cs else .error beyond
    else .error .badDigit

/-- A range of whole numbers around zero. -/
structure Range where
  /-- The largest number. -/
  top : Nat
  /-- The largest number below zero, without its sign; none if there are no numbers below zero. -/
  bottom : Option Nat := none

/-- Read a number of a range. -/
def read (range : Range) (text : List Char) : Except Flaw Int :=
  match text with
  | [] => .error .empty
  | ['+'] => .error .badDigit
  | ['-'] => .error .badDigit
  | '+' :: digits => Int.ofNat <$> readDigits range.top .tooLarge 0 digits
  | '-' :: digits =>
    match range.bottom with
    | some bottom => (fun n => -Int.ofNat n) <$> readDigits bottom .tooSmall 0 digits
    | none => .error .badDigit
  | digits => Int.ofNat <$> readDigits range.top .tooLarge 0 digits

namespace Range

/-- Eight bits. -/
def byte : Range := ⟨0xff, none⟩

/-- Thirty-two bits. -/
def word32 : Range := ⟨0xffffffff, none⟩

/-- Sixty-four bits. -/
def word64 : Range := ⟨0xffffffffffffffff, none⟩

/-- Sixty-four bits with a sign. -/
def signed64 : Range := ⟨0x7fffffffffffffff, some 0x8000000000000000⟩

/-- Whether a number is in a range. -/
def contains (r : Range) : Int → Bool
  | .ofNat n => n ≤ r.top
  | .negSucc n => r.bottom.any (n + 1 ≤ ·)

end Range

end TwinStore.Decimal
