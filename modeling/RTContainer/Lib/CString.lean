import Mathlib.Data.List.Basic
import Mathlib.Data.Nat.Bitwise

/-! Strings of C as lists of bytes without the terminator, and the integer
conversions of `sscanf`. What is stored for a number that does not fit is
undefined and left open. -/

set_option autoImplicit false

namespace CString

def bytes (text : String) : List UInt8 := text.toList.map fun char => char.toNat.toUInt8

def isSpace (byte : UInt8) : Bool := byte = 32 || 9 ≤ byte && byte ≤ 13

def isDigit (byte : UInt8) : Bool := 48 ≤ byte && byte ≤ 57

/-- The number that a sequence of digits denotes. -/
def decimal (digits : List UInt8) : Nat :=
  digits.foldl (fun value digit => 10 * value + (digit.toNat - 48)) 0

/-- The sign in front of a number, if there is one. -/
def splitSign : List UInt8 → Bool × List UInt8
  | 45 :: rest => (true, rest)
  | 43 :: rest => (false, rest)
  | input => (false, input)

/-- One integer conversion: the number and the rest of the input. -/
def scanInteger (input : List UInt8) : Option (Int × List UInt8) :=
  let (negative, unsigned) := splitSign (input.dropWhile isSpace)
  let digits := unsigned.takeWhile isDigit
  if digits = [] then none
  else
    some (if negative then -(decimal digits : Int) else decimal digits, unsigned.dropWhile isDigit)

/-- The conversions that succeed of a format with so many of them. -/
def scanIntegers : Nat → List UInt8 → List Int
  | 0, _ => []
  | count + 1, input =>
    match scanInteger input with
    | none => []
    | some (value, rest) => value :: scanIntegers count rest

/-- What is stored for numbers that do not fit. -/
structure Overflow where
  int : Int → BitVec 32
  uint32 : Int → BitVec 32
  uint64 : Int → BitVec 64

/-- The object of a conversion to `int`. -/
def Overflow.toInt (overflow : Overflow) (value : Int) : Int :=
  if -2 ^ 31 ≤ value ∧ value < 2 ^ 31 then value else (overflow.int value).toInt

/-- The object of a conversion to `uint32_t`. -/
def Overflow.toUInt32 (overflow : Overflow) (value : Int) : BitVec 32 :=
  if -2 ^ 32 < value ∧ value < 2 ^ 32 then BitVec.ofInt 32 value else overflow.uint32 value

/-- The object of a conversion to `uint64_t`. -/
def Overflow.toUInt64 (overflow : Overflow) (value : Int) : BitVec 64 :=
  if -2 ^ 64 < value ∧ value < 2 ^ 64 then BitVec.ofInt 64 value else overflow.uint64 value

end CString
