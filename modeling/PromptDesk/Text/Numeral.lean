/-! Decimal numerals of natural numbers. Reading undoes writing, leading zeros are no matter, and a
numeral for a machine word has to fit 64 bits. -/
namespace PromptDesk.Text

def isDigit (c : Char) : Bool := '0' ≤ c && c ≤ '9'

/-- The value of a hexadecimal digit, in either case. -/
def hexDigit? (c : Char) : Option Nat :=
  if '0' ≤ c ∧ c ≤ '9' then some (c.toNat - 48)
  else if 'a' ≤ c ∧ c ≤ 'f' then some (c.toNat - 87)
  else if 'A' ≤ c ∧ c ≤ 'F' then some (c.toNat - 55)
  else none

/-- The value of digits already known to be decimal. -/
def digitsValue (cs : List Char) : Nat := Nat.ofDigitChars 10 cs 0

/-- A nonempty run of decimal digits. -/
def readNat? (cs : List Char) : Option Nat :=
  if !cs.isEmpty && cs.all isDigit then some (digitsValue cs) else none

/-- Decimal digits of a number, without leading zeros. -/
def decimal (n : Nat) : List Char := Nat.toDigits 10 n

/-- Hexadecimal digits of a number in small letters, without leading zeros. -/
def hexadecimal (n : Nat) : List Char := Nat.toDigits 16 n

def decimalText (n : Nat) : String := String.ofList (decimal n)

/-- Decimal digits filled up with zeros on the left. -/
def padded (width n : Nat) : List Char :=
  let ds := decimal n
  List.replicate (width - ds.length) '0' ++ ds

/-- A natural number below 2^64 as a word. -/
def word? (n : Nat) : Option UInt64 :=
  if n < UInt64.size then some (UInt64.ofNat n) else none

theorem digitsValue_decimal (n : Nat) : digitsValue (decimal n) = n :=
  Nat.ofDigitChars_toDigits (by decide) (by decide)

/-- Two numbers with the same numeral are equal. -/
theorem decimalText_injective {m n : Nat} (h : decimalText m = decimalText n) : m = n := by
  have h' : decimal m = decimal n := by simpa [decimalText] using congrArg String.toList h
  rw [← digitsValue_decimal m, ← digitsValue_decimal n, h']

end PromptDesk.Text
