/-!
# Decimal numbers

The value of a run of digits, without bound; limits are checked where a number is used.
-/

namespace RecordSchema.Text

/-- The value of decimal digits. -/
def decimalValue (digits : List Char) : Nat := Nat.ofDigitChars 10 digits 0

/-- Writing a number in decimal and reading it back gives the number. -/
theorem decimalValue_toDigits (n : Nat) : decimalValue (Nat.toDigits 10 n) = n :=
  Nat.ofDigitChars_toDigits (by decide) (by decide)

end RecordSchema.Text
