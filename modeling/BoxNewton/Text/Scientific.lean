/-!
# Scientific notation with a fixed number of places

A number is written as one digit, a point, a fixed number of places and a decimal exponent. The
digits are those of the exact value, rounded to the nearest; a value halfway between two goes to the
one with the even last digit. All arithmetic is on natural numbers, so no rounding happens before
the last one.
-/

set_option autoImplicit false

namespace BoxNewton.Text

/-- The quotient of two natural numbers, rounded to the nearest, halves to the even one. -/
def roundQuotient (num den : Nat) : Nat :=
  let q := num / den
  let twice := 2 * (num % den)
  if twice < den then q
  else if den < twice then q + 1
  else q + q % 2

/-- The power of ten with exponent `k`. -/
def powerOfTen (k : Nat) : Nat := Nat.pow 10 k

/-- The number of decimal digits. -/
def digitCount (k : Nat) : Nat := (Nat.toDigits 10 k).length

/-- The exponent of the leading decimal digit of a positive quotient: the greatest `e` for which
the quotient is at least ten to the power `e`. -/
def leadingExponent (num den : Nat) : Int :=
  if den ≤ num then (digitCount (num / den) : Int) - 1
  else -(digitCount ((den + num - 1) / num - 1) : Int)

/-- Pads a text on the left. -/
def alignRight (width : Nat) (text : String) : String :=
  String.ofList (List.replicate (width - text.length) ' ') ++ text

/-- How a number is written. -/
structure Scientific where
  /-- The number of digits after the point. -/
  places : Nat
  /-- The width to which the text is padded on the left. -/
  width : Nat

namespace Scientific

/-- Writes a positive quotient, without padding. -/
def quotient (format : Scientific) (num den : Nat) : String :=
  let e := leadingExponent num den
  let shift := (format.places : Int) - e
  let digits :=
    if 0 ≤ shift then roundQuotient (num * powerOfTen shift.toNat) den
    else roundQuotient num (den * powerOfTen (-shift).toNat)
  let carried := powerOfTen (format.places + 1) ≤ digits
  let digits := if carried then digits / 10 else digits
  let e := if carried then e + 1 else e
  let text := Nat.toDigits 10 digits
  String.ofList (text.take 1) ++ "." ++ String.ofList (text.drop 1) ++ "e" ++ toString e

/-- Writes zero, without padding. -/
def zero (format : Scientific) : String :=
  "0." ++ String.ofList (List.replicate format.places '0') ++ "e0"

/-- Writes a double-precision number. -/
def float (format : Scientific) (x : Float) : String :=
  let bits := x.toBits.toNat
  let exponent := (bits >>> 52) % 2048
  let fraction := bits % (1 <<< 52)
  let sign := if bits >>> 63 = 1 then "-" else ""
  let text :=
    if exponent = 2047 then
      if fraction = 0 then sign ++ "inf" else "NaN"
    else if exponent = 0 ∧ fraction = 0 then sign ++ format.zero
    else
      let significand := if exponent = 0 then fraction else (1 <<< 52) + fraction
      let power := ((max exponent 1 : Nat) : Int) - 1075
      if 0 ≤ power then sign ++ format.quotient (significand <<< power.toNat) 1
      else sign ++ format.quotient significand (1 <<< (-power).toNat)
  alignRight format.width text

end Scientific

end BoxNewton.Text
