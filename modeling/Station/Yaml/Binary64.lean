/-!
# Binary floating point

The numbers of the binary 64-bit format, and the one of them that is nearest to a decimal text. A
finite number is an odd mantissa times a power of two, or zero, so that equal numbers are the same
value; the sign of zero is not kept.
-/

namespace Station.Yaml

/-- A number of the binary 64-bit format. -/
inductive Binary64 where
  /-- Not a number. -/
  | nan
  /-- An infinity. -/
  | infinity (negative : Bool)
  /-- The mantissa times two to the power of the exponent. -/
  | finite (mantissa exponent : Int)
  deriving DecidableEq, Repr, Inhabited

namespace Binary64

/-- Takes powers of two out of a mantissa, at most as many as `fuel`. -/
def reduce : Nat → Nat → Int → Nat × Int
  | 0, mantissa, exponent => (mantissa, exponent)
  | fuel + 1, mantissa, exponent =>
    if mantissa = 0 then (0, 0)
    else if mantissa % 2 = 0 then reduce fuel (mantissa / 2) (exponent + 1)
    else (mantissa, exponent)

/-- The natural number nearest to a quotient; a half goes to the even neighbour. -/
def roundDiv (num den : Nat) : Nat :=
  let q := num / den
  let twice := 2 * (num % den)
  if twice < den || (twice == den && q % 2 == 0) then q else q + 1

/-- A natural number times two to a power as a quotient. -/
def scale (num den : Nat) (exponent : Int) : Nat × Nat :=
  if exponent < 0 then (num <<< exponent.natAbs, den) else (num, den <<< exponent.natAbs)

/-- The least power of two that leaves at most 53 bits before the point of a quotient, but not less
than the least power of the format. -/
def exponentOf (num den : Nat) : Int :=
  let guess : Int := (num.log2 : Int) - den.log2 - 52
  let (n, d) := scale num den guess
  let exponent := if n < d <<< 52 then guess - 1 else if n < d <<< 53 then guess else guess + 1
  max exponent (-1074)

/-- The number of the format nearest to a quotient; none if that is beyond the largest one. -/
def ofQuotient? (num den : Nat) : Option (Nat × Int) :=
  let exponent := exponentOf num den
  let (n, d) := scale num den exponent
  let mantissa := roundDiv n d
  if 1024 ≤ (mantissa.log2 : Int) + exponent then none else some (reduce 2200 mantissa exponent)

/-- The number of the format nearest to `digits * 10 ^ exponent`; none if that is beyond the largest
one. `count` is the number of the digits. -/
def ofDecimal? (negative : Bool) (digits count : Nat) (exponent : Int) : Option Binary64 :=
  if digits = 0 || (count : Int) + exponent < -400 then some (.finite 0 0)
  else if 400 < exponent + digits.log2 / 4 then none
  else
    let (num, den) :=
      if exponent < 0 then (digits, Nat.pow 10 exponent.natAbs)
      else (digits * Nat.pow 10 exponent.natAbs, 1)
    (ofQuotient? num den).map fun (mantissa, e) =>
      .finite (if negative then -(mantissa : Int) else mantissa) e

/-- The value of decimal digits, the highest first. -/
def digitsValue (digits : List Char) : Nat :=
  digits.foldl (fun n c => n * 10 + (c.toNat - '0'.toNat)) 0

/-- Reads an exponent: a letter, a sign and digits, or nothing at all. -/
def exponentPart? (text : List Char) : Option Int :=
  match text with
  | [] => some 0
  | c :: rest =>
    if c != 'e' && c != 'E' then none
    else
      let (negative, digits) : Bool × List Char :=
        match rest with
        | '-' :: digits => (true, digits)
        | '+' :: digits => (false, digits)
        | digits => (false, digits)
      if digits.isEmpty || !digits.all Char.isDigit then none
      else
        let n : Int := digitsValue digits
        some (if negative then -n else n)

/-- Reads digits with at most one point among them, at least one digit in all, and an exponent.
Numbers beyond the largest one of the format are not read. -/
def ofUnsigned? (negative : Bool) (text : List Char) : Option Binary64 :=
  let whole := text.takeWhile Char.isDigit
  let rest := text.drop whole.length
  let (fraction, rest) : List Char × List Char :=
    match rest with
    | '.' :: rest => let digits := rest.takeWhile Char.isDigit; (digits, rest.drop digits.length)
    | rest => ([], rest)
  let digits := whole ++ fraction
  if digits.isEmpty then none
  else (exponentPart? rest).bind fun exponent =>
    ofDecimal? negative (digitsValue digits) digits.length (exponent - fraction.length)

/-- Reads a decimal text with a sign or without one. -/
def ofText? (text : List Char) : Option Binary64 :=
  match text with
  | '-' :: rest => ofUnsigned? true rest
  | '+' :: rest => ofUnsigned? false rest
  | text => ofUnsigned? false text

end Binary64

end Station.Yaml
