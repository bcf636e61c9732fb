import SourceMask.Data
import SourceMask.Json.Quoted
import SourceMask.Toml.Lexical

/-!
# TOML: numbers

Integers are written in decimal with an optional sign, or without one in hexadecimal, octal or
binary behind a letter.  Decimal fractions have a fraction, an exponent or both, or are one of the
words for infinity and for no number.  A low line may stand between any two digits.
-/

namespace SourceMask

namespace Toml

/-! ## Digits -/

/-- Whether a character is a digit of the given base. -/
def isDigitOf (base : Nat) (c : Char) : Bool :=
  (Json.hexValue? c).any fun value => value < base

/-- Digits at the start of a text, the low lines between them left out.  A low line that no digit
follows is not taken. -/
def digits (base : Nat) : Text → Text × Text
  | [] => ([], [])
  | c :: rest =>
    if isDigitOf base c then
      let (more, after) := digitsOn base rest
      (c :: more, after)
    else
      ([], c :: rest)
where
  /-- Digits behind a digit. -/
  digitsOn (base : Nat) : Text → Text × Text
    | [] => ([], [])
    | [c] => if isDigitOf base c then ([c], []) else ([], [c])
    | c :: d :: rest =>
      if isDigitOf base c then
        let (more, after) := digitsOn base (d :: rest)
        (c :: more, after)
      else if c = '_' && isDigitOf base d then
        digitsOn base (d :: rest)
      else
        ([], c :: d :: rest)

/-- The number that digits of a base stand for. -/
def digitsValue (base : Nat) (digits : Text) : Nat :=
  digits.foldl (fun n c => base * n + (Json.hexValue? c).getD 0) 0

/-- At least one digit at the start of a text. -/
def digits? (base : Nat) : Reader Text := fun text =>
  match digits base text with
  | ([], _) => none
  | found => some found

/-- The sign at the start of a text, if there is one. -/
def sign : Text → Text × Text
  | '+' :: rest => (['+'], rest)
  | '-' :: rest => (['-'], rest)
  | text => ([], text)

/-- Decimal digits at the start of a text; behind a leading zero no other digit is taken. -/
def decimalDigits? : Reader Text := fun text =>
  match text with
  | '0' :: rest => some (['0'], rest)
  | _ => digits? 10 text

/-! ## Integers -/

/-- Whether an integer fits into 64 bits with a sign. -/
def fits (value : Int) : Bool := -9223372036854775808 ≤ value && value ≤ 9223372036854775807

/-- The integer of some base without a sign at the start of a text. -/
def natural? (base : Nat) : Reader Int := fun text =>
  (digits? base text).map fun (found, rest) => ((digitsValue base found : Int), rest)

/-- The decimal integer with an optional sign at the start of a text. -/
def signed? : Reader Int := fun text =>
  let (mark, rest) := sign text
  (decimalDigits? rest).map fun (found, rest) =>
    let value : Int := digitsValue 10 found
    (if mark = ['-'] then -value else value, rest)

/-- The integer at the start of a text, as written. -/
def written? : Reader Int
  | '0' :: 'x' :: rest => natural? 16 rest
  | '0' :: 'o' :: rest => natural? 8 rest
  | '0' :: 'b' :: rest => natural? 2 rest
  | text => signed? text

/-- The integer at the start of a text. -/
def integer? : Reader Data := fun text => do
  let (value, rest) ← written? text
  if fits value then some (.integer value, rest) else none

/-! ## Decimal fractions -/

/-- Whether a number with the given digits and exponent is too great for a floating-point number
of 64 bits, once rounded. -/
def isTooGreat (value : Nat) (exponent : Int) : Bool :=
  if value = 0 then false
  else
    let bound := Nat.pow 2 1024 - Nat.pow 2 970
    let places := (Nat.toDigits 10 value).length
    if exponent + places > 400 then true
    else if exponent + places < 0 then false
    else if 0 ≤ exponent then bound ≤ value * Nat.pow 10 exponent.toNat
    else bound * Nat.pow 10 (-exponent).toNat ≤ value

/-- The fraction at the start of a text, as its digits. -/
def fraction? : Reader Text
  | '.' :: rest => digits? 10 rest
  | _ => none

/-- The exponent at the start of a text, as its value. -/
def exponent? : Reader Int
  | [] => none
  | c :: rest =>
    if c = 'e' || c = 'E' then
      let (mark, rest) := sign rest
      (digits? 10 rest).map fun (found, rest) =>
        let value : Int := digitsValue 10 found
        (if mark = ['-'] then -value else value, rest)
    else
      none

/-- A number written with words at the start of a text. -/
def special? : Reader Data := fun text =>
  let (mark, rest) := sign text
  [['i', 'n', 'f'], ['n', 'a', 'n']].findSome? fun word =>
    (Text.dropStart? word rest).map fun rest => (.decimal (mark ++ word), rest)

/-- The decimal fraction at the start of a text. -/
def decimal? : Reader Data := fun text =>
  match finite? text with
  | some found => some found
  | none => special? text
where
  /-- A decimal fraction written with digits. -/
  finite? (text : Text) : Option (Data × Text) := do
    let (mark, rest) := sign text
    let (whole, rest) ← decimalDigits? rest
    let (places, rest) := (fraction? rest).getD ([], rest)
    let (power, rest) ← match exponent? rest with
      | some (power, rest) => some (power, rest)
      | none => if places = [] then none else some (0, rest)
    guard (mark = ['-'] || !isTooGreat (digitsValue 10 (whole ++ places)) (power - places.length))
    pure (.decimal (text.take (text.length - rest.length)), rest)

end Toml

end SourceMask
