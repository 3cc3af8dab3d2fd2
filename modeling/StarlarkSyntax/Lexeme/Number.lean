import StarlarkSyntax.Lexeme.Basic
/-!
# Numbers

```text
number   ::= '0' [xX] hexadecimal+ | '0' [oO] octal+ | '0' [bB] binary+ | decimal
decimal  ::= (digit+ ('.' digit*)? | '.' digit+) exponent?
exponent ::= [eE] [+-]? digit+
```

A decimal number with a point or an exponent is a float, any other number is an integer. A sign
before a number is an operator and not part of it. The letter of a radix, or that of an exponent,
must be followed by a digit; if it is not, what was read up to there is a fault.
-/

set_option autoImplicit false

namespace StarlarkSyntax.Lexeme

/-- Is the character a digit in the given base? Bases up to sixteen have the usual letters. -/
def isDigitIn (radix : Nat) (c : Char) : Bool :=
  let value? : Option Nat :=
    if c.isDigit then some (c.toNat - '0'.toNat)
    else if 'a' ≤ c ∧ c ≤ 'f' then some (c.toNat - 'a'.toNat + 10)
    else if 'A' ≤ c ∧ c ≤ 'F' then some (c.toNat - 'A'.toNat + 10)
    else none
  value?.any (· < radix)

/-- How many digits of the given base stand at the beginning of a text. -/
def digits (radix : Nat) (text : List Char) : Nat :=
  run (isDigitIn radix) text

/-- The base that a letter after a zero stands for. -/
def radixOf? (c : Char) : Option Nat :=
  if c = 'x' ∨ c = 'X' then some 16
  else if c = 'o' ∨ c = 'O' then some 8
  else if c = 'b' ∨ c = 'B' then some 2
  else none

/-- An integer whose zero and letter have been read; the text is what follows them. -/
def radixLiteral (radix : Nat) (text : List Char) : Lexeme :=
  match digits radix text with
  | 0 => ofFault 2 (.invalidRadixLiteral radix) 2
  | count => ofKind (2 + count) .int

/-- The length of a point and the digits after it, if there is a point. -/
def fraction : List Char → Nat
  | '.' :: text => 1 + digits 10 text
  | _ => 0

/-- The length of a sign, if there is one. -/
def sign : List Char → Nat
  | '+' :: _ | '-' :: _ => 1
  | _ => 0

/-- A number in base ten, with or without a fraction and an exponent. -/
def decimal (text : List Char) : Lexeme :=
  let whole := digits 10 text
  let point := fraction (text.drop whole)
  let mantissa := whole + point
  match text.drop mantissa with
  | c :: rest =>
    if c = 'e' ∨ c = 'E' then
      let start := mantissa + 1 + sign rest
      match digits 10 (rest.drop (sign rest)) with
      | 0 => ofFault start .invalidFloatExponent start
      | count => ofKind (start + count) .float
    else
      ofKind mantissa (if point = 0 then .int else .float)
  | [] => ofKind mantissa (if point = 0 then .int else .float)

/-- A number; the text begins with a digit, or with a point and a digit. -/
def number (text : List Char) : Lexeme :=
  match text with
  | '0' :: c :: rest =>
    match radixOf? c with
    | some radix => radixLiteral radix rest
    | none => decimal text
  | _ => decimal text

end StarlarkSyntax.Lexeme
