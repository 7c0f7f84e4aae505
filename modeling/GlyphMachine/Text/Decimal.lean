/-!
Decimal numerals: an optional sign and one or more ASCII digits.
-/

namespace GlyphMachine.Text

/-- Value of a run of digits read after the given value. -/
def digitsFrom (value : Nat) : List Char → Option Nat
  | [] => some value
  | c :: cs =>
    if c.isDigit then digitsFrom (10 * value + (c.toNat - '0'.toNat)) cs else none

/-- Value of a non-empty run of digits. -/
def digits? : List Char → Option Nat
  | [] => none
  | cs => digitsFrom 0 cs

/-- Value of digits with an optional plus sign. -/
def natural? : List Char → Option Nat
  | '+' :: cs => digits? cs
  | cs => digits? cs

/-- Value of digits with an optional sign. -/
def integer? : List Char → Option Int
  | '-' :: cs => (digits? cs).map fun n => -Int.ofNat n
  | cs => (natural? cs).map Int.ofNat

/-- The numeral of a number, with zeros in front up to the given length. -/
def padded (width n : Nat) : String :=
  let numeral := toString n
  String.ofList (List.replicate (width - numeral.length) '0') ++ numeral

end GlyphMachine.Text
