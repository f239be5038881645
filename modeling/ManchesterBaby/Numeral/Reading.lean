import ManchesterBaby.Numeral.Digit

/-! Reading numerals: plain digit strings in four radixes, and the freer integers of settings,
which may carry a sign, a radix marker and underscores between digits. -/

namespace ManchesterBaby

inductive Radix
  | hex
  | decimal
  | octal
  | binary
deriving DecidableEq

namespace Radix

def base : Radix → Nat
  | hex => 16
  | decimal => 10
  | octal => 8
  | binary => 2

/-- The letter of the marker, which follows a zero. -/
def letter : Radix → Char
  | hex => 'x'
  | decimal => 'd'
  | octal => 'o'
  | binary => 'b'

def name : Radix → Text
  | hex => "hex".toList
  | decimal => "decimal".toList
  | octal => "octal".toList
  | binary => "binary".toList

def all : List Radix := [hex, decimal, octal, binary]

def ofLetter? (c : Char) : Option Radix := all.find? (·.letter == c.toLower)

end Radix

/-- Decimal numerals of more digits, leading zeros included, are neither read nor written. -/
def decimalLimit : Nat := 4300

def withinLimit (radix : Radix) (digits : List Nat) : Bool :=
  radix != .decimal || digits.length ≤ decimalLimit

def number? (radix : Radix) (digits : List Nat) : Option Nat :=
  if digits.isEmpty || !withinLimit radix digits then none else some (ofDigits radix.base digits)

/-- The text after the radix's own marker, if that is how it starts. The zero of the marker may
be of any script. No decimal numeral has one. -/
def afterMarker? (radix : Radix) : Text → Option Text
  | z :: m :: rest =>
    if radix != .decimal && decimalDigit? z == some 0 && m.toLower == radix.letter then some rest
    else none
  | _ => none

/-- A digit string in the given radix, which may start with the radix's marker. -/
def readDigits? (radix : Radix) (t : Text) : Option Nat := do
  let digits ← ((afterMarker? radix t).getD t).mapM (digit? radix.base)
  number? radix digits

/-- Digits, two of which may have one underscore between them. -/
def groupedDigits? (base : Nat) : Text → Option (List Nat)
  | [] => none
  | [c] => (digit? base c).map ([·])
  | c :: '_' :: rest => do
    let d ← digit? base c
    let ds ← groupedDigits? base rest
    return d :: ds
  | c :: rest => do
    let d ← digit? base c
    let ds ← groupedDigits? base rest
    return d :: ds

def readGrouped? (radix : Radix) (t : Text) : Option Nat :=
  groupedDigits? radix.base t >>= number? radix

def splitSign : Text → Bool × Text
  | '-' :: rest => (true, rest)
  | '+' :: rest => (false, rest)
  | t => (false, t)

def signed (negative : Bool) (n : Nat) : Int := if negative then -n else n

/-- The blanks that may surround an integer: all but the separators U+001C to U+001F. -/
def isMargin (c : Char) : Bool := isBlank c && !(28 ≤ c.toNat && c.toNat ≤ 31)

def trimMargin (t : Text) : Text :=
  ((t.dropWhile isMargin).reverse.dropWhile isMargin).reverse

/-- A decimal integer. -/
def readInteger? (t : Text) : Option Int :=
  let (negative, rest) := splitSign (trimMargin t)
  (readGrouped? .decimal rest).map (signed negative)

/-- A magnitude whose marker names its radix; one underscore may follow the marker. Without a
marker it is decimal, and then only zero may start with a zero. -/
def readMagnitude? (t : Text) : Option Nat :=
  match [Radix.hex, .octal, .binary].findSome? fun r => (afterMarker? r t).map (r, ·) with
  | some (radix, '_' :: rest) => readGrouped? radix rest
  | some (radix, rest) => readGrouped? radix rest
  | none =>
    let startsWithZero := (t.head? >>= decimalDigit?) == some 0
    (readGrouped? .decimal t).filter fun n =>
      n == 0 || !startsWithZero

/-- An integer in any radix. -/
def readAnyInteger? (t : Text) : Option Int :=
  let (negative, rest) := splitSign (trimMargin t)
  (readMagnitude? rest).map (signed negative)

end ManchesterBaby
