import HuntDraw.Number.Decimal
import HuntDraw.Text.Digit

/-! Reading numbers from text. Documents may write them with blanks around, with digits of any
script and with single underscores between digits; settings only as plain numerals. -/

namespace HuntDraw

namespace Numeral

def isAsciiDigit (c : Char) : Bool := '0' ≤ c && c ≤ '9'

def digitsValue (cs : List Char) : Nat := cs.foldl (fun n c => 10 * n + (c.toNat - 48)) 0

/-- An optional sign, and what follows it. -/
def signed : List Char → Bool × List Char
  | '-' :: rest => (true, rest)
  | '+' :: rest => (false, rest)
  | cs => (false, cs)

/-- The exponent part of a numeral: nothing, or a mark, an optional sign and digits. -/
def exponent? : List Char → Option Int
  | [] => some 0
  | c :: rest =>
    if c = 'e' ∨ c = 'E' then
      let (neg, ds) := signed rest
      if ds.isEmpty ∨ !ds.all isAsciiDigit then none
      else some (if neg then -(digitsValue ds : Int) else digitsValue ds)
    else none

/-- An unsigned numeral: digits with at most one point among them, at least one digit, and an
optional exponent. -/
def magnitude? (cs : List Char) : Option Decimal :=
  let whole := cs.takeWhile isAsciiDigit
  let rest := cs.dropWhile isAsciiDigit
  let (fraction, rest) := match rest with
    | '.' :: more => (more.takeWhile isAsciiDigit, more.dropWhile isAsciiDigit)
    | _ => ([], rest)
  if whole.isEmpty ∧ fraction.isEmpty then none
  else (exponent? rest).map fun x => ⟨digitsValue (whole ++ fraction), x - fraction.length⟩

/-- A plain numeral with an optional sign, or a name of an infinity or of what is not a number. -/
def plain? (cs : List Char) : Option Binary64 :=
  let (neg, body) := signed cs
  let name := String.ofList (body.map Char.toLower)
  if name = "inf" ∨ name = "infinity" then some (.infinite neg)
  else if name = "nan" then some .nan
  else (magnitude? body).map (·.toBinary64 neg)

/-- Drops underscores, each of which has to stand between two digits. -/
def joinDigits (last : Option Char) : List Char → Option (List Char)
  | [] => if last = some '_' then none else some []
  | c :: rest =>
    if c = '_' then
      if last.any isAsciiDigit then joinDigits (some '_') rest else none
    else if last = some '_' ∧ !isAsciiDigit c then none
    else (joinDigits (some c) rest).map (c :: ·)

/-- The plain digit of a digit of any script; other characters stay. -/
def plainDigit (c : Char) : Char :=
  if c.toNat < 128 then c
  else match Text.decimalValue? c with
    | some v => Char.ofNat (48 + v)
    | none => c

/-- A number as documents write it. -/
def document? (s : String) : Option Binary64 :=
  (joinDigits none ((Text.trimChars Text.isBlank s.toList).map plainDigit)).bind plain?

/-- Underscores are dropped where they stand alone inside the text. -/
private def dropUnderscores? (cs : List Char) : Option (List Char) :=
  let doubled := (cs.zip (cs.drop 1)).any fun p => p.1 = '_' && p.2 = '_'
  if cs.head? = some '_' ∨ cs.getLast? = some '_' ∨ !cs.contains '_' ∨ doubled then none
  else some (cs.filter (· ≠ '_'))

/-- A number as settings write it. -/
def setting? (s : String) : Option Binary64 :=
  match plain? (Text.trimChars Text.isWhite s.toList) with
  | some x => some x
  | none => (dropUnderscores? s.toList).bind plain?

private def wholeDigits? (cs : List Char) : Option Int :=
  let (neg, ds) := signed cs
  if ds.isEmpty ∨ !ds.all isAsciiDigit then none
  else some (if neg then -(digitsValue ds : Int) else digitsValue ds)

/-- A whole number as documents write it. -/
def documentWhole? (s : String) : Option Int :=
  (joinDigits none ((Text.trimChars Text.isBlank s.toList).map plainDigit)).bind wholeDigits?

/-- Without a fraction made of zeros only. -/
private def dropZeroFraction (cs : List Char) : List Char :=
  match cs.dropWhile (· ≠ '.') with
  | '.' :: zeros => if !zeros.isEmpty ∧ zeros.all (· = '0') then cs.takeWhile (· ≠ '.') else cs
  | _ => cs

/-- A whole number as settings write it: a fraction of zeros and single underscores are let pass. -/
def whole? (s : String) : Option Int :=
  let cs := dropZeroFraction (Text.trimChars Text.isWhite s.toList)
  match wholeDigits? cs with
  | some n => some n
  | none => (dropUnderscores? cs).bind wholeDigits?

end Numeral
end HuntDraw
