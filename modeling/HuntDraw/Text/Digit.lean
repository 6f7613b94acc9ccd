import HuntDraw.Text.Quoted

/-! Decimal digits of every script, and the characters that are digits without being decimal, such
as superscripts and circled numbers. Only the former can be read as a number, and not too many of them. -/

namespace HuntDraw.Text

/-- The zeros of the decimal digits: each is followed by one to nine. -/
def decimalZeros : List Nat :=
  [48, 1632, 1776, 1984, 2406, 2534, 2662, 2790, 2918, 3046, 3174, 3302, 3430, 3558, 3664, 3792,
   3872, 4160, 4240, 6112, 6160, 6470, 6608, 6784, 6800, 6992, 7088, 7232, 7248, 42528, 43216,
   43264, 43472, 43504, 43600, 44016, 65296, 66720, 68912, 69734, 69872, 69942, 70096, 70384,
   70736, 70864, 71248, 71360, 71472, 71904, 72016, 72784, 73040, 73120, 92768, 92864, 93008,
   120782, 120792, 120802, 120812, 120822, 123200, 123632, 125264, 130032]

/-- Digits that no numeral is made of, as ranges. -/
def otherDigitRanges : List (Nat × Nat) :=
  [(178, 179), (185, 185), (4969, 4977), (6618, 6618), (8304, 8304), (8308, 8313), (8320, 8329),
   (9312, 9320), (9332, 9340), (9352, 9360), (9450, 9450), (9461, 9469), (9471, 9471),
   (10102, 10110), (10112, 10120), (10122, 10130), (68160, 68163), (69216, 69224), (69714, 69722),
   (127232, 127242)]

/-- The value of a decimal digit. -/
def decimalValue? (c : Char) : Option Nat :=
  if c.toNat < 128 then (if c.isDigit then some (c.toNat - 48) else none)
  else (decimalZeros.find? fun z => z ≤ c.toNat && c.toNat < z + 10).map (c.toNat - ·)

def isDecimal (c : Char) : Bool := (decimalValue? c).isSome

/-- Decimal digits, and the digits that no numeral is made of. -/
def isDigit (c : Char) : Bool := isDecimal c || inRanges otherDigitRanges c

/-- The value of a row of decimal digits read after `acc`. -/
def readDecimal (acc : Nat) : List Char → Option Nat
  | [] => some acc
  | c :: rest =>
    match decimalValue? c with
    | some v => readDecimal (10 * acc + v) rest
    | none => none

/-- The number a non-empty row of decimal digits stands for. -/
def readNumeral? : List Char → Option Nat
  | [] => none
  | cs => readDecimal 0 cs

/-- A numeral has at most this many digits. -/
def numeralLimit : Nat := 4300

/-- Why digits are not read. -/
inductive NumeralFault where
  | unreadable (text : String)
  | tooLong (digits : Nat)
  deriving DecidableEq, Repr

/-- A text that cannot be read is shown in quotes, up to 200 characters of it. -/
def NumeralFault.message : NumeralFault → String
  | .unreadable text => s!"invalid literal for int() with base 10: {String.ofList ((quoted text).toList.take 200)}"
  | .tooLong digits =>
    s!"Exceeds the limit ({numeralLimit} digits) for integer string conversion: value has {digits} digits; " ++
      "use sys.set_int_max_str_digits() to increase the limit"

/-- The number that digits stand for. Those in front are counted before one is met that cannot be read. -/
def parseNumeral (cs : List Char) : Except NumeralFault Nat :=
  let digits := (cs.takeWhile isDecimal).length
  if numeralLimit < digits then .error (.tooLong digits)
  else
    match readNumeral? cs with
    | some n => .ok n
    | none => .error (.unreadable (String.ofList cs))

end HuntDraw.Text
