import HuntDraw.Text.Blank
import HuntDraw.Text.CaseTable

/-! Case folding and case mapping of text, by the tables of the character properties. -/

namespace HuntDraw.Text

def CaseRun.holds (r : CaseRun) (n : Nat) : Bool :=
  r.first ≤ n && n ≤ r.last && (n - r.first) % r.step = 0

/-- The image of one character under a pair of tables. -/
def mapCase (runs : List CaseRun) (expansions : List (Nat × List Nat)) (c : Char) : List Char :=
  match runs.find? (·.holds c.toNat) with
  | some r => [Char.ofNat (c.toNat + r.offset).toNat]
  | none =>
    match expansions.find? (·.1 = c.toNat) with
    | some e => e.2.map Char.ofNat
    | none => [c]

def foldChar (c : Char) : List Char :=
  if c.toNat < 128 then [c.toLower] else mapCase foldRuns foldExpansions c

/-- Full case folding. -/
def foldCase (cs : List Char) : List Char := cs.flatMap foldChar

def lowerChar (c : Char) : List Char :=
  if c.toNat < 128 then [c.toLower] else mapCase lowerRuns lowerExpansions c

def upperChar (c : Char) : List Char :=
  if c.toNat < 128 then [c.toUpper] else mapCase upperRuns upperExpansions c

private def isCased (c : Char) : Bool := inRanges casedRanges c
private def isCaseIgnorable (c : Char) : Bool := inRanges caseIgnorableRanges c

private def startsCased (cs : List Char) : Bool :=
  match cs.dropWhile isCaseIgnorable with
  | [] => false
  | c :: _ => isCased c

/-- Lower case of `cs` after the characters `before`, nearest first. A capital sigma after a cased
character and not before one is the final one. -/
def lowerAfter (before : List Char) : List Char → List Char
  | [] => []
  | c :: rest =>
    let here :=
      if c.toNat = 931 then
        (if startsCased before && !startsCased rest then [Char.ofNat 962] else [Char.ofNat 963])
      else lowerChar c
    here ++ lowerAfter (c :: before) rest

def lower (s : String) : String := String.ofList (lowerAfter [] s.toList)

def upper (s : String) : String := String.ofList (s.toList.flatMap upperChar)

end HuntDraw.Text
