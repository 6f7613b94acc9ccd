import HuntDraw.Csv.Table

/-! Cells: flags are written Y and N, nothing is left blank, and whole numbers have no point. -/

namespace HuntDraw.Csv

inductive Cell where
  | blank
  | flag (b : Bool)
  | whole (i : Int)
  | number (x : Binary64)
  | text (s : String)
  deriving DecidableEq

namespace Cell

def ofInt? : Option Int → Cell
  | some i => .whole i
  | none => .blank

def ofNumber? : Option Binary64 → Cell
  | some x => .number x
  | none => .blank

def ofText? : Option String → Cell
  | some s => .text s
  | none => .blank

/-- A number without a fraction is written as a whole one. -/
def numberText (x : Binary64) : String :=
  match x.isInteger, x.truncate with
  | true, .ok i => toString i
  | _, _ => x.text

def render : Cell → String
  | .blank => ""
  | .flag b => if b then "Y" else "N"
  | .whole i => toString i
  | .number x => numberText x
  | .text s => s

end Cell

/-- The text of a table of cells. -/
def cellTable (header : List String) (rows : List (List Cell)) : String :=
  table header (rows.map (·.map Cell.render))

end HuntDraw.Csv
