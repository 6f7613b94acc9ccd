import HuntDraw.Csv.Text
import HuntDraw.Data.Json

/-! Tables in comma-separated text: the first record names the columns of the others. -/

namespace HuntDraw.Csv

/-- A record by column. Cells are missing where the record is shorter than the header; cells beyond
the header are surplus. -/
structure Row where
  cells : Fields (Option String)
  surplus : List String
  deriving DecidableEq, Repr

namespace Row

def zipCells : List String → List String → List (String × Option String)
  | [], _ => []
  | h :: hs, [] => (h, none) :: zipCells hs []
  | h :: hs, c :: cs => (h, some c) :: zipCells hs cs

/-- Of columns with one name the last cell counts, at the place of the first. -/
def ofCells (header cells : List String) : Row :=
  ⟨Fields.ofPairs (zipCells header cells), cells.drop header.length⟩

/-- The cells as fields, missing ones null. -/
def fields (r : Row) : Fields Json := r.cells.map fun p => (p.1, Json.ofText? p.2)

end Row

def textRow (cells : List (List Char)) : List String := cells.map String.ofList

/-- The rows below the header; records without cells are passed over. -/
def rows (cs : List Char) : List Row :=
  match records cs with
  | [] => []
  | header :: rest =>
    (rest.filter (!·.isEmpty)).map fun cells => Row.ofCells (textRow header) (textRow cells)

/-- The rows of a document. -/
def readRows (content : Bytes) : Except Text.Utf8Fault (List Row) := rows <$> Text.decodeDocument content

/-- The text of a table. -/
def table (header : List String) (rows : List (List String)) : String :=
  String.ofList (write ((header :: rows).map (·.map String.toList)))

end HuntDraw.Csv
