import HuntDraw.Text.Utf8

/-! Comma-separated text: records of cells, one record a line. A cell is quoted when it has to be, and
a quote inside quotes is written twice. -/

namespace HuntDraw.Csv

/-- Where the reader stands. -/
inductive Mode where
  /-- Before a record. -/
  | record
  /-- After the carriage return that ended a record: a line feed still belongs to it. -/
  | afterReturn
  /-- Before a cell. -/
  | cell
  /-- In a cell without quotes, or behind the closing quote. -/
  | plain
  | quoted
  /-- Behind a quote inside quotes. -/
  | quote
  deriving DecidableEq, Repr

structure Reader where
  mode : Mode := .record
  cell : List Char := []
  row : List (List Char) := []
  rows : List (List (List Char)) := []
  deriving DecidableEq, Repr

namespace Reader

def isBreak (c : Char) : Bool := c = '\n' || c = '\r'

def endCell (r : Reader) (mode : Mode) : Reader :=
  { r with mode, cell := [], row := r.row ++ [r.cell] }

def endRow (r : Reader) (c : Char) : Reader :=
  { mode := if c = '\r' then .afterReturn else .record, rows := r.rows ++ [r.row] }

def keep (r : Reader) (mode : Mode) (c : Char) : Reader := { r with mode, cell := r.cell ++ [c] }

/-- A character where a cell may start. -/
def openCell (r : Reader) (c : Char) : Reader :=
  if isBreak c then endRow (endCell r .record) c
  else if c = '"' then { r with mode := .quoted }
  else if c = ',' then endCell r .cell
  else keep r .plain c

/-- A character where a record may start: a break makes a record without cells. -/
def openRow (r : Reader) (c : Char) : Reader := if isBreak c then endRow r c else openCell r c

def step (r : Reader) (c : Char) : Reader :=
  match r.mode with
  | .record => openRow r c
  | .afterReturn => if c = '\n' then { r with mode := .record } else openRow r c
  | .cell => openCell r c
  | .plain =>
    if isBreak c then endRow (endCell r .record) c
    else if c = ',' then endCell r .cell
    else keep r .plain c
  | .quoted => if c = '"' then { r with mode := .quote } else keep r .quoted c
  | .quote =>
    if c = '"' then keep r .quoted c
    else if isBreak c then endRow (endCell r .record) c
    else if c = ',' then endCell r .cell
    else keep r .plain c

/-- At the end of the text an open record is complete. -/
def finish (r : Reader) : List (List (List Char)) :=
  match r.mode with
  | .record | .afterReturn => r.rows
  | _ => r.rows ++ [r.row ++ [r.cell]]

end Reader

/-- The records of a text. -/
def records (cs : List Char) : List (List (List Char)) := (cs.foldl Reader.step {}).finish

def needsQuotes (cell : List Char) : Bool := cell.any fun c => c = ',' || c = '"' || c = '\n'

def quoteCell (cell : List Char) : List Char :=
  '"' :: (cell.flatMap (fun c => if c = '"' then ['"', '"'] else [c]) ++ ['"'])

def writeCell (cell : List Char) : List Char := if needsQuotes cell then quoteCell cell else cell

/-- One record. A single empty cell is quoted, since it would read as no cell at all. -/
def writeRecord (cells : List (List Char)) : List Char :=
  (if cells = [[]] then quoteCell [] else (cells.map writeCell).intersperse [','] |>.flatten) ++ ['\n']

def write (records : List (List (List Char))) : List Char := records.flatMap writeRecord

end HuntDraw.Csv
