import HuntDraw.Text.Order

/-! Paths of files in normal form: no empty step and no step that stays where it is. Steps that climb
are kept. -/

namespace HuntDraw

structure PathName where
  /-- The slashes that an absolute path starts with. -/
  root : String := ""
  steps : List String := []
  deriving DecidableEq, Repr

namespace PathName

/-- One leading slash and three or more mean the same; two are kept. -/
def rootOf (cs : List Char) : String :=
  match cs.takeWhile (· = '/') with
  | [] => ""
  | ['/', '/'] => "//"
  | _ => "/"

def ofText (s : String) : PathName :=
  ⟨rootOf s.toList, (Text.split '/' s).filter fun step => step ≠ "" && step ≠ "."⟩

def text (p : PathName) : String :=
  if p.root.isEmpty ∧ p.steps.isEmpty then "." else p.root ++ "/".intercalate p.steps

def isAbsolute (p : PathName) : Bool := !p.root.isEmpty

/-- A path as seen from a directory. -/
def under (base p : PathName) : PathName :=
  if p.isAbsolute then p else { base with steps := base.steps ++ p.steps }

def parent (p : PathName) : PathName := { p with steps := p.steps.dropLast }

def name (p : PathName) : String := p.steps.getLast?.getD ""

/-- The name up to its last point, which may neither begin nor end it. -/
def stem (p : PathName) : String :=
  let cs := p.name.toList
  let ending := cs.reverse.takeWhile (· ≠ '.')
  let start := cs.take (cs.length - ending.length - 1)
  if ending.length = cs.length ∨ ending.isEmpty ∨ start.isEmpty then p.name else String.ofList start

end PathName
end HuntDraw
