import HuntDraw.Blob.Store
import HuntDraw.Text.PathName

/-! Files in a tree of directories, by their paths from its top. A directory is there when a file is
under it or when it was made. -/

namespace HuntDraw

structure Files where
  files : Fields Content := []
  /-- Directories that were made, whether or not anything is under them. -/
  made : List String := []

namespace Files

def joined (steps : List String) : String := "/".intercalate steps

def isFile (t : Files) (steps : List String) : Bool := t.files.has (joined steps)

def isDirectory (t : Files) (steps : List String) : Bool :=
  steps.isEmpty || (t.files.keys ++ t.made).any (fun k => Text.startsWith k (joined steps ++ "/"))
    || t.made.contains (joined steps)

/-- Goes the steps of a path from a directory: where they end, unless something is missing or is no
directory on the way. The top has nothing above it. -/
def walk (t : Files) (here : List String) : List String → Except FileFault (List String)
  | [] => .ok here
  | step :: rest =>
    if t.isFile here then .error .notDirectory
    else if !t.isDirectory here then .error .missing
    else if step = ".." then
      if here.isEmpty then .error .missing else walk t here.dropLast rest
    else walk t (here ++ [step]) rest

def locate (t : Files) (p : PathName) : Except FileFault (List String) :=
  if p.isAbsolute then .error .missing else t.walk [] p.steps

/-- What a file holds. -/
def read (t : Files) (p : PathName) : Except FileFault Content := do
  let steps ← t.locate p
  match t.files.get? (joined steps) with
  | some c => return c
  | none => .error (if t.isDirectory steps then .isDirectory else .missing)

/-- Whether anything is at a path. -/
def present (t : Files) (p : PathName) : Bool :=
  match t.locate p with
  | .ok steps => t.isFile steps || t.isDirectory steps
  | .error _ => false

/-- Makes a directory and those it is in, unless they are there. -/
def makeDirectory (t : Files) (p : PathName) : Except FileFault (Files × List String) :=
  if p.isAbsolute then .error .missing else go t [] p.steps
where
  go (t : Files) (here : List String) : List String → Except FileFault (Files × List String)
    | [] => .ok (t, here)
    | step :: rest =>
      if step = ".." then
        if here.isEmpty then .error .missing else go t here.dropLast rest
      else
        let next := here ++ [step]
        if t.isFile next then .error (if rest.isEmpty then .exists else .notDirectory)
        else if t.isDirectory next then go t next rest
        else go { t with made := t.made ++ [joined next] } next rest

/-- Sets what the file at the end of the given steps holds. -/
def put (t : Files) (steps : List String) (content : Content) : Files :=
  { t with files := t.files.put (joined steps) content }

/-- Writes a file into a directory. -/
def write (t : Files) (directory : List String) (name : String) (content : Content) : Except FileFault Files :=
  let steps := directory ++ [name]
  if t.isDirectory steps then .error .isDirectory else .ok (t.put steps content)

/-- What the paths of the files in a directory start with. -/
def startOf (directory : List String) : String := if directory.isEmpty then "" else joined directory ++ "/"

/-- The files in a directory, by their paths from there. -/
def under (t : Files) (directory : List String) : Fields Content :=
  let start := startOf directory
  t.files.filterMap fun p =>
    if Text.startsWith p.1 start then some (String.ofList (p.1.toList.drop start.length), p.2) else none

/-- Writes files into a directory, by their paths from there. -/
def writeAll (t : Files) (directory : List String) (files : Fields Content) : Files :=
  { t with files := files.foldl (fun fs p => Fields.put fs (startOf directory ++ p.1) p.2) t.files }

end Files
end HuntDraw
