import HuntDraw.Blob.Archive
import HuntDraw.Command.Run

/-! The program: runs a command line on the files of the working directory, and writes back the files
that it changed. -/

namespace HuntDraw.Program

/-- The bytes of a file as the library holds them. -/
def bytesOf (b : ByteArray) : Bytes := b.toList

/-- The variables in a listing: name and value with an equals sign between, each closed by a zero. -/
def readVariables (bs : Bytes) : Environment :=
  (bs.splitOn 0).filterMap fun entry =>
    match Text.decodeUtf8 entry with
    | .ok cs =>
      if cs.contains '=' then
        some (String.ofList (cs.takeWhile (· ≠ '=')), String.ofList ((cs.dropWhile (· ≠ '=')).drop 1))
      else none
    | .error _ => none

def environment : IO Environment := do
  try return readVariables (bytesOf (← IO.FS.readBinFile "/proc/self/environ"))
  catch _ => return []

/-- The files and directories below the working directory. -/
def readFiles : IO Files := do
  let top ← IO.currentDir
  let mut files : Files := {}
  for path in ← top.walkDir do
    let name := (path.toString.drop (top.toString.length + 1)).toString
    if ← path.isDir then files := { files with made := name :: files.made }
    else files := { files with files := (name, .bytes (bytesOf (← IO.FS.readBinFile path))) :: files.files }
  return files

/-- Writes the files that are new or hold something else than before. -/
def writeFiles (old new : Files) : IO Unit := do
  for directory in new.made do IO.FS.createDirAll directory
  for (path, content) in new.files do
    let bytes := content.encoded
    if (old.files.get? path).map Content.encoded != some bytes then
      let parent := BlobStore.parent path
      if !parent.isEmpty then IO.FS.createDirAll parent
      IO.FS.writeBinFile path ⟨bytes.toArray⟩

/-- A number to count ids from that no other run is likely to start at. -/
def firstId : IO Nat := do
  return (← IO.getRandomBytes 15).toList.foldl (fun n b => 256 * n + b.toNat) 0

def run (args : List String) : IO UInt32 := do
  let files ← readFiles
  let (report, place) := Command.run (← environment) args { files, ids := ← firstId }
  writeFiles files place.files
  (← IO.getStdout).putStr report.out
  (← IO.getStderr).putStr report.err
  match report.failure with
  | some f => (← IO.getStderr).putStrLn (f.kind ++ ": " ++ f.message)
  | none => pure ()
  return report.code.toUInt32

end HuntDraw.Program

def main (args : List String) : IO UInt32 := HuntDraw.Program.run args
