import HuntDraw.Blob.Address
import HuntDraw.Csv.Table
import HuntDraw.Deflate.Size
import HuntDraw.Text.Stream

/-! Stores of blobs by key. Where blobs are files, a key cannot be a file and a directory at once. -/

namespace HuntDraw

/-- What a blob holds; an archive is known by its members. -/
inductive Content where
  | bytes (bs : Bytes)
  | archive (members : List (String × Content))

structure Blob where
  content : Content
  type : String

inductive Keeping where
  | memory
  | files
  deriving DecidableEq, Repr

structure BlobStore where
  bucket : String
  keeping : Keeping
  blobs : Fields Blob := []

namespace Content

def ofText (s : String) : Content := .bytes (Text.utf8 s)

/-- The bytes, unless they are those of an archive. -/
def bytes? : Content → Option Bytes
  | .bytes bs => some bs
  | .archive _ => none

/-- The number of bytes that a member takes in an archive: its bytes compressed, and its name and what is
noted down about it twice. -/
def memberSize (name : String) (bs : Bytes) : Nat := 76 + 2 * (Text.utf8 name).length + Deflate.size bs

/-- The number of bytes, unless there is an archive within an archive. -/
def size? : Content → Option Nat
  | .bytes bs => some bs.length
  | .archive members => do
    let sizes ← members.mapM fun p => (memberSize p.1) <$> p.2.bytes?
    return sizes.foldl (· + ·) 22

/-- How an archive starts: it is no text. -/
def archiveFault : Text.Utf8Fault := ⟨.invalidStart, 10, [0xFF]⟩

/-- The text of a file. -/
def text : Content → Except Text.Utf8Fault (List Char)
  | .bytes bs => Text.decodeFile bs
  | .archive _ => .error archiveFault

/-- The rows of a table in a file. -/
def fileRows : Content → Except Text.Utf8Fault (List Csv.Row)
  | .bytes bs => Csv.rows <$> Text.decodeMarkedFile bs
  | .archive _ => .error archiveFault

/-- The rows of a table. -/
def rows : Content → Except Text.Utf8Fault (List Csv.Row)
  | .bytes bs => Csv.readRows bs
  | .archive _ => .error archiveFault

end Content

namespace BlobStore

/-- The directory of a key. -/
def parent (key : String) : String := "/".intercalate (Text.split '/' key).dropLast

def isFile (s : BlobStore) (key : String) : Bool := s.blobs.has key

def isDirectory (s : BlobStore) (key : String) : Bool :=
  s.blobs.keys.any fun k => Text.startsWith k (key ++ "/")

/-- Whether a directory that a key lies in is a file. -/
def crossesFile (s : BlobStore) (key : String) : Bool :=
  s.blobs.keys.any fun k => Text.startsWith key (k ++ "/")

/-- Whether no path leads to a key. -/
def hasNoPath (s : BlobStore) (key : String) : Bool := s.keeping = .files && key.toList.contains '\x00'

/-- What keeps a file from being written at a key. -/
def obstacle (s : BlobStore) (key : String) : Option FileFault :=
  match s.keeping with
  | .memory => none
  | .files =>
    if s.hasNoPath key then some .nullCharacter
    else if s.isFile (parent key) then some .exists
    else if s.crossesFile key then some .notDirectory
    else if s.isDirectory key then some .isDirectory
    else none

/-- Writes a blob over whatever the key held, and gives its address. -/
def write (s : BlobStore) (key : String) (content : Content) (type : String) :
    Except BlobFault (BlobStore × String) := do
  let key ← Blob.checkKey key
  match s.obstacle key with
  | some f => .error (.file f)
  | none => return ({ s with blobs := s.blobs.put key ⟨content, type⟩ }, Blob.address s.bucket key)

def read (s : BlobStore) (key : String) : Except BlobFault Content := do
  let key ← Blob.checkKey key
  match s.blobs.get? key with
  | some b => return b.content
  | none =>
    if s.hasNoPath key then .error (.file .nullCharacter)
    else if s.keeping = .files ∧ s.isDirectory key then .error (.file .isDirectory)
    else .error (.notFound key)

def holds (s : BlobStore) (key : String) : Except BlobFault Bool := do
  let key ← Blob.checkKey key
  if s.isFile key then return true
  else if s.hasNoPath key then .error (.file .nullCharacter)
  else return s.keeping = .files && s.isDirectory key

def addressOf (s : BlobStore) (key : String) : Except BlobFault String := Blob.addressOf s.bucket key

def keyOf (s : BlobStore) (uri : String) : Except BlobFault String := Blob.keyOf s.bucket uri

/-- What a blob was declared to hold. -/
def typeOf (s : BlobStore) (key : String) : Except BlobFault String :=
  match s.blobs.get? key with
  | some b => .ok b.type
  | none => .error (.notFound key)

def keys (s : BlobStore) : List String := Text.sorted s.blobs.keys

end BlobStore
end HuntDraw
