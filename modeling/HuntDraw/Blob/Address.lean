import HuntDraw.Text.Order
import HuntDraw.Text.Quoted

/-! Where blobs are: keys inside a bucket, and the addresses that name bucket and key. -/

namespace HuntDraw

/-- What stands in the way of a file. -/
inductive FileFault where
  | missing
  | exists
  | isDirectory
  | notDirectory
  /-- No path holds a null character. -/
  | nullCharacter
  deriving DecidableEq, Repr

def FileFault.kind : FileFault → String
  | .missing => "FileNotFoundError"
  | .exists => "FileExistsError"
  | .isDirectory => "IsADirectoryError"
  | .notDirectory => "NotADirectoryError"
  | .nullCharacter => "ValueError"

def FileFault.message : FileFault → String
  | .nullCharacter => "embedded null byte"
  | f => f.kind

inductive BlobFault where
  | badKey (key : String)
  | notAnAddress (uri : String)
  | incomplete (uri : String)
  | otherBucket (uri found expected : String)
  | notFound (key : String)
  | file (fault : FileFault)
  deriving DecidableEq, Repr

namespace BlobFault

def message : BlobFault → String
  | badKey key => s!"Invalid blob key: {Text.quoted key}"
  | notAnAddress uri => s!"Not a blob URI: {Text.quoted uri}"
  | incomplete uri => s!"Blob URI must name a bucket and a key: {Text.quoted uri}"
  | otherBucket uri found expected =>
    s!"Blob URI {Text.quoted uri} belongs to bucket {Text.quoted found}, not {Text.quoted expected}"
  | notFound key => s!"Blob not found: {key}"
  | file f => f.message

def kind : BlobFault → String
  | notFound _ => "KeyError"
  | file f => f.kind
  | _ => "ValueError"

end BlobFault

namespace Blob

/-- The steps of a path may not be empty, and may not stay or climb. -/
def isStep (part : List Char) : Bool := part ≠ [] && part ≠ ['.'] && part ≠ ['.', '.']

def isKey (key : List Char) : Bool := !key.contains '\\' && (Text.splitChars '/' key).all isStep

/-- A key is a relative path of proper steps. -/
def checkKey (key : String) : Except BlobFault String :=
  if isKey key.toList then .ok key else .error (.badKey key)

def scheme : String := "blob://"

def isAddress (uri : String) : Bool := Text.startsWith uri scheme

/-- The address of a key in a bucket. -/
def address (bucket key : String) : String := scheme ++ bucket ++ "/" ++ key

/-- Bucket and key of an address: the first slash behind the scheme parts them. -/
def parseAddress (uri : String) : Except BlobFault (String × String) :=
  if !isAddress uri then .error (.notAnAddress uri)
  else
    let rest := uri.toList.drop scheme.length
    let bucket := rest.takeWhile (· ≠ '/')
    let key := (rest.dropWhile (· ≠ '/')).drop 1
    if bucket.isEmpty ∨ key.isEmpty then .error (.incomplete uri)
    else .ok (String.ofList bucket, String.ofList key)

/-- The address of a key, once the key is seen to be one. -/
def addressOf (bucket key : String) : Except BlobFault String := address bucket <$> checkKey key

/-- The key that an address names in a bucket. -/
def keyOf (bucket uri : String) : Except BlobFault String := do
  let (found, key) ← parseAddress uri
  if found ≠ bucket then .error (.otherBucket uri found bucket) else checkKey key

end Blob
end HuntDraw
