import HuntDraw.Blob.Store

/-! The bytes of archives: the members one after the other, each behind a note about it, then a directory
of all the notes, and where that starts. Members are kept as they are, without compression. -/

namespace HuntDraw.Archive

/-- One bit of the checksum: it moves down, and what falls off it is folded back. -/
def crcBit (c : UInt32) : UInt32 := if c % 2 = 1 then (c >>> 1) ^^^ 0xEDB88320 else c >>> 1

def crcByte (c : UInt32) (b : UInt8) : UInt32 :=
  (List.range 8).foldl (fun c _ => crcBit c) (c ^^^ b.toUInt32)

/-- The checksum of bytes. -/
def crc (bs : Bytes) : UInt32 := bs.foldl crcByte 0xFFFFFFFF ^^^ 0xFFFFFFFF

/-- A number in the given count of bytes, the lowest one first. -/
def number : Nat → Nat → Bytes
  | 0, _ => []
  | count + 1, n => UInt8.ofNat (n % 256) :: number count (n / 256)

/-- What is noted down of a member: the version that it needs, that its name is in UTF-8, no compression,
the first day that can be noted, its checksum, its size twice, and the size of its name. -/
def facts (name : String) (bs : Bytes) : Bytes :=
  number 2 20 ++ number 2 0x800 ++ number 2 0 ++ number 2 0 ++ number 2 33 ++ number 4 (crc bs).toNat
    ++ number 4 bs.length ++ number 4 bs.length ++ number 2 (Text.utf8 name).length ++ number 2 0

/-- A member behind its note. -/
def memberBytes (name : String) (bs : Bytes) : Bytes :=
  number 4 0x04034B50 ++ facts name bs ++ Text.utf8 name ++ bs

/-- The entry of a member in the directory: where the member starts. -/
def entryBytes (name : String) (bs : Bytes) (start : Nat) : Bytes :=
  number 4 0x02014B50 ++ number 2 20 ++ facts name bs ++ number 2 0 ++ number 2 0 ++ number 2 0
    ++ number 4 0 ++ number 4 start ++ Text.utf8 name

/-- Members and directory, the first member starting at the given place. -/
def parts (start : Nat) : List (String × Bytes) → Bytes × Bytes
  | [] => ([], [])
  | (name, bs) :: rest =>
    let m := memberBytes name bs
    let (members, directory) := parts (start + m.length) rest
    (m ++ members, entryBytes name bs start ++ directory)

def encode (members : List (String × Bytes)) : Bytes :=
  let (body, directory) := parts 0 members
  body ++ directory ++ number 4 0x06054B50 ++ number 4 0 ++ number 2 members.length
    ++ number 2 members.length ++ number 4 directory.length ++ number 4 body.length ++ number 2 0

end HuntDraw.Archive

namespace HuntDraw.Content

mutual

/-- The bytes of a file that holds the content. -/
def encoded : Content → Bytes
  | .bytes bs => bs
  | .archive members => Archive.encode (encodedMembers members)

def encodedMembers : List (String × Content) → List (String × Bytes)
  | [] => []
  | (name, c) :: rest => (name, encoded c) :: encodedMembers rest

end

end HuntDraw.Content
