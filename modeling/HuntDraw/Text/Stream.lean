import HuntDraw.Text.Utf8

/-! Text of files, which are decoded piece by piece. What is incomplete at the end of a piece is decoded
with the next one, so that the place of a fault counts from the start of its piece. -/

namespace HuntDraw.Text

/-- How many bytes are read at a time. -/
def pieceSize : Nat := 8192

/-- The text of a piece that more bytes may follow, and the bytes that are incomplete. -/
def decodeOpen (bs : Bytes) : Except Utf8Fault (List Char × Bytes) :=
  match decodeUtf8 bs with
  | .ok cs => .ok (cs, [])
  | .error f =>
    if f.kind = .unexpectedEnd then (fun cs => (cs, bs.drop f.position)) <$> decodeUtf8 (bs.take f.position)
    else .error f

/-- The text of the bytes behind those that are `pending`, in at most `fuel` pieces. -/
def decodePieces : Nat → Bytes → Bytes → Except Utf8Fault (List Char)
  | 0, pending, _ => decodeUtf8 pending
  | fuel + 1, pending, bs =>
    if bs.isEmpty then decodeUtf8 pending
    else do
      let (cs, pending) ← decodeOpen (pending ++ bs.take pieceSize)
      return cs ++ (← decodePieces fuel pending (bs.drop pieceSize))

/-- The text of a file. -/
def decodeFile (bs : Bytes) : Except Utf8Fault (List Char) := decodePieces (bs.length + 1) [] bs

/-- The text of a file without a leading byte order mark, which may also be cut short. -/
def decodeMarkedFile (bs : Bytes) : Except Utf8Fault (List Char) :=
  match bs with
  | [] | [0xEF] | [0xEF, 0xBB] => .ok []
  | 0xEF :: 0xBB :: 0xBF :: rest => do
    let (cs, pending) ← decodeOpen (rest.take (pieceSize - 3))
    return cs ++ (← decodePieces (rest.length + 1) pending (rest.drop (pieceSize - 3)))
  | bs => decodeFile bs

/-- Every line ends in a line feed. -/
def unifyLines : List Char → List Char
  | [] => []
  | '\r' :: '\n' :: rest => '\n' :: unifyLines rest
  | '\r' :: rest => '\n' :: unifyLines rest
  | c :: rest => c :: unifyLines rest

end HuntDraw.Text
