/-! UTF-8 text: decoding with the exact place of the first fault, and encoding. -/

namespace HuntDraw

abbrev Bytes := List UInt8

namespace Text

inductive Utf8Fault.Kind where
  | invalidStart
  | invalidContinuation
  | unexpectedEnd
  deriving DecidableEq, Repr

/-- The bytes that could not be decoded and where they start. -/
structure Utf8Fault where
  kind : Utf8Fault.Kind
  position : Nat
  bytes : Bytes
  deriving DecidableEq, Repr

def Utf8Fault.Kind.reason : Utf8Fault.Kind → String
  | .invalidStart => "invalid start byte"
  | .invalidContinuation => "invalid continuation byte"
  | .unexpectedEnd => "unexpected end of data"

private def hexByte (b : UInt8) : String :=
  String.ofList ((if b < 16 then ['0'] else []) ++ Nat.toDigits 16 b.toNat)

def Utf8Fault.message (f : Utf8Fault) : String :=
  let place := match f.bytes with
    | [b] => s!"byte 0x{hexByte b} in position {f.position}"
    | bs => s!"bytes in position {f.position}-{f.position + bs.length - 1}"
  s!"'utf-8' codec can't decode {place}: {f.kind.reason}"

def isContinuation (b : UInt8) : Bool := 0x80 ≤ b && b < 0xC0

/-- Whether a second byte may follow a leading one: the shortest form is required, and surrogates and
values beyond the last character are not encoded. -/
def mayFollow (lead second : UInt8) : Bool :=
  isContinuation second &&
    (if lead = 0xE0 then 0xA0 ≤ second
     else if lead = 0xED then second < 0xA0
     else if lead = 0xF0 then 0x90 ≤ second
     else if lead = 0xF4 then second < 0x90
     else true)

private def low6 (b : UInt8) : Nat := b.toNat % 64

/-- Decodes the bytes from position `pos` on. -/
def decodeFrom (pos : Nat) : Bytes → Except Utf8Fault (List Char)
  | [] => .ok []
  | b :: rest =>
    if b < 0x80 then (Char.ofNat b.toNat :: ·) <$> decodeFrom (pos + 1) rest
    else if b < 0xC2 then .error ⟨.invalidStart, pos, [b]⟩
    else if b < 0xE0 then
      match rest with
      | [] => .error ⟨.unexpectedEnd, pos, [b]⟩
      | c :: rest =>
        if !isContinuation c then .error ⟨.invalidContinuation, pos, [b]⟩
        else (Char.ofNat (b.toNat % 32 * 64 + low6 c) :: ·) <$> decodeFrom (pos + 2) rest
    else if b < 0xF0 then
      match rest with
      | [] => .error ⟨.unexpectedEnd, pos, [b]⟩
      | [c] =>
        if !mayFollow b c then .error ⟨.invalidContinuation, pos, [b]⟩
        else .error ⟨.unexpectedEnd, pos, [b, c]⟩
      | c :: d :: rest =>
        if !mayFollow b c then .error ⟨.invalidContinuation, pos, [b]⟩
        else if !isContinuation d then .error ⟨.invalidContinuation, pos, [b, c]⟩
        else (Char.ofNat (b.toNat % 16 * 4096 + low6 c * 64 + low6 d) :: ·) <$> decodeFrom (pos + 3) rest
    else if b < 0xF5 then
      match rest with
      | [] => .error ⟨.unexpectedEnd, pos, [b]⟩
      | [c] =>
        if !mayFollow b c then .error ⟨.invalidContinuation, pos, [b]⟩
        else .error ⟨.unexpectedEnd, pos, [b, c]⟩
      | [c, d] =>
        if !mayFollow b c then .error ⟨.invalidContinuation, pos, [b]⟩
        else if !isContinuation d then .error ⟨.invalidContinuation, pos, [b, c]⟩
        else .error ⟨.unexpectedEnd, pos, [b, c, d]⟩
      | c :: d :: e :: rest =>
        if !mayFollow b c then .error ⟨.invalidContinuation, pos, [b]⟩
        else if !isContinuation d then .error ⟨.invalidContinuation, pos, [b, c]⟩
        else if !isContinuation e then .error ⟨.invalidContinuation, pos, [b, c, d]⟩
        else (Char.ofNat (b.toNat % 8 * 262144 + low6 c * 4096 + low6 d * 64 + low6 e) :: ·) <$>
          decodeFrom (pos + 4) rest
    else .error ⟨.invalidStart, pos, [b]⟩

def decodeUtf8 (bs : Bytes) : Except Utf8Fault (List Char) := decodeFrom 0 bs

/-- Text of a document: one leading byte order mark is dropped, and positions count after it. -/
def decodeDocument (bs : Bytes) : Except Utf8Fault (List Char) :=
  match bs with
  | 0xEF :: 0xBB :: 0xBF :: rest => decodeUtf8 rest
  | _ => decodeUtf8 bs

def encodeChar (c : Char) : Bytes :=
  let n := c.toNat
  let cont (m : Nat) : UInt8 := UInt8.ofNat (0x80 + m % 64)
  if n < 0x80 then [UInt8.ofNat n]
  else if n < 0x800 then [UInt8.ofNat (0xC0 + n / 64), cont n]
  else if n < 0x10000 then [UInt8.ofNat (0xE0 + n / 4096), cont (n / 64), cont n]
  else [UInt8.ofNat (0xF0 + n / 262144), cont (n / 4096), cont (n / 64), cont n]

def encodeUtf8 (cs : List Char) : Bytes := cs.flatMap encodeChar

/-- The UTF-8 bytes of a text. -/
def utf8 (s : String) : Bytes := encodeUtf8 s.toList

end Text
end HuntDraw
