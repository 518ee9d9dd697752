import CompiledScript.Text.Hex

/-!
# UTF-8

Bytes are cut into pieces from left to right. A piece is a scalar value, or a longest run of bytes
that begins a well-formed sequence but does not complete one; a byte that can begin none stands
alone. Lenient decoding puts the replacement character in the place of each malformed piece, and
strict decoding reports the first one.
-/

namespace CompiledScript.Text.Utf8

/-- Why a piece is malformed. -/
inductive Reason where
  | start
  | continuation
  | truncated
  deriving DecidableEq

/-- A scalar value, or the bytes of a malformed piece. -/
inductive Piece where
  | scalar (char : Char)
  | malformed (reason : Reason) (bytes : List UInt8)

/-- What a leading byte announces: the range of the second byte, the number of bytes after the
first, and the leading bits of the scalar value. -/
structure Lead where
  low : UInt8
  high : UInt8
  tails : Nat
  payload : Nat

/-- The announcement of a leading byte of a sequence of two bytes or more. The ranges of the second
byte leave out overlong forms, surrogates, and values above the last scalar. -/
def lead? (byte : UInt8) : Option Lead :=
  if byte < 0xC2 then none
  else if byte < 0xE0 then some ⟨0x80, 0xBF, 1, byte.toNat - 0xC0⟩
  else if byte = 0xE0 then some ⟨0xA0, 0xBF, 2, 0⟩
  else if byte = 0xED then some ⟨0x80, 0x9F, 2, 0xD⟩
  else if byte < 0xF0 then some ⟨0x80, 0xBF, 2, byte.toNat - 0xE0⟩
  else if byte = 0xF0 then some ⟨0x90, 0xBF, 3, 0⟩
  else if byte < 0xF4 then some ⟨0x80, 0xBF, 3, byte.toNat - 0xF0⟩
  else if byte = 0xF4 then some ⟨0x80, 0x8F, 3, 4⟩
  else none

/-- Whether a byte can continue a sequence after the second byte. -/
def isTail (byte : UInt8) : Bool :=
  0x80 ≤ byte && byte ≤ 0xBF

/-- A value with the six bits of a continuation byte appended. -/
def extend (value : Nat) (byte : UInt8) : Nat :=
  64 * value + (byte.toNat - 0x80)

def pieces : List UInt8 → List Piece
  | [] => []
  | a :: rest =>
    if a < 0x80 then .scalar (Char.ofNat a.toNat) :: pieces rest
    else match lead? a with
      | none => .malformed .start [a] :: pieces rest
      | some lead => match rest with
        | [] => [.malformed .truncated [a]]
        | b :: rest₂ =>
          if lead.low ≤ b && b ≤ lead.high then
            let two := extend lead.payload b
            if lead.tails = 1 then .scalar (Char.ofNat two) :: pieces rest₂
            else match rest₂ with
              | [] => [.malformed .truncated [a, b]]
              | c :: rest₃ =>
                if isTail c then
                  let three := extend two c
                  if lead.tails = 2 then .scalar (Char.ofNat three) :: pieces rest₃
                  else match rest₃ with
                    | [] => [.malformed .truncated [a, b, c]]
                    | d :: rest₄ =>
                      if isTail d then .scalar (Char.ofNat (extend three d)) :: pieces rest₄
                      else .malformed .continuation [a, b, c] :: pieces (d :: rest₄)
                else .malformed .continuation [a, b] :: pieces (c :: rest₃)
          else .malformed .continuation [a] :: pieces (b :: rest₂)

def replacement : Char := '�'

def Piece.lenient : Piece → Char
  | .scalar char => char
  | .malformed _ _ => replacement

/-- The text of a byte string, with every malformed piece replaced. -/
def decodeLenient (bytes : List UInt8) : String :=
  String.ofList ((pieces bytes).map Piece.lenient)

/-- A malformed piece and the position of its first byte. -/
structure Malformed where
  position : Nat
  reason : Reason
  bytes : List UInt8

def Reason.text : Reason → String
  | .start => "invalid start byte"
  | .continuation => "invalid continuation byte"
  | .truncated => "unexpected end of data"

/-- The piece in words: a single byte is shown, and a longer piece is given by its first and its
last position. -/
def Malformed.message (piece : Malformed) : String :=
  let place := match piece.bytes with
    | [byte] => "byte 0x" ++ Hex.padded .lower 2 byte.toNat ++ s!" in position {piece.position}"
    | bytes =>
      let last := piece.position + bytes.length - 1
      s!"bytes in position {piece.position}-{last}"
  "'utf-8' codec can't decode " ++ place ++ ": " ++ piece.reason.text

/-- The characters of a piece list, or its first malformed piece. -/
def strict (position : Nat) : List Piece → Except Malformed (List Char)
  | [] => .ok []
  | .scalar char :: rest => (strict (position + char.utf8Size) rest).map (char :: ·)
  | .malformed reason bytes :: _ => .error ⟨position, reason, bytes⟩

/-- The text of a byte string that is well formed throughout. -/
def decodeStrict (bytes : List UInt8) : Except Malformed String :=
  (strict 0 (pieces bytes)).map String.ofList

end CompiledScript.Text.Utf8
