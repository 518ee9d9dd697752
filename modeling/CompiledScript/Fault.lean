import CompiledScript.Deflate.Fault
import CompiledScript.Text.Hex

/-!
# Faults

Everything that can go wrong while bytes are read, unpacked or decoded, one constructor for each
cause with the values that its message shows. Causes fall into kinds, by which a caller decides
what to do, and `Fault.message` is the only place where they are put into words.
-/

namespace CompiledScript

/-- Why an operation on bytes failed. -/
inductive Fault where
  | unknownSignature (found : List UInt8)
  | unsupportedGame (game : String)
  | containerSignature
  | containerVersion (version : Nat)
  /-- The blocks of the container are packed by another method. -/
  | containerCompression
  | containerPlatform
  | containerEncrypted
  /-- No embedded scripts are known for this game. -/
  | noScriptSignature (game : String)
  /-- A block header names another position than its own. -/
  | blockMisplaced (declared actual : Int)
  | blockNegative (position : Int)
  | blockTooSmall (position size compressed : Int)
  | badStream (cause : Deflate.Fault)
  | seekOutside (offset : Int) (length : Nat)
  | readOutside (count offset : Int) (length : Nat)
  /-- A text does not start inside the buffer. -/
  | textOutside (offset : Int)
  | textUnterminated (offset : Int)
  /-- A byte stands for no instruction. -/
  | invalidOpcode (byte : UInt8) (offset : Int)
  | checksumUnmatched (checksum start : Int)
  /-- A function is decoded before the size of its code is known. -/
  | sizeUnknown (function : String)
  /-- The reader has released its buffer. -/
  | closed
  /-- An alignment to multiples of zero. -/
  | zeroBoundary

namespace Fault

/-- What a caller can tell about a fault without its details. -/
inductive Kind where
  | format
  | unsupported
  | corruption
  | truncation
  | opcode
  | checksum
  | decode
  | closed
  | zeroBoundary
  deriving DecidableEq

def kind : Fault → Kind
  | .unknownSignature _ | .unsupportedGame _ | .containerSignature | .containerVersion _ => .format
  | .containerCompression | .containerPlatform | .containerEncrypted
  | .noScriptSignature _ => .unsupported
  | .blockMisplaced _ _ | .blockNegative _ | .blockTooSmall _ _ _ | .badStream _ => .corruption
  | .seekOutside _ _ | .readOutside _ _ _ | .textOutside _ | .textUnterminated _ => .truncation
  | .invalidOpcode _ _ => .opcode
  | .checksumUnmatched _ _ => .checksum
  | .sizeUnknown _ => .decode
  | .closed => .closed
  | .zeroBoundary => .zeroBoundary

/-- Whether the fault is one of the reader and not of the bytes. Whoever goes on after other faults
stops at this one. -/
def isFatal (fault : Fault) : Bool :=
  fault.kind = .closed || fault.kind = .zeroBoundary

open Text

def message : Fault → String
  | .unknownSignature found => "Unknown script magic " ++ Hex.ofBytes found
  | .unsupportedGame game => "Unsupported game '" ++ game ++ "'"
  | .containerSignature => "Invalid Fast File magic"
  | .containerVersion version => "Invalid Fast File version " ++ Hex.offset version
  | .containerCompression => "Only ZLIB Fast Files are supported"
  | .containerPlatform => "Only PC Fast Files are supported"
  | .containerEncrypted => "Encrypted Fast Files are not supported"
  | .noScriptSignature game => "No script signature for game '" ++ game ++ "'"
  | .blockMisplaced declared actual =>
    "Block position " ++ Hex.offset declared ++ " does not match stream position "
      ++ Hex.offset actual
  | .blockNegative position => "Negative block sizes in header at " ++ Hex.offset position
  | .blockTooSmall position size compressed =>
    "Block at " ++ Hex.offset position ++ " is smaller than its compressed data ("
      ++ Hex.offset size ++ " < " ++ Hex.offset compressed ++ ")"
  | .badStream cause => "Bad deflate block: " ++ cause.message
  | .seekOutside offset length =>
    "Seek to " ++ Hex.offset offset ++ " outside buffer of " ++ Hex.offset length ++ " bytes"
  | .readOutside count offset length =>
    s!"Read of {count} bytes at " ++ Hex.offset offset ++ " exceeds buffer of "
      ++ Hex.offset length ++ " bytes"
  | .textOutside offset => "String offset " ++ Hex.offset offset ++ " outside buffer"
  | .textUnterminated offset => "Unterminated string at " ++ Hex.offset offset
  | .invalidOpcode byte offset =>
    "Invalid opcode 0x" ++ Hex.padded .upper 2 byte.toNat ++ " at " ++ Hex.offset offset
  | .checksumUnmatched checksum start =>
    "Checksum " ++ Hex.checksum checksum ++ " never matched byte-code starting at "
      ++ Hex.offset start
  | .sizeUnknown function => "Byte-code size of " ++ function ++ " was never recovered"
  | .closed => "I/O operation on closed cursor"
  | .zeroBoundary => "alignment to multiples of zero"

end Fault
end CompiledScript
