/-!
# CRC-32

The checksum of a byte string is that of the reflected polynomial `0xEDB88320`: a register that
starts with all bits set takes in one byte after another, and the checksum is its complement. The
checksum of the empty byte string is zero, and a checksum can be carried on with further bytes.
-/

namespace CompiledScript.Bytes.Crc32

/-- One bit of the division by the reflected polynomial. -/
def shift (register : UInt32) : UInt32 :=
  if register &&& 1 = 1 then (register >>> 1) ^^^ 0xEDB88320 else register >>> 1

/-- The register after one more byte. -/
def absorb (register : UInt32) (byte : UInt8) : UInt32 :=
  shift (shift (shift (shift (shift (shift (shift (shift (register ^^^ byte.toUInt32))))))))

/-- The checksum of a byte string followed by one more byte, from the checksum so far. -/
def extend (checksum : UInt32) (byte : UInt8) : UInt32 :=
  ~~~ absorb (~~~ checksum) byte

def checksum (data : ByteArray) : UInt32 :=
  ~~~ data.foldl absorb 0xFFFFFFFF

end CompiledScript.Bytes.Crc32
