/-!
# Checksums

The cyclic redundancy check of 32 bits with the reflected polynomial `0xEDB88320`, as Ethernet and
ZIP files use it. The register starts with all bits set and is inverted at the end.
-/

set_option autoImplicit false

namespace DocStore

/-- Bytes, as a file holds them. -/
abbrev Bytes := List UInt8

namespace Crc32

/-- The polynomial with the coefficient of the highest power in the lowest bit. -/
def polynomial : UInt32 := 0xEDB88320

/-- Shifts one bit out of the register. -/
def shiftBit (r : UInt32) : UInt32 :=
  if r &&& 1 = 1 then (r >>> 1) ^^^ polynomial else r >>> 1

/-- Shifts so many bits out of the register. -/
def shiftBits : Nat → UInt32 → UInt32
  | 0, r => r
  | n + 1, r => shiftBits n (shiftBit r)

/-- Takes a byte into the register. -/
def step (r : UInt32) (b : UInt8) : UInt32 := shiftBits 8 (r ^^^ b.toUInt32)

/-- Takes bytes into the register. -/
def run (r : UInt32) (bytes : Bytes) : UInt32 := bytes.foldl step r

/-- The checksum of bytes. -/
def checksum (bytes : Bytes) : UInt32 := run 0xFFFFFFFF bytes ^^^ 0xFFFFFFFF

end Crc32

end DocStore
