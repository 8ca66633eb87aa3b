import CommandLog.Bytes

/-!
# The record checksum, CRC-64/XZ

A cyclic redundancy check over 64-bit words: the register starts with all bits set, takes in the
message byte by byte, least significant bit first, and is inverted at the end.

* `CommandLog.Checksum.shiftBit` – the register moved on by one bit;
* `CommandLog.Checksum.absorb` – the register after one more message byte;
* `CommandLog.Checksum.of` – the checksum of a message.

The register is updated bit by bit and not through a table. Every such step is a bijection of the
register, because the polynomial has its top bit set, and this is what makes a single changed
byte visible in the result whatever follows it.
-/

namespace CommandLog.Checksum

/-- The generator polynomial, reflected. -/
def polynomial : UInt64 := 0xC96C5795D7870F42

/-- The register moved on by one bit. -/
def shiftBit (register : UInt64) : UInt64 :=
  if register &&& 1 = 1 then (register >>> 1) ^^^ polynomial else register >>> 1

/-- The register moved on by one byte. -/
def shiftByte (register : UInt64) : UInt64 :=
  shiftBit (shiftBit (shiftBit (shiftBit (shiftBit (shiftBit (shiftBit (shiftBit register)))))))

/-- The register after one more byte of the message. -/
def absorb (register : UInt64) (b : UInt8) : UInt64 :=
  shiftByte (register ^^^ b.toUInt64)

/-- The register after a message, started from a given one. -/
def run (register : UInt64) (message : Bytes) : UInt64 :=
  message.foldl absorb register

/-- **The checksum of a message.** -/
def of (message : Bytes) : UInt64 :=
  ~~~ (run (~~~ 0) message)

/-- The check value of CRC-64/XZ, which is the checksum of the text `123456789`. -/
example : of [0x31, 0x32, 0x33, 0x34, 0x35, 0x36, 0x37, 0x38, 0x39] = 0x995DC9BBDF1939FA := by
  decide +kernel

end CommandLog.Checksum
