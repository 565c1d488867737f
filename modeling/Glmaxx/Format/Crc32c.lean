import Mathlib.Logic.Function.Iterate

namespace Glmaxx.Format

/-- One round of the inner loop: the low bit decides whether the polynomial is subtracted. -/
def crcRound (crc : UInt32) : UInt32 :=
  let mask := 0 - (crc &&& 1)
  (crc >>> 1) ^^^ (0x82f63b78 &&& mask)

def crcByte (crc : UInt32) (byte : UInt8) : UInt32 := crcRound^[8] (crc ^^^ byte.toUInt32)

def crc32c (bytes : List UInt8) : UInt32 := ~~~(bytes.foldl crcByte (~~~0))

end Glmaxx.Format
