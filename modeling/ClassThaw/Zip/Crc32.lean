namespace ClassThaw.Crc32

/-- Divides by the generator polynomial for one more bit. -/
def shift (remainder : UInt32) : UInt32 :=
  if remainder &&& 1 == 1 then (remainder >>> 1) ^^^ 0xEDB88320 else remainder >>> 1

def ofByte (byte : UInt32) : UInt32 :=
  shift (shift (shift (shift (shift (shift (shift (shift byte)))))))

def table : Array UInt32 := (Array.range 256).map fun byte => ofByte (UInt32.ofNat byte)

/-- The remainder after one more byte. -/
def update (remainder : UInt32) (byte : UInt8) : UInt32 :=
  table.getD ((remainder ^^^ byte.toUInt32) &&& 0xFF).toNat 0 ^^^ (remainder >>> 8)

def checksum (bytes : ByteArray) : UInt32 :=
  ~~~(bytes.foldl update 0xFFFFFFFF)

end ClassThaw.Crc32
