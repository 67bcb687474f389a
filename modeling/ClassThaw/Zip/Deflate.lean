import ClassThaw.Zip.Field

namespace ClassThaw.Deflate

open Zip

/-- The greatest number of bytes in a block. -/
def longestBlock : Nat := 0xFFFF

/-- A block behind its header, which tells whether it is the last one. -/
def framed (isLast : Bool) (block : ByteArray) : ByteArray :=
  fields [(1, isLast.toNat), (2, block.size), (2, longestBlock - block.size)] ++ block

def pack (content : ByteArray) : ByteArray :=
  let last := content.size / longestBlock
  (List.range (last + 1)).foldl (fun packed index =>
    packed ++ framed (index = last) (slice content (longestBlock * index) longestBlock))
    ByteArray.empty

end ClassThaw.Deflate
