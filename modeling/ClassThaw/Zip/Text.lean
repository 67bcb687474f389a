import ClassThaw.Text.Utf8

namespace ClassThaw.Zip

/-- The flag of members whose name and comment are in UTF-8. -/
def utf8Flag : Nat := 0x0800

/-- The characters of the bytes from 128 on in texts that are not in UTF-8. -/
def highCharacters : String :=
  "ÇüéâäàåçêëèïîìÄÅÉæÆôöòûùÿÖÜ¢£¥₧ƒáíóúñÑªº¿⌐¬½¼¡«»" ++
    "░▒▓│┤╡╢╖╕╣║╗╝╜╛┐└┴┬├─┼╞╟╚╔╩╦╠═╬╧╨╤╥╙╘╒╓╫╪┘┌█▄▌▐▀" ++
    "αßΓπΣσµτΦΘΩδ∞φε∩≡±≥≤⌠⌡÷≈°∙·√ⁿ²■\u00A0"

def charOfByte (byte : UInt8) : Char :=
  if byte < 128 then Char.ofNat byte.toNat
  else (highCharacters.toList[byte.toNat - 128]?).getD '\uFFFD'

def decodeText (flags : Nat) (bytes : ByteArray) : String :=
  if flags &&& utf8Flag ≠ 0 then
    Utf8.decode bytes.data.toList
  else
    String.ofList (bytes.data.toList.map charOfByte)

end ClassThaw.Zip
