import ClassThaw.Bytes

namespace ClassThaw

namespace Opcode

def iconst1 : UInt8 := 0x04

def aload0 : UInt8 := 0x2A

def aload1 : UInt8 := 0x2B

def aload2 : UInt8 := 0x2C

def astore1 : UInt8 := 0x4C

def astore2 : UInt8 := 0x4D

def aastore : UInt8 := 0x53

def iadd : UInt8 := 0x60

/-- Leaves the method. -/
def leave : UInt8 := 0xB1

def getstatic : UInt8 := 0xB2

def putstatic : UInt8 := 0xB3

def invokestatic : UInt8 := 0xB8

def arraylength : UInt8 := 0xBE

def checkcast : UInt8 := 0xC0

end Opcode

/-- An instruction without operands, or with an index into the constant pool. -/
inductive Instruction where
  | plain (opcode : UInt8)
  | indexed (opcode : UInt8) (index : UInt16)
  deriving DecidableEq, Repr

namespace Instruction

def encode : Instruction → Bytes
  | .plain opcode => [opcode]
  | .indexed opcode index => opcode :: BigEndian.word16 index

def assemble (instructions : List Instruction) : Bytes := instructions.flatMap encode

end Instruction

end ClassThaw
