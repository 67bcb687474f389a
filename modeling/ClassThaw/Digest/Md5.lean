import ClassThaw.Bytes

namespace ClassThaw.Md5

/-- How far the words are turned in each round, for four steps that follow each other. -/
def rotations : Array (Array UInt32) :=
  #[#[7, 12, 17, 22], #[5, 9, 14, 20], #[4, 11, 16, 23], #[6, 10, 15, 21]]

/-- The constants of the 64 steps: the whole parts of `2 ^ 32 * |sin i|`. -/
def constants : Array UInt32 :=
  #[0xd76aa478, 0xe8c7b756, 0x242070db, 0xc1bdceee, 0xf57c0faf, 0x4787c62a, 0xa8304613, 0xfd469501,
    0x698098d8, 0x8b44f7af, 0xffff5bb1, 0x895cd7be, 0x6b901122, 0xfd987193, 0xa679438e, 0x49b40821,
    0xf61e2562, 0xc040b340, 0x265e5a51, 0xe9b6c7aa, 0xd62f105d, 0x02441453, 0xd8a1e681, 0xe7d3fbc8,
    0x21e1cde6, 0xc33707d6, 0xf4d50d87, 0x455a14ed, 0xa9e3e905, 0xfcefa3f8, 0x676f02d9, 0x8d2a4c8a,
    0xfffa3942, 0x8771f681, 0x6d9d6122, 0xfde5380c, 0xa4beea44, 0x4bdecfa9, 0xf6bb4b60, 0xbebfbc70,
    0x289b7ec6, 0xeaa127fa, 0xd4ef3085, 0x04881d05, 0xd9d4d039, 0xe6db99e5, 0x1fa27cf8, 0xc4ac5665,
    0xf4292244, 0x432aff97, 0xab9423a7, 0xfc93a039, 0x655b59c3, 0x8f0ccc92, 0xffeff47d, 0x85845dd1,
    0x6fa87e4f, 0xfe2ce6e0, 0xa3014314, 0x4e0811a1, 0xf7537e82, 0xbd3af235, 0x2ad7d2bb, 0xeb86d391]

structure State where
  a : UInt32
  b : UInt32
  c : UInt32
  d : UInt32
  deriving DecidableEq, Repr

def State.initial : State := ⟨0x67452301, 0xefcdab89, 0x98badcfe, 0x10325476⟩

def rotateLeft (word amount : UInt32) : UInt32 :=
  (word <<< amount) ||| (word >>> (32 - amount))

/-- The function that a round mixes three words with. -/
def mix (round : Nat) (b c d : UInt32) : UInt32 :=
  match round with
  | 0 => (b &&& c) ||| (~~~b &&& d)
  | 1 => (d &&& b) ||| (~~~d &&& c)
  | 2 => b ^^^ c ^^^ d
  | _ => c ^^^ (b ||| ~~~d)

def wordIndex (step : Nat) : Nat :=
  match step / 16 with
  | 0 => step
  | 1 => (5 * step + 1) % 16
  | 2 => (3 * step + 5) % 16
  | _ => 7 * step % 16

def step (words : Array UInt32) (state : State) (index : Nat) : State :=
  let sum := state.a + mix (index / 16) state.b state.c state.d + constants.getD index 0 +
    words.getD (wordIndex index) 0
  let amount := (rotations.getD (index / 16) #[]).getD (index % 4) 0
  ⟨state.d, state.b + rotateLeft sum amount, state.b, state.c⟩

/-- The state after a block of sixteen words. -/
def block (state : State) (words : Array UInt32) : State :=
  let mixed := (List.range 64).foldl (step words) state
  ⟨state.a + mixed.a, state.b + mixed.b, state.c + mixed.c, state.d + mixed.d⟩

/-- The little-endian word at a position. -/
def wordAt (bytes : Array UInt8) (position : Nat) : UInt32 :=
  let byte (offset : Nat) : UInt32 := (bytes.getD (position + offset) 0).toUInt32
  byte 0 ||| (byte 1 <<< 8) ||| (byte 2 <<< 16) ||| (byte 3 <<< 24)

/-- The `width` low-order bytes of a number, least significant byte first. -/
def littleEndian (width value : Nat) : Bytes := (BigEndian.encode width value).reverse

/-- The byte string filled up to whole blocks: a one bit, zeros, and the length in bits. -/
def padded (bytes : Bytes) : Array UInt8 :=
  let length := bytes.length
  let zeros := (119 - length % 64) % 64
  bytes.toArray ++ ((0x80 : UInt8) :: List.replicate zeros 0) ++ littleEndian 8 (8 * length)

def digest (bytes : Bytes) : Bytes :=
  let padded := padded bytes
  let state := (List.range (padded.size / 64)).foldl (fun state index =>
    block state ((Array.range 16).map fun word => wordAt padded (64 * index + 4 * word)))
    State.initial
  [state.a, state.b, state.c, state.d].flatMap fun word => littleEndian 4 word.toNat

def hexDigest (bytes : Bytes) : String :=
  String.ofList <| (digest bytes).flatMap fun byte =>
    [byte.toNat / 16, byte.toNat % 16].flatMap (Nat.toDigits 16)

end ClassThaw.Md5
