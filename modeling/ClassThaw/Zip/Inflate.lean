import ClassThaw.Archive.Damage

/-! Unpacking by the DEFLATE method. The output counts as preceded by zeros, and what follows the
last block does not count. -/

namespace ClassThaw.Inflate

/-- Packed data from a bit on. -/
structure Source where
  data : ByteArray
  position : Nat := 0

/-- Takes a value off the packed data. -/
abbrev Bits := StateT Source (Except Damage)

def corrupt {α : Type} : Bits α := throw .corrupt

def bit : Bits Bool := fun source =>
  if h : source.position / 8 < source.data.size then
    let byte := source.data[source.position / 8]
    .ok ((byte.toNat >>> (source.position % 8)) % 2 == 1,
      { source with position := source.position + 1 })
  else
    .error .incomplete

/-- A number of `count` bits, least significant bit first. -/
def number : (count : Nat) → Bits Nat
  | 0 => return 0
  | count + 1 => do
    let low ← bit
    let high ← number count
    return low.toNat + 2 * high

inductive Code where
  | empty
  | leaf (symbol : Nat)
  | node (zero one : Code)

namespace Code

def insert (symbol : Nat) : (word : List Bool) → Code → Code
  | [], _ => .leaf symbol
  | false :: word, .node zero one => .node (insert symbol word zero) one
  | true :: word, .node zero one => .node zero (insert symbol word one)
  | false :: word, _ => .node (insert symbol word .empty) .empty
  | true :: word, _ => .node .empty (insert symbol word .empty)

/-- The `length` low-order bits of a number, most significant bit first. -/
def word : (length : Nat) → (value : Nat) → List Bool
  | 0, _ => []
  | length + 1, value => (value.testBit length) :: word length value

/-- Adds the symbols with code words of one length, where `next` is the next free code word. -/
def addLength (length : Nat) (symbols : List (Nat × Nat)) (state : Code × Nat) : Code × Nat :=
  symbols.foldl (fun (code, next) (length', symbol) =>
    if length' = length then (code.insert symbol (word length next), next + 1) else (code, next))
    (state.1, 2 * state.2)

/-- The code in which the symbols 0, 1, 2, … have code words of the given lengths, the words being
given out in order of their lengths. A symbol of length zero does not occur. A bit is needed to see
that a word is missing, even where there is no word at all. -/
def ofLengths (lengths : List Nat) : Code :=
  let symbols := lengths.zipIdx
  ((List.range 15).foldl (fun state length => addLength (length + 1) symbols state)
    (.node .empty .empty, 0)).1

/-- The share of the words of 15 bits that start with a code word, if there are words of these
lengths. All of them are `0x8000`. -/
def share (lengths : List Nat) : Nat :=
  lengths.foldl (fun sum length => sum + (0x8000 >>> length)) 0

/-- Every sequence of bits starts with just one code word. -/
def isComplete (lengths : List Nat) : Bool :=
  share (lengths.filter (· ≠ 0)) == 0x8000

/-- The code is complete, or it has no word, or a single one of one bit. -/
def isUsable (lengths : List Nat) : Bool :=
  let used := lengths.filter (· ≠ 0)
  isComplete lengths || used == [] || used == [1]

def read : Code → Bits Nat
  | .empty => corrupt
  | .leaf symbol => return symbol
  | .node zero one => do
    if ← bit then read one else read zero

end Code

/-- The shortest lengths of the length symbols, and their numbers of further bits. -/
def lengthTable : Array (Nat × Nat) :=
  #[(3, 0), (4, 0), (5, 0), (6, 0), (7, 0), (8, 0), (9, 0), (10, 0), (11, 1), (13, 1), (15, 1),
    (17, 1), (19, 2), (23, 2), (27, 2), (31, 2), (35, 3), (43, 3), (51, 3), (59, 3), (67, 4),
    (83, 4), (99, 4), (115, 4), (131, 5), (163, 5), (195, 5), (227, 5), (258, 0)]

/-- The shortest distances of the distance symbols, and their numbers of further bits. -/
def distanceTable : Array (Nat × Nat) :=
  #[(1, 0), (2, 0), (3, 0), (4, 0), (5, 1), (7, 1), (9, 2), (13, 2), (17, 3), (25, 3), (33, 4),
    (49, 4), (65, 5), (97, 5), (129, 6), (193, 6), (257, 7), (385, 7), (513, 8), (769, 8),
    (1025, 9), (1537, 9), (2049, 10), (3073, 10), (4097, 11), (6145, 11), (8193, 12), (12289, 12),
    (16385, 13), (24577, 13)]

def extended (table : Array (Nat × Nat)) (symbol : Nat) : Bits Nat :=
  match table[symbol]? with
  | none => corrupt
  | some (base, extra) => return base + (← number extra)

def byteBack (distance : Nat) (output : ByteArray) : UInt8 :=
  if distance ≤ output.size then output.data.getD (output.size - distance) 0 else 0

/-- Repeats `count` bytes from `distance` bytes back. -/
def repeated (distance : Nat) : (count : Nat) → ByteArray → ByteArray
  | 0, output => output
  | count + 1, output => repeated distance count (output.push (byteBack distance output))

/-- Unpacks symbols up to the end of the block, at most `fuel` of them. -/
def symbols (literals distances : Code) : (fuel : Nat) → ByteArray → Bits ByteArray
  | 0, _ => corrupt
  | fuel + 1, output => do
    let symbol ← literals.read
    if symbol < 256 then
      symbols literals distances fuel (output.push (UInt8.ofNat symbol))
    else if symbol = 256 then
      return output
    else
      let length ← extended lengthTable (symbol - 257)
      let distance ← extended distanceTable (← distances.read)
      symbols literals distances fuel (repeated distance length output)

def fixedLiterals : Code :=
  Code.ofLengths (List.replicate 144 8 ++ List.replicate 112 9 ++ List.replicate 24 7 ++
    List.replicate 8 8)

/-- The fixed code of distances. It has words for two symbols that mean no distance. -/
def fixedDistances : Code := Code.ofLengths (List.replicate 32 5)

/-- The order in which the lengths of the code of code lengths stand. -/
def lengthOrder : List Nat :=
  [16, 17, 18, 0, 8, 7, 9, 6, 10, 5, 11, 4, 12, 3, 13, 2, 14, 1, 15]

/-- Reads code lengths until there are `count` of them, in at most `fuel` steps. -/
def codeLengths (code : Code) (count : Nat) : (fuel : Nat) → Array Nat → Bits (Array Nat)
  | 0, lengths => return lengths
  | fuel + 1, lengths => do
    if count ≤ lengths.size then
      return lengths
    let symbol ← code.read
    if symbol < 16 then
      codeLengths code count fuel (lengths.push symbol)
    else
      let (length, times) ←
        if symbol = 16 then
          match lengths.back? with
          | none => corrupt
          | some last => do pure (last, 3 + (← number 2))
        else if symbol = 17 then do pure (0, 3 + (← number 3))
        else do pure (0, 11 + (← number 7))
      codeLengths code count fuel (lengths ++ List.replicate times length)

/-- The codes that stand at the start of a block. -/
def dynamicCodes : Bits (Code × Code) := do
  let literalCount := 257 + (← number 5)
  let distanceCount := 1 + (← number 5)
  let orderCount := 4 + (← number 4)
  if 286 < literalCount ∨ 30 < distanceCount then
    corrupt
  let order := lengthOrder.take orderCount
  let given ← order.mapM fun symbol => return (symbol, ← number 3)
  let lengths := (List.range 19).map fun symbol => (given.lookup symbol).getD 0
  if !Code.isComplete lengths then
    corrupt
  let count := literalCount + distanceCount
  let lengths ← codeLengths (Code.ofLengths lengths) count count #[]
  if lengths.size ≠ count then
    corrupt
  let literals := lengths.toList.take literalCount
  let distances := lengths.toList.drop literalCount
  if !Code.isUsable literals || !Code.isUsable distances then
    corrupt
  return (Code.ofLengths literals, Code.ofLengths distances)

/-- The bytes of a block that is not packed. It starts at a whole byte with its length, which is
written twice, the second time inverted. -/
def stored (output : ByteArray) : Bits ByteArray := do
  modify fun source => { source with position := (source.position + 7) / 8 * 8 }
  let length ← number 16
  let inverted ← number 16
  let source ← get
  let start := source.position / 8
  if length + inverted ≠ 0xFFFF then
    corrupt
  if source.data.size < start + length then
    throw .incomplete
  set { source with position := 8 * (start + length) }
  return output ++ source.data.extract start (start + length)

/-- Unpacks blocks up to the last one, at most `fuel` of them. A symbol takes at least one bit, so
no block holds more than `size` symbols. -/
def blocks (size : Nat) : (fuel : Nat) → ByteArray → Bits ByteArray
  | 0, _ => corrupt
  | fuel + 1, output => do
    let last ← bit
    let output ←
      match ← number 2 with
      | 0 => stored output
      | 1 => symbols fixedLiterals fixedDistances size output
      | 2 => do
        let (literals, distances) ← dynamicCodes
        symbols literals distances size output
      | _ => corrupt
    if last then return output else blocks size fuel output

def unpack (data : ByteArray) : Except Damage ByteArray :=
  let size := 8 * data.size + 1
  (blocks size size ByteArray.empty { data }).map (·.1)

end ClassThaw.Inflate
