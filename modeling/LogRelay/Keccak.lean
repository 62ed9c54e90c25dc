import LogRelay.Bytes

/-!
# The Keccak-256 hash

The sponge of 1600 bits with a rate of 136 bytes, 24 rounds and
padding that starts with the byte 1.  The state is 25 lanes of 64 bits; lane
`x + 5 * y` stands in column `x` and row `y`.
-/

namespace LogRelay.Keccak

/-- The state of the sponge: 25 lanes. -/
abbrev Lanes := Array UInt64

/-- The bytes that one block adds to the state. -/
def rate : Nat := 136

/-- What each round adds to the first lane. -/
def roundConstants : List UInt64 :=
  [0x0000000000000001, 0x0000000000008082, 0x800000000000808A, 0x8000000080008000,
   0x000000000000808B, 0x0000000080000001, 0x8000000080008081, 0x8000000000008009,
   0x000000000000008A, 0x0000000000000088, 0x0000000080008009, 0x000000008000000A,
   0x000000008000808B, 0x800000000000008B, 0x8000000000008089, 0x8000000000008003,
   0x8000000000008002, 0x8000000000000080, 0x000000000000800A, 0x800000008000000A,
   0x8000000080008081, 0x8000000000008080, 0x0000000080000001, 0x8000000080008008]

/-- How far each lane is rotated. -/
def rotations : Array Nat :=
  #[0, 1, 62, 28, 27, 36, 44, 6, 55, 20, 3, 10, 43, 25, 39, 41, 45, 15, 21, 8, 18, 2, 61, 56, 14]

/-- The lane rotated towards its most significant bit. -/
def rotate (lane : UInt64) (distance : Nat) : UInt64 :=
  if distance = 0 then lane
  else (lane <<< UInt64.ofNat distance) ||| (lane >>> UInt64.ofNat (64 - distance))

/-- The lane in column `x` and row `y`. -/
def lane (lanes : Lanes) (x y : Nat) : UInt64 := lanes.getD (x % 5 + 5 * (y % 5)) 0

/-- A state given by its lanes, column and row. -/
def tabulate (f : Nat → Nat → UInt64) : Lanes :=
  ((List.range 25).map fun i => f (i % 5) (i / 5)).toArray

/-- The parity of each column is added to its neighbours. -/
def mixColumns (lanes : Lanes) : Lanes :=
  let parity := ((List.range 5).map fun x =>
    lane lanes x 0 ^^^ lane lanes x 1 ^^^ lane lanes x 2 ^^^ lane lanes x 3 ^^^
      lane lanes x 4).toArray
  tabulate fun x y =>
    lane lanes x y ^^^ parity.getD ((x + 4) % 5) 0 ^^^ rotate (parity.getD ((x + 1) % 5) 0) 1

/-- Every lane is rotated and moves to its new place. -/
def scatter (lanes : Lanes) : Lanes :=
  tabulate fun x y =>
    let column := (x + 3 * y) % 5
    rotate (lane lanes column x) (rotations.getD (column + 5 * x) 0)

/-- The only step that is not linear: each row is combined with its two successors. -/
def combineRows (lanes : Lanes) : Lanes :=
  tabulate fun x y =>
    lane lanes x y ^^^ ((lane lanes (x + 1) y ^^^ 0xFFFFFFFFFFFFFFFF) &&& lane lanes (x + 2) y)

/-- One round with the given constant. -/
def round (lanes : Lanes) (constant : UInt64) : Lanes :=
  (combineRows (scatter (mixColumns lanes))).modify 0 (· ^^^ constant)

/-- All rounds. -/
def permute (lanes : Lanes) : Lanes := roundConstants.foldl round lanes

/-- The number of up to eight bytes, least significant byte first. -/
def laneOfBytes (bytes : Bytes) : UInt64 :=
  bytes.foldr (fun byte value => (value <<< 8) ||| byte.toUInt64) 0

/-- The eight bytes of a lane, least significant byte first. -/
def bytesOfLane (lane : UInt64) : Bytes :=
  (List.range 8).map fun i => (lane >>> UInt64.ofNat (8 * i)).toUInt8

/-- The state after one block of `rate` bytes. -/
def absorbBlock (lanes : Lanes) (block : Bytes) : Lanes :=
  permute (((List.range 17).foldl fun (lanes : Lanes) i =>
    lanes.modify i (· ^^^ laneOfBytes ((block.drop (8 * i)).take 8))) lanes)

/-- The state after all blocks; at most `fuel` of them. -/
def absorb : (fuel : Nat) → Lanes → Bytes → Lanes
  | 0, lanes, _ => lanes
  | fuel + 1, lanes, bytes =>
      if bytes.isEmpty then lanes
      else absorb fuel (absorbBlock lanes (bytes.take rate)) (bytes.drop rate)

/-- What is appended to a message so that its length is a multiple of the rate. -/
def padding (length : Nat) : Bytes :=
  match rate - length % rate with
  | 0 => []
  | 1 => [0x81]
  | missing + 2 => 0x01 :: List.replicate missing 0 ++ [0x80]

/-- The hash of a message. -/
def hash (message : Bytes) : Word 32 :=
  let padded := message ++ padding message.length
  let lanes := absorb (padded.length / rate + 1) (tabulate fun _ _ => 0) padded
  Word.padLeft 32 ((List.range 4).flatMap fun i => bytesOfLane (lanes.getD i 0))

/-- The hash of a text's bytes. -/
def hashText (text : String) : Word 32 := hash text.toUTF8.toList

end LogRelay.Keccak
