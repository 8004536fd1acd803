import GrowthFault.Text.Utf8

/-!
# SHA-256

The message is followed by one bit, zeros and its length in bits, up to whole blocks of sixteen
32-bit words.  Each block is spread over sixty-four words and mixed into a state of eight words.
-/

namespace GrowthFault.Sha256

def roundConstants : Array UInt32 := #[
  0x428a2f98, 0x71374491, 0xb5c0fbcf, 0xe9b5dba5, 0x3956c25b, 0x59f111f1, 0x923f82a4, 0xab1c5ed5,
  0xd807aa98, 0x12835b01, 0x243185be, 0x550c7dc3, 0x72be5d74, 0x80deb1fe, 0x9bdc06a7, 0xc19bf174,
  0xe49b69c1, 0xefbe4786, 0x0fc19dc6, 0x240ca1cc, 0x2de92c6f, 0x4a7484aa, 0x5cb0a9dc, 0x76f988da,
  0x983e5152, 0xa831c66d, 0xb00327c8, 0xbf597fc7, 0xc6e00bf3, 0xd5a79147, 0x06ca6351, 0x14292967,
  0x27b70a85, 0x2e1b2138, 0x4d2c6dfc, 0x53380d13, 0x650a7354, 0x766a0abb, 0x81c2c92e, 0x92722c85,
  0xa2bfe8a1, 0xa81a664b, 0xc24b8b70, 0xc76c51a3, 0xd192e819, 0xd6990624, 0xf40e3585, 0x106aa070,
  0x19a4c116, 0x1e376c08, 0x2748774c, 0x34b0bcb5, 0x391c0cb3, 0x4ed8aa4a, 0x5b9cca4f, 0x682e6ff3,
  0x748f82ee, 0x78a5636f, 0x84c87814, 0x8cc70208, 0x90befffa, 0xa4506ceb, 0xbef9a3f7, 0xc67178f2]

def rotate (x : UInt32) (n : UInt32) : UInt32 :=
  (x >>> n) ||| (x <<< (32 - n))

structure State where
  a : UInt32
  b : UInt32
  c : UInt32
  d : UInt32
  e : UInt32
  f : UInt32
  g : UInt32
  h : UInt32
  deriving DecidableEq, Repr

def State.initial : State :=
  ⟨0x6a09e667, 0xbb67ae85, 0x3c6ef372, 0xa54ff53a, 0x510e527f, 0x9b05688c, 0x1f83d9ab, 0x5be0cd19⟩

def State.round (s : State) (word constant : UInt32) : State :=
  let mixE := rotate s.e 6 ^^^ rotate s.e 11 ^^^ rotate s.e 25
  let choice := (s.e &&& s.f) ^^^ (~~~s.e &&& s.g)
  let first := s.h + mixE + choice + constant + word
  let mixA := rotate s.a 2 ^^^ rotate s.a 13 ^^^ rotate s.a 22
  let majority := (s.a &&& s.b) ^^^ (s.a &&& s.c) ^^^ (s.b &&& s.c)
  ⟨first + (mixA + majority), s.a, s.b, s.c, s.d + first, s.e, s.f, s.g⟩

/-- The sum of two states, word by word. -/
def State.add (s t : State) : State :=
  ⟨s.a + t.a, s.b + t.b, s.c + t.c, s.d + t.d, s.e + t.e, s.f + t.f, s.g + t.g, s.h + t.h⟩

def State.words (s : State) : List UInt32 :=
  [s.a, s.b, s.c, s.d, s.e, s.f, s.g, s.h]

/-- The bytes of a word, the highest first. -/
def wordBytes (w : UInt32) : Bytes :=
  [(w >>> 24).toUInt8, (w >>> 16).toUInt8, (w >>> 8).toUInt8, w.toUInt8]

/-- The words that bytes make, the highest byte of each first; a last part of less than four bytes
makes none. -/
def words : Bytes → List UInt32
  | a :: b :: c :: d :: rest =>
    ((a.toUInt32 <<< 24) ||| (b.toUInt32 <<< 16) ||| (c.toUInt32 <<< 8) ||| d.toUInt32) ::
      words rest
  | _ => []

def zeroCount (length : Nat) : Nat :=
  (119 - length % 64) % 64

def padded (message : Bytes) : Bytes :=
  let bits := UInt64.ofNat (8 * message.length)
  let zeros : Bytes := List.replicate (zeroCount message.length) 0
  let delimited : Bytes := message ++ (0x80 : UInt8) :: zeros
  delimited ++ wordBytes (bits >>> 32).toUInt32 ++ wordBytes bits.toUInt32

/-- The next word of a schedule, from those before it. -/
def nextWord (earlier : Array UInt32) : UInt32 :=
  let back (n : Nat) : UInt32 := (earlier[earlier.size - n]?).getD 0
  let x := back 15
  let y := back 2
  let small := rotate x 7 ^^^ rotate x 18 ^^^ (x >>> 3)
  let great := rotate y 17 ^^^ rotate y 19 ^^^ (y >>> 10)
  back 16 + small + back 7 + great

def extend : (count : Nat) → Array UInt32 → Array UInt32
  | 0, schedule => schedule
  | count + 1, schedule => extend count (schedule.push (nextWord schedule))

def compress (s : State) (block : List UInt32) : State :=
  let schedule := extend 48 block.toArray
  let mixed := (schedule.toList.zip roundConstants.toList).foldl
    (fun t (word, constant) => t.round word constant) s
  s.add mixed

/-- Mix a number of blocks into a state, one after the other. -/
def compressAll : (blocks : Nat) → State → List UInt32 → State
  | 0, s, _ => s
  | blocks + 1, s, ws => compressAll blocks (compress s (ws.take 16)) (ws.drop 16)

def digest (message : Bytes) : Bytes :=
  let ws := words (padded message)
  (compressAll (ws.length / 16) .initial ws).words.flatMap wordBytes

def hexDigest (message : Bytes) : String :=
  (digest message).hex

end GrowthFault.Sha256
