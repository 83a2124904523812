/-!
# Digests

The SHA-256 digest of a byte sequence.  The message is padded to whole blocks of sixteen words;
each block is stretched to sixty-four words and mixed into a state of eight.
-/

namespace SolidWorkshop.Storage

/-- The constants of the sixty-four rounds. -/
def roundConstants : List UInt32 :=
  [0x428a2f98, 0x71374491, 0xb5c0fbcf, 0xe9b5dba5, 0x3956c25b, 0x59f111f1, 0x923f82a4, 0xab1c5ed5,
   0xd807aa98, 0x12835b01, 0x243185be, 0x550c7dc3, 0x72be5d74, 0x80deb1fe, 0x9bdc06a7, 0xc19bf174,
   0xe49b69c1, 0xefbe4786, 0x0fc19dc6, 0x240ca1cc, 0x2de92c6f, 0x4a7484aa, 0x5cb0a9dc, 0x76f988da,
   0x983e5152, 0xa831c66d, 0xb00327c8, 0xbf597fc7, 0xc6e00bf3, 0xd5a79147, 0x06ca6351, 0x14292967,
   0x27b70a85, 0x2e1b2138, 0x4d2c6dfc, 0x53380d13, 0x650a7354, 0x766a0abb, 0x81c2c92e, 0x92722c85,
   0xa2bfe8a1, 0xa81a664b, 0xc24b8b70, 0xc76c51a3, 0xd192e819, 0xd6990624, 0xf40e3585, 0x106aa070,
   0x19a4c116, 0x1e376c08, 0x2748774c, 0x34b0bcb5, 0x391c0cb3, 0x4ed8aa4a, 0x5b9cca4f, 0x682e6ff3,
   0x748f82ee, 0x78a5636f, 0x84c87814, 0x8cc70208, 0x90befffa, 0xa4506ceb, 0xbef9a3f7, 0xc67178f2]

/-- The eight words that a block is mixed into. -/
structure DigestState where
  a : UInt32
  b : UInt32
  c : UInt32
  d : UInt32
  e : UInt32
  f : UInt32
  g : UInt32
  h : UInt32

/-- The state in front of the first block. -/
def DigestState.start : DigestState :=
  ⟨0x6a09e667, 0xbb67ae85, 0x3c6ef372, 0xa54ff53a, 0x510e527f, 0x9b05688c, 0x1f83d9ab, 0x5be0cd19⟩

/-- A word turned to the right. -/
def turned (x : UInt32) (n : UInt32) : UInt32 :=
  (x >>> n) ||| (x <<< (32 - n))

/-- One round. -/
def DigestState.round (s : DigestState) (constant word : UInt32) : DigestState :=
  let mixedE := turned s.e 6 ^^^ turned s.e 11 ^^^ turned s.e 25
  let choice := (s.e &&& s.f) ^^^ ((~~~s.e) &&& s.g)
  let first := s.h + mixedE + choice + constant + word
  let mixedA := turned s.a 2 ^^^ turned s.a 13 ^^^ turned s.a 22
  let majority := (s.a &&& s.b) ^^^ (s.a &&& s.c) ^^^ (s.b &&& s.c)
  ⟨first + (mixedA + majority), s.a, s.b, s.c, s.d + first, s.e, s.f, s.g⟩

/-- The word with a number in a row of words. -/
def wordAt (words : Array UInt32) (index : Nat) : UInt32 :=
  words[index]?.getD 0

/-- One more word of the stretched block. -/
def stretchStep (words : Array UInt32) : Array UInt32 :=
  let n := words.size
  let x := wordAt words (n - 15)
  let y := wordAt words (n - 2)
  let low := turned x 7 ^^^ turned x 18 ^^^ (x >>> 3)
  let high := turned y 17 ^^^ turned y 19 ^^^ (y >>> 10)
  words.push (wordAt words (n - 16) + low + wordAt words (n - 7) + high)

/-- A block of sixteen words stretched to sixty-four. -/
def stretch (block : Array UInt32) : Array UInt32 :=
  Nat.repeat stretchStep 48 block

/-- Mix one block into a state. -/
def DigestState.absorb (s : DigestState) (block : Array UInt32) : DigestState :=
  let r := (roundConstants.zip (stretch block).toList).foldl
    (fun s (constant, word) => s.round constant word) s
  ⟨s.a + r.a, s.b + r.b, s.c + r.c, s.d + r.d, s.e + r.e, s.f + r.f, s.g + r.g, s.h + r.h⟩

/-- A number as bytes, the highest first. -/
def bytesOf (count n : Nat) : List UInt8 :=
  (List.range count).map fun k => UInt8.ofNat (n / Nat.pow 256 (count - 1 - k))

/-- The message with a mark, zeros up to a whole block, and its length in bits. -/
def padded (message : ByteArray) : ByteArray :=
  let zeros := (119 - message.size % 64) % 64
  message ++ ⟨(0x80 :: List.replicate zeros 0 ++ bytesOf 8 (8 * message.size)).toArray⟩

/-- Four bytes from a place on as a word. -/
def wordFrom (bytes : ByteArray) (place : Nat) : UInt32 :=
  (List.range 4).foldl (fun w k => (w <<< 8) ||| (bytes[place + k]?.getD 0).toUInt32) 0

/-- The block with a number. -/
def blockAt (bytes : ByteArray) (index : Nat) : Array UInt32 :=
  ((List.range 16).map fun k => wordFrom bytes (64 * index + 4 * k)).toArray

/-- The words of the digest. -/
def digestWords (message : ByteArray) : List UInt32 :=
  let bytes := padded message
  let s := (List.range (bytes.size / 64)).foldl
    (fun s k => DigestState.absorb s (blockAt bytes k)) DigestState.start
  [s.a, s.b, s.c, s.d, s.e, s.f, s.g, s.h]

/-- The digest in hexadecimal digits. -/
def digest (message : ByteArray) : String :=
  String.ofList ((digestWords message).flatMap fun word =>
    (List.range 8).map fun k => Nat.digitChar (word.toNat / Nat.pow 16 (7 - k) % 16))

end SolidWorkshop.Storage
