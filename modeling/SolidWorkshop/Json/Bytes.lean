import SolidWorkshop.Json.Reader

/-!
# Reading JSON from bytes

The encoding of a document is seen from its first bytes: a byte order mark, or the places of the
zero bytes, which the first characters of a document leave in its wider encodings.  In every
encoding a half of a surrogate pair is let through as if it were a character.
-/

namespace SolidWorkshop.Json

open Text

/-- The encodings of a document. -/
inductive Encoding where
  | utf8
  | utf8Marked
  | utf16 (bigEndian marked : Bool)
  | utf32 (bigEndian marked : Bool)
  deriving DecidableEq

/-- The encoding that the first bytes show. -/
def Encoding.detect (bytes : List UInt8) : Encoding :=
  match bytes with
  | 0x00 :: 0x00 :: 0xfe :: 0xff :: _ => .utf32 true true
  | 0xff :: 0xfe :: 0x00 :: 0x00 :: _ => .utf32 false true
  | 0xfe :: 0xff :: _ => .utf16 true true
  | 0xff :: 0xfe :: _ => .utf16 false true
  | 0xef :: 0xbb :: 0xbf :: _ => .utf8Marked
  | a :: b :: c :: d :: _ =>
    if a = 0 then if b = 0 then .utf32 true false else .utf16 true false
    else if b = 0 then
      if c = 0 && d = 0 then .utf32 false false else .utf16 false false
    else .utf8
  | [a, b] =>
    if a = 0 then .utf16 true false
    else if b = 0 then .utf16 false false
    else .utf8
  | _ => .utf8

/-- The codec's name in complaints. -/
def Encoding.codec : Encoding → String
  | .utf8 | .utf8Marked => "utf-8"
  | .utf16 _ true => "utf-16"
  | .utf16 bigEndian false => if bigEndian then "utf-16-be" else "utf-16-le"
  | .utf32 _ true => "utf-32"
  | .utf32 bigEndian false => if bigEndian then "utf-32-be" else "utf-32-le"

/-- A complaint about a piece of the document's bytes. -/
def complaint (codec : String) (bytes : List UInt8) (position length : Nat) (reason : String) :
    String :=
  let place :=
    if length ≤ 1 then s!"byte 0x{Utf8.hexByte (bytes[position]?.getD 0)} in position {position}"
    else s!"bytes in position {position}-{position + length - 1}"
  s!"'{codec}' codec can't decode {place}: {reason}"

/-- Two bytes as a code unit. -/
def unit16 (bigEndian : Bool) (a b : UInt8) : Nat :=
  if bigEndian then a.toNat * 256 + b.toNat else b.toNat * 256 + a.toNat

/-- The half that three bytes stand for. -/
def half8? (first : UInt8) : List UInt8 → Option Nat
  | second :: third :: _ =>
    if first = 0xed && 0xa0 ≤ second && second ≤ 0xbf && Utf8.isContinuation third then
      some (0xd000 + Utf8.payload second * 64 + Utf8.payload third)
    else none
  | _ => none

/-- Decode characters of one to four bytes; `skip` bytes belong to the point before. -/
def passing (position skip : Nat) (done : List Point) :
    List UInt8 → Except Utf8.Fault (List Point)
  | [] => .ok done.reverse
  | b :: rest =>
    match skip with
    | k + 1 => passing (position + 1) k done rest
    | 0 =>
      match half8? b rest with
      | some unit => passing (position + 1) 2 (.half unit :: done) rest
      | none =>
        match Utf8.lead b rest with
        | .char c length => passing (position + 1) (length - 1) (.char c :: done) rest
        | bad => .error ⟨position, bad.length, b, bad⟩

/-- Decode characters of one to four bytes. -/
def decode8 (bytes : ByteArray) : Except String (List Point) :=
  match String.fromUTF8? bytes with
  | some s => .ok (points s)
  | none => (passing 0 0 [] bytes.toList).mapError (·.message)

/-- Decode code units of two bytes. -/
def decode16 (bigEndian : Bool) (complain : Nat → Nat → String → String) :
    Nat → List Point → List UInt8 → Except String (List Point)
  | _, done, [] => .ok done.reverse
  | at_, _, [_] => .error (complain at_ 1 "truncated data")
  | at_, done, a :: b :: c :: d :: rest =>
    let high := unit16 bigEndian a b
    let low := unit16 bigEndian c d
    if 0xd800 ≤ high && high < 0xdc00 && 0xdc00 ≤ low && low < 0xe000 then
      decode16 bigEndian complain (at_ + 4)
        (.char (Char.ofNat (0x10000 + (high - 0xd800) * 0x400 + (low - 0xdc00))) :: done) rest
    else decode16 bigEndian complain (at_ + 2) (.ofNat high :: done) (c :: d :: rest)
  | at_, done, a :: b :: rest =>
    decode16 bigEndian complain (at_ + 2) (.ofNat (unit16 bigEndian a b) :: done) rest

/-- Decode code units of four bytes. -/
def decode32 (bigEndian : Bool) (complain : Nat → Nat → String → String) :
    Nat → List Point → List UInt8 → Except String (List Point)
  | _, done, [] => .ok done.reverse
  | at_, done, a :: b :: c :: d :: rest =>
    let unit :=
      if bigEndian then unit16 true a b * 65536 + unit16 true c d
      else unit16 false c d * 65536 + unit16 false a b
    if 0x110000 ≤ unit then .error (complain at_ 4 "code point not in range(0x110000)")
    else decode32 bigEndian complain (at_ + 4) (.ofNat unit :: done) rest
  | at_, _, rest => .error (complain at_ rest.length "truncated data")

/-- The text of a document's bytes. -/
def decodeBytes (bytes : ByteArray) : Except String (List Point) :=
  let bs := bytes.toList
  let encoding := Encoding.detect (bs.take 4)
  let complain := complaint encoding.codec bs
  match encoding with
  | .utf8 => decode8 bytes
  | .utf8Marked => decode8 (bytes.extract 3 bytes.size)
  | .utf16 bigEndian marked =>
    let skip := if marked then 2 else 0
    decode16 bigEndian complain skip [] (bs.drop skip)
  | .utf32 bigEndian marked =>
    let skip := if marked then 4 else 0
    decode32 bigEndian complain skip [] (bs.drop skip)

/-- Read a document held in bytes. -/
def readTree (bytes : ByteArray) : Except ReadError Tree :=
  match decodeBytes bytes with
  | .error reason => .error (.undecodable reason)
  | .ok document => read document

/-- Read a document held in bytes as a value. -/
def readBytes (bytes : ByteArray) : Except ReadError Value := do
  (← readTree bytes).toValue

end SolidWorkshop.Json
