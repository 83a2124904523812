/-!
# UTF-8

Decoding of byte sequences.  The lenient reading puts one replacement character in the place of
every maximal ill-formed piece; a strict reading stops at the first one and says where it is.
-/

namespace SolidWorkshop.Text.Utf8

/-- What stands at the start of a byte sequence. -/
inductive Lead where
  /-- A well-formed character and its length in bytes. -/
  | char (c : Char) (length : Nat)
  /-- A byte that starts no character. -/
  | badStart
  /-- The first bytes of a character, followed by a byte that does not continue it. -/
  | badContinuation (length : Nat)
  /-- The first bytes of a character, cut off by the end of the sequence. -/
  | truncated (length : Nat)

/-- A continuation byte. -/
def isContinuation (b : UInt8) : Bool :=
  0x80 ≤ b && b ≤ 0xbf

/-- The low six bits of a continuation byte. -/
def payload (b : UInt8) : Nat :=
  b.toNat % 64

/-- The bytes that may follow a first byte: the second byte of a character is restricted so that
no character has two encodings and no surrogate has one. -/
def secondRange (first : UInt8) : UInt8 × UInt8 :=
  if first = 0xe0 then (0xa0, 0xbf)
  else if first = 0xed then (0x80, 0x9f)
  else if first = 0xf0 then (0x90, 0xbf)
  else if first = 0xf4 then (0x80, 0x8f)
  else (0x80, 0xbf)

/-- How many continuation bytes a first byte asks for. -/
def following? (first : UInt8) : Option Nat :=
  if 0xc2 ≤ first && first ≤ 0xdf then some 1
  else if 0xe0 ≤ first && first ≤ 0xef then some 2
  else if 0xf0 ≤ first && first ≤ 0xf4 then some 3
  else none

/-- Read the continuation bytes that are still due. -/
def continued (due length value : Nat) : List UInt8 → Lead
  | [] => if due = 0 then .char (Char.ofNat value) length else .truncated length
  | b :: rest =>
    if due = 0 then .char (Char.ofNat value) length
    else if isContinuation b then continued (due - 1) (length + 1) (value * 64 + payload b) rest
    else .badContinuation length

/-- Read the character at the start of a byte sequence that begins with `first`. -/
def lead (first : UInt8) (rest : List UInt8) : Lead :=
  if first < 0x80 then .char (Char.ofNat first.toNat) 1
  else
    match following? first with
    | none => .badStart
    | some due =>
      let value := first.toNat % Nat.pow 2 (6 - due)
      match rest with
      | [] => .truncated 1
      | second :: rest =>
        let (low, high) := secondRange first
        if low ≤ second && second ≤ high then
          continued (due - 1) 2 (value * 64 + payload second) rest
        else .badContinuation 1

/-- How many bytes a lead takes up. -/
def Lead.length : Lead → Nat
  | .char _ length => length
  | .badStart => 1
  | .badContinuation length => length
  | .truncated length => length

/-- Decode with replacement characters; `skip` bytes belong to the character before. -/
def replacing (skip : Nat) (done : List Char) : List UInt8 → List Char
  | [] => done.reverse
  | b :: rest =>
    match skip with
    | k + 1 => replacing k done rest
    | 0 =>
      match lead b rest with
      | .char c length => replacing (length - 1) (c :: done) rest
      | bad => replacing (bad.length - 1) ('\ufffd' :: done) rest

/-- Decode with a replacement character for every maximal ill-formed piece. -/
def decodeLenient (bytes : ByteArray) : String :=
  match String.fromUTF8? bytes with
  | some s => s
  | none => String.ofList (replacing 0 [] bytes.toList)

/-- The place and the kind of the first ill-formed piece. -/
structure Fault where
  position : Nat
  length : Nat
  first : UInt8
  lead : Lead

/-- Two lower-case hexadecimal digits. -/
def hexByte (b : UInt8) : String :=
  let ds := String.ofList (Nat.toDigits 16 b.toNat)
  if ds.length < 2 then "0" ++ ds else ds

/-- The words for an ill-formed piece. -/
def Fault.message (fault : Fault) : String :=
  let place :=
    if fault.length ≤ 1 then
      s!"byte 0x{hexByte fault.first} in position {fault.position}"
    else s!"bytes in position {fault.position}-{fault.position + fault.length - 1}"
  let reason := match fault.lead with
    | .badStart => "invalid start byte"
    | .truncated _ => "unexpected end of data"
    | _ => "invalid continuation byte"
  s!"'utf-8' codec can't decode {place}: {reason}"

end SolidWorkshop.Text.Utf8
