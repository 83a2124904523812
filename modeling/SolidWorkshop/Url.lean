import SolidWorkshop.Text.Blank
import SolidWorkshop.Text.Digit
import SolidWorkshop.Text.Quoted
import SolidWorkshop.Text.Split

/-!
# Addresses

An address is a scheme, an authority, a path, a query and a fragment.  It is read in a normal
form: scheme and host in small letters, the scheme's own port left out, points in the path
followed, and every character that may not stand in its part written as escaped bytes.  Escapes
that are there already stay as they are.  The name of a host is not mapped to another alphabet.
-/

namespace SolidWorkshop

/-- An address in normal form. -/
structure Url where
  scheme : String
  userInfo : String
  host : String
  port : Option Nat
  path : String
  query : Option String
  fragment : Option String
  deriving DecidableEq

namespace Url

/-- A printable ASCII character other than the blank. -/
def isVisible (c : Char) : Bool :=
  0x20 < c.toNat && c.toNat < 0x7f

/-- The characters of a fragment. -/
def inFragment (c : Char) : Bool :=
  isVisible c && !(['"', '<', '>', '\x60'].contains c)

/-- The characters of a query. -/
def inQuery (c : Char) : Bool :=
  isVisible c && !(['"', '#', '<', '>'].contains c)

/-- The characters of a path. -/
def inPath (c : Char) : Bool :=
  inQuery c && !(['?', '\x60', '\x7b', '\x7d'].contains c)

/-- The characters of the name and password in front of a host. -/
def inUserInfo (c : Char) : Bool :=
  inPath c && !(['/', ';', '=', '@', '[', '\\', ']', '^', '|'].contains c)

/-- The characters of a host. -/
def inHost (c : Char) : Bool :=
  c.isAlphanum || "-._~!$&'()*+,;=\"\x60\x7b\x7d%|\\".toList.contains c

/-- One byte as an escape. -/
def escapedByte (b : UInt8) : List Char :=
  ['%', Nat.digitChar (b.toNat / 16), Nat.digitChar (b.toNat % 16)].map Char.toUpper

/-- A text with escapes in the place of the characters that may not stand in it. -/
def escape (allowed : Char → Bool) (s : List Char) : List Char :=
  s.flatMap fun c =>
    if allowed c then [c] else c.toString.toUTF8.toList.flatMap escapedByte

/-- Follow the points of a path: a single one says nothing, double ones go back. -/
def followPoints (path : List Char) : List Char :=
  let names := Text.splitOn '/' path
  let back (done : List (List Char)) (name : List Char) : List (List Char) :=
    if name = ['.'] then done
    else if name = ['.', '.'] then if done = [] || done = [[]] then done else done.dropLast
    else done ++ [name]
  Text.joinWith '/' (names.foldl back [])

/-- The ports that schemes have of their own. -/
def ownPorts : List (String × Nat) :=
  [("ftp", 21), ("http", 80), ("https", 443), ("ws", 80), ("wss", 443)]

/-- A character of a scheme after its first letter. -/
def inScheme (c : Char) : Bool :=
  c.isAlphanum || c = '+' || c = '.' || c = '-'

/-- The scheme in front of a colon, possibly empty, and the rest. -/
def takeScheme (s : List Char) : List Char × List Char :=
  let name := s.takeWhile inScheme
  match name, s.dropWhile inScheme with
  | [], ':' :: rest => ([], rest)
  | c :: _, ':' :: rest => if c.isAlpha then (name, rest) else ([], s)
  | _, _ => ([], s)

/-- A character that does not end an authority. -/
def inAuthority (c : Char) : Bool :=
  c != '/' && c != '?' && c != '#'

/-- The parts of an address as they are written. -/
structure Parts where
  scheme : List Char
  authority : List Char
  path : List Char
  query : Option (List Char)
  fragment : Option (List Char)

/-- The part behind a mark, when the mark stands at the start, and the rest. -/
def takeMarked (mark : Char) (inside : Char → Bool) :
    List Char → Option (List Char) × List Char
  | c :: rest =>
    if c = mark then (some (rest.takeWhile inside), rest.dropWhile inside) else (none, c :: rest)
  | [] => (none, [])

/-- Take an address apart. -/
def Parts.ofChars (s : List Char) : Parts :=
  let (scheme, s) := takeScheme s
  let (authority, s) := match s with
    | '/' :: '/' :: rest => (rest.takeWhile inAuthority, rest.dropWhile inAuthority)
    | _ => ([], s)
  let inside (c : Char) : Bool := c != '?' && c != '#'
  let path := s.takeWhile inside
  let (query, s) := takeMarked '?' (· != '#') (s.dropWhile inside)
  let (fragment, _) := takeMarked '#' (fun _ => true) s
  ⟨scheme, authority, path, query, fragment⟩

/-- The name and password, the host, and the text of the port of an authority. -/
def splitAuthority (s : List Char) : List Char × List Char × List Char :=
  let afterLast := (s.reverse.takeWhile (· != '@')).reverse
  let userInfo := (s.take (s.length - afterLast.length)).dropLast
  let bracketed := (afterLast.reverse.dropWhile (· != ']')).reverse
  let host :=
    if afterLast.head? == some '[' && !bracketed.isEmpty then bracketed
    else afterLast.takeWhile fun c => c != ':' && c != '@'
  let rest := afterLast.drop host.length
  (userInfo, host, if rest.head? == some ':' then rest.drop 1 else rest)

/-- A host of four numbers with points between them. -/
def isNumbered (host : List Char) : Bool :=
  let parts := Text.splitOn '.' host
  parts.length == 4 && parts.all fun part => !part.isEmpty && part.all Char.isDigit

/-- The four numbers of a host are bytes without needless zeros. -/
def areBytes (host : List Char) : Bool :=
  (Text.splitOn '.' host).all fun part =>
    part.length ≤ 3 && Text.digitsValue part ≤ 255 && (part.length == 1 || part.head? != some '0')

/-- A group of hexadecimal digits. -/
def isGroup (part : List Char) : Bool :=
  !part.isEmpty && part.length ≤ 4 && part.all fun c => (Text.hexValue? c).isSome

/-- The groups of a host in brackets; four bytes at the end stand for two of them. -/
def groupsOf (inner : List Char) : List (List Char) :=
  let parts := Text.splitOn ':' inner
  let last := parts.getLast?.getD []
  if isNumbered last && areBytes last then parts.dropLast ++ [['0'], ['0']] else parts

/-- The groups make up an address: there are eight of them, or fewer with one gap. -/
def isGrouped (groups : List (List Char)) : Bool :=
  let side (part : List (List Char)) : Bool := part == [[]] || part.all isGroup
  let gaps := (List.range groups.length).filter fun i =>
    0 < i && i + 1 < groups.length && groups[i]? == some []
  match gaps with
  | [] => groups.length == 8 && groups.all isGroup
  | [i] => side (groups.take i) && side (groups.drop (i + 1)) &&
      (groups.filter (· != [])).length < 8
  | _ => false

/-- Read a host; in brackets stand groups of hexadecimal digits, and possibly the name of a zone
behind them. -/
def hostOf (host : List Char) : Except String (List Char) :=
  if isNumbered host then
    if areBytes host then .ok host
    else .error ("Invalid IPv4 address: " ++ Text.quoted (String.ofList host))
  else if host.head? == some '[' && host.getLast? == some ']' then
    let inner := (host.drop 1).dropLast
    let zone := inner.dropWhile (· != '%')
    let hasZone := zone.isEmpty || 1 < zone.length && zone.count '%' == 1
    if isGrouped (groupsOf (inner.takeWhile (· != '%'))) && hasZone then .ok inner
    else .error ("Invalid IPv6 address: " ++ Text.quoted (String.ofList host))
  else .ok (escape inHost (host.map Char.toLower))

/-- Read a port; the one of the scheme itself is left out. -/
def portOf (scheme port : List Char) : Except String (Option Nat) :=
  if port.isEmpty then .ok none
  else
    let digits := Text.trim port
    let digits := if digits.head? == some '+' then digits.drop 1 else digits
    if digits.isEmpty || !digits.all Text.isDigit then
      .error ("Invalid port: " ++ Text.quoted (String.ofList port))
    else
      let n := Text.digitsValue digits
      .ok (if ownPorts.lookup (String.ofList scheme) == some n then none else some n)

/-- Bring the parts of an address into normal form. -/
def ofParts (p : Parts) : Except String Url := do
  let (userInfo, host, port) := splitAuthority p.authority
  let userInfo := escape inUserInfo userInfo
  let host ← hostOf host
  let port ← portOf p.scheme port
  let scheme := p.scheme.map Char.toLower
  let hasAuthority := !userInfo.isEmpty || !host.isEmpty || port.isSome
  if hasAuthority && !p.path.isEmpty && p.path.head? != some '/' then
    throw "For absolute URLs, path must be empty or begin with '/'"
  if scheme.isEmpty && !hasAuthority then
    if ['/', '/'].isPrefixOf p.path then
      throw "Relative URLs cannot have a path starting with '//'"
    if p.path.head? == some ':' then
      throw "Relative URLs cannot have a path starting with ':'"
  let path := if !scheme.isEmpty || hasAuthority then followPoints p.path else p.path
  return {
    scheme := String.ofList scheme, userInfo := String.ofList userInfo,
    host := String.ofList host, port := port, path := String.ofList (escape inPath path),
    query := p.query.map fun q => String.ofList (escape inQuery q),
    fragment := p.fragment.map fun f => String.ofList (escape inFragment f) }

/-- The longest text of an address. -/
def maxLength : Nat := 65536

/-- A control character of ASCII. -/
def isControl (c : Char) : Bool :=
  c.toNat < 0x20 || c.toNat = 0x7f

/-- Read an address. -/
def ofText (s : String) : Except String Url :=
  let cs := s.toList
  if maxLength < cs.length then .error "URL too long"
  else
    match cs.find? isControl with
    | some c =>
      .error ("Invalid non-printable ASCII character in URL, " ++ Text.quoted c.toString
        ++ " at position " ++ toString (cs.takeWhile (!isControl ·)).length ++ ".")
    | none => ofParts (Parts.ofChars cs)

/-- The host and the port. -/
def netLocation (u : Url) : String :=
  (if u.host.toList.contains ':' then "[" ++ u.host ++ "]" else u.host)
    ++ (match u.port with
      | some n => ":" ++ toString n
      | none => "")

/-- The authority. -/
def authority (u : Url) : String :=
  (if u.userInfo.isEmpty then "" else u.userInfo ++ "@") ++ u.netLocation

/-- The text of an address. -/
def text (u : Url) : String :=
  (if u.scheme.isEmpty then "" else u.scheme ++ ":")
    ++ (if u.authority.isEmpty then "" else "//" ++ u.authority)
    ++ u.path
    ++ (match u.query with
      | some q => "?" ++ q
      | none => "")
    ++ (match u.fragment with
      | some f => "#" ++ f
      | none => "")

/-- The address says where it leads by itself. -/
def isAbsolute (u : Url) : Bool :=
  !u.scheme.isEmpty && !u.host.isEmpty

/-- An address without a place to start from is taken below the root. -/
def below (u : Url) : Url :=
  let path := String.ofList (u.path.toList.dropWhile (· == '/'))
  { scheme := "", userInfo := "", host := "", port := none, path := "/" ++ path, query := u.query,
    fragment := none }

/-- The names of a path that a relative one starts from. -/
def startNames (base : List Char) : List (List Char) :=
  let names := Text.splitOn '/' base
  if names.getLast? == some [] then names else names.dropLast

/-- Without the empty names between the first and the last one. -/
def dropInnerEmpty : List (List Char) → List (List Char)
  | [] => []
  | first :: rest => first :: (rest.dropLast.filter (· != []) ++ rest.getLast?.toList)

/-- The path that a relative path leads to from another path. -/
def joinPaths (base path : List Char) : List Char :=
  let names := Text.splitOn '/' path
  let names := if path.head? == some '/' then names else dropInnerEmpty (startNames base ++ names)
  let done := names.foldl (fun done name =>
    if name = ['.', '.'] then done.dropLast else if name = ['.'] then done else done ++ [name]) []
  let ends (name : List Char) : Bool := names.getLast? == some name
  let done := if ends ['.'] || ends ['.', '.'] then done ++ [[]] else done
  let joined := Text.joinWith '/' done
  if joined.isEmpty then ['/'] else joined

/-- The text of the address that a relative one leads to. -/
def joinText (base target : Url) : String :=
  let marked (mark : String) (part : Option String) : String :=
    match part with
    | some s => if s.isEmpty then "" else mark ++ s
    | none => ""
  let finish (authority path query fragment : String) : String :=
    let path := if !path.isEmpty && path.toList.head? != some '/' then "/" ++ path else path
    (if base.scheme.isEmpty then "" else base.scheme ++ ":")
      ++ (if authority.isEmpty then "" else "//" ++ authority) ++ path ++ query ++ fragment
  if target.text.isEmpty then base.text
  else if !target.scheme.isEmpty && target.scheme != base.scheme then target.text
  else if !target.authority.isEmpty then
    finish target.authority target.path (marked "?" target.query) (marked "#" target.fragment)
  else if target.path.isEmpty then
    let query := if (target.query.getD "").isEmpty then base.query else target.query
    finish base.authority base.path (marked "?" query) (marked "#" target.fragment)
  else
    finish base.authority (String.ofList (joinPaths base.path.toList target.path.toList))
      (marked "?" target.query) (marked "#" target.fragment)

/-- The address with another host. -/
def withHost (u : Url) (host : String) : Except String Url :=
  if !host.isEmpty && !u.path.isEmpty && u.path.toList.head? != some '/' then
    .error "For absolute URLs, path must be empty or begin with '/'"
  else .ok { u with host := host }

/-- The address with the fragment of another one, when it has none of its own. -/
def withFragmentOf (u other : Url) : Url :=
  match other.fragment with
  | some f =>
    if !f.isEmpty && (u.fragment.getD "").isEmpty then { u with fragment := some f } else u
  | none => u

/-- The address that an answer's direction leads to. -/
def follow (u target : Url) : Except String Url := do
  let target ← if !target.scheme.isEmpty && target.host.isEmpty then target.withHost u.host
    else pure target
  let target ← if target.isAbsolute then pure target else ofText (joinText u target)
  return target.withFragmentOf u

end Url

end SolidWorkshop
