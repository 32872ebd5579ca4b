/-
Scriptlet.Editor.Host — the hosts that a URI may name.

A host is a name, or an address between square brackets. An address is eight
groups of hexadecimal digits with colons between them. Two colons in a row stand,
at one place, for a group of zeros or for several; four decimal numbers with
points between them may take the place of the last two groups; the name of a zone
may follow behind a percent sign. An address that starts with a `v` and its
version may have any form. Characters that are mere variants of those which divide
a URI make a host ambiguous, and it is refused.

  §1 Addresses.
  §2 Hosts.
-/
import Scriptlet.Text.Basic

namespace Scriptlet.Editor.Host

/-! ## §1 Addresses -/

/-- One to four hexadecimal digits. -/
def isGroup (t : Text) : Bool := !t.isEmpty && t.length ≤ 4 && t.all Symbol.isHexDigit

/-- A number up to 255, in as few decimal digits as it needs. -/
def isOctet (t : Text) : Bool := (List.range 256).any fun n => Text.ofNat n == t

/-- Four such numbers with points between them. -/
def isDottedQuad (t : Text) : Bool :=
  let octets := Text.splitOn Symbol.point t
  octets.length == 4 && octets.all isOctet

/-- The parts of a text between its colons; an empty text has none. -/
def parts (t : Text) : List Text := if t.isEmpty then [] else Text.splitOn (.char ':') t

/-- How many groups the parts of an address stand for. Where the address ends with them, the last
may be four numbers, which stand for two groups. -/
def groups? (atEnd : Bool) : List Text → Option Nat
  | [] => some 0
  | [last] =>
    if isGroup last then some 1
    else if atEnd && isDottedQuad last then some 2
    else none
  | part :: rest => if isGroup part then (groups? atEnd rest).map (· + 1) else none

/-- What is before and behind the first two colons in a row. -/
def splitAtGap? : Text → Option (Text × Text)
  | [] => none
  | .char ':' :: .char ':' :: rest => some ([], rest)
  | s :: rest => (splitAtGap? rest).map fun (before, behind) => (s :: before, behind)

/-- Is a text an address of eight groups? Two colons in a row stand for those that are missing. -/
def isAddress (t : Text) : Bool :=
  match splitAtGap? t with
  | none => groups? true (parts t) == some 8
  | some (before, behind) =>
    match groups? false (parts before), groups? true (parts behind) with
    | some m, some n => m + n < 8
    | _, _ => false

/-- Is a text an address, with or without the name of a zone? -/
def isZonedAddress (t : Text) : Bool :=
  match Text.splitOn (.char '%') t with
  | [address] => isAddress address
  | [address, zone] => isAddress address && !zone.isEmpty
  | _ => false

/-- Is a text a version in hexadecimal digits, a point, and something behind it? -/
def isVersioned (t : Text) : Bool :=
  match t.takeWhile Symbol.isHexDigit, t.dropWhile Symbol.isHexDigit with
  | _ :: _, .char '.' :: _ :: _ => true
  | _, _ => false

/-- May a text stand between square brackets? -/
def isBracketable : Text → Bool
  | .char 'v' :: rest => isVersioned rest
  | t => isZonedAddress t

/-! ## §2 Hosts -/

/-- The characters whose compatibility form contains one of `/ ? # @ :`. -/
def dividerVariants : List Char :=
  ['\u2047', '\u2048', '\u2049', '\u2100', '\u2101', '\u2105', '\u2106', '\u2a74', '\ufe13',
   '\ufe16', '\ufe55', '\ufe56', '\ufe5f', '\ufe6b', '\uff03', '\uff0f', '\uff1a', '\uff1f',
   '\uff20']

/-- What stands between the first opening bracket and the closing one behind it. -/
def bracketed (host : Text) : Text :=
  ((host.dropWhile (· != .char '[')).drop 1).takeWhile (· != .char ']')

/-- May a URI name the host? A bracket needs its counterpart and an address behind it. -/
def isAllowed (host : Text) : Bool :=
  let opens := host.contains (.char '[')
  let closes := host.contains (.char ']')
  opens == closes && (!opens || isBracketable (bracketed host))
    && !host.any (Symbol.holds dividerVariants.contains)

end Scriptlet.Editor.Host
