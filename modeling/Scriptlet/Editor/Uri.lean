/-
Scriptlet.Editor.Uri — names of documents.

A document is named by a URI. The URI of a file is `file://` followed by its
absolute path, where every byte other than an unaccented letter, a digit or one
of `_ . - ~ /` is written as a percent sign and two hexadecimal digits.

Read the other way round, a URI is a scheme, a host, a path and what follows the
path, and each may be missing. Blanks in front are skipped, tabs and line ends
left out wherever they are, and bytes that spell no character replaced. No URI is
refused but for its host.

  §1 The URI of a path.
  §2 Percent signs.
  §3 The parts of a URI.
  §4 The path of a URI.
-/
import Scriptlet.Editor.Host
import Scriptlet.Text.Utf8

namespace Scriptlet.Editor.Uri

/-! ## §1 The URI of a path -/

/-- May a byte stand in a URI as it is? -/
def isPlain (b : UInt8) : Bool :=
  let c := Char.ofNat b.toNat
  c.isAlphanum || c == '_' || c == '.' || c == '-' || c == '~' || c == '/'

/-- The hexadecimal digit of a number below sixteen. -/
def hexDigit (n : Nat) : Char := (Nat.digitChar n).toUpper

/-- A byte in a URI. -/
def encodeByte (b : UInt8) : Text :=
  if isPlain b then [.char (Char.ofNat b.toNat)]
  else [.char '%', .char (hexDigit (b.toNat / 16)), .char (hexDigit (b.toNat % 16))]

/-- The scheme of files. -/
def fileScheme : Text := "file"

/-- The URI of the file at an absolute path. -/
def ofPath (path : Text) : Text :=
  fileScheme ++ Text.ofString "://" ++ path.bytes.flatMap encodeByte

/-! ## §2 Percent signs -/

/-- The bytes that a text with percent signs stands for. A percent sign that two hexadecimal digits
do not follow stands for itself. -/
def decode : Text → Bytes
  | [] => []
  | .char '%' :: a :: b :: rest =>
    match a.hexValue?, b.hexValue? with
    | some x, some y => UInt8.ofNat (16 * x + y) :: decode rest
    | _, _ => Symbol.bytes (.char '%') ++ decode (a :: b :: rest)
  | s :: rest => s.bytes ++ decode rest
termination_by t => t.length

/-- The text that a text with percent signs stands for. -/
def decoded (t : Text) : Text := Text.ofBytesReplacing (decode t)

/-! ## §3 The parts of a URI -/

/-- What is skipped at the start of a URI: control characters and spaces. -/
def isSkipped : Symbol → Bool := Symbol.holds (· ≤ ' ')

/-- What is left out of a URI: tabs and line ends. -/
def isLeftOut : Symbol → Bool := Symbol.holds fun c => c == '\t' || c == '\n' || c == '\r'

/-- A URI without blanks that do not belong to it. -/
def clean (uri : Text) : Text := (uri.dropWhile isSkipped).filter fun s => !isLeftOut s

/-- May a text be a scheme? It is a letter, followed by letters, digits and some signs. -/
def isScheme (t : Text) : Bool :=
  t.head?.any (Symbol.holds Char.isAlpha)
    && t.all (Symbol.holds fun c => c.isAlphanum || c == '+' || c == '-' || c == '.')

/-- A text with small letters for unaccented capital ones. -/
def lowercase (t : Text) : Text :=
  t.map fun
    | .char c => .char c.toLower
    | .stray b => .stray b

/-- The scheme of a URI, in small letters, and what follows it. Without a scheme that is all. -/
def splitScheme (uri : Text) : Text × Text :=
  let scheme := uri.takeWhile (· != .char ':')
  match uri.dropWhile (· != .char ':') with
  | [] => ([], uri)
  | _ :: rest => if isScheme scheme then (lowercase scheme, rest) else ([], uri)

/-- Does a symbol end the host? -/
def endsHost : Symbol → Bool := Symbol.holds fun c => c == '/' || c == '?' || c == '#'

/-- The host that two slashes announce, and what follows it. -/
def splitHost : Text → Text × Text
  | .char '/' :: .char '/' :: rest =>
    (rest.takeWhile (!endsHost ·), rest.dropWhile (!endsHost ·))
  | rest => ([], rest)

/-- Does a symbol end the path? Query and fragment are no part of it. -/
def endsPath : Symbol → Bool := Symbol.holds fun c => c == '?' || c == '#'

/-- The schemes under which parameters may follow a path. -/
def schemesWithParameters : List Text :=
  ["", "ftp", "hdl", "prospero", "http", "imap", "https", "shttp", "rtsp", "rtsps", "rtspu", "sip",
   "sips", "mms", "sftp", "tel"]

/-- A path without parameters, which follow a semicolon in the last component. -/
def dropParameters (path : Text) : Text :=
  let last := (Text.splitOn (.char '/') path).getLast?.getD []
  path.take (path.length - last.length) ++ last.takeWhile (· != .char ';')

/-- The parts of a URI that tell where a file is. Host and path still have percent signs. -/
structure Parts where
  /-- The scheme, in small letters, or nothing. -/
  scheme : Text
  /-- The host, or nothing. -/
  host : Text
  /-- The path, which may be empty. -/
  path : Text
deriving DecidableEq, Repr, Inhabited

/-- The parts of a URI, if it may name its host. -/
def parts? (uri : Text) : Option Parts :=
  let (scheme, afterScheme) := splitScheme (clean uri)
  let (host, afterHost) := splitHost afterScheme
  let path := afterHost.takeWhile (!endsPath ·)
  if Host.isAllowed host then
    some ⟨scheme, host, if schemesWithParameters.contains scheme then dropParameters path else path⟩
  else none

/-! ## §4 The path of a URI -/

/-- A path that starts with the letter of a drive has no slash in front, and the letter is a small
one. -/
def normalizeDrive (path : Text) : Text :=
  match path with
  | .char '/' :: .char drive :: .char ':' :: rest =>
    if drive.isAlpha then .char drive.toLower :: .char ':' :: rest else path
  | _ => path

/-- The path that the parts of a URI lead to. The host of a file stands in front of its path, behind
two slashes. -/
def Parts.location (p : Parts) : Text :=
  if p.scheme == fileScheme && !p.host.isEmpty && !p.path.isEmpty then
    Text.ofString "//" ++ decoded p.host ++ decoded p.path
  else normalizeDrive (decoded p.path)

/-- The path of the file that a URI names, if it may name its host. -/
def path? (uri : Text) : Option Text := (parts? uri).map Parts.location

end Scriptlet.Editor.Uri
