/-
Scriptlet.Token.Basic — the words of the language.

A token has a kind, the exact slice of source it was read from, the value that a
number or a string stands for, and its place in the source. Words that are
reserved have kinds of their own, also those for which there is no statement yet,
so that they can never name a variable.

  §1 Kinds and their names.
  §2 Reserved words and marks.
  §3 Tokens and the line a token has in the listing.
-/
import Scriptlet.Value

namespace Scriptlet

/-! ## §1 Kinds and their names -/

namespace Token

/-- The kinds of token. -/
inductive Kind where
  | leftParen
  | rightParen
  | leftBrace
  | rightBrace
  | comma
  | dot
  | minus
  | plus
  | semicolon
  | slash
  | star
  | bang
  | bangEqual
  | equal
  | equalEqual
  | greater
  | greaterEqual
  | less
  | lessEqual
  | name
  | string
  | number
  | andWord
  | classWord
  | elseWord
  | elifWord
  | falseWord
  | funWord
  | forWord
  | ifWord
  | nilWord
  | orWord
  | printWord
  | returnWord
  | superWord
  | thisWord
  | trueWord
  | varWord
  | whileWord
  /-- The end of the source. -/
  | finish
deriving DecidableEq, Repr, Inhabited

namespace Kind

/-- Every kind with the name it has in listings. -/
def labels : List (Kind × String) :=
  [(leftParen, "LPAREN"), (rightParen, "RPAREN"), (leftBrace, "LBRACE"), (rightBrace, "RBRACE"),
   (comma, "COMMA"), (dot, "DOT"), (minus, "MINUS"), (plus, "PLUS"), (semicolon, "SEMICOLON"),
   (slash, "SLASH"), (star, "STAR"), (bang, "NOT"), (bangEqual, "NOTEQ"), (equal, "ASSIGN"),
   (equalEqual, "EQ"), (greater, "GREATER"), (greaterEqual, "GEQ"), (less, "LESS"),
   (lessEqual, "LEQ"), (name, "IDENT"), (string, "STRING"), (number, "NUMBER"), (andWord, "AND"),
   (classWord, "CLASS"), (elseWord, "ELSE"), (elifWord, "ELIF"), (falseWord, "FALSE"),
   (funWord, "FUN"), (forWord, "FOR"), (ifWord, "IF"), (nilWord, "NIL"), (orWord, "OR"),
   (printWord, "PRINT"), (returnWord, "RETURN"), (superWord, "SUPER"), (thisWord, "THIS"),
   (trueWord, "TRUE"), (varWord, "VAR"), (whileWord, "WHILE"), (finish, "EOF")]

/-- The name of a kind in listings. -/
def label (k : Kind) : String := (labels.lookup k).getD ""

/-- The kind with a given name. -/
def ofLabel? (s : String) : Option Kind := (labels.find? (·.2 == s)).map (·.1)

/-! ## §2 Reserved words and marks -/

/-- The reserved words. -/
def reserved : List (String × Kind) :=
  [("and", andWord), ("class", classWord), ("else", elseWord), ("elif", elifWord),
   ("false", falseWord), ("for", forWord), ("fun", funWord), ("if", ifWord),
   ("nil", nilWord), ("or", orWord), ("print", printWord), ("return", returnWord),
   ("super", superWord), ("this", thisWord), ("true", trueWord), ("var", varWord),
   ("while", whileWord)]

/-- The kind of a word: that of the reserved word it is, or else a name. -/
def ofWord (word : Text) : Kind :=
  match reserved.find? fun entry => Text.ofString entry.1 == word with
  | some entry => entry.2
  | none => name

/-- The marks of two symbols. -/
def ofPair? : Symbol → Symbol → Option Kind
  | .char '!', .char '=' => some bangEqual
  | .char '=', .char '=' => some equalEqual
  | .char '>', .char '=' => some greaterEqual
  | .char '<', .char '=' => some lessEqual
  | _, _ => none

/-- The marks of one symbol. -/
def ofSymbol? : Symbol → Option Kind
  | .char '(' => some leftParen
  | .char ')' => some rightParen
  | .char '\x7b' => some leftBrace
  | .char '\x7d' => some rightBrace
  | .char ',' => some comma
  | .char '.' => some dot
  | .char '-' => some minus
  | .char '+' => some plus
  | .char ';' => some semicolon
  | .char '/' => some slash
  | .char '*' => some star
  | .char '!' => some bang
  | .char '=' => some equal
  | .char '>' => some greater
  | .char '<' => some less
  | _ => none

/-- The kinds with which a statement can only begin. -/
def startsStatement : Kind → Bool
  | .classWord | .funWord | .varWord | .forWord | .ifWord | .whileWord | .printWord
  | .returnWord => true
  | _ => false

end Kind

/-- What a number or string token stands for. -/
inductive Literal where
  | number (x : Double)
  | string (t : Text)
deriving DecidableEq, Repr, Inhabited

end Token

/-! ## §3 Tokens -/

/-- A token of a source. -/
structure Token where
  /-- Its kind. -/
  kind : Token.Kind
  /-- The slice of source it was read from. -/
  lexeme : Text
  /-- The number or string it stands for. -/
  literal : Option Token.Literal
  /-- The line of its last symbol, counted from one. -/
  line : Int
  /-- The column of its first symbol, counted from zero. -/
  column : Nat
deriving DecidableEq, Repr, Inhabited

namespace Token

/-- The value that a literal denotes in a program. -/
def Literal.value : Literal → Value
  | .number x => .number x
  | .string t => .string t

/-- The value that a token denotes; nil when it stands for none. -/
def value (t : Token) : Value := t.literal.elim .nil Literal.value

/-- The text of a literal in the listing: numbers in full form, strings as they are. -/
def Literal.listing : Literal → Text
  | .number x => x.fullForm.map .char
  | .string t => t

/-- The line a token has in the listing: its kind, its lexeme and what it stands for. -/
def listing (t : Token) : Text :=
  Text.ofString t.kind.label ++ .char ' ' :: t.lexeme ++ .char ' ' ::
    t.literal.elim (Text.ofString "null") Literal.listing

end Token

end Scriptlet
