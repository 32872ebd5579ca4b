/-
Scriptlet.Proofs.Tree.Legible — what the trees of a source are spelled with.

In the prefix form of a tree, blanks, parentheses and quotes stand between words. The
trees that are read from a source have none of them in their words: operators are
marks, names are made of letters and digits, and numbers of digits, points, signs and
the mark of a power. Strings may have them, but no quote. A number that is infinite
would be the word `Infinity`, which is also a name, so the numbers are to be finite.

  §1 Words and what is between them.
  §2 Numbers.
  §3 Operators and names.
  §4 Legible trees.
  §5 Trees read from a source.
-/
import Scriptlet.Proofs.Decimal.Faithful
import Scriptlet.Proofs.Token.Munch
import Scriptlet.Proofs.Token.Word
import Scriptlet.Proofs.Tree.Parts
import Scriptlet.Proofs.Tree.Relocation

namespace Scriptlet

open Token (Kind)

/-! ## §1 Words and what is between them -/

/-- The symbols between words: the blank, the parentheses and the quote. -/
def Symbol.delimiters : List Symbol := [.char ' ', .char '(', .char ')', Symbol.quote]

namespace Text

/-- A text without delimiters. -/
def IsBare (t : Text) : Prop := ∀ s ∈ t, s ∉ Symbol.delimiters

instance (t : Text) : Decidable t.IsBare :=
  inferInstanceAs (Decidable (∀ s ∈ t, s ∉ Symbol.delimiters))

/-- Does a text begin as words of the language do? -/
def startsWord (t : Text) : Bool := t.head?.any Symbol.isWordStart

end Text

/-! ## §2 Numbers -/

theorem Spelling.mem_text {s : Spelling} {c : Char} (mem : c ∈ s.text) :
    c.isDigit = true ∨ c ∈ ['-', '.', 'E'] := by
  have digit : ∀ {ds}, c ∈ digitChars ds → c.isDigit = true := isDigit_of_mem_digitChars
  have power : c ∈ powerText s.power → c.isDigit = true ∨ c ∈ ['-', '.', 'E'] := by
    match s.power with
    | none => simp [powerText]
    | some (negative, ds) =>
      intro mem
      rcases List.mem_cons.mp mem with rfl | mem
      · decide
      rcases mem_signed mem with rfl | mem
      · decide
      · exact .inl (digit mem)
  rcases mem_signed mem with rfl | mem
  · decide
  rw [List.mem_append, List.mem_cons, List.mem_append] at mem
  rcases mem with mem | rfl | mem | mem
  · exact .inl (digit mem)
  · decide
  · exact .inl (digit mem)
  · exact power mem

namespace Double

variable {x : Double}

/-- The brief form of a finite double begins with a digit, perhaps behind a minus. -/
theorem exists_briefForm (finite : x.magnitude < infinite) :
    ∃ negative d cs, x.briefForm = Spelling.signed negative (Nat.digitChar (d : Fin 10) :: cs) := by
  obtain ⟨s, text, -, form, -⟩ := exists_spelling finite
  obtain ⟨ds, tail, nonempty, brief⟩ : ∃ ds tail, ds ≠ [] ∧
      x.briefForm = Spelling.signed s.negative (digitChars ds ++ tail) := by
    rw [briefForm, text]
    split at form
    · exact ⟨s.whole, _, form.whole, form.dropPointZero_text⟩
    · obtain ⟨d, whole, -⟩ := form.whole
      exact ⟨s.whole, _, by simp [whole], form.dropPointZero_text⟩
  obtain ⟨d, ds, rfl⟩ := List.exists_cons_of_ne_nil nonempty
  exact ⟨s.negative, d, digitChars ds ++ tail, brief⟩

/-- The brief form of a finite double has digits, points, signs and the mark of a power. -/
theorem mem_briefForm (finite : x.magnitude < infinite) {c : Char} (mem : c ∈ x.briefForm) :
    c.isDigit = true ∨ c ∈ ['-', '.', 'E'] := by
  obtain ⟨s, text, -⟩ := exists_spelling finite
  have mem : c ∈ s.text := by
    rw [← text]
    unfold briefForm dropPointZero at mem
    split at mem
    · exact List.dropLast_subset _ (List.dropLast_subset _ mem)
    · exact mem
  exact s.mem_text mem

end Double

theorem Value.isBare_number {x : Double} (finite : x.magnitude < Double.infinite) :
    (Value.number x).text.IsBare := by
  have apart : ∀ s ∈ Symbol.delimiters, s.isDigit = false ∧
      s ∉ ['-', '.', 'E'].map Symbol.char := by decide
  intro s mem delimits
  obtain ⟨c, written, rfl⟩ := List.mem_map.mp mem
  obtain ⟨noDigit, noMark⟩ := apart _ delimits
  rcases Double.mem_briefForm finite written with digit | mark
  · exact absurd digit (Bool.eq_false_iff.mp noDigit)
  · exact noMark (List.mem_map_of_mem mark)

/-- The words of numbers begin as no other words do. -/
theorem Value.startsWord_number {x : Double} (finite : x.magnitude < Double.infinite) :
    (Value.number x).text ≠ [] ∧ (Value.number x).text.startsWord = false := by
  obtain ⟨negative, d, cs, brief⟩ := Double.exists_briefForm finite
  have digit : ∀ d : Fin 10, (Symbol.char (Nat.digitChar d)).isWordStart = false := by decide
  rw [Value.text, brief]
  cases negative with
  | false => exact ⟨nofun, digit d⟩
  | true => exact ⟨nofun, rfl⟩

/-! ## §3 Operators and names -/

namespace Token.Kind

/-- The kinds of operators before and between operands. -/
def operators : List Kind := .bang :: binaryOperators

/-- The lexeme of an operator. -/
def sign : Kind → Text
  | .bang => "!"
  | .plus => "+"
  | .minus => "-"
  | .star => "*"
  | .slash => "/"
  | .greater => ">"
  | .greaterEqual => ">="
  | .less => "<"
  | .lessEqual => "<="
  | .equalEqual => "=="
  | .bangEqual => "!="
  | _ => []

/-- The kind of the operator with a given lexeme. -/
def ofSign (t : Text) : Kind := (operators.find? fun k => k.sign == t).getD .finish

theorem ofSign_sign : ∀ k ∈ operators, ofSign k.sign = k := by decide

/-- The lexemes of operators are words, and not those that other nodes have at their head. -/
theorem sign_apart : ∀ k ∈ operators, (∀ s ∈ k.sign, s ∉ Symbol.delimiters) ∧
    k.sign ≠ Text.ofString "group" ∧ k.sign ≠ Text.ofString "=" := by decide

theorem reserved_not_operator : ∀ entry ∈ reserved, entry.2 ∉ operators := by decide

/-- A mark of the kind of an operator is its sign. -/
theorem eq_sign_of_matches {kind : Kind} {t : Text} (follows : (Piece.Form.mark kind).Matches t)
    (mem : kind ∈ operators) : t = kind.sign := by
  rcases follows with ⟨a, rfl, single⟩ | ⟨a, b, rfl, pair⟩
  · unfold ofSymbol? at single
    split at single <;> cases single <;> first | rfl | exact absurd mem (by decide)
  · unfold ofPair? at pair
    split at pair <;> cases pair <;> rfl

end Token.Kind

namespace Token

variable {t u : Token}

/-- An operator of a source: its lexeme is its sign. -/
structure IsOperator (t : Token) : Prop where
  kind : t.kind ∈ Kind.operators
  lexeme : t.lexeme = t.kind.sign
  literal : t.literal = none

/-- A name of a source. -/
structure IsName (t : Token) : Prop where
  names : t.NamesVariable
  literal : t.literal = none

/-- The operator with a given lexeme, in no place. -/
def operatorOf (lexeme : Text) : Token := ⟨Kind.ofSign lexeme, lexeme, none, 0, 0⟩

/-- An operator is known by its lexeme. -/
theorem IsOperator.relocate_eq (h : t.IsOperator) : t.relocate .nowhere = operatorOf t.lexeme := by
  have kind : Kind.ofSign t.lexeme = t.kind := by rw [h.lexeme, Kind.ofSign_sign _ h.kind]
  rw [operatorOf, kind, ← h.literal]
  rfl

/-- A name is known by its lexeme. -/
theorem IsName.relocate_eq (h : t.IsName) (h' : u.IsName) (same : t.lexeme = u.lexeme) :
    t.relocate .nowhere = u.relocate .nowhere := by
  have kind : t.kind = u.kind := h.names.1.trans h'.names.1.symm
  simp [relocate, Relocation.nowhere, kind, same, h.literal, h'.literal]

theorem IsOperator.isBare (h : t.IsOperator) : t.lexeme.IsBare := by
  rw [h.lexeme]
  exact (Kind.sign_apart _ h.kind).1

theorem IsOperator.ne_group (h : t.IsOperator) : t.lexeme ≠ Text.ofString "group" := by
  rw [h.lexeme]
  exact (Kind.sign_apart _ h.kind).2.1

theorem IsOperator.ne_equal (h : t.IsOperator) : t.lexeme ≠ Text.ofString "=" := by
  rw [h.lexeme]
  exact (Kind.sign_apart _ h.kind).2.2

theorem IsName.startsWord (h : t.IsName) : t.lexeme.startsWord = true := by
  obtain ⟨first, rest, eq, start, -⟩ := h.names.2.1
  rw [eq]
  exact start

theorem IsName.ne_nil (h : t.IsName) : t.lexeme ≠ [] := by
  intro empty
  have starts := h.startsWord
  rw [empty] at starts
  cases starts

theorem IsName.isBare (h : t.IsName) : t.lexeme.IsBare := by
  have apart : ∀ s ∈ Symbol.delimiters, s.isWordPart = false := by decide
  intro s mem delimits
  have part := (Piece.wordParts_of_matches h.names.2.1).2 s mem
  rw [apart s delimits] at part
  cases part

end Token

/-! ## §4 Legible trees -/

/-- A literal of a source that is read: a number is finite and a string has no quote. -/
def Value.IsLegible : Value → Prop
  | .nil | .bool _ => True
  | .number x => x.magnitude < Double.infinite
  | .string t => Symbol.quote ∉ t

/-- An expression that can be read from a source with finite numbers. -/
def Expr.IsLegible : Expr → Prop
  | .literal v => v.IsLegible
  | .group inner => inner.IsLegible
  | .unary operator operand => operator.IsOperator ∧ operand.IsLegible
  | .binary left operator right => operator.IsOperator ∧ left.IsLegible ∧ right.IsLegible
  | .var name => name.IsName
  | .assign name value => name.IsName ∧ value.IsLegible
  | .misfit _ => False

/-- A statement that can be read from a source with finite numbers. -/
def Stmt.IsLegible : Stmt → Prop
  | .expression e | .print e => e.IsLegible
  | .var name initial => name.IsName ∧ ∀ e ∈ initial, e.IsLegible
  | .misfit _ => False

/-! ## §5 Trees read from a source -/

/-- Is a token a finite number, if it is a number? -/
def Token.isFinite (t : Token) : Bool :=
  match t.literal with
  | some (.number x) => x.magnitude < Double.infinite
  | _ => true

section Sources

variable {source : Text} {t : Token}

theorem Text.isOperator_of_mem_lex (mem : t ∈ source.lex.tokens) (kind : t.kind ∈ Kind.operators) :
    t.IsOperator := by
  obtain ⟨form, follows, reads⟩ := Text.exists_reads_of_mem_lex mem
  cases form with
  | string | number => exact absurd (reads.1 ▸ kind) (by decide)
  | word =>
    rcases reads.2 with ⟨entry, reserved, -, eq⟩ | ⟨eq, -⟩
    · exact absurd (eq ▸ kind) (Kind.reserved_not_operator entry reserved)
    · exact absurd (eq ▸ kind) (by decide)
  | mark k =>
    obtain ⟨rfl, literal⟩ := reads
    exact ⟨kind, Kind.eq_sign_of_matches follows kind, literal⟩
  | openString | comment | newline | blank | unknown => exact reads.elim

theorem Text.isName_of_mem_lex (mem : t ∈ source.lex.tokens) (names : t.NamesVariable) :
    t.IsName := by
  refine ⟨names, ?_⟩
  obtain ⟨form, follows, reads⟩ := Text.exists_reads_of_mem_lex mem
  cases form with
  | string | number => exact absurd (reads.1.symm.trans names.1) (by decide)
  | word => exact reads.1
  | mark k => exact reads.2
  | openString | comment | newline | blank | unknown => exact reads.elim

/-- A token without a literal can only be one of three constants. -/
theorem Token.isLegible_of_no_literal (none : t.literal = none) {v : Value}
    (constant : t.constant? = some v) : v.IsLegible := by
  have value : t.value = .nil := by rw [Token.value, none]; rfl
  unfold Token.constant? at constant
  split at constant <;> cases constant
  case h_4 | h_5 => rw [value]; trivial
  all_goals trivial

theorem Text.isLegible_of_mem_lex (mem : t ∈ source.lex.tokens) (finite : t.isFinite = true)
    {v : Value} (constant : t.constant? = some v) : v.IsLegible := by
  obtain ⟨form, follows, reads⟩ := Text.exists_reads_of_mem_lex mem
  cases form with
  | string =>
    obtain ⟨kind, body, lexeme, literal⟩ := reads
    obtain ⟨body', lexeme', noQuote⟩ := follows
    have same : body ++ [Symbol.quote] = body' ++ [Symbol.quote] :=
      (List.cons.inj (lexeme.symm.trans lexeme')).2
    simp only [Token.constant?, kind, Token.value, literal] at constant
    obtain rfl := Option.some.inj constant
    show Symbol.quote ∉ body
    rwa [List.append_cancel_right same]
  | number =>
    obtain ⟨kind, whole, fraction, -, -, literal⟩ := reads
    simp only [Token.constant?, kind, Token.value, literal] at constant
    obtain rfl := Option.some.inj constant
    show (Decimal.ofDigits whole fraction).toDouble.magnitude < Double.infinite
    simpa [Token.isFinite, literal] using finite
  | word => exact Token.isLegible_of_no_literal reads.1 constant
  | mark k => exact Token.isLegible_of_no_literal reads.2 constant
  | openString | comment | newline | blank | unknown => exact reads.elim

variable (finite : ∀ t ∈ source.lex.tokens, t.isFinite = true)

include finite

/-- An expression made of the tokens of a source with finite numbers is legible. -/
theorem Expr.MadeOf.isLegible {e : Expr} (h : e.MadeOf source.lex.tokens) : e.IsLegible := by
  induction e with
  | literal v =>
    obtain ⟨t, mem, constant⟩ := Token.exists_of_value (h.residues List.mem_cons_self)
    exact Text.isLegible_of_mem_lex mem (finite t mem) constant
  | group inner ih => exact ih (h.of_mem_children inner List.mem_cons_self)
  | unary operator operand ih =>
    have kind : operator.kind ∈ Kind.operators := by
      rcases h.wellFormed.1 with eq | eq <;> rw [eq] <;> decide
    have mem := Token.mem_of_whole (h.residues List.mem_cons_self)
    exact ⟨Text.isOperator_of_mem_lex mem kind, ih (h.of_mem_children operand List.mem_cons_self)⟩
  | binary left operator right ihl ihr =>
    have kind : operator.kind ∈ Kind.operators := List.mem_cons_of_mem _ h.wellFormed.1
    have mem : operator ∈ source.lex.tokens :=
      Token.mem_of_whole (h.residues (List.mem_append_right _ List.mem_cons_self))
    obtain ⟨first, second⟩ := List.forall_mem_cons.mp h.of_mem_children
    exact ⟨Text.isOperator_of_mem_lex mem kind, ihl first,
      ihr (List.forall_mem_singleton.mp second)⟩
  | var name =>
    exact Text.isName_of_mem_lex (Token.mem_of_whole (h.residues List.mem_cons_self)) h.wellFormed
  | assign name value ih =>
    have mem := Token.mem_of_whole (h.residues List.mem_cons_self)
    exact ⟨Text.isName_of_mem_lex mem h.wellFormed.1,
      ih (h.of_mem_children value List.mem_cons_self)⟩
  | misfit what => exact h.wellFormed.elim

/-- A statement made of the tokens of a source with finite numbers is legible. -/
theorem Stmt.MadeOf.isLegible {stmt : Stmt} (h : stmt.MadeOf source.lex.tokens) :
    stmt.IsLegible := by
  have parts := fun e mem => (h.of_mem_parts e mem).isLegible finite
  match stmt with
  | .expression e => exact parts e e.self_mem_parts
  | .print e => exact parts e e.self_mem_parts
  | .var name none =>
    have mem := Token.mem_of_whole (h.residues (List.mem_cons_of_mem _ List.mem_cons_self))
    exact ⟨Text.isName_of_mem_lex mem h.wellFormed, nofun⟩
  | .var name (some e) =>
    have mem := Token.mem_of_whole (h.residues (List.mem_cons_of_mem _ List.mem_cons_self))
    refine ⟨Text.isName_of_mem_lex mem h.wellFormed.1, ?_⟩
    rintro e' ⟨⟩
    exact parts e e.self_mem_parts
  | .misfit what => exact h.wellFormed.elim

end Sources

end Scriptlet
