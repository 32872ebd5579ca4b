/-
Scriptlet.Proofs.Tree.Grammar — which lists of tokens are programs, and of which trees.

The grammar is stated apart from the parser, one rule for each production:

    program     := declaration* EOF
    declaration := "var" IDENT ( "=" expression )? ";" | "print" expression ";" | expression ";"
    expression  := assignment
    assignment  := equality ( "=" assignment )?
    equality    := comparison ( ("!=" | "==") comparison )*
    comparison  := term ( (">" | ">=" | "<" | "<=") term )*
    term        := factor ( ("-" | "+") factor )*
    factor      := unary ( ("/" | "*") unary )*
    unary       := ("!" | "-") unary | primary
    primary     := "false" | "true" | "nil" | NUMBER | STRING | IDENT | "(" expression ")"

Each rule also says which tree its tokens have. The repetitions are written as
rules that recur on the left, so that operators of one level bind to the left;
an assignment recurs on the right.

The productions let any equality stand before `=`. Only a variable can be
assigned to, so a derivation carries along the signs that stand behind anything
else. A program in the strict sense is derived without any such sign.

  §1 Categories of expressions.
  §2 Expressions, declarations and programs.
  §3 What every derivation has.
-/
import Scriptlet.Tree.Parser

namespace Scriptlet

open Token (Kind)

/-! ## §1 Categories of expressions -/

/-- The categories of expressions, from the loosest to the tightest. -/
inductive Category where
  | assignment
  | equality
  | comparison
  | term
  | factor
  | unary
  | primary
deriving DecidableEq, Repr

namespace Category

/-- The next category that binds tighter. -/
def tighter : Category → Option Category
  | .assignment => some .equality
  | .equality => some .comparison
  | .comparison => some .term
  | .term => some .factor
  | .factor => some .unary
  | .unary => some .primary
  | .primary => none

/-- The operators between two operands that make an expression of a category. -/
def operators : Category → List Kind
  | .equality => [.bangEqual, .equalEqual]
  | .comparison => [.greater, .greaterEqual, .less, .lessEqual]
  | .term => [.minus, .plus]
  | .factor => [.slash, .star]
  | .assignment | .unary | .primary => []

end Category

/-! ## §2 Expressions, declarations and programs -/

/-- The value of a token that is an expression by itself: a reserved word for a value, a number or a
string. -/
def Token.constant? (t : Token) : Option Value :=
  match t.kind with
  | .falseWord => some (.bool false)
  | .trueWord => some (.bool true)
  | .nilWord => some .nil
  | .number | .string => some t.value
  | _ => none

/-- `Derives c ts e signs`: the tokens `ts` are an expression of category `c` with the tree `e`, and
`signs` are the equals signs among them that have something other than a variable before them. -/
inductive Derives : Category → List Token → Expr → List Token → Prop where
  /-- A tighter expression is one of every looser category. -/
  | descend {c d : Category} {ts : List Token} {e : Expr} {signs : List Token}
      (next : c.tighter = some d) (inner : Derives d ts e signs) : Derives c ts e signs
  /-- An assignment to a variable. -/
  | assign {name sign : Token} {ts : List Token} {value : Expr} {signs : List Token}
      (isName : name.kind = .name) (isEqual : sign.kind = .equal)
      (right : Derives .assignment ts value signs) :
      Derives .assignment (name :: sign :: ts) (.assign name value) signs
  /-- An assignment to anything else has the tree of its left side alone. -/
  | misassign {ls rs : List Token} {left value : Expr} {sign : Token} {signs more : List Token}
      (target : Derives .equality ls left signs) (noVar : ∀ name, left ≠ .var name)
      (isEqual : sign.kind = .equal) (right : Derives .assignment rs value more) :
      Derives .assignment (ls ++ sign :: rs) left (signs ++ more ++ [sign])
  /-- An operator between two operands; the right one binds tighter. -/
  | binary {c d : Category} {ls rs : List Token} {left right : Expr} {operator : Token}
      {signs more : List Token} (next : c.tighter = some d)
      (isOperator : operator.kind ∈ c.operators) (first : Derives c ls left signs)
      (second : Derives d rs right more) :
      Derives c (ls ++ operator :: rs) (.binary left operator right) (signs ++ more)
  /-- An operator in front of its operand. -/
  | unary {operator : Token} {ts : List Token} {operand : Expr} {signs : List Token}
      (isOperator : operator.kind = .bang ∨ operator.kind = .minus)
      (inner : Derives .unary ts operand signs) :
      Derives .unary (operator :: ts) (.unary operator operand) signs
  /-- A literal. -/
  | literal {t : Token} {v : Value} (isConstant : t.constant? = some v) :
      Derives .primary [t] (.literal v) []
  /-- A variable. -/
  | var {name : Token} (isName : name.kind = .name) : Derives .primary [name] (.var name) []
  /-- An expression in parentheses. -/
  | group {opening closing : Token} {ts : List Token} {e : Expr} {signs : List Token}
      (isOpening : opening.kind = .leftParen) (inner : Derives .assignment ts e signs)
      (isClosing : closing.kind = .rightParen) :
      Derives .primary (opening :: (ts ++ [closing])) (.group e) signs

/-- `Declares ts stmt signs`: the tokens `ts` are a declaration or another statement with the tree
`stmt`, and `signs` are the equals signs in it that have no variable before them. -/
inductive Declares : List Token → Stmt → List Token → Prop where
  | var {word name stop : Token} (isVar : word.kind = .varWord) (isName : name.kind = .name)
      (isStop : stop.kind = .semicolon) : Declares [word, name, stop] (.var name none) []
  | varWith {word name sign stop : Token} {ts : List Token} {e : Expr} {signs : List Token}
      (isVar : word.kind = .varWord) (isName : name.kind = .name) (isEqual : sign.kind = .equal)
      (initial : Derives .assignment ts e signs) (isStop : stop.kind = .semicolon) :
      Declares (word :: name :: sign :: (ts ++ [stop])) (.var name (some e)) signs
  | print {word stop : Token} {ts : List Token} {e : Expr} {signs : List Token}
      (isPrint : word.kind = .printWord) (value : Derives .assignment ts e signs)
      (isStop : stop.kind = .semicolon) : Declares (word :: (ts ++ [stop])) (.print e) signs
  | expression {stop : Token} {ts : List Token} {e : Expr} {signs : List Token}
      (inner : Derives .assignment ts e signs) (isStop : stop.kind = .semicolon) :
      Declares (ts ++ [stop]) (.expression e) signs

/-- `Program ts stmts`: the tokens `ts`, without the mark of the end, are a program with the trees
`stmts`, and every assignment in it is to a variable. -/
inductive Program : List Token → List Stmt → Prop where
  | nil : Program [] []
  | cons {ts rest : List Token} {stmt : Stmt} {stmts : List Stmt} (first : Declares ts stmt [])
      (others : Program rest stmts) : Program (ts ++ rest) (stmt :: stmts)

/-! ## §3 What every derivation has -/

theorem Token.kind_of_constant? {t : Token} {v : Value} (h : t.constant? = some v) :
    t.kind ∈ [Kind.falseWord, .trueWord, .nilWord, .number, .string] := by
  unfold Token.constant? at h
  split at h <;> simp_all

namespace Derives

variable {c : Category} {ts signs : List Token} {e : Expr}

/-- The kinds of token that a primary expression can start with. -/
def primaryStarters : List Kind :=
  [.falseWord, .trueWord, .nilWord, .number, .string, .name, .leftParen]

/-- The kinds of token that an expression can start with. -/
def starters : List Kind := primaryStarters ++ [.bang, .minus]

/-- The kinds of token that an expression can have. -/
def vocabulary : List Kind :=
  starters ++ [.rightParen, .equal, .bangEqual, .equalEqual, .greater, .greaterEqual, .less,
    .lessEqual, .plus, .slash, .star]

theorem constant_mem_primaryStarters {t : Token} {v : Value} (h : t.constant? = some v) :
    t.kind ∈ primaryStarters :=
  List.mem_append_left [Kind.name, .leftParen] (Token.kind_of_constant? h)

theorem operator_mem_vocabulary {k : Kind} (h : k ∈ c.operators) : k ∈ vocabulary := by
  cases c <;> simp only [Category.operators, List.mem_cons, List.not_mem_nil, or_false] at h
  case equality => rcases h with rfl | rfl <;> decide
  case comparison => rcases h with rfl | rfl | rfl | rfl <;> decide
  case term => rcases h with rfl | rfl <;> decide
  case factor => rcases h with rfl | rfl <;> decide

/-- A primary expression has a first token, which is no operator. -/
theorem exists_head_of_primary (h : Derives .primary ts e signs) :
    ∃ t rest, ts = t :: rest ∧ t.kind ∈ primaryStarters := by
  cases h with
  | descend next _ => simp [Category.tighter] at next
  | binary next _ _ _ => simp [Category.tighter] at next
  | literal isConstant => exact ⟨_, _, rfl, constant_mem_primaryStarters isConstant⟩
  | var isName => exact ⟨_, _, rfl, by simp [isName, primaryStarters]⟩
  | group isOpening _ _ => exact ⟨_, _, rfl, by simp [isOpening, primaryStarters]⟩

/-- An expression has a first token, and the kind of that token tells that it is one. -/
theorem exists_head (h : Derives c ts e signs) : ∃ t rest, ts = t :: rest ∧ t.kind ∈ starters := by
  induction h with
  | descend _ _ ih => exact ih
  | assign isName _ _ _ => exact ⟨_, _, rfl, by rw [isName]; decide⟩
  | misassign _ _ _ _ ih _ =>
    obtain ⟨t, rest, rfl, ht⟩ := ih
    exact ⟨t, _, rfl, ht⟩
  | binary _ _ _ _ ih _ =>
    obtain ⟨t, rest, rfl, ht⟩ := ih
    exact ⟨t, _, rfl, ht⟩
  | unary isOperator _ _ =>
    refine ⟨_, _, rfl, ?_⟩
    rcases isOperator with h | h <;> rw [h] <;> decide
  | literal isConstant =>
    exact ⟨_, _, rfl, List.mem_append_left _ (constant_mem_primaryStarters isConstant)⟩
  | var isName => exact ⟨_, _, rfl, by rw [isName]; decide⟩
  | group isOpening _ _ _ => exact ⟨_, _, rfl, by rw [isOpening]; decide⟩

/-- Every token of an expression is of a kind that expressions have. -/
theorem kind_mem_vocabulary (h : Derives c ts e signs) : ∀ t ∈ ts, t.kind ∈ vocabulary := by
  induction h with
  | descend _ _ ih => exact ih
  | assign isName isEqual _ ih =>
    intro t ht
    simp only [List.mem_cons] at ht
    rcases ht with rfl | rfl | ht
    · rw [isName]; decide
    · rw [isEqual]; decide
    · exact ih t ht
  | misassign _ _ isEqual _ ihl ihr =>
    intro t ht
    simp only [List.mem_append, List.mem_cons] at ht
    rcases ht with ht | rfl | ht
    · exact ihl t ht
    · rw [isEqual]; decide
    · exact ihr t ht
  | binary _ isOperator _ _ ihl ihr =>
    intro t ht
    simp only [List.mem_append, List.mem_cons] at ht
    rcases ht with ht | rfl | ht
    · exact ihl t ht
    · exact operator_mem_vocabulary isOperator
    · exact ihr t ht
  | unary isOperator _ ih =>
    intro t ht
    simp only [List.mem_cons] at ht
    rcases ht with rfl | ht
    · rcases isOperator with h | h <;> rw [h] <;> decide
    · exact ih t ht
  | literal isConstant =>
    intro t ht
    rw [List.mem_singleton] at ht
    subst ht
    exact List.mem_append_left _ (List.mem_append_left _ (constant_mem_primaryStarters isConstant))
  | var isName =>
    intro t ht
    rw [List.mem_singleton] at ht
    rw [ht, isName]; decide
  | group isOpening _ isClosing ih =>
    intro t ht
    simp only [List.mem_cons, List.mem_append, List.not_mem_nil, or_false] at ht
    rcases ht with rfl | ht | rfl
    · rw [isOpening]; decide
    · exact ih t ht
    · rw [isClosing]; decide

/-- A semicolon is part of no expression. -/
theorem kind_ne_semicolon (h : Derives c ts e signs) {t : Token} (ht : t ∈ ts) :
    t.kind ≠ .semicolon := by
  intro hs
  have := h.kind_mem_vocabulary t ht
  rw [hs] at this
  exact absurd this (by decide)

/-- Only a name has the tree of a variable. -/
theorem eq_of_var {name : Token} (h : Derives c ts (.var name) signs) :
    ts = [name] ∧ signs = [] ∧ name.kind = .name := by
  generalize he : Expr.var name = e at h
  induction h with
  | descend _ _ ih => exact ih he
  | misassign _ noVar _ _ _ _ => exact absurd he.symm (noVar name)
  | var isName =>
    injection he with he
    subst he
    exact ⟨rfl, rfl, isName⟩
  | _ => exact Expr.noConfusion he

/-- The signs that a derivation carries along are equals signs among its tokens. -/
theorem mem_of_mem_signs (h : Derives c ts e signs) :
    ∀ t ∈ signs, t ∈ ts ∧ t.kind = .equal := by
  induction h with
  | descend _ _ ih => exact ih
  | assign _ _ _ ih =>
    intro t ht
    exact ⟨by simp [(ih t ht).1], (ih t ht).2⟩
  | misassign _ _ isEqual _ ihl ihr =>
    intro t ht
    simp only [List.mem_append, List.mem_singleton] at ht
    rcases ht with (ht | ht) | rfl
    · exact ⟨by simp [(ihl t ht).1], (ihl t ht).2⟩
    · exact ⟨by simp [(ihr t ht).1], (ihr t ht).2⟩
    · exact ⟨by simp, isEqual⟩
  | binary _ _ _ _ ihl ihr =>
    intro t ht
    rcases List.mem_append.mp ht with ht | ht
    · exact ⟨by simp [(ihl t ht).1], (ihl t ht).2⟩
    · exact ⟨by simp [(ihr t ht).1], (ihr t ht).2⟩
  | unary _ _ ih =>
    intro t ht
    exact ⟨by simp [(ih t ht).1], (ih t ht).2⟩
  | literal _ => simp
  | var _ => simp
  | group _ _ _ ih =>
    intro t ht
    exact ⟨by simp [(ih t ht).1], (ih t ht).2⟩

end Derives

namespace Declares

variable {ts signs : List Token} {stmt : Stmt}

/-- A statement ends with the only semicolon in it. -/
theorem exists_stop (h : Declares ts stmt signs) : ∃ body stop, ts = body ++ [stop] ∧
    stop.kind = .semicolon ∧ ∀ t ∈ body, t.kind ≠ .semicolon := by
  cases h with
  | @var word name stop isVar isName isStop =>
    refine ⟨[word, name], stop, rfl, isStop, ?_⟩
    simp [isVar, isName]
  | @varWith word name sign stop ts e signs isVar isName isEqual initial isStop =>
    refine ⟨word :: name :: sign :: ts, stop, rfl, isStop, ?_⟩
    simp only [List.forall_mem_cons, isVar, isName, isEqual]
    exact ⟨nofun, nofun, nofun, fun _ ht => initial.kind_ne_semicolon ht⟩
  | @print word stop ts e signs isPrint value isStop =>
    refine ⟨word :: ts, stop, rfl, isStop, ?_⟩
    simp only [List.forall_mem_cons, isPrint]
    exact ⟨nofun, fun _ ht => value.kind_ne_semicolon ht⟩
  | @expression stop ts e signs inner isStop =>
    exact ⟨ts, stop, rfl, isStop, fun _ ht => inner.kind_ne_semicolon ht⟩

theorem ne_nil (h : Declares ts stmt signs) : ts ≠ [] := by
  obtain ⟨body, stop, rfl, -, -⟩ := h.exists_stop
  simp

/-- The signs that a derivation carries along are equals signs among its tokens. -/
theorem mem_of_mem_signs (h : Declares ts stmt signs) :
    ∀ t ∈ signs, t ∈ ts ∧ t.kind = .equal := by
  intro t ht
  cases h with
  | var _ _ _ => simp at ht
  | varWith _ _ _ initial _ =>
    exact ⟨by simp [(initial.mem_of_mem_signs t ht).1], (initial.mem_of_mem_signs t ht).2⟩
  | print _ value _ =>
    exact ⟨by simp [(value.mem_of_mem_signs t ht).1], (value.mem_of_mem_signs t ht).2⟩
  | expression inner _ =>
    exact ⟨by simp [(inner.mem_of_mem_signs t ht).1], (inner.mem_of_mem_signs t ht).2⟩

end Declares

end Scriptlet
