/-
Scriptlet.Proofs.Tree.Unambiguous — the prefix form of a tree tells the tree.

A prefix form is a word, a string in quotes, or a node: a head and operands in
parentheses. Words have no delimiters in them and strings no quote, so that each shape
tells where it ends, whatever stands behind it (`Shape.textOnto_inj`). The shape then
tells the tree up to the places of its tokens: an operator is known by its lexeme, a
name is no reserved word, and the words of numbers begin as no other word does
(`Expr.relocate_eq_of_shape`).

  §1 Where a word ends.
  §2 Shapes.
  §3 The shape tells the tree.
  §4 The text tells the shape.
  §5 Statements of two sources.
-/
import Scriptlet.Proofs.Run.Relocation
import Scriptlet.Proofs.Tree.Legible

namespace Scriptlet

/-! ## §1 Where a word ends -/

namespace Text

variable {t u r r' : Text}

/-- A text that does not go on with a word. -/
def IsSetOff (t : Text) : Prop := ∀ s ∈ t.head?, s ∈ Symbol.delimiters

/-- Two texts whose symbols pass a test, in front of rests that go on with none that does. -/
theorem append_inj_of_test (test : Symbol → Bool) (passes : ∀ s ∈ t, test s = true)
    (passes' : ∀ s ∈ u, test s = true) (stop : ∀ s ∈ r.head?, test s = false)
    (stop' : ∀ s ∈ r'.head?, test s = false) (same : t ++ r = u ++ r') : t = u ∧ r = r' := by
  have cut := Piece.span_eq passes stop
  rw [same, Piece.span_eq passes' stop'] at cut
  exact (Prod.mk.inj cut).imp Eq.symm Eq.symm

theorem IsBare.append_inj (bare : t.IsBare) (bare' : u.IsBare) (apart : r.IsSetOff)
    (apart' : r'.IsSetOff) (same : t ++ r = u ++ r') : t = u ∧ r = r' := by
  refine append_inj_of_test (decide <| · ∉ Symbol.delimiters) ?_ ?_ ?_ ?_ same
  · exact fun s mem => decide_eq_true (bare s mem)
  · exact fun s mem => decide_eq_true (bare' s mem)
  · exact fun s mem => decide_eq_false (not_not_intro (apart s mem))
  · exact fun s mem => decide_eq_false (not_not_intro (apart' s mem))

/-- A string ends at the first quote. -/
theorem quoted_append_inj (noQuote : Symbol.quote ∉ t) (noQuote' : Symbol.quote ∉ u)
    (same : t ++ Symbol.quote :: r = u ++ Symbol.quote :: r') : t = u ∧ r = r' := by
  have stop : ∀ rest : Text, ∀ s ∈ (Symbol.quote :: rest).head?, (s != Symbol.quote) = false := by
    simp
  obtain ⟨rfl, tail⟩ := append_inj_of_test _ (Piece.bne_of_not_mem noQuote)
    (Piece.bne_of_not_mem noQuote') (stop r) (stop r') same
  exact ⟨rfl, (List.cons.inj tail).2⟩

theorem isSetOff_cons {s : Symbol} (mem : s ∈ Symbol.delimiters) (rest : Text) :
    IsSetOff (s :: rest) := by
  simpa [IsSetOff] using mem

end Text

/-! ## §2 Shapes -/

/-- How a tree looks in prefix form: a word, a string, or a head with operands. -/
inductive Shape where
  | word (w : Text)
  | quoted (t : Text)
  | node (head : Text) (operands : List Expr)

namespace Shape

/-- The trees in a shape. -/
def operands : Shape → List Expr
  | .word _ | .quoted _ => []
  | .node _ operands => operands

/-- Operands, each behind a blank, in front of a rest. -/
def operandsOnto (operands : List Expr) (rest : Text) : Text :=
  operands.foldr (fun e rest => .char ' ' :: e.textOnto rest) rest

/-- A shape as text in front of a rest. -/
def textOnto : Shape → Text → Text
  | .word w, rest => w ++ rest
  | .quoted t, rest => Symbol.quote :: (t ++ Symbol.quote :: rest)
  | .node head operands, rest =>
    .char '(' :: (head ++ operandsOnto operands (.char ')' :: rest))

/-- A shape whose operands have no places. -/
def unplaced : Shape → Shape
  | .word w => .word w
  | .quoted t => .quoted t
  | .node head operands => .node head (operands.map (Expr.relocate .nowhere))

/-- A shape that tells where it ends: words and heads have no delimiters, and strings no quote. -/
def IsLegible : Shape → Prop
  | .word w => w ≠ [] ∧ w.IsBare
  | .quoted t => Symbol.quote ∉ t
  | .node head _ => head.IsBare

end Shape

/-- The shape of a literal. -/
def Value.shape : Value → Shape
  | .string t => .quoted t
  | v => .word v.text

/-- The shape of an expression. An assignment has its variable as its first operand. -/
def Expr.shape : Expr → Shape
  | .literal v => v.shape
  | .group inner => .node "group" [inner]
  | .unary operator operand => .node operator.lexeme [operand]
  | .binary left operator right => .node operator.lexeme [left, right]
  | .var name => .word name.lexeme
  | .assign name value => .node "=" [.var name, value]
  | .misfit what => .word (Text.ofString "<expr " ++ what.label ++ [.char '>'])

/-- The shape of a statement. A declaration has its variable as its first operand. -/
def Stmt.shape : Stmt → Shape
  | .expression e => .node "expr" [e]
  | .print e => .node "print" [e]
  | .var name initial => .node "var" (.var name :: initial.toList)
  | .misfit what => .word (Text.ofString "<stmt " ++ what.label ++ [.char '>'])

theorem Expr.textOnto_eq_shape (e : Expr) (rest : Text) :
    e.textOnto rest = e.shape.textOnto rest := by
  match e with
  | .literal (.string t) => simp [textOnto, shape, Value.shape, Shape.textOnto, Value.quoted]
  | .literal .nil | .literal (.bool _) | .literal (.number _) => rfl
  | .group inner => rfl
  | .unary operator operand => rfl
  | .binary left operator right => rfl
  | .var name => rfl
  | .assign name value => exact List.append_assoc (Text.ofString "(= ") name.lexeme _
  | .misfit what => simp [textOnto, shape, Shape.textOnto]

theorem Shape.operandsOnto_eq (operands : List Expr) (rest : Text) :
    operandsOnto operands rest = (operands.map Expr.text).flatMap (.char ' ' :: ·) ++ rest := by
  induction operands with
  | nil => rfl
  | cons e operands ih =>
    rw [operandsOnto, List.foldr_cons, ← operandsOnto, ih, Expr.textOnto_eq]
    simp

theorem Shape.textOnto_node (head : Text) (operands : List Expr) :
    (node head operands).textOnto [] = Text.parenthesized head (operands.map Expr.text) := by
  rw [textOnto, operandsOnto_eq, Text.parenthesized, List.append_assoc]

theorem Stmt.text_eq_shape (stmt : Stmt) : stmt.text = stmt.shape.textOnto [] := by
  match stmt with
  | .expression e => exact (Shape.textOnto_node "expr" [e]).symm
  | .print e => exact (Shape.textOnto_node "print" [e]).symm
  | .var name none => exact (Shape.textOnto_node "var" [.var name]).symm
  | .var name (some e) => exact (Shape.textOnto_node "var" [.var name, e]).symm
  | .misfit what => simp [text, shape, Shape.textOnto]

/-! ### Legible trees have legible shapes -/

theorem Value.isLegible_shape {v : Value} (h : v.IsLegible) : v.shape.IsLegible := by
  match v with
  | .nil | .bool true | .bool false => exact ⟨by decide, by decide⟩
  | .number x => exact ⟨(startsWord_number h).1, isBare_number h⟩
  | .string t => exact h

theorem Expr.isLegible_shape {e : Expr} (h : e.IsLegible) : e.shape.IsLegible := by
  cases e with
  | literal v => exact Value.isLegible_shape h
  | group inner => exact (by decide : (Text.ofString "group").IsBare)
  | unary operator operand => exact h.1.isBare
  | binary left operator right => exact h.1.isBare
  | var name => exact ⟨h.ne_nil, h.isBare⟩
  | assign name value => exact (by decide : (Text.ofString "=").IsBare)
  | misfit what => exact h.elim

theorem Expr.isLegible_operands {e : Expr} (h : e.IsLegible) :
    ∀ x ∈ e.shape.operands, x.IsLegible := by
  cases e with
  | literal v => cases v <;> exact List.forall_mem_nil _
  | var name | misfit what => exact List.forall_mem_nil _
  | group inner => exact List.forall_mem_singleton.mpr h
  | unary operator operand => exact List.forall_mem_singleton.mpr h.2
  | binary left operator right =>
    exact List.forall_mem_cons.mpr ⟨h.2.1, List.forall_mem_singleton.mpr h.2.2⟩
  | assign name value =>
    exact List.forall_mem_cons.mpr ⟨h.1, List.forall_mem_singleton.mpr h.2⟩

namespace Stmt

variable {stmt : Stmt}

theorem isLegible_shape (h : stmt.IsLegible) : stmt.shape.IsLegible := by
  cases stmt with
  | expression e => exact (by decide : (Text.ofString "expr").IsBare)
  | print e => exact (by decide : (Text.ofString "print").IsBare)
  | var name initial => exact (by decide : (Text.ofString "var").IsBare)
  | misfit what => exact h.elim

theorem isLegible_operands (h : stmt.IsLegible) : ∀ e ∈ stmt.shape.operands, e.IsLegible := by
  cases stmt with
  | expression e | print e => exact List.forall_mem_singleton.mpr h
  | var name initial =>
    refine List.forall_mem_cons.mpr ⟨h.1, fun e mem => h.2 e ?_⟩
    exact Option.mem_toList.mp mem
  | misfit what => exact List.forall_mem_nil _

end Stmt

/-! ## §3 The shape tells the tree -/

/-- A literal is known by its shape. -/
theorem Value.eq_of_shape {v w : Value} (h : v.IsLegible) (h' : w.IsLegible)
    (same : v.shape = w.shape) : v = w := by
  have apart : ∀ x : Double, x.magnitude < Double.infinite → ∀ t : Text, t.startsWord = true →
      (Value.number x).text ≠ t := by
    rintro x finite t starts rfl
    rw [(startsWord_number finite).2] at starts
    cases starts
  match v, w with
  | .nil, .nil | .bool true, .bool true | .bool false, .bool false => rfl
  | .nil, .bool true | .nil, .bool false | .bool true, .nil | .bool true, .bool false
  | .bool false, .nil | .bool false, .bool true => exact absurd (Shape.word.inj same) (by decide)
  | .number x, .nil | .number x, .bool true | .number x, .bool false =>
    exact absurd (Shape.word.inj same) (apart x h _ rfl)
  | .nil, .number x | .bool true, .number x | .bool false, .number x =>
    exact absurd (Shape.word.inj same).symm (apart x h' _ rfl)
  | .number x, .number y =>
    have brief : x.briefForm = y.briefForm :=
      List.map_injective_iff.mpr (fun _ _ => Symbol.char.inj) (Shape.word.inj same)
    rcases (Double.briefForm_eq_iff x y).mp brief with rfl | ⟨nan, -⟩
    · rfl
    · exact absurd (Double.isNaN_iff.mp nan) (Nat.lt_asymm h)
  | .string t, .string u => rw [Shape.quoted.inj same]
  | .string t, .nil | .string t, .bool _ | .string t, .number _ => cases same
  | .nil, .string t | .bool true, .string t | .bool false, .string t | .number _, .string t =>
    cases same

/-- No literal looks like a variable. -/
theorem Token.IsName.ne_shape {t : Token} (h : t.IsName) {v : Value} (h' : v.IsLegible) :
    v.shape ≠ .word t.lexeme := by
  intro same
  match v with
  | .nil => exact h.names.2.2 ("nil", .nilWord) (by decide) (Shape.word.inj same).symm
  | .bool true => exact h.names.2.2 ("true", .trueWord) (by decide) (Shape.word.inj same).symm
  | .bool false => exact h.names.2.2 ("false", .falseWord) (by decide) (Shape.word.inj same).symm
  | .number x =>
    have starts := h.startsWord
    rw [← Shape.word.inj same, (Value.startsWord_number h').2] at starts
    cases starts
  | .string u => cases same

/-- The variable that stands in front of an assigned value. -/
def Expr.targetOf : Expr → Token
  | .var name => name
  | _ => default

/-- The tree, without places, of a head and its operands. -/
def Expr.rebuild (head : Text) : List Expr → Expr
  | [inner] =>
    if head = Text.ofString "group" then .group inner else .unary (.operatorOf head) inner
  | [left, right] =>
    if head = Text.ofString "=" then .assign left.targetOf right
    else .binary left (.operatorOf head) right
  | _ => .misfit .nothing

/-- A legible expression with operands is told by its head and its operands. -/
theorem Expr.relocate_eq_rebuild {e : Expr} (h : e.IsLegible) {head : Text} {operands : List Expr}
    (node : e.shape.unplaced = .node head operands) :
    e.relocate .nowhere = rebuild head operands := by
  cases e with
  | literal v => cases v <;> cases node
  | var name => cases node
  | misfit what => cases node
  | group inner =>
    obtain ⟨rfl, rfl⟩ := Shape.node.inj node
    rfl
  | unary operator operand =>
    obtain ⟨rfl, rfl⟩ := Shape.node.inj node
    rw [relocate, h.1.relocate_eq]
    exact (if_neg h.1.ne_group).symm
  | binary left operator right =>
    obtain ⟨rfl, rfl⟩ := Shape.node.inj node
    rw [relocate, h.1.relocate_eq]
    exact (if_neg h.1.ne_equal).symm
  | assign name value =>
    obtain ⟨rfl, rfl⟩ := Shape.node.inj node
    rfl

/-- An expression without operands is a literal or a variable. -/
theorem Expr.leaf_cases {e : Expr} (h : e.IsLegible)
    (leaf : ∀ head operands, e.shape.unplaced ≠ .node head operands) :
    (∃ v, e = .literal v ∧ v.IsLegible) ∨ ∃ name, e = .var name ∧ name.IsName := by
  cases e with
  | literal v => exact .inl ⟨v, rfl, h⟩
  | var name => exact .inr ⟨name, rfl, h⟩
  | misfit what => exact h.elim
  | group | unary | binary | assign => exact absurd rfl (leaf _ _)

theorem Value.unplaced_shape (v : Value) : v.shape.unplaced = v.shape := by
  cases v <;> rfl

/-- The shape of a legible expression tells the expression, up to places. -/
theorem Expr.relocate_eq_of_shape {e e' : Expr} (h : e.IsLegible) (h' : e'.IsLegible)
    (same : e.shape.unplaced = e'.shape.unplaced) :
    e.relocate .nowhere = e'.relocate .nowhere := by
  by_cases node : ∃ head operands, e.shape.unplaced = .node head operands
  · obtain ⟨head, operands, node⟩ := node
    rw [relocate_eq_rebuild h node, relocate_eq_rebuild h' (same ▸ node)]
  · simp only [not_exists] at node
    have node' := same ▸ node
    rcases leaf_cases h node with ⟨v, rfl, literal⟩ | ⟨name, rfl, isName⟩ <;>
      rcases leaf_cases h' node' with ⟨w, rfl, literal'⟩ | ⟨name', rfl, isName'⟩
    · rw [shape, shape, Value.unplaced_shape, Value.unplaced_shape] at same
      rw [Value.eq_of_shape literal literal' same]
    · exact absurd (v.unplaced_shape.symm.trans same) (isName'.ne_shape literal)
    · exact absurd (w.unplaced_shape.symm.trans same.symm) (isName.ne_shape literal')
    · exact congrArg Expr.var (isName.relocate_eq isName' (Shape.word.inj same))

/-- The shape of a legible statement tells the statement, up to places. -/
theorem Stmt.relocate_eq_of_shape {stmt stmt' : Stmt} (h : stmt.IsLegible) (h' : stmt'.IsLegible)
    (same : stmt.shape.unplaced = stmt'.shape.unplaced) :
    stmt.relocate .nowhere = stmt'.relocate .nowhere := by
  match stmt, stmt' with
  | .expression e, .expression e' =>
    exact congrArg Stmt.expression (List.cons.inj (Shape.node.inj same).2).1
  | .print e, .print e' => exact congrArg Stmt.print (List.cons.inj (Shape.node.inj same).2).1
  | .var name initial, .var name' initial' =>
    obtain ⟨target, values⟩ := List.cons.inj (Shape.node.inj same).2
    rw [relocate, relocate, Expr.var.inj target]
    cases initial <;> cases initial' <;> simp_all
  | .expression _, .print _ | .expression _, .var _ _ | .print _, .expression _
  | .print _, .var _ _ | .var _ _, .expression _ | .var _ _, .print _ =>
    exact absurd (Shape.node.inj same).1 (by decide)
  | .misfit _, _ => exact h.elim
  | _, .misfit _ => exact h'.elim

/-! ## §4 The text tells the shape -/

/-- `e.Cancels`: if the text of the expression stands in front of a rest, this text tells the
expression up to places, and it tells the rest. -/
def Expr.Cancels (e : Expr) : Prop :=
  ∀ (e' : Expr) (r r' : Text), e'.IsLegible → r.IsSetOff → r'.IsSetOff →
    e.textOnto r = e'.textOnto r' → e.relocate .nowhere = e'.relocate .nowhere ∧ r = r'

namespace Shape

variable {a b : Shape} {r r' : Text}

theorem isSetOff_operandsOnto (operands : List Expr) (rest : Text) :
    Text.IsSetOff (operandsOnto operands (.char ')' :: rest)) := by
  cases operands with
  | nil => exact Text.isSetOff_cons (by decide) _
  | cons e es => exact Text.isSetOff_cons (by decide) _

/-- Operands are told one after the other, up to the closing parenthesis. -/
theorem operandsOnto_inj {es es' : List Expr} (cancels : ∀ e ∈ es, e.Cancels)
    (legible : ∀ e ∈ es', e.IsLegible)
    (same : operandsOnto es (.char ')' :: r) = operandsOnto es' (.char ')' :: r')) :
    es.map (Expr.relocate .nowhere) = es'.map (Expr.relocate .nowhere) ∧ r = r' := by
  induction es generalizing es' with
  | nil =>
    cases es' with
    | nil => exact ⟨rfl, (List.cons.inj same).2⟩
    | cons e' es' => exact absurd (List.cons.inj same).1 (by decide)
  | cons e es ih =>
    cases es' with
    | nil => exact absurd (List.cons.inj same).1 (by decide)
    | cons e' es' =>
      rw [List.forall_mem_cons] at cancels legible
      obtain ⟨first, rest⟩ := cancels.1 e' _ _ legible.1 (isSetOff_operandsOnto es r)
        (isSetOff_operandsOnto es' r') (List.cons.inj same).2
      obtain ⟨others, behind⟩ := ih cancels.2 legible.2 rest
      exact ⟨by rw [List.map_cons, List.map_cons, first, others], behind⟩

/-- A word is not taken for anything else. -/
theorem word_ne_delimiter {w t : Text} {s : Symbol} (legible : (Shape.word w).IsLegible)
    (mem : s ∈ Symbol.delimiters) : w ++ r ≠ s :: t := by
  obtain ⟨nonempty, bare⟩ := legible
  obtain ⟨first, rest, rfl⟩ := List.exists_cons_of_ne_nil nonempty
  intro same
  exact bare first List.mem_cons_self ((List.cons.inj same).1 ▸ mem)

/-- The text of a legible shape tells the shape, up to places, and what stands behind it. -/
theorem textOnto_inj (legible : a.IsLegible) (legible' : b.IsLegible)
    (cancels : ∀ e ∈ a.operands, e.Cancels) (operands : ∀ e ∈ b.operands, e.IsLegible)
    (apart : r.IsSetOff) (apart' : r'.IsSetOff) (same : a.textOnto r = b.textOnto r') :
    a.unplaced = b.unplaced ∧ r = r' := by
  match a, b with
  | .word w, .word w' =>
    obtain ⟨rfl, rest⟩ := legible.2.append_inj legible'.2 apart apart' same
    exact ⟨rfl, rest⟩
  | .quoted t, .quoted t' =>
    obtain ⟨rfl, rest⟩ := Text.quoted_append_inj legible legible' (List.cons.inj same).2
    exact ⟨rfl, rest⟩
  | .node head es, .node head' es' =>
    obtain ⟨rfl, rest⟩ := Text.IsBare.append_inj legible legible' (isSetOff_operandsOnto es r)
      (isSetOff_operandsOnto es' r') (List.cons.inj same).2
    obtain ⟨same, rest⟩ := operandsOnto_inj cancels operands rest
    exact ⟨congrArg (node head) same, rest⟩
  | .word w, .quoted t => exact absurd same (word_ne_delimiter legible (by decide))
  | .word w, .node head es => exact absurd same (word_ne_delimiter legible (by decide))
  | .quoted t, .word w => exact absurd same.symm (word_ne_delimiter legible' (by decide))
  | .node head es, .word w => exact absurd same.symm (word_ne_delimiter legible' (by decide))
  | .quoted t, .node head es => exact absurd (List.cons.inj same).1 (by decide)
  | .node head es, .quoted t => exact absurd (List.cons.inj same).1 (by decide)

end Shape

namespace Expr

theorem cancels_of_operands {e : Expr} (h : e.IsLegible)
    (operands : ∀ x ∈ e.shape.operands, x.Cancels) : e.Cancels := by
  intro e' r r' h' apart apart' same
  rw [textOnto_eq_shape, textOnto_eq_shape] at same
  obtain ⟨shape, rest⟩ := Shape.textOnto_inj (isLegible_shape h) (isLegible_shape h') operands
    (isLegible_operands h') apart apart' same
  exact ⟨relocate_eq_of_shape h h' shape, rest⟩

/-- Every legible expression is told by its text, whatever stands behind it. -/
theorem cancels {e : Expr} (h : e.IsLegible) : e.Cancels := by
  induction e with
  | literal v =>
    refine cancels_of_operands h ?_
    cases v <;> exact List.forall_mem_nil _
  | var name => exact cancels_of_operands h (List.forall_mem_nil _)
  | misfit what => exact h.elim
  | group inner ih => exact cancels_of_operands h (List.forall_mem_singleton.mpr (ih h))
  | unary operator operand ih =>
    exact cancels_of_operands h (List.forall_mem_singleton.mpr (ih h.2))
  | binary left operator right ihl ihr =>
    refine cancels_of_operands h (List.forall_mem_cons.mpr ⟨ihl h.2.1, ?_⟩)
    exact List.forall_mem_singleton.mpr (ihr h.2.2)
  | assign name value ih =>
    have target : (Expr.var name).Cancels := cancels_of_operands h.1 (List.forall_mem_nil _)
    refine cancels_of_operands h (List.forall_mem_cons.mpr ⟨target, ?_⟩)
    exact List.forall_mem_singleton.mpr (ih h.2)

/-- The texts of legible expressions are the same only if these are, up to places. -/
theorem text_eq_iff {e e' : Expr} (h : e.IsLegible) (h' : e'.IsLegible) :
    e.text = e'.text ↔ e.relocate .nowhere = e'.relocate .nowhere := by
  have nothing : Text.IsSetOff [] := nofun
  constructor
  · intro same
    rw [text_eq_textOnto, text_eq_textOnto] at same
    exact (cancels h e' [] [] h' nothing nothing same).1
  · intro same
    rw [← e.text_relocate .nowhere, same, e'.text_relocate]

end Expr

/-! ## §5 Statements of two sources -/

/-- The texts of legible statements are the same only if these are, up to places. -/
theorem Stmt.text_eq_iff {stmt stmt' : Stmt} (h : stmt.IsLegible) (h' : stmt'.IsLegible) :
    stmt.text = stmt'.text ↔ stmt.relocate .nowhere = stmt'.relocate .nowhere := by
  have nothing : Text.IsSetOff [] := nofun
  constructor
  · intro same
    rw [text_eq_shape, text_eq_shape] at same
    have operands := fun e mem => Expr.cancels (isLegible_operands h e mem)
    exact relocate_eq_of_shape h h' (Shape.textOnto_inj (isLegible_shape h) (isLegible_shape h')
      operands (isLegible_operands h') nothing nothing same).1
  · intro same
    have same : Entry.relocate .nowhere (some stmt) = Entry.relocate .nowhere (some stmt') :=
      congrArg some same
    have texts := congrArg Entry.text same
    rwa [Entry.text_relocate, Entry.text_relocate] at texts

namespace Text

/-- **The prefix form is unambiguous.** Take two sources that are read without a diagnostic and in
which all numbers are finite. A statement of the one and a statement of the other have the same
prefix form exactly if they are the same up to the lines and columns of their tokens; and so have
any two expressions in them. -/
theorem forms_tell_trees (source other : Text) (quiet : source.parse.diagnostics = [])
    (quiet' : other.parse.diagnostics = [])
    (finite : ∀ t ∈ source.lex.tokens, t.isFinite = true)
    (finite' : ∀ t ∈ other.lex.tokens, t.isFinite = true) (stmt stmt' : Stmt)
    (mem : some stmt ∈ source.parse.entries) (mem' : some stmt' ∈ other.parse.entries) :
    (stmt.text = stmt'.text ↔ stmt.relocate .nowhere = stmt'.relocate .nowhere) ∧
    ∀ e ∈ stmt.parts, ∀ e' ∈ stmt'.parts,
      e.text = e'.text ↔ e.relocate .nowhere = e'.relocate .nowhere := by
  have made := madeOf_of_parse quiet mem
  have made' := madeOf_of_parse quiet' mem'
  refine ⟨Stmt.text_eq_iff (made.isLegible finite) (made'.isLegible finite'), ?_⟩
  intro e part e' part'
  exact Expr.text_eq_iff ((made.of_mem_parts e part).isLegible finite)
    ((made'.of_mem_parts e' part').isLegible finite')

/-- A source in which a minus stands before one operand and another between two. -/
def closeSource : Text := "print-a-(1==\") (\");"

/-- The same source spread over lines. -/
def wideSource : Text := "print // all\n- a\n- ( 1 == \") (\" ) ;"

/-- The statement of those sources, with its tokens where they are put. -/
def differenceStmt (sign a minus equals : Int × Nat) : Stmt :=
  .print (.binary (.unary ⟨.minus, "-", none, sign.1, sign.2⟩ (.var ⟨.name, "a", none, a.1, a.2⟩))
    ⟨.minus, "-", none, minus.1, minus.2⟩
    (.group (.binary (.literal (.number ⟨0x3FF0000000000000⟩))
      ⟨.equalEqual, "==", none, equals.1, equals.2⟩ (.literal (.string ") (")))))

/-- The statements of the two sources have the same prefix form, so they are the same up to places;
and so are the expressions `-a` in them. -/
theorem forms_tell_trees_spread :
    ∃ stmt stmt' : Stmt, closeSource.parse.entries = [some stmt] ∧
      wideSource.parse.entries = [some stmt'] ∧ stmt ≠ stmt' ∧
      stmt.text = "(print (- (- a) (group (== 1 \") (\"))))" ∧
      stmt.relocate .nowhere = stmt'.relocate .nowhere ∧
      ∃ e ∈ stmt.parts, ∃ e' ∈ stmt'.parts, e.text = "(- a)" ∧
        e.relocate .nowhere = e'.relocate .nowhere := by
  have entries : closeSource.parse.entries =
      [some (differenceStmt (1, 5) (1, 6) (1, 7) (1, 10))] := by decide +kernel
  have entries' : wideSource.parse.entries =
      [some (differenceStmt (2, 0) (2, 2) (3, 0) (3, 6))] := by decide +kernel
  obtain ⟨statements, expressions⟩ := forms_tell_trees closeSource wideSource
    (by decide +kernel) (by decide +kernel) (by decide +kernel) (by decide +kernel) _ _
    (entries ▸ List.mem_cons_self) (entries' ▸ List.mem_cons_self)
  refine ⟨_, _, entries, entries', by decide, by decide +kernel, statements.mp (by decide +kernel),
    .unary ⟨.minus, "-", none, 1, 5⟩ (.var ⟨.name, "a", none, 1, 6⟩), by decide,
    .unary ⟨.minus, "-", none, 2, 0⟩ (.var ⟨.name, "a", none, 2, 2⟩), by decide, by decide, ?_⟩
  exact (expressions _ (by decide) _ (by decide)).mp (by decide)

/-- An infinite number has the text of a variable. -/
example : (Expr.literal (.number ⟨0x7FF0000000000000⟩)).text =
    (Expr.var ⟨.name, "Infinity", none, 1, 0⟩).text := by decide

end Text

end Scriptlet
