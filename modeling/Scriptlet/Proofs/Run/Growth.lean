/-
Scriptlet.Proofs.Run.Growth — names are only ever added, in the order in which they
are declared.

A run does two things to the variables: a `var` that comes to its end declares a
name, and an assignment that succeeds gives a declared name another value. Each of
these changes the value of its own name and no other, and only a declaration adds a
name, at the end (`Change.Makes`). A run makes such changes one after another
(`Trace`): for every entry that comes to its end the assignments of its expression
and then its declaration, and for the entry that fails some of its first assignments
(`exists_trace_executeAll`). What names there are, and in which order, follows from
the changes alone (`Trace.names_eq`).

  §1 Changes.
  §2 Changes one after another.
  §3 The changes of a run.
  §4 The names of a run.
-/
import Scriptlet.Proofs.Run.Interruption

namespace Scriptlet

/-! ## §1 Changes -/

/-- One thing that a run does to the variables. -/
structure Change where
  /-- Is it a declaration? Otherwise it is an assignment. -/
  declares : Bool
  /-- The name that is declared or assigned to. -/
  name : Text
  /-- The value that the name is given. -/
  value : Value

namespace Change

/-- What is changed and how, but for the value. -/
def site (c : Change) : Bool × Text := (c.declares, c.name)

/-- `c.Makes s s'`: the change leads from one scope to the other. It gives its own name a value and
no other, an assignment is to a name that there is, and a declaration of a new name puts it at the
end. -/
structure Makes (c : Change) (s s' : Scope) : Prop where
  own : s'.get? c.name = some c.value
  others : ∀ name ≠ c.name, s'.get? name = s.get? name
  known : c.declares = false → c.name ∈ s.names
  names : s'.names = if c.name ∈ s.names then s.names else s.names ++ [c.name]

theorem makes_insert {declares : Bool} {name : Text} {s : Scope} (v : Value)
    (known : declares = false → name ∈ s.names) :
    Makes ⟨declares, name, v⟩ s (s.insert name v) where
  own := s.get?_insert_self name v
  others _ ne := OrderedMap.get?_insert_of_ne ne s v
  known := known
  names := s.names_define name v

/-- A declaration changes the value of its own name. -/
theorem makes_define (s : Scope) (name : Text) (v : Value) :
    Makes ⟨true, name, v⟩ s (s.define name v) :=
  makes_insert v nofun

/-- An assignment changes the value of its own name. -/
theorem makes_assign? {s s' : Scope} {name : Text} {v : Value}
    (assigned : s.assign? name v = some s') : Makes ⟨false, name, v⟩ s s' := by
  unfold Scope.assign? at assigned
  split at assigned
  · next known =>
    obtain rfl := Option.some.inj assigned
    exact makes_insert v fun _ => (s.contains_iff_mem_keys name).mp known
  · cases assigned

end Change

/-! ## §2 Changes one after another -/

/-- `Trace changes s s'`: the changes, made in order, lead from one scope to the other. -/
inductive Trace : List Change → Scope → Scope → Prop where
  | nil {s : Scope} : Trace [] s s
  | cons {c : Change} {changes : List Change} {s s₁ s₂ : Scope} (first : c.Makes s s₁)
      (others : Trace changes s₁ s₂) : Trace (c :: changes) s s₂

/-- The names that changes declare, in order and as often as they do. -/
def declaredBy (sites : List (Bool × Text)) : List Text :=
  sites.filterMap fun site => if site.1 then some site.2 else none

/-- The names of a list that are not among others, each in the place where it stands first. -/
def newNames (known names : List Text) : List Text :=
  (names.filter fun name => name ∉ known).eraseDups

theorem newNames_cons_of_mem {known : List Text} {name : Text} (h : name ∈ known)
    (names : List Text) : newNames known (name :: names) = newNames known names := by
  simp [newNames, h]

theorem newNames_cons_of_not_mem {known : List Text} {name : Text} (h : name ∉ known)
    (names : List Text) :
    newNames known (name :: names) = name :: newNames (known ++ [name]) names := by
  simp only [newNames, List.filter_cons, h, not_false_eq_true, decide_true, if_true,
    List.eraseDups_cons, List.filter_filter]
  congr 3
  funext other
  simp [Bool.and_comm, beq_eq_decide]

namespace Trace

variable {changes others : List Change} {s s₁ s₂ : Scope}

theorem single {c : Change} (h : c.Makes s s₁) : Trace [c] s s₁ := .cons h .nil

theorem append (first : Trace changes s s₁) (next : Trace others s₁ s₂) :
    Trace (changes ++ others) s s₂ := by
  induction first with
  | nil => exact next
  | cons made _ ih => exact .cons made (ih next)

/-- Behind the names there were stand those that were declared, in the order of their first
declaration. -/
theorem names_eq (trace : Trace changes s s₁) :
    s₁.names = s.names ++ newNames s.names (declaredBy (changes.map Change.site)) := by
  induction trace with
  | nil => simp [newNames, declaredBy]
  | @cons c changes s s₁ s₂ first _ ih =>
    rw [ih, first.names]
    by_cases known : c.name ∈ s.names
    · cases declares : c.declares <;>
        simp [declaredBy, Change.site, declares, known, newNames_cons_of_mem]
    · have declares : c.declares = true := by
        rw [← Bool.not_eq_false]
        exact fun assigns => known (first.known assigns)
      simp [declaredBy, Change.site, declares, known, newNames_cons_of_not_mem]

/-- Assignments one after another are changes one after another. -/
theorem of_assignAll? {writes : List (Text × Value)} (assigned : s.assignAll? writes = some s₁) :
    Trace (writes.map fun write => ⟨false, write.1, write.2⟩) s s₁ := by
  induction writes generalizing s with
  | nil =>
    obtain rfl := Option.some.inj assigned
    exact .nil
  | cons write rest ih =>
    obtain ⟨s', first, others⟩ := Option.bind_eq_some_iff.mp assigned
    exact .cons (Change.makes_assign? first) (ih others)

end Trace

/-! ## §3 The changes of a run -/

/-- The names to which an expression assigns, in the order in which it does. -/
def Expr.assignments (e : Expr) : List Text := e.instructions.filterMap Instruction.target?

namespace Entry

/-- The names to which an entry of a program assigns, in the order in which it does. -/
def assignments : Entry → List Text
  | some stmt => stmt.operand?.elim [] Expr.assignments
  | none => []

/-- What an entry that comes to its end changes: first come the assignments of its expression, and
its declaration is the last. -/
def sites (entry : Entry) : List (Bool × Text) :=
  entry.assignments.map (false, ·) ++ entry.declared?.toList.map (true, ·)

end Entry

open Evaluation (scopeOf)

/-- Instructions that are done make the changes of their assignments. -/
theorem Runs.exists_trace {is : List Instruction} {m m' : Machine} (runs : Runs is m m') :
    ∃ changes, Trace changes m.scope m'.scope ∧
      changes.map Change.site = (is.filterMap Instruction.target?).map (false, ·) := by
  obtain ⟨writes, targets, assigned⟩ := runs.exists_assignAll?
  refine ⟨_, .of_assignAll? assigned, ?_⟩
  rw [← targets, List.map_map, List.map_map]
  rfl

/-- An expression that has a value makes all its assignments, and one that fails some of the
first. -/
theorem Expr.exists_trace (e : Expr) (s : Scope) :
    ∃ made changes, made <+: e.assignments ∧ Trace changes s (scopeOf (e.evaluate s)) ∧
      changes.map Change.site = made.map (false, ·) ∧
      ∀ v s', e.evaluate s = .ok v s' → made = e.assignments := by
  have follows := e.follows_meaning
  rw [← evaluate_eq_meaning] at follows
  cases ran : e.evaluate s with
  | ok v s' =>
    obtain ⟨changes, trace, sites⟩ := (follows.ok_iff.mp ran).exists_trace
    exact ⟨e.assignments, changes, List.prefix_rfl, trace, sites, fun _ _ _ => rfl⟩
  | error f s' =>
    obtain ⟨stack, breaks⟩ := follows.error_iff.mp ran
    obtain ⟨done, i, rest, split, runs, -⟩ := breaksOff_iff.mp breaks
    obtain ⟨changes, trace, sites⟩ := runs.exists_trace
    refine ⟨_, changes, ?_, trace, sites, nofun⟩
    rw [assignments, split, List.filterMap_append]
    exact List.prefix_append _ _

/-- What an entry changes: an entry that comes to its end makes all its changes, and one that fails
makes some of its first assignments. -/
structure Entry.Performs (entry : Entry) (s : Scope) (made : List (Bool × Text)) : Prop where
  ended : (entry.execute s).fault = none → made = entry.sites
  failed : (entry.execute s).fault ≠ none →
    ∃ names, names <+: entry.assignments ∧ made = names.map (false, ·)

/-- A statement that first evaluates its expression makes the changes of the expression. If that has
a value, those that follow are added. -/
theorem Effect.exists_trace_ofEvaluation (e : Expr) (s : Scope) {next : Value → Scope → Effect}
    {declared : List Text} (fine : ∀ v s', (next v s').fault = none)
    (after : ∀ v s', ∃ changes, Trace changes s' (next v s').scope ∧
      changes.map Change.site = declared.map (true, ·)) :
    ∃ changes, Trace changes s (ofEvaluation e s next).scope ∧
      ((ofEvaluation e s next).fault = none →
        changes.map Change.site = e.assignments.map (false, ·) ++ declared.map (true, ·)) ∧
      ((ofEvaluation e s next).fault ≠ none →
        ∃ names, names <+: e.assignments ∧ changes.map Change.site = names.map (false, ·)) := by
  obtain ⟨made, changes, begins, trace, sites, whole⟩ := e.exists_trace s
  unfold ofEvaluation
  cases ran : e.evaluate s with
  | ok v s' =>
    rw [ran] at trace
    obtain ⟨others, trace', sites'⟩ := after v s'
    refine ⟨changes ++ others, trace.append trace', fun _ => ?_, fun faulty => ?_⟩
    · rw [List.map_append, sites, sites', whole v s' ran]
    · exact absurd (fine v s') faulty
  | error f s' =>
    rw [ran] at trace
    exact ⟨changes, trace, nofun, fun _ => ⟨made, begins, sites⟩⟩

theorem Entry.exists_trace (entry : Entry) (s : Scope) :
    ∃ changes, Trace changes s (entry.execute s).scope ∧
      entry.Performs s (changes.map Change.site) := by
  have undeclared (shown : Value → Text) (v : Value) (s : Scope) :
      ∃ changes, Trace changes s (Effect.mk s (shown v) none).scope ∧
        changes.map Change.site = ([] : List Text).map (true, ·) := ⟨[], .nil, rfl⟩
  match entry with
  | none | some (.misfit what) => exact ⟨[], .nil, nofun, fun _ => ⟨[], List.nil_prefix, rfl⟩⟩
  | some (.var name none) =>
    exact ⟨_, .single (Change.makes_define s name.lexeme .nil), fun _ => rfl, fun h => absurd rfl h⟩
  | some (.expression e) =>
    obtain ⟨changes, trace, ended, failed⟩ := Effect.exists_trace_ofEvaluation e s
      (fun _ _ => rfl) (undeclared fun _ => [])
    exact ⟨changes, trace, ended, failed⟩
  | some (.print e) =>
    obtain ⟨changes, trace, ended, failed⟩ := Effect.exists_trace_ofEvaluation e s
      (fun _ _ => rfl) (undeclared fun v => Text.line v.text)
    exact ⟨changes, trace, ended, failed⟩
  | some (.var name (some e)) =>
    have declaring (v : Value) (s : Scope) :
        ∃ changes, Trace changes s (Effect.mk (s.define name.lexeme v) [] none).scope ∧
          changes.map Change.site = [name.lexeme].map (true, ·) :=
      ⟨_, .single (Change.makes_define s name.lexeme v), rfl⟩
    obtain ⟨changes, trace, ended, failed⟩ := Effect.exists_trace_ofEvaluation e s
      (fun _ _ => rfl) declaring
    exact ⟨changes, trace, ended, failed⟩

/-- A run makes all changes of the entries that come to their end, in order, and some of the first
assignments of the entry that fails, if one does. -/
theorem exists_trace_executeAll (entries : List Entry) (s : Scope) :
    ∃ completed rest names changes, entries = completed ++ rest ∧
      (executeAll completed s).fault = none ∧
      (∀ entry ∈ rest.head?, (entry.execute (executeAll completed s).scope).fault ≠ none) ∧
      names <+: rest.head?.elim [] Entry.assignments ∧
      Trace changes s (executeAll entries s).scope ∧
      changes.map Change.site = completed.flatMap Entry.sites ++ names.map (false, ·) := by
  induction entries generalizing s with
  | nil => exact ⟨[], [], [], [], rfl, rfl, nofun, List.prefix_rfl, .nil, rfl⟩
  | cons entry rest ih =>
    obtain ⟨changes, trace, performs⟩ := entry.exists_trace s
    cases first : (entry.execute s).fault with
    | some f =>
      obtain ⟨names, begins, sites⟩ := performs.failed (by simp [first])
      rw [executeAll_of_fault first]
      refine ⟨[], entry :: rest, names, changes, rfl, rfl, ?_, begins, trace, sites⟩
      rintro _ ⟨⟩
      exact Option.ne_none_iff_exists'.mpr ⟨f, first⟩
    | none =>
      obtain ⟨completed, behind, names, others, rfl, fine, stops, begins, trace', sites'⟩ :=
        ih (entry.execute s).scope
      have sites := performs.ended first
      rw [executeAll_of_no_fault first]
      refine ⟨entry :: completed, behind, names, changes ++ others, rfl, ?_, ?_, begins,
        trace.append trace', ?_⟩
      · rw [executeAll_of_no_fault first]
        exact fine
      · rw [executeAll_of_no_fault first]
        exact stops
      · rw [List.map_append, sites, sites', List.flatMap_cons, List.append_assoc]

/-! ## §4 The names of a run -/

theorem declaredBy_append (sites others : List (Bool × Text)) :
    declaredBy (sites ++ others) = declaredBy sites ++ declaredBy others :=
  List.filterMap_append

theorem declaredBy_assignments (names : List Text) : declaredBy (names.map (false, ·)) = [] := by
  simp [declaredBy]

/-- Of the changes of entries that come to their end, the declarations are those of the entries. -/
theorem declaredBy_flatMap_sites (entries : List Entry) :
    declaredBy (entries.flatMap Entry.sites) = entries.filterMap Entry.declared? := by
  induction entries with
  | nil => rfl
  | cons entry rest ih =>
    rw [List.flatMap_cons, declaredBy_append, ih, Entry.sites, declaredBy_append,
      declaredBy_assignments]
    cases declared : entry.declared? <;> simp [declaredBy, declared]

namespace Interpreter

theorem scope_interpret (i : Interpreter) (entries : List Entry) :
    (i.interpret entries).2.scope = (executeAll entries i.scope).scope := by
  simp only [interpret]
  split <;> rfl

/-- **Names are only ever added, in the order of their declaration.** Evaluation declares nothing,
whether it has a value or fails. A run completes the entries before the first that fails. Behind the
names there were, it leaves those that the completed entries declare and that were not there, in the
order of their first declaration, and no name is there twice. What it does to the variables is to
make the assignments of each completed entry and then its declaration, and some of the first
assignments of the entry that fails, one after another; each of these changes the value of its own
name and of no other. -/
theorem interpret_adds_names :
    (∀ (e : Expr) (s : Scope), (scopeOf (e.evaluate s)).names = s.names) ∧
    ∀ (i : Interpreter) (entries : List Entry),
      ∃ completed rest names changes, entries = completed ++ rest ∧
        (executeAll completed i.scope).fault = none ∧
        (∀ entry ∈ rest.head?,
          (entry.execute (executeAll completed i.scope).scope).fault ≠ none) ∧
        (i.interpret entries).2.scope.names =
          i.scope.names ++ newNames i.scope.names (completed.filterMap Entry.declared?) ∧
        (i.interpret entries).2.scope.names.Nodup ∧
        names <+: rest.head?.elim [] Entry.assignments ∧
        Trace changes i.scope (i.interpret entries).2.scope ∧
        changes.map Change.site = completed.flatMap Entry.sites ++ names.map (false, ·) := by
  refine ⟨Expr.names_evaluate, fun i entries => ?_⟩
  obtain ⟨completed, rest, names, changes, split, fine, stops, begins, trace, sites⟩ :=
    exists_trace_executeAll entries i.scope
  rw [scope_interpret]
  refine ⟨completed, rest, names, changes, split, fine, stops, ?_,
    (executeAll entries i.scope).scope.distinct, begins, trace, sites⟩
  rw [trace.names_eq, sites, declaredBy_append, declaredBy_flatMap_sites, declaredBy_assignments,
    List.append_nil]

/-- The statements `var b; var a = b = "x"; var b = a; var c = (a = "y") + -a; var d;`, of which the
fourth fails. -/
def redeclaringStatements : List Entry :=
  [some (.var ⟨.name, "b", none, 1, 4⟩ none),
    some (.var ⟨.name, "a", none, 2, 4⟩
      (some (.assign ⟨.name, "b", none, 2, 8⟩ (.literal (.string "x"))))),
    some (.var ⟨.name, "b", none, 3, 4⟩ (some (.var ⟨.name, "a", none, 3, 8⟩))),
    some (.var ⟨.name, "c", none, 4, 4⟩ (some (.binary
      (.group (.assign ⟨.name, "a", none, 4, 9⟩ (.literal (.string "y"))))
      ⟨.plus, "+", none, 4, 18⟩
      (.unary ⟨.minus, "-", none, 4, 20⟩ (.var ⟨.name, "a", none, 4, 21⟩))))),
    some (.var ⟨.name, "d", none, 5, 4⟩ none)]

/-- A name that is declared again keeps its place, and the declaration that fails adds none, though
the assignment inside it stays. -/
theorem interpret_adds_names_redeclared :
    let i : Interpreter := ⟨⟨[("a", .nil)], by decide⟩, [], some []⟩
    i.scope.names.Nodup ∧
    (i.interpret redeclaringStatements).2.scope =
      ⟨[("a", .string "y"), ("b", .string "x")], by decide⟩ ∧
    newNames i.scope.names ((redeclaringStatements.take 3).filterMap Entry.declared?) = ["b"] ∧
    (i.interpret redeclaringStatements).2.scope.names.Nodup := by
  intro i
  obtain ⟨completed, rest, names, changes, split, fine, stops, grown, nodup, -⟩ :=
    interpret_adds_names.2 i redeclaringStatements
  exact ⟨i.scope.distinct, rfl, by decide, nodup⟩

end Interpreter

end Scriptlet
