import SqlFrontend.Grammar.Nested
import SqlFrontend.Proofs.Parsing.Kindred

/-!
# Nested constructs of texts that are kin

A production is kindred to itself for two readings of nested constructs if these readings are kindred.
Of all constructs only statements can leave the text open at its end.

* `Statement.IsOpen`: the statements that take a name which follows them, even the word that ends a
  batch. `Statement.LeftOpen` adds those that end with one.
* `Kinship.Leaving`: what the first text ends behind was left open. `Kinship.Dangling` and
  `Kinship.Trailing` say this of a statement and of a list of statements.
* `Kinship.Nested`: readings of nested constructs that are kindred, and that need text.
-/

namespace SqlFrontend

/-! ## Statements that are left open -/

/-- Decides whether a token of a kind can be a word. -/
def TokenKind.isWord : TokenKind → Bool
  | .identifier | .quotedIdentifier | .keyword _ => true
  | _ => false

/-- A statement to which a name behind it can belong, in a text whose last token is of a kind: one that
raises or signals nothing and ends with the word for that or for a level, a procedure without a body that
ends with the type of a parameter without a name, or a table whose text ends with the word before an
option. -/
def Statement.IsOpen (last : TokenKind) : Statement → Prop
  | .raise node =>
    node.isCall = false ∧ node.message = none ∧ node.condition = none ∧ node.options = [] ∧
      if node.level.isSome then last = .identifier ∨ last = .keyword .EXCEPTION
      else last = .keyword .RAISE
  | .signal node =>
    node.sqlState = none ∧ node.condition = none ∧ node.properties = [] ∧
      last = .keyword (if node.again then .RESIGNAL else .SIGNAL)
  | .createProcedure node =>
    node.body = .ofBody [] ∧ (∃ parameter ∈ node.parameters.getLast?, parameter.name = none) ∧
      last.isWord
  | .createTable _ => last = .keyword .DEFAULT
  | _ => False

/-- A statement whose end is open: it is open, or the statement that it ends with is left open. -/
inductive Statement.LeftOpen (last : TokenKind) : Statement → Prop
  | here {s : Statement} : s.IsOpen last → LeftOpen last s
  | handler {action : HandlerAction} {conditions : List HandlerCondition} {body : Statement} :
      LeftOpen last body → LeftOpen last (.declare (.handler action conditions body))
  | conditional {condition : Expr} {body : Statement} :
      LeftOpen last body → LeftOpen last (.conditional condition [body] [] none)
  | otherwise {condition : Expr} {body : List Statement} {s : Statement} :
      LeftOpen last s → LeftOpen last (.conditional condition body [] (some [s]))
  | whileLoop {label : Option String} {condition : Expr} {body : Statement} :
      LeftOpen last body → LeftOpen last (.whileLoop label condition [body])
  | explain {options : ExplainOptions} {s : Statement} :
      LeftOpen last s → LeftOpen last (.explain options s)
  | createProcedure {node : Routine} {before : List Statement} {s : Statement} :
      node.body = .ofBody (before ++ [s]) → LeftOpen last s → LeftOpen last (.createProcedure node)
  | createFunction {node : Routine} {returns : DataType} {before : List Statement} {s : Statement} :
      node.body = .ofBody (before ++ [s]) → LeftOpen last s →
      LeftOpen last (.createFunction node returns)
  | createTrigger {node : Trigger} {s : Statement} :
      node.body = .statement s → LeftOpen last s → LeftOpen last (.createTrigger node)
  | createBatchTrigger {node : Trigger} {before : List Statement} {s : Statement} :
      node.body = .block (.ofBody (before ++ [s])) → LeftOpen last s →
      LeftOpen last (.createTrigger node)

/-- Only a text that ends with a word is left open. -/
theorem Statement.LeftOpen.isWord {last : TokenKind} {s : Statement} (h : s.LeftOpen last) :
    last.isWord := by
  induction h with
  | @here s hopen =>
    cases s with
    | raise node =>
      obtain ⟨-, -, -, -, hlast⟩ := hopen
      split at hlast
      · rcases hlast with rfl | rfl <;> rfl
      · rw [hlast]; rfl
    | signal node => rw [hopen.2.2.2]; rfl
    | createProcedure node => exact hopen.2.2
    | createTable node => rw [show last = _ from hopen]; rfl
    | _ => exact hopen.elim
  | _ => assumption

/-- A block of statements alone, the last of which is left open. -/
def Block.LeftOpen (last : TokenKind) (block : Block) : Prop :=
  ∃ before s, block = .ofBody (before ++ [s]) ∧ s.LeftOpen last

/-- The body of a trigger that is left open. -/
def TriggerBody.LeftOpen (last : TokenKind) : TriggerBody → Prop
  | .block b => b.LeftOpen last
  | .statement s => s.LeftOpen last
  | .call _ _ => False

theorem Statement.leftOpen_createProcedure {last : TokenKind} {node : Routine}
    (h : node.body.LeftOpen last) : (Statement.createProcedure node).LeftOpen last := by
  obtain ⟨before, s, hbody, hs⟩ := h
  exact .createProcedure hbody hs

theorem Statement.leftOpen_createFunction {last : TokenKind} {node : Routine} {returns : DataType}
    (h : node.body.LeftOpen last) : (Statement.createFunction node returns).LeftOpen last := by
  obtain ⟨before, s, hbody, hs⟩ := h
  exact .createFunction hbody hs

theorem Statement.leftOpen_createTrigger {last : TokenKind} {node : Trigger}
    (h : node.body.LeftOpen last) : (Statement.createTrigger node).LeftOpen last := by
  cases hbody : node.body <;> rw [hbody] at h
  case block =>
    obtain ⟨before, s, rfl, hs⟩ := h
    exact .createBatchTrigger hbody hs
  case statement => exact .createTrigger hbody h
  case call => cases h

namespace Kinship

/-- What the first text ends behind: something that was left open, or a `WITH` that starts the options of
a routine. -/
def Leaving (k : TokenKind) (leftOpen : Prop) : Prop := k = .eof ∧ leftOpen ∨ k = .keyword .WITH

theorem Leaving.imp {k : TokenKind} {φ ψ : Prop} (h : Leaving k φ) (himp : φ → ψ) : Leaving k ψ :=
  Or.imp_left (And.imp_right himp) h

theorem Leaving.closes {k : TokenKind} {φ : Prop} (h : Leaving k φ) :
    k = .eof ∨ k = .keyword .WITH := Or.imp_left And.left h

/-- A statement that is not a query, behind which the first text ends. -/
structure Dangling (G : Kinship) (k : TokenKind) (s : Statement) : Prop where
  noQuery : s.query? = none
  place : Leaving k (s.LeftOpen G.last)

theorem Dangling.closes {G : Kinship} {k : TokenKind} {s : Statement} (h : G.Dangling k s) :
    k = .eof ∨ k = .keyword .WITH := h.place.closes

theorem Dangling.ofOpen {G : Kinship} {s : Statement} (hs : s.query? = none)
    (h : s.IsOpen G.last) : G.Dangling .eof s := ⟨hs, .inl ⟨rfl, .here h⟩⟩

/-- A statement that ends with a dangling one. -/
theorem Dangling.endOf {G : Kinship} {k : TokenKind} {s t : Statement} (h : G.Dangling k s)
    (ht : t.query? = none) (himp : s.LeftOpen G.last → t.LeftOpen G.last) : G.Dangling k t :=
  ⟨ht, h.place.imp himp⟩

/-- Statements behind which the first text ends, since the last of them was left open. -/
def Trailing (G : Kinship) (k : TokenKind) (body : List Statement) : Prop :=
  k = .eof ∧ ∃ before s, body = before ++ [s] ∧ s.LeftOpen G.last

theorem Trailing.leaving {G : Kinship} {k : TokenKind} {body : List Statement}
    (h : G.Trailing k body) : Leaving k ((Block.ofBody body).LeftOpen G.last) := by
  obtain ⟨hk, before, s, rfl, hs⟩ := h
  exact .inl ⟨hk, before, s, rfl, hs⟩

/-! ## Readings -/

/-- Readings of nested constructs that need text. No statement starts with a last `WITH`, either. -/
structure Needy (stopped : Bool) (N : Grammar.Nested) : Prop where
  expression : Production.Ends stopped .eof N.expression fun _ => False
  primary : Production.Ends stopped .eof N.primary fun _ => False
  selections : Production.Ends stopped .eof N.selections fun _ => False
  query : Production.Ends stopped .eof N.query fun _ => False
  statement : Production.Ends stopped .eof N.statement fun _ => False
  block : Production.Ends stopped .eof N.block fun _ => False
  statementWith : Production.Ends false (.keyword .WITH) N.statement fun _ => False

/-- Readings of nested constructs that are kindred. -/
structure Nested (G : Kinship) (N N' : Grammar.Nested) : Prop where
  expression : G.Kindred Anywhere N.expression N'.expression (Same G.goesOn)
  primary : G.Kindred Anywhere N.primary N'.primary (Same G.goesOn)
  selections : G.Kindred Anywhere N.selections N'.selections (Same G.goesOn)
  query : G.Kindred Anywhere N.query N'.query (Same G.goesOn)
  statement : G.Kindred Anywhere N.statement N'.statement (Same G.goesOn) G.Dangling
  block : G.Kindred Anywhere N.block N'.block (Same G.goesOn)
  needy : Needy false N

end Kinship

end SqlFrontend
