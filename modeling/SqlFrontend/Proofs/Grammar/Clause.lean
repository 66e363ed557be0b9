import SqlFrontend.Grammar.Table
import SqlFrontend.Proofs.Parsing.Success
import SqlFrontend.Proofs.Tree.Changes

/-!
# Clauses of columns

What is said of a column behind its name and its type are clauses. Each of them changes the column, and
how it is read does not depend on the column.

Results:
* `ColumnChange`: what a clause of a column says. `ColumnDefinition.change?` is what a column says of one
  of its fields.
* `Grammar.columnChange?`: the clauses, without the column that they are about.
* `Grammar.columnDefinition_eq`: a column is read clause by clause.
-/

namespace SqlFrontend

/-! ## What clauses say -/

/-- What a clause can be about. -/
inductive ColumnField where
  | constraintName
  | nullable
  | primaryKey
  | unique
  | autoNumber
  | initial
  | foreignKey
  | check
  | collation
  | comment
  deriving DecidableEq

/-- What a clause says. A comment says nothing that is kept. -/
inductive ColumnChange where
  | constraintName (name : String)
  | nullable (value : Bool)
  | primaryKey
  | unique
  | autoNumber (number : AutoNumber)
  | initial (value : Expr)
  | foreignKey (key : ForeignKey)
  | check (condition : Expr)
  | collation (name : String)
  | comment

namespace ColumnChange

def field : ColumnChange → ColumnField
  | constraintName _ => .constraintName
  | nullable _ => .nullable
  | primaryKey => .primaryKey
  | unique => .unique
  | autoNumber _ => .autoNumber
  | initial _ => .initial
  | foreignKey _ => .foreignKey
  | check _ => .check
  | collation _ => .collation
  | comment => .comment

/-- The column with what a clause says of it. -/
def apply (column : ColumnDefinition) : ColumnChange → ColumnDefinition
  | constraintName name => { column with constraintName := some name }
  | nullable value => { column with nullable := some value }
  | primaryKey => { column with primaryKey := true }
  | unique => { column with unique := true }
  | autoNumber number => { column with autoNumber := some number }
  | initial value => { column with initial := some value }
  | foreignKey key => { column with foreignKey := some key }
  | check condition => { column with check := some condition }
  | collation name => { column with collation := some name }
  | comment => column

/-- The word that a clause with an expression begins with. -/
def word? : ColumnChange → Option Keyword
  | initial _ => some .DEFAULT
  | check _ => some .CHECK
  | _ => none

/-- Clauses about different things can change places. -/
theorem apply_comm {c c' : ColumnChange} (h : c.field ≠ c'.field) (column : ColumnDefinition) :
    c'.apply (c.apply column) = c.apply (c'.apply column) := by
  cases c <;> cases c' <;> first | rfl | exact absurd rfl h

end ColumnChange

/-- What a column says of one of its fields, or nothing where that is left to the default. -/
def ColumnDefinition.change? (column : ColumnDefinition) : ColumnField → Option ColumnChange
  | .constraintName => column.constraintName.map .constraintName
  | .nullable => column.nullable.map .nullable
  | .primaryKey => if column.primaryKey then some .primaryKey else none
  | .unique => if column.unique then some .unique else none
  | .autoNumber => column.autoNumber.map .autoNumber
  | .initial => column.initial.map .initial
  | .foreignKey => column.foreignKey.map .foreignKey
  | .check => column.check.map .check
  | .collation => column.collation.map .collation
  | .comment => none

/-- Decides whether a column has the expression of a clause that begins with a word. -/
def ColumnDefinition.hasClause (column : ColumnDefinition) : Keyword → Bool
  | .DEFAULT => column.initial.isSome
  | .CHECK => column.check.isSome
  | _ => false

namespace ColumnChange

/-- Behind a clause a column has its expression, and those that it had. -/
theorem hasClause_apply {c : ColumnChange} {column : ColumnDefinition} {word : Keyword} :
    (c.apply column).hasClause word → c.word? = some word ∨ column.hasClause word := by
  intro h
  unfold ColumnDefinition.hasClause at h ⊢
  split at h
  · cases c <;> simp_all [apply, word?]
  · cases c <;> simp_all [apply, word?]
  · cases h

/-- A clause sets its own field and no other one. -/
theorem change?_apply {field : ColumnField} (hfield : field ≠ .comment) (c : ColumnChange)
    (column : ColumnDefinition) :
    (c.apply column).change? field = if c.field = field then some c else column.change? field := by
  cases c <;> cases field <;> first | rfl | exact absurd rfl hfield

/-- A column without clauses says nothing. -/
theorem change?_plain (name : String) (type : DataType) (field : ColumnField) :
    ({ name, type } : ColumnDefinition).change? field = none := by
  cases field <;> rfl

/-- What a column says behind clauses about different things. -/
theorem change?_foldl {field : ColumnField} (hfield : field ≠ .comment) {cs : List ColumnChange}
    (hcs : (cs.map ColumnChange.field).Nodup) (column : ColumnDefinition) :
    (cs.foldl apply column).change? field =
      (cs.find? fun c => c.field = field).or (column.change? field) :=
  value?_foldl_changes (fun column => column.change? field) (change?_apply hfield) hcs column

/-- Clauses change neither the name nor the type. -/
theorem foldl_apply_plain (cs : List ColumnChange) (column : ColumnDefinition) :
    (cs.foldl apply column).name = column.name ∧ (cs.foldl apply column).type = column.type := by
  induction cs generalizing column with
  | nil => exact ⟨rfl, rfl⟩
  | cons c cs ih =>
    obtain ⟨hname, htype⟩ := ih (c.apply column)
    cases c <;> exact ⟨hname, htype⟩

/-- On a column without clauses, different clauses do different things. -/
theorem eq_of_apply {name : String} {type : DataType} {c c' : ColumnChange}
    (h : c.apply { name, type } = c'.apply { name, type }) : c = c' := by
  have hsame {field : ColumnField} (hfield : field ≠ .comment) :
      (if c.field = field then some c else none) = if c'.field = field then some c' else none := by
    rw [← change?_plain name type field, ← change?_apply hfield, ← change?_apply hfield, h]
  have heq_comment {x : ColumnChange} (hx : x.field = .comment) : x = .comment := by
    cases x <;> first | rfl | cases hx
  by_cases hc : c.field = .comment
  · by_cases hc' : c'.field = .comment
    · rw [heq_comment hc, heq_comment hc']
    · have := hsame hc'
      rw [if_pos rfl, if_neg (by rw [hc]; exact fun h => hc' h.symm)] at this
      cases this
  · have := hsame hc
    rw [if_pos rfl] at this
    split at this <;> cases this
    rfl

/-- Clauses about different things make the same column in every order. -/
theorem foldl_apply_perm {cs cs' : List ColumnChange} (h : cs.Perm cs')
    (hcs : (cs.map ColumnChange.field).Nodup) (column : ColumnDefinition) :
    cs.foldl apply column = cs'.foldl apply column :=
  foldl_changes_perm apply_comm h hcs column

end ColumnChange

/-! ## Clauses without their column -/

namespace Grammar

open Production

/-- A clause of a column, or nothing if none stands here. -/
def columnChange? (nested : Nested) : Production (Option ColumnChange) := do
  match ← kind with
  | .keyword .CONSTRAINT => advance; return some (.constraintName (← name))
  | .keyword .NOT => advance; expectKeyword .NULL; return some (.nullable false)
  | .keyword .NULL => advance; return some (.nullable true)
  | .keyword .PRIMARY => advance; expectKeyword .KEY; skipClustering; return some .primaryKey
  | .keyword .UNIQUE => advance; skipKeyword .KEY; return some .unique
  | .keyword .AUTO_INCREMENT => advance; return some (.autoNumber .autoIncrement)
  | .keyword .AUTOINCREMENT => advance; return some (.autoNumber .autoincrement)
  | .keyword .IDENTITY => advance; return some (.autoNumber (← identity))
  | .keyword .GENERATED => advance; return some (.autoNumber (← generated))
  | .keyword .DEFAULT => advance; return some (.initial (← nested.expression))
  | .keyword .REFERENCES => return some (.foreignKey (← foreignKey))
  | .keyword .CHECK => advance; return some (.check (← inParens nested.expression))
  | .keyword .COLLATE => advance; return some (.collation (← name))
  | .keyword .COMMENT =>
    if ← checkPeek .string then
      advance
      advance
      return some .comment
    else return none
  | _ => return none

/-- A clause is read first, and then its column is changed. -/
theorem columnProperty?_eq (nested : Nested) (column : ColumnDefinition) :
    columnProperty? nested column =
      (Option.map fun c => c.apply column) <$> columnChange? nested := by
  rw [columnProperty?, columnChange?, map_bind]
  refine bind_congr fun k => ?_
  split <;> simp only [map_bind, map_pure, Option.map_some, Option.map_none, ColumnChange.apply]
  refine bind_congr fun isString => ?_
  split <;> simp only [map_bind, map_pure, Option.map_some, Option.map_none]

theorem kind_of_columnChange? {nested : Nested} {c : ColumnChange} {p q : Parser}
    (h : columnChange? nested p = .ok (some c) q) : ∀ word ∈ c.word?, p.current.kind = .keyword word := by
  obtain ⟨k, x, hkind, h⟩ := ok_of_bind h
  obtain ⟨hk, rfl⟩ : p.current.kind = k ∧ p = x := by cases hkind; exact ⟨rfl, rfl⟩
  rw [hk]
  have hother {k : TokenKind} {item : Option ColumnChange} (hnone : ∀ c ∈ item, c.word? = none) :
      Gives (Pure.pure item) fun item => ∀ c ∈ item, ∀ word ∈ c.word?, k = .keyword word := by
    refine .ret fun c hc word hword => ?_
    rw [hnone c hc] at hword
    cases hword
  refine (?_ : Gives _ fun item => ∀ c ∈ item, ∀ word ∈ c.word?, k = .keyword word) _ _ _ h c rfl
  split
  case h_10 | h_12 => exact .after fun _ => .after fun _ => .ret (by simp [ColumnChange.word?])
  case h_3 | h_6 | h_7 | h_11 => exact .after fun _ => hother (by simp [ColumnChange.word?])
  case h_1 | h_2 | h_5 | h_8 | h_9 | h_13 =>
    exact .after fun _ => .after fun _ => hother (by simp [ColumnChange.word?])
  case h_4 => exact .after fun _ => .after fun _ => .after fun _ => hother (by simp [ColumnChange.word?])
  case h_14 =>
    refine .after fun isString => .ite (fun _ => ?_) fun _ => hother nofun
    exact .after fun _ => .after fun _ => hother (by simp [ColumnChange.word?])
  case h_15 => exact hother nofun

/-- The name and the type of a column. -/
def columnHead : Production ColumnDefinition := do
  let name ← name
  let type ← dataType
  return { name, type }

/-- A round of the clauses of a column. -/
def columnRound (nested : Nested) (column : ColumnDefinition) :
    Production (Step ColumnDefinition ColumnDefinition) := do
  match ← columnProperty? nested column with
  | some column => return .more column
  | none => return .done column

theorem columnRound_eq (nested : Nested) (column : ColumnDefinition) :
    columnRound nested column =
      (fun c => c.elim (.done column) fun c => .more (c.apply column)) <$> columnChange? nested := by
  rw [columnRound, columnProperty?_eq, map_eq_pure_bind, map_eq_pure_bind, bind_assoc]
  refine bind_congr fun c => ?_
  rw [pure_bind]
  cases c <;> rfl

theorem columnDefinition_eq (nested : Nested) :
    columnDefinition nested = columnHead >>= loop (columnRound nested) := by
  refine .symm ((bind_assoc _ _ _).trans (bind_congr fun name => (bind_assoc _ _ _).trans ?_))
  exact bind_congr fun type => pure_bind _ _

end Grammar

end SqlFrontend
