import SqlFrontend.Proofs.Lexing.Pieces
import SqlFrontend.Proofs.Tree.Literal
import SqlFrontend.Summary.Query

/-!
# Canonical expressions

The summary of an expression puts an operator on the right of another into parentheses, and nothing
else. The expressions that such a text stands for are the canonical ones: operators group from left to
right, a sign stands before an operand without an operator, and a negation takes all that follows.

Results:
* `Expr.Canonical`: the expressions that are canonical, by the place where they stand.
* `Canonical.pieces_summary`: in every dialect, the summary of a canonical expression is cut into the
  pieces of the expression, whatever stands behind its end.
-/

namespace SqlFrontend

/-! ## Canonical expressions -/

/-- A word that names something without quotes in every dialect. -/
structure PlainName (word : String) : Prop where
  spelt : Text.isPlainWord word.toList
  free : Keyword.ofString? word = none

/-- Where an expression stands. -/
inductive Expr.Rank where
  /-- Behind a sign. -/
  | atom
  /-- As a bound of a range. -/
  | prim
  /-- On the left of an operator. -/
  | left
  /-- On the right of an operator. -/
  | right
  /-- By itself, or between parentheses, commas and other words than operators. -/
  | full
  deriving DecidableEq, Repr

/-- The expressions that stand at a place without more parentheses than their summary has. -/
inductive Expr.Canonical : Expr.Rank → Expr → Prop
  | null : Canonical .atom (.literal .null)
  | boolean (value : Bool) : Canonical .atom (.literal (.boolean value))
  | integer {n : ℕ} : n < 2 ^ 63 → Canonical .atom (.literal (.integer n))
  | string (value : String) : Canonical .atom (.literal (.string value))
  | column {table : Option String} {column : String} : (∀ name ∈ table, PlainName name) →
      PlainName column → Canonical .atom (.column ⟨table, column⟩)
  | call {name : String} {args : List Expr} {distinct : Bool} : PlainName name →
      (∀ arg ∈ args, Canonical .full arg) → (distinct → args ≠ []) →
      Canonical .atom (.call ⟨name, args, distinct⟩)
  | choice {input otherwise : Option Expr} {branches : List Branch} :
      (∀ e ∈ input, Canonical .full e) → branches ≠ [] →
      (∀ branch ∈ branches, Canonical .full branch.condition) →
      (∀ branch ∈ branches, Canonical .full branch.result) →
      (∀ e ∈ otherwise, Canonical .full e) → Canonical .atom (.choice input branches otherwise)
  | unsigned {e : Expr} : Canonical .atom e → Canonical .prim e
  | sign {op : UnaryOperator} {e : Expr} : op ≠ .not → Canonical .atom e →
      Canonical .prim (.unary op e)
  | plainLeft {e : Expr} : Canonical .prim e → Canonical .left e
  | binary {left right : Expr} {op : BinaryOperator} : Canonical .left left →
      Canonical .right right → Canonical .left (.binary ⟨left, op, right⟩)
  | among {e : Expr} {negated : Bool} {values : List Expr} : Canonical .left e → values ≠ [] →
      (∀ value ∈ values, Canonical .full value) → Canonical .left (.among e negated (.list values))
  | between {e low high : Expr} {negated : Bool} : Canonical .left e → Canonical .prim low →
      Canonical .prim high → Canonical .left (.between e negated low high)
  | plainRight {e : Expr} : Canonical .prim e → Canonical .right e
  | grouped {node : Binary} : Canonical .left (.binary node) → Canonical .right (.binary node)
  | positive {e : Expr} : Canonical .left e → Canonical .full e
  | negation {e : Expr} : Canonical .full e → Canonical .full (.unary .not e)

/-! ## The pieces of an expression -/

/-- The word before a negated test. -/
def negationPieces (negated : Bool) : List Piece := if negated then [.of (.keyword .NOT)] else []

mutual

/-- The pieces that a canonical expression is written with. -/
def Expr.pieces : Expr → List Piece
  | .literal .null => [.of (.keyword .NULL)]
  | .literal (.boolean true) => [.of (.keyword .TRUE)]
  | .literal (.boolean false) => [.of (.keyword .FALSE)]
  | .literal (.integer value) => [⟨.number, Literal.summary (.integer value)⟩]
  | .literal (.string value) => [⟨.string, value⟩]
  | .column ⟨none, column⟩ => [⟨.identifier, column⟩]
  | .column ⟨some table, column⟩ => [⟨.identifier, table⟩, .of .dot, ⟨.identifier, column⟩]
  | .binary node => node.pieces
  | .unary .not operand => .of (.keyword .NOT) :: operand.pieces
  | .unary .minus operand => .of .minus :: operand.pieces
  | .unary .plus operand => .of .plus :: operand.pieces
  | .call call => call.pieces
  | .among expr negated values =>
    expr.pieces ++ (negationPieces negated ++ .of (.keyword .IN) :: values.pieces)
  | .choice input branches otherwise =>
    .of (.keyword .CASE) :: (Expr.clausePieces [] input ++ (Branch.listPieces branches ++
      (Expr.clausePieces [.of (.keyword .ELSE)] otherwise ++ [.of (.keyword .END)])))
  | .between expr negated low high =>
    expr.pieces ++ (negationPieces negated ++ .of (.keyword .BETWEEN) ::
      (low.pieces ++ .of (.keyword .AND) :: high.pieces))
  | _ => []

/-- The pieces of expressions with commas before them. -/
def Expr.tailPieces : List Expr → List Piece
  | [] => []
  | expr :: rest => .of .comma :: (expr.pieces ++ Expr.tailPieces rest)

/-- The pieces of an optional expression behind others. -/
def Expr.clausePieces (before : List Piece) : Option Expr → List Piece
  | none => []
  | some expr => before ++ expr.pieces

/-- The pieces of an operator with its operands. -/
def Binary.pieces : Binary → List Piece
  | ⟨left, op, right⟩ =>
    left.pieces ++ (op.kinds.map Piece.of ++
      if right.isBinary then .of .leftParen :: (right.pieces ++ [.of .rightParen])
      else right.pieces)

/-- The pieces of a call. -/
def Call.pieces : Call → List Piece
  | ⟨name, args, distinct⟩ =>
    ⟨.identifier, name⟩ :: .of .leftParen ::
      ((if distinct then [.of (.keyword .DISTINCT)] else []) ++
        ((Expr.tailPieces args).tail ++ [.of .rightParen]))

/-- The pieces of a list of candidates. -/
def Candidates.pieces : Candidates → List Piece
  | .list values =>
    .of .leftParen :: ((Expr.tailPieces values).tail ++ [.of .rightParen])
  | .query _ => []

/-- The pieces of branches one after the other. -/
def Branch.listPieces : List Branch → List Piece
  | [] => []
  | ⟨condition, result⟩ :: rest =>
    .of (.keyword .WHEN) :: (condition.pieces ++ .of (.keyword .THEN) ::
      (result.pieces ++ Branch.listPieces rest))

end

/-- The pieces of expressions with commas between them. -/
def Expr.listPieces (exprs : List Expr) : List Piece := (Expr.tailPieces exprs).tail

/-! ## Cutting summaries -/

open Lexer

theorem PlainName.exists_cons {word : String} (h : PlainName word) :
    ∃ c cs, word.toList = c :: cs ∧ (c.isAlpha || c == '_') = true := by
  have hspelt := h.spelt
  cases hw : word.toList with
  | nil =>
    rw [hw] at hspelt
    cases hspelt
  | cons c cs =>
    rw [hw, Text.isPlainWord, Bool.and_eq_true] at hspelt
    exact ⟨c, cs, rfl, hspelt.1⟩

theorem PlainName.pieces {word : String} (h : PlainName word) (d : Dialect) {rest : List Char}
    (hrest : ∀ c ∈ rest.head?, Text.endsWord c) :
    pieces d (word.toList ++ rest) = ⟨.identifier, word⟩ :: pieces d rest :=
  pieces_name h.spelt h.free hrest

namespace Expr

variable {d : Dialect} {r : Rank} {e : Expr} {rest : List Char}

/-- Before every text that starts with a seam, the summary of an expression is cut into the pieces of
the expression. -/
def Cuts (d : Dialect) (e : Expr) : Prop :=
  ∀ rest : List Char, (∀ c ∈ rest.head?, Text.isSeam c) →
    Lexer.pieces d (e.summary.toList ++ rest) = e.pieces ++ Lexer.pieces d rest

/-- A sign and the operand behind it are not the beginning of a comment. -/
theorem Canonical.head_ne_minus (h : Canonical .atom e) (rest : List Char) :
    (e.summary.toList ++ rest).head? ≠ some '-' := by
  have hword {word : String} (hw : PlainName word) (t : List Char) :
      (word.toList ++ t).head? ≠ some '-' := by
    obtain ⟨c, cs, hcons, hc⟩ := hw.exists_cons
    rw [hcons]
    have := Scan.ne_of_isWordStart (x := '-') hc (by decide)
    simpa using this
  cases h with
  | null => simp [summary, Literal.summary]
  | boolean value => cases value <;> simp [summary, Literal.summary]
  | @integer n hn =>
    show ((Literal.summary (.integer n)).toList ++ rest).head? ≠ _
    rw [Literal.toList_summary]
    cases hd : Nat.toDigits 10 n with
    | nil => exact absurd hd Nat.toDigits_ne_nil
    | cons c cs =>
      have hdigit : c.isDigit := Numeral.isDigit_of_mem_toDigits (n := n) (by simp [hd])
      have hne : c ≠ '-' := by
        rintro rfl
        exact absurd hdigit (by decide)
      simpa using hne
  | string value => simp [summary, Literal.summary, Literal.quoted]
  | @column table column htable hcolumn =>
    cases table with
    | none => exact hword hcolumn rest
    | some table =>
      show ((table ++ "." ++ column).toList ++ rest).head? ≠ _
      rw [String.toList_append, String.toList_append, List.append_assoc, List.append_assoc]
      exact hword (htable table rfl) _
  | @call name args distinct hname =>
    show ((name ++ "(" ++ wordIf distinct "DISTINCT " ++ commaSeparated (summaries args) ++
      ")").toList ++ rest).head? ≠ _
    simp only [String.toList_append, List.append_assoc]
    exact hword hname _
  | choice => simp [summary]

/-! ### Lists -/

theorem commaSeparated_cons_cons (e f : Expr) (es : List Expr) :
    commaSeparated (summaries (e :: f :: es)) =
      e.summary ++ ", " ++ commaSeparated (summaries (f :: es)) := by
  show ", ".intercalate (e.summary :: f.summary :: summaries es) = _
  rw [String.intercalate_cons_cons]
  rfl

theorem pieces_commaSeparated {exprs : List Expr} (h : ∀ e ∈ exprs, Cuts d e)
    (hrest : ∀ c ∈ rest.head?, Text.isSeam c) :
    Lexer.pieces d ((commaSeparated (summaries exprs)).toList ++ rest) =
      listPieces exprs ++ Lexer.pieces d rest := by
  cases exprs with
  | nil => rfl
  | cons e es =>
    induction es generalizing e with
    | nil =>
      have hone : commaSeparated (summaries [e]) = e.summary := by
        show ", ".intercalate [e.summary] = _
        exact String.intercalate_singleton
      rw [hone, h e List.mem_cons_self rest hrest]
      simp [listPieces, tailPieces]
    | cons f es ih =>
      obtain ⟨he, hes⟩ := List.forall_mem_cons.1 h
      rw [commaSeparated_cons_cons, String.toList_append, String.toList_append, List.append_assoc,
        List.append_assoc, he _ (by simp [Text.isSeam])]
      show _ ++ Lexer.pieces d
        (',' :: ' ' :: ((commaSeparated (summaries (f :: es))).toList ++ rest)) = _
      rw [pieces_comma, pieces_blank, ih f hes]
      simp [listPieces, tailPieces]

theorem pieces_clause {before : String} {ps : List Piece} {input : Option Expr}
    (h : ∀ e ∈ input, Cuts d e)
    (hbefore : ∀ t, Lexer.pieces d (before.toList ++ t) = ps ++ Lexer.pieces d t)
    (hrest : ∀ c ∈ rest.head?, Text.isSeam c) :
    Lexer.pieces d ((clause before "" input).toList ++ rest) =
      clausePieces ps input ++ Lexer.pieces d rest := by
  cases input with
  | none => rfl
  | some e =>
    show Lexer.pieces d ((before ++ e.summary ++ "").toList ++ rest) = _
    rw [String.append_empty, String.toList_append, List.append_assoc, hbefore, h e rfl rest hrest]
    simp [clausePieces]

theorem isSeam_clause {before : String} {cs : List Char} (input : Option Expr)
    (hbefore : before.toList = ' ' :: cs) (hrest : ∀ c ∈ rest.head?, Text.isSeam c) :
    ∀ c ∈ ((clause before "" input).toList ++ rest).head?, Text.isSeam c := by
  cases input with
  | none => exact hrest
  | some e => simp [clause, hbefore, Text.isSeam]

theorem isSeam_branches (branches : List Branch) (hrest : ∀ c ∈ rest.head?, Text.isSeam c) :
    ∀ c ∈ ((Branch.summaries branches).toList ++ rest).head?, Text.isSeam c := by
  cases branches with
  | nil => exact hrest
  | cons branch branches =>
    obtain ⟨condition, result⟩ := branch
    simp [Branch.summaries, Text.isSeam]

theorem pieces_branches {branches : List Branch} (hconditions : ∀ b ∈ branches, Cuts d b.condition)
    (hresults : ∀ b ∈ branches, Cuts d b.result)
    (hrest : ∀ c ∈ rest.head?, Text.isSeam c) :
    Lexer.pieces d ((Branch.summaries branches).toList ++ rest) =
      Branch.listPieces branches ++ Lexer.pieces d rest := by
  induction branches with
  | nil => rfl
  | cons branch branches ih =>
    obtain ⟨condition, result⟩ := branch
    obtain ⟨hcondition, hconditions⟩ := List.forall_mem_cons.1 hconditions
    obtain ⟨hresult, hresults⟩ := List.forall_mem_cons.1 hresults
    have hwhen (t : List Char) :
        Lexer.pieces d (" WHEN ".toList ++ t) = .of (.keyword .WHEN) :: Lexer.pieces d t :=
      (pieces_blank d _).trans (pieces_keyword_blank .WHEN nofun t)
    have hthen (t : List Char) :
        Lexer.pieces d (" THEN ".toList ++ t) = .of (.keyword .THEN) :: Lexer.pieces d t :=
      (pieces_blank d _).trans (pieces_keyword_blank .THEN nofun t)
    show Lexer.pieces d ((" WHEN " ++ condition.summary ++ " THEN " ++ result.summary ++
      Branch.summaries branches).toList ++ rest) = _
    simp only [String.toList_append, List.append_assoc]
    rw [hwhen, hcondition _ (by simp [Text.isSeam]), hthen, hresult _ (isSeam_branches branches hrest),
      ih hconditions hresults]
    simp [Branch.listPieces]

/-! ### Expressions -/

theorem pieces_negation (d : Dialect) (negated : Bool) (rest : List Char) :
    Lexer.pieces d ((wordIf negated "NOT ").toList ++ rest) =
      negationPieces negated ++ Lexer.pieces d rest := by
  cases negated with
  | false => rfl
  | true => exact pieces_keyword_blank .NOT nofun rest

theorem endsWord_head (hrest : ∀ c ∈ rest.head?, Text.isSeam c) : ∀ c ∈ rest.head?, Text.endsWord c :=
  fun c hc => Text.endsWord_of_isSeam (hrest c hc)

theorem pieces_space (d : Dialect) (rest : List Char) :
    Lexer.pieces d (" ".toList ++ rest) = Lexer.pieces d rest := pieces_blank d rest

theorem pieces_opening (d : Dialect) (rest : List Char) :
    Lexer.pieces d ("(".toList ++ rest) = .of .leftParen :: Lexer.pieces d rest :=
  pieces_leftParen d rest

theorem pieces_closing (d : Dialect) (rest : List Char) :
    Lexer.pieces d (")".toList ++ rest) = .of .rightParen :: Lexer.pieces d rest :=
  pieces_rightParen d rest

theorem cuts_boolean (value : Bool) : Cuts d (.literal (.boolean value)) := by
  intro rest hrest
  cases value with
  | true => exact pieces_keyword .TRUE (by decide) (endsWord_head hrest)
  | false => exact pieces_keyword .FALSE (by decide) (endsWord_head hrest)

theorem cuts_integer (n : ℕ) : Cuts d (.literal (.integer n)) := by
  intro rest hrest
  show Lexer.pieces d ((Literal.summary (.integer n)).toList ++ rest) = _
  have hdigits := pieces_digits (d := d) Nat.toDigits_ne_nil
    (fun c => Numeral.isDigit_of_mem_toDigits (n := n)) hrest
  rw [Literal.toList_summary, hdigits, ← Literal.toList_summary, String.ofList_toList]
  rfl

theorem cuts_column {table : Option String} {column : String}
    (htable : ∀ name ∈ table, PlainName name) (hcolumn : PlainName column) :
    Cuts d (.column ⟨table, column⟩) := by
  intro rest hrest
  cases table with
  | none => exact hcolumn.pieces d (endsWord_head hrest)
  | some table =>
    obtain ⟨c, cs, hcons, hc⟩ := hcolumn.exists_cons
    have hdot : c ≠ '.' := Scan.ne_of_isWordStart hc (by decide)
    show Lexer.pieces d ((table ++ "." ++ column).toList ++ rest) = _
    simp only [String.toList_append, List.append_assoc]
    rw [(htable table rfl).pieces d (by simp [Text.endsWord])]
    show _ :: Lexer.pieces d ('.' :: (column.toList ++ rest)) = _
    rw [pieces_dot d, hcolumn.pieces d (endsWord_head hrest)]
    · rfl
    · simp [hcons, Scan.isDigit_of_isWordStart hc]
    · simpa [hcons] using hdot

theorem cuts_call {name : String} {args : List Expr} (distinct : Bool) (hname : PlainName name)
    (hargs : ∀ arg ∈ args, Cuts d arg) : Cuts d (.call ⟨name, args, distinct⟩) := by
  intro rest hrest
  have hdistinct (t : List Char) : Lexer.pieces d ((wordIf distinct "DISTINCT ").toList ++ t) =
      (if distinct then [.of (.keyword .DISTINCT)] else []) ++ Lexer.pieces d t := by
    cases distinct with
    | false => rfl
    | true => exact pieces_keyword_blank .DISTINCT (by decide) t
  show Lexer.pieces d ((name ++ "(" ++ wordIf distinct "DISTINCT " ++
    commaSeparated (summaries args) ++ ")").toList ++ rest) = _
  simp only [String.toList_append, List.append_assoc]
  rw [hname.pieces d (by simp [Text.endsWord]), pieces_opening, hdistinct,
    pieces_commaSeparated hargs (by simp [Text.isSeam]), pieces_closing]
  simp [Expr.pieces, Call.pieces, listPieces]

theorem cuts_choice {input otherwise : Option Expr} {branches : List Branch}
    (hinput : ∀ e ∈ input, Cuts d e) (hconditions : ∀ b ∈ branches, Cuts d b.condition)
    (hresults : ∀ b ∈ branches, Cuts d b.result) (hotherwise : ∀ e ∈ otherwise, Cuts d e) :
    Cuts d (.choice input branches otherwise) := by
  intro rest hrest
  have hcase {t : List Char} (ht : ∀ c ∈ t.head?, Text.isSeam c) :
      Lexer.pieces d ("CASE".toList ++ t) = .of (.keyword .CASE) :: Lexer.pieces d t :=
    pieces_keyword .CASE (by decide) (endsWord_head ht)
  have helse (t : List Char) : Lexer.pieces d (" ELSE ".toList ++ t) =
      [.of (.keyword .ELSE)] ++ Lexer.pieces d t :=
    (pieces_blank d _).trans (pieces_keyword_blank .ELSE (by decide) t)
  have hend : Lexer.pieces d (" END".toList ++ rest) =
      .of (.keyword .END) :: Lexer.pieces d rest :=
    (pieces_blank d _).trans (pieces_keyword .END (by decide) (endsWord_head hrest))
  show Lexer.pieces d (("CASE" ++ clause " " "" input ++ Branch.summaries branches ++
    clause " ELSE " "" otherwise ++ " END").toList ++ rest) = _
  simp only [String.toList_append, List.append_assoc]
  -- what stands behind each part starts with a blank
  have hlast : ∀ c ∈ (" END".toList ++ rest).head?, Text.isSeam c := by simp [Text.isSeam]
  have hbehind : ∀ c ∈ ((clause " ELSE " "" otherwise).toList ++ (" END".toList ++ rest)).head?,
      Text.isSeam c := isSeam_clause otherwise rfl hlast
  have hall := isSeam_branches branches hbehind
  have hnone (t : List Char) : Lexer.pieces d (" ".toList ++ t) = [] ++ Lexer.pieces d t :=
    pieces_space d t
  rw [hcase (isSeam_clause input rfl hall), pieces_clause hinput hnone hall,
    pieces_branches hconditions hresults hbehind, pieces_clause hotherwise helse hlast, hend]
  simp [Expr.pieces]

theorem cuts_sign {op : UnaryOperator} (hop : op ≠ .not) (h : Canonical .atom e) (he : Cuts d e) :
    Cuts d (.unary op e) := by
  intro rest hrest
  cases op with
  | not => exact absurd rfl hop
  | plus =>
    show Lexer.pieces d (("+" ++ e.summary).toList ++ rest) = _
    rw [String.toList_append, List.append_assoc]
    show Lexer.pieces d ('+' :: (e.summary.toList ++ rest)) = _
    rw [pieces_plus, he rest hrest]
    rfl
  | minus =>
    show Lexer.pieces d (("-" ++ e.summary).toList ++ rest) = _
    rw [String.toList_append, List.append_assoc]
    show Lexer.pieces d ('-' :: (e.summary.toList ++ rest)) = _
    rw [pieces_minus d (h.head_ne_minus rest), he rest hrest]
    rfl

theorem cuts_binary (op : BinaryOperator) {left right : Expr} (hleft : Cuts d left)
    (hright : Cuts d right) : Cuts d (.binary ⟨left, op, right⟩) := by
  intro rest hrest
  have hoperator (t : List Char) : Lexer.pieces d (op.text.toList ++ (" ".toList ++ t)) =
      op.kinds.map Piece.of ++ Lexer.pieces d t := pieces_operator d op t
  show Lexer.pieces d ((left.summary ++ " " ++ op.text ++ " " ++
    (if right.isBinary then "(" ++ right.summary ++ ")" else right.summary)).toList ++ rest) = _
  simp only [String.toList_append, List.append_assoc]
  rw [hleft _ (by simp [Text.isSeam]), pieces_space, hoperator]
  cases hb : right.isBinary with
  | false =>
    rw [if_neg Bool.false_ne_true, hright rest hrest]
    simp [Expr.pieces, Binary.pieces, hb]
  | true =>
    rw [if_pos rfl]
    simp only [String.toList_append, List.append_assoc]
    rw [pieces_opening, hright _ (by simp [Text.isSeam]), pieces_closing]
    simp [Expr.pieces, Binary.pieces, hb]

theorem cuts_among (negated : Bool) {values : List Expr} (he : Cuts d e)
    (hvalues : ∀ value ∈ values, Cuts d value) : Cuts d (.among e negated (.list values)) := by
  intro rest hrest
  have hin (t : List Char) :
      Lexer.pieces d ("IN ".toList ++ t) = .of (.keyword .IN) :: Lexer.pieces d t :=
    pieces_keyword_blank .IN (by decide) t
  show Lexer.pieces d ((e.summary ++ " " ++ wordIf negated "NOT " ++ "IN " ++
    ("(" ++ commaSeparated (summaries values) ++ ")")).toList ++ rest) = _
  simp only [String.toList_append, List.append_assoc]
  rw [he _ (by simp [Text.isSeam]), pieces_space, pieces_negation, hin, pieces_opening,
    pieces_commaSeparated hvalues (by simp [Text.isSeam]), pieces_closing]
  simp [Expr.pieces, Candidates.pieces, listPieces]

theorem cuts_between (negated : Bool) {low high : Expr} (he : Cuts d e) (hlow : Cuts d low)
    (hhigh : Cuts d high) : Cuts d (.between e negated low high) := by
  intro rest hrest
  have hbetween (t : List Char) :
      Lexer.pieces d ("BETWEEN ".toList ++ t) = .of (.keyword .BETWEEN) :: Lexer.pieces d t :=
    pieces_keyword_blank .BETWEEN (by decide) t
  have hand (t : List Char) :
      Lexer.pieces d (" AND ".toList ++ t) = .of (.keyword .AND) :: Lexer.pieces d t :=
    (pieces_blank d _).trans (pieces_keyword_blank .AND (by decide) t)
  show Lexer.pieces d ((e.summary ++ " " ++ wordIf negated "NOT " ++ "BETWEEN " ++ low.summary ++
    " AND " ++ high.summary).toList ++ rest) = _
  simp only [String.toList_append, List.append_assoc]
  rw [he _ (by simp [Text.isSeam]), pieces_space, pieces_negation, hbetween,
    hlow _ (by simp [Text.isSeam]), hand, hhigh rest hrest]
  simp [Expr.pieces]

theorem cuts_not (he : Cuts d e) : Cuts d (.unary .not e) := by
  intro rest hrest
  have hnot (t : List Char) :
      Lexer.pieces d ("NOT ".toList ++ t) = .of (.keyword .NOT) :: Lexer.pieces d t :=
    pieces_keyword_blank .NOT (by decide) t
  show Lexer.pieces d (("NOT " ++ e.summary).toList ++ rest) = _
  rw [String.toList_append, List.append_assoc, hnot, he rest hrest]
  rfl

/-- Every canonical expression is cut into its pieces. -/
theorem Canonical.pieces_summary (d : Dialect) (h : Canonical r e) : Cuts d e := by
  induction h with
  | null => exact fun rest hrest => pieces_keyword .NULL (by decide) (endsWord_head hrest)
  | boolean value => exact cuts_boolean value
  | @integer n _ => exact cuts_integer n
  | string value => exact fun rest hrest => pieces_quoted value hrest
  | column htable hcolumn => exact cuts_column htable hcolumn
  | call hname _ _ ih => exact cuts_call _ hname ih
  | choice _ _ _ _ _ ihinput ihconditions ihresults ihotherwise =>
    exact cuts_choice ihinput ihconditions ihresults ihotherwise
  | unsigned h ih => exact ih
  | sign hop h ih => exact cuts_sign hop h ih
  | plainLeft h ih => exact ih
  | binary _ _ ihleft ihright => exact cuts_binary _ ihleft ihright
  | among _ _ _ ih ihvalues => exact cuts_among _ ih ihvalues
  | between _ _ _ ih ihlow ihhigh => exact cuts_between _ ih ihlow ihhigh
  | plainRight h ih => exact ih
  | grouped h ih => exact ih
  | positive h ih => exact ih
  | negation h ih => exact cuts_not ih

end Expr

end SqlFrontend
