import SqlFrontend.Text.Word

/-!
# Keywords

The words with a meaning of their own in at least one dialect. A word is looked up without regard to
the case of its ASCII letters; each keyword has one canonical spelling, in capitals. The reserved
ones never serve as a bare name, the others do wherever a name is expected.

* `Keyword.ofString?`: the keyword that a word spells.
* `Keyword.mem_all` and `Keyword.ofString?_spelling`: the table `all` is complete, and looking up a
  canonical spelling gives the keyword back.
* `Keyword.capitals_spelling`: spellings are made of capitals and underscores.

Section 3, *Tokens*, of the polysql specification.
-/

namespace SqlFrontend

/-- A word of the language, named by its canonical spelling. -/
inductive Keyword where
  -- Queries
  | SELECT | FROM | WHERE | ORDER | BY | GROUP | HAVING | LIMIT | OFFSET | DISTINCT | ALL | AS
  | TOP | PERCENT | TIES | FETCH | FIRST | NEXT | ROWS | ROW | ONLY | ASC | DESC | NULLS | LAST
  | INTO
  -- Joins
  | JOIN | INNER | LEFT | RIGHT | FULL | OUTER | CROSS | ON | USING
  -- Set operations
  | UNION | INTERSECT | EXCEPT
  -- Data manipulation
  | INSERT | VALUES | UPDATE | SET | DELETE | DEFAULT | WITH | RECURSIVE
  -- Data definition
  | CREATE | DROP | ALTER | TABLE | INDEX | VIEW | MATERIALIZED | DATABASE | SCHEMA | TRIGGER
  | PROCEDURE | FUNCTION | REPLACE | TEMPORARY | TEMP | IF | EXISTS | CASCADE | RESTRICT | ADD
  | COLUMN | MODIFY | CHANGE | RENAME | TO | TYPE | CLUSTERED | NONCLUSTERED | INCLUDE
  -- Constraints
  | PRIMARY | KEY | FOREIGN | REFERENCES | UNIQUE | CHECK | CONSTRAINT | COLLATE | AUTO_INCREMENT
  | AUTOINCREMENT | IDENTITY | GENERATED | ALWAYS | ACTION | NO | OPTION | CASCADED | LOCAL
  -- Triggers
  | BEFORE | AFTER | INSTEAD | OF | FOR | EACH | STATEMENT
  -- Routines
  | IN | OUT | INOUT | VARIADIC | RETURNS | RETURN | LANGUAGE | SECURITY | DEFINER | INVOKER
  | DETERMINISTIC | CONTAINS | SQL | READS | MODIFIES | DATA | COMMENT | IMMUTABLE | STABLE
  | VOLATILE | BEGIN | END | DECLARE | CURSOR | HANDLER | CONTINUE | EXIT | UNDO | SQLEXCEPTION
  | SQLWARNING | FOUND | SQLSTATE | CONSTANT
  -- Control flow
  | ELSE | ELSEIF | ELSIF | ENDIF | THEN | WHILE | DO | LOOP | REPEAT | UNTIL | REVERSE | CASE
  | WHEN | LEAVE | ITERATE | BREAK | OPEN | CLOSE | DEALLOCATE | PRIOR | ABSOLUTE | RELATIVE
  | CALL | EXEC | EXECUTE
  -- Error handling
  | TRY | CATCH | RAISE | RAISERROR | THROW | SIGNAL | RESIGNAL | EXCEPTION | OTHERS
  -- Transactions
  | TRANSACTION | TRAN | WORK | COMMIT | ROLLBACK | SAVEPOINT | SAVE | RELEASE | START | DEFERRED
  | IMMEDIATE | EXCLUSIVE
  -- Explain
  | EXPLAIN | ANALYZE | EXTENDED | FORMAT | QUERY | PLAN | VERBOSE
  -- Windows
  | OVER | PARTITION | RANGE | UNBOUNDED | PRECEDING | FOLLOWING | CURRENT
  -- Operators and literals
  | AND | OR | NOT | IS | LIKE | BETWEEN | NULL | TRUE | FALSE | CAST
  deriving DecidableEq, Repr

namespace Keyword

/-- Every keyword once, grouped by the part of the language that it belongs to. -/
def all : List Keyword :=
  [.SELECT, .FROM, .WHERE, .ORDER, .BY, .GROUP, .HAVING, .LIMIT, .OFFSET, .DISTINCT, .ALL, .AS,
   .TOP, .PERCENT, .TIES, .FETCH, .FIRST, .NEXT, .ROWS, .ROW, .ONLY, .ASC, .DESC, .NULLS, .LAST,
   .INTO,
   .JOIN, .INNER, .LEFT, .RIGHT, .FULL, .OUTER, .CROSS, .ON, .USING,
   .UNION, .INTERSECT, .EXCEPT,
   .INSERT, .VALUES, .UPDATE, .SET, .DELETE, .DEFAULT, .WITH, .RECURSIVE,
   .CREATE, .DROP, .ALTER, .TABLE, .INDEX, .VIEW, .MATERIALIZED, .DATABASE, .SCHEMA, .TRIGGER,
   .PROCEDURE, .FUNCTION, .REPLACE, .TEMPORARY, .TEMP, .IF, .EXISTS, .CASCADE, .RESTRICT, .ADD,
   .COLUMN, .MODIFY, .CHANGE, .RENAME, .TO, .TYPE, .CLUSTERED, .NONCLUSTERED, .INCLUDE,
   .PRIMARY, .KEY, .FOREIGN, .REFERENCES, .UNIQUE, .CHECK, .CONSTRAINT, .COLLATE,
   .AUTO_INCREMENT, .AUTOINCREMENT, .IDENTITY, .GENERATED, .ALWAYS, .ACTION, .NO, .OPTION,
   .CASCADED, .LOCAL,
   .BEFORE, .AFTER, .INSTEAD, .OF, .FOR, .EACH, .STATEMENT,
   .IN, .OUT, .INOUT, .VARIADIC, .RETURNS, .RETURN, .LANGUAGE, .SECURITY, .DEFINER, .INVOKER,
   .DETERMINISTIC, .CONTAINS, .SQL, .READS, .MODIFIES, .DATA, .COMMENT, .IMMUTABLE, .STABLE,
   .VOLATILE, .BEGIN, .END, .DECLARE, .CURSOR, .HANDLER, .CONTINUE, .EXIT, .UNDO, .SQLEXCEPTION,
   .SQLWARNING, .FOUND, .SQLSTATE, .CONSTANT,
   .ELSE, .ELSEIF, .ELSIF, .ENDIF, .THEN, .WHILE, .DO, .LOOP, .REPEAT, .UNTIL, .REVERSE, .CASE,
   .WHEN, .LEAVE, .ITERATE, .BREAK, .OPEN, .CLOSE, .DEALLOCATE, .PRIOR, .ABSOLUTE, .RELATIVE,
   .CALL, .EXEC, .EXECUTE,
   .TRY, .CATCH, .RAISE, .RAISERROR, .THROW, .SIGNAL, .RESIGNAL, .EXCEPTION, .OTHERS,
   .TRANSACTION, .TRAN, .WORK, .COMMIT, .ROLLBACK, .SAVEPOINT, .SAVE, .RELEASE, .START,
   .DEFERRED, .IMMEDIATE, .EXCLUSIVE,
   .EXPLAIN, .ANALYZE, .EXTENDED, .FORMAT, .QUERY, .PLAN, .VERBOSE,
   .OVER, .PARTITION, .RANGE, .UNBOUNDED, .PRECEDING, .FOLLOWING, .CURRENT,
   .AND, .OR, .NOT, .IS, .LIKE, .BETWEEN, .NULL, .TRUE, .FALSE, .CAST]

/-- The canonical spelling of a keyword. -/
def spelling : Keyword → String
  | .SELECT => "SELECT"
  | .FROM => "FROM"
  | .WHERE => "WHERE"
  | .ORDER => "ORDER"
  | .BY => "BY"
  | .GROUP => "GROUP"
  | .HAVING => "HAVING"
  | .LIMIT => "LIMIT"
  | .OFFSET => "OFFSET"
  | .DISTINCT => "DISTINCT"
  | .ALL => "ALL"
  | .AS => "AS"
  | .TOP => "TOP"
  | .PERCENT => "PERCENT"
  | .TIES => "TIES"
  | .FETCH => "FETCH"
  | .FIRST => "FIRST"
  | .NEXT => "NEXT"
  | .ROWS => "ROWS"
  | .ROW => "ROW"
  | .ONLY => "ONLY"
  | .ASC => "ASC"
  | .DESC => "DESC"
  | .NULLS => "NULLS"
  | .LAST => "LAST"
  | .INTO => "INTO"
  | .JOIN => "JOIN"
  | .INNER => "INNER"
  | .LEFT => "LEFT"
  | .RIGHT => "RIGHT"
  | .FULL => "FULL"
  | .OUTER => "OUTER"
  | .CROSS => "CROSS"
  | .ON => "ON"
  | .USING => "USING"
  | .UNION => "UNION"
  | .INTERSECT => "INTERSECT"
  | .EXCEPT => "EXCEPT"
  | .INSERT => "INSERT"
  | .VALUES => "VALUES"
  | .UPDATE => "UPDATE"
  | .SET => "SET"
  | .DELETE => "DELETE"
  | .DEFAULT => "DEFAULT"
  | .WITH => "WITH"
  | .RECURSIVE => "RECURSIVE"
  | .CREATE => "CREATE"
  | .DROP => "DROP"
  | .ALTER => "ALTER"
  | .TABLE => "TABLE"
  | .INDEX => "INDEX"
  | .VIEW => "VIEW"
  | .MATERIALIZED => "MATERIALIZED"
  | .DATABASE => "DATABASE"
  | .SCHEMA => "SCHEMA"
  | .TRIGGER => "TRIGGER"
  | .PROCEDURE => "PROCEDURE"
  | .FUNCTION => "FUNCTION"
  | .REPLACE => "REPLACE"
  | .TEMPORARY => "TEMPORARY"
  | .TEMP => "TEMP"
  | .IF => "IF"
  | .EXISTS => "EXISTS"
  | .CASCADE => "CASCADE"
  | .RESTRICT => "RESTRICT"
  | .ADD => "ADD"
  | .COLUMN => "COLUMN"
  | .MODIFY => "MODIFY"
  | .CHANGE => "CHANGE"
  | .RENAME => "RENAME"
  | .TO => "TO"
  | .TYPE => "TYPE"
  | .CLUSTERED => "CLUSTERED"
  | .NONCLUSTERED => "NONCLUSTERED"
  | .INCLUDE => "INCLUDE"
  | .PRIMARY => "PRIMARY"
  | .KEY => "KEY"
  | .FOREIGN => "FOREIGN"
  | .REFERENCES => "REFERENCES"
  | .UNIQUE => "UNIQUE"
  | .CHECK => "CHECK"
  | .CONSTRAINT => "CONSTRAINT"
  | .COLLATE => "COLLATE"
  | .AUTO_INCREMENT => "AUTO_INCREMENT"
  | .AUTOINCREMENT => "AUTOINCREMENT"
  | .IDENTITY => "IDENTITY"
  | .GENERATED => "GENERATED"
  | .ALWAYS => "ALWAYS"
  | .ACTION => "ACTION"
  | .NO => "NO"
  | .OPTION => "OPTION"
  | .CASCADED => "CASCADED"
  | .LOCAL => "LOCAL"
  | .BEFORE => "BEFORE"
  | .AFTER => "AFTER"
  | .INSTEAD => "INSTEAD"
  | .OF => "OF"
  | .FOR => "FOR"
  | .EACH => "EACH"
  | .STATEMENT => "STATEMENT"
  | .IN => "IN"
  | .OUT => "OUT"
  | .INOUT => "INOUT"
  | .VARIADIC => "VARIADIC"
  | .RETURNS => "RETURNS"
  | .RETURN => "RETURN"
  | .LANGUAGE => "LANGUAGE"
  | .SECURITY => "SECURITY"
  | .DEFINER => "DEFINER"
  | .INVOKER => "INVOKER"
  | .DETERMINISTIC => "DETERMINISTIC"
  | .CONTAINS => "CONTAINS"
  | .SQL => "SQL"
  | .READS => "READS"
  | .MODIFIES => "MODIFIES"
  | .DATA => "DATA"
  | .COMMENT => "COMMENT"
  | .IMMUTABLE => "IMMUTABLE"
  | .STABLE => "STABLE"
  | .VOLATILE => "VOLATILE"
  | .BEGIN => "BEGIN"
  | .END => "END"
  | .DECLARE => "DECLARE"
  | .CURSOR => "CURSOR"
  | .HANDLER => "HANDLER"
  | .CONTINUE => "CONTINUE"
  | .EXIT => "EXIT"
  | .UNDO => "UNDO"
  | .SQLEXCEPTION => "SQLEXCEPTION"
  | .SQLWARNING => "SQLWARNING"
  | .FOUND => "FOUND"
  | .SQLSTATE => "SQLSTATE"
  | .CONSTANT => "CONSTANT"
  | .ELSE => "ELSE"
  | .ELSEIF => "ELSEIF"
  | .ELSIF => "ELSIF"
  | .ENDIF => "ENDIF"
  | .THEN => "THEN"
  | .WHILE => "WHILE"
  | .DO => "DO"
  | .LOOP => "LOOP"
  | .REPEAT => "REPEAT"
  | .UNTIL => "UNTIL"
  | .REVERSE => "REVERSE"
  | .CASE => "CASE"
  | .WHEN => "WHEN"
  | .LEAVE => "LEAVE"
  | .ITERATE => "ITERATE"
  | .BREAK => "BREAK"
  | .OPEN => "OPEN"
  | .CLOSE => "CLOSE"
  | .DEALLOCATE => "DEALLOCATE"
  | .PRIOR => "PRIOR"
  | .ABSOLUTE => "ABSOLUTE"
  | .RELATIVE => "RELATIVE"
  | .CALL => "CALL"
  | .EXEC => "EXEC"
  | .EXECUTE => "EXECUTE"
  | .TRY => "TRY"
  | .CATCH => "CATCH"
  | .RAISE => "RAISE"
  | .RAISERROR => "RAISERROR"
  | .THROW => "THROW"
  | .SIGNAL => "SIGNAL"
  | .RESIGNAL => "RESIGNAL"
  | .EXCEPTION => "EXCEPTION"
  | .OTHERS => "OTHERS"
  | .TRANSACTION => "TRANSACTION"
  | .TRAN => "TRAN"
  | .WORK => "WORK"
  | .COMMIT => "COMMIT"
  | .ROLLBACK => "ROLLBACK"
  | .SAVEPOINT => "SAVEPOINT"
  | .SAVE => "SAVE"
  | .RELEASE => "RELEASE"
  | .START => "START"
  | .DEFERRED => "DEFERRED"
  | .IMMEDIATE => "IMMEDIATE"
  | .EXCLUSIVE => "EXCLUSIVE"
  | .EXPLAIN => "EXPLAIN"
  | .ANALYZE => "ANALYZE"
  | .EXTENDED => "EXTENDED"
  | .FORMAT => "FORMAT"
  | .QUERY => "QUERY"
  | .PLAN => "PLAN"
  | .VERBOSE => "VERBOSE"
  | .OVER => "OVER"
  | .PARTITION => "PARTITION"
  | .RANGE => "RANGE"
  | .UNBOUNDED => "UNBOUNDED"
  | .PRECEDING => "PRECEDING"
  | .FOLLOWING => "FOLLOWING"
  | .CURRENT => "CURRENT"
  | .AND => "AND"
  | .OR => "OR"
  | .NOT => "NOT"
  | .IS => "IS"
  | .LIKE => "LIKE"
  | .BETWEEN => "BETWEEN"
  | .NULL => "NULL"
  | .TRUE => "TRUE"
  | .FALSE => "FALSE"
  | .CAST => "CAST"

/-- Decides whether a keyword can never stand for a bare name. -/
def isReserved : Keyword → Bool
  | .SELECT | .FROM | .WHERE | .ORDER | .BY | .GROUP | .HAVING | .LIMIT | .OFFSET | .DISTINCT
  | .ALL | .AS | .TOP | .FETCH | .INTO | .JOIN | .INNER | .LEFT | .RIGHT | .FULL | .OUTER
  | .CROSS | .ON | .USING | .UNION | .INTERSECT | .EXCEPT | .INSERT | .VALUES | .UPDATE | .SET
  | .DELETE | .DEFAULT | .WITH | .CREATE | .DROP | .ALTER | .TABLE | .INDEX | .VIEW | .IF
  | .EXISTS | .PRIMARY | .FOREIGN | .REFERENCES | .UNIQUE | .CHECK | .CONSTRAINT | .COLLATE
  | .FOR | .IN | .RETURN | .BEGIN | .END | .DECLARE | .CONTINUE | .EXIT | .ELSE | .ELSEIF
  | .ELSIF | .ENDIF | .THEN | .WHILE | .LOOP | .REPEAT | .UNTIL | .CASE | .WHEN | .LEAVE
  | .ITERATE | .BREAK | .OPEN | .CLOSE | .DEALLOCATE | .CALL | .EXEC | .EXECUTE | .TRY | .CATCH
  | .RAISE | .RAISERROR | .THROW | .SIGNAL | .RESIGNAL | .EXCEPTION | .COMMIT | .ROLLBACK
  | .SAVEPOINT | .SAVE | .RELEASE | .START | .EXPLAIN | .OVER | .AND | .OR | .NOT | .IS | .LIKE
  | .BETWEEN | .NULL | .TRUE | .FALSE | .CAST => true
  | _ => false

/-- The keyword that a word spells, in any case of its ASCII letters. -/
def ofString? (word : String) : Option Keyword :=
  let word := Text.upper word
  all.find? fun keyword => keyword.spelling == word

theorem getElem?_all (keyword : Keyword) : all[keyword.ctorIdx]? = some keyword := by
  cases keyword <;> rfl

theorem mem_all (keyword : Keyword) : keyword ∈ all :=
  List.mem_of_getElem? (getElem?_all keyword)

theorem all_capitals_spelling :
    (all.all fun keyword => !keyword.spelling.toList.isEmpty &&
      keyword.spelling.toList.all fun c => c.isUpper || c == '_') = true := by
  decide +kernel

/-- A keyword is spelt with capitals and underscores. -/
theorem capitals_spelling (keyword : Keyword) : keyword.spelling.toList ≠ [] ∧
    ∀ c ∈ keyword.spelling.toList, c.isUpper = true ∨ c = '_' := by
  have h := List.all_eq_true.1 all_capitals_spelling keyword (mem_all keyword)
  simpa using h

theorem toUpper_of_isUpper {c : Char} (h : c.isUpper) : c.toUpper = c := by
  refine dif_neg ?_
  rintro ⟨hsmall, -⟩
  have hrange : 65 ≤ c.val.toNat ∧ c.val.toNat ≤ 90 := of_decide_eq_true h
  have hle : 97 ≤ c.val.toNat := hsmall
  omega

theorem upper_spelling (keyword : Keyword) : Text.upper keyword.spelling = keyword.spelling := by
  have hchars : ∀ c ∈ keyword.spelling.toList, c.toUpper = c := by
    intro c hc
    rcases keyword.capitals_spelling.2 c hc with h | rfl
    · exact toUpper_of_isUpper h
    · rfl
  apply String.toList_injective
  rw [Text.upper, String.toList_map, List.map_congr_left hchars, List.map_id']

/-- The bytes of a word, as the digits of a number. -/
def number (word : String) : Nat :=
  word.toByteArray.data.toList.foldl (fun n byte => n * 256 + byte.toNat) 0

-- The kernel compares numbers much faster than strings.
theorem all_find?_number :
    (all.all fun keyword => all.find? (fun other =>
      Nat.beq (number other.spelling) (number keyword.spelling)) == some keyword) = true := by
  decide +kernel

theorem spelling_injective {keyword other : Keyword} (h : keyword.spelling = other.spelling) :
    keyword = other := by
  have hkeyword := List.all_eq_true.1 all_find?_number keyword (mem_all keyword)
  have hother := List.all_eq_true.1 all_find?_number other (mem_all other)
  rw [h] at hkeyword
  exact Option.some.inj ((eq_of_beq hkeyword).symm.trans (eq_of_beq hother))

theorem ofString?_spelling (keyword : Keyword) : ofString? keyword.spelling = some keyword := by
  have hsome : (all.find? fun other => other.spelling == keyword.spelling).isSome :=
    List.find?_isSome.2 ⟨keyword, mem_all keyword, beq_self_eq_true _⟩
  obtain ⟨other, hother⟩ := Option.isSome_iff_exists.1 hsome
  have hspelling : other.spelling = keyword.spelling := by simpa using List.find?_some hother
  rw [ofString?, upper_spelling, hother, spelling_injective hspelling]

end Keyword

end SqlFrontend
