import SqlFrontend.Tree.Query

/-!
# Headers of routines

What a procedure or a function declares besides its body: parameters and characteristics.

Section 3, *AST: Statements*, of the polysql specification: *Routine body*.
-/

namespace SqlFrontend

/-- The direction of a parameter. -/
inductive ParameterMode where
  | input | output | inputOutput
  deriving DecidableEq, Repr

/-- The direction as it is written. -/
def ParameterMode.text : ParameterMode → String
  | .input => "IN"
  | .output => "OUT"
  | .inputOutput => "INOUT"

/-- A parameter of a routine. -/
structure Parameter where
  mode : Option ParameterMode
  variadic : Bool
  name : Option String
  type : DataType
  initial : Option Expr

/-- Whose rights a routine runs with. -/
inductive SecurityMode where
  | definer | invoker
  deriving DecidableEq, Repr

/-- What a routine does with data. -/
inductive DataAccess where
  | containsSql | noSql | readsSqlData | modifiesSqlData
  deriving DecidableEq, Repr

/-- The data access as it is written. -/
def DataAccess.text : DataAccess → String
  | .containsSql => "CONTAINS SQL"
  | .noSql => "NO SQL"
  | .readsSqlData => "READS SQL DATA"
  | .modifiesSqlData => "MODIFIES SQL DATA"

/-- What the result of a function depends on. -/
inductive Volatility where
  | immutable | stable | volatile
  deriving DecidableEq, Repr

/-- The volatility as it is written. -/
def Volatility.text : Volatility → String
  | .immutable => "IMMUTABLE"
  | .stable => "STABLE"
  | .volatile => "VOLATILE"

/-- The characteristics of a routine. -/
structure RoutineOptions where
  /-- The language of the body, in capitals. -/
  language : Option String := none
  security : Option SecurityMode := none
  deterministic : Option Bool := none
  dataAccess : Option DataAccess := none
  comment : Option String := none
  volatility : Option Volatility := none
  deriving DecidableEq, Repr

/-- Decides whether the body of a routine is written in the procedural language of PostgreSQL. -/
def RoutineOptions.isPlpgsql (options : RoutineOptions) : Bool :=
  options.language == some "PLPGSQL"

end SqlFrontend
