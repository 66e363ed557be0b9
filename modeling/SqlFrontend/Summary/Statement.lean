import SqlFrontend.Summary.Definition
import SqlFrontend.Tree.Statement

/-!
# Summaries of statements

One line for every statement. Statements that stand inside of others are each ended by a semicolon.

* `Statement.summary`, `Block.summary`, `Declaration.summary`, `ExceptionHandler.summary`.

Section 6, *AST surface*, of the polysql specification.
-/

namespace SqlFrontend

/-! ## Parts without statements -/

/-- The label before a statement, if there is one. -/
def labelSummary (label : Option String) : String := (label.map (· ++ ": ")).getD ""

/-- A name behind a blank, if there is one. -/
def nameSummary (name : Option String) : String := (name.map (" " ++ ·)).getD ""

/-- The declaration of variables as one line. -/
def VariableDeclaration.summary (v : VariableDeclaration) : String :=
  "DECLARE " ++ commaSeparated v.names ++ wordIf v.constant " CONSTANT" ++ " " ++ v.type.summary ++
    wordIf v.notNull " NOT NULL" ++ Expr.clause " DEFAULT " "" v.initial

/-- The declaration of a cursor as one line. -/
def CursorDeclaration.summary (c : CursorDeclaration) : String :=
  "DECLARE " ++ c.name ++ " CURSOR" ++ String.join (c.options.map (" " ++ ·)) ++ " FOR " ++
    c.query.summary

/-- The condition as it is written. -/
def HandlerCondition.summary : HandlerCondition → String
  | .sqlException => "SQLEXCEPTION"
  | .sqlWarning => "SQLWARNING"
  | .notFound => "NOT FOUND"
  | .sqlState code => s!"SQLSTATE '{code}'"
  | .errorCode code => toString code
  | .named name => name

/-- The range as it is written. -/
def ForRange.summary : ForRange → String
  | .numeric start stop step =>
    start.summary ++ " .. " ++ stop.summary ++ Expr.clause " BY " "" step
  | .query q => q.summary

/-- The direction as it is written. -/
def FetchDirection.summary : FetchDirection → String
  | .next => "NEXT"
  | .prior => "PRIOR"
  | .first => "FIRST"
  | .last => "LAST"
  | .absolute row => "ABSOLUTE " ++ row.summary
  | .relative count => "RELATIVE " ++ count.summary

/-- The reading of a row as one line. -/
def Fetch.summary (f : Fetch) : String :=
  "FETCH " ++ (f.direction.map fun direction => direction.summary ++ " FROM ").getD "" ++ f.cursor ++
    listed " INTO " f.into

/-- The raised message as one line. -/
def Raise.summary (r : Raise) : String :=
  let arguments := String.join ((Expr.summaries r.arguments).map (", " ++ ·))
  if r.isCall then "RAISERROR(" ++ Expr.clause "" "" r.message ++ arguments ++ ")"
  else
    "RAISE" ++ (r.level.map fun level => " " ++ level.text).getD "" ++ nameSummary r.condition ++
      Expr.clause " " "" r.message ++ arguments ++
      listed " USING " (Assignment.summaries r.options)

/-- The thrown error as one line. -/
def Throw.summary (t : Throw) : String :=
  t.errorNumber.summary ++ ", " ++ t.message.summary ++ ", " ++ t.state.summary

/-- The signalled condition as one line. -/
def Signal.summary (s : Signal) : String :=
  (if s.again then "RESIGNAL" else "SIGNAL") ++
    (s.sqlState.map fun code => " SQLSTATE '" ++ code ++ "'").getD "" ++ nameSummary s.condition ++
    listed " SET " (Assignment.summaries s.properties)

/-- The begin of a transaction as one line. -/
def BeginTransaction.summary (b : BeginTransaction) : String :=
  (if b.start then "START TRANSACTION" else "BEGIN TRANSACTION") ++ nameSummary b.name ++
    listed " " b.modes

/-- The undoing of a transaction as one line. -/
def Rollback.summary (r : Rollback) : String :=
  "ROLLBACK" ++ wordIf r.work " WORK" ++ nameSummary r.name ++
    (r.savepoint.map (" TO SAVEPOINT " ++ ·)).getD ""

/-- The request to explain, without the statement. -/
def ExplainOptions.summary (o : ExplainOptions) : String :=
  "EXPLAIN" ++ wordIf o.queryPlan " QUERY PLAN" ++ wordIf o.analyze " ANALYZE" ++
    wordIf o.verbose " VERBOSE" ++ wordIf o.extended " EXTENDED" ++
    (o.format.map (" FORMAT " ++ ·)).getD ""

/-! ## Statements -/

mutual

/-- The statement as one line. -/
def Statement.summary : Statement → String
  | .query q => q.summary
  | .insert node => node.summary
  | .update node => node.summary
  | .delete node => node.summary
  | .createTable node => node.summary
  | .createIndex node => node.summary
  | .createView node => node.summary
  | .createProcedure ⟨_, name, parameters, options, body⟩ =>
    "CREATE PROCEDURE " ++ name.summary ++ "(" ++
      commaSeparated (parameters.map Parameter.summary) ++ ")" ++ options.summary ++ " " ++
      body.summary
  | .createFunction ⟨_, name, parameters, options, body⟩ returns =>
    "CREATE FUNCTION " ++ name.summary ++ "(" ++
      commaSeparated (parameters.map Parameter.summary) ++ ") RETURNS " ++ returns.summary ++
      options.summary ++ " " ++ body.summary
  | .createTrigger node => node.summary
  | .drop node => node.summary
  | .alterTable name action => "ALTER TABLE " ++ name.summary ++ " " ++ action.summary
  | .declare declaration => declaration.summary
  | .block node => node.summary
  | .conditional condition body elseIfs otherwise =>
    "IF " ++ condition.summary ++ " THEN" ++ Statement.sequence body ++
      Alternative.summaries " ELSEIF " elseIfs ++ Statement.alternative otherwise ++ " END IF"
  | .whileLoop label condition body =>
    labelSummary label ++ "WHILE " ++ condition.summary ++ " DO" ++ Statement.sequence body ++
      " END WHILE"
  | .loop label body => labelSummary label ++ "LOOP" ++ Statement.sequence body ++ " END LOOP"
  | .forLoop label counter reverse range body =>
    labelSummary label ++ "FOR " ++ counter ++ " IN " ++ wordIf reverse "REVERSE " ++
      range.summary ++ " LOOP" ++ Statement.sequence body ++ " END LOOP"
  | .repeatLoop label body condition =>
    labelSummary label ++ "REPEAT" ++ Statement.sequence body ++ " UNTIL " ++ condition.summary ++
      " END REPEAT"
  | .choice input branches otherwise =>
    "CASE" ++ Expr.clause " " "" input ++ Alternative.summaries " WHEN " branches ++
      Statement.alternative otherwise ++ " END CASE"
  | .returnValue value => "RETURN" ++ Expr.clause " " "" value
  | .assign assignments => "SET " ++ commaSeparated (Assignment.summaries assignments)
  | .setOption name value => "SET " ++ name ++ " " ++ value
  | .openCursor cursor query =>
    "OPEN " ++ cursor ++ (query.map fun q => " FOR " ++ q.summary).getD ""
  | .fetch node => node.summary
  | .closeCursor cursor => "CLOSE " ++ cursor
  | .deallocate cursor => "DEALLOCATE " ++ cursor
  | .leave label condition => "EXIT" ++ nameSummary label ++ Expr.clause " WHEN " "" condition
  | .iterate label condition =>
    "CONTINUE" ++ nameSummary label ++ Expr.clause " WHEN " "" condition
  | .tryCatch body handler =>
    "BEGIN TRY" ++ Statement.sequence body ++ " END TRY BEGIN CATCH" ++
      Statement.sequence handler ++ " END CATCH"
  | .raise node => node.summary
  | .throwing error => "THROW" ++ (error.map fun t => " " ++ t.summary).getD ""
  | .signal node => node.summary
  | .call name args =>
    "CALL " ++ name.summary ++ "(" ++ commaSeparated (Expr.summaries args) ++ ")"
  | .beginTransaction node => node.summary
  | .commit work name => "COMMIT" ++ wordIf work " WORK" ++ nameSummary name
  | .rollback node => node.summary
  | .savepoint name => "SAVEPOINT " ++ name
  | .releaseSavepoint name => "RELEASE SAVEPOINT " ++ name
  | .explain options statement => options.summary ++ " " ++ statement.summary

/-- The statements one after the other, each behind a blank and before a semicolon. -/
def Statement.sequence : List Statement → String
  | [] => ""
  | statement :: rest => " " ++ statement.summary ++ ";" ++ Statement.sequence rest

/-- The statements that are run if no condition holds. -/
def Statement.alternative : Option (List Statement) → String
  | none => ""
  | some body => " ELSE" ++ Statement.sequence body

/-- The statements under conditions, each behind `word`. -/
def Alternative.summaries (word : String) : List Alternative → String
  | [] => ""
  | ⟨condition, body⟩ :: rest =>
    word ++ condition.summary ++ " THEN" ++ Statement.sequence body ++
      Alternative.summaries word rest

/-- The block as one line. -/
def Block.summary : Block → String
  | ⟨label, declarations, body, handlers, endLabel⟩ =>
    labelSummary label ++ "BEGIN" ++ Declaration.sequence declarations ++ Statement.sequence body ++
      ExceptionHandler.sectionSummary handlers ++ " END" ++ nameSummary endLabel

/-- The exception section, if there is one. -/
def ExceptionHandler.sectionSummary : Option (List ExceptionHandler) → String
  | none => ""
  | some handlers => " EXCEPTION" ++ ExceptionHandler.sequence handlers

/-- The handlers one after the other, each behind a blank. -/
def ExceptionHandler.sequence : List ExceptionHandler → String
  | [] => ""
  | handler :: rest => " " ++ handler.summary ++ ExceptionHandler.sequence rest

/-- The handler as one line. -/
def ExceptionHandler.summary : ExceptionHandler → String
  | ⟨conditions, body⟩ =>
    "WHEN " ++ Text.separated " OR " conditions ++ " THEN" ++ Statement.sequence body

/-- The declaration as one line. -/
def Declaration.summary : Declaration → String
  | .scalars node => node.summary
  | .cursor node => node.summary
  | .handler action conditions body =>
    "DECLARE " ++ action.text ++ " HANDLER FOR " ++
      commaSeparated (conditions.map HandlerCondition.summary) ++ " " ++ body.summary

/-- The declarations one after the other, each behind a blank and before a semicolon. -/
def Declaration.sequence : List Declaration → String
  | [] => ""
  | declaration :: rest => " " ++ declaration.summary ++ ";" ++ Declaration.sequence rest

/-- What a trigger does, behind a blank. -/
def TriggerBody.summary : TriggerBody → String
  | .block node => " " ++ node.summary
  | .statement s => " " ++ s.summary
  | .call name args =>
    " EXECUTE FUNCTION " ++ name ++ "(" ++ commaSeparated (Expr.summaries args) ++ ")"

/-- The definition of a trigger as one line. -/
def Trigger.summary : Trigger → String
  | ⟨_, name, timing, events, table, forEachRow, condition, body⟩ =>
    "CREATE TRIGGER " ++ name.summary ++ " " ++ timing.text ++ " " ++
      Text.separated " OR " (events.map TriggerEvent.summary) ++ " ON " ++ table.summary ++
      wordIf forEachRow " FOR EACH ROW" ++ Expr.clause " WHEN (" ")" condition ++ body.summary

end

end SqlFrontend
