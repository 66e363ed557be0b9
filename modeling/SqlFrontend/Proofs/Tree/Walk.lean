import SqlFrontend.Proofs.Tree.Free
import SqlFrontend.Tree.Walk

/-!
# Walks over trees that are read

A tree that is read has a free tree, and walks over the two come by the same nodes. So a walk over a tree
that is read is one of those that come by everything once.

* `Node.free`: the free tree of a node.
* `Expr.walk_free`, `Query.walk_free`, `Statement.walk_free`: the walk over the free tree of a node.
* `Statement.walk_places`: walks come by everything once, over trees of any shape and over those that are read.
-/

namespace SqlFrontend

/-- What a walk comes by, as it is listed by the walk over the free tree. -/
def Node.free : Node → Free.Node
  | .statement s => .statement s.free
  | .expr e => .expr e.free
  | .table t => .table t.free

namespace Free

/-! ## Sequences and parts that may be absent -/

variable {k : Kind}

theorem walk_cons (head : Tree k) (tail : Tree (.list k)) :
    walk (.cons head tail) = walk head ++ walk tail := rfl

theorem walk_some (value : Tree k) : walk (.some value) = walk value := rfl

theorem walk_sequence {α : Type} (make : α → Tree k) (values : List α) :
    walk (sequence (values.map make)) = values.flatMap fun value => walk (make value) := by
  induction values with
  | nil => rfl
  | cons value values ih => rw [List.map_cons, sequence, walk_cons, ih, List.flatMap_cons]

end Free

/-! ## Expressions and queries -/

mutual

theorem Expr.walk_free (e : Expr) : Free.walk e.free = e.walk.map Node.free := by
  cases e with
  | literal value => rfl
  | column ref => rfl
  | star table => rfl
  | binary node =>
    obtain ⟨left, op, right⟩ := node
    simp [Expr.free, Free.walk, Free.node?, Expr.walk, Binary.walk, Node.free, Expr.walk_free left,
      Expr.walk_free right]
  | unary op operand =>
    simp [Expr.free, Free.walk, Free.node?, Expr.walk, Node.free, Expr.walk_free operand]
  | call call => simp [Expr.free, Free.walk, Free.node?, Expr.walk, Node.free, Call.walk_free call]
  | window call spec =>
    simp [Expr.free, Free.walk, Free.node?, Expr.walk, Node.free, Call.walk_free call,
      Window.walk_free spec]
  | aliased expr asName =>
    simp [Expr.free, Free.walk, Free.node?, Expr.walk, Node.free, Expr.walk_free expr]
  | among expr negated values =>
    simp [Expr.free, Free.walk, Free.node?, Expr.walk, Node.free, Expr.walk_free expr,
      Candidates.walk_free values]
  | hasRows negated query =>
    simp [Expr.free, Free.walk, Free.node?, Expr.walk, Node.free, Query.walk_free query]
  | subquery query =>
    simp [Expr.free, Free.walk, Free.node?, Expr.walk, Node.free, Query.walk_free query]
  | choice input branches otherwise =>
    simp [Expr.free, Free.walk, Free.node?, Expr.walk, Node.free, Expr.walk_freeOption input,
      Branch.walk_freeAll branches, Expr.walk_freeOption otherwise]
  | between expr negated low high =>
    simp [Expr.free, Free.walk, Free.node?, Expr.walk, Node.free, Expr.walk_free expr,
      Expr.walk_free low, Expr.walk_free high]
  | cast expr type =>
    simp [Expr.free, Free.walk, Free.node?, Expr.walk, Node.free, Expr.walk_free expr]

theorem Expr.walk_freeAll (exprs : List Expr) :
    Free.walk (Expr.freeAll exprs) = (Expr.walkAll exprs).map Node.free := by
  cases exprs with
  | nil => rfl
  | cons expr rest =>
    rw [Expr.freeAll, Free.walk_cons, Expr.walkAll, List.map_append, Expr.walk_free expr,
      Expr.walk_freeAll rest]

theorem Expr.walk_freeOption (value : Option Expr) :
    Free.walk (Expr.freeOption value) = (Expr.walkOption value).map Node.free := by
  cases value with
  | none => rfl
  | some expr => rw [Expr.freeOption, Free.walk_some, Expr.walkOption, Expr.walk_free expr]

theorem Call.walk_free (call : Call) : Free.walk call.free = call.walk.map Node.free := by
  obtain ⟨name, args, distinct⟩ := call
  simp [Call.free, Free.walk, Free.node?, Call.walk, Expr.walk_freeAll args]

theorem Candidates.walk_free (values : Candidates) :
    Free.walk values.free = values.walk.map Node.free := by
  cases values with
  | list values => simp [Candidates.free, Free.walk, Free.node?, Candidates.walk, Expr.walk_freeAll values]
  | query q => simp [Candidates.free, Free.walk, Free.node?, Candidates.walk, Query.walk_free q]

theorem Branch.walk_freeAll (branches : List Branch) :
    Free.walk (Branch.freeAll branches) = (Branch.walkAll branches).map Node.free := by
  cases branches with
  | nil => rfl
  | cons branch rest =>
    obtain ⟨condition, result⟩ := branch
    simp [Branch.freeAll, Free.walk, Free.node?, Branch.walkAll, Expr.walk_free condition,
      Expr.walk_free result, Branch.walk_freeAll rest]

theorem SortItem.walk_freeAll (items : List SortItem) :
    Free.walk (SortItem.freeAll items) = (SortItem.walkAll items).map Node.free := by
  cases items with
  | nil => rfl
  | cons item rest =>
    obtain ⟨expr, direction, nulls⟩ := item
    simp [SortItem.freeAll, Free.walk, Free.node?, SortItem.walkAll, Expr.walk_free expr,
      SortItem.walk_freeAll rest]

theorem FrameBound.walk_free (bound : FrameBound) :
    Free.walk bound.free = bound.walk.map Node.free := by
  cases bound with
  | unbounded direction => rfl
  | currentRow => rfl
  | offset count direction =>
    simp [FrameBound.free, Free.walk, Free.node?, FrameBound.walk, Expr.walk_free count]

theorem WindowFrame.walk_freeOption (frame : Option WindowFrame) :
    Free.walk (WindowFrame.freeOption frame) = (WindowFrame.walkOption frame).map Node.free := by
  match frame with
  | none => rfl
  | some ⟨unit, start, none⟩ =>
    simp [WindowFrame.freeOption, Free.walk, Free.node?, WindowFrame.walkOption,
      FrameBound.walk_free start]
  | some ⟨unit, start, some stop⟩ =>
    simp [WindowFrame.freeOption, Free.walk, Free.node?, WindowFrame.walkOption,
      FrameBound.walk_free start, FrameBound.walk_free stop]

theorem Window.walk_free (spec : Window) : Free.walk spec.free = spec.walk.map Node.free := by
  obtain ⟨partitionBy, orderBy, frame⟩ := spec
  simp [Window.free, Free.walk, Free.node?, Window.walk, Expr.walk_freeAll partitionBy,
    SortItem.walk_freeAll orderBy, WindowFrame.walk_freeOption frame]

theorem TableRef.walk_free (table : TableRef) : Free.walk table.free = table.walk.map Node.free := by
  cases table with
  | table name asName hints => rfl
  | derived query asName =>
    simp [TableRef.free, Free.walk, Free.node?, TableRef.walk, Node.free, Query.walk_free query]

theorem TableRef.walk_freeAll (tables : List TableRef) :
    Free.walk (TableRef.freeAll tables) = (TableRef.walkAll tables).map Node.free := by
  cases tables with
  | nil => rfl
  | cons table rest =>
    rw [TableRef.freeAll, Free.walk_cons, TableRef.walkAll, List.map_append, TableRef.walk_free table,
      TableRef.walk_freeAll rest]

theorem Join.walk_freeAll (joins : List Join) :
    Free.walk (Join.freeAll joins) = (Join.walkAll joins).map Node.free := by
  cases joins with
  | nil => rfl
  | cons join rest =>
    obtain ⟨kind, table, condition, sharedColumns⟩ := join
    simp [Join.freeAll, Free.walk, Free.node?, Join.walkAll, TableRef.walk_free table,
      Expr.walk_freeOption condition, Join.walk_freeAll rest]

theorem Top.walk_freeOption (top : Option Top) :
    Free.walk (Top.freeOption top) = (Top.walkOption top).map Node.free := by
  match top with
  | none => rfl
  | some ⟨quantity, percent, withTies⟩ =>
    simp [Top.freeOption, Free.walk, Free.node?, Top.walkOption, Expr.walk_free quantity]

theorem Select.walk_free (node : Select) : Free.walk node.free = node.walk.map Node.free := by
  obtain ⟨distinct, top, columns, into, tables, joins, condition, groupBy, having, orderBy, limit,
    offset, fetch⟩ := node
  simp [Select.free, Free.walk, Free.node?, Select.walk, Top.walk_freeOption top,
    Expr.walk_freeAll columns, TableRef.walk_freeAll tables, Join.walk_freeAll joins,
    Expr.walk_freeOption condition, Expr.walk_freeAll groupBy, Expr.walk_freeOption having,
    SortItem.walk_freeAll orderBy, Expr.walk_freeOption limit, Expr.walk_freeOption offset,
    Expr.walk_freeOption fetch]

theorem CommonTable.walk_freeAll (tables : List CommonTable) :
    Free.walk (CommonTable.freeAll tables) = (CommonTable.walkAll tables).map Node.free := by
  cases tables with
  | nil => rfl
  | cons table rest =>
    obtain ⟨name, columns, query⟩ := table
    simp [CommonTable.freeAll, Free.walk, Free.node?, CommonTable.walkAll, Query.walk_free query,
      CommonTable.walk_freeAll rest]

theorem Query.walk_free (query : Query) : Free.walk query.free = query.walk.map Node.free := by
  cases query with
  | select node =>
    simp [Query.free, Free.walk, Free.node?, Query.walk, Node.free, Statement.free, Select.walk_free node]
  | setOperation left op all right =>
    simp [Query.free, Free.walk, Free.node?, Query.walk, Node.free, Statement.free, Query.walk_free left,
      Select.walk_free right]
  | withTables recursive tables body =>
    simp [Query.free, Free.walk, Free.node?, Query.walk, Node.free, Statement.free,
      CommonTable.walk_freeAll tables, Query.walk_free body]

end

/-! ## Parts without statements -/

theorem Assignment.walk_freeAll (assignments : List Assignment) :
    Free.walk (Assignment.freeAll assignments) = (Assignment.walkAll assignments).map Node.free := by
  simp [Assignment.freeAll, Free.walk_sequence, Assignment.free, Free.walk, Free.node?, Assignment.walkAll,
    List.map_flatMap, Expr.walk_free]

theorem InsertSource.walk_free (source : InsertSource) :
    Free.walk source.free = source.walk.map Node.free := by
  cases source with
  | values rows =>
    simp [InsertSource.free, Free.walk, Free.node?, Free.walk_sequence, InsertSource.walk,
      List.map_flatMap, Expr.walk_freeAll]
  | query q => simp [InsertSource.free, Free.walk, Free.node?, InsertSource.walk, Query.walk_free]
  | defaultValues => rfl

theorem ColumnDefinition.walk_free (column : ColumnDefinition) :
    Free.walk column.free = column.walk.map Node.free := by
  simp [ColumnDefinition.free, Free.walk, Free.node?, ColumnDefinition.walk, Expr.walk_freeOption]

theorem TableConstraint.walk_free (constraint : TableConstraint) :
    Free.walk constraint.free = constraint.walk.map Node.free := by
  obtain ⟨name, kind⟩ := constraint
  cases kind with
  | check condition => exact condition.walk_free
  | _ => rfl

theorem AlterAction.walk_free (action : AlterAction) :
    Free.walk action.free = action.walk.map Node.free := by
  cases action with
  | addColumn column => exact column.walk_free
  | modifyColumn column => exact column.walk_free
  | changeColumn oldName column => exact column.walk_free
  | addConstraint constraint => exact constraint.walk_free
  | _ => rfl

theorem ForRange.walk_free (range : ForRange) : Free.walk range.free = range.walk.map Node.free := by
  cases range with
  | numeric start stop step =>
    simp [ForRange.free, Free.walk, Free.node?, ForRange.walk, Expr.walk_free, Expr.walk_freeOption]
  | query q => exact q.walk_free

theorem FetchDirection.walk_free (direction : FetchDirection) :
    Free.walk direction.free = direction.walk.map Node.free := by
  cases direction with
  | absolute row => exact row.walk_free
  | relative count => exact count.walk_free
  | _ => rfl

theorem Parameter.walk_freeAll (parameters : List Parameter) :
    Free.walk (Free.sequence (parameters.map Parameter.free)) =
      (Parameter.walkAll parameters).map Node.free := by
  simp [Free.walk_sequence, Parameter.free, Free.walk, Free.node?, Parameter.walkAll, List.map_flatMap,
    Expr.walk_freeOption]

/-! ## Statements -/

mutual

/-- The walk over the free tree of a statement comes by the free trees of what the walk over the statement
comes by. -/
theorem Statement.walk_free (s : Statement) : Free.walk s.free = s.walk.map Node.free := by
  cases s with
  | query q => simp [Statement.free, Statement.walk, Statement.heading, Query.walk_free]
  | insert node =>
    simp [Statement.free, Free.walk, Free.node?, Statement.walk, Statement.heading, Node.free,
      InsertSource.walk_free]
  | update node =>
    simp [Statement.free, Free.walk, Free.node?, Statement.walk, Statement.heading, Node.free,
      TableRef.walk_free, Assignment.walk_freeAll, TableRef.walk_freeAll, Expr.walk_freeOption]
  | delete node =>
    simp [Statement.free, Free.walk, Free.node?, Statement.walk, Statement.heading, Node.free,
      TableRef.walk_free, Expr.walk_freeOption]
  | createTable node =>
    simp [Statement.free, Free.walk, Free.node?, Free.walk_sequence, Statement.walk, Statement.heading,
      Node.free, List.map_flatMap, ColumnDefinition.walk_free, TableConstraint.walk_free]
  | createIndex node =>
    simp [Statement.free, Free.walk, Free.node?, Statement.walk, Statement.heading, Node.free,
      SortItem.walk_freeAll, Expr.walk_freeOption]
  | createView node =>
    simp [Statement.free, Free.walk, Free.node?, Statement.walk, Statement.heading, Node.free,
      Query.walk_free]
  | createProcedure node =>
    obtain ⟨orReplace, name, parameters, options, body⟩ := node
    simp [Statement.free, Free.walk, Free.node?, Statement.walk, Statement.heading, Node.free,
      Parameter.walk_freeAll, Block.walk_free body]
  | createFunction node returns =>
    obtain ⟨orReplace, name, parameters, options, body⟩ := node
    simp [Statement.free, Free.walk, Free.node?, Statement.walk, Statement.heading, Node.free,
      Parameter.walk_freeAll, Block.walk_free body]
  | createTrigger node =>
    obtain ⟨orReplace, name, timing, events, table, forEachRow, condition, body⟩ := node
    simp [Statement.free, Free.walk, Free.node?, Statement.walk, Statement.heading, Node.free,
      Expr.walk_freeOption, TriggerBody.walk_free body]
  | alterTable name action =>
    simp [Statement.free, Free.walk, Free.node?, Statement.walk, Statement.heading, Node.free,
      AlterAction.walk_free]
  | declare declaration =>
    simp [Statement.free, Free.walk, Free.node?, Statement.walk, Statement.heading, Node.free,
      Declaration.walk_free declaration]
  | block node =>
    simp [Statement.free, Free.walk, Free.node?, Statement.walk, Statement.heading, Node.free,
      Block.walk_free node]
  | conditional condition body elseIfs otherwise =>
    simp [Statement.free, Free.walk, Free.node?, Statement.walk, Statement.heading, Node.free,
      Expr.walk_free, Statement.walk_freeAll body, Alternative.walk_freeAll elseIfs,
      Statement.walk_freeOption otherwise]
  | whileLoop label condition body =>
    simp [Statement.free, Free.walk, Free.node?, Statement.walk, Statement.heading, Node.free,
      Expr.walk_free, Statement.walk_freeAll body]
  | loop label body =>
    simp [Statement.free, Free.walk, Free.node?, Statement.walk, Statement.heading, Node.free,
      Statement.walk_freeAll body]
  | forLoop label counter reverse range body =>
    simp [Statement.free, Free.walk, Free.node?, Statement.walk, Statement.heading, Node.free,
      ForRange.walk_free, Statement.walk_freeAll body]
  | repeatLoop label body condition =>
    simp [Statement.free, Free.walk, Free.node?, Statement.walk, Statement.heading, Node.free,
      Expr.walk_free, Statement.walk_freeAll body]
  | choice input branches otherwise =>
    simp [Statement.free, Free.walk, Free.node?, Statement.walk, Statement.heading, Node.free,
      Expr.walk_freeOption, Alternative.walk_freeAll branches, Statement.walk_freeOption otherwise]
  | returnValue value =>
    simp [Statement.free, Free.walk, Free.node?, Statement.walk, Statement.heading, Node.free,
      Expr.walk_freeOption]
  | assign assignments =>
    simp [Statement.free, Free.walk, Free.node?, Statement.walk, Statement.heading, Node.free,
      Assignment.walk_freeAll]
  | openCursor cursor query =>
    cases query <;>
      simp [Statement.free, Free.optional, Free.walk, Free.node?, Statement.walk, Statement.heading,
        Node.free, Query.walk_free]
  | fetch node =>
    obtain ⟨direction, cursor, into⟩ := node
    cases direction <;>
      simp [Statement.free, Free.optional, Free.walk, Free.node?, Statement.walk, Statement.heading,
        Node.free, FetchDirection.walk_free]
  | leave label condition =>
    simp [Statement.free, Free.walk, Free.node?, Statement.walk, Statement.heading, Node.free,
      Expr.walk_freeOption]
  | iterate label condition =>
    simp [Statement.free, Free.walk, Free.node?, Statement.walk, Statement.heading, Node.free,
      Expr.walk_freeOption]
  | tryCatch body handler =>
    simp [Statement.free, Free.walk, Free.node?, Statement.walk, Statement.heading, Node.free,
      Statement.walk_freeAll body, Statement.walk_freeAll handler]
  | raise node =>
    simp [Statement.free, Free.walk, Free.node?, Statement.walk, Statement.heading, Node.free,
      Expr.walk_freeOption, Expr.walk_freeAll, Assignment.walk_freeAll]
  | throwing error =>
    cases error <;>
      simp [Statement.free, Free.walk, Free.node?, Statement.walk, Statement.heading, Node.free,
        Expr.walk_free]
  | signal node =>
    simp [Statement.free, Free.walk, Free.node?, Statement.walk, Statement.heading, Node.free,
      Assignment.walk_freeAll]
  | call name args =>
    simp [Statement.free, Free.walk, Free.node?, Statement.walk, Statement.heading, Node.free,
      Expr.walk_freeAll]
  | explain options statement =>
    simp [Statement.free, Free.walk, Free.node?, Statement.walk, Statement.heading, Node.free,
      Statement.walk_free statement]
  | _ => rfl

theorem Statement.walk_freeAll (body : List Statement) :
    Free.walk (Statement.freeAll body) = (Statement.walkAll body).map Node.free := by
  cases body with
  | nil => rfl
  | cons s rest =>
    rw [Statement.freeAll, Free.walk_cons, Statement.walkAll, List.map_append, Statement.walk_free s,
      Statement.walk_freeAll rest]

theorem Statement.walk_freeOption (body : Option (List Statement)) :
    Free.walk (Statement.freeOption body) = (Statement.walkOption body).map Node.free := by
  cases body with
  | none => rfl
  | some body => rw [Statement.freeOption, Free.walk_some, Statement.walkOption, Statement.walk_freeAll body]

theorem Alternative.walk_freeAll (alternatives : List Alternative) :
    Free.walk (Alternative.freeAll alternatives) = (Alternative.walkAll alternatives).map Node.free := by
  cases alternatives with
  | nil => rfl
  | cons alternative rest =>
    obtain ⟨condition, body⟩ := alternative
    simp [Alternative.freeAll, Free.walk, Free.node?, Alternative.walkAll, Expr.walk_free,
      Statement.walk_freeAll body, Alternative.walk_freeAll rest]

theorem Block.walk_free (block : Block) : Free.walk block.free = block.walk.map Node.free := by
  match block with
  | ⟨label, declarations, body, none, endLabel⟩ =>
    simp [Block.free, Free.walk, Free.node?, Block.walk, ExceptionHandler.walkSection,
      Declaration.walk_freeAll declarations, Statement.walk_freeAll body]
  | ⟨label, declarations, body, some handlers, endLabel⟩ =>
    simp [Block.free, Free.walk, Free.node?, Block.walk, ExceptionHandler.walkSection,
      Declaration.walk_freeAll declarations, Statement.walk_freeAll body,
      ExceptionHandler.walk_freeAll handlers]

theorem ExceptionHandler.walk_freeAll (handlers : List ExceptionHandler) :
    Free.walk (ExceptionHandler.freeAll handlers) = (ExceptionHandler.walkAll handlers).map Node.free := by
  cases handlers with
  | nil => rfl
  | cons handler rest =>
    obtain ⟨conditions, body⟩ := handler
    simp [ExceptionHandler.freeAll, Free.walk, Free.node?, ExceptionHandler.walkAll,
      Statement.walk_freeAll body, ExceptionHandler.walk_freeAll rest]

theorem Declaration.walk_free (declaration : Declaration) :
    Free.walk declaration.free = declaration.walk.map Node.free := by
  cases declaration with
  | scalars node =>
    simp [Declaration.free, Free.walk, Free.node?, Declaration.walk, Expr.walk_freeOption]
  | cursor node => simp [Declaration.free, Free.walk, Free.node?, Declaration.walk, Query.walk_free]
  | handler action conditions body =>
    simp [Declaration.free, Free.walk, Free.node?, Declaration.walk, Statement.walk_free body]

theorem Declaration.walk_freeAll (declarations : List Declaration) :
    Free.walk (Declaration.freeAll declarations) = (Declaration.walkAll declarations).map Node.free := by
  cases declarations with
  | nil => rfl
  | cons declaration rest =>
    rw [Declaration.freeAll, Free.walk_cons, Declaration.walkAll, List.map_append,
      Declaration.walk_free declaration, Declaration.walk_freeAll rest]

theorem TriggerBody.walk_free (body : TriggerBody) : Free.walk body.free = body.walk.map Node.free := by
  cases body with
  | block node => simp [TriggerBody.free, Free.walk, Free.node?, TriggerBody.walk, Block.walk_free node]
  | statement s => simp [TriggerBody.free, Free.walk, Free.node?, TriggerBody.walk, Statement.walk_free s]
  | call name args =>
    simp [TriggerBody.free, Free.walk, Free.node?, TriggerBody.walk, Expr.walk_freeAll]

end

/-! ## Tags -/

theorem Expr.tag_free (e : Expr) : Free.exprTag e.free = e.tag := by
  cases e with
  | binary node => obtain ⟨left, op, right⟩ := node; rfl
  | _ => rfl

theorem Statement.tag_free (s : Statement) : Free.statementTag s.free = s.tag := by
  cases s with
  | query q => cases q <;> rfl
  | createProcedure node => obtain ⟨orReplace, name, parameters, options, body⟩ := node; rfl
  | createFunction node returns => obtain ⟨orReplace, name, parameters, options, body⟩ := node; rfl
  | createTrigger node =>
    obtain ⟨orReplace, name, timing, events, table, forEachRow, condition, body⟩ := node
    rfl
  | declare declaration => cases declaration <;> rfl
  | throwing error => cases error <;> rfl
  | _ => rfl

theorem Node.tag_free (node : Node) : node.free.tag = node.tag := by
  cases node with
  | statement s => exact s.tag_free
  | expr e => exact e.tag_free
  | table t => rfl

/-- The tags of a statement are those of its free tree. -/
theorem Statement.tags_free (s : Statement) : Free.tags s.free = s.tags := by
  rw [Free.tags, Statement.walk_free, List.map_map, Statement.tags]
  exact List.map_congr_left fun node _ => node.tag_free

/-- The walk from a statement of any shape goes through the places of its nodes — the statements,
expressions and tables at every depth of the statement — in lexicographic order: it comes by each once, and
by none before one that contains it. So there are as many tags as nodes. The walk from a statement that is
read is that from its free tree, with the same tags. -/
theorem Statement.walk_places :
    (∀ s : Free.Statement, ∃ places : List (List Nat),
      (∀ place, place ∈ places ↔ (Free.nodeAt? s place).isSome) ∧
      (Free.walk s).map some = places.map (Free.nodeAt? s) ∧
      places.Pairwise (· < ·) ∧ places.Nodup ∧
      places.Pairwise (fun earlier later => ¬later <+: earlier) ∧
      (Free.tags s).length = places.length) ∧
    ∀ s : Statement, Free.walk s.free = s.walk.map Node.free ∧ Free.tags s.free = s.tags :=
  ⟨Free.enumerates_tags, fun s => ⟨s.walk_free, s.tags_free⟩⟩

end SqlFrontend
