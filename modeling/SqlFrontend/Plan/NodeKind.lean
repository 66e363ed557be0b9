/-!
# Kinds of plan nodes

* `PlanNodeKind.name`, `PlanNodeKind.ofName?`: the name of a kind, and the kind of a name;
  `ofName?_name` ties them together.
* `isScan`, `isJoin`, `isFullScan`: families of kinds; a full scan is a scan (`isScan_of_isFullScan`).

Section 6, *EXPLAIN output shape*, of the polysql specification.
-/

namespace SqlFrontend

/-- What a node of a plan does. -/
inductive PlanNodeKind where
  | seqScan | indexScan | indexOnlyScan | bitmapScan | tableScan | fullTableScan | rangeScan
  | clusteredIndexScan | nonclusteredIndexScan
  | nestedLoop | hashJoin | mergeJoin
  | aggregate | groupBy | hashAggregate
  | sort | quicksort
  | filter | limit | union | intersect | except | subquery | materialize | cte
  deriving DecidableEq, Repr

namespace PlanNodeKind

/-- Every kind once. -/
def all : List PlanNodeKind :=
  [.seqScan, .indexScan, .indexOnlyScan, .bitmapScan, .tableScan, .fullTableScan, .rangeScan,
    .clusteredIndexScan, .nonclusteredIndexScan, .nestedLoop, .hashJoin, .mergeJoin, .aggregate,
    .groupBy, .hashAggregate, .sort, .quicksort, .filter, .limit, .union, .intersect, .except,
    .subquery, .materialize, .cte]

/-- The name of a kind. -/
def name : PlanNodeKind → String
  | seqScan => "SEQ_SCAN"
  | indexScan => "INDEX_SCAN"
  | indexOnlyScan => "INDEX_ONLY_SCAN"
  | bitmapScan => "BITMAP_SCAN"
  | tableScan => "TABLE_SCAN"
  | fullTableScan => "FULL_TABLE_SCAN"
  | rangeScan => "RANGE_SCAN"
  | clusteredIndexScan => "CLUSTERED_INDEX_SCAN"
  | nonclusteredIndexScan => "NONCLUSTERED_INDEX_SCAN"
  | nestedLoop => "NESTED_LOOP"
  | hashJoin => "HASH_JOIN"
  | mergeJoin => "MERGE_JOIN"
  | aggregate => "AGGREGATE"
  | groupBy => "GROUP_BY"
  | hashAggregate => "HASH_AGGREGATE"
  | sort => "SORT"
  | quicksort => "QUICKSORT"
  | filter => "FILTER"
  | limit => "LIMIT"
  | union => "UNION"
  | intersect => "INTERSECT"
  | except => "EXCEPT"
  | subquery => "SUBQUERY"
  | materialize => "MATERIALIZE"
  | cte => "CTE"

/-- The kind of a name. -/
def ofName? (text : String) : Option PlanNodeKind := all.find? fun kind => kind.name == text

theorem ofName?_name (kind : PlanNodeKind) : ofName? kind.name = some kind := by
  cases kind <;> rfl

/-- Decides whether rows are read from a table or an index. -/
def isScan : PlanNodeKind → Bool
  | seqScan | indexScan | indexOnlyScan | bitmapScan | tableScan | fullTableScan | rangeScan
  | clusteredIndexScan | nonclusteredIndexScan => true
  | _ => false

/-- Decides whether the rows of two inputs are joined. -/
def isJoin : PlanNodeKind → Bool
  | nestedLoop | hashJoin | mergeJoin => true
  | _ => false

/-- Decides whether all rows of a table are read. -/
def isFullScan : PlanNodeKind → Bool
  | seqScan | tableScan | fullTableScan => true
  | _ => false

theorem isScan_of_isFullScan {kind : PlanNodeKind} (h : kind.isFullScan) : kind.isScan := by
  cases kind <;> first | rfl | simp [isFullScan] at h

end PlanNodeKind

end SqlFrontend
