import Corouv.Sql.ConnectionInfo
import Corouv.Sql.Postgres

/-!
# The statements of the object-relational layer

Where clauses are written with question marks and carry their parameters.  A statement is put
together from the names the caller supplies and from the clauses, whose question marks are
numbered for PostgreSQL.  What `Connection::query` or `Connection::execute` is called with is
the pair of the statement and its parameters.
-/

namespace Corouv.Sql.Orm

open Library

structure JoinSpec where
  kind : Bytes := ascii "INNER"
  table : Bytes
  aliasName : Bytes := []
  onCondition : Bytes

structure TableMetaRuntime where
  table : Bytes
  columns : List Bytes
  primaryKey : Option Bytes := none

structure WhereClause where
  sql : Bytes := []
  params : List Value := []
  rewriteQuestionPlaceholders : Bool := true

def WhereClause.empty (clause : WhereClause) : Bool :=
  clause.sql.isEmpty

inductive SortDirection where
  | asc
  | desc

structure OrderBy where
  expr : Bytes
  direction : SortDirection := .asc

/-- The options of a select, over the clauses as they are built or over their descriptions. -/
structure SelectOptions (γ : Type) where
  selectExpr : Bytes := []
  whereClause : Option γ := none
  groupBy : List Bytes := []
  having : Option γ := none
  orderBy : List OrderBy := []
  limit : Option ℕ := none
  offset : Option ℕ := none

def placeholder (backend : Backend) (index : ℕ) : Bytes :=
  if backend = .postgreSql then ascii "$" ++ intToString index else ascii "?"

/-- The items with a separator between them, as the loops of the source append them. -/
def separated (separator : Bytes) : List Bytes → Bytes
  | [] => []
  | [item] => item
  | item :: rest => item ++ separator ++ separated separator rest

def placeholders (backend : Backend) (count startIndex : ℕ) : Bytes :=
  separated (ascii ", ") ((List.range' startIndex count).map (placeholder backend))

def questionPlaceholders (count : ℕ) : Bytes :=
  separated (ascii ", ") (List.replicate count (ascii "?"))

def countQuestionPlaceholders (sql : Bytes) : ℕ :=
  sql.count 63

/-- The loop of `render_question_placeholders`, from an index on. -/
def numberQuestions : ℕ → Bytes → Bytes
  | _, [] => []
  | index, byte :: rest =>
      if byte = 63 then ascii "$" ++ intToString index ++ numberQuestions (index + 1) rest
      else byte :: numberQuestions index rest

def renderQuestionPlaceholders (sql : Bytes) (backend : Backend) (startIndex : ℕ) : Bytes :=
  if backend = .postgreSql then numberQuestions startIndex sql else sql

def validateWhereClause (clause : WhereClause) : Except Exn Unit :=
  if clause.empty then
    if clause.params.isEmpty then .ok ()
    else .error (.invalidArgument "corouv::sql::orm empty where clause with non-empty params")
  else if !clause.rewriteQuestionPlaceholders then .ok ()
  else if countQuestionPlaceholders clause.sql = clause.params.length then .ok ()
  else .error (.invalidArgument "corouv::sql::orm where clause placeholder count mismatch")

def renderWhereClause (clause : WhereClause) (backend : Backend) (startIndex : ℕ) :
    Except Exn Bytes := do
  validateWhereClause clause
  if clause.rewriteQuestionPlaceholders then
    pure (renderQuestionPlaceholders clause.sql backend startIndex)
  else pure clause.sql

def whereRaw (sql : Bytes) (params : List Value) (rewriteQuestionPlaceholders : Bool) :
    WhereClause :=
  { sql := sql, params := params, rewriteQuestionPlaceholders := rewriteQuestionPlaceholders }

/-- The check every builder makes of its column. -/
def checkWhereColumn (column : Bytes) : Except Exn Unit :=
  if column.isEmpty then .error (.invalidArgument "corouv::sql::orm empty where column")
  else .ok ()

def whereBinary (column op : Bytes) (value : Value) : Except Exn WhereClause := do
  checkWhereColumn column
  pure { sql := column ++ ascii " " ++ op ++ ascii " ?", params := [value] }

def whereEq (column : Bytes) (value : Value) : Except Exn WhereClause :=
  whereBinary column (ascii "=") value

def whereNe (column : Bytes) (value : Value) : Except Exn WhereClause :=
  whereBinary column (ascii "!=") value

def whereGt (column : Bytes) (value : Value) : Except Exn WhereClause :=
  whereBinary column (ascii ">") value

def whereGe (column : Bytes) (value : Value) : Except Exn WhereClause :=
  whereBinary column (ascii ">=") value

def whereLt (column : Bytes) (value : Value) : Except Exn WhereClause :=
  whereBinary column (ascii "<") value

def whereLe (column : Bytes) (value : Value) : Except Exn WhereClause :=
  whereBinary column (ascii "<=") value

def whereLike (column : Bytes) (value : Value) : Except Exn WhereClause :=
  whereBinary column (ascii "LIKE") value

def whereBetween (column : Bytes) (low high : Value) : Except Exn WhereClause := do
  checkWhereColumn column
  pure { sql := column ++ ascii " BETWEEN ? AND ?", params := [low, high] }

def whereIn (column : Bytes) (values : List Value) : Except Exn WhereClause := do
  checkWhereColumn column
  if values.isEmpty then
    throw (.invalidArgument "corouv::sql::orm where_in values is empty")
  else
    pure
      { sql := column ++ ascii " IN (" ++ questionPlaceholders values.length ++ ascii ")",
        params := values }

def whereIsNull (column : Bytes) : Except Exn WhereClause := do
  checkWhereColumn column
  pure { sql := column ++ ascii " IS NULL" }

def whereIsNotNull (column : Bytes) : Except Exn WhereClause := do
  checkWhereColumn column
  pure { sql := column ++ ascii " IS NOT NULL" }

def whereNot (clause : WhereClause) : Except Exn WhereClause := do
  validateWhereClause clause
  if clause.empty then pure clause
  else pure { clause with sql := ascii "NOT (" ++ clause.sql ++ ascii ")" }

/-- The variables of the loop of `where_combine`. -/
structure Combining where
  out : WhereClause := {}
  first : Bool := true
  rewriteMode : Option Bool := none

/-- The rewrite mode with a further clause. -/
def Combining.mode (acc : Combining) (clause : WhereClause) : Except Exn Bool :=
  match acc.rewriteMode with
  | none => .ok clause.rewriteQuestionPlaceholders
  | some mode =>
      if mode = clause.rewriteQuestionPlaceholders then .ok mode
      else if clause.params.isEmpty then .ok mode
      else if acc.out.params.isEmpty then .ok clause.rewriteQuestionPlaceholders
      else .error
        (.invalidArgument "corouv::sql::orm mixed placeholder rewrite mode in where_combine")

def combineTurn (op : Bytes) (acc : Combining) (clause : WhereClause) : Except Exn Combining :=
  if clause.empty then .ok acc
  else do
    validateWhereClause clause
    let mode ← acc.mode clause
    let between := if acc.first then [] else ascii " " ++ op ++ ascii " "
    pure
      { out :=
          { acc.out with
            sql := acc.out.sql ++ between ++ ascii "(" ++ clause.sql ++ ascii ")"
            params := acc.out.params ++ clause.params }
        first := false, rewriteMode := some mode }

def whereCombine (clauses : List WhereClause) (op : Bytes) : Except Exn WhereClause := do
  let acc ← clauses.foldlM (combineTurn op) {}
  match acc.rewriteMode with
  | none => pure acc.out
  | some mode => pure { acc.out with rewriteQuestionPlaceholders := mode }

def whereAnd (clauses : List WhereClause) : Except Exn WhereClause :=
  whereCombine clauses (ascii "AND")

def whereOr (clauses : List WhereClause) : Except Exn WhereClause :=
  whereCombine clauses (ascii "OR")

def joinColumns (columns : List Bytes) : Bytes :=
  separated (ascii ", ") columns

def joinSql (join : JoinSpec) : Bytes :=
  if join.table.isEmpty || join.onCondition.isEmpty then []
  else
    ascii " " ++ (if join.kind.isEmpty then ascii "INNER" else join.kind) ++ ascii " JOIN " ++
      join.table ++ (if join.aliasName.isEmpty then [] else ascii " " ++ join.aliasName) ++
      ascii " ON " ++ join.onCondition

def joinsSql (joins : List JoinSpec) : Bytes :=
  joins.flatMap joinSql

/-- A keyword and the items after it, or nothing if there are none. -/
def listed (keyword : Bytes) (items : List Bytes) : Bytes :=
  if items.isEmpty then [] else keyword ++ separated (ascii ", ") items

def orderTermSql (term : OrderBy) : Bytes :=
  term.expr ++
    match term.direction with
    | .desc => ascii " DESC"
    | .asc => ascii " ASC"

def orderBySql (terms : List OrderBy) : Bytes :=
  listed (ascii " ORDER BY ") ((terms.filter fun term => !term.expr.isEmpty).map orderTermSql)

def groupBySql (groups : List Bytes) : Bytes :=
  listed (ascii " GROUP BY ") (groups.filter fun group => !group.isEmpty)

def checkColumns (table : TableMetaRuntime) : Except Exn Unit :=
  if table.table.isEmpty then .error (.invalidArgument "corouv::sql::orm empty table name")
  else if table.columns.isEmpty then
    .error (.invalidArgument "corouv::sql::orm empty column list")
  else .ok ()

/-- The primary key, which the functions that need one check. -/
def checkPrimaryKey (table : TableMetaRuntime) : Except Exn Bytes :=
  match table.primaryKey with
  | some (byte :: rest) => .ok (byte :: rest)
  | _ => .error (.invalidArgument "corouv::sql::orm primary key is required")

abbrev Sent := Bytes × List Value

/-- The statement so far, its parameters and the next index. -/
structure Composing where
  sql : Bytes
  placeholderIndex : ℕ := 1
  params : List Value := []

def appendOptionalClause (backend : Backend) (clause : Option WhereClause) (keyword : Bytes)
    (composing : Composing) : Except Exn Composing :=
  match clause with
  | none => .ok composing
  | some clause =>
      if clause.empty then .ok composing
      else do
        let rendered ← renderWhereClause clause backend composing.placeholderIndex
        pure
          { sql := composing.sql ++ ascii " " ++ keyword ++ ascii " " ++ rendered
            placeholderIndex := composing.placeholderIndex + clause.params.length
            params := composing.params ++ clause.params }

/-- An optional number after its keyword. -/
def numberSql (keyword : Bytes) : Option ℕ → Bytes
  | none => []
  | some number => keyword ++ intToString number

/-- The part of a select before its clauses. -/
def selectFrom (base : TableMetaRuntime) (joins : List JoinSpec) (selectExpr : Bytes) : Bytes :=
  ascii "SELECT " ++ (if selectExpr.isEmpty then joinColumns base.columns else selectExpr) ++
    ascii " FROM " ++ base.table ++ joinsSql joins

def selectWithJoins (backend : Backend) (base : TableMetaRuntime) (joins : List JoinSpec)
    (options : SelectOptions WhereClause) : Except Exn Sent := do
  checkColumns base
  let composing : Composing := { sql := selectFrom base joins options.selectExpr }
  let composing ← appendOptionalClause backend options.whereClause (ascii "WHERE") composing
  let composing := { composing with sql := composing.sql ++ groupBySql options.groupBy }
  let composing ← appendOptionalClause backend options.having (ascii "HAVING") composing
  pure
    (composing.sql ++ orderBySql options.orderBy ++ numberSql (ascii " LIMIT ") options.limit ++
      numberSql (ascii " OFFSET ") options.offset, composing.params)

def findByPk (backend : Backend) (table : TableMetaRuntime) (pkValue : Value) :
    Except Exn Sent := do
  checkColumns table
  let key ← checkPrimaryKey table
  pure
    (ascii "SELECT " ++ joinColumns table.columns ++ ascii " FROM " ++ table.table ++
      ascii " WHERE " ++ key ++ ascii " = " ++ placeholder backend 1 ++ ascii " LIMIT 1",
      [pkValue])

def insert (backend : Backend) (table : TableMetaRuntime) (values : List Value) :
    Except Exn Sent := do
  checkColumns table
  if values.length ≠ table.columns.length then
    throw (.invalidArgument "corouv::sql::orm insert values count does not match columns")
  else
    pure
      (ascii "INSERT INTO " ++ table.table ++ ascii " (" ++ joinColumns table.columns ++
        ascii ") VALUES (" ++ placeholders backend table.columns.length 1 ++ ascii ")", values)

/-- The assignments of an update, from an index on. -/
def setSql (backend : Backend) : ℕ → List Bytes → Bytes
  | _, [] => []
  | index, column :: rest =>
      (if 0 < index then ascii ", " else []) ++ column ++ ascii " = " ++
        placeholder backend (index + 1) ++ setSql backend (index + 1) rest

/-- The checks an update makes of its columns and values. -/
def checkSet (setColumns : List Bytes) (setValues : List Value) : Except Exn Unit :=
  if setColumns.isEmpty then
    .error (.invalidArgument "corouv::sql::orm update set_columns is empty")
  else if setValues.length ≠ setColumns.length then
    .error (.invalidArgument "corouv::sql::orm update values count does not match columns")
  else .ok ()

def updateWhere (backend : Backend) (table : TableMetaRuntime) (setColumns : List Bytes)
    (setValues : List Value) (clause : WhereClause) (allowEmptyWhere : Bool) :
    Except Exn Sent := do
  checkColumns table
  checkSet setColumns setValues
  let sql := ascii "UPDATE " ++ table.table ++ ascii " SET " ++ setSql backend 0 setColumns
  if clause.empty then
    if allowEmptyWhere then pure (sql, setValues)
    else throw (.invalidArgument "corouv::sql::orm update_where requires where clause")
  else
    let rendered ← renderWhereClause clause backend (setColumns.length + 1)
    pure (sql ++ ascii " WHERE " ++ rendered, setValues ++ clause.params)

def updateByPk (backend : Backend) (table : TableMetaRuntime) (setColumns : List Bytes)
    (setValues : List Value) (pkValue : Value) : Except Exn Sent := do
  checkColumns table
  let key ← checkPrimaryKey table
  checkSet setColumns setValues
  pure
    (ascii "UPDATE " ++ table.table ++ ascii " SET " ++ setSql backend 0 setColumns ++
      ascii " WHERE " ++ key ++ ascii " = " ++ placeholder backend (setColumns.length + 1),
      setValues ++ [pkValue])

def deleteWhere (backend : Backend) (table : TableMetaRuntime) (clause : WhereClause)
    (allowEmptyWhere : Bool) : Except Exn Sent := do
  checkColumns table
  let sql := ascii "DELETE FROM " ++ table.table
  if clause.empty then
    if allowEmptyWhere then pure (sql, [])
    else throw (.invalidArgument "corouv::sql::orm delete_where requires where clause")
  else
    let rendered ← renderWhereClause clause backend 1
    pure (sql ++ ascii " WHERE " ++ rendered, clause.params)

def deleteByPk (backend : Backend) (table : TableMetaRuntime) (pkValue : Value) :
    Except Exn Sent := do
  checkColumns table
  let key ← checkPrimaryKey table
  pure
    (ascii "DELETE FROM " ++ table.table ++ ascii " WHERE " ++ key ++ ascii " = " ++
      placeholder backend 1, [pkValue])

inductive Comparison where
  | eq
  | ne
  | gt
  | ge
  | lt
  | le
  | like

def Comparison.clause : Comparison → Bytes → Value → Except Exn WhereClause
  | .eq => whereEq
  | .ne => whereNe
  | .gt => whereGt
  | .ge => whereGe
  | .lt => whereLt
  | .le => whereLe
  | .like => whereLike

inductive Connective where
  | and
  | or

def Connective.clause : Connective → List WhereClause → Except Exn WhereClause
  | .and => whereAnd
  | .or => whereOr

/-- A nesting of calls of the builders. -/
inductive WhereExpr where
  | compare (comparison : Comparison) (column : Bytes) (value : Value)
  | between (column : Bytes) (low high : Value)
  | isIn (column : Bytes) (values : List Value)
  | isNull (column : Bytes)
  | isNotNull (column : Bytes)
  | not (clause : WhereExpr)
  | combine (connective : Connective) (clauses : List WhereExpr)

mutual

def WhereExpr.build : WhereExpr → Except Exn WhereClause
  | .compare comparison column value => comparison.clause column value
  | .between column low high => whereBetween column low high
  | .isIn column values => whereIn column values
  | .isNull column => whereIsNull column
  | .isNotNull column => whereIsNotNull column
  | .not clause => do
      let built ← clause.build
      whereNot built
  | .combine connective clauses => do
      let built ← WhereExpr.buildAll clauses
      connective.clause built

def WhereExpr.buildAll : List WhereExpr → Except Exn (List WhereClause)
  | [] => pure []
  | clause :: rest => do
      let built ← clause.build
      let others ← WhereExpr.buildAll rest
      pure (built :: others)

end

def buildOptional : Option WhereExpr → Except Exn (Option WhereClause)
  | none => pure none
  | some clause => do
      let built ← clause.build
      pure (some built)

/-- A call of the layer, with its clauses as they are written. -/
inductive Call where
  | select (base : TableMetaRuntime) (joins : List JoinSpec) (options : SelectOptions WhereExpr)
  | findByPk (table : TableMetaRuntime) (pkValue : Value)
  | insert (table : TableMetaRuntime) (values : List Value)
  | update (table : TableMetaRuntime) (setColumns : List Bytes) (setValues : List Value)
      (clause : WhereExpr) (allowEmptyWhere : Bool)
  | updateByPk (table : TableMetaRuntime) (setColumns : List Bytes) (setValues : List Value)
      (pkValue : Value)
  | delete (table : TableMetaRuntime) (clause : WhereExpr) (allowEmptyWhere : Bool)
  | deleteByPk (table : TableMetaRuntime) (pkValue : Value)

/-- What the call sends, unless one of the builders or the function throws. -/
def Call.send (backend : Backend) : Call → Except Exn Sent
  | .select base joins options => do
      let whereClause ← buildOptional options.whereClause
      let having ← buildOptional options.having
      selectWithJoins backend base joins { options with whereClause, having }
  | .findByPk table pkValue => Orm.findByPk backend table pkValue
  | .insert table values => Orm.insert backend table values
  | .update table setColumns setValues clause allowEmptyWhere => do
      let built ← clause.build
      updateWhere backend table setColumns setValues built allowEmptyWhere
  | .updateByPk table setColumns setValues pkValue =>
      Orm.updateByPk backend table setColumns setValues pkValue
  | .delete table clause allowEmptyWhere => do
      let built ← clause.build
      deleteWhere backend table built allowEmptyWhere
  | .deleteByPk table pkValue => Orm.deleteByPk backend table pkValue

end Corouv.Sql.Orm
