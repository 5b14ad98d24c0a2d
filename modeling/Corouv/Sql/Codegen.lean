import Corouv.Sql.Orm

/-!
# Generated helpers for a model

What the code that `sql_orm_codegen.render` writes for a model does with its primary key.  The
texts of tables and columns are written as literals that stand for them.
-/

namespace Corouv.Sql.Orm

structure FieldDef where
  member : Bytes
  column : Bytes
  primaryKey : Bool

structure ModelDef where
  table : Bytes
  fields : List FieldDef

namespace ModelDef

def pkField (model : ModelDef) : Option FieldDef :=
  model.fields.find? FieldDef.primaryKey

def setFields (model : ModelDef) : List FieldDef :=
  let others := model.fields.filter fun field => !field.primaryKey
  if others.isEmpty then model.fields else others

def tableMeta (model : ModelDef) : TableMetaRuntime where
  table := model.table
  columns := model.fields.map FieldDef.column
  primaryKey := model.pkField.map FieldDef.column

/-- The values of a model object, by member. -/
abbrev Object := Bytes → Value

def setParamsFromModel (model : ModelDef) (object : Object) : List Value :=
  model.setFields.map fun field => object field.member

def setColumns (model : ModelDef) : List Bytes :=
  model.setFields.map FieldDef.column

/-- Helpers that take the key are generated for models that have one. -/
def updateByPk (model : ModelDef) (backend : Backend) (values : List Value) (pkValue : Value) :
    Option (Except Exn Sent) :=
  model.pkField.map fun _ => Orm.updateByPk backend model.tableMeta model.setColumns values pkValue

def updateModel (model : ModelDef) (backend : Backend) (object : Object) :
    Option (Except Exn Sent) :=
  model.pkField.bind fun key =>
    model.updateByPk backend (model.setParamsFromModel object) (object key.member)

def findByPk (model : ModelDef) (backend : Backend) (pkValue : Value) : Option (Except Exn Sent) :=
  model.pkField.map fun _ => Orm.findByPk backend model.tableMeta pkValue

def deleteByPk (model : ModelDef) (backend : Backend) (pkValue : Value) :
    Option (Except Exn Sent) :=
  model.pkField.map fun _ => Orm.deleteByPk backend model.tableMeta pkValue

def keyColumns (model : ModelDef) : List Bytes :=
  (model.fields.filter FieldDef.primaryKey).map FieldDef.column

end ModelDef

/-- The comparison of columns with parameters, from an index on. -/
def comparisons (backend : Backend) (index : ℕ) (columns : List Bytes) : Bytes :=
  separated (ascii " AND ") (columns.mapIdx fun offset column =>
    column ++ ascii " = " ++ placeholder backend (index + offset))

/-- A statement is sent whose condition compares each of the columns with a value. -/
def Constrains (backend : Backend) (columns : List Bytes) (head tail : Bytes)
    (params : List Value) (sent : Option (Except Exn Sent)) : Prop :=
  ∃ compared values, values.length = compared.length ∧ columns ⊆ compared ∧
    sent = some (.ok (head ++ ascii " WHERE " ++ comparisons backend (params.length + 1) compared ++
      tail, params ++ values))

/-- The helpers act on the row that the primary key identifies. -/
structure ModelDef.Identifies (model : ModelDef) (backend : Backend) : Prop where
  update : ∀ values pkValue, values.length = model.setColumns.length →
    Constrains backend model.keyColumns
      (ascii "UPDATE " ++ model.table ++ ascii " SET " ++ setSql backend 0 model.setColumns) []
      values (model.updateByPk backend values pkValue)
  updateModel : ∀ object, ∃ key, model.pkField = some key ∧ model.updateModel backend object =
    model.updateByPk backend (model.setParamsFromModel object) (object key.member)
  find : ∀ pkValue, Constrains backend model.keyColumns
    (ascii "SELECT " ++ joinColumns (model.fields.map FieldDef.column) ++ ascii " FROM " ++
      model.table) (ascii " LIMIT 1") [] (model.findByPk backend pkValue)
  delete : ∀ pkValue, Constrains backend model.keyColumns (ascii "DELETE FROM " ++ model.table) []
    [] (model.deleteByPk backend pkValue)
  aligned : ∀ object, model.setColumns.length = (model.setParamsFromModel object).length ∧
    model.setColumns.zip (model.setParamsFromModel object) =
      model.setFields.map fun field => (field.column, object field.member)
  unset : (∃ field ∈ model.fields, field.primaryKey = false) →
    ∀ column ∈ model.setColumns, column ∉ model.keyColumns

variable {backend : Backend} {columns : List Bytes} {head tail : Bytes} {params : List Value}
  {sent : Option (Except Exn Sent)}

theorem constrains_iff (column : Bytes) (value : Value)
    (sends : sent = some (.ok (head ++ ascii " WHERE " ++ column ++ ascii " = " ++
      placeholder backend (params.length + 1) ++ tail, params ++ [value]))) :
    Constrains backend columns head tail params sent ↔ ∀ other ∈ columns, other = column := by
  subst sends
  constructor
  · rintro ⟨compared, values, length, inside, same⟩
    simp only [Option.some.injEq, Except.ok.injEq, Prod.mk.injEq] at same
    rcases same with ⟨text, rest⟩
    have one : values = [value] := (List.append_cancel_left rest).symm
    rw [one, List.length_singleton] at length
    rcases List.length_eq_one_iff.mp length.symm with ⟨only, rfl⟩
    have here : only = column := by
      simpa [comparisons, separated, List.append_assoc] using text.symm
    intro other member
    simpa [here] using inside member
  · intro all
    refine ⟨[column], [value], rfl, ?_, ?_⟩
    · intro other member
      simp [all other member]
    · simp [comparisons, separated]

/-- The helpers identify a row if and only if there is one key column, under a name that no
other field has. -/
theorem identifies_iff_one_key (model : ModelDef) (key : FieldDef)
    (found : model.pkField = some key) (backend : Backend) :
    model.Identifies backend ↔ model.table ≠ [] ∧ key.column ≠ [] ∧
      (∀ column ∈ model.keyColumns, column = key.column) ∧
      ∀ field ∈ model.fields, field.primaryKey = false → field.column ∉ model.keyColumns := by
  have fields : model.fields ≠ [] := List.ne_nil_of_mem (List.mem_of_find?_eq_some found)
  have sets : model.setColumns ≠ [] := by
    simp only [ModelDef.setColumns, ModelDef.setFields]
    split <;> simp_all
  have others : (∃ field ∈ model.fields, field.primaryKey = false) →
      model.setFields = model.fields.filter fun field => !field.primaryKey := by
    rintro ⟨field, member, other⟩
    have some : field ∈ model.fields.filter fun field => !field.primaryKey := by
      simp [member, other]
    simp only [ModelDef.setFields, List.isEmpty_iff, if_neg (List.ne_nil_of_mem some)]
  have checks : model.table ≠ [] → key.column ≠ [] → checkColumns model.tableMeta = .ok () ∧
      checkPrimaryKey model.tableMeta = .ok key.column := by
    intro table column
    rcases List.exists_cons_of_ne_nil column with ⟨byte, rest, shape⟩
    simp [checkColumns, checkPrimaryKey, ModelDef.tableMeta, found, shape, table, fields]
  have deletes : model.table ≠ [] → key.column ≠ [] → ∀ pkValue,
      (Constrains backend model.keyColumns (ascii "DELETE FROM " ++ model.table) [] []
        (model.deleteByPk backend pkValue) ↔ ∀ column ∈ model.keyColumns, column = key.column) := by
    intro table column pkValue
    apply constrains_iff key.column pkValue
    rw [ModelDef.deleteByPk, found, Option.map_some, Orm.deleteByPk, (checks table column).1,
      (checks table column).2, List.append_nil]
    rfl
  constructor
  · intro identifies
    have named : model.table ≠ [] ∧ key.column ≠ [] := by
      rcases identifies.delete .null with ⟨_, _, -, -, sent⟩
      constructor <;> intro empty <;>
        simp [ModelDef.deleteByPk, found, Orm.deleteByPk, checkColumns, checkPrimaryKey,
          ModelDef.tableMeta, empty, fields, bind, Except.bind] at sent
      split at sent <;> cases sent
    refine ⟨named.1, named.2, (deletes named.1 named.2 .null).mp (identifies.delete .null), ?_⟩
    intro field member other
    refine identifies.unset ⟨field, member, other⟩ _ (List.mem_map_of_mem ?_)
    simp [others ⟨field, member, other⟩, member, other]
  · rintro ⟨table, column, all, apart⟩
    rcases checks table column with ⟨columns, primary⟩
    refine ⟨?_, fun object => ⟨key, found, ?_⟩, ?_,
      fun pkValue => (deletes table column pkValue).mpr all, fun object => ?_, ?_⟩
    · intro values pkValue length
      refine (constrains_iff key.column pkValue ?_).mpr all
      have checked : checkSet model.setColumns values = .ok () := by
        simp [checkSet, sets, length]
      rw [ModelDef.updateByPk, found, length, Option.map_some, Orm.updateByPk, columns, primary,
        checked, List.append_nil]
      rfl
    · rw [ModelDef.updateModel, found]
      rfl
    · intro pkValue
      refine (constrains_iff key.column pkValue ?_).mpr all
      rw [ModelDef.findByPk, found, Option.map_some, Orm.findByPk, columns, primary]
      rfl
    · simp [ModelDef.setColumns, ModelDef.setParamsFromModel, List.zip_map']
    · intro some column set
      rcases List.mem_map.mp set with ⟨field, member, rfl⟩
      rw [others some] at member
      have here := List.mem_filter.mp member
      exact apart field here.1 (by simpa using here.2)

def membership (groupIsKey : Bool) : ModelDef where
  table := ascii "membership"
  fields := [⟨ascii "user", ascii "user_id", true⟩, ⟨ascii "group", ascii "group_id", groupIsKey⟩]

theorem identifies_iff_one_key_membership : (membership false).Identifies .sqlite :=
  (identifies_iff_one_key (membership false) _ rfl .sqlite).mpr (by decide +kernel)

/-- The second key column is left out. -/
theorem membership_key_left_out :
    (membership true).keyColumns = [ascii "user_id", ascii "group_id"] ∧
      (membership true).deleteByPk .sqlite (.int64 7) =
        some (.ok (ascii "DELETE FROM membership WHERE user_id = ?", [.int64 7])) :=
  ⟨rfl, rfl⟩

end Corouv.Sql.Orm
