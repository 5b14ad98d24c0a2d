import Corouv.Library.Template
import Corouv.Sql.Orm

/-!
# What a statement is made of

The layout of a clause or a statement is the sequence of its texts and of the values supplied
for its placeholders, in textual order.  It says what the statement is without saying how the
placeholders are written or counted.
-/

namespace Corouv.Sql.Orm

open Library Template

abbrev Layout := List (Piece UInt8 Value)

/-- The items with a text between them. -/
def joined (separator : Bytes) : List Layout → Layout
  | [] => []
  | [item] => item
  | item :: rest => item ++ .text separator :: joined separator rest

def parenthesized (layout : Layout) : Layout :=
  .text (ascii "(") :: layout ++ [.text (ascii ")")]

def Comparison.operator : Comparison → Bytes
  | .eq => ascii "="
  | .ne => ascii "!="
  | .gt => ascii ">"
  | .ge => ascii ">="
  | .lt => ascii "<"
  | .le => ascii "<="
  | .like => ascii "LIKE"

def Connective.operator : Connective → Bytes
  | .and => ascii "AND"
  | .or => ascii "OR"

def negated (layout : Layout) : Layout :=
  if layout.isEmpty then [] else .text (ascii "NOT ") :: parenthesized layout

/-- The layouts that are not empty, in parentheses and with an operator between them. -/
def combined (op : Bytes) (layouts : List Layout) : Layout :=
  joined (ascii " " ++ op ++ ascii " ")
    ((layouts.filter fun layout => !layout.isEmpty).map parenthesized)

mutual

def WhereExpr.layout : WhereExpr → Layout
  | .compare comparison column value =>
      [.text (column ++ ascii " " ++ comparison.operator ++ ascii " "), .hole value]
  | .between column low high =>
      [.text (column ++ ascii " BETWEEN "), .hole low, .text (ascii " AND "), .hole high]
  | .isIn column values =>
      .text (column ++ ascii " IN (") ::
        joined (ascii ", ") (values.map fun value => [.hole value]) ++ [.text (ascii ")")]
  | .isNull column => [.text (column ++ ascii " IS NULL")]
  | .isNotNull column => [.text (column ++ ascii " IS NOT NULL")]
  | .not clause => negated clause.layout
  | .combine connective clauses => combined connective.operator (WhereExpr.layouts clauses)

def WhereExpr.layouts : List WhereExpr → List Layout
  | [] => []
  | clause :: rest => clause.layout :: WhereExpr.layouts rest

end

/-- A clause after its keyword, or nothing if it is empty. -/
def keywordLayout (keyword : Bytes) (layout : Layout) : Layout :=
  if layout.isEmpty then [] else .text (ascii " " ++ keyword ++ ascii " ") :: layout

def optionalLayout (keyword : Bytes) : Option WhereExpr → Layout
  | none => []
  | some clause => keywordLayout keyword clause.layout

def assignment (column : Bytes) (value : Value) : Layout :=
  [.text (column ++ ascii " = "), .hole value]

def setLayout (columns : List Bytes) (values : List Value) : Layout :=
  joined (ascii ", ") ((columns.zip values).map fun pair => assignment pair.1 pair.2)

def Call.layout : Call → Layout
  | .select base joins options =>
      .text (selectFrom base joins options.selectExpr) ::
        optionalLayout (ascii "WHERE") options.whereClause ++
        .text (groupBySql options.groupBy) :: optionalLayout (ascii "HAVING") options.having ++
        [.text (orderBySql options.orderBy ++ numberSql (ascii " LIMIT ") options.limit ++
          numberSql (ascii " OFFSET ") options.offset)]
  | .findByPk table pkValue =>
      .text (ascii "SELECT " ++ joinColumns table.columns ++ ascii " FROM " ++ table.table ++
          ascii " WHERE ") ::
        assignment (table.primaryKey.getD []) pkValue ++ [.text (ascii " LIMIT 1")]
  | .insert table values =>
      .text (ascii "INSERT INTO " ++ table.table ++ ascii " (" ++ joinColumns table.columns ++
          ascii ") VALUES (") ::
        joined (ascii ", ") (values.map fun value => [.hole value]) ++ [.text (ascii ")")]
  | .update table setColumns setValues clause _ =>
      .text (ascii "UPDATE " ++ table.table ++ ascii " SET ") :: setLayout setColumns setValues ++
        keywordLayout (ascii "WHERE") clause.layout
  | .updateByPk table setColumns setValues pkValue =>
      .text (ascii "UPDATE " ++ table.table ++ ascii " SET ") :: setLayout setColumns setValues ++
        .text (ascii " WHERE ") :: assignment (table.primaryKey.getD []) pkValue
  | .delete table clause _ =>
      .text (ascii "DELETE FROM " ++ table.table) :: keywordLayout (ascii "WHERE") clause.layout
  | .deleteByPk table pkValue =>
      .text (ascii "DELETE FROM " ++ table.table ++ ascii " WHERE ") ::
        assignment (table.primaryKey.getD []) pkValue

mutual

def WhereExpr.texts : WhereExpr → List Bytes
  | .compare _ column _ => [column]
  | .between column _ _ => [column]
  | .isIn column _ => [column]
  | .isNull column => [column]
  | .isNotNull column => [column]
  | .not clause => clause.texts
  | .combine _ clauses => WhereExpr.textsAll clauses

def WhereExpr.textsAll : List WhereExpr → List Bytes
  | [] => []
  | clause :: rest => clause.texts ++ WhereExpr.textsAll rest

end

def TableMetaRuntime.texts (table : TableMetaRuntime) : List Bytes :=
  table.table :: table.columns ++ table.primaryKey.toList

def JoinSpec.texts (join : JoinSpec) : List Bytes :=
  [join.kind, join.table, join.aliasName, join.onCondition]

def SelectOptions.texts (options : SelectOptions WhereExpr) : List Bytes :=
  options.selectExpr :: options.whereClause.toList.flatMap WhereExpr.texts ++ options.groupBy ++
    options.having.toList.flatMap WhereExpr.texts ++ options.orderBy.map OrderBy.expr

def Call.texts : Call → List Bytes
  | .select base joins options =>
      base.texts ++ joins.flatMap JoinSpec.texts ++ options.texts
  | .findByPk table _ | .insert table _ | .deleteByPk table _ => table.texts
  | .update table setColumns _ clause _ => table.texts ++ setColumns ++ clause.texts
  | .updateByPk table setColumns _ _ => table.texts ++ setColumns
  | .delete table clause _ => table.texts ++ clause.texts

/-- A text without question marks and dollar signs. -/
def Plain (text : Bytes) : Prop :=
  63 ∉ text ∧ 36 ∉ text

instance (text : Bytes) : Decidable (Plain text) :=
  inferInstanceAs (Decidable (_ ∧ _))

/-- The texts are plain, and no placeholder is followed by a digit. -/
structure Layout.Sound (layout : Layout) : Prop where
  question : Lacks 63 layout
  dollar : Lacks 36 layout
  spaced : Spaced layout

variable {front back separator : Bytes} {items : List Bytes} {joins : List JoinSpec}

theorem Plain.append (plain : Plain front) (plainBack : Plain back) : Plain (front ++ back) :=
  ⟨List.not_mem_append plain.1 plainBack.1, List.not_mem_append plain.2 plainBack.2⟩

theorem plain_nil : Plain [] :=
  ⟨List.not_mem_nil, List.not_mem_nil⟩

theorem plain_intToString (number : ℕ) : Plain (intToString number) := by
  rw [intToString_of_nonneg (Int.natCast_nonneg number)]
  constructor
  · exact Numeral.notMem_digits 10 _ (by decide) (by decide) (by decide)
  · exact Numeral.notMem_digits 10 _ (by decide) (by decide) (by decide)

theorem plain_separated (plain : Plain separator) (each : ∀ item ∈ items, Plain item) :
    Plain (separated separator items) := by
  induction items with
  | nil => exact plain_nil
  | cons item rest ih =>
      have first := each item List.mem_cons_self
      have others := ih fun other mem => each other (List.mem_cons_of_mem item mem)
      cases rest with
      | nil => exact first
      | cons _ _ => exact (first.append plain).append others

variable {keyword text : Bytes} {layout : Layout} {table : TableMetaRuntime}

theorem plain_listed (plain : Plain keyword) (each : ∀ item ∈ items, Plain item) :
    Plain (listed keyword items) := by
  simp only [listed]
  split
  · exact plain_nil
  · exact plain.append (plain_separated (by decide) each)

theorem Layout.Sound.append {front back : Layout} (sound : Layout.Sound front)
    (clear : Clear back) (soundBack : Layout.Sound back) : Layout.Sound (front ++ back) where
  question := sound.question.append soundBack.question
  dollar := sound.dollar.append soundBack.dollar
  spaced := sound.spaced.append clear soundBack.spaced

theorem sound_nil : Layout.Sound [] where
  question := lacks_nil 63
  dollar := lacks_nil 36
  spaced := trivial

theorem sound_hole (value : Value) : Layout.Sound [.hole value] where
  question := lacks_hole 63 value
  dollar := lacks_hole 36 value
  spaced := ⟨trivial, trivial⟩

theorem sound_text (plain : Plain text) : Layout.Sound [.text text] where
  question := lacks_text plain.1
  dollar := lacks_text plain.2
  spaced := trivial

theorem Layout.Sound.after_text (sound : Layout.Sound layout) (plain : Plain text) :
    Layout.Sound (.text text :: layout) where
  question := (lacks_text plain.1).append sound.question
  dollar := (lacks_text plain.2).append sound.dollar
  spaced := sound.spaced

theorem sound_joined (plain : Plain separator)
    (clear : ∀ rest : Layout, Clear (.text separator :: rest)) {items : List Layout}
    (each : ∀ item ∈ items, item.Sound) : (joined separator items).Sound := by
  induction items with
  | nil => exact sound_nil
  | cons item rest ih =>
      have first := each item List.mem_cons_self
      have others := ih fun other mem => each other (List.mem_cons_of_mem item mem)
      cases rest with
      | nil => exact first
      | cons _ _ => exact first.append (clear _) (others.after_text plain)

theorem sound_holes (values : List Value) :
    (joined (ascii ", ") (values.map fun value => [.hole value])).Sound := by
  apply sound_joined (by decide)
  · intro _
    rfl
  · intro _ mem
    rcases List.mem_map.mp mem with ⟨value, -, rfl⟩
    exact sound_hole value

theorem sound_parenthesized (sound : layout.Sound) : (parenthesized layout).Sound := by
  apply (sound.after_text (by decide)).append
  · rfl
  · exact sound_text (by decide)

theorem sound_combined {op : Bytes} (plain : Plain op) {layouts : List Layout}
    (each : ∀ layout ∈ layouts, layout.Sound) : (combined op layouts).Sound := by
  apply sound_joined ((Plain.append (by decide) plain).append (by decide))
  · intro _
    rfl
  · intro _ mem
    rcases List.mem_map.mp mem with ⟨layout, kept, rfl⟩
    exact sound_parenthesized (each layout (List.mem_of_mem_filter kept))

theorem sound_keywordLayout (plain : Plain keyword) (sound : layout.Sound) :
    (keywordLayout keyword layout).Sound := by
  simp only [keywordLayout]
  split
  · exact sound_nil
  · exact sound.after_text ((Plain.append (by decide) plain).append (by decide))

theorem clear_keywordLayout (keyword : Bytes) (layout : Layout) :
    Clear (keywordLayout keyword layout) := by
  simp only [keywordLayout]
  split
  · trivial
  · rfl

theorem sound_assignment {column : Bytes} (plain : Plain column) (value : Value) :
    (assignment column value).Sound :=
  (sound_hole value).after_text (plain.append (by decide))

theorem sound_setLayout {columns : List Bytes} (plain : ∀ column ∈ columns, Plain column)
    (values : List Value) : (setLayout columns values).Sound := by
  apply sound_joined (by decide)
  · intro _
    rfl
  · intro _ mem
    rcases List.mem_map.mp mem with ⟨⟨column, value⟩, pair, rfl⟩
    exact sound_assignment (plain column (List.of_mem_zip pair).1) value

theorem WhereExpr.layouts_eq (clauses : List WhereExpr) :
    WhereExpr.layouts clauses = clauses.map WhereExpr.layout := by
  induction clauses with
  | nil => rfl
  | cons _ _ ih => rw [WhereExpr.layouts, ih, List.map_cons]

theorem WhereExpr.textsAll_eq (clauses : List WhereExpr) :
    WhereExpr.textsAll clauses = clauses.flatMap WhereExpr.texts := by
  induction clauses with
  | nil => rfl
  | cons _ _ ih => rw [WhereExpr.textsAll, ih, List.flatMap_cons]

/-- Induction over nested calls, with a hypothesis for each clause of a list. -/
@[elab_as_elim]
theorem WhereExpr.nestedInduction {motive : WhereExpr → Prop}
    (compare : ∀ comparison column value, motive (.compare comparison column value))
    (between : ∀ column low high, motive (.between column low high))
    (isIn : ∀ column values, motive (.isIn column values))
    (isNull : ∀ column, motive (.isNull column))
    (isNotNull : ∀ column, motive (.isNotNull column))
    (not : ∀ clause, motive clause → motive (.not clause))
    (combine : ∀ connective clauses, (∀ clause ∈ clauses, motive clause) →
      motive (.combine connective clauses)) (expr : WhereExpr) : motive expr := by
  refine @WhereExpr.rec motive (fun clauses => ∀ clause ∈ clauses, motive clause) compare between
    isIn isNull isNotNull not combine ?_ ?_ expr
  · intro clause mem
    cases mem
  · intro _ _ forFirst forRest clause mem
    rcases List.mem_cons.mp mem with rfl | mem
    · exact forFirst
    · exact forRest clause mem

theorem plain_operator (comparison : Comparison) : Plain comparison.operator := by
  cases comparison <;> decide

theorem plain_connective (connective : Connective) : Plain connective.operator := by
  cases connective <;> decide

theorem sound_layout (expr : WhereExpr) (plain : ∀ text ∈ expr.texts, Plain text) :
    expr.layout.Sound := by
  induction expr using WhereExpr.nestedInduction with
  | compare comparison column value =>
      have named : Plain column := plain column (List.mem_singleton_self column)
      apply (sound_hole value).after_text
      exact ((named.append (by decide)).append (plain_operator comparison)).append (by decide)
  | between column low high =>
      have named : Plain column := plain column (List.mem_singleton_self column)
      have second : Layout.Sound [.text (ascii " AND "), .hole high] :=
        (sound_hole high).after_text (by decide)
      have both : Layout.Sound [.hole low, .text (ascii " AND "), .hole high] :=
        (sound_hole low).append rfl second
      exact both.after_text (named.append (by decide))
  | isIn column values =>
      have named : Plain column := plain column (List.mem_singleton_self column)
      apply ((sound_holes values).after_text (named.append (by decide))).append
      · rfl
      · exact sound_text (by decide)
  | isNull column | isNotNull column =>
      exact sound_text ((plain column (List.mem_singleton_self column)).append (by decide))
  | not clause ih =>
      simp only [WhereExpr.layout, negated]
      split
      · exact sound_nil
      · exact (sound_parenthesized (ih plain)).after_text (by decide)
  | combine connective _ ih =>
      rw [WhereExpr.texts, WhereExpr.textsAll_eq] at plain
      rw [WhereExpr.layout, WhereExpr.layouts_eq]
      apply sound_combined (plain_connective connective)
      intro _ mem
      rcases List.mem_map.mp mem with ⟨clause, inside, rfl⟩
      apply ih clause inside
      intro text written
      exact plain text (List.mem_flatMap.mpr ⟨clause, inside, written⟩)

theorem sound_optionalLayout (plainKeyword : Plain keyword) {clause : Option WhereExpr}
    (plain : ∀ text ∈ clause.toList.flatMap WhereExpr.texts, Plain text) :
    (optionalLayout keyword clause).Sound := by
  cases clause with
  | none => exact sound_nil
  | some expr =>
      apply sound_keywordLayout plainKeyword
      apply sound_layout expr
      simpa using plain

theorem clear_optionalLayout (keyword : Bytes) (clause : Option WhereExpr) :
    Clear (optionalLayout keyword clause) := by
  cases clause with
  | none => trivial
  | some expr => exact clear_keywordLayout keyword expr.layout

theorem plain_joinsSql (plain : ∀ text ∈ joins.flatMap JoinSpec.texts, Plain text) :
    Plain (joinsSql joins) := by
  induction joins with
  | nil => exact plain_nil
  | cons join _ ih =>
      rw [List.flatMap_cons] at plain
      have own : ∀ text ∈ join.texts, Plain text := fun text mem =>
        plain text (List.mem_append_left _ mem)
      have here : Plain (joinSql join) := by
        simp only [joinSql]
        split
        · exact plain_nil
        · have kind : Plain (if join.kind.isEmpty then ascii "INNER" else join.kind) := by
            split
            · decide
            · exact own join.kind (by simp [JoinSpec.texts])
          have named : Plain
              (if join.aliasName.isEmpty then [] else ascii " " ++ join.aliasName) := by
            split
            · exact plain_nil
            · exact Plain.append (by decide) (own join.aliasName (by simp [JoinSpec.texts]))
          have table := own join.table (by simp [JoinSpec.texts])
          have condition := own join.onCondition (by simp [JoinSpec.texts])
          exact ((((((Plain.append (by decide) kind).append (by decide)).append table).append
            named).append (by decide)).append condition)
      exact here.append (ih fun text mem => plain text (List.mem_append_right _ mem))

theorem plain_numberSql (plain : Plain keyword) (number : Option ℕ) :
    Plain (numberSql keyword number) := by
  cases number with
  | none => exact plain_nil
  | some number => exact plain.append (plain_intToString number)

theorem plain_orderBySql {terms : List OrderBy}
    (plain : ∀ text ∈ terms.map OrderBy.expr, Plain text) : Plain (orderBySql terms) := by
  apply plain_listed (by decide)
  intro _ mem
  rcases List.mem_map.mp mem with ⟨term, kept, rfl⟩
  apply (plain term.expr (List.mem_map_of_mem (List.mem_of_mem_filter kept))).append
  cases term.direction <;> decide

theorem plain_groupBySql {groups : List Bytes} (plain : ∀ text ∈ groups, Plain text) :
    Plain (groupBySql groups) := by
  apply plain_listed (by decide)
  intro item mem
  exact plain item (List.mem_of_mem_filter mem)

section

variable (plain : ∀ text ∈ table.texts, Plain text)
include plain

theorem plain_joinColumns : Plain (joinColumns table.columns) := by
  apply plain_separated (by decide)
  intro column mem
  exact plain column (by simp [TableMetaRuntime.texts, mem])

theorem plain_table : Plain table.table :=
  plain table.table (by simp [TableMetaRuntime.texts])

theorem plain_primaryKey : Plain (table.primaryKey.getD []) := by
  cases named : table.primaryKey with
  | none => exact plain_nil
  | some key => exact plain key (by simp [TableMetaRuntime.texts, named])

end

/-- No text, or one that starts with a blank, so that it may stand after a placeholder. -/
def Apart (text : Bytes) : Prop :=
  text = [] ∨ ∃ rest, text = ascii " " ++ rest

theorem Apart.clear (apart : Apart text) (clear : Clear layout) : Clear (.text text :: layout) := by
  rcases apart with rfl | ⟨_, rfl⟩
  · exact clear
  · rfl

theorem Apart.append (apart : Apart front) (apartBack : Apart back) : Apart (front ++ back) := by
  rcases apart with rfl | ⟨rest, rfl⟩
  · exact apartBack
  · exact .inr ⟨rest ++ back, List.append_assoc _ _ _⟩

theorem apart_listed (keyword : Bytes) (items : List Bytes) :
    Apart (listed (ascii " " ++ keyword) items) := by
  simp only [listed]
  split
  · exact .inl rfl
  · exact .inr ⟨_, List.append_assoc _ _ _⟩

theorem apart_numberSql (keyword : Bytes) (number : Option ℕ) :
    Apart (numberSql (ascii " " ++ keyword) number) := by
  cases number with
  | none => exact .inl rfl
  | some _ => exact .inr ⟨_, List.append_assoc _ _ _⟩

theorem sound_select {base : TableMetaRuntime} {options : SelectOptions WhereExpr}
    (plain : ∀ text ∈ (Call.select base joins options).texts, Plain text) :
    (Call.select base joins options).layout.Sound := by
  simp only [Call.texts, SelectOptions.texts, List.mem_append, List.mem_cons, or_imp,
    forall_and, forall_eq] at plain
  rcases plain with ⟨⟨ofBase, ofJoins⟩, ⟨⟨⟨ofSelect, ofWhere⟩, ofGroup⟩, ofHaving⟩, ofOrder⟩
  have selected : Plain (if options.selectExpr.isEmpty then joinColumns base.columns
      else options.selectExpr) := by
    split
    · exact plain_joinColumns ofBase
    · exact ofSelect
  refine Layout.Sound.append (Layout.Sound.append (Layout.Sound.after_text ?_ ?_) ?_
    (Layout.Sound.after_text ?_ ?_)) ?_ (sound_text ?_)
  · exact sound_optionalLayout (by decide) ofWhere
  · exact (((Plain.append (by decide) selected).append (by decide)).append
      (plain_table ofBase)).append (plain_joinsSql ofJoins)
  · exact (apart_listed (ascii "GROUP BY ") _).clear (clear_optionalLayout _ _)
  · exact sound_optionalLayout (by decide) ofHaving
  · exact plain_groupBySql ofGroup
  · refine Apart.clear ?_ (trivial : Clear ([] : Layout))
    exact ((apart_listed (ascii "ORDER BY ") _).append
      (apart_numberSql (ascii "LIMIT ") options.limit)).append
      (apart_numberSql (ascii "OFFSET ") options.offset)
  · exact ((plain_orderBySql ofOrder).append (plain_numberSql (by decide) options.limit)).append
      (plain_numberSql (by decide) options.offset)

/-- Plain texts make a sound layout. -/
theorem sound_callLayout (call : Call) (plain : ∀ text ∈ call.texts, Plain text) :
    call.layout.Sound := by
  cases call with
  | select _ _ _ => exact sound_select plain
  | findByPk _ pkValue =>
      refine Layout.Sound.append (Layout.Sound.after_text ?_ ?_) rfl (sound_text (by decide))
      · exact sound_assignment (plain_primaryKey plain) pkValue
      · exact (((Plain.append (by decide) (plain_joinColumns plain)).append (by decide)).append
          (plain_table plain)).append (by decide)
  | insert _ values =>
      refine Layout.Sound.append (Layout.Sound.after_text ?_ ?_) rfl (sound_text (by decide))
      · exact sound_holes values
      · exact (((Plain.append (by decide) (plain_table plain)).append (by decide)).append
          (plain_joinColumns plain)).append (by decide)
  | update _ _ setValues clause _ =>
      simp only [Call.texts, List.mem_append, or_imp, forall_and] at plain
      rcases plain with ⟨⟨ofTable, ofSet⟩, ofClause⟩
      refine Layout.Sound.append (Layout.Sound.after_text ?_ ?_) (clear_keywordLayout _ _) ?_
      · exact sound_setLayout ofSet setValues
      · exact (Plain.append (by decide) (plain_table ofTable)).append (by decide)
      · exact sound_keywordLayout (by decide) (sound_layout clause ofClause)
  | updateByPk _ _ setValues pkValue =>
      simp only [Call.texts, List.mem_append, or_imp, forall_and] at plain
      rcases plain with ⟨ofTable, ofSet⟩
      refine Layout.Sound.append (Layout.Sound.after_text ?_ ?_) rfl ?_
      · exact sound_setLayout ofSet setValues
      · exact (Plain.append (by decide) (plain_table ofTable)).append (by decide)
      · exact (sound_assignment (plain_primaryKey ofTable) pkValue).after_text (by decide)
  | delete _ clause _ =>
      simp only [Call.texts, List.mem_append, or_imp, forall_and] at plain
      rcases plain with ⟨ofTable, ofClause⟩
      apply (sound_keywordLayout (by decide) (sound_layout clause ofClause)).after_text
      exact Plain.append (by decide) (plain_table ofTable)
  | deleteByPk _ pkValue =>
      apply (sound_assignment (plain_primaryKey plain) pkValue).after_text
      exact (Plain.append (by decide) (plain_table plain)).append (by decide)

end Corouv.Sql.Orm
