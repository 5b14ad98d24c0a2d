import Mathlib.Data.List.Forall2
import Corouv.Sql.Combining

/-!
# The placeholders of a statement

A statement is its layout filled in with the placeholders of the backend, counted from one, and
its parameters are the values of the layout.  For a clause this is a structural induction over
the calls of the builders, whose question marks are numbered afterwards; the functions that
put a statement together pass on the number of the next placeholder.
-/

namespace Corouv.Sql.Orm

open Library Template

theorem placeholder_postgreSql : placeholder .postgreSql = numbered 36 := by
  funext index
  rw [placeholder, if_pos rfl, intToString_of_nonneg (Int.natCast_nonneg index)]
  rfl

variable {layout : Layout} {clause : WhereClause} {column : Bytes} {backend : Backend}
  {values : List Value}

theorem placeholder_of_ne (other : backend ≠ .postgreSql) :
    placeholder backend = fun _ => [63] := by
  funext index
  rw [placeholder, if_neg other]
  rfl

/-- The text with question marks. -/
def questions (layout : Layout) : Bytes :=
  fill (fun _ => [63]) 0 layout

theorem questions_append (front back : Layout) :
    questions (front ++ back) = questions front ++ questions back :=
  fill_const_append [63] front back 0

theorem questions_text (text : Bytes) (rest : Layout) :
    questions (.text text :: rest) = text ++ questions rest :=
  rfl

theorem questions_hole (value : Value) (rest : Layout) :
    questions (.hole value :: rest) = 63 :: questions rest :=
  congrArg (63 :: ·) (fill_const [63] rest 1 0)

theorem questions_joined (separator : Bytes) (items : List Layout) :
    questions (joined separator items) = separated separator (items.map questions) := by
  induction items with
  | nil => rfl
  | cons _ rest ih =>
      cases rest with
      | nil => rfl
      | cons _ _ =>
          rw [joined, questions_append, questions_text, ih, ← List.append_assoc]
          · rfl
          · simp

/-- A clause as it is built for a layout. -/
structure Renders (clause : WhereClause) (layout : Layout) : Prop where
  sql : clause.sql = questions layout
  params : clause.params = holes layout
  rewrite : clause.rewriteQuestionPlaceholders = true
  empty : clause.sql = [] → layout = []

theorem Renders.empty_eq (renders : Renders clause layout) : clause.empty = layout.isEmpty := by
  cases layout with
  | nil =>
      rw [WhereClause.empty, renders.sql]
      rfl
  | cons _ _ =>
      rw [WhereClause.empty, List.isEmpty_eq_false_iff.mpr]
      · rfl
      · intro nothing
        cases renders.empty nothing

theorem Renders.validate (renders : Renders clause layout) (lacks : Lacks 63 layout) :
    validateWhereClause clause = .ok () := by
  have counted : countQuestionPlaceholders clause.sql = clause.params.length := by
    rw [renders.sql, renders.params]
    exact count_fill lacks 0
  simp only [validateWhereClause, renders.empty_eq, renders.rewrite, if_pos counted]
  cases layout with
  | nil =>
      rw [renders.params]
      rfl
  | cons _ _ => rfl

theorem numberQuestions_fill (lacks : Lacks 63 layout) (index other : ℕ) :
    numberQuestions index (fill (fun _ => [63]) other layout) =
      fill (placeholder .postgreSql) index layout := by
  induction layout generalizing index other with
  | nil => rfl
  | cons piece _ ih =>
      cases piece with
      | text symbols =>
          simp only [fill]
          rw [numberQuestions_append (lacks symbols List.mem_cons_self), ih lacks.of_cons]
      | hole _ =>
          simp only [fill, List.cons_append, List.nil_append, numberQuestions, if_true]
          rw [ih lacks.of_cons]
          rfl

theorem Renders.render (renders : Renders clause layout) (lacks : Lacks 63 layout)
    (backend : Backend) (start : ℕ) :
    renderWhereClause clause backend start = .ok (fill (placeholder backend) start layout) := by
  simp only [renderWhereClause, renders.validate lacks, renders.rewrite, if_true,
    renderQuestionPlaceholders, renders.sql]
  by_cases numbers : backend = .postgreSql
  · rw [if_pos numbers, numbers, questions, numberQuestions_fill lacks]
    rfl
  · rw [if_neg numbers, placeholder_of_ne numbers, questions, fill_const [63] layout 0 start]
    rfl

theorem checkWhereColumn_bind {next : Unit → Except Exn WhereClause}
    (built : (checkWhereColumn column >>= next) = .ok clause) :
    column ≠ [] ∧ next () = .ok clause := by
  cases column with
  | nil => cases built
  | cons byte rest => exact ⟨List.cons_ne_nil byte rest, built⟩

theorem clause_eq (comparison : Comparison) (column : Bytes) (value : Value) :
    comparison.clause column value = whereBinary column comparison.operator value := by
  cases comparison <;> rfl

theorem renders_of_column (named : column ≠ []) {text : Bytes} {params : List Value}
    (same : column ++ text = questions layout) (values : params = holes layout) :
    Renders { sql := column ++ text, params := params } layout where
  sql := same
  params := values
  rewrite := rfl
  empty nothing := absurd (List.append_eq_nil_iff.mp nothing).1 named

variable {op : Bytes} {α : Type} {composing : Composing} {columns : List Bytes}

theorem whereBinary_renders {value : Value} (built : whereBinary column op value = .ok clause) :
    Renders clause [.text (column ++ ascii " " ++ op ++ ascii " "), .hole value] := by
  rcases checkWhereColumn_bind built with ⟨named, made⟩
  cases made
  simp only [List.append_assoc]
  refine renders_of_column named ?_ rfl
  simp only [questions_text, questions_hole, List.append_assoc]
  rfl

theorem whereBetween_renders {low high : Value}
    (built : whereBetween column low high = .ok clause) :
    Renders clause
      [.text (column ++ ascii " BETWEEN "), .hole low, .text (ascii " AND "), .hole high] := by
  rcases checkWhereColumn_bind built with ⟨named, made⟩
  cases made
  refine renders_of_column named ?_ rfl
  simp only [questions_text, questions_hole, List.append_assoc]
  rfl

theorem holes_joined (separator : Bytes) (values : List Value) :
    holes (joined separator (values.map fun value => [.hole value])) = values := by
  induction values with
  | nil => rfl
  | cons value rest ih =>
      cases rest with
      | nil => rfl
      | cons _ _ => exact congrArg (value :: ·) ih

theorem whereIn_renders {column : Bytes} {values : List Value} {clause : WhereClause}
    (built : whereIn column values = .ok clause) :
    Renders clause (.text (column ++ ascii " IN (") ::
      joined (ascii ", ") (values.map fun value => [.hole value]) ++ [.text (ascii ")")]) := by
  rcases checkWhereColumn_bind built with ⟨named, made⟩
  split at made
  · cases made
  · cases made
    have marks : questionPlaceholders values.length =
        questions (joined (ascii ", ") (values.map fun value => [.hole value])) := by
      rw [questions_joined, List.map_map, questionPlaceholders]
      exact congrArg _ List.map_const'.symm
    simp only [List.append_assoc]
    apply renders_of_column named
    · simp only [List.cons_append, questions_text, questions_append, marks, List.append_assoc]
      rfl
    · simp [holes, holes_append, holes_joined]

theorem column_renders {text : Bytes}
    (built : (do checkWhereColumn column; pure { sql := column ++ text } :
      Except Exn WhereClause) = .ok clause) : Renders clause [.text (column ++ text)] := by
  rcases checkWhereColumn_bind built with ⟨named, made⟩
  cases made
  refine renders_of_column named ?_ rfl
  simp only [questions_text, List.append_assoc]
  exact congrArg (column ++ ·) (List.append_nil text).symm

theorem holes_parenthesized (layout : Layout) : holes (parenthesized layout) = holes layout := by
  simp [parenthesized, holes, holes_append]

theorem questions_parenthesized (layout : Layout) :
    questions (parenthesized layout) = ascii "(" ++ questions layout ++ ascii ")" := by
  simp only [parenthesized, List.cons_append, questions_text, questions_append, List.append_assoc]
  rfl

theorem whereNot_renders {built : WhereClause} (renders : Renders clause layout)
    (lacks : Lacks 63 layout) (negates : whereNot clause = .ok built) :
    Renders built (negated layout) := by
  simp only [whereNot, renders.validate lacks, renders.empty_eq] at negates
  cases layout with
  | nil =>
      cases negates
      exact renders
  | cons _ _ =>
      cases negates
      constructor
      · simp only [negated, List.isEmpty_cons, Bool.false_eq_true, if_false, questions_text,
          questions_parenthesized, renders.sql]
        rfl
      · exact renders.params.trans (holes_parenthesized _).symm
      · exact renders.rewrite
      · intro nothing
        cases nothing

theorem holes_joined_eq (separator : Bytes) (items : List Layout) :
    holes (joined separator items) = items.flatMap holes := by
  induction items with
  | nil => rfl
  | cons _ rest ih =>
      cases rest with
      | nil => simp [joined]
      | cons _ _ => simp [joined, holes_append, holes, ih]

theorem map_eq_of_forall₂ {β γ : Type} {related : α → β → Prop} {first : α → γ} {second : β → γ}
    {xs : List α} {ys : List β} (pairs : List.Forall₂ related xs ys)
    (same : ∀ x y, related x y → first x = second y) : xs.map first = ys.map second := by
  rw [← List.forall₂_eq_eq_eq, List.forall₂_map_left_iff, List.forall₂_map_right_iff]
  exact pairs.imp same

theorem whereCombine_renders {clauses : List WhereClause} {layouts : List Layout}
    (renders : List.Forall₂ (fun clause layout => Lacks 63 layout ∧ Renders clause layout)
      clauses layouts) :
    ∃ clause, whereCombine clauses op = .ok clause ∧ Renders clause (combined op layouts) := by
  have valid := ((List.forall₂_and_left _ _).mp (renders.imp fun clause layout made =>
    (⟨made.2.validate made.1, made⟩ : validateWhereClause clause = .ok () ∧ _))).1
  have written : List.Forall₂ Renders (writtenClauses clauses)
      (layouts.filter fun layout => !layout.isEmpty) := by
    refine List.rel_filter ?_ (renders.imp fun _ _ made => made.2)
    intro clause layout made
    simp only [made.empty_eq]
  have rewrites := ((List.forall₂_and_left _ _).mp (written.imp fun clause layout made =>
    (⟨made.rewrite, made⟩ : clause.rewriteQuestionPlaceholders = true ∧ _))).1
  have unbound : RawUnbound (writtenClauses clauses) := by
    intro clause member raw
    cases raw.symm.trans (rewrites clause member)
  rcases Appended.loop_ok valid (appended_nil op) unbound with ⟨last, ran⟩
  have appended := Appended.loop (appended_nil op) ran
  rw [List.nil_append] at appended
  refine ⟨_, whereCombine_eq_ok_iff.mpr ⟨last, ran, rfl⟩, ?_, ?_, ?_, ?_⟩
  · rw [combined, questions_joined, List.map_map]
    refine appended.sql.trans (congrArg _ (map_eq_of_forall₂ written fun clause layout made => ?_))
    rw [WhereClause.enclosed, made.sql]
    exact (questions_parenthesized layout).symm
  · rw [combined, holes_joined_eq, List.flatMap_def, List.map_map]
    refine appended.params.trans
      (congrArg _ (map_eq_of_forall₂ written fun clause layout made => ?_))
    exact made.params.trans (holes_parenthesized layout).symm
  · dsimp only
    cases head : (writtenClauses clauses).head? with
    | none =>
        rw [appended.opened (by simp [List.head?_eq_none_iff.mp head]), head]
        exact appended.unset
    | some clause =>
        have rewriting := rewrites clause (List.mem_of_mem_head? head)
        rw [appended.rewriteMode_eq_true_iff.mpr ⟨unbound, .inr ⟨clause, head, rewriting⟩⟩]
        rfl
  · intro nothing
    have none : writtenClauses clauses = [] := by
      by_contra some
      cases (List.isEmpty_iff.mpr nothing).symm.trans (appended.written some)
    rw [none, List.forall₂_nil_left_iff] at written
    rw [combined, written]
    rfl

theorem buildAll_forall {clauses : List WhereExpr} {built : List WhereClause}
    {good : WhereExpr → WhereClause → Prop} (ran : WhereExpr.buildAll clauses = .ok built)
    (each : ∀ expr ∈ clauses, ∀ clause, expr.build = .ok clause → good expr clause) :
    List.Forall₂ good clauses built := by
  induction clauses generalizing built with
  | nil =>
      cases ran
      exact .nil
  | cons expr rest ih =>
      simp only [WhereExpr.buildAll] at ran
      cases first : expr.build with
      | error error =>
          rw [first] at ran
          cases ran
      | ok clause =>
          cases others : WhereExpr.buildAll rest with
          | error _ =>
              rw [first, others] at ran
              cases ran
          | ok _ =>
              rw [first, others] at ran
              cases ran
              apply List.Forall₂.cons (each expr List.mem_cons_self clause first)
              exact ih others fun other mem => each other (List.mem_cons_of_mem expr mem)

/-- A where-expression over plain texts is rendered as its layout. -/
theorem build_renders (expr : WhereExpr) (plain : ∀ text ∈ expr.texts, Plain text) :
    ∀ clause, expr.build = .ok clause → Renders clause expr.layout := by
  induction expr using WhereExpr.nestedInduction with
  | compare _ _ _ =>
      intro clause built
      rw [WhereExpr.build, clause_eq] at built
      exact whereBinary_renders built
  | between _ _ _ =>
      intro clause built
      exact whereBetween_renders built
  | isIn _ _ =>
      intro clause built
      exact whereIn_renders built
  | isNull _ | isNotNull _ =>
      intro clause built
      exact column_renders built
  | not inner ih =>
      intro clause built
      simp only [WhereExpr.build] at built
      cases ran : inner.build with
      | error error =>
          rw [ran] at built
          cases built
      | ok negates =>
          rw [ran] at built
          exact whereNot_renders (ih plain negates ran) (sound_layout inner plain).question built
  | combine connective clauses ih =>
      intro clause built
      rw [WhereExpr.texts, WhereExpr.textsAll_eq] at plain
      have inside : ∀ expr ∈ clauses, ∀ text ∈ expr.texts, Plain text := by
        intro expr mem text written
        exact plain text (List.mem_flatMap.mpr ⟨expr, mem, written⟩)
      simp only [WhereExpr.build] at built
      cases ran : WhereExpr.buildAll clauses with
      | error _ =>
          rw [ran] at built
          cases built
      | ok parts =>
          rw [ran] at built
          have renders : List.Forall₂ (fun clause layout => Lacks 63 layout ∧ Renders clause layout)
              parts (clauses.map WhereExpr.layout) := by
            rw [List.forall₂_map_right_iff]
            exact (buildAll_forall ran fun expr mem part made =>
              ⟨(sound_layout expr (inside expr mem)).question,
                ih expr mem (inside expr mem) part made⟩).flip
          rcases whereCombine_renders renders with ⟨_, made, holds⟩
          have same : connective.clause parts = .ok clause := built
          rw [connective_clause_eq, made] at same
          cases same
          rw [WhereExpr.layout, WhereExpr.layouts_eq]
          exact holds

/-- A function throws for every backend alike, or the statement is the layout filled in. -/
def Sends (send : Backend → Except Exn Sent) (layout : Layout) : Prop :=
  (∃ error, ∀ backend, send backend = .error error) ∨
    ∀ backend, send backend = .ok (fill (placeholder backend) 1 layout, holes layout)

theorem Sends.bind {step : Except Exn α} {next : Backend → α → Except Exn Sent}
    (good : ∀ value, step = .ok value → Sends (fun backend => next backend value) layout) :
    Sends (fun backend => step >>= next backend) layout := by
  cases ran : step with
  | error error => exact .inl ⟨error, fun _ => rfl⟩
  | ok value => exact good value ran

theorem fill_keywordLayout (backend : Backend) (start : ℕ) (keyword : Bytes)
    (nonempty : layout.isEmpty = false) :
    fill (placeholder backend) start (keywordLayout keyword layout) =
      ascii " " ++ keyword ++ ascii " " ++ fill (placeholder backend) start layout := by
  simp [keywordLayout, nonempty, fill]

theorem holes_keywordLayout (keyword : Bytes) (layout : Layout) :
    holes (keywordLayout keyword layout) = holes layout := by
  cases layout with
  | nil | cons piece rest => rfl

theorem setSql_eq (backend : Backend) (columns : List Bytes) :
    ∀ (index : ℕ) (values : List Value), values.length = columns.length →
      setSql backend index columns = (if index = 0 ∨ columns = [] then [] else ascii ", ") ++
        fill (placeholder backend) (index + 1) (setLayout columns values) := by
  induction columns with
  | nil =>
      intro index values _
      simp [setSql, setLayout, joined, fill]
  | cons column rest ih =>
      intro index values same
      cases values with
      | nil => cases same
      | cons _ others =>
          have before : (if 0 < index then ascii ", " else []) =
              if index = 0 ∨ column :: rest = [] then [] else ascii ", " := by
            cases index with
            | zero => rfl
            | succ index => simp
          rw [setSql, before, ih (index + 1) others (Nat.succ.inj same)]
          cases rest with
          | nil =>
              cases others with
              | nil => simp [setLayout, joined, assignment, fill]
              | cons _ _ => cases same
          | cons _ _ =>
              cases others with
              | nil => cases same
              | cons _ _ => simp [setLayout, joined, assignment, fill]

theorem holes_setLayout (columns : List Bytes) :
    ∀ values : List Value, values.length = columns.length →
      holes (setLayout columns values) = values := by
  induction columns with
  | nil =>
      intro values same
      rw [List.length_eq_zero_iff.mp same]
      rfl
  | cons _ rest ih =>
      intro values same
      cases values with
      | nil => cases same
      | cons value others =>
          have inner := ih others (Nat.succ.inj same)
          cases rest with
          | nil =>
              cases others with
              | nil => rfl
              | cons _ _ => cases same
          | cons _ _ =>
              cases others with
              | nil => cases same
              | cons _ _ => exact congrArg (value :: ·) inner

theorem placeholders_eq (backend : Backend) (values : List Value) (start : ℕ) :
    placeholders backend values.length start = fill (placeholder backend) start
      (joined (ascii ", ") (values.map fun value => [.hole value])) := by
  induction values generalizing start with
  | nil => rfl
  | cons _ rest ih =>
      have shifted := ih (start + 1)
      cases rest with
      | nil => exact (List.append_nil _).symm
      | cons _ _ =>
          simp only [placeholders, List.length_cons, List.range'_succ, List.map_cons, separated,
            joined, List.cons_append, List.nil_append, fill, List.append_assoc] at shifted ⊢
          rw [shifted]

/-- A statement so far that is a layout filled in. -/
structure Composes (backend : Backend) (composing : Composing) (layout : Layout) : Prop where
  sql : composing.sql = fill (placeholder backend) 1 layout
  params : composing.params = holes layout
  index : composing.placeholderIndex = 1 + (holes layout).length

theorem Composes.text (composes : Composes backend composing layout) (text : Bytes) :
    Composes backend { composing with sql := composing.sql ++ text } (layout ++ [.text text]) where
  sql := by rw [fill_append, fill_text, composes.sql]
  params := by rw [holes_append, composes.params, holes, holes, List.append_nil]
  index := by rw [holes_append, composes.index, holes, holes, List.append_nil]

theorem Composes.optional (composes : Composes backend composing layout) {expr : Option WhereExpr}
    (plain : ∀ text ∈ expr.toList.flatMap WhereExpr.texts, Plain text) {clause : Option WhereClause}
    (built : buildOptional expr = .ok clause) (keyword : Bytes) :
    ∃ next, appendOptionalClause backend clause keyword composing = .ok next ∧
      Composes backend next (layout ++ optionalLayout keyword expr) := by
  cases expr with
  | none =>
      cases built
      refine ⟨composing, rfl, ?_⟩
      simpa [optionalLayout] using composes
  | some expr =>
      have texts : ∀ text ∈ expr.texts, Plain text := by simpa using plain
      simp only [buildOptional] at built
      cases ran : expr.build with
      | error _ =>
          rw [ran] at built
          cases built
      | ok made =>
          rw [ran] at built
          cases built
          have renders := build_renders expr texts made ran
          have lacks := (sound_layout expr texts).question
          cases nonempty : expr.layout.isEmpty with
          | true =>
              refine ⟨composing, ?_, ?_⟩
              · simp [appendOptionalClause, renders.empty_eq, nonempty]
              · simpa only [optionalLayout, keywordLayout, nonempty, if_true, List.append_nil]
                  using composes
          | false =>
              simp only [appendOptionalClause, renders.empty_eq, nonempty, Bool.false_eq_true,
                if_false, renders.render lacks]
              refine ⟨_, rfl, ?_, ?_, ?_⟩
              · rw [optionalLayout, fill_append, fill_keywordLayout _ _ _ nonempty, composes.sql,
                  composes.index]
                simp
              · rw [optionalLayout, holes_append, holes_keywordLayout, composes.params,
                  renders.params]
              · rw [optionalLayout, holes_append, holes_keywordLayout, composes.index,
                  renders.params, List.length_append, Nat.add_assoc]

theorem composes_text (backend : Backend) (text : Bytes) :
    Composes backend { sql := text } [.text text] where
  sql := (List.append_nil text).symm
  params := rfl
  index := rfl

theorem sends_select {base : TableMetaRuntime} {joins : List JoinSpec}
    {options : SelectOptions WhereExpr}
    (plain : ∀ text ∈ (Call.select base joins options).texts, Plain text) :
    Sends (fun backend => (Call.select base joins options).send backend)
      (Call.select base joins options).layout := by
  simp only [Call.texts, SelectOptions.texts, List.mem_append, List.mem_cons, or_imp,
    forall_and, forall_eq] at plain
  rcases plain with ⟨-, ⟨⟨⟨-, ofWhere⟩, -⟩, ofHaving⟩, -⟩
  apply Sends.bind
  intro _ builtWhere
  apply Sends.bind
  intro _ builtHaving
  apply Sends.bind
  intro _ _
  right
  intro backend
  have start := composes_text backend (selectFrom base joins options.selectExpr)
  rcases start.optional ofWhere builtWhere (ascii "WHERE") with ⟨_, ran, composes⟩
  rcases (composes.text (groupBySql options.groupBy)).optional ofHaving builtHaving
    (ascii "HAVING") with ⟨_, ranHaving, composes⟩
  have last := composes.text (orderBySql options.orderBy ++
    numberSql (ascii " LIMIT ") options.limit ++ numberSql (ascii " OFFSET ") options.offset)
  have layout : (Call.select base joins options).layout =
      [.text (selectFrom base joins options.selectExpr)] ++
        optionalLayout (ascii "WHERE") options.whereClause ++
        [.text (groupBySql options.groupBy)] ++ optionalLayout (ascii "HAVING") options.having ++
        [.text (orderBySql options.orderBy ++ numberSql (ascii " LIMIT ") options.limit ++
          numberSql (ascii " OFFSET ") options.offset)] := by
    simp [Call.layout]
  simp only [ran, ranHaving, bind, Except.bind]
  rw [layout, ← last.sql, ← last.params]
  simp only [List.append_assoc]
  rfl

theorem sends_filtered {front : Backend → Bytes}
    (written : ∀ backend, front backend = fill (placeholder backend) 1 layout)
    (supplied : holes layout = values) {expr : WhereExpr} (plain : ∀ text ∈ expr.texts, Plain text)
    (built : expr.build = .ok clause) (allowEmptyWhere : Bool) (message : String) :
    Sends (fun backend =>
      if clause.empty then
        if allowEmptyWhere then pure (front backend, values)
        else throw (.invalidArgument message)
      else do
        let rendered ← renderWhereClause clause backend (values.length + 1)
        pure (front backend ++ ascii " WHERE " ++ rendered, values ++ clause.params))
      (layout ++ keywordLayout (ascii "WHERE") expr.layout) := by
  have renders := build_renders expr plain clause built
  have lacks := (sound_layout expr plain).question
  simp only [renders.empty_eq]
  cases nonempty : expr.layout.isEmpty with
  | true =>
      cases allowEmptyWhere with
      | false => exact .inl ⟨_, fun _ => rfl⟩
      | true =>
          right
          intro _
          simp only [keywordLayout, nonempty, if_true, List.append_nil, written, supplied]
          rfl
  | false =>
      right
      intro _
      simp only [Bool.false_eq_true, if_false, renders.render lacks, written]
      rw [fill_append, fill_keywordLayout _ _ _ nonempty, holes_append, holes_keywordLayout,
        supplied, renders.params, Nat.add_comm 1]
      simp only [List.append_assoc]
      rfl

theorem checkPrimaryKey_ok {table : TableMetaRuntime} {key : Bytes}
    (checked : checkPrimaryKey table = .ok key) : table.primaryKey.getD [] = key := by
  simp only [checkPrimaryKey] at checked
  split at checked
  next found =>
    cases checked
    rw [found]
    rfl
  · cases checked

theorem checkSet_ok {done : Unit} (checked : checkSet columns values = .ok done) :
    values.length = columns.length := by
  simp only [checkSet] at checked
  split at checked
  · cases checked
  · split at checked
    · cases checked
    next same => exact not_not.mp same

theorem fill_setLayout (same : values.length = columns.length) (backend : Backend) (text : Bytes) :
    text ++ setSql backend 0 columns =
      fill (placeholder backend) 1 (.text text :: setLayout columns values) := by
  rw [setSql_eq backend columns 0 values same]
  rfl

/-- Every call over plain texts sends its layout, on either backend. -/
theorem sends_call (call : Call) (plain : ∀ text ∈ call.texts, Plain text) :
    Sends (fun backend => call.send backend) call.layout := by
  cases call with
  | select _ _ _ => exact sends_select plain
  | findByPk table _ =>
      apply Sends.bind
      intro _ _
      apply Sends.bind
      intro _ checked
      right
      intro backend
      simp only [Call.layout, checkPrimaryKey_ok checked, assignment, List.cons_append,
        List.nil_append, fill, holes, List.append_assoc, List.append_nil]
      rfl
  | insert table values =>
      apply Sends.bind
      intro _ _
      by_cases same : values.length = table.columns.length
      · right
        intro backend
        simp only [Call.layout, List.cons_append, fill, holes, fill_append, holes_append,
          holes_joined, ← placeholders_eq, List.append_assoc, List.append_nil, same, ne_eq,
          not_true_eq_false, if_false]
        rfl
      · left
        refine ⟨.invalidArgument "corouv::sql::orm insert values count does not match columns", ?_⟩
        intro backend
        simp only [ne_eq, same, not_false_eq_true, if_true]
        rfl
  | update table setColumns setValues _ allowEmptyWhere =>
      simp only [Call.texts, List.mem_append, or_imp, forall_and] at plain
      apply Sends.bind
      intro _ made
      apply Sends.bind
      intro _ _
      apply Sends.bind
      intro _ checked
      have same := checkSet_ok checked
      rw [← same]
      apply sends_filtered (fun backend => fill_setLayout same backend _) _ plain.2 made
      exact holes_setLayout setColumns setValues same
  | updateByPk table setColumns setValues _ =>
      apply Sends.bind
      intro _ _
      apply Sends.bind
      intro _ checkedKey
      apply Sends.bind
      intro _ checked
      have same := checkSet_ok checked
      right
      intro backend
      rw [Call.layout, fill_append, ← fill_setLayout same, holes_append,
        checkPrimaryKey_ok checkedKey]
      simp only [holes, holes_setLayout setColumns setValues same, assignment, fill,
        List.append_assoc, List.append_nil, same, Nat.add_comm 1]
      rfl
  | delete table _ allowEmptyWhere =>
      simp only [Call.texts, List.mem_append, or_imp, forall_and] at plain
      apply Sends.bind
      intro _ made
      apply Sends.bind
      intro _ _
      have front : ∀ backend, ascii "DELETE FROM " ++ table.table = fill (placeholder backend) 1
          ([.text (ascii "DELETE FROM " ++ table.table)] : Layout) := fun _ =>
        (List.append_nil _).symm
      exact sends_filtered front rfl plain.2 made allowEmptyWhere _
  | deleteByPk _ _ =>
      apply Sends.bind
      intro _ _
      apply Sends.bind
      intro _ checked
      right
      intro _
      simp only [Call.layout, checkPrimaryKey_ok checked, assignment, fill, holes,
        List.append_assoc, List.append_nil]
      rfl

/-- The statement sent to PostgreSQL has the placeholders from `$1` on, one for each parameter
and in their order; what the other backends are sent has question marks for them. -/
theorem placeholders_numbered (call : Call) (plain : ∀ text ∈ call.texts, Plain text) :
    (∃ error, ∀ backend, call.send backend = .error error) ∨
      ∃ sql params, call.send .postgreSql = .ok (sql, params) ∧
        marksIn 36 sql = List.range' 1 params.length ∧
        sql = fill (numbered 36) 1 call.layout ∧ params = holes call.layout ∧
        ∀ backend, backend ≠ .postgreSql →
          call.send backend = .ok (unnumber 36 63 sql, params) := by
  have sound := sound_callLayout call plain
  have notDigit : Numeral.digitValue 10 36 = none := by decide
  rcases sends_call call plain with fails | sends
  · exact .inl fails
  · right
    have sent := sends .postgreSql
    rw [placeholder_postgreSql] at sent
    refine ⟨_, _, sent, marksIn_fill notDigit sound.dollar sound.spaced 1, rfl, rfl, ?_⟩
    intro backend other
    refine (sends backend).trans ?_
    rw [placeholder_of_ne other, unnumber_fill notDigit 63 sound.dollar sound.spaced]

/-- An update of one column, with a clause of three placeholders. -/
def nameChange : Call :=
  .update { table := ascii "users", columns := [ascii "name"] } [ascii "name"]
    [.string (ascii "Ada")]
    (.combine .and [.compare .eq (ascii "id") (.int64 1),
      .isIn (ascii "age") [.int64 2, .int64 3]]) false

theorem placeholders_numbered_name_change :
    (∀ text ∈ nameChange.texts, Plain text) ∧ ∃ sql params,
      nameChange.send .postgreSql = .ok (sql, params) ∧
        marksIn 36 sql = List.range' 1 params.length ∧
        nameChange.send .sqlite = .ok (unnumber 36 63 sql, params) := by
  have plain : ∀ text ∈ nameChange.texts, Plain text := by decide
  refine ⟨plain, ?_⟩
  rcases placeholders_numbered nameChange plain with ⟨_, fails⟩ | ⟨sql, params, sent, rest⟩
  · cases fails .sqlite
  · exact ⟨sql, params, sent, rest.1, rest.2.2.2 .sqlite (by decide)⟩

example : nameChange.send .postgreSql =
    .ok (ascii "UPDATE users SET name = $1 WHERE (id = $2) AND (age IN ($3, $4))",
      [.string (ascii "Ada"), .int64 1, .int64 2, .int64 3]) := by
  rfl

end Corouv.Sql.Orm
