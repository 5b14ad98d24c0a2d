import Mathlib.Algebra.Order.BigOperators.Group.List
import Corouv.Library.Fold
import Corouv.Sql.Layout

/-!
# Clauses of both modes under one connective

The result of `where_combine` has one mode, that of the clauses with parameters, or of the first
clause when none has any.  The clauses of the other mode are then rendered by a mode they were
not written for, which goes unnoticed only as long as they have no question mark.
-/

namespace Corouv.Sql.Orm

open Library

/-- The clauses the loop of `where_combine` does not pass over. -/
def writtenClauses (clauses : List WhereClause) : List WhereClause :=
  clauses.filter fun clause => !clause.empty

def spaced (op : Bytes) : Bytes :=
  ascii " " ++ op ++ ascii " "

def WhereClause.enclosed (clause : WhereClause) : Bytes :=
  ascii "(" ++ clause.sql ++ ascii ")"

/-- The clauses in parentheses, where a clause has its question marks numbered if it is itself
in rewrite mode. -/
def enclosedApart : ℕ → List WhereClause → List Bytes
  | _, [] => []
  | index, clause :: rest =>
      if clause.rewriteQuestionPlaceholders then
        (ascii "(" ++ numberQuestions index clause.sql ++ ascii ")") ::
          enclosedApart (index + countQuestionPlaceholders clause.sql) rest
      else clause.enclosed :: enclosedApart index rest

structure Composed (op : Bytes) (clauses : List WhereClause) (out : WhereClause) : Prop where
  valid : validateWhereClause out = .ok ()
  params : out.params = (writtenClauses clauses).flatMap WhereClause.params
  rendered : ∀ startIndex,
    renderWhereClause out .postgreSql startIndex =
      .ok (separated (spaced op) (enclosedApart startIndex (writtenClauses clauses)))

/-- A call that does not throw returns the clauses composed. -/
def Connective.Composes (connective : Connective) (clauses : List WhereClause) : Prop :=
  ∀ out, connective.clause clauses = .ok out → Composed connective.operator clauses out

/-- Only clauses in rewrite mode have parameters. -/
def RawUnbound (clauses : List WhereClause) : Prop :=
  ∀ clause ∈ clauses, clause.rewriteQuestionPlaceholders = false → clause.params = []

/-- A clause with parameters, or the first one, is in rewrite mode. -/
def Rewriting (clauses : List WhereClause) : Prop :=
  (∃ clause ∈ clauses, clause.rewriteQuestionPlaceholders = true ∧ clause.params ≠ []) ∨
    ∃ clause ∈ clauses.head?, clause.rewriteQuestionPlaceholders = true

/-- The result is in rewrite mode, and a clause that is not has a question mark. -/
structure Misread (clauses : List WhereClause) : Prop where
  unbound : RawUnbound (writtenClauses clauses)
  rewrites : Rewriting (writtenClauses clauses)
  question : ∃ clause ∈ writtenClauses clauses,
    clause.rewriteQuestionPlaceholders = false ∧ 63 ∈ clause.sql

theorem separated_concat (separator : Bytes) (items : List Bytes) (item : Bytes) :
    separated separator (items ++ [item]) =
      separated separator items ++ (if items.isEmpty then [] else separator) ++ item := by
  induction items with
  | nil => rfl
  | cons _ rest ih =>
      cases rest with
      | nil => simp [separated]
      | cons _ _ =>
          simp only [List.cons_append, separated, List.isEmpty_cons, Bool.false_eq_true, if_false,
            List.append_assoc] at ih ⊢
          rw [ih]

theorem separated_cons_append (separator item : Bytes) (rest : List Bytes) :
    separated separator (item :: rest) =
      item ++ ((if rest.isEmpty then [] else separator) ++ separated separator rest) := by
  cases rest with
  | nil | cons next later => simp [separated]

theorem numberQuestions_append {front : Bytes} (lacks : 63 ∉ front) (index : ℕ) (back : Bytes) :
    numberQuestions index (front ++ back) = front ++ numberQuestions index back := by
  induction front with
  | nil => rfl
  | cons _ _ ih =>
      rw [List.mem_cons, not_or] at lacks
      simp [numberQuestions, if_neg (Ne.symm lacks.1), ih lacks.2]

theorem numberQuestions_append_count (index : ℕ) (front back : Bytes) :
    numberQuestions index (front ++ back) =
      numberQuestions index front ++
        numberQuestions (index + countQuestionPlaceholders front) back := by
  induction front generalizing index with
  | nil => rfl
  | cons byte rest ih =>
      simp only [List.cons_append, numberQuestions, countQuestionPlaceholders] at ih ⊢
      by_cases question : byte = 63
      · have counted : index + 1 + rest.count 63 = index + (byte :: rest).count 63 := by
          rw [question, List.count_cons_self]
          omega
        simp [if_pos question, ih, counted]
      · have counted : (byte :: rest).count 63 = rest.count 63 := List.count_cons_of_ne question
        simp [if_neg question, ih, counted]

theorem numberQuestions_of_notMem {sql : Bytes} (lacks : 63 ∉ sql) (index : ℕ) :
    numberQuestions index sql = sql := by
  have numbered := numberQuestions_append lacks index []
  rwa [List.append_nil, numberQuestions, List.append_nil] at numbered

theorem questionless_operator (connective : Connective) : 63 ∉ spaced connective.operator := by
  cases connective <;> decide

theorem numberQuestions_enclosed (index : ℕ) (clause : WhereClause) :
    numberQuestions index clause.enclosed =
      ascii "(" ++ numberQuestions index clause.sql ++ ascii ")" := by
  have close : (63 : UInt8) ∉ ascii ")" := by decide
  rw [WhereClause.enclosed, List.append_assoc, numberQuestions_append (by decide),
    numberQuestions_append_count, numberQuestions_of_notMem close, List.append_assoc]

theorem count_enclosed (clause : WhereClause) :
    clause.enclosed.count 63 = countQuestionPlaceholders clause.sql := by
  have opens : (ascii "(").count 63 = 0 := by decide
  have closes : (ascii ")").count 63 = 0 := by decide
  rw [WhereClause.enclosed, List.count_append, List.count_append, opens, closes,
    countQuestionPlaceholders]
  omega

variable {separator : Bytes} {clauses : List WhereClause}

theorem count_separated_enclosed (lacks : 63 ∉ separator) (clauses : List WhereClause) :
    (separated separator (clauses.map WhereClause.enclosed)).count 63 =
      (clauses.map fun clause => countQuestionPlaceholders clause.sql).sum := by
  induction clauses with
  | nil => rfl
  | cons _ rest ih =>
      have between :
          (if (rest.map WhereClause.enclosed).isEmpty then [] else separator).count 63 = 0 := by
        split
        · rfl
        · exact List.count_eq_zero_of_not_mem lacks
      rw [List.map_cons, separated_cons_append, List.count_append, List.count_append, between, ih,
        count_enclosed, List.map_cons, List.sum_cons]
      omega

/-- The clauses of the other mode have no question mark. -/
def Indifferent (mode : Bool) (clauses : List WhereClause) : Prop :=
  ∀ clause ∈ clauses, clause.rewriteQuestionPlaceholders ≠ mode → 63 ∉ clause.sql

theorem Indifferent.of_cons {mode : Bool} {clause : WhereClause} {rest : List WhereClause}
    (indifferent : Indifferent mode (clause :: rest)) : Indifferent mode rest := by
  intro other member
  exact indifferent other (List.mem_cons_of_mem clause member)

theorem isEmpty_enclosedApart (index : ℕ) (clauses : List WhereClause) :
    (enclosedApart index clauses).isEmpty = clauses.isEmpty := by
  cases clauses with
  | nil => rfl
  | cons _ _ =>
      simp only [enclosedApart]
      split <;> rfl

theorem Indifferent.numberQuestions (lacks : 63 ∉ separator)
    (indifferent : Indifferent true clauses) (index : ℕ) :
    numberQuestions index (separated separator (clauses.map WhereClause.enclosed)) =
      separated separator (enclosedApart index clauses) := by
  induction clauses generalizing index with
  | nil => rfl
  | cons clause rest ih =>
      have between : 63 ∉ (if (rest.map WhereClause.enclosed).isEmpty then [] else separator) := by
        split
        · exact List.not_mem_nil
        · exact lacks
      have step : Orm.numberQuestions index
          (separated separator ((clause :: rest).map WhereClause.enclosed)) =
          Orm.numberQuestions index clause.enclosed ++ ((if rest.isEmpty then [] else separator) ++
              separated separator
                (enclosedApart (index + countQuestionPlaceholders clause.sql) rest)) := by
        rw [List.map_cons, separated_cons_append, numberQuestions_append_count,
          numberQuestions_append between, countQuestionPlaceholders, count_enclosed,
          ih indifferent.of_cons, List.isEmpty_map]
      rw [step, enclosedApart]
      by_cases rewrites : clause.rewriteQuestionPlaceholders = true
      · rw [if_pos rewrites, separated_cons_append, isEmpty_enclosedApart, numberQuestions_enclosed]
      · have plain : 63 ∉ clause.sql := indifferent clause List.mem_cons_self rewrites
        have none : countQuestionPlaceholders clause.sql = 0 := List.count_eq_zero_of_not_mem plain
        rw [if_neg rewrites, separated_cons_append, isEmpty_enclosedApart,
          numberQuestions_enclosed, numberQuestions_of_notMem plain, none]
        rfl

theorem Indifferent.enclosedApart_eq (indifferent : Indifferent false clauses) (index : ℕ) :
    enclosedApart index clauses = clauses.map WhereClause.enclosed := by
  induction clauses generalizing index with
  | nil => rfl
  | cons clause _ ih =>
      rw [enclosedApart, List.map_cons]
      by_cases rewrites : clause.rewriteQuestionPlaceholders = true
      · have plain : 63 ∉ clause.sql := by
          apply indifferent clause List.mem_cons_self
          rw [rewrites]
          decide
        rw [if_pos rewrites, ih indifferent.of_cons, numberQuestions_of_notMem plain]
        rfl
      · rw [if_neg rewrites, ih indifferent.of_cons]

/-- The variables of the loop once it has appended these clauses.  A clause with parameters has
the mode of the loop, which is that of the first clause as long as there is none. -/
structure Appended (op : Bytes) (acc : Combining) (clauses : List WhereClause) : Prop where
  sql : acc.out.sql = separated (spaced op) (clauses.map WhereClause.enclosed)
  params : acc.out.params = clauses.flatMap WhereClause.params
  first : acc.first = clauses.isEmpty
  unset : acc.out.rewriteQuestionPlaceholders = true
  started : acc.rewriteMode = none → clauses = []
  settled : ∀ mode ∈ acc.rewriteMode, ∀ clause ∈ clauses,
    clause.params ≠ [] → clause.rewriteQuestionPlaceholders = mode
  opened : (∀ clause ∈ clauses, clause.params = []) →
    acc.rewriteMode = clauses.head?.map WhereClause.rewriteQuestionPlaceholders

section Loop

variable {op : Bytes} {acc next : Combining} {clause : WhereClause} {clauses : List WhereClause}

theorem appended_nil (op : Bytes) : Appended op {} [] := by
  constructor
  · rfl
  · rfl
  · rfl
  · rfl
  · intro _
    rfl
  · intro _ chosen
    cases chosen
  · intro _
    rfl

theorem Combining.mode_eq_ok_iff {mode : Bool} :
    acc.mode clause = .ok mode ↔
      (acc.rewriteMode = some mode ∧
        (mode = clause.rewriteQuestionPlaceholders ∨ clause.params = [])) ∨
      (mode = clause.rewriteQuestionPlaceholders ∧
        (acc.rewriteMode = none ∨
          (acc.out.params = [] ∧ clause.params ≠ [] ∧
            acc.rewriteMode = some (!clause.rewriteQuestionPlaceholders)))) := by
  rw [Combining.mode]
  cases acc.rewriteMode with
  | none => simp [eq_comm]
  | some chosen =>
      cases clause.params <;> cases acc.out.params <;> cases chosen <;>
        cases clause.rewriteQuestionPlaceholders <;> cases mode <;> simp

theorem combineTurn_eq_ok (written : clause.empty = false)
    (ran : combineTurn op acc clause = .ok next) :
    ∃ mode, acc.mode clause = .ok mode ∧
      next =
        { out :=
            { acc.out with
              sql := acc.out.sql ++ (if acc.first then [] else spaced op) ++ clause.enclosed
              params := acc.out.params ++ clause.params }
          first := false, rewriteMode := some mode } := by
  simp only [combineTurn, written, Bool.false_eq_true, if_false] at ran
  rcases except_bind_eq_ok.mp ran with ⟨_, _, chooses⟩
  rcases except_bind_eq_ok.mp chooses with ⟨mode, chosen, appends⟩
  refine ⟨mode, chosen, ?_⟩
  cases appends
  simp [spaced, WhereClause.enclosed]

theorem Appended.turn (appended : Appended op acc clauses) (written : clause.empty = false)
    (ran : combineTurn op acc clause = .ok next) : Appended op next (clauses ++ [clause]) := by
  rcases combineTurn_eq_ok written ran with ⟨mode, chosen, rfl⟩
  rw [Combining.mode_eq_ok_iff] at chosen
  constructor
  · rw [List.map_append, List.map_singleton, separated_concat, List.isEmpty_map, ← appended.sql,
      ← appended.first]
  · simp [appended.params]
  · simp
  · exact appended.unset
  · intro none
    cases none
  · intro _ same other member bound
    cases Option.some.inj same
    rw [List.mem_append, List.mem_singleton] at member
    rcases member with earlier | rfl
    · rcases chosen with ⟨stays, _⟩ | ⟨_, none | ⟨empty, _⟩⟩
      · exact appended.settled mode stays other earlier bound
      · rw [appended.started none] at earlier
        cases earlier
      · rw [appended.params, List.flatMap_eq_nil_iff] at empty
        exact absurd (empty other earlier) bound
    · rcases chosen with ⟨_, same | empty⟩ | ⟨same, _⟩
      · exact same.symm
      · exact absurd empty bound
      · exact same.symm
  · intro unbound
    have earlier : ∀ other ∈ clauses, other.params = [] := by
      intro other member
      exact unbound other (List.mem_append_left [clause] member)
    have opened := appended.opened earlier
    have empty : clause.params = [] := unbound clause (List.mem_append_right clauses (by simp))
    rcases chosen with ⟨stays, _⟩ | ⟨same, none | ⟨_, bound, _⟩⟩
    · rw [stays] at opened
      cases clauses with
      | nil => cases opened
      | cons _ _ => exact opened
    · rw [appended.started none, same]
      rfl
    · exact absurd empty bound

theorem writtenClauses_cons_of_empty (empty : clause.empty = true)
    (rest : List WhereClause) : writtenClauses (clause :: rest) = writtenClauses rest := by
  simp [writtenClauses, empty]

theorem writtenClauses_cons (written : clause.empty = false)
    (rest : List WhereClause) :
    writtenClauses (clause :: rest) = clause :: writtenClauses rest := by
  simp [writtenClauses, written]

theorem Appended.loop :
    ∀ {acc last : Combining} {earlier : List WhereClause}, Appended op acc earlier →
      clauses.foldlM (combineTurn op) acc = .ok last →
      Appended op last (earlier ++ writtenClauses clauses) := by
  induction clauses with
  | nil =>
      intro acc _ _ appended ran
      cases ran
      simpa [writtenClauses] using appended
  | cons clause _ ih =>
      intro acc _ _ appended ran
      rcases except_bind_eq_ok.mp ran with ⟨next, turn, later⟩
      cases empty : clause.empty with
      | true =>
          have same : next = acc := by
            rw [combineTurn, if_pos empty] at turn
            exact (Except.ok.inj turn).symm
          rw [same] at later
          rw [writtenClauses_cons_of_empty empty]
          exact ih appended later
      | false =>
          rw [writtenClauses_cons empty, ← List.singleton_append, ← List.append_assoc]
          exact ih (appended.turn empty turn) later

theorem Appended.mode_ok (appended : Appended op acc clauses)
    (unbound : RawUnbound (clauses ++ [clause])) : ∃ mode, acc.mode clause = .ok mode := by
  cases chosen : acc.rewriteMode with
  | none => exact ⟨_, Combining.mode_eq_ok_iff.mpr (.inr ⟨rfl, .inl chosen⟩)⟩
  | some mode =>
      by_cases same : mode = clause.rewriteQuestionPlaceholders
      · exact ⟨mode, Combining.mode_eq_ok_iff.mpr (.inl ⟨chosen, .inl same⟩)⟩
      · by_cases bare : clause.params = []
        · exact ⟨mode, Combining.mode_eq_ok_iff.mpr (.inl ⟨chosen, .inr bare⟩)⟩
        · -- the clause is in rewrite mode, so the loop is not and no parameter is there yet
          have rewrites : clause.rewriteQuestionPlaceholders = true := by
            by_contra raw
            rw [Bool.not_eq_true] at raw
            exact bare (unbound clause (List.mem_append_right clauses (by simp)) raw)
          have raw : mode = false := by
            rw [rewrites] at same
            exact Bool.eq_false_of_not_eq_true same
          have none : acc.out.params = [] := by
            rw [appended.params, List.flatMap_eq_nil_iff]
            intro other member
            by_contra bound
            have kept := unbound other (List.mem_append_left [clause] member)
            exact bound (kept ((appended.settled mode chosen other member bound).trans raw))
          refine ⟨true, Combining.mode_eq_ok_iff.mpr (.inr ⟨rewrites.symm, .inr ⟨none, bare, ?_⟩⟩)⟩
          rw [chosen, rewrites, raw]
          rfl

/-- Valid clauses are all combined if only those in rewrite mode have parameters. -/
theorem Appended.loop_ok
    (valid : ∀ clause ∈ clauses, validateWhereClause clause = .ok ()) :
    ∀ {acc : Combining} {earlier : List WhereClause}, Appended op acc earlier →
      RawUnbound (earlier ++ writtenClauses clauses) →
      ∃ last, clauses.foldlM (combineTurn op) acc = .ok last := by
  induction clauses with
  | nil =>
      intro acc earlier _ _
      exact ⟨acc, rfl⟩
  | cons clause rest ih =>
      intro acc earlier appended unbound
      have validRest : ∀ other ∈ rest, validateWhereClause other = .ok () := by
        intro other member
        exact valid other (List.mem_cons_of_mem clause member)
      cases empty : clause.empty with
      | true =>
          rw [writtenClauses_cons_of_empty empty] at unbound
          rcases ih validRest appended unbound with ⟨last, ran⟩
          refine ⟨last, ?_⟩
          rw [List.foldlM_cons, combineTurn, if_pos empty]
          exact ran
      | false =>
          rw [writtenClauses_cons empty, ← List.singleton_append, ← List.append_assoc] at unbound
          have before : RawUnbound (earlier ++ [clause]) := fun other member =>
            unbound other (List.mem_append_left _ member)
          rcases appended.mode_ok before with ⟨_, chosen⟩
          have turn : ∃ next, combineTurn op acc clause = .ok next := by
            simp only [combineTurn, empty, Bool.false_eq_true, if_false,
              valid clause List.mem_cons_self, chosen]
            exact ⟨_, rfl⟩
          rcases turn with ⟨_, turn⟩
          rcases ih validRest (appended.turn empty turn) unbound with ⟨last, ran⟩
          refine ⟨last, ?_⟩
          rw [List.foldlM_cons, turn]
          exact ran

theorem Appended.written (appended : Appended op acc clauses) (some : clauses ≠ []) :
    acc.out.empty = false := by
  rw [WhereClause.empty, appended.sql]
  cases clauses with
  | nil => exact absurd rfl some
  | cons _ _ =>
      rw [List.map_cons, separated_cons_append]
      rfl

theorem Appended.rewriteMode_eq_true_iff (appended : Appended op acc clauses) :
    acc.rewriteMode = some true ↔ RawUnbound clauses ∧ Rewriting clauses := by
  constructor
  · intro rewrites
    constructor
    · intro clause member raw
      by_contra bound
      rw [appended.settled true rewrites clause member bound] at raw
      cases raw
    · by_cases unbound : ∀ clause ∈ clauses, clause.params = []
      · right
        have opened := (appended.opened unbound).symm.trans rewrites
        rcases Option.map_eq_some_iff.mp opened with ⟨clause, head, same⟩
        exact ⟨clause, head, same⟩
      · left
        push Not at unbound
        rcases unbound with ⟨clause, member, bound⟩
        exact ⟨clause, member, appended.settled true rewrites clause member bound, bound⟩
  · rintro ⟨unbound, rewrites⟩
    have decided : ∀ clause ∈ clauses, clause.params ≠ [] → acc.rewriteMode = some true := by
      intro clause member bound
      cases chosen : acc.rewriteMode with
      | none =>
          rw [appended.started chosen] at member
          cases member
      | some mode =>
          have same := appended.settled mode chosen clause member bound
          cases mode with
          | true => rfl
          | false => exact absurd (unbound clause member same) bound
    rcases rewrites with ⟨clause, member, _, bound⟩ | ⟨clause, head, same⟩
    · exact decided clause member bound
    · by_cases bare : ∀ clause ∈ clauses, clause.params = []
      · rw [appended.opened bare, Option.mem_def.mp head, Option.map_some, same]
      · push Not at bare
        rcases bare with ⟨other, member, bound⟩
        exact decided other member bound

end Loop

theorem connective_clause_eq (connective : Connective) (clauses : List WhereClause) :
    connective.clause clauses = whereCombine clauses connective.operator := by
  cases connective <;> rfl

theorem whereCombine_eq_ok_iff {op : Bytes} {clauses : List WhereClause} {out : WhereClause} :
    whereCombine clauses op = .ok out ↔
      ∃ last, clauses.foldlM (combineTurn op) {} = .ok last ∧
        out = { last.out with
          rewriteQuestionPlaceholders :=
            last.rewriteMode.getD last.out.rewriteQuestionPlaceholders } := by
  rw [whereCombine, except_bind_eq_ok]
  constructor
  · rintro ⟨last, ran, ends⟩
    refine ⟨last, ran, ?_⟩
    cases chosen : last.rewriteMode with
    | none | some mode =>
        rw [chosen] at ends
        exact (Except.ok.inj ends).symm
  · rintro ⟨last, ran, rfl⟩
    refine ⟨last, ran, ?_⟩
    cases last.rewriteMode with
    | none | some mode => rfl

variable {clause : WhereClause}

theorem count_eq_of_valid (valid : validateWhereClause clause = .ok ())
    (rewrites : clause.rewriteQuestionPlaceholders = true) :
    countQuestionPlaceholders clause.sql = clause.params.length := by
  rw [validateWhereClause] at valid
  by_cases empty : clause.empty = true
  · have nothing : clause.sql = [] := List.isEmpty_iff.mp empty
    rw [if_pos empty] at valid
    cases bare : clause.params with
    | nil => rw [nothing]; rfl
    | cons _ _ =>
        rw [bare] at valid
        cases valid
  · rw [if_neg empty, if_neg (by simp [rewrites])] at valid
    by_contra differ
    rw [if_neg differ] at valid
    cases valid

theorem validateWhereClause_of_count
    (counted : countQuestionPlaceholders clause.sql = clause.params.length) :
    validateWhereClause clause = .ok () := by
  rw [validateWhereClause]
  by_cases empty : clause.empty = true
  · have nothing : clause.sql = [] := List.isEmpty_iff.mp empty
    have bare : clause.params = [] := by
      rw [nothing] at counted
      exact List.length_eq_zero_iff.mp counted.symm
    rw [if_pos empty, bare]
    rfl
  · rw [if_neg empty, if_pos counted]
    exact ite_self _

theorem validateWhereClause_of_raw (written : clause.empty = false)
    (raw : clause.rewriteQuestionPlaceholders = false) : validateWhereClause clause = .ok () := by
  simp [validateWhereClause, written, raw]

section Result

variable {connective : Connective} {last : Combining} {clauses : List WhereClause}

variable (appended : Appended connective.operator last clauses)
include appended

theorem Appended.count_eq_sum :
    countQuestionPlaceholders last.out.sql =
      (clauses.map fun clause => countQuestionPlaceholders clause.sql).sum := by
  rw [appended.sql, countQuestionPlaceholders,
    count_separated_enclosed (questionless_operator connective)]

theorem Appended.length_eq_sum :
    last.out.params.length = (clauses.map fun clause => clause.params.length).sum := by
  rw [appended.params, List.length_flatMap]

/-- In rewrite mode no parameter is without its question mark, so the numbers agree only if no
question mark is without its parameter. -/
theorem Appended.count_eq_length_iff
    (valid : ∀ clause ∈ clauses, validateWhereClause clause = .ok ())
    (rewrites : last.rewriteMode = some true) :
    countQuestionPlaceholders last.out.sql = last.out.params.length ↔ Indifferent true clauses := by
  rw [appended.count_eq_sum, appended.length_eq_sum]
  have unbound := (appended.rewriteMode_eq_true_iff.mp rewrites).1
  constructor
  · intro _ clause member raw question
    rw [ne_eq, Bool.not_eq_true] at raw
    have fewer : ∀ other ∈ clauses, other.params.length ≤ countQuestionPlaceholders other.sql := by
      intro other mem
      cases mode : other.rewriteQuestionPlaceholders with
      | true => exact (count_eq_of_valid (valid other mem) mode).ge
      | false =>
          rw [unbound other mem mode]
          exact Nat.zero_le _
    have strictly : clause.params.length < countQuestionPlaceholders clause.sql := by
      rw [unbound clause member raw]
      exact List.count_pos_iff.mpr question
    have less := List.sum_lt_sum (fun other : WhereClause => other.params.length)
      (fun other => countQuestionPlaceholders other.sql) fewer ⟨clause, member, strictly⟩
    omega
  · intro indifferent
    apply congrArg List.sum
    apply List.map_congr_left
    intro clause member
    cases mode : clause.rewriteQuestionPlaceholders with
    | true => exact count_eq_of_valid (valid clause member) mode
    | false =>
        rw [unbound clause member mode]
        apply List.count_eq_zero_of_not_mem
        apply indifferent clause member
        rw [mode]
        decide

theorem Appended.indifferent_of_raw
    (valid : ∀ clause ∈ clauses, validateWhereClause clause = .ok ())
    (raw : last.rewriteMode = some false) : Indifferent false clauses := by
  intro clause member rewrites question
  rw [ne_eq, Bool.not_eq_false] at rewrites
  have counted := count_eq_of_valid (valid clause member) rewrites
  have bound : clause.params ≠ [] := by
    intro bare
    have positive : 0 < countQuestionPlaceholders clause.sql := List.count_pos_iff.mpr question
    rw [counted, bare] at positive
    cases positive
  rw [appended.settled false raw clause member bound] at rewrites
  cases rewrites

end Result

theorem Appended.composed {connective : Connective} {last : Combining} {clauses : List WhereClause}
    (appended : Appended connective.operator last (writtenClauses clauses)) {mode : Bool}
    (indifferent : Indifferent mode (writtenClauses clauses))
    (valid : validateWhereClause { last.out with rewriteQuestionPlaceholders := mode } = .ok ()) :
    Composed connective.operator clauses
      { last.out with rewriteQuestionPlaceholders := mode } := by
  constructor
  · exact valid
  · exact appended.params
  · intro startIndex
    rw [renderWhereClause, valid]
    cases mode with
    | true =>
        have numbered := indifferent.numberQuestions (questionless_operator connective) startIndex
        rw [← appended.sql] at numbered
        exact congrArg Except.ok numbered
    | false =>
        rw [indifferent.enclosedApart_eq, ← appended.sql]
        rfl

/-- Accepted clauses are composed by either connective unless the result is in rewrite mode and
a clause that is not has a question mark. -/
theorem composes_iff_not_misread (connective : Connective) (clauses : List WhereClause)
    (valid : ∀ clause ∈ clauses, validateWhereClause clause = .ok ()) :
    connective.Composes clauses ↔ ¬Misread clauses := by
  have validWritten : ∀ clause ∈ writtenClauses clauses, validateWhereClause clause = .ok () := by
    intro clause member
    exact valid clause (List.mem_of_mem_filter member)
  constructor
  · intro composes misread
    rcases Appended.loop_ok valid (appended_nil connective.operator) misread.unbound with
      ⟨last, ran⟩
    have appended := Appended.loop (appended_nil connective.operator) ran
    rw [List.nil_append] at appended
    have rewrites := appended.rewriteMode_eq_true_iff.mpr ⟨misread.unbound, misread.rewrites⟩
    have composed := composes _ ((connective_clause_eq connective clauses).trans
      (whereCombine_eq_ok_iff.mpr ⟨last, ran, rfl⟩))
    rw [rewrites, Option.getD_some] at composed
    have counted := count_eq_of_valid composed.valid rfl
    rcases misread.question with ⟨clause, member, raw, question⟩
    have plain := (appended.count_eq_length_iff validWritten rewrites).mp counted clause member
    exact plain (by rw [raw]; decide) question
  · intro fine _ ran
    rw [connective_clause_eq] at ran
    rcases whereCombine_eq_ok_iff.mp ran with ⟨last, loop, rfl⟩
    have appended := Appended.loop (appended_nil connective.operator) loop
    rw [List.nil_append] at appended
    cases chosen : last.rewriteMode with
    | none =>
        have nothing := appended.started chosen
        rw [Option.getD_none]
        apply appended.composed
        · rw [nothing]
          exact List.forall_mem_nil _
        · apply validateWhereClause_of_count
          rw [appended.sql, appended.params, nothing]
          rfl
    | some mode =>
        rw [Option.getD_some]
        cases mode with
        | true =>
            have indifferent : Indifferent true (writtenClauses clauses) := by
              intro clause member raw question
              rcases appended.rewriteMode_eq_true_iff.mp chosen with ⟨unbound, rewrites⟩
              rw [ne_eq, Bool.not_eq_true] at raw
              exact fine ⟨unbound, rewrites, clause, member, raw, question⟩
            apply appended.composed indifferent
            apply validateWhereClause_of_count
            exact (appended.count_eq_length_iff validWritten chosen).mpr indifferent
        | false =>
            apply appended.composed (appended.indifferent_of_raw validWritten chosen)
            apply validateWhereClause_of_raw _ rfl
            apply appended.written
            intro nothing
            rw [appended.opened (by simp [nothing]), nothing] at chosen
            cases chosen

/-- The operator of PostgreSQL that asks whether a key is there, beside a comparison. -/
def keyAndId : List WhereClause :=
  [whereRaw (ascii "tags ? 'new'") [] false, whereRaw (ascii "id = ?") [.int64 7] true]

/-- The operator is counted as a placeholder once the clauses are combined. -/
theorem keyAndId_not_composed :
    (∀ clause ∈ keyAndId, validateWhereClause clause = .ok ()) ∧
      (∃ out, whereAnd keyAndId = .ok out ∧ validateWhereClause out =
        .error (.invalidArgument "corouv::sql::orm where clause placeholder count mismatch")) ∧
      ¬Connective.and.Composes keyAndId := by
  refine ⟨?_, ⟨_, rfl, rfl⟩, ?_⟩
  · intro _ member
    rcases List.mem_pair.mp member with rfl | rfl
    · rfl
    · rfl
  · intro composes
    cases (composes _ rfl).valid

/-- With its own mode for the operator, and the comparison in the same mode. -/
def keyAndNumberedId : List WhereClause :=
  [whereRaw (ascii "tags ? 'new'") [] false, whereRaw (ascii "id = $1") [.int64 7] false]

theorem keyAndNumberedId_composed :
    (∀ clause ∈ keyAndNumberedId, validateWhereClause clause = .ok ()) ∧
      ¬Misread keyAndNumberedId ∧ Connective.and.Composes keyAndNumberedId := by
  have valid : ∀ clause ∈ keyAndNumberedId, validateWhereClause clause = .ok () := by
    intro _ member
    rcases List.mem_pair.mp member with rfl | rfl
    · rfl
    · rfl
  have fine : ¬Misread keyAndNumberedId := by
    intro misread
    cases misread.unbound (whereRaw (ascii "id = $1") [.int64 7] false) (by simp [writtenClauses,
      keyAndNumberedId, WhereClause.empty, whereRaw, ascii]) rfl
  exact ⟨valid, fine, (composes_iff_not_misread .and keyAndNumberedId valid).mpr fine⟩

end Corouv.Sql.Orm
