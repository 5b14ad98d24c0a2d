import Mathlib.Data.List.Infix
import Corouv.Base
import Corouv.Library.Fold

/-!
# Matching routes

`request_path`, `split_path_segments`, `match_route` and `strip_matched_prefix` of `web.h`.
A pattern and a path are compared segment by segment, so a pattern `P/Q` matches a path
exactly if `P` matches its first segments and `Q` the others.  That is what mounting relies on:
it matches `P`, rewrites the target to the segments that are left and matches `Q` against them.
-/

namespace Corouv.Web

open Library

structure Param where
  name : Bytes
  value : Bytes
  deriving DecidableEq, Repr

abbrev Params := List Param

def requestPath (target : Bytes) : Bytes :=
  target.take ((find (ascii "?") target).getD target.length)

def skipSlashes (path : Bytes) : Bytes :=
  path.dropWhile fun byte => byte = 47

/-- The outer loop of `split_path_segments`, on what is left of the path. -/
def collectSegments : ℕ → Bytes → List Bytes → List Bytes
  | 0, _, out => out
  | fuel + 1, rest, out =>
      if rest = [] then out
      else
        let segment := rest.takeWhile fun byte => byte ≠ 47
        collectSegments fuel (skipSlashes (rest.dropWhile fun byte => byte ≠ 47))
          (if segment ≠ [] then out ++ [segment] else out)

def splitPathSegments (path : Bytes) : List Bytes :=
  collectSegments path.length (skipSlashes path) []

structure MatchResult where
  matched : Bool := false
  params : Params := []
  matchedSegments : ℕ := 0
  deriving DecidableEq, Repr

def wildcard : Bytes := ascii "*"

def joinTail (parts : List Bytes) : Bytes :=
  parts.foldl (fun tail part => (if tail ≠ [] then tail ++ [47] else tail) ++ part) []

/-- The loop of `match_route`: the segments of the pattern and of the path from `index` on,
and the parameters found so far. -/
def matchSegments (isPrefix : Bool) : List Bytes → List Bytes → ℕ → Params → MatchResult
  | [], path, index, params =>
      if !isPrefix && path ≠ [] then {} else ⟨true, params, index⟩
  | pat :: pattern, path, index, params =>
      if pat = wildcard then ⟨true, params ++ [⟨wildcard, joinTail path⟩], index⟩
      else
        match path with
        | [] => {}
        | seg :: path =>
            if pat.head? = some 58 ∧ 1 < pat.length then
              matchSegments isPrefix pattern path (index + 1) (params ++ [⟨pat.drop 1, seg⟩])
            else if pat ≠ seg then {}
            else matchSegments isPrefix pattern path (index + 1) params

def matchRoute (path pattern : Bytes) (isPrefix : Bool) : MatchResult :=
  let pathParts := splitPathSegments path
  let patternParts := splitPathSegments pattern
  match patternParts.findIdx? (fun part => part = wildcard) with
  | some index =>
      if index + 1 ≠ patternParts.length then {}
      else if pathParts.length < index then {}
      else matchSegments isPrefix patternParts pathParts 0 []
  | none =>
      if isPrefix then
        if pathParts.length < patternParts.length then {}
        else matchSegments isPrefix patternParts pathParts 0 []
      else if pathParts.length ≠ patternParts.length then {}
      else matchSegments isPrefix patternParts pathParts 0 []

/-- What follows the path in a target. -/
def querySuffix (target : Bytes) : Bytes :=
  target.drop (requestPath target).length

def stripMatchedPrefix (target : Bytes) (matchedSegments : ℕ) : Bytes :=
  let parts := splitPathSegments (requestPath target)
  let newPath :=
    if matchedSegments < parts.length then
      (parts.drop matchedSegments).flatMap fun part => 47 :: part
    else [47]
  newPath ++ querySuffix target

def appendParams (dst src : Params) : Params :=
  dst ++ src

/-- The runs of bytes between slashes. -/
def segments (path : Bytes) : List Bytes :=
  (path.splitOn 47).filter fun segment => segment ≠ []

theorem segments_append (front back : Bytes) :
    segments (front ++ 47 :: back) = segments front ++ segments back := by
  rw [segments, List.splitOn_append_cons_self, List.filter_append]
  rfl

variable {path segment suffix : Bytes} {front pattern : List Bytes} {isPrefix : Bool} {index : ℕ}

theorem of_mem_segments (member : segment ∈ segments path) :
    segment ≠ [] ∧ 47 ∉ segment ∧ ∀ byte ∈ segment, byte ∈ path := by
  rcases List.mem_filter.mp member with ⟨piece, nonempty⟩
  rcases of_mem_splitOn piece with ⟨apart, inside⟩
  exact ⟨by simpa using nonempty, apart, fun byte held => inside.subset held⟩

theorem segments_of_notMem (apart : 47 ∉ segment) :
    segments segment = if segment ≠ [] then [segment] else [] := by
  rw [segments, List.splitOn_eq_singleton apart]
  cases segment <;> rfl

theorem segments_slash (text : Bytes) : segments (47 :: text) = segments text :=
  segments_append [] text

theorem segments_skipSlashes (path : Bytes) : segments (skipSlashes path) = segments path := by
  induction path with
  | nil => rfl
  | cons byte rest ih =>
      by_cases slash : byte = 47
      · rw [skipSlashes, List.dropWhile_cons_of_pos (by simpa using slash), slash, segments_slash]
        exact ih
      · rw [skipSlashes, List.dropWhile_cons_of_neg (by simpa using slash)]

/-- One round of the loop takes the first segment off. -/
theorem segments_round (rest : Bytes) :
    segments rest =
      (if rest.takeWhile (fun byte => byte ≠ 47) ≠ [] then [rest.takeWhile fun byte => byte ≠ 47]
        else []) ++ segments (rest.dropWhile fun byte => byte ≠ 47) := by
  have apart : 47 ∉ rest.takeWhile fun byte => byte ≠ 47 := by
    intro member
    simpa using List.mem_takeWhile_imp member
  rw [← segments_of_notMem apart]
  conv_lhs => rw [← List.takeWhile_append_dropWhile (p := fun byte => byte ≠ 47) (l := rest)]
  cases left : rest.dropWhile fun byte => byte ≠ 47 with
  | nil => simp [segments]
  | cons byte later =>
      have slash : byte = 47 := by
        have stops := List.head?_dropWhile_not (fun byte : UInt8 => byte ≠ 47) rest
        rw [left] at stops
        simpa using stops
      rw [slash, segments_append, segments_slash]

theorem length_skipSlashes_le (path : Bytes) : (skipSlashes path).length ≤ path.length :=
  (List.dropWhile_suffix _).length_le

theorem length_round {rest : Bytes} (some : rest ≠ []) :
    (skipSlashes (rest.dropWhile fun byte => byte ≠ 47)).length < rest.length := by
  cases rest with
  | nil => exact absurd rfl some
  | cons byte later =>
      by_cases slash : byte = 47
      · rw [List.dropWhile_cons_of_neg (by simpa using slash), skipSlashes,
          List.dropWhile_cons_of_pos (by simpa using slash)]
        exact Nat.lt_succ_of_le (length_skipSlashes_le later)
      · rw [List.dropWhile_cons_of_pos (by simpa using slash)]
        exact Nat.lt_succ_of_le
          ((length_skipSlashes_le _).trans (List.dropWhile_suffix _).length_le)

theorem collectSegments_eq {fuel : ℕ} {rest : Bytes} (enough : rest.length ≤ fuel)
    (out : List Bytes) : collectSegments fuel rest out = out ++ segments rest := by
  induction fuel generalizing rest out with
  | zero =>
      rw [List.length_eq_zero_iff.mp (Nat.le_zero.mp enough)]
      simp [collectSegments, segments]
  | succ fuel ih =>
      rw [collectSegments]
      split
      next none =>
        rw [none]
        simp [segments]
      next some =>
        have fewer := length_round some
        rw [ih (by omega), segments_skipSlashes, segments_round rest, ← List.append_assoc]
        congr 1
        split <;> simp

/-- The loops find the runs of bytes between slashes. -/
theorem splitPathSegments_eq (path : Bytes) : splitPathSegments path = segments path := by
  rw [splitPathSegments, collectSegments_eq (length_skipSlashes_le path), List.nil_append,
    segments_skipSlashes]

theorem segments_flatMap {parts : List Bytes} (proper : ∀ part ∈ parts, part ≠ [] ∧ 47 ∉ part) :
    segments (parts.flatMap fun part => 47 :: part) = parts := by
  induction parts with
  | nil => rfl
  | cons part rest ih =>
      rcases proper part List.mem_cons_self with ⟨nonempty, apart⟩
      have later := ih fun other member => proper other (List.mem_cons_of_mem part member)
      have single : segments part = [part] := by rw [segments_of_notMem apart, if_pos nonempty]
      rw [List.flatMap_cons, List.cons_append, segments_slash]
      cases rest with
      | nil =>
          rw [List.flatMap_nil, List.append_nil]
          exact single
      | cons _ _ =>
          rw [List.flatMap_cons, List.cons_append] at later ⊢
          rw [segments_append, single, ← segments_slash, later]
          rfl

theorem requestPath_append (apart : 63 ∉ path) (starts : ∀ byte ∈ suffix.head?, byte = 63) :
    requestPath (path ++ suffix) = path := by
  cases suffix with
  | nil =>
      have absent : find (ascii "?") path = none := find_eq_none_of_notMem apart
      rw [requestPath, List.append_nil, absent, Option.getD_none, List.take_length]
  | cons byte rest =>
      cases starts byte rfl
      have shape : path ++ 63 :: rest = path ++ ascii "?" ++ rest := by simp [ascii]
      have found : find (ascii "?") (path ++ ascii "?" ++ rest) = some path.length :=
        find_append_of_notMem apart
      rw [requestPath, shape, found, Option.getD_some, List.append_assoc, List.take_left]

theorem requestPath_spec (target : Bytes) :
    requestPath target ++ querySuffix target = target ∧ 63 ∉ requestPath target ∧
      ∀ byte ∈ (querySuffix target).head?, byte = 63 := by
  rw [querySuffix, requestPath]
  cases found : find (ascii "?") target with
  | none =>
      have absent := find_eq_none_iff_absent.mp found
      rw [Option.getD_none, List.take_length, List.drop_length, List.append_nil]
      refine ⟨rfl, ?_, by simp⟩
      intro member
      exact absent ((List.singleton_infix_iff 63 target).mpr member)
  | some position =>
      rcases find_split (by decide) found with ⟨_, absent⟩
      have bound : position ≤ target.length := (find_eq_some_iff.mp found).2.1
      rw [Option.getD_some, List.length_take, Nat.min_eq_left bound, List.take_append_drop]
      refine ⟨rfl, ?_, ?_⟩
      · intro member
        exact absent ((List.singleton_infix_iff 63 _).mpr member)
      · intro _ first
        rcases (find_eq_some_iff.mp found).1 with ⟨_, shape⟩
        rw [← shape] at first
        cases first
        rfl

theorem querySuffix_append (apart : 63 ∉ path) (starts : ∀ byte ∈ suffix.head?, byte = 63) :
    querySuffix (path ++ suffix) = suffix := by
  rw [querySuffix, requestPath_append apart starts, List.drop_left]

/-- Stripping drops the matched segments and keeps the query. -/
theorem stripMatchedPrefix_spec (target : Bytes) (count : ℕ) :
    splitPathSegments (requestPath (stripMatchedPrefix target count)) =
        (splitPathSegments (requestPath target)).drop count ∧
      querySuffix (stripMatchedPrefix target count) = querySuffix target := by
  rcases requestPath_spec target with ⟨-, apart, starts⟩
  rw [stripMatchedPrefix, splitPathSegments_eq, splitPathSegments_eq]
  have proper : ∀ part ∈ (segments (requestPath target)).drop count,
      part ≠ [] ∧ 47 ∉ part ∧ 63 ∉ part := by
    intro part member
    rcases of_mem_segments (List.mem_of_mem_drop member) with ⟨nonempty, slash, inside⟩
    exact ⟨nonempty, slash, fun question => apart (inside 63 question)⟩
  split
  · have free : 63 ∉ ((segments (requestPath target)).drop count).flatMap
        fun part => 47 :: part := by
      intro member
      rcases List.mem_flatMap.mp member with ⟨part, held, inside⟩
      rcases List.mem_cons.mp inside with slash | question
      · exact absurd slash (by decide)
      · exact (proper part held).2.2 question
    rw [requestPath_append free starts, querySuffix_append free starts]
    refine ⟨segments_flatMap ?_, rfl⟩
    exact fun part held => ⟨(proper part held).1, (proper part held).2.1⟩
  · rename_i enough
    have free : 63 ∉ ([47] : Bytes) := by decide
    rw [requestPath_append free starts, querySuffix_append free starts,
      List.drop_eq_nil_of_le (not_lt.mp enough)]
    exact ⟨rfl, rfl⟩

theorem matchSegments_append (isPrefix : Bool) (plain : wildcard ∉ front) (back path : List Bytes)
    (index : ℕ) (params : Params) :
    matchSegments isPrefix (front ++ back) path index params =
      if (matchSegments true front path index params).matched then
        matchSegments isPrefix back (path.drop front.length) (index + front.length)
          (matchSegments true front path index params).params
      else {} := by
  induction front generalizing path index params with
  | nil => simp [matchSegments]
  | cons pat front ih =>
      rcases List.ne_and_not_mem_of_not_mem_cons plain with ⟨here, later⟩
      rw [List.cons_append]
      cases path with
      | nil => simp [matchSegments, here.symm]
      | cons _ _ =>
          have count : index + 1 + front.length = index + (pat :: front).length := by
            rw [List.length_cons]
            omega
          simp only [matchSegments, if_neg here.symm]
          split
          · rw [ih later, count]
            rfl
          · split
            · simp
            · rw [ih later, count]
              rfl

/-- A match with parameters and segments before it. -/
def MatchResult.behind (result : MatchResult) (index : ℕ) (params : Params) : MatchResult :=
  if result.matched then ⟨true, params ++ result.params, index + result.matchedSegments⟩ else {}

theorem matchSegments_behind (isPrefix : Bool) (pattern path : List Bytes) (index shift : ℕ)
    (params before : Params) :
    matchSegments isPrefix pattern path (shift + index) (before ++ params) =
      (matchSegments isPrefix pattern path index params).behind shift before := by
  induction pattern generalizing path index params with
  | nil =>
      simp only [matchSegments]
      split <;> rfl
  | cons _ _ ih =>
      cases path with
      | nil =>
          simp only [matchSegments]
          split
          · simp [MatchResult.behind]
          · rfl
      | cons _ path =>
          simp only [matchSegments, List.append_assoc, Nat.add_assoc]
          split
          · simp [MatchResult.behind]
          · split
            · exact ih path (index + 1) _
            · split
              · rfl
              · exact ih path (index + 1) _

theorem matchSegments_matched {path : List Bytes} {params : Params} (plain : wildcard ∉ pattern)
    (matched : (matchSegments isPrefix pattern path index params).matched = true) :
    pattern.length ≤ path.length ∧ (isPrefix = false → path.length = pattern.length) ∧
      (matchSegments isPrefix pattern path index params).matchedSegments =
        index + pattern.length := by
  induction pattern generalizing path index params with
  | nil =>
      rw [matchSegments] at matched ⊢
      split at matched
      · cases matched
      · rename_i fits
        rw [if_neg fits]
        refine ⟨Nat.zero_le _, ?_, rfl⟩
        rintro rfl
        simpa using fits
  | cons _ pattern ih =>
      rcases List.ne_and_not_mem_of_not_mem_cons plain with ⟨here, later⟩
      cases path with
      | nil => simp [matchSegments, here.symm] at matched
      | cons _ path =>
          simp only [matchSegments, if_neg here.symm, List.length_cons, Nat.add_le_add_iff_right,
            Nat.add_right_cancel_iff] at matched ⊢
          have next : ∀ found : Params,
              (matchSegments isPrefix pattern path (index + 1) found).matched = true →
              pattern.length ≤ path.length ∧ (isPrefix = false → path.length = pattern.length) ∧
                (matchSegments isPrefix pattern path (index + 1) found).matchedSegments =
                  index + (pattern.length + 1) := by
            intro _ again
            rcases ih later again with ⟨fits, exact, count⟩
            exact ⟨fits, exact, count.trans (by omega)⟩
          split
          · rename_i named
            rw [if_pos named] at matched
            exact next _ matched
          · rename_i literal
            rw [if_neg literal] at matched
            split
            · rename_i different
              rw [if_pos different] at matched
              cases matched
            · rename_i same
              rw [if_neg same] at matched
              exact next _ matched

theorem matchSegments_eq_default {path : List Bytes} {params : Params}
    (unmatched : ¬(matchSegments isPrefix pattern path index params).matched = true) :
    matchSegments isPrefix pattern path index params = {} := by
  have same := matchSegments_behind isPrefix pattern path index 0 params []
  rw [Nat.zero_add, List.nil_append, MatchResult.behind, if_neg unmatched] at same
  exact same

/-- The checks made before the loop refuse a wildcard that is not the last segment; the others
the loop makes again. -/
theorem matchRoute_eq (path pattern : Bytes) (isPrefix : Bool) :
    matchRoute path pattern isPrefix =
      if wildcard ∈ (splitPathSegments pattern).dropLast then {}
      else matchSegments isPrefix (splitPathSegments pattern) (splitPathSegments path) 0 [] := by
  by_cases present : wildcard ∈ splitPathSegments pattern
  · rcases List.eq_append_cons_of_mem present with ⟨front, back, split, absent⟩
    have found : (front ++ wildcard :: back).findIdx? (fun part => part = wildcard) =
        some front.length := by
      have nowhere : front.findIdx? (fun part => part = wildcard) = none := by
        apply List.findIdx?_eq_none_iff.mpr
        intro part member
        exact decide_eq_false fun same => absent (same ▸ member)
      simp [List.findIdx?_append, nowhere, List.findIdx?_cons]
    rw [matchRoute, split, found, List.length_append, List.length_cons]
    cases back with
    | cons next more =>
        have inside : wildcard ∈ (front ++ wildcard :: next :: more).dropLast := by simp
        rw [if_pos inside]
        simp
    | nil =>
        have outside : wildcard ∉ (front ++ [wildcard]).dropLast := by simpa using absent
        rw [if_neg outside]
        by_cases matched : (matchSegments true front (splitPathSegments path) 0 []).matched = true
        · have fits := (matchSegments_matched absent matched).1
          simp only [List.length_nil, Nat.zero_add, ne_eq, not_true_eq_false, if_false]
          rw [if_neg (by omega)]
        · rw [matchSegments_append isPrefix absent, if_neg matched]
          simp
  · have found : (splitPathSegments pattern).findIdx? (fun part => part = wildcard) = none := by
      apply List.findIdx?_eq_none_iff.mpr
      intro _ member
      exact decide_eq_false fun same => present (same ▸ member)
    rw [matchRoute, found, if_neg fun member => present (List.dropLast_subset _ member)]
    by_cases matched : (matchSegments isPrefix (splitPathSegments pattern)
        (splitPathSegments path) 0 []).matched = true
    · rcases matchSegments_matched present matched with ⟨_, same, -⟩
      cases isPrefix with
      | true => rw [if_pos rfl, if_neg (by omega)]
      | false => rw [if_neg (by decide), if_neg (not_not.mpr (same rfl))]
    · rw [matchSegments_eq_default matched]
      simp

theorem matchRoute_plain {pattern : Bytes} (plain : wildcard ∉ splitPathSegments pattern)
    (path : Bytes) (isPrefix : Bool) :
    matchRoute path pattern isPrefix =
      matchSegments isPrefix (splitPathSegments pattern) (splitPathSegments path) 0 [] := by
  rw [matchRoute_eq, if_neg fun member => plain (List.dropLast_subset _ member)]

theorem mem_dropLast_append {back : List Bytes} (plain : wildcard ∉ front) :
    wildcard ∈ (front ++ back).dropLast ↔ wildcard ∈ back.dropLast := by
  cases back with
  | nil =>
      rw [List.append_nil]
      exact iff_of_false (fun member => plain (List.dropLast_subset _ member)) (by simp)
  | cons _ _ =>
      rw [List.dropLast_append_cons, List.mem_append]
      exact or_iff_right plain

/-- A mounted route matches the whole target as its own pattern matches the rest. -/
theorem matchRoute_append {mount : Bytes} (plain : wildcard ∉ splitPathSegments mount)
    (target pattern : Bytes) :
    matchRoute (requestPath target) (mount ++ ascii "/" ++ pattern) false =
      if (matchRoute (requestPath target) mount true).matched then
        (matchRoute (requestPath (stripMatchedPrefix target
          (matchRoute (requestPath target) mount true).matchedSegments)) pattern false).behind
            (matchRoute (requestPath target) mount true).matchedSegments
            (matchRoute (requestPath target) mount true).params
      else {} := by
  have split : splitPathSegments (mount ++ ascii "/" ++ pattern) =
      splitPathSegments mount ++ splitPathSegments pattern := by
    simp only [splitPathSegments_eq, List.append_assoc]
    exact segments_append mount pattern
  rw [matchRoute_plain plain, matchRoute_eq _ (mount ++ ascii "/" ++ pattern), split,
    matchSegments_append false plain]
  by_cases matched : (matchSegments true (splitPathSegments mount)
      (splitPathSegments (requestPath target)) 0 []).matched = true
  · have count := (matchSegments_matched plain matched).2.2
    rw [Nat.zero_add] at count
    have left := (stripMatchedPrefix_spec target (splitPathSegments mount).length).1
    rw [if_pos matched, if_pos matched, count, matchRoute_eq _ pattern, left]
    simp only [mem_dropLast_append plain]
    split
    · rfl
    · have later := matchSegments_behind false (splitPathSegments pattern)
        ((splitPathSegments (requestPath target)).drop (splitPathSegments mount).length) 0
        (splitPathSegments mount).length [] (matchSegments true (splitPathSegments mount)
          (splitPathSegments (requestPath target)) 0 []).params
      rw [Nat.zero_add]
      rw [Nat.add_zero, List.append_nil] at later
      exact later
  · rw [if_neg matched, if_neg matched]
    simp

/-- A router mounted at `P` with a route `Q` accepts the targets that a route `P/Q` accepts,
with the same parameters, and what it rewrites leaves the query alone. -/
theorem mount_iff_flat {mount : Bytes} (plain : wildcard ∉ splitPathSegments mount)
    (target pattern : Bytes) (given : Params) :
    let outer := matchRoute (requestPath target) mount true
    let stripped := stripMatchedPrefix target outer.matchedSegments
    let inner := matchRoute (requestPath stripped) pattern false
    let flat := matchRoute (requestPath target) (mount ++ ascii "/" ++ pattern) false
    (outer.matched = true ∧ inner.matched = true ↔ flat.matched = true) ∧
      (flat.matched = true →
        appendParams (appendParams given outer.params) inner.params = given ++ flat.params) ∧
      querySuffix stripped = querySuffix target := by
  intro outer _ inner flat
  have split : flat = if outer.matched then inner.behind outer.matchedSegments outer.params
      else {} := matchRoute_append plain target pattern
  have query := (stripMatchedPrefix_spec target outer.matchedSegments).2
  cases first : outer.matched with
  | false =>
      rw [first, if_neg (by decide)] at split
      rw [split]
      exact ⟨by simp, by simp, query⟩
  | true =>
      rw [first, if_pos rfl, MatchResult.behind] at split
      cases second : inner.matched with
      | false =>
          rw [second, if_neg (by decide)] at split
          rw [split]
          exact ⟨by simp, by simp, query⟩
      | true =>
          rw [second, if_pos rfl] at split
          rw [split]
          exact ⟨by simp, fun _ => List.append_assoc _ _ _, query⟩

/-- A mount with a parameter, a route with a parameter and a wildcard, and a query. -/
theorem mount_iff_flat_users :
    wildcard ∉ splitPathSegments (ascii "/users/:id/") ∧
      (matchRoute (requestPath (ascii "//users/7/files/a//b?x=1"))
        (ascii "/users/:id/" ++ ascii "/" ++ ascii "/:kind/*") false).matched = true ∧
      (matchRoute (requestPath (stripMatchedPrefix (ascii "//users/7/files/a//b?x=1") 2))
        (ascii "/:kind/*") false).params =
          [⟨ascii "kind", ascii "files"⟩, ⟨ascii "*", ascii "a/b"⟩] ∧
      querySuffix (stripMatchedPrefix (ascii "//users/7/files/a//b?x=1") 2) = ascii "?x=1" := by
  have plain : wildcard ∉ splitPathSegments (ascii "/users/:id/") := by decide +kernel
  have law := mount_iff_flat plain (ascii "//users/7/files/a//b?x=1") (ascii "/:kind/*") []
  have count : (matchRoute (requestPath (ascii "//users/7/files/a//b?x=1")) (ascii "/users/:id/")
      true).matchedSegments = 2 := by decide +kernel
  refine ⟨plain, law.1.mp ⟨by decide +kernel, by decide +kernel⟩, by decide +kernel, ?_⟩
  rw [← count]
  exact law.2.2.trans (by decide +kernel)

/-- A segment `:name`. -/
def IsParam (pat : Bytes) : Prop :=
  pat.head? = some 58 ∧ 1 < pat.length

instance (pat : Bytes) : Decidable (IsParam pat) :=
  inferInstanceAs (Decidable (_ ∧ _))

/-- What stands for the parameters, by the position of their segments, and for the
wildcard. -/
structure Assignment where
  value : ℕ → Bytes
  rest : List Bytes

namespace Assignment

/-- What a pattern becomes, from the given position on. -/
def fill (assignment : Assignment) : ℕ → List Bytes → List Bytes
  | _, [] => []
  | index, pat :: pattern =>
      (if pat = wildcard then assignment.rest
        else if IsParam pat then [assignment.value index] else [pat]) ++
        assignment.fill (index + 1) pattern

/-- The assignment as a list of parameters. -/
def params (assignment : Assignment) : ℕ → List Bytes → Params
  | _, [] => []
  | index, pat :: pattern =>
      (if pat = wildcard then [⟨wildcard, [47].intercalate assignment.rest⟩]
        else if IsParam pat then [⟨pat.drop 1, assignment.value index⟩] else []) ++
        assignment.params (index + 1) pattern

/-- The pattern becomes the path, or the beginning of it where that is enough. -/
def Makes (assignment : Assignment) (isPrefix : Bool) (index : ℕ) (pattern path : List Bytes) :
    Prop :=
  if isPrefix = true ∧ wildcard ∉ pattern then assignment.fill index pattern <+: path
  else assignment.fill index pattern = path

end Assignment

theorem intercalate_cons (part : Bytes) (parts : List Bytes) :
    [47].intercalate (part :: parts) = part ++ parts.flatMap fun part => 47 :: part := by
  induction parts generalizing part with
  | nil => simp [List.intercalate]
  | cons next _ ih =>
      have later := ih next
      simp only [List.intercalate, List.intersperse_cons_cons, List.flatten_cons] at later ⊢
      rw [later]
      simp

theorem joinTail_eq {parts : List Bytes} (proper : ∀ part ∈ parts, part ≠ []) :
    joinTail parts = [47].intercalate parts := by
  have append : ∀ (parts : List Bytes) {tail : Bytes}, tail ≠ [] →
      parts.foldl (fun tail part => (if tail ≠ [] then tail ++ [47] else tail) ++ part) tail =
        tail ++ parts.flatMap fun part => 47 :: part := by
    intro parts
    induction parts with
    | nil => simp
    | cons part rest ih =>
        intro _ nonempty
        rw [List.foldl_cons, if_pos nonempty, ih (by simp), List.flatMap_cons]
        simp
  cases parts with
  | nil => rfl
  | cons part rest =>
      rw [joinTail, List.foldl_cons, intercalate_cons]
      exact append rest (proper part List.mem_cons_self)

variable {pattern : List Bytes}

theorem eq_nil_of_wildcard (last : wildcard ∉ (wildcard :: pattern).dropLast) : pattern = [] := by
  cases pattern with
  | nil => rfl
  | cons _ _ => exact absurd (List.mem_cons_self) last

theorem notMem_dropLast_of_cons {pat : Bytes} (last : wildcard ∉ (pat :: pattern).dropLast) :
    wildcard ∉ pattern.dropLast := by
  cases pattern with
  | nil => simp
  | cons _ _ => exact fun member => last (List.mem_cons_of_mem pat member)

section Makes

variable {assignment : Assignment} {isPrefix : Bool} {index : ℕ} {pat : Bytes}
  {pattern path : List Bytes} {params : Params}

theorem Assignment.makes_nil :
    assignment.Makes isPrefix index [] path ↔ isPrefix = true ∨ path = [] := by
  cases isPrefix with
  | true => simp [Makes, fill]
  | false => simp [Makes, fill, eq_comm]

theorem Assignment.makes_wildcard :
    assignment.Makes isPrefix index [wildcard] path ↔ assignment.rest = path := by
  simp [Makes, fill]

theorem Assignment.makes_cons (other : pat ≠ wildcard) :
    assignment.Makes isPrefix index (pat :: pattern) path ↔
      ∃ later, path = (if IsParam pat then assignment.value index else pat) :: later ∧
        assignment.Makes isPrefix (index + 1) pattern later := by
  have filled : assignment.fill index (pat :: pattern) =
      (if IsParam pat then assignment.value index else pat) ::
        assignment.fill (index + 1) pattern := by
    rw [fill, if_neg other]
    split <;> rfl
  have same : wildcard ∈ pat :: pattern ↔ wildcard ∈ pattern := by
    simp [other.symm]
  simp only [Makes, filled, same]
  constructor
  · intro makes
    split at makes
    next begins =>
      rcases makes with ⟨_, rfl⟩
      exact ⟨_, rfl, (if_pos begins).mpr (List.prefix_append _ _)⟩
    next whole => exact ⟨_, makes.symm, (if_neg whole).mpr rfl⟩
  · rintro ⟨_, rfl, makes⟩
    split
    next begins =>
      rw [if_pos begins] at makes
      exact List.cons_prefix_cons.mpr ⟨rfl, makes⟩
    next whole =>
      rw [if_neg whole] at makes
      rw [makes]

theorem Assignment.params_cons (other : pat ≠ wildcard) :
    assignment.params index (pat :: pattern) =
      (if IsParam pat then [⟨pat.drop 1, assignment.value index⟩] else []) ++
        assignment.params (index + 1) pattern := by
  rw [params, if_neg other]

theorem Assignment.Makes.matchSegments_eq (last : wildcard ∉ pattern.dropLast)
    (proper : ∀ part ∈ path, part ≠ []) (makes : assignment.Makes isPrefix index pattern path) :
    matchSegments isPrefix pattern path index params =
      ⟨true, params ++ assignment.params index pattern,
        index + (pattern.length - if wildcard ∈ pattern then 1 else 0)⟩ := by
  induction pattern generalizing path index params with
  | nil =>
      rcases Assignment.makes_nil.mp makes with rfl | rfl
      · simp [matchSegments, Assignment.params]
      · simp [matchSegments, Assignment.params]
  | cons pat pattern ih =>
      by_cases star : pat = wildcard
      · subst star
        cases eq_nil_of_wildcard last
        cases Assignment.makes_wildcard.mp makes
        simp [matchSegments, Assignment.params, joinTail_eq proper]
      · rcases (Assignment.makes_cons star).mp makes with ⟨later, rfl, makes'⟩
        have rest : ∀ params, matchSegments isPrefix pattern later (index + 1) params =
            ⟨true, params ++ assignment.params (index + 1) pattern,
              index + ((pat :: pattern).length - if wildcard ∈ pat :: pattern then 1 else 0)⟩ := by
          intro _
          rw [ih (notMem_dropLast_of_cons last)
            (fun part member => proper part (List.mem_cons_of_mem _ member)) makes']
          by_cases present : wildcard ∈ pattern
          · have positive := List.length_pos_of_mem present
            simp only [present, List.mem_cons, or_true, if_true, List.length_cons]
            congr 1
            omega
          · simp only [present, List.mem_cons, Ne.symm star, or_self, if_false, List.length_cons]
            congr 1
            omega
        simp only [matchSegments, if_neg star, Assignment.params_cons star]
        by_cases named : IsParam pat
        · have shown : pat.head? = some 58 ∧ 1 < pat.length := named
          simp only [if_pos named, if_pos shown]
          rw [rest, List.append_assoc]
        · have shown : ¬(pat.head? = some 58 ∧ 1 < pat.length) := named
          simp only [if_neg named, if_neg shown, ne_eq, not_true_eq_false, if_false]
          rw [rest, List.nil_append]

/-- A match is made by the assignment that is read off the path. -/
theorem makes_of_matched {whole rest : List Bytes} (last : wildcard ∉ pattern.dropLast)
    (remaining : wildcard ∈ pattern → rest = whole.drop (index + (pattern.length - 1)))
    (matched : (matchSegments isPrefix pattern (whole.drop index) index params).matched = true) :
    Assignment.Makes ⟨fun place => whole.getD place [], rest⟩ isPrefix index pattern
      (whole.drop index) := by
  induction pattern generalizing index params with
  | nil =>
      rw [Assignment.makes_nil]
      cases isPrefix with
      | true => exact .inl rfl
      | false =>
          right
          by_contra more
          simp [matchSegments, more] at matched
  | cons pat pattern ih =>
      by_cases star : pat = wildcard
      · subst star
        cases eq_nil_of_wildcard last
        exact Assignment.makes_wildcard.mpr (remaining List.mem_cons_self)
      · simp only [matchSegments, if_neg star] at matched
        cases path : whole.drop index with
        | nil =>
            rw [path] at matched
            cases matched
        | cons seg later =>
            have next : whole.drop (index + 1) = later := by
              rw [← List.drop_drop, path]
              rfl
            have here : whole.getD index [] = seg := by
              rw [List.getD_eq_getElem?_getD, ← List.head?_drop, path]
              rfl
            have remaining' : wildcard ∈ pattern →
                rest = whole.drop (index + 1 + (pattern.length - 1)) := by
              intro present
              have positive := List.length_pos_of_mem present
              rw [remaining (List.mem_cons_of_mem pat present), List.length_cons]
              congr 1
              omega
            rw [path] at matched
            dsimp only at matched
            apply (Assignment.makes_cons star).mpr
            rw [← next] at matched ⊢
            by_cases named : IsParam pat
            · have shown : pat.head? = some 58 ∧ 1 < pat.length := named
              rw [if_pos shown] at matched
              refine ⟨_, ?_, ih (notMem_dropLast_of_cons last) remaining' matched⟩
              rw [if_pos named]
              exact congrArg (fun seg => seg :: whole.drop (index + 1)) here.symm
            · have shown : ¬(pat.head? = some 58 ∧ 1 < pat.length) := named
              rw [if_neg shown] at matched
              split at matched
              · cases matched
              next same =>
                refine ⟨_, ?_, ih (notMem_dropLast_of_cons last) remaining' matched⟩
                rw [if_neg named, not_not.mp same]

end Makes

/-- A pattern matches its instances, and the parameters say which instance it is. -/
theorem matchRoute_iff_instance (path pattern : Bytes) (isPrefix : Bool) :
    let parts := (path.splitOn 47).filter fun segment => segment ≠ []
    let patternParts := (pattern.splitOn 47).filter fun segment => segment ≠ []
    ((matchRoute path pattern isPrefix).matched = true ↔
      wildcard ∉ patternParts.dropLast ∧
        ∃ assignment : Assignment, assignment.Makes isPrefix 0 patternParts parts) ∧
    ∀ assignment : Assignment, wildcard ∉ patternParts.dropLast →
      assignment.Makes isPrefix 0 patternParts parts →
        matchRoute path pattern isPrefix =
          ⟨true, assignment.params 0 patternParts,
            patternParts.length - if wildcard ∈ patternParts then 1 else 0⟩ := by
  intro parts patternParts
  have runs : matchRoute path pattern isPrefix = if wildcard ∈ patternParts.dropLast then {}
      else matchSegments isPrefix patternParts parts 0 [] := by
    rw [matchRoute_eq, splitPathSegments_eq, splitPathSegments_eq]
    rfl
  have proper : ∀ part ∈ parts, part ≠ [] := fun part member =>
    (of_mem_segments member).1
  have found : ∀ assignment : Assignment, wildcard ∉ patternParts.dropLast →
      assignment.Makes isPrefix 0 patternParts parts → matchRoute path pattern isPrefix =
          ⟨true, assignment.params 0 patternParts,
            patternParts.length - if wildcard ∈ patternParts then 1 else 0⟩ := by
    intro assignment last makes
    rw [runs, if_neg last, makes.matchSegments_eq last proper, List.nil_append, Nat.zero_add]
  refine ⟨⟨?_, ?_⟩, found⟩
  · intro matched
    rw [runs] at matched
    split at matched
    · cases matched
    next last =>
      refine ⟨last, ⟨fun place => parts.getD place [], parts.drop (patternParts.length - 1)⟩, ?_⟩
      exact makes_of_matched last (fun _ => by rw [Nat.zero_add]) matched
  · rintro ⟨last, assignment, makes⟩
    rw [found assignment last makes]

end Corouv.Web
