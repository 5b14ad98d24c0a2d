import Corouv.Library.Numeral

/-!
# Texts with holes

A template is a sequence of texts and holes.  Filling it in keeps the texts and puts a mark
for each hole, which is made from the number of the hole.  A mark of a sign and a decimal
number can be read back from the text that was filled in, provided that the sign is in none
of the texts and that no hole is followed by a digit.
-/

namespace Library

inductive Piece (α β : Type) where
  | text (symbols : List α)
  | hole (value : β)

namespace Template

section Filling

variable {α β : Type}

/-- The text, with the holes numbered from a given start. -/
def fill (mark : ℕ → List α) : ℕ → List (Piece α β) → List α
  | _, [] => []
  | start, .text symbols :: rest => symbols ++ fill mark start rest
  | start, .hole _ :: rest => mark start ++ fill mark (start + 1) rest

/-- The values of the holes, from left to right. -/
def holes : List (Piece α β) → List β
  | [] => []
  | .text _ :: rest => holes rest
  | .hole value :: rest => value :: holes rest

/-- The symbol is in none of the texts. -/
def Lacks (symbol : α) (template : List (Piece α β)) : Prop :=
  ∀ symbols, .text symbols ∈ template → symbol ∉ symbols

@[simp]
theorem holes_append (front back : List (Piece α β)) :
    holes (front ++ back) = holes front ++ holes back := by
  induction front with
  | nil => rfl
  | cons piece _ ih =>
      cases piece with
      | text _ => exact ih
      | hole _ => simp [holes, ih]

theorem fill_append (mark : ℕ → List α) (front back : List (Piece α β)) (start : ℕ) :
    fill mark start (front ++ back) =
      fill mark start front ++ fill mark (start + (holes front).length) back := by
  induction front generalizing start with
  | nil => rfl
  | cons piece _ ih =>
      cases piece with
      | text _ => simp [fill, holes, ih]
      | hole _ =>
          simp only [List.cons_append, fill, holes, ih, List.append_assoc, List.length_cons,
            Nat.add_assoc, Nat.add_comm 1]

@[simp]
theorem fill_text (mark : ℕ → List α) (start : ℕ) (symbols : List α) :
    fill mark start ([.text symbols] : List (Piece α β)) = symbols :=
  List.append_nil symbols

theorem fill_const (mark : List α) (template : List (Piece α β)) (start other : ℕ) :
    fill (fun _ => mark) start template = fill (fun _ => mark) other template := by
  induction template generalizing start other with
  | nil => rfl
  | cons piece _ ih =>
      cases piece with
      | text symbols => exact congrArg (symbols ++ ·) (ih start other)
      | hole _ => exact congrArg (mark ++ ·) (ih (start + 1) (other + 1))

theorem fill_const_append (mark : List α) (front back : List (Piece α β)) (start : ℕ) :
    fill (fun _ => mark) start (front ++ back) =
      fill (fun _ => mark) start front ++ fill (fun _ => mark) start back := by
  rw [fill_append, fill_const mark back _ start]

variable {symbol : α}

theorem Lacks.of_cons {piece : Piece α β} {rest : List (Piece α β)}
    (lacks : Lacks symbol (piece :: rest)) : Lacks symbol rest := by
  intro symbols mem
  exact lacks symbols (List.mem_cons_of_mem piece mem)

theorem Lacks.append {front back : List (Piece α β)} (inFront : Lacks symbol front)
    (inBack : Lacks symbol back) : Lacks symbol (front ++ back) := by
  intro symbols mem
  rcases List.mem_append.mp mem with mem | mem
  · exact inFront symbols mem
  · exact inBack symbols mem

theorem lacks_nil (symbol : α) : Lacks symbol ([] : List (Piece α β)) := by
  intro _ mem
  cases mem

theorem lacks_text {symbols : List α} (notMem : symbol ∉ symbols) :
    Lacks symbol ([.text symbols] : List (Piece α β)) := by
  intro _ mem
  cases List.mem_singleton.mp mem
  exact notMem

theorem lacks_hole (symbol : α) (value : β) : Lacks symbol [.hole value] := by
  intro _ mem
  cases List.mem_singleton.mp mem

theorem count_fill [DecidableEq α] {template : List (Piece α β)} (lacks : Lacks symbol template)
    (start : ℕ) :
    (fill (fun _ => [symbol]) start template).count symbol = (holes template).length := by
  induction template generalizing start with
  | nil => rfl
  | cons piece _ ih =>
      cases piece with
      | text symbols =>
          have none : symbols.count symbol = 0 :=
            List.count_eq_zero.mpr (lacks symbols List.mem_cons_self)
          simp [fill, holes, none, ih lacks.of_cons]
      | hole _ =>
          simp [fill, holes, ih lacks.of_cons]

end Filling

section Numbered

open Numeral

variable {β : Type} (sign : UInt8)

/-- The mark of a number: a sign and the decimal numeral. -/
def numbered (number : ℕ) : List UInt8 :=
  sign :: digits 10 number

/-- The numbers of the marks in a text, from left to right. -/
def marksIn : List UInt8 → List ℕ
  | [] => []
  | byte :: rest =>
      if byte = sign then
        value 10 (rest.takeWhile fun byte => (digitValue 10 byte).isSome) :: marksIn rest
      else marksIn rest

/-- Put a plain mark for every numbered one; the flag says that the text before it ends
within a mark. -/
def unnumberFrom (plain : UInt8) : Bool → List UInt8 → List UInt8
  | _, [] => []
  | inMark, byte :: rest =>
      if byte = sign then plain :: unnumberFrom plain true rest
      else if inMark && (digitValue 10 byte).isSome then unnumberFrom plain true rest
      else byte :: unnumberFrom plain false rest

def unnumber (plain : UInt8) (text : List UInt8) : List UInt8 :=
  unnumberFrom sign plain false text

/-- What is filled in does not start with a digit. -/
def Clear : List (Piece UInt8 β) → Prop
  | [] => True
  | .text [] :: rest => Clear rest
  | .text (byte :: _) :: _ => digitValue 10 byte = none
  | .hole _ :: _ => True

/-- No hole is followed by a digit. -/
def Spaced : List (Piece UInt8 β) → Prop
  | [] => True
  | .text _ :: rest => Spaced rest
  | .hole _ :: rest => Clear rest ∧ Spaced rest

theorem Clear.append {front back : List (Piece UInt8 β)} (clear : Clear front)
    (clearBack : Clear back) : Clear (front ++ back) := by
  induction front with
  | nil => exact clearBack
  | cons piece _ ih =>
      match piece with
      | .text [] => exact ih clear
      | .text (byte :: more) => exact clear
      | .hole _ => trivial

theorem Spaced.append {front back : List (Piece UInt8 β)} (spaced : Spaced front)
    (clear : Clear back) (spacedBack : Spaced back) : Spaced (front ++ back) := by
  induction front with
  | nil => exact spacedBack
  | cons piece _ ih =>
      cases piece with
      | text _ => exact ih spaced
      | hole _ => exact ⟨spaced.1.append clear, ih spaced.2⟩

variable {sign}

variable {template : List (Piece UInt8 β)} {front : List UInt8}

theorem head_fill (notDigit : digitValue 10 sign = none) (clear : Clear template) (start : ℕ) :
    ∀ byte ∈ (fill (numbered sign) start template).head?, digitValue 10 byte = none := by
  induction template with
  | nil =>
      intro _ mem
      cases mem
  | cons piece _ ih =>
      match piece with
      | .text [] => exact ih clear
      | .text (first :: more) =>
          intro _ mem
          cases mem
          exact clear
      | .hole _ =>
          intro _ mem
          cases mem
          exact notDigit

theorem marksIn_append (lacks : sign ∉ front) (back : List UInt8) :
    marksIn sign (front ++ back) = marksIn sign back := by
  induction front with
  | nil => rfl
  | cons _ _ ih =>
      rw [List.mem_cons, not_or] at lacks
      simp only [List.cons_append, marksIn, if_neg (Ne.symm lacks.1)]
      exact ih lacks.2

/-- The marks of a filled template are numbered without a gap from `start`. -/
theorem marksIn_fill (notDigit : digitValue 10 sign = none) (lacks : Lacks sign template)
    (spaced : Spaced template) (start : ℕ) :
    marksIn sign (fill (numbered sign) start template) =
      List.range' start (holes template).length := by
  induction template generalizing start with
  | nil => rfl
  | cons piece rest ih =>
      cases piece with
      | text symbols =>
          simp only [fill, holes]
          rw [marksIn_append (lacks symbols List.mem_cons_self)]
          exact ih lacks.of_cons spaced start
      | hole _ =>
          have read : ((digits 10 start ++ fill (numbered sign) (start + 1) rest).takeWhile
              fun byte => (digitValue 10 byte).isSome) = digits 10 start :=
            takeWhile_digits_append (by decide) (by decide) (head_fill notDigit spaced.1 _)
          simp only [fill, holes, numbered, List.cons_append, marksIn, if_true, read,
            List.length_cons, List.range'_succ]
          rw [value_digits (by decide) (by decide),
            marksIn_append (notMem_digits 10 start (by decide) (by decide) notDigit)]
          exact congrArg (start :: ·) (ih lacks.of_cons spaced.2 (start + 1))

theorem unnumberFrom_append (plain : UInt8) (lacks : sign ∉ front) (back : List UInt8) :
    unnumberFrom sign plain false (front ++ back) =
      front ++ unnumberFrom sign plain false back := by
  induction front with
  | nil => rfl
  | cons _ _ ih =>
      rw [List.mem_cons, not_or] at lacks
      simp [unnumberFrom, if_neg (Ne.symm lacks.1), ih lacks.2]

variable (notDigit : digitValue 10 sign = none) (plain : UInt8)
include notDigit plain

theorem unnumberFrom_digits (allDigits : ∀ byte ∈ front, (digitValue 10 byte).isSome)
    (back : List UInt8) :
    unnumberFrom sign plain true (front ++ back) = unnumberFrom sign plain true back := by
  induction front with
  | nil => rfl
  | cons byte _ ih =>
      have digit := allDigits byte List.mem_cons_self
      have other : byte ≠ sign := by
        rintro rfl
        simp [notDigit] at digit
      simp only [List.cons_append, unnumberFrom, if_neg other, digit, Bool.and_self, if_true]
      exact ih fun byte mem => allDigits byte (List.mem_cons_of_mem _ mem)

/-- Taking the numbers out of a filled template leaves the plain marks. -/
theorem unnumberFrom_fill (lacks : Lacks sign template) (spaced : Spaced template) :
    ∀ (inMark : Bool) (start : ℕ), (inMark = true → Clear template) →
      unnumberFrom sign plain inMark (fill (numbered sign) start template) =
        fill (fun _ => [plain]) start template := by
  induction template with
  | nil =>
      intro inMark start _
      rfl
  | cons piece _ ih =>
      intro inMark start clear
      match piece with
      | .text [] => exact ih lacks.of_cons spaced inMark start clear
      | .text (byte :: more) =>
          have free := lacks (byte :: more) List.mem_cons_self
          rw [List.mem_cons, not_or] at free
          have outside : ¬(inMark && (digitValue 10 byte).isSome) = true := by
            rw [Bool.and_eq_true, not_and]
            intro within digit
            have none : digitValue 10 byte = none := clear within
            simp [none] at digit
          simp only [fill, List.cons_append, unnumberFrom, if_neg (Ne.symm free.1), if_neg outside]
          rw [unnumberFrom_append plain free.2]
          rw [ih lacks.of_cons spaced false start (by simp)]
      | .hole _ =>
          simp only [fill, numbered, List.cons_append, List.nil_append, unnumberFrom, if_true]
          rw [unnumberFrom_digits notDigit plain fun byte mem =>
            isSome_digitValue_of_mem_digits (by decide) (by decide) mem]
          rw [ih lacks.of_cons spaced.2 true (start + 1) fun _ => spaced.1]

theorem unnumber_fill (lacks : Lacks sign template) (spaced : Spaced template) (start : ℕ) :
    unnumber sign plain (fill (numbered sign) start template) =
      fill (fun _ => [plain]) start template :=
  unnumberFrom_fill notDigit plain lacks spaced false start (by simp)

end Numbered

end Template

end Library
