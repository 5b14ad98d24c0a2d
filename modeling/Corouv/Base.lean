import Mathlib.Data.List.DropRight
import Corouv.Library.Loop
import Corouv.Library.Numeral
import Corouv.Library.Search

/-!
# Bytes, sizes and exceptions

The vocabulary every part of the model shares.  A `std::string` is its list of
bytes, a `std::size_t` is a natural number whose sums and differences are taken
modulo `2 ^ 64`, and a C++ exception is told apart by the class a `catch` clause
would name.  A coroutine that waits for something that has not happened yet is
`suspended`; no `catch` clause of the source sees that outcome.
-/

namespace Corouv

open Library

/-- The contents of a `std::string`. -/
abbrev Bytes := List UInt8

instance : LawfulBEq Bytes :=
  inferInstanceAs (LawfulBEq (List UInt8))

/-- The bytes of an ASCII literal. -/
def ascii (text : String) : Bytes :=
  text.toList.map fun character => UInt8.ofNat character.toNat

/-- The line terminator of HTTP. -/
def crlf : Bytes := [13, 10]

def sizeAdd (left right : ℕ) : ℕ :=
  (left + right) % 2 ^ 64

def sizeSub (left right : ℕ) : ℕ :=
  (left + (2 ^ 64 - right % 2 ^ 64)) % 2 ^ 64

theorem sizeAdd_of_lt {left right : ℕ} (small : left + right < 2 ^ 64) :
    sizeAdd left right = left + right :=
  Nat.mod_eq_of_lt small

theorem sizeAdd_lt (left right : ℕ) : sizeAdd left right < 2 ^ 64 :=
  Nat.mod_lt _ (by norm_num)

theorem sizeSub_of_le {left right : ℕ} (ordered : right ≤ left) (small : left < 2 ^ 64) :
    sizeSub left right = left - right := by
  rw [sizeSub, Nat.mod_eq_of_lt (by omega : right < 2 ^ 64)]
  have split : left + (2 ^ 64 - right) = (left - right) + 2 ^ 64 := by omega
  rw [split, Nat.add_mod_right, Nat.mod_eq_of_lt (by omega)]

/-- `std::isspace` in the C locale. -/
def isSpace (byte : UInt8) : Bool :=
  byte == 32 || (9 ≤ byte && byte ≤ 13)

/-- `std::tolower` in the C locale. -/
def toLower (byte : UInt8) : UInt8 :=
  if 65 ≤ byte && byte ≤ 90 then byte + 32 else byte

/-- Equality up to ASCII letter case. -/
def iequals (left right : Bytes) : Bool :=
  left.map toLower == right.map toLower

/-- Drop white space at both ends. -/
def trimCopy (value : Bytes) : Bytes :=
  (value.dropWhile isSpace).rdropWhile isSpace

/-- `std::to_string` on an `int`. -/
def intToString (number : ℤ) : Bytes :=
  if number < 0 then ascii "-" ++ Numeral.digits 10 number.natAbs
  else Numeral.digits 10 number.natAbs

/-- The exceptions the modelled code throws or lets pass, by C++ class. -/
inductive Exn where
  /-- `corouv::http::Error`, a `std::runtime_error` with a status. -/
  | http (status : ℤ) (message : String)
  /-- Any other `std::runtime_error`, in particular those of `throw_uv_error`. -/
  | runtime (message : String)
  /-- `std::invalid_argument`, a `std::logic_error`. -/
  | invalidArgument (message : String)
  /-- Any other `std::logic_error`. -/
  | logic (message : String)
  /-- An exception that is no `std::exception`. -/
  | foreign
  /-- `async_simple::SignalException`, thrown where a cancellation is noticed. -/
  | signal
  /-- Not thrown: the coroutine is still waiting. -/
  | suspended
  /-- Not thrown: a loop of the model ran out of fuel. -/
  | exhausted
  deriving DecidableEq, Repr

namespace Exn

/-- Caught by `catch (const Error&)`. -/
def isHttpError : Exn → Bool
  | http _ _ => true
  | _ => false

/-- `e.what()` of a `std::exception`. -/
def what : Exn → String
  | http _ message | runtime message | invalidArgument message | logic message => message
  | _ => ""

end Exn

/-- A coroutine over some state: it keeps the state it reached when it throws. -/
abbrev Task (σ α : Type) := EStateM Exn σ α

theorem isSpace_eq_false_of_digit {base : ℕ} {byte : UInt8}
    (digit : (Numeral.digitValue base byte).isSome) : isSpace byte = false := by
  by_contra space
  simp only [isSpace, Bool.not_eq_false, Bool.or_eq_true, beq_iff_eq, Bool.and_eq_true,
    decide_eq_true_eq, UInt8.le_iff_toNat_le] at space
  have bounds : byte.toNat ≤ 32 := by
    rcases space with rfl | ⟨-, upper⟩
    · simp
    · exact upper.trans (by simp)
  have notDigit : Numeral.digitValue base byte = none := by
    simp only [Numeral.digitValue]
    rw [if_neg (by omega), if_neg (by omega), if_neg (by omega)]
    rfl
  simp [notDigit] at digit

variable {value : Bytes}

theorem trimCopy_of_ends (front : ∀ byte ∈ value.head?, isSpace byte = false)
    (back : ∀ byte ∈ value.getLast?, isSpace byte = false) : trimCopy value = value := by
  have kept : value.dropWhile isSpace = value := by
    cases value with
    | nil => rfl
    | cons byte _ => simp [front byte rfl]
  rw [trimCopy, kept]
  refine List.rdropWhile_eq_self_iff.mpr fun nonempty => ?_
  simp [back _ (List.getLast?_eq_some_getLast nonempty)]

theorem trimCopy_of_forall (solid : ∀ byte ∈ value, isSpace byte = false) :
    trimCopy value = value :=
  trimCopy_of_ends (fun _ first => solid _ (List.mem_of_mem_head? first))
    fun _ last => solid _ (List.mem_of_mem_getLast? last)

theorem ends_of_trimCopy (trimmed : trimCopy value = value) :
    (∀ byte ∈ value.head?, isSpace byte = false) ∧
      ∀ byte ∈ value.getLast?, isSpace byte = false := by
  have shorter := (List.rdropWhile_prefix isSpace (value.dropWhile isSpace)).length_le
  have front : value.dropWhile isSpace = value := by
    apply (List.dropWhile_suffix isSpace).eq_of_length_le
    rw [← trimCopy, trimmed] at shorter
    exact shorter
  rw [trimCopy, front] at trimmed
  constructor
  · intro _ first
    cases value with
    | nil => cases first
    | cons head rest =>
        cases first
        by_contra space
        have dropped := (List.dropWhile_suffix (l := rest) isSpace).length_le
        have lengths := congrArg List.length front
        simp only [List.dropWhile_cons, Bool.not_eq_false] at lengths space
        rw [if_pos space, List.length_cons] at lengths
        omega
  · intro _ last
    cases value with
    | nil => cases last
    | cons head rest =>
        have solid := List.rdropWhile_eq_self_iff.mp trimmed (List.cons_ne_nil head rest)
        cases last
        exact Bool.eq_false_iff.mpr solid

theorem isInfix_trimCopy (value : Bytes) : trimCopy value <:+: value :=
  (List.rdropWhile_prefix _ _).isInfix.trans (List.dropWhile_suffix _).isInfix

theorem trimCopy_space (value : Bytes) : trimCopy (ascii " " ++ value) = trimCopy value :=
  rfl

@[simp]
theorem trimCopy_digits (base number : ℕ) (positive : 0 < base) (small : base ≤ 16) :
    trimCopy (Numeral.digits base number) = Numeral.digits base number :=
  trimCopy_of_forall fun _ member => isSpace_eq_false_of_digit
    (Numeral.isSome_digitValue_of_mem_digits positive small member)

theorem intToString_of_nonneg {number : ℤ} (nonneg : 0 ≤ number) :
    intToString number = Numeral.digits 10 number.natAbs := by
  rw [intToString, if_neg (by omega)]

theorem iequals_refl (value : Bytes) : iequals value value = true := by
  simp [iequals]

theorem iequals_trans {first second third : Bytes} (one : iequals first second = true)
    (two : iequals first third = true) : iequals second third = true := by
  simp only [iequals, beq_iff_eq] at one two ⊢
  rw [← one, two]

end Corouv
