import Mathlib.Data.List.TakeWhile
import Mathlib.Tactic.Common
import Mathlib.Tactic.IntervalCases

/-!
# Positional numerals in ASCII

Printing and reading of natural numbers in a base of at most sixteen, as
`std::to_string`, `printf("%zx")` and `std::from_chars` do it.  `digits` prints
most significant digit first without leading zeros, `value` reads a digit string
back, and `value_digits` is the round trip.
-/

namespace Library.Numeral

/-- The ASCII digit of a value below sixteen, in lower case. -/
def digitByte (digit : ℕ) : UInt8 :=
  if digit < 10 then UInt8.ofNat (48 + digit) else UInt8.ofNat (87 + digit)

/-- The value of an ASCII digit in the given base, in either case. -/
def digitValue (base : ℕ) (byte : UInt8) : Option ℕ :=
  let digit :=
    if 48 ≤ byte.toNat ∧ byte.toNat ≤ 57 then some (byte.toNat - 48)
    else if 97 ≤ byte.toNat ∧ byte.toNat ≤ 102 then some (byte.toNat - 87)
    else if 65 ≤ byte.toNat ∧ byte.toNat ≤ 70 then some (byte.toNat - 55)
    else none
  digit.filter (· < base)

/-- Digits of a number in front of those already printed. -/
def digitsOnto (base : ℕ) : ℕ → ℕ → List UInt8 → List UInt8
  | 0, _, printed => printed
  | fuel + 1, number, printed =>
      if number / base = 0 then digitByte (number % base) :: printed
      else digitsOnto base fuel (number / base) (digitByte (number % base) :: printed)

/-- A number printed in a base; zero prints as a single digit. -/
def digits (base number : ℕ) : List UInt8 :=
  digitsOnto base (number + 1) number []

/-- The value of a string of digits, continuing from an accumulator. -/
def valueFrom (base accumulator : ℕ) (text : List UInt8) : ℕ :=
  text.foldl (fun total byte => total * base + (digitValue base byte).getD 0) accumulator

/-- The value of a string of digits. -/
def value (base : ℕ) (text : List UInt8) : ℕ :=
  valueFrom base 0 text

variable {base number range : ℕ} {rest : List UInt8} {byte : UInt8}

theorem digitValue_digitByte {digit : ℕ} (small : base ≤ 16) (below : digit < base) :
    digitValue base (digitByte digit) = some digit := by
  have bounded : digit < 16 := by omega
  interval_cases digit <;> simp [digitValue, digitByte, below]

theorem mem_digitsOnto {fuel : ℕ} {printed : List UInt8} (positive : 0 < base)
    (member : byte ∈ digitsOnto base fuel number printed) :
    byte ∈ printed ∨ ∃ digit < base, byte = digitByte digit := by
  induction fuel generalizing number printed with
  | zero => exact .inl member
  | succ _ ih =>
      have last : number % base < base := Nat.mod_lt _ positive
      simp only [digitsOnto] at member
      split at member
      · rcases List.mem_cons.mp member with rfl | older
        · exact .inr ⟨_, last, rfl⟩
        · exact .inl older
      · rcases ih member with recent | digit
        · rcases List.mem_cons.mp recent with rfl | older
          · exact .inr ⟨_, last, rfl⟩
          · exact .inl older
        · exact .inr digit

theorem isSome_digitValue_of_mem_digits (positive : 0 < base) (small : base ≤ 16)
    (member : byte ∈ digits base number) : (digitValue base byte).isSome := by
  rcases mem_digitsOnto positive member with nothing | ⟨_, below, rfl⟩
  · exact absurd nothing (by simp)
  · simp [digitValue_digitByte small below]

theorem notMem_digits (base number : ℕ) (positive : 0 < base) (small : base ≤ 16)
    (notDigit : digitValue base byte = none) : byte ∉ digits base number := by
  intro mem
  have digit := isSome_digitValue_of_mem_digits positive small mem
  simp [notDigit] at digit

theorem digits_ne_nil (base number : ℕ) : digits base number ≠ [] := by
  have nonempty : ∀ (fuel remaining : ℕ) (printed : List UInt8),
      digitsOnto base (fuel + 1) remaining printed ≠ [] := by
    intro fuel
    induction fuel with
    | zero =>
        intro _ _
        simp only [digitsOnto]
        split <;> simp
    | succ _ ih =>
        intro _ _
        rw [digitsOnto]
        split
        · simp
        · exact ih _ _
  exact nonempty number number []

theorem valueFrom_cons (base accumulator : ℕ) (byte : UInt8) (text : List UInt8) :
    valueFrom base accumulator (byte :: text) =
      valueFrom base (accumulator * base + (digitValue base byte).getD 0) text :=
  rfl

theorem value_digitsOnto (large : 2 ≤ base) (small : base ≤ 16) (fuel : ℕ) :
    ∀ (number : ℕ) (printed : List UInt8), number < fuel →
      value base (digitsOnto base fuel number printed) = valueFrom base number printed := by
  induction fuel with
  | zero =>
      intro number _ _
      omega
  | succ _ ih =>
      intro number _ _
      have last : number % base < base := Nat.mod_lt _ (by omega)
      have split_number := Nat.div_add_mod number base
      simp only [digitsOnto]
      split
      next single =>
        rw [value, valueFrom_cons, digitValue_digitByte small last]
        rw [single, Nat.mul_zero, Nat.zero_add] at split_number
        simp [split_number]
      next several =>
        have smaller : number / base < number :=
          Nat.div_lt_self (Nat.pos_of_ne_zero fun zero => several (by simp [zero])) (by omega)
        rw [ih _ _ (by omega), valueFrom_cons, digitValue_digitByte small last]
        rw [Nat.mul_comm, Option.getD_some, split_number]

@[simp]
theorem value_digits (large : 2 ≤ base) (small : base ≤ 16) (number : ℕ) :
    value base (digits base number) = number := by
  rw [digits, value_digitsOnto large small _ _ _ (Nat.lt_succ_self number)]
  rfl

/-- The result of `std::from_chars` on an unsigned target of the given range: the
number and the text after the last digit, or nothing when there is no digit or
the number is out of range. -/
def fromChars (base range : ℕ) (text : List UInt8) : Option (ℕ × List UInt8) :=
  let scanned := text.takeWhile fun byte => (digitValue base byte).isSome
  if scanned = [] then none
  else if value base scanned < range then
    some (value base scanned, text.dropWhile fun byte => (digitValue base byte).isSome)
  else none

theorem takeWhile_digits_append (positive : 0 < base) (small : base ≤ 16)
    (stops : ∀ byte ∈ rest.head?, digitValue base byte = none) :
    (digits base number ++ rest).takeWhile (fun byte => (digitValue base byte).isSome) =
      digits base number := by
  have stopped : rest.takeWhile (fun byte => (digitValue base byte).isSome) = [] := by
    cases rest with
    | nil => rfl
    | cons byte _ => simp [stops byte (by simp)]
  rw [List.takeWhile_append_of_pos, stopped, List.append_nil]
  intro _ member
  exact isSome_digitValue_of_mem_digits positive small member

theorem dropWhile_digits_append (positive : 0 < base) (small : base ≤ 16)
    (stops : ∀ byte ∈ rest.head?, digitValue base byte = none) :
    (digits base number ++ rest).dropWhile (fun byte => (digitValue base byte).isSome) = rest := by
  have stopped : rest.dropWhile (fun byte => (digitValue base byte).isSome) = rest := by
    cases rest with
    | nil => rfl
    | cons byte _ => simp [stops byte (by simp)]
  rw [List.dropWhile_append_of_pos, stopped]
  intro _ member
  exact isSome_digitValue_of_mem_digits positive small member

theorem fromChars_digits_append (large : 2 ≤ base) (small : base ≤ 16) (inRange : number < range)
    (stops : ∀ byte ∈ rest.head?, digitValue base byte = none) :
    fromChars base range (digits base number ++ rest) = some (number, rest) := by
  have positive : 0 < base := by omega
  simp only [fromChars, takeWhile_digits_append positive small stops,
    dropWhile_digits_append positive small stops, if_neg (digits_ne_nil base number),
    value_digits large small, if_pos inRange]

theorem fromChars_digits (large : 2 ≤ base) (small : base ≤ 16) (inRange : number < range) :
    fromChars base range (digits base number) = some (number, []) := by
  have ends : ∀ byte ∈ ([] : List UInt8).head?, digitValue base byte = none := by simp
  simpa using fromChars_digits_append large small inRange ends

theorem valueFrom_lt (text : List UInt8) :
    ∀ accumulator : ℕ, 0 < base →
    valueFrom base accumulator text < (accumulator + 1) * base ^ text.length := by
  induction text with
  | nil =>
      intro accumulator _
      simp [valueFrom]
  | cons byte later ih =>
      intro accumulator positive
      have digit : (digitValue base byte).getD 0 < base := by
        cases found : digitValue base byte with
        | none => simpa using positive
        | some _ =>
            simp only [digitValue, Option.filter_eq_some_iff] at found
            simpa using found.2
      have step : accumulator * base + (digitValue base byte).getD 0 + 1 ≤
          (accumulator + 1) * base := by
        rw [Nat.succ_mul]
        omega
      calc valueFrom base accumulator (byte :: later)
          < (accumulator * base + (digitValue base byte).getD 0 + 1) * base ^ later.length :=
            ih _ positive
        _ ≤ (accumulator + 1) * base * base ^ later.length := Nat.mul_le_mul_right _ step
        _ = (accumulator + 1) * base ^ (byte :: later).length := by
            rw [List.length_cons, Nat.pow_succ', Nat.mul_assoc]

theorem lt_pow_length_digits (large : 2 ≤ base) (small : base ≤ 16) (number : ℕ) :
    number < base ^ (digits base number).length := by
  have bound := valueFrom_lt (digits base number) 0 (by omega : 0 < base)
  have same : valueFrom base 0 (digits base number) = number := value_digits large small number
  rw [same] at bound
  simpa using bound

theorem fromChars_lt {text : List UInt8} (read : fromChars base range text = some (number, rest)) :
    number < range := by
  simp only [fromChars] at read
  split at read
  · exact absurd read (by simp)
  · split at read
    next inRange =>
      simp only [Option.some.injEq, Prod.mk.injEq] at read
      exact read.1 ▸ inRange
    · exact absurd read (by simp)

/-- The whole text is read exactly if it is digits and the value is in range. -/
theorem fromChars_eq_whole_iff {text : List UInt8} :
    fromChars base range text = some (number, []) ↔
      text ≠ [] ∧ (∀ byte ∈ text, (digitValue base byte).isSome) ∧ value base text = number ∧
        number < range := by
  constructor
  · intro read
    have small := fromChars_lt read
    simp only [fromChars] at read
    split at read
    · exact absurd read (by simp)
    next scanned =>
      split at read
      · simp only [Option.some.injEq, Prod.mk.injEq] at read
        rcases read with ⟨rfl, nothing⟩
        have whole : text.takeWhile (fun byte => (digitValue base byte).isSome) = text := by
          have parts := List.takeWhile_append_dropWhile
            (p := fun byte => (digitValue base byte).isSome) (l := text)
          rwa [nothing, List.append_nil] at parts
        rw [whole] at scanned small ⊢
        exact ⟨scanned, List.takeWhile_eq_self_iff.mp whole, rfl, small⟩
      · exact absurd read (by simp)
  · rintro ⟨nonempty, digit, rfl, small⟩
    have whole : text.takeWhile (fun byte => (digitValue base byte).isSome) = text :=
      List.takeWhile_eq_self_iff.mpr digit
    have nothing : text.dropWhile (fun byte => (digitValue base byte).isSome) = [] :=
      List.dropWhile_eq_nil_iff.mpr digit
    simp only [fromChars, whole, nothing, if_neg nonempty, if_pos small]

end Library.Numeral
