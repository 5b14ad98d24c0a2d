import Corouv.Library.Fold
import Corouv.Library.Numeral

/-!
# Percent encoding

Bytes that stand for themselves or for another byte, and all others as `%` and two
hexadecimal digits.  Which bytes are kept, and what a byte outside an escape is read as, are
parameters: encoding is undone by decoding if the two agree.
-/

namespace Library.Percent

open Numeral

variable {ε : Type} {keep : UInt8 → Option UInt8} {literal : UInt8 → UInt8} {failure : ε}

/-- The ASCII digit of a value below sixteen, in upper case. -/
def hexDigit (digit : ℕ) : UInt8 :=
  if digit < 10 then UInt8.ofNat (48 + digit) else UInt8.ofNat (55 + digit)

def encodeByte (keep : UInt8 → Option UInt8) (byte : UInt8) : List UInt8 :=
  match keep byte with
  | some kept => [kept]
  | none => [37, hexDigit (byte.toNat / 16), hexDigit (byte.toNat % 16)]

def encode (keep : UInt8 → Option UInt8) (text : List UInt8) : List UInt8 :=
  text.flatMap (encodeByte keep)

/-- An escape that is cut off or has no hexadecimal digits is a failure. -/
def decode (literal : UInt8 → UInt8) (failure : ε) : List UInt8 → Except ε (List UInt8)
  | [] => .ok []
  | byte :: rest =>
      if byte = 37 then
        match rest with
        | high :: low :: later =>
            match digitValue 16 high, digitValue 16 low with
            | some hi, some lo =>
                (decode literal failure later).map (UInt8.ofNat (hi * 16 + lo) :: ·)
            | _, _ => .error failure
        | _ => .error failure
      else (decode literal failure rest).map (literal byte :: ·)

theorem digitValue_hexDigit {digit : ℕ} (small : digit < 16) :
    digitValue 16 (hexDigit digit) = some digit := by
  interval_cases digit <;> rfl

theorem decode_literal {byte : UInt8} (unescaped : byte ≠ 37) (rest : List UInt8) :
    decode literal failure (byte :: rest) =
      (decode literal failure rest).map (literal byte :: ·) := by
  rw [decode.eq_def]
  exact if_neg unescaped

theorem decode_escape (byte : UInt8) (rest : List UInt8) :
    decode literal failure
        (37 :: hexDigit (byte.toNat / 16) :: hexDigit (byte.toNat % 16) :: rest) =
      (decode literal failure rest).map (byte :: ·) := by
  have bounded : byte.toNat < 256 := byte.toNat_lt
  have high := digitValue_hexDigit (show byte.toNat / 16 < 16 by omega)
  have low := digitValue_hexDigit (show byte.toNat % 16 < 16 by omega)
  have whole : UInt8.ofNat (byte.toNat / 16 * 16 + byte.toNat % 16) = byte := by
    rw [Nat.div_add_mod']
    exact UInt8.ofNat_toNat
  simp [decode, high, low, whole]

/-- What is kept is read back as what it was kept for. -/
def Agree (keep : UInt8 → Option UInt8) (literal : UInt8 → UInt8) : Prop :=
  ∀ byte kept, keep byte = some kept → kept ≠ 37 ∧ literal kept = byte

theorem decode_encodeByte (agree : Agree keep literal) (byte : UInt8) (rest : List UInt8) :
    decode literal failure (encodeByte keep byte ++ rest) =
      (decode literal failure rest).map (byte :: ·) := by
  cases kept : keep byte with
  | none =>
      simp only [encodeByte, kept, List.cons_append, List.nil_append]
      exact decode_escape byte rest
  | some written =>
      rcases agree byte written kept with ⟨unescaped, same⟩
      simp only [encodeByte, kept, List.cons_append, List.nil_append]
      rw [decode_literal unescaped, same]

theorem decode_encode (agree : Agree keep literal) (text : List UInt8) :
    decode literal failure (encode keep text) = .ok text := by
  induction text with
  | nil => rfl
  | cons byte rest ih =>
      have unfolded : encode keep (byte :: rest) = encodeByte keep byte ++ encode keep rest := rfl
      rw [unfolded, decode_encodeByte agree, ih]
      rfl

theorem length_decode_le {text decoded : List UInt8}
    (ok : decode literal failure text = .ok decoded) :
    decoded.length ≤ text.length := by
  fun_induction decode literal failure text generalizing decoded with
  | case1 =>
      cases ok
      exact Nat.le_refl _
  | case2 _ _ _ _ _ _ _ ih =>
      rcases except_map_eq_ok.mp ok with ⟨_, here, rfl⟩
      have := ih here
      simp only [List.length_cons]
      omega
  | case3 => cases ok
  | case4 => cases ok
  | case5 _ _ _ ih =>
      rcases except_map_eq_ok.mp ok with ⟨_, here, rfl⟩
      have := ih here
      simp only [List.length_cons]
      omega

theorem notMem_encode {byte : UInt8} (unkept : ∀ other, keep other ≠ some byte)
    (apart : byte ≠ 37) (noDigit : digitValue 16 byte = none) (text : List UInt8) :
    byte ∉ encode keep text := by
  have noHex : ∀ digit < 16, byte ≠ hexDigit digit := by
    rintro _ small rfl
    rw [digitValue_hexDigit small] at noDigit
    cases noDigit
  intro member
  rcases List.mem_flatMap.mp member with ⟨other, -, written⟩
  have bounded : other.toNat < 256 := other.toNat_lt
  cases kept : keep other with
  | some _ =>
      simp only [encodeByte, kept, List.mem_singleton] at written
      exact unkept other (written ▸ kept)
  | none =>
      simp only [encodeByte, kept, List.mem_cons, List.not_mem_nil, or_false] at written
      rcases written with same | same | same
      · exact apart same
      · exact noHex _ (by omega) same
      · exact noHex _ (by omega) same

end Library.Percent
