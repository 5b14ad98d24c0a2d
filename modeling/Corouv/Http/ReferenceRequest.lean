import Corouv.Http.ReferenceParser
import Corouv.Http.SentRequest

/-!
# A parser of request heads

The counterpart of `Corouv.Http.ReferenceParser` for `phr_parse_request`: it is stable, and
it takes every well-formed head apart again.
-/

namespace Corouv.Http

open Library

namespace Reference

/-- The method, the target and the minor version. -/
def requestLine (line : Bytes) : Option (Bytes × Bytes × ℕ) :=
  (find (ascii " ") line).bind fun space =>
    (find (ascii " ") (line.drop (space + 1))).bind fun second =>
      (Numeral.fromChars 10 10 ((line.drop (space + 1)).drop (second + 8))).map fun minor =>
        (line.take space, (line.drop (space + 1)).take second, minor.1)

def requestHead (maxHeaders : ℕ) (view : Bytes) : Option (RequestHead × Bytes) :=
  (headLine view).bind fun first =>
    (requestLine first.1).bind fun line =>
      (headFields maxHeaders first.2).map fun fields =>
        (⟨line.1, line.2.1, line.2.2, fields.1⟩, fields.2)

def request (maxHeaders : ℕ) (view : Bytes) (_ : ℕ) : Parsed RequestHead :=
  match requestHead maxHeaders view with
  | some (head, rest) => .complete (view.length - rest.length) head
  | none => .incomplete

/-- A parser of requests and of responses. -/
def duplexParser : HeadParser :=
  ⟨request, response⟩

theorem requestHead_eq : requestHead = startAndFields requestLine
    fun line fields => ⟨line.1, line.2.1, line.2.2, fields⟩ :=
  rfl

variable {maxHeaders : ℕ}

variable {view : Bytes} {head : RequestHead} {sent : Request} {headers : Headers}

theorem requestHead_append {rest : Bytes} (more : Bytes)
    (read : requestHead maxHeaders view = some (head, rest)) :
    requestHead maxHeaders (view ++ more) = some (head, rest ++ more) ∧
      rest.length < view.length := by
  rw [requestHead_eq] at read ⊢
  exact startAndFields_append more read

theorem request_eq_complete {lastLen length : ℕ} :
    request maxHeaders view lastLen = .complete length head ↔
      ∃ rest, requestHead maxHeaders view = some (head, rest) ∧
        length = view.length - rest.length := by
  simp only [request]
  split
  next head' rest read => simp [read, eq_comm, and_comm]
  next unread => simp [unread]

theorem prefixStable_request (maxHeaders : ℕ) : PrefixStable (request maxHeaders) := by
  constructor
  · intro _ _ _ _ complete
    rcases request_eq_complete.mp complete with ⟨rest, read, rfl⟩
    have shorter := (requestHead_append [] read).2
    omega
  · intro _ _ _ complete more
    rcases request_eq_complete.mp complete with ⟨rest, read, rfl⟩
    apply request_eq_complete.mpr
    refine ⟨rest ++ more, (requestHead_append more read).1, ?_⟩
    simp only [List.length_append]
    omega
  · intro _ _ _ _ _
    exact request_eq_complete.trans request_eq_complete.symm
  · intro _ _ _ malformed
    simp only [request] at malformed
    split at malformed
    · cases malformed
    · cases malformed

theorem requestLine_sent {method target : Bytes} {minor : ℕ} (methodPlain : 32 ∉ method)
    (targetPlain : 32 ∉ target) (oneDigit : minor < 10) :
    requestLine (method ++ ascii " " ++ target ++ ascii " HTTP/1." ++ Numeral.digits 10 minor) =
      some (method, target, minor) := by
  have split : method ++ ascii " " ++ target ++ ascii " HTTP/1." ++ Numeral.digits 10 minor =
      method ++ ascii " " ++ (target ++ ascii " " ++ (version ++ Numeral.digits 10 minor)) := by
    simp only [List.append_assoc]
    rfl
  have first : find (ascii " ") (method ++ ascii " " ++
      (target ++ ascii " " ++ (version ++ Numeral.digits 10 minor))) = some method.length :=
    find_append_of_notMem methodPlain
  have behind : (method ++ ascii " " ++ (target ++ ascii " " ++
      (version ++ Numeral.digits 10 minor))).drop (method.length + 1) =
        target ++ ascii " " ++ (version ++ Numeral.digits 10 minor) := by
    simp [ascii, List.drop_append]
  have second : find (ascii " ") (target ++ ascii " " ++ (version ++ Numeral.digits 10 minor)) =
      some target.length := find_append_of_notMem targetPlain
  have last : (target ++ ascii " " ++ (version ++ Numeral.digits 10 minor)).drop
      (target.length + 8) = Numeral.digits 10 minor := by
    rw [List.append_assoc, List.drop_append, List.drop_eq_nil_of_le (by omega),
      Nat.add_sub_cancel_left]
    rfl
  rw [split, requestLine, first, Option.bind_some, behind, second, Option.bind_some, last,
    Numeral.fromChars_digits (by norm_num : 2 ≤ 10) (by norm_num) oneDigit, Option.map_some]
  simp

/-- A printable request head is taken apart into the strings it was made of. -/
theorem requestHead_of_onLine (method : ∀ byte ∈ sent.method, isTokenByte byte = true)
    (targetPlain : ∀ byte ∈ sent.target, isTargetByte byte = true)
    (version : sent.versionMinor = 0 ∨ sent.versionMinor = 1)
    (onLine : ∀ header ∈ headers, header.OnLine) (few : headers.length ≤ maxHeaders) :
    requestHead maxHeaders (requestHeadBytes sent headers) =
      some (⟨sent.method, sent.sentTarget, sent.versionMinor,
        headers.map fun header => ⟨some header.name, trimCopy header.value⟩⟩, []) := by
  have minor : 0 ≤ sent.versionMinor ∧ sent.versionMinor < 10 := by
    rcases version with _ | _
    · omega
    · omega
  have target : ∀ byte ∈ sent.sentTarget, isTargetByte byte = true := by
    simp only [Request.sentTarget]
    split
    · decide +kernel
    · exact targetPlain
  have head_eq : requestHeadBytes sent headers = sent.method ++ ascii " " ++ sent.sentTarget ++
      ascii " HTTP/1." ++ Numeral.digits 10 sent.versionMinor.natAbs ++ crlf ++
        (serializeHeaders headers ++ crlf ++ []) := by
    simp only [requestHeadBytes, intToString_of_nonneg minor.1, List.append_assoc, List.append_nil]
    rfl
  have noReturn : 13 ∉ sent.method ++ ascii " " ++ sent.sentTarget ++ ascii " HTTP/1." ++
      Numeral.digits 10 sent.versionMinor.natAbs := by
    simp only [List.mem_append, not_or]
    refine ⟨⟨⟨⟨fun mem => ?_, by decide⟩, fun mem => ?_⟩, by decide⟩, ?_⟩
    · exact absurd (method 13 mem) (by decide)
    · exact absurd (target 13 mem) (by decide)
    · exact Numeral.notMem_digits 10 _ (by norm_num) (by norm_num) (by decide)
  have line := requestLine_sent (fun mem => absurd (method 32 mem) (by decide))
    (fun mem => absurd (target 32 mem) (by decide)) (by omega : sent.versionMinor.natAbs < 10)
  rw [head_eq, requestHead, headLine_of_notMem _ noReturn, Option.bind_some, line,
    Option.bind_some, headFields_of_onLine _ _ _ few onLine, Option.map_some]
  rw [Int.natAbs_of_nonneg minor.1]

theorem parsesBack (config : Config) (duplex : config.parser = duplexParser)
    (plain : sent.PlainHead headers) (few : headers.length ≤ config.limits.maxHeaderCount) :
    ParsesBack config sent headers := by
  have read := requestHead_of_onLine plain.method plain.target plain.version
    (fun header mem => (plain.headers header mem).onLine) few
  rw [map_trimCopy_of_plain plain.headers] at read
  rw [ParsesBack, duplex]
  show request config.limits.maxHeaderCount (requestHeadBytes sent headers) 0 = _
  exact request_eq_complete.mpr ⟨[], read, by simp⟩

end Reference

def duplexConfig : Config :=
  { parser := Reference.duplexParser }

end Corouv.Http
