import Corouv.Base

/-!
# URLs and host names

`parse_url`, `format_host_header` and `net::to_string` of an endpoint.  A host header with a
scheme before it and a target behind it is a URL, and `parse_url` finds all of it again.
-/

namespace Corouv.Http

open Library

inductive Scheme where
  | http
  | https
  deriving DecidableEq, Repr

structure Url where
  scheme : Scheme
  host : Bytes
  port : ℕ
  target : Bytes
  deriving DecidableEq, Repr

def Scheme.defaultPort : Scheme → ℕ
  | .http => 80
  | .https => 443

/-- A port number that `std::from_chars` reads completely. -/
def parsePort (text : Bytes) : Except Exn ℕ :=
  match Numeral.fromChars 10 (2 ^ 32) text with
  | some (port, []) =>
      if port > 65535 then throw (.invalidArgument "corouv::http::parse_url invalid port")
      else pure port
  | _ => throw (.invalidArgument "corouv::http::parse_url invalid port")

/-- Host and port of an authority that starts with a bracket. -/
def parseBracketed (authority : Bytes) : Except Exn (Bytes × Option ℕ) :=
  match find (ascii "]") authority with
  | none => throw (.invalidArgument "corouv::http::parse_url invalid IPv6 host")
  | some close => do
      let host := (authority.drop 1).take (close - 1)
      if close + 1 < authority.length then
        if authority[close + 1]? ≠ some 58 then
          throw (.invalidArgument "corouv::http::parse_url invalid authority")
        else
          let port ← parsePort (authority.drop (close + 2))
          pure (host, some port)
      else pure (host, none)

/-- Host and port of any other authority; with several colons it is all host. -/
def parsePlain (authority : Bytes) : Except Exn (Bytes × Option ℕ) :=
  match find (ascii ":") authority with
  | none => pure (authority, none)
  | some colon => do
      if (find (ascii ":") (authority.drop (colon + 1))).isSome then pure (authority, none)
      else
        let port ← parsePort (authority.drop (colon + 1))
        pure (authority.take colon, some port)

def parseAuthority (authority : Bytes) : Except Exn (Bytes × Option ℕ) :=
  if authority.head? = some 91 then parseBracketed authority else parsePlain authority

/-- The request target in what follows the authority. -/
def parseTarget (remainder : Bytes) : Bytes :=
  match remainder with
  | [] => ascii "/"
  | 35 :: _ => ascii "/"
  | _ =>
      let withoutFragment := remainder.take ((find (ascii "#") remainder).getD remainder.length)
      if withoutFragment.head? = some 63 then ascii "/" ++ withoutFragment else withoutFragment

def parseScheme (url : Bytes) : Except Exn (Scheme × Bytes) :=
  if ascii "http://" <+: url then pure (.http, url.drop 7)
  else if ascii "https://" <+: url then pure (.https, url.drop 8)
  else throw (.invalidArgument "corouv::http::parse_url only supports http:// and https://")

def parseUrl (url : Bytes) : Except Exn Url := do
  let (scheme, remainder) ← parseScheme url
  let inAuthority := fun byte : UInt8 => !(ascii "/?#").contains byte
  let authority := remainder.takeWhile inAuthority
  if authority = [] then throw (.invalidArgument "corouv::http::parse_url missing host")
  else
    let (host, port) ← parseAuthority authority
    if host = [] then throw (.invalidArgument "corouv::http::parse_url missing host")
    else pure ⟨scheme, host, port.getD scheme.defaultPort,
      parseTarget (remainder.dropWhile inAuthority)⟩

/-- `net::to_string` of an endpoint. -/
def endpointToString (host : Bytes) (port : ℕ) : Bytes :=
  if (find (ascii ":") host).isSome then
    ascii "[" ++ host ++ ascii "]:" ++ Numeral.digits 10 port
  else host ++ ascii ":" ++ Numeral.digits 10 port

/-- The two functions of this name differ in the port they leave out. -/
def formatHostHeader (scheme : Scheme) (host : Bytes) (port : ℕ) : Bytes :=
  if port = scheme.defaultPort then
    if (find (ascii ":") host).isSome then ascii "[" ++ host ++ ascii "]" else host
  else endpointToString host port

theorem isPrefix_append_hash {marker : Bytes} (apart : 35 ∉ marker) (url fragment : Bytes) :
    marker <+: url ++ 35 :: fragment ↔ marker <+: url := by
  constructor
  · intro starts
    rcases List.prefix_or_prefix_of_prefix starts (List.prefix_append url _) with
      inside | ⟨more, split⟩
    · exact inside
    · rw [← split, List.prefix_append_right_inj] at starts
      cases more with
      | nil =>
          have same : url = marker := (List.append_nil url).symm.trans split
          exact ⟨[], (List.append_nil marker).trans same.symm⟩
      | cons byte _ =>
          have same : byte = 35 := (List.cons_prefix_cons.mp starts).1
          refine absurd ?_ apart
          rw [← split, same]
          simp
  · intro starts
    exact starts.trans (List.prefix_append _ _)

theorem takeWhile_append_hash (inside : UInt8 → Bool) (ends : inside 35 = false)
    (text fragment : Bytes) :
    (text ++ 35 :: fragment).takeWhile inside = text.takeWhile inside ∧
      (text ++ 35 :: fragment).dropWhile inside = text.dropWhile inside ++ 35 :: fragment := by
  induction text with
  | nil => simp [ends]
  | cons byte _ ih =>
      by_cases here : inside byte = true
      · simp [here, ih.1, ih.2]
      · simp [here]

theorem parseTarget_cons {byte : UInt8} (other : byte ≠ 35) (rest : Bytes) :
    parseTarget (byte :: rest) =
      (if byte = 63 then ascii "/" else []) ++ byte :: rest.takeWhile fun byte => byte ≠ 35 := by
  have cut := take_find_singleton (35 : UInt8) (byte :: rest)
  rw [List.takeWhile_cons_of_pos (by simpa using other)] at cut
  have shape : parseTarget (byte :: rest) =
      let withoutFragment := (byte :: rest).take
        ((find (ascii "#") (byte :: rest)).getD (byte :: rest).length)
      if withoutFragment.head? = some 63 then ascii "/" ++ withoutFragment
      else withoutFragment := by
    rw [parseTarget]
    · simp
    · rintro _ ⟨⟩
      exact other rfl
  have hash : ascii "#" = [35] := rfl
  rw [shape, hash, cut]
  simp only [List.head?_cons, Option.some.injEq]
  split
  · rfl
  · rfl

theorem parseTarget_of_notMem {byte : UInt8} {rest : Bytes} (whole : 35 ∉ byte :: rest) :
    parseTarget (byte :: rest) = (if byte = 63 then ascii "/" else []) ++ byte :: rest := by
  rcases List.ne_and_not_mem_of_not_mem_cons whole with ⟨other, later⟩
  have same : (rest.takeWhile fun byte => byte ≠ 35) = rest := by
    apply List.takeWhile_eq_self_iff.mpr
    intro byte member
    simpa using fun hash : byte = 35 => later (hash ▸ member)
  rw [parseTarget_cons other.symm, same]

theorem parseTarget_append_hash (remainder fragment : Bytes) :
    parseTarget (remainder ++ 35 :: fragment) = parseTarget remainder := by
  cases remainder with
  | nil => rfl
  | cons byte rest =>
      by_cases hash : byte = 35
      · rw [hash]
        rfl
      · have cut := (takeWhile_append_hash (fun byte => byte ≠ 35) (by simp) rest fragment).1
        rw [List.cons_append, parseTarget_cons hash, parseTarget_cons hash, cut]

theorem parseScheme_append_hash (url fragment : Bytes) :
    parseScheme (url ++ 35 :: fragment) =
      (parseScheme url).map fun found => (found.1, found.2 ++ 35 :: fragment) := by
  have plain : 35 ∉ ascii "http://" := by decide
  have secure : 35 ∉ ascii "https://" := by decide
  simp only [parseScheme, isPrefix_append_hash plain, isPrefix_append_hash secure]
  split
  next starts =>
    have enough : 7 ≤ url.length := starts.length_le
    rw [List.drop_append_of_le_length enough]
    rfl
  · split
    next starts =>
      have enough : 8 ≤ url.length := starts.length_le
      rw [List.drop_append_of_le_length enough]
      rfl
    · rfl

theorem parseUrl_append_fragment (url fragment : Bytes) :
    parseUrl (url ++ ascii "#" ++ fragment) = parseUrl url := by
  have shape : url ++ ascii "#" ++ fragment = url ++ 35 :: fragment := by simp [ascii]
  rw [shape, parseUrl, parseUrl, parseScheme_append_hash]
  cases parseScheme url with
  | error _ => rfl
  | ok found =>
      rcases found with ⟨_, remainder⟩
      have cut := takeWhile_append_hash (fun byte => !(ascii "/?#").contains byte) (by decide)
        remainder fragment
      simp only [Except.map, bind, Except.bind]
      rw [cut.1, cut.2]
      simp only [parseTarget_append_hash]

variable {host : Bytes} {port : ℕ}

theorem parsePort_digits (small : port ≤ 65535) :
    parsePort (Numeral.digits 10 port) = .ok port := by
  have read : Numeral.fromChars 10 (2 ^ 32) (Numeral.digits 10 port) = some (port, []) :=
    Numeral.fromChars_digits (by norm_num) (by norm_num) (by omega)
  rw [parsePort, read]
  exact if_neg (by omega)

theorem find_bracket (closed : 93 ∉ host) (rest : Bytes) :
    find (ascii "]") (91 :: (host ++ 93 :: rest)) = some (host.length + 1) := by
  have early : 93 ∉ 91 :: host := by
    intro member
    rcases List.mem_cons.mp member with bracket | inside
    · exact absurd bracket (by decide)
    · exact closed inside
  have found : find (ascii "]") (91 :: host ++ ascii "]" ++ rest) = some (91 :: host).length :=
    find_append_of_notMem early
  rw [List.append_assoc] at found
  exact found

theorem parseBracketed_of_closed (closed : 93 ∉ host) :
    parseBracketed (91 :: (host ++ [93])) = .ok (host, none) := by
  rw [parseBracketed, find_bracket closed []]
  simp
  rfl

theorem parseBracketed_append (closed : 93 ∉ host) (small : port ≤ 65535) :
    parseBracketed (91 :: (host ++ 93 :: 58 :: Numeral.digits 10 port)) =
      .ok (host, some port) := by
  have next : (91 :: (host ++ 93 :: 58 :: Numeral.digits 10 port))[host.length + 1 + 1]? =
      some 58 := by
    simp
  have behind : (91 :: (host ++ 93 :: 58 :: Numeral.digits 10 port)).drop (host.length + 1 + 2) =
      Numeral.digits 10 port := by
    simp
  have inside : host.length + 1 + 1 <
      (91 :: (host ++ 93 :: 58 :: Numeral.digits 10 port)).length := by
    simp only [List.length_cons, List.length_append]
    omega
  rw [parseBracketed, find_bracket closed]
  dsimp only
  rw [if_pos inside, if_neg (not_not.mpr next), behind, parsePort_digits small]
  simp

theorem parsePlain_of_notMem (apart : 58 ∉ host) : parsePlain host = .ok (host, none) := by
  have absent : find (ascii ":") host = none := find_eq_none_of_notMem apart
  rw [parsePlain, absent]
  rfl

theorem parsePlain_append (apart : 58 ∉ host) (small : port ≤ 65535) :
    parsePlain (host ++ ascii ":" ++ Numeral.digits 10 port) = .ok (host, some port) := by
  have found : find (ascii ":") (host ++ ascii ":" ++ Numeral.digits 10 port) =
      some host.length := find_append_of_notMem apart
  have digits : 58 ∉ Numeral.digits 10 port :=
    Numeral.notMem_digits 10 port (by norm_num) (by norm_num) (by decide)
  have behind : (host ++ ascii ":" ++ Numeral.digits 10 port).drop (host.length + 1) =
      Numeral.digits 10 port := by
    rw [List.append_assoc, ← List.drop_drop, List.drop_left]
    rfl
  have once : find (ascii ":") (Numeral.digits 10 port) = none := find_eq_none_of_notMem digits
  rw [parsePlain, found]
  simp only [behind, once, Option.isSome_none, Bool.false_eq_true, if_false, parsePort_digits small]
  rw [List.append_assoc, List.take_left]
  rfl

/-- `format_host_header` is read back, with the default port left out. -/
theorem parseAuthority_formatHostHeader (scheme : Scheme) (nonempty : host ≠ [])
    (plain : ∀ byte ∈ host, byte ∉ ascii "/?#[]") (small : port ≤ 65535) :
    parseAuthority (formatHostHeader scheme host port) =
      .ok (host, if port = scheme.defaultPort then none else some port) := by
  have closed : 93 ∉ host := fun member => plain 93 member (by decide)
  have unopened : host.head? ≠ some 91 := by
    intro first
    exact plain 91 (List.mem_of_mem_head? first) (by decide)
  rw [formatHostHeader, endpointToString]
  by_cases colon : 58 ∈ host
  · have found : (find (ascii ":") host).isSome = true := by
      rcases List.eq_append_cons_of_mem colon with ⟨front, back, split, early⟩
      have first : find (ascii ":") (front ++ ascii ":" ++ back) = some front.length :=
        find_append_of_notMem early
      rw [List.append_assoc] at first
      rw [split, show (front ++ 58 :: back) = front ++ (ascii ":" ++ back) from rfl, first]
      rfl
    rw [if_pos found, if_pos found]
    split
    · exact parseBracketed_of_closed closed
    · have shape : ascii "[" ++ host ++ ascii "]:" ++ Numeral.digits 10 port =
          91 :: (host ++ 93 :: 58 :: Numeral.digits 10 port) := by
        simp [ascii]
      rw [shape]
      exact parseBracketed_append closed small
  · have absent : find (ascii ":") host = none := find_eq_none_of_notMem colon
    rw [absent]
    simp only [Option.isSome_none, Bool.false_eq_true, if_false]
    split
    · rw [parseAuthority, if_neg unopened]
      exact parsePlain_of_notMem colon
    · have first : (host ++ ascii ":" ++ Numeral.digits 10 port).head? = host.head? := by
        rw [List.append_assoc, List.head?_append_of_ne_nil _ nonempty]
      rw [parseAuthority, first, if_neg unopened]
      exact parsePlain_append colon small

theorem plain_formatHostHeader (scheme : Scheme) (port : ℕ)
    (plain : ∀ byte ∈ host, byte ∉ ascii "/?#[]") :
    ∀ byte ∈ formatHostHeader scheme host port, byte ∉ ascii "/?#" := by
  have own : ∀ byte ∈ host, byte ∉ ascii "/?#" := by
    intro byte member inside
    exact plain byte member (List.mem_append_left (ascii "[]") inside)
  have digits : ∀ byte ∈ Numeral.digits 10 port, byte ∉ ascii "/?#" := by
    intro byte member inside
    have digit := Numeral.isSome_digitValue_of_mem_digits (by norm_num) (by norm_num) member
    have other : ∀ byte ∈ ascii "/?#", (Numeral.digitValue 10 byte).isSome = false := by
      decide +kernel
    exact absurd digit (by simp [other byte inside])
  have marks : ∀ byte ∈ ascii "[]:", byte ∉ ascii "/?#" := by decide +kernel
  intro byte member
  have parts : byte ∈ ascii "[]:" ∨ byte ∈ host ∨ byte ∈ Numeral.digits 10 port := by
    rw [formatHostHeader, endpointToString] at member
    split at member
    · split at member
      · simp only [List.mem_append] at member
        rcases member with (opens | inside) | closes
        · exact .inl (List.mem_append_left (ascii "]:") opens)
        · exact .inr (.inl inside)
        · left
          rw [List.mem_singleton.mp closes]
          decide
      · exact .inr (.inl member)
    · split at member
      · simp only [List.mem_append] at member
        rcases member with ((opens | inside) | closes) | digit
        · exact .inl (List.mem_append_left (ascii "]:") opens)
        · exact .inr (.inl inside)
        · exact .inl (List.mem_append_right (ascii "[") closes)
        · exact .inr (.inr digit)
      · simp only [List.mem_append] at member
        rcases member with (inside | colon) | digit
        · exact .inr (.inl inside)
        · exact .inl (List.mem_append_right (ascii "[]") colon)
        · exact .inr (.inr digit)
  rcases parts with mark | inside | digit
  · exact marks byte mark
  · exact own byte inside
  · exact digits byte digit

def Scheme.marker : Scheme → Bytes
  | .http => ascii "http://"
  | .https => ascii "https://"

theorem parseScheme_marker (scheme : Scheme) (rest : Bytes) :
    parseScheme (scheme.marker ++ rest) = .ok (scheme, rest) := by
  cases scheme with
  | http =>
      have starts : ascii "http://" <+: Scheme.http.marker ++ rest := List.prefix_append _ _
      rw [parseScheme, if_pos starts]
      rfl
  | https =>
      have starts : ascii "https://" <+: Scheme.https.marker ++ rest := List.prefix_append _ _
      have other : ¬ascii "http://" <+: Scheme.https.marker ++ rest := by
        simp [ascii, Scheme.marker]
      rw [parseScheme, if_neg other, if_pos starts]
      rfl

/-- A URL put together from its parts is taken apart into them. -/
theorem parseUrl_marker (scheme : Scheme) (nonempty : host ≠ [])
    (plain : ∀ byte ∈ host, byte ∉ ascii "/?#[]") (small : port ≤ 65535) {target : Bytes}
    (starts : ∀ byte ∈ target.head?, byte ∈ ascii "/?#") :
    parseUrl (scheme.marker ++ formatHostHeader scheme host port ++ target) =
      .ok ⟨scheme, host, port, parseTarget target⟩ := by
  have inside : ∀ byte ∈ formatHostHeader scheme host port,
      (!(ascii "/?#").contains byte) = true := by
    intro byte member
    simpa using plain_formatHostHeader scheme port plain byte member
  have ends : target.takeWhile (fun byte => !(ascii "/?#").contains byte) = [] ∧
      target.dropWhile (fun byte => !(ascii "/?#").contains byte) = target := by
    cases target with
    | nil => exact ⟨rfl, rfl⟩
    | cons byte _ =>
        have stops : byte ∈ ascii "/?#" := starts byte rfl
        exact ⟨List.takeWhile_cons_of_neg (by simpa using stops),
          List.dropWhile_cons_of_neg (by simpa using stops)⟩
  have authority := parseAuthority_formatHostHeader scheme nonempty plain small
  have present : formatHostHeader scheme host port ≠ [] := by
    intro nothing
    rw [nothing] at authority
    have same : ([] : Bytes) = host := congrArg Prod.fst (Except.ok.inj authority)
    exact nonempty same.symm
  rw [List.append_assoc, parseUrl, parseScheme_marker]
  simp only [bind, Except.bind]
  rw [List.takeWhile_append_of_pos inside, List.dropWhile_append_of_pos inside, ends.1, ends.2,
    List.append_nil, if_neg present, authority]
  dsimp only
  rw [if_neg nonempty]
  split
  next default => simp [default]; rfl
  · rfl

/-- What `format_host_header` writes, `parse_url` reads. -/
theorem parseUrl_formatHostHeader (scheme : Scheme) {host : Bytes} {port : ℕ} {target : Bytes}
    (nonempty : host ≠ []) (plain : ∀ byte ∈ host, byte ∉ ascii "/?#[]")
    (small : port ≤ 65535) (whole : 35 ∉ target) :
    (target.head? = some 47 →
      parseUrl (scheme.marker ++ formatHostHeader scheme host port ++ target) =
        .ok ⟨scheme, host, port, target⟩) ∧
    (target.head? = some 63 →
      parseUrl (scheme.marker ++ formatHostHeader scheme host port ++ target) =
        .ok ⟨scheme, host, port, ascii "/" ++ target⟩) ∧
    ∀ fragment,
      parseUrl (scheme.marker ++ formatHostHeader scheme host port ++ target ++ ascii "#" ++
        fragment) = parseUrl (scheme.marker ++ formatHostHeader scheme host port ++ target) := by
  refine ⟨?_, ?_, fun fragment => parseUrl_append_fragment _ fragment⟩
  · intro slash
    rcases List.head?_eq_some_iff.mp slash with ⟨_, rfl⟩
    rw [parseUrl_marker scheme nonempty plain small (by simp [ascii]), parseTarget_of_notMem whole]
    rfl
  · intro question
    rcases List.head?_eq_some_iff.mp question with ⟨_, rfl⟩
    rw [parseUrl_marker scheme nonempty plain small (by simp [ascii]), parseTarget_of_notMem whole]
    rfl

/-- A host with colons, and the port of the other scheme. -/
theorem parseUrl_formatHostHeader_local :
    parseUrl (ascii "https://" ++ formatHostHeader .https (ascii "::1") 80 ++ ascii "/a?b") =
      .ok ⟨.https, ascii "::1", 80, ascii "/a?b"⟩ :=
  (parseUrl_formatHostHeader .https (by decide +kernel) (by decide +kernel) (by decide)
    (by decide +kernel)).1 (by decide +kernel)

end Corouv.Http
