import Corouv.Library.Percent
import Corouv.Sql.Connection

/-!
# Connection URLs

`parse_connection_url` cuts a URL at its marks before it decodes the pieces.  Only the spelling
`sqlite:` is read as a path.
-/

namespace Corouv.Sql

open Library

/-- What stands before the first of a byte, and behind it if there is one. -/
def cut (mark : UInt8) (text : Bytes) : Bytes × Option Bytes :=
  (text.takeWhile (· ≠ mark), (text.dropWhile (· ≠ mark)).tail?)

/-- What stands before the last of a byte if there is one, and behind it. -/
def cutLast (mark : UInt8) (text : Bytes) : Option Bytes × Bytes :=
  let found := cut mark text.reverse
  (found.2.map List.reverse, found.1.reverse)

def decodePercent (value : Bytes) : Except Exn Bytes :=
  Percent.decode id (.invalidArgument "corouv::sql invalid percent-encoding in URL") value

/-- A port, or zero if none is given. -/
def parsePort (text : Bytes) : Except Exn ℕ :=
  if text = [] then pure 0
  else
    match Numeral.fromChars 10 (2 ^ 32) text with
    | some (port, []) =>
        if port > 65535 then throw (.invalidArgument "corouv::sql invalid port in URL")
        else pure port
    | _ => throw (.invalidArgument "corouv::sql invalid port in URL")

/-- `out[key] = value` -/
def assign (options : List (Bytes × Bytes)) (key value : Bytes) : List (Bytes × Bytes) :=
  if key ∈ options.map Prod.fst then
    options.map fun option => if option.1 = key then (key, value) else option
  else options ++ [(key, value)]

def parseOption (options : List (Bytes × Bytes)) (token : Bytes) :
    Except Exn (List (Bytes × Bytes)) :=
  if token = [] then pure options
  else do
    let key ← decodePercent (cut 61 token).1
    let value ← decodePercent ((cut 61 token).2.getD [])
    pure (if key = [] then options else assign options key value)

def parseQueryOptions (query : Bytes) : Except Exn (List (Bytes × Bytes)) :=
  (query.splitOn 38).foldlM parseOption []

def parseUserinfo (userinfo : Bytes) : Except Exn (Bytes × Bytes) := do
  let username ← decodePercent (cut 58 userinfo).1
  let password ← decodePercent ((cut 58 userinfo).2.getD [])
  pure (username, password)

/-- With several colons and no bracket it is all host. -/
def parseHostPort (hostPort : Bytes) : Except Exn (Bytes × ℕ) :=
  if hostPort.head? = some 91 then
    match cut 93 hostPort with
    | (_, none) => throw (.invalidArgument "corouv::sql invalid bracketed host in URL")
    | (host, some []) => pure (host.tail, 0)
    | (host, some (58 :: port)) => (parsePort port).map (host.tail, ·)
    | _ => throw (.invalidArgument "corouv::sql invalid host:port")
  else
    match cut 58 hostPort with
    | (_, none) => pure (hostPort, 0)
    | (host, some port) =>
        if 58 ∈ port then pure (hostPort, 0) else (parsePort port).map (host, ·)

/-- Database and options. -/
def parseTail : Bytes → Except Exn (Bytes × List (Bytes × Bytes))
  | 47 :: rest => do
      let database ← decodePercent (cut 63 rest).1
      let options ← parseQueryOptions ((cut 63 rest).2.getD [])
      pure (database, options)
  | 63 :: query => (parseQueryOptions query).map ([], ·)
  | _ => pure ([], [])

def Backend.defaultPort : Backend → ℕ
  | .postgreSql => 5432
  | .mySql => 3306
  | _ => 0

def inAuthority (byte : UInt8) : Bool :=
  !(ascii "/?").contains byte

/-- What follows the scheme. -/
def parseRest (backend : Backend) (rest : Bytes) : Except Exn ConnectionInfo := do
  let (userinfo, hostPort) := cutLast 64 (rest.takeWhile inAuthority)
  let (username, password) ← parseUserinfo (userinfo.getD [])
  let (host, port) ← parseHostPort hostPort
  let (database, options) ← parseTail (rest.dropWhile inAuthority)
  let port := if port = 0 then backend.defaultPort else port
  pure { backend, host, port, database, username, password, options }

def stripPrefix (text marker : Bytes) : Bytes :=
  if marker <+: text then text.drop marker.length else text

def parsePath (url : Bytes) : Except Exn ConnectionInfo :=
  let path := stripPrefix (stripPrefix url (ascii "sqlite:")) (ascii "//")
  let decoded := if path = ascii "/:memory:" then pure (ascii ":memory:") else decodePercent path
  decoded.map fun path =>
    { backend := .sqlite, scheme := ascii "sqlite",
      path := if path = [] then ascii ":memory:" else path }

def parseConnectionUrl (url : Bytes) : Except Exn ConnectionInfo :=
  if url = [] then throw (.invalidArgument "corouv::sql connection URL is empty")
  else if ascii "sqlite:" <+: url then parsePath url
  else
    match find (ascii "://") url with
    | none => throw (.invalidArgument "corouv::sql connection URL must use scheme://")
    | some schemeEnd =>
        let scheme := (url.take schemeEnd).map toLower
        let backend := backendFromScheme scheme
        if backend = .unknown then
          throw (.invalidArgument ("corouv::sql unsupported scheme: " ++ characters scheme))
        else (parseRest backend (url.drop (schemeEnd + 3))).map fun info => { info with scheme }

variable {mark : UInt8} {before after scheme : Bytes}

theorem forall_ne_of_notMem (apart : mark ∉ before) :
    ∀ byte ∈ before, decide (byte ≠ mark) = true := by
  intro byte member
  simpa using fun same : byte = mark => apart (same ▸ member)

theorem cut_append (apart : mark ∉ before) (after : Bytes) :
    cut mark (before ++ mark :: after) = (before, some after) := by
  have others := forall_ne_of_notMem apart
  rw [cut, List.takeWhile_append_of_pos others, List.dropWhile_append_of_pos others]
  simp

theorem mem_trimCopy {byte : UInt8} {value : Bytes} (solid : isSpace byte = false)
    (member : byte ∈ value) : byte ∈ trimCopy value := by
  have keep : ∀ {text : Bytes}, byte ∈ text → byte ∈ text.dropWhile isSpace := by
    intro text member
    rw [← List.takeWhile_append_dropWhile (p := isSpace) (l := text)] at member
    rcases List.mem_append.mp member with space | kept
    · rw [List.mem_takeWhile_imp space] at solid
      cases solid
    · exact kept
  rw [trimCopy, List.rdropWhile, List.mem_reverse]
  exact keep (List.mem_reverse.mpr (keep member))

theorem toLower_toLower (byte : UInt8) : toLower (toLower byte) = toLower byte := by
  grind [toLower]

theorem isSpace_toLower (byte : UInt8) : isSpace (toLower byte) = isSpace byte := by
  grind [toLower, isSpace]

theorem schemeKey_map_toLower (scheme : Bytes) :
    schemeKey (scheme.map toLower) = schemeKey scheme := by
  have spaces : isSpace ∘ toLower = isSpace := funext isSpace_toLower
  have twice : toLower ∘ toLower = toLower := funext toLower_toLower
  simp only [schemeKey, trimCopy, List.rdropWhile, List.dropWhile_map, spaces, ← List.map_reverse,
    List.map_map, twice]

/-- The schemes that have a backend. -/
def knownSchemes : List Bytes :=
  ["sqlite", "sqlite3", "pgsql", "postgres", "postgresql", "pg", "mysql", "mariadb"].map ascii

theorem schemeKey_mem (known : backendFromScheme scheme ≠ .unknown) :
    schemeKey scheme ∈ knownSchemes := by
  by_contra other
  simp only [knownSchemes, List.map_cons, List.map_nil, List.mem_cons, not_or] at other
  exact known (by simp [backendFromScheme, other])

theorem colon_notMem_scheme (known : backendFromScheme scheme ≠ .unknown) : 58 ∉ scheme := by
  intro colon
  have names : ∀ name ∈ knownSchemes, 58 ∉ name := by decide +kernel
  have member : 58 ∈ schemeKey scheme := List.mem_map_of_mem (mem_trimCopy (by decide) colon)
  exact names _ (schemeKey_mem known) member

/-- Only the spelling `sqlite` leads to a path. -/
theorem parseConnectionUrl_scheme (known : backendFromScheme scheme ≠ .unknown)
    (general : scheme ≠ ascii "sqlite") (rest : Bytes) :
    parseConnectionUrl (scheme ++ ascii "://" ++ rest) =
      (parseRest (backendFromScheme scheme) rest).map
        fun info => { info with scheme := scheme.map toLower } := by
  have colon := colon_notMem_scheme known
  have found : find (ascii "://") (scheme ++ ascii "://" ++ rest) = some scheme.length :=
    find_append_of_notMem colon
  have path : ¬ascii "sqlite:" <+: scheme ++ ascii "://" ++ rest := by
    rintro ⟨path, same⟩
    have cuts := congrArg (cut 58) same
    rw [List.append_assoc] at cuts
    have front := (cut_append (show 58 ∉ ascii "sqlite" by decide) path).symm.trans
      (cuts.trans (cut_append colon (47 :: 47 :: rest)))
    exact general (Prod.mk.inj front).1.symm
  have backend : backendFromScheme (scheme.map toLower) = backendFromScheme scheme := by
    simp only [backendFromScheme, schemeKey_map_toLower]
  have behind : (scheme ++ ascii "://" ++ rest).drop (scheme.length + 3) = rest := by
    rw [List.append_assoc, ← List.drop_drop, List.drop_left]
    rfl
  have front : (scheme ++ ascii "://" ++ rest).take scheme.length = scheme := by
    rw [List.append_assoc, List.take_left]
  rw [parseConnectionUrl, if_neg (by simp [ascii]), if_neg path, found]
  simp only [front, backend, behind, if_neg known]

/-- The drivers that `ensure_builtin_drivers` registers, and whether they are asynchronous. -/
def builtinDrivers : List (Bytes × Bool) :=
  [(ascii "sqlite", false), (ascii "pgsql", true), (ascii "postgres", true),
    (ascii "postgresql", true), (ascii "mysql", true), (ascii "mariadb", true)]

def hasBuiltin (scheme : Bytes) : Bool :=
  (createDriver (fun key => (builtinDrivers.lookup key).map .driver) scheme).isOk

/-- The file that the SQLite driver opens, or the database. -/
def effectiveDatabase (info : ConnectionInfo) : Bytes :=
  if info.path = [] then info.database else info.path

/-- A URL that is read with the first scheme is read with the second one to the same effect. -/
def SpelledAlike (first second rest : Bytes) : Prop :=
  ∀ info, parseConnectionUrl (first ++ ascii "://" ++ rest) = .ok info →
    (∃ other, parseConnectionUrl (second ++ ascii "://" ++ rest) = .ok other ∧
      { other with scheme := info.scheme } = info ∧
      effectiveDatabase other = effectiveDatabase info) ∧
    hasBuiltin first = true ∧ hasBuiltin second = true

theorem hasBuiltin_iff (known : backendFromScheme scheme ≠ .unknown) :
    hasBuiltin scheme = true ↔ schemeKey scheme ∉ ["pg", "sqlite3"].map ascii := by
  have names : ∀ key ∈ knownSchemes, (builtinDrivers.lookup key).isSome = true ↔
      key ∉ ["pg", "sqlite3"].map ascii := by
    decide +kernel
  rw [← names _ (schemeKey_mem known), hasBuiltin, createDriver]
  cases builtinDrivers.lookup (schemeKey scheme) <;> simp [Except.isOk, Except.toBool]

theorem path_of_parseRest {backend : Backend} {rest : Bytes} {info : ConnectionInfo}
    (read : parseRest backend rest = .ok info) : info.path = [] := by
  rcases except_bind_eq_ok.mp read with ⟨_, -, read⟩
  rcases except_bind_eq_ok.mp read with ⟨_, -, read⟩
  rcases except_bind_eq_ok.mp read with ⟨_, -, read⟩
  cases read
  rfl

theorem path_of_parsePath {url : Bytes} {info : ConnectionInfo}
    (read : parsePath url = .ok info) : info.path ≠ [] := by
  rcases except_map_eq_ok.mp read with ⟨path, -, rfl⟩
  dsimp only
  split
  · decide
  next nonempty => exact nonempty

/-- The path says which branch was taken. -/
theorem path_iff (known : backendFromScheme scheme ≠ .unknown) {rest : Bytes}
    {info : ConnectionInfo} (read : parseConnectionUrl (scheme ++ ascii "://" ++ rest) = .ok info) :
    info.path ≠ [] ↔ scheme = ascii "sqlite" := by
  by_cases sqlite : scheme = ascii "sqlite"
  · subst sqlite
    exact ⟨fun _ => rfl, fun _ => path_of_parsePath read⟩
  · rw [parseConnectionUrl_scheme known sqlite] at read
    rcases except_map_eq_ok.mp read with ⟨_, rest, rfl⟩
    simp [path_of_parseRest rest, sqlite]

/-- Spellings lead to the same database if and only if they take the same branch and have a
driver. -/
theorem spelledAlike_iff {first second : Bytes} (rest : Bytes)
    (known : backendFromScheme first ≠ .unknown)
    (same : backendFromScheme first = backendFromScheme second) :
    SpelledAlike first second rest ↔
      ((parseConnectionUrl (first ++ ascii "://" ++ rest)).isOk = true →
        (first = ascii "sqlite" ↔ second = ascii "sqlite") ∧
        schemeKey first ∉ ["pg", "sqlite3"].map ascii ∧
        schemeKey second ∉ ["pg", "sqlite3"].map ascii) := by
  have known' := same ▸ known
  rw [SpelledAlike, hasBuiltin_iff known, hasBuiltin_iff known']
  cases read : parseConnectionUrl (first ++ ascii "://" ++ rest) with
  | error _ => simp [Except.isOk, Except.toBool]
  | ok info =>
      have branch := path_iff known read
      constructor
      · intro alike _
        rcases alike info rfl with ⟨⟨other, read', equal, -⟩, drivers⟩
        refine ⟨?_, drivers⟩
        rw [← branch, ← path_iff known' read', ← equal]
      · rintro alike _ ⟨⟩
        rcases alike rfl with ⟨branches, drivers⟩
        refine ⟨?_, drivers⟩
        by_cases sqlite : first = ascii "sqlite"
        · rw [branches.mp sqlite, ← sqlite, read]
          exact ⟨info, rfl, rfl, rfl⟩
        · rw [parseConnectionUrl_scheme known sqlite, same] at read
          rw [parseConnectionUrl_scheme known' fun other => sqlite (branches.mpr other)]
          rcases except_map_eq_ok.mp read with ⟨found, parsed, rfl⟩
          rw [parsed]
          exact ⟨_, rfl, rfl, rfl⟩

theorem spelledAlike_iff_postgres :
    SpelledAlike (ascii "PGSQL") (ascii "postgres") (ascii "db/app") :=
  (spelledAlike_iff (ascii "db/app") (by decide +kernel) (by decide +kernel)).mpr
    fun _ => by decide +kernel

/-- In capitals the path is taken for a host and a database. -/
theorem capitals_change_database :
    (parseConnectionUrl (ascii "sqlite://data/app.db")).map effectiveDatabase =
        .ok (ascii "data/app.db") ∧
      (parseConnectionUrl (ascii "SQLITE://data/app.db")).map effectiveDatabase =
        .ok (ascii "app.db") ∧
      backendFromScheme (ascii "SQLITE") = .sqlite := by
  refine ⟨?_, ?_, ?_⟩ <;> decide +kernel

end Corouv.Sql
