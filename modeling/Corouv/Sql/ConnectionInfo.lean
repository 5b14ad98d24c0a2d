import Corouv.Base

/-!
# Backends and connection parameters
-/

namespace Corouv.Sql

inductive Backend where
  | unknown
  | sqlite
  | postgreSql
  | mySql
  deriving DecidableEq

structure ConnectionInfo where
  backend : Backend := .unknown
  scheme : Bytes := []
  host : Bytes := []
  port : ℕ := 0
  database : Bytes := []
  username : Bytes := []
  password : Bytes := []
  path : Bytes := []
  options : List (Bytes × Bytes) := []
  deriving DecidableEq

/-- `to_lower_copy(trim_copy(scheme))`, the key of a scheme among the drivers. -/
def schemeKey (scheme : Bytes) : Bytes :=
  (trimCopy scheme).map toLower

def backendFromScheme (scheme : Bytes) : Backend :=
  let normalized := schemeKey scheme
  if normalized = ascii "sqlite" ∨ normalized = ascii "sqlite3" then .sqlite
  else if normalized = ascii "pgsql" ∨ normalized = ascii "postgres" ∨
      normalized = ascii "postgresql" ∨ normalized = ascii "pg" then .postgreSql
  else if normalized = ascii "mysql" ∨ normalized = ascii "mariadb" then .mySql
  else .unknown

def backendName : Backend → Bytes
  | .sqlite => ascii "sqlite"
  | .postgreSql => ascii "pgsql"
  | .mySql => ascii "mysql"
  | .unknown => ascii "unknown"

end Corouv.Sql
