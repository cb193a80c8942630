import StoreBridge.Adapter.Sql
import StoreBridge.Config.Basic
import StoreBridge.Postgres.Certificates

/-!
From a configuration to an adapter. What the surroundings decide is asked for: the bytes of a file,
and whether the store answers.
-/
namespace StoreBridge.Config

structure Surroundings where
  /-- The bytes of a file, or the cause why it cannot be read. -/
  readFile : String → Except String (List UInt8)
  /-- Opens a server, or gives the text of the failure. -/
  openServer : Postgres.Settings → List String → Except String Unit
  /-- Opens a database. -/
  openDatabase : SqliteSettings → Except String Unit

def certificates (s : Postgres.Settings) (outside : Surroundings) : Except Error (List String) :=
  match s.trustedFile with
  | none => .ok []
  | some path =>
    match outside.readFile path with
    | .error cause => .error (.config (.unreadableCertificates path cause))
    | .ok bytes => Postgres.Certificates.ofBytes bytes

/-- Opens the store of a configuration. Only two products are reached by their settings. -/
def openStore (c : Config) (outside : Surroundings) : Except Error Unit :=
  match c.backend with
  | .postgres =>
    match c.postgres with
    | none => .error (.config .noPostgresSection)
    | some settings => do
      let trusted ← certificates settings outside
      (outside.openServer settings trusted).mapError .driver
  | .sqlite =>
    (outside.openDatabase (c.sqlite.getD { path := ":memory:" })).mapError .driver
  | backend => .error (.unsupported .configuredConnection backend)

def connect (c : Config) (outside : Surroundings) : Except Error SqlAdapter := do
  openStore c outside
  let adapter ← SqlAdapter.make c.backend
  return c.primaryKeys.foldl (fun a e => a.declarePrimaryKey e.1 e.2) adapter

end StoreBridge.Config
