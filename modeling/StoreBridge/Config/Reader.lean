import StoreBridge.Config.Basic
import StoreBridge.Toml.Reader

/-!
Reads a configuration. Keys that it does not know are left alone; a key that it knows must hold a
value of its kind. A section may list its values without their names, in their order.
-/
namespace StoreBridge.Config

def text? : Toml → Option String
  | .string s => some s
  | _ => none

def boolean? : Toml → Option Bool
  | .boolean b => some b
  | _ => none

def natural? (limit : Nat) : Toml → Option Nat
  | .integer i => if 0 ≤ i ∧ i < limit then some i.toNat else none
  | _ => none

def texts? : Toml → Option (List String)
  | .array items => items.mapM text?
  | _ => none

/-- A word of a fixed list. It may also stand as the one key of a table, with nothing under it. -/
def word? : Toml → Option String
  | .string s => some s
  | .table [(word, .table [])] => some word
  | .table [(word, .array [])] => some word
  | _ => none

def fields? (order : List String) : Toml → Option (Entries Toml)
  | .table fields => some fields
  | .array items => some (order.zip items)
  | _ => none

def required? {α : Type} (fields : Entries Toml) (key : String) (read : Toml → Option α) :
    Option α :=
  (fields.get? key).bind read

def optional? {α : Type} (fields : Entries Toml) (key : String) (default : α)
    (read : Toml → Option α) : Option α :=
  match fields.get? key with
  | some value => read value
  | none => some default

def sslMode? (t : Toml) : Option Postgres.SslMode := (word? t).bind Postgres.SslMode.ofName?

def postgresKeys : List String :=
  ["host", "port", "database", "username", "password", "ssl_mode", "accept_invalid_certs",
    "ca_cert_path", "pool_size"]

def postgres? (t : Toml) : Option Postgres.Settings := do
  let fields ← fields? postgresKeys t
  let host ← required? fields "host" text?
  let tcpPort ← required? fields "port" (natural? (2 ^ 16))
  let database ← required? fields "database" text?
  let username ← required? fields "username" text?
  let password ← optional? fields "password" "" text?
  let sslMode ← optional? fields "ssl_mode" .prefer sslMode?
  let acceptInvalidCerts ← optional? fields "accept_invalid_certs" false boolean?
  let caCertPath ← optional? fields "ca_cert_path" none fun t => (text? t).map some
  let poolSize ← optional? fields "pool_size" 8 (natural? (2 ^ 64))
  some { host, tcpPort := UInt16.ofNat tcpPort, database, username, password, sslMode,
         acceptInvalidCerts, caCertPath, poolSize }

def sqliteKeys : List String := ["path", "foreign_keys", "busy_timeout_ms"]

def sqlite? (t : Toml) : Option SqliteSettings := do
  let fields ← fields? sqliteKeys t
  let path ← required? fields "path" text?
  let foreignKeys ← optional? fields "foreign_keys" true boolean?
  let busyTimeoutMs ← optional? fields "busy_timeout_ms" 5000 (natural? (2 ^ 32))
  some { path, foreignKeys, busyTimeoutMs := UInt32.ofNat busyTimeoutMs }

def primaryKeys? : Toml → Option (Entries (List String))
  | .table fields => fields.mapM fun f => (texts? f.2).map fun keys => (f.1, keys)
  | _ => none

def ofFields? (fields : Entries Toml) : Option Config := do
  let backend ← required? fields "backend" fun t => (word? t).bind Backend.ofKey?
  let identityMode ← optional? fields "identity_mode" .objectId fun t =>
    (word? t).bind IdentityMode.ofKey?
  let primaryKeys ← optional? fields "primary_keys" [] primaryKeys?
  let postgres ← optional? fields "postgres" none fun t => (postgres? t).map some
  let sqlite ← optional? fields "sqlite" none fun t => (sqlite? t).map some
  some { backend, identityMode, primaryKeys, postgres, sqlite }

def ofText (text : String) : Except Error Config :=
  match (Toml.ofText? text).bind ofFields? with
  | some config => .ok config
  | none => .error (.config .malformed)

end StoreBridge.Config
