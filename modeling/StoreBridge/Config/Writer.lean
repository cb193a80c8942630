import StoreBridge.Config.Basic
import StoreBridge.Toml.Writer

/-!
Writes a configuration. Every setting is written, also one that was left out, but the password is
not.
-/
namespace StoreBridge.Config

def postgresFields (s : Postgres.Settings) : Entries Toml :=
  let caCertPath := s.caCertPath.toList.map fun path => ("ca_cert_path", Toml.string path)
  [("host", Toml.string s.host), ("port", .integer s.tcpPort.toNat),
    ("database", .string s.database), ("username", .string s.username),
    ("ssl_mode", .string s.sslMode.name),
    ("accept_invalid_certs", .boolean s.acceptInvalidCerts)] ++ caCertPath ++
    [("pool_size", .integer s.poolSize)]

def sqliteFields (s : SqliteSettings) : Entries Toml :=
  [("path", .string s.path), ("foreign_keys", .boolean s.foreignKeys),
    ("busy_timeout_ms", .integer s.busyTimeoutMs.toNat)]

def primaryKeyFields (keys : Entries (List String)) : Entries Toml :=
  keys.map fun e => (e.1, .array (e.2.map .string))

def topFields (c : Config) : Entries Toml :=
  [("backend", .string c.backend.key), ("identity_mode", .string c.identityMode.key)]

def sections (c : Config) : List (String × Entries Toml) :=
  ("primary_keys", primaryKeyFields c.primaryKeys) ::
    ((c.postgres.toList.map fun s => ("postgres", postgresFields s)) ++
      c.sqlite.toList.map fun s => ("sqlite", sqliteFields s))

def text (c : Config) : String := Toml.documentText c.topFields c.sections

end StoreBridge.Config
