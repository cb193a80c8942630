import StoreBridge.Number.Digits

/-!
How a server is reached: the settings, and the parameters that a client is given. In a connection
string every text stands between single quotes, so no setting can end early and start another.
-/
namespace StoreBridge.Postgres

inductive SslMode where
  | disable | prefer | require
  deriving DecidableEq, Repr

namespace SslMode

def name : SslMode → String
  | .disable => "disable"
  | .prefer => "prefer"
  | .require => "require"

def all : List SslMode := [.disable, .prefer, .require]

def ofName? (name : String) : Option SslMode := all.find? fun m => m.name == name

end SslMode

structure Settings where
  host : String
  tcpPort : UInt16
  database : String
  username : String
  password : String := ""
  sslMode : SslMode := .prefer
  acceptInvalidCerts : Bool := false
  /-- The file with the certificates to trust besides the known ones. -/
  caCertPath : Option String := none
  poolSize : Nat := 8
  deriving Repr

/-- A key with its value. Values that are any text are quoted. -/
structure ConnectionParameter where
  key : String
  value : String
  isQuoted : Bool
  deriving DecidableEq, Repr

namespace ConnectionParameter

/-- A backslash stands before a quote and before a backslash. -/
def escape (c : Char) : List Char := if c = '\\' ∨ c = '\'' then ['\\', c] else [c]

def quote (value : String) : String :=
  "'" ++ String.ofList (value.toList.flatMap escape) ++ "'"

def text (p : ConnectionParameter) : String :=
  p.key ++ "=" ++ (if p.isQuoted then quote p.value else p.value)

end ConnectionParameter

namespace Settings

def connectTimeout : Nat := 10

def parameters (s : Settings) : List ConnectionParameter :=
  [⟨"host", s.host, true⟩, ⟨"port", Digits.ofNat s.tcpPort.toNat, false⟩,
    ⟨"dbname", s.database, true⟩, ⟨"user", s.username, true⟩, ⟨"password", s.password, true⟩,
    ⟨"sslmode", s.sslMode.name, false⟩, ⟨"connect_timeout", Digits.ofNat connectTimeout, false⟩]

def connectionString (s : Settings) : String :=
  String.intercalate " " (s.parameters.map ConnectionParameter.text)

/-- The server as it is shown; the password is not. -/
def displayString (s : Settings) : String :=
  s.username ++ "@" ++ s.host ++ ":" ++ Digits.ofNat s.tcpPort.toNat ++ "/" ++ s.database

def trustedFile (s : Settings) : Option String :=
  if s.sslMode = .disable ∨ s.acceptInvalidCerts then none else s.caCertPath

end Settings
end StoreBridge.Postgres
