import StoreBridge.Document.Identity
import StoreBridge.Entries
import StoreBridge.Error
import StoreBridge.Postgres.Settings

/-!
What an adapter is configured with: the product, the primary keys of tables, and how the store is
reached.
-/
namespace StoreBridge

structure SqliteSettings where
  path : String
  foreignKeys : Bool := true
  /-- How long a locked database is waited for. -/
  busyTimeoutMs : UInt32 := 5000
  deriving Repr

def SqliteSettings.isMemory (s : SqliteSettings) : Bool := s.path == ":memory:"

structure Config where
  backend : Backend
  identityMode : IdentityMode := .objectId
  primaryKeys : Entries (List String) := []
  postgres : Option Postgres.Settings := none
  sqlite : Option SqliteSettings := none
  deriving Repr

namespace IdentityMode

def key : IdentityMode → String
  | .objectId => "object_id"
  | .raw => "raw"

def ofKey? (key : String) : Option IdentityMode :=
  [IdentityMode.objectId, .raw].find? fun m => m.key == key

end IdentityMode

def Config.withPassword (c : Config) (password : Option String) : Config :=
  { c with postgres := c.postgres.map fun s =>
      if s.password.isEmpty then { s with password := password.getD "" } else s }

end StoreBridge
