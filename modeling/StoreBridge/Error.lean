import StoreBridge.Backend
import StoreBridge.Filter.Basic
import StoreBridge.Text.Quoted

/-!
What can go wrong, as causes, and the words for each cause. A failure of a driver is carried with
the text that the driver gave it.
-/
namespace StoreBridge

inductive Found where
  | null
  | boolean (value : Bool)
  | integer (value : Int)
  | float (value : Binary64)
  | string (value : String)
  | sequence
  | map
  deriving Repr

def Found.text : Found → String
  | .null => "null"
  | .boolean b => "boolean `" ++ (if b then "true" else "false") ++ "`"
  | .integer i => "integer `" ++ Digits.ofInt i ++ "`"
  | .float x => "floating point `" ++ Layout.asDouble x ++ "`"
  | .string s => "string " ++ Text.Quoted.encode s
  | .sequence => "sequence"
  | .map => "map"

inductive Expected where
  | string | boolean | length | sequence | column
  deriving DecidableEq, Repr

def Expected.text : Expected → String
  | .string => "a string"
  | .boolean => "a boolean"
  | .length => "u32"
  | .sequence => "a sequence"
  | .column => "struct ColumnSpec"

inductive ColumnError where
  | missingType
  | mismatch (found : Found) (expected : Expected)
  | outOfRange (value : Int)
  | empty
  | tooLong (count : Nat)
  deriving Repr

def ColumnError.message : ColumnError → String
  | .missingType => "missing field `type`"
  | .mismatch found expected =>
    "invalid type: " ++ found.text ++ ", expected " ++ expected.text
  | .outOfRange i => "invalid value: integer `" ++ Digits.ofInt i ++ "`, expected u32"
  | .empty => "invalid length 0, expected struct ColumnSpec with 8 elements"
  | .tooLong n =>
    "invalid length " ++ toString n ++ ", expected fewer elements in array"

inductive CompileError where
  | filterNotObject (found : JsonKind)
  | branchesNotList (combinator : String)
  | negationNotObject
  | unknownCombinator (key : String)
  | unknownOperator (key field : String)
  | nestedFilter (key field : String)
  | optionsNotObject (found : JsonKind)
  | sortNotObject
  | countNotNatural (key : String)
  | selectNotList
  | selectEntryNotText
  | noWhereClause (dialect : Dialect)
  | operandNotList (op : Operator) (field : String)
  | patternNotText (op : Operator) (field : String) (found : ValueKind)
  | operandNotText (op : Operator) (field : String)
  | boundsNotPair (field : String)
  | rangeNotPair (field : String)
  | flagNotBoolean (field : String)
  | noRegex (field : String) (dialect : Dialect)
  | nothingToSet (table : String)
  | noColumns (table : String)
  | noLiteral (value : Binary64)
  | indexWithoutFields (name : String)
  | unmatchedColumns (name : String)
  | schemaNotObject
  | column (name : String) (cause : ColumnError)
  deriving Repr

def CompileError.message : CompileError → String
  | .filterNotObject found => "filter must be an object, got " ++ found.name
  | .branchesNotList combinator => combinator ++ " expects an array of filters"
  | .negationNotObject => "$not expects a single filter object"
  | .unknownCombinator key => "unknown combinator " ++ key
  | .unknownOperator key field => "unknown operator " ++ key ++ " on field " ++ field
  | .nestedFilter key field =>
    "operator " ++ key ++ " on field " ++ field ++ " cannot hold a nested filter"
  | .optionsNotObject found => "options must be an object, got " ++ found.name
  | .sortNotObject => "sort must map field names to directions"
  | .countNotNatural key => key ++ " must be a non-negative integer"
  | .selectNotList => "select must be an array of field names"
  | .selectEntryNotText => "select entries must be strings"
  | .noWhereClause dialect => dialect.name ++ " has no SQL where clause"
  | .operandNotList op field => op.key ++ " on " ++ field ++ " expects an array"
  | .patternNotText op field found =>
    op.key ++ " on " ++ field ++ " expects a string pattern, got " ++ found.name
  | .operandNotText op field => op.key ++ " on " ++ field ++ " expects a string"
  | .boundsNotPair field => "$between on " ++ field ++ " expects exactly 2 values [low, high]"
  | .rangeNotPair field => "$between on " ++ field ++ " expects exactly two values"
  | .flagNotBoolean field => "$exists on " ++ field ++ " expects a boolean"
  | .noRegex field dialect =>
    "$regex on " ++ field ++ " is not available for " ++ dialect.name
  | .nothingToSet table => "update of " ++ table ++ " has no fields to set"
  | .noColumns table => "table " ++ table ++ " has no columns"
  | .noLiteral value => Layout.plain value ++ " has no SQL literal form"
  | .indexWithoutFields name => "index " ++ name ++ " has no fields"
  | .unmatchedColumns name => "foreign key " ++ name ++ " needs matching column lists"
  | .schemaNotObject => "table schema must be an object"
  | .column name cause => "column " ++ name ++ ": " ++ cause.message

inductive Feature where
  | createForeignKey
  | dropForeignKey
  | otherConnection
  | documentTransaction
  | sqlTransaction
  | configuredConnection
  deriving DecidableEq, Repr

def Feature.text : Feature → String
  | .createForeignKey => "create_foreign_key"
  | .dropForeignKey => "drop_foreign_key"
  | .otherConnection => "a transaction opened by another adapter"
  | .documentTransaction => "a document-store transaction"
  | .sqlTransaction => "a SQL transaction"
  | .configuredConnection => "connecting from configuration"

inductive ConfigError where
  | unknownBackend (name : String)
  | notSql (backend : Backend)
  | malformed
  | noPostgresSection
  | unreadableCertificates (path cause : String)
  | certificatesNotText
  | noCertificates
  deriving Repr

def ConfigError.message : ConfigError → String
  | .unknownBackend name => "unknown backend " ++ Text.Quoted.encode name
  | .notSql backend => backend.name ++ " is not a SQL backend"
  | .malformed => "the configuration is malformed"
  | .noPostgresSection => "backend is postgres but there is no [postgres] section"
  | .unreadableCertificates path cause =>
    "failed to read CA certificate file " ++ path ++ ": " ++ cause
  | .certificatesNotText => "CA certificate file is not valid UTF-8"
  | .noCertificates => "no certificates found in PEM data"

inductive Error where
  /-- The adapter has no connection. -/
  | notConnected
  | unsupported (feature : Feature) (backend : Backend)
  | uncompilable (cause : CompileError)
  /-- The transaction was committed or rolled back before. -/
  | transactionInactive
  /-- A single row was asked for without an identity. -/
  | missingIdentity
  | config (cause : ConfigError)
  /-- The driver failed, with its own text. -/
  | driver (text : String)
  deriving Repr

def Error.message : Error → String
  | .notConnected => "adapter is not connected"
  | .unsupported feature backend => feature.text ++ " is not supported by " ++ backend.name
  | .uncompilable cause => "translation error: " ++ cause.message
  | .transactionInactive => "transaction is no longer active"
  | .missingIdentity => "identity value is required"
  | .config cause => "configuration error: " ++ cause.message
  | .driver text => text

def refuse {α : Type} (cause : CompileError) : Except Error α := .error (.uncompilable cause)

def Backend.ofName (name : String) : Except Error Backend :=
  match Backend.ofName? name with
  | some backend => .ok backend
  | none => .error (.config (.unknownBackend (Text.lower name)))

end StoreBridge
