/-!
The types of parameters and columns: the base types by name, and arrays of them.
-/
namespace StoreBridge.Postgres

inductive BaseType where
  | bool | int2 | int4 | int8 | float4 | float8 | numeric | uuid | bytea | date | time
  | timestamp | timestamptz | json | jsonb | text | varchar | bpchar | name | unknown
  | inet | interval | point | oid
  deriving DecidableEq, Repr

namespace BaseType

def label : BaseType → String
  | .bool => "bool"
  | .int2 => "int2"
  | .int4 => "int4"
  | .int8 => "int8"
  | .float4 => "float4"
  | .float8 => "float8"
  | .numeric => "numeric"
  | .uuid => "uuid"
  | .bytea => "bytea"
  | .date => "date"
  | .time => "time"
  | .timestamp => "timestamp"
  | .timestamptz => "timestamptz"
  | .json => "json"
  | .jsonb => "jsonb"
  | .text => "text"
  | .varchar => "varchar"
  | .bpchar => "bpchar"
  | .name => "name"
  | .unknown => "unknown"
  | .inet => "inet"
  | .interval => "interval"
  | .point => "point"
  | .oid => "oid"

def all : List BaseType :=
  [.bool, .int2, .int4, .int8, .float4, .float8, .numeric, .uuid, .bytea, .date, .time,
    .timestamp, .timestamptz, .json, .jsonb, .text, .varchar, .bpchar, .name, .unknown,
    .inet, .interval, .point, .oid]

def ofLabel? (label : String) : Option BaseType := all.find? fun t => t.label == label

def number : BaseType → Nat
  | .bool => 16
  | .bytea => 17
  | .name => 19
  | .int8 => 20
  | .int2 => 21
  | .int4 => 23
  | .text => 25
  | .oid => 26
  | .json => 114
  | .point => 600
  | .float4 => 700
  | .float8 => 701
  | .unknown => 705
  | .inet => 869
  | .bpchar => 1042
  | .varchar => 1043
  | .date => 1082
  | .time => 1083
  | .timestamp => 1114
  | .timestamptz => 1184
  | .interval => 1186
  | .numeric => 1700
  | .uuid => 2950
  | .jsonb => 3802

def isText : BaseType → Bool
  | .text | .varchar | .bpchar | .name | .unknown => true
  | _ => false

def isAccepted : BaseType → Bool
  | .inet | .interval | .point | .oid => false
  | _ => true

end BaseType

inductive PgType where
  | base (type : BaseType)
  | array (item : BaseType)
  deriving DecidableEq, Repr

namespace PgType

def label : PgType → String
  | .base t => t.label
  | .array t => "_" ++ t.label

def isAccepted : PgType → Bool
  | .base t => t.isAccepted
  | .array t => t.isAccepted

end PgType
end StoreBridge.Postgres
