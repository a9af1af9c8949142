/-
# Core.Types — page and row identifiers, data types

The constants and enumerations of `common.h` that the storage and index layers
share. Identifiers are natural numbers; zero is the invalid page.
-/
import Mathlib.Data.List.Basic

namespace QinDB.Core

set_option autoImplicit false

abbrev PageId := Nat
abbrev RowId := Nat
abbrev Bytes := List UInt8

def INVALID_PAGE_ID : PageId := 0

/-- Size of a disk page in bytes. -/
def PAGE_SIZE : Nat := 8192

/-- The bytes of a page, and the memory behind it. -/
abbrev Data := Nat → UInt8

/-- SQL data types. -/
inductive DataType where
  | TINYINT | SMALLINT | MEDIUMINT | INT | INTEGER | BIGINT | SERIAL | BIGSERIAL
  | FLOAT | REAL | DOUBLE | DOUBLE_PRECISION | BINARY_FLOAT | BINARY_DOUBLE
  | DECIMAL | NUMERIC
  | CHAR | VARCHAR | VARCHAR2 | NCHAR | NVARCHAR | TEXT | TINYTEXT | MEDIUMTEXT | LONGTEXT
  | NTEXT | CLOB | NCLOB
  | BINARY | VARBINARY | BYTEA | BLOB | TINYBLOB | MEDIUMBLOB | LONGBLOB | IMAGE
  | DATE | TIME | DATETIME | DATETIME2 | SMALLDATETIME | TIMESTAMP | TIMESTAMP_TZ
  | DATETIMEOFFSET
  | BOOLEAN | BOOL
  | JSON | JSONB | XML
  | UUID | UNIQUEIDENTIFIER | ROWID | GEOMETRY | GEOGRAPHY | HIERARCHYID
  | NULL_TYPE
  deriving DecidableEq, Repr

def isIntegerType : DataType → Bool
  | .TINYINT | .SMALLINT | .MEDIUMINT | .INT | .INTEGER | .BIGINT | .SERIAL | .BIGSERIAL => true
  | _ => false

def isBinaryType : DataType → Bool
  | .BINARY | .VARBINARY | .BYTEA | .BLOB | .TINYBLOB | .MEDIUMBLOB | .LONGBLOB | .IMAGE => true
  | _ => false

end QinDB.Core
