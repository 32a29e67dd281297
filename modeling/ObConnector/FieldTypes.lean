/-
# ObConnector.FieldTypes -- `enum_field_types` of `include/mariadb_com.h`, and `MYSQL_TIME`.

The column and bind type codes that the fetch, the parameter encoders and the type descriptors
switch on. The binlog-only types (`TIMESTAMP2`, `DATETIME2`, `TIME2`) are kept because a bind can
carry any value of the enumeration.
-/
import Mathlib.Data.List.Basic

namespace ObConnector

/-- `enum enum_field_types`. -/
inductive FieldType where
  | decimal | tiny | short | long | float | double | null | timestamp | longlong | int24
  | date | time | datetime | year | newdate | varchar | bit
  | timestamp2 | datetime2 | time2
  | object | array | struct | cursor | plarray
  | obTimestampWithTimeZone | obTimestampWithLocalTimeZone | obTimestampNano | obRaw
  | obIntervalYm | obIntervalDs | obNumberFloat | obNvarchar2 | obNchar | obUrowid
  | oraBlob | oraClob
  | json | newdecimal | enum | set | tinyBlob | mediumBlob | longBlob | blob
  | varString | string | geometry
  deriving DecidableEq, Repr

/-- `enum enum_mysql_timestamp_type`. -/
inductive TimestampType where
  | none | error | date | datetime | time
  deriving DecidableEq, Repr

/-- `MYSQL_TIME`. -/
structure MysqlTime where
  year : Nat
  month : Nat
  day : Nat
  hour : Nat
  minute : Nat
  second : Nat
  secondPart : Nat
  neg : Bool
  timeType : TimestampType
  deriving DecidableEq, Repr

end ObConnector
