import OrmBenchmark.Ref.TimeMeasure

/-!
# Result codes and the exceptions they become

`SQLiteCommon.cpp` with the result codes of `sqlite3.h` it looks at. A result
code is not negative, its low byte is the primary code, and the class of the
exception depends on that byte only.
-/

namespace OrmBenchmark.Ref

@[match_pattern] abbrev SQLITE_OK : Nat := 0
@[match_pattern] abbrev SQLITE_PERM : Nat := 3
@[match_pattern] abbrev SQLITE_ABORT : Nat := 4
@[match_pattern] abbrev SQLITE_BUSY : Nat := 5
@[match_pattern] abbrev SQLITE_LOCKED : Nat := 6
@[match_pattern] abbrev SQLITE_NOMEM : Nat := 7
@[match_pattern] abbrev SQLITE_READONLY : Nat := 8
@[match_pattern] abbrev SQLITE_INTERRUPT : Nat := 9
@[match_pattern] abbrev SQLITE_IOERR : Nat := 10
@[match_pattern] abbrev SQLITE_CORRUPT : Nat := 11
@[match_pattern] abbrev SQLITE_FULL : Nat := 13
@[match_pattern] abbrev SQLITE_CANTOPEN : Nat := 14
@[match_pattern] abbrev SQLITE_TOOBIG : Nat := 18
@[match_pattern] abbrev SQLITE_CONSTRAINT : Nat := 19
@[match_pattern] abbrev SQLITE_MISMATCH : Nat := 20
@[match_pattern] abbrev SQLITE_MISUSE : Nat := 21
@[match_pattern] abbrev SQLITE_RANGE : Nat := 25
@[match_pattern] abbrev SQLITE_NOTADB : Nat := 26
@[match_pattern] abbrev SQLITE_ROW : Nat := 100
@[match_pattern] abbrev SQLITE_DONE : Nat := 101

/-- The `switch` over the primary code. -/
def exceptionClass (errcode : Nat) : String :=
  match errcode &&& 0xff with
  | SQLITE_IOERR => "android/database/sqlite/SQLiteDiskIOException"
  | SQLITE_CORRUPT => "android/database/sqlite/SQLiteDatabaseCorruptException"
  | SQLITE_NOTADB => "android/database/sqlite/SQLiteDatabaseCorruptException"
  | SQLITE_CONSTRAINT => "android/database/sqlite/SQLiteConstraintException"
  | SQLITE_ABORT => "android/database/sqlite/SQLiteAbortException"
  | SQLITE_DONE => "android/database/sqlite/SQLiteDoneException"
  | SQLITE_FULL => "android/database/sqlite/SQLiteFullException"
  | SQLITE_MISUSE => "android/database/sqlite/SQLiteMisuseException"
  | SQLITE_PERM => "android/database/sqlite/SQLiteAccessPermException"
  | SQLITE_BUSY => "android/database/sqlite/SQLiteDatabaseLockedException"
  | SQLITE_LOCKED => "android/database/sqlite/SQLiteTableLockedException"
  | SQLITE_READONLY => "android/database/sqlite/SQLiteReadOnlyDatabaseException"
  | SQLITE_CANTOPEN => "android/database/sqlite/SQLiteCantOpenDatabaseException"
  | SQLITE_TOOBIG => "android/database/sqlite/SQLiteBlobTooBigException"
  | SQLITE_RANGE =>
      "android/database/sqlite/SQLiteBindOrColumnIndexOutOfRangeException"
  | SQLITE_NOMEM => "android/database/sqlite/SQLiteOutOfMemoryException"
  | SQLITE_MISMATCH => "android/database/sqlite/SQLiteDatatypeMismatchException"
  | SQLITE_INTERRUPT => "android/os/OperationCanceledException"
  | _ => "android/database/sqlite/SQLiteException"

/-- The exception of an error code, SQLite's message and the caller's. For
`SQLITE_DONE` SQLite's message is dropped. -/
def sqlite3Exception (errcode : Nat) (sqlite3Message message : Option String) :
    Throwable where
  kind := .runtimeException
  className := exceptionClass errcode
  message :=
    match (if errcode &&& 0xff = SQLITE_DONE then none else sqlite3Message) with
    | none => message
    | some text =>
        let fullMessage := text ++ s!" (code {errcode})"
        match message with
        | none => some fullMessage
        | some message => some (fullMessage ++ ": " ++ message)

/-- The classes of `SQLiteException`; the one other class is Android's own. -/
def Throwable.isSQLiteException (e : Throwable) : Bool :=
  e.className.startsWith "android/database/sqlite/"

@[simp]
theorem sqlite3Exception_kind (errcode : Nat) (sqlite3Message message : Option String) :
    (sqlite3Exception errcode sqlite3Message message).kind = .runtimeException := rfl

example : sqlite3Exception 14 (some "unknown error") (some "Could not open database") =
    ⟨.runtimeException, "android/database/sqlite/SQLiteCantOpenDatabaseException",
      some "unknown error (code 14): Could not open database"⟩ := by decide

end OrmBenchmark.Ref
