import Mathlib.Init

/-!
# Throwables and time measures

The two small types everything above shares. `Throwable` keeps what the
repository's handlers look at: the class and the message, and whether it is
the checked `java.sql.SQLException`, which some handlers catch while they let
a runtime exception pass, or an error, which every handler lets pass.

`TimeMeasure` is `utils/TimeMeasure.java`. Its three longs are machine longs,
so `end` subtracts with wrap-around and the averaging constructor adds with
it; the count of that constructor is a Java `int`. Dividing by a count of zero
is Java's `ArithmeticException`, which is what the `Option` stands for.
-/

namespace OrmBenchmark.Ref

/-- The exceptions the repository's handlers tell apart. -/
inductive ThrowableKind
  /-- `java.sql.SQLException`, a checked exception -/
  | sqlException
  /-- any subclass of `RuntimeException` -/
  | runtimeException
  /-- any subclass of `Error` -/
  | error
deriving DecidableEq, Repr

structure Throwable where
  kind : ThrowableKind
  className : String
  message : Option String
deriving DecidableEq, Repr

namespace Throwable

def nullPointer : Throwable :=
  ⟨.runtimeException, "java/lang/NullPointerException", none⟩

def arithmetic : Throwable :=
  ⟨.runtimeException, "java/lang/ArithmeticException", some "/ by zero"⟩

def illegalArgument (message : String) : Throwable :=
  ⟨.runtimeException, "java/lang/IllegalArgumentException", some message⟩

def illegalState (message : String) : Throwable :=
  ⟨.runtimeException, "java/lang/IllegalStateException", some message⟩

def sqlException (message : String) : Throwable :=
  ⟨.sqlException, "java/sql/SQLException", some message⟩

end Throwable

/-- The generated `R.string` ids the executor tags its measures with. They
name two resources, so they differ. -/
structure ActionIds where
  saveEntitiesInTransaction : Int32
  loadEntities : Int32
  distinct : saveEntitiesInTransaction ≠ loadEntities

/-- `utils/TimeMeasure.java`. -/
structure TimeMeasure where
  start : Int64
  nano : Int64
  msec : Int64
  actionRes : Int32
deriving DecidableEq, Repr

/-- `TimeUnit.MILLISECONDS.convert(nano, TimeUnit.NANOSECONDS)`. -/
def toMillis (nano : Int64) : Int64 := nano / 1000000

namespace TimeMeasure

/-- `TimeMeasure(int actionRes)`, at a reading of `System.nanoTime()`. -/
def ofAction (actionRes : Int32) (nanoTime : Int64) : TimeMeasure where
  start := nanoTime
  nano := 0
  msec := 0
  actionRes := actionRes

/-- `end()`, at a reading of `System.nanoTime()`. -/
def end' (tm : TimeMeasure) (nanoTime : Int64) : TimeMeasure :=
  let nano := nanoTime - tm.start
  { tm with nano := nano, msec := toMillis nano }

/-- One round of the averaging loop, on `value` and `count`. -/
def accumulate (actionRes : Int32) (acc : Int64 × Int32) (tm : TimeMeasure) :
    Int64 × Int32 :=
  if tm.actionRes = actionRes then (acc.1 + tm.nano, acc.2 + 1) else acc

/-- `TimeMeasure(int actionRes, List<TimeMeasure> timeMeasures)`: the average
over the measures with this tag, `none` where `value / count` throws. -/
def ofMeasures (actionRes : Int32) (timeMeasures : List TimeMeasure) :
    Option TimeMeasure :=
  let (value, count) := timeMeasures.foldl (accumulate actionRes) (0, 0)
  if count = 0 then
    none
  else
    let nano := value / count.toInt64
    some { start := 0, nano := nano, msec := toMillis nano, actionRes := actionRes }

end TimeMeasure

end OrmBenchmark.Ref
