import OrmBenchmark.Lib.Lts
import OrmBenchmark.Ref.Executor

/-!
# The benchmark activity and its runs

`BenchmarkActivity.java` with every executor it has started. A click is
accepted while the button is enabled and the UI thread is free; it starts a
new executor and replaces the one the activity looks at, and nothing else: the
button is disabled later, by a progress message. `AsyncTask.execute` runs the
tasks one at a time in submission order, and all of them publish into the one
queue of the main looper.

A delivered message is handled in up to three steps, because the background
thread runs meanwhile. First `onProgressUpdate` of the message's own executor
asks its own map which message this is, and a start is over with that. A
finish goes on to list the results of the executor the activity holds, and
then to count them. Counting and generating are one step: a complete map does
not change any more.
-/

namespace OrmBenchmark.Ref

open OrmBenchmark.Lib

/-- `BenchmarkExecutor.BENCHMARKS`, as far as the protocol is concerned: an
array of benchmarks, at least one, whose names differ. -/
structure Registry where
  names : List String
  nonempty : names ≠ []
  nodup : names.Nodup

def BENCHMARKS : Registry where
  names := ["SQLiteOpenHelper", "Green Dao", "ORMLite", "ActiveAndroid",
    "ActiveAndroid.Sebbia", "Sugar ORM", "GenericDao"]
  nonempty := by decide
  nodup := by decide

/-- What `statusTextView` says: `R.string.idle` or `R.string.running`. -/
inductive Status
  | idle
  | running (name : String)
deriving DecidableEq

inductive Toast
  | csvWasGenerated
  | failedToGenerateCsv (message : String)
deriving DecidableEq

/-- How writing the file ended: it holds the text, or an `IOException` was
thrown and something else, or nothing, is left of it. -/
inductive FileWrite
  | written
  | failed (message : String) (left : Option String)
deriving DecidableEq

/-- One call of `generateResults`: the executor the activity held and the text
it generated. -/
structure Generated where
  executor : Nat
  text : String
deriving DecidableEq

structure Activity where
  /-- the field `executor`, as the number of the start that created it -/
  executor : Option Nat
  startEnabled : Bool
  status : Status
  resultsList : List (String × List TimeMeasure)
  /-- the content of `orm-benchmark.csv` -/
  file : Option String
  toast : Option Toast
  /-- the calls of `generateResults` so far -/
  generated : List Generated

namespace Activity

/-- `onCreate`: the layout has the button enabled and the status idle. -/
def onCreate (file : Option String) : Activity where
  executor := none
  startEnabled := true
  status := .idle
  resultsList := []
  file := file
  toast := none
  generated := []

def onBenchmarkStarted (a : Activity) (name : String) : Activity :=
  { a with startEnabled := false, status := .running name }

def updateResultsList (a : Activity) (results : ResultMap)
    (keySet : List String) : Activity :=
  { a with
    resultsList := keySet.filterMap fun key =>
      (results.lookup key).map fun measures => (key, measures) }

def generateResults (a : Activity) (executor : Nat) (results : ResultMap)
    (keySet : List String) (write : FileWrite) : Activity :=
  let text := generateCSV results keySet
  let a := { a with generated := a.generated ++ [Generated.mk executor text] }
  match write with
  | .written => { a with file := some text, toast := some .csvWasGenerated }
  | .failed message left =>
      { a with file := left, toast := some (.failedToGenerateCsv message) }

/-- The rest of `onBenchmarkFinished`, after `updateResultsList`: it counts
`executor.getResults()` against the number of benchmarks. -/
def onBenchmarkFinished (a : Activity) (benchmarks executor : Nat)
    (results : ResultMap) (keySet : List String) (write : FileWrite) : Activity :=
  if results.size = benchmarks then
    let a := { a with status := .idle, startEnabled := true }
    a.generateResults executor results keySet write
  else
    a

end Activity

/-- A published name on its way to the UI thread, with the executor whose
`onProgressUpdate` will handle it. -/
structure Message where
  executor : Nat
  name : String
deriving DecidableEq

/-- Where the UI thread is inside `onBenchmarkFinished`. -/
inductive Handling
  | entered
  | listed
deriving DecidableEq

structure System where
  /-- every executor started so far, in the order of the clicks -/
  executors : List Executor
  /-- undelivered messages, oldest first -/
  queue : List Message
  /-- `none` while the UI thread is in the looper -/
  handling : Option Handling
  /-- the listener calls made so far, with the executor that made them -/
  calls : List (Nat × ListenerCall)
  activity : Activity

inductive SystemLabel
  /-- a click on the start button -/
  | click
  /-- a step of the background thread -/
  | background (save load : TimeMeasure)
  /-- the UI thread takes the next message -/
  | deliver
  /-- `updateResultsList`, for one iteration order of `keySet()` -/
  | list (keySet : List String)
  /-- the rest of `onBenchmarkFinished`, for one iteration order of `keySet()`
  and one outcome of writing the file -/
  | finish (keySet : List String) (write : FileWrite)

/-- One step of the serial executor: the oldest task that is not over takes
it. With the new executors come its number and what it published. -/
def backgroundStep (save load : TimeMeasure) :
    List Executor → Option (List Executor × Nat × Option String)
  | [] => none
  | e :: rest =>
      match e.background save load with
      | some (e', published) => some (e' :: rest, 0, published)
      | none =>
          match backgroundStep save load rest with
          | none => none
          | some (rest', k, published) => some (e :: rest', k + 1, published)

namespace System

def start (file : Option String) : System where
  executors := []
  queue := []
  handling := none
  calls := []
  activity := Activity.onCreate file

/-- `start()`: a new executor becomes the activity's, and its task is queued. -/
def click (registry : Registry) (s : System) : Option System :=
  if s.handling = none ∧ s.activity.startEnabled = true then
    some { s with
      executors := s.executors ++ [Executor.execute registry.names]
      activity := { s.activity with executor := some s.executors.length } }
  else
    none

def background (save load : TimeMeasure) (s : System) : Option System :=
  match backgroundStep save load s.executors with
  | none => none
  | some (executors, k, published) =>
      some { s with
        executors := executors
        queue := s.queue ++ (published.map (Message.mk k)).toList }

def deliver (s : System) : Option System :=
  match s.handling, s.queue with
  | none, m :: rest =>
      match s.executors[m.executor]? with
      | none => none
      | some e =>
          let call := onProgressUpdate e.results m.name
          let s := { s with queue := rest, calls := s.calls ++ [(m.executor, call)] }
          match call with
          | .onBenchmarkStarted name =>
              some { s with activity := s.activity.onBenchmarkStarted name }
          | .onBenchmarkFinished _ _ => some { s with handling := some .entered }
  | _, _ => none

/-- The map the activity looks at: that of the executor it holds. -/
def results (s : System) : Option (Nat × ResultMap) :=
  match s.activity.executor with
  | none => none
  | some k => (s.executors[k]?).map fun e => (k, e.results)

def list (keySet : List String) (s : System) : Option System :=
  match s.handling, s.results with
  | some .entered, some (_, results) =>
      if keySet.Perm results.keys then
        some { s with
          handling := some .listed
          activity := s.activity.updateResultsList results keySet }
      else
        none
  | _, _ => none

def finish (registry : Registry) (keySet : List String) (write : FileWrite)
    (s : System) : Option System :=
  match s.handling, s.results with
  | some .listed, some (k, results) =>
      if keySet.Perm results.keys then
        some { s with
          handling := none
          activity := s.activity.onBenchmarkFinished registry.names.length k
            results keySet write }
      else
        none
  | _, _ => none

def next (registry : Registry) (s : System) : SystemLabel → Option System
  | .click => s.click registry
  | .background save load => s.background save load
  | .deliver => s.deliver
  | .list keySet => s.list keySet
  | .finish keySet write => s.finish registry keySet write

/-- Every interleaving of clicks, the background thread and the UI thread. -/
def lts (registry : Registry) (file : Option String) : Lts System SystemLabel :=
  Lts.ofNext (start file) (next registry)

end System

end OrmBenchmark.Ref
