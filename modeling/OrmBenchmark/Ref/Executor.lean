import Mathlib.Algebra.Group.Nat.Defs
import Mathlib.Data.List.AList
import OrmBenchmark.Lib.Prog
import OrmBenchmark.Ref.TimeMeasure

/-!
# The benchmark executor

`BenchmarkExecutor.java`, in two views of the same background task.

`doInBackground` is the task as the source has it: benchmark by benchmark,
pass by pass, over adapters that may do anything to a world of their own and
may throw. It records in `trace` what it publishes, stores and measures, and
at a measure the world on both sides of the measured call.

`Executor` is what another thread can see of the task: the results map and
the publications and stores still to come. One step of the background thread
is one publication or one store, and `onProgressUpdate` is the handler the UI
thread runs on a published name. Everything that interleaves is built on this
view.
-/

namespace OrmBenchmark.Ref

open OrmBenchmark.Lib

/-- The five fields of a `BenchmarkEntity`. -/
structure Entity where
  field1 : Option String
  field2 : Option String
  field3 : Option String
  field4 : Int32
  field5 : Int64
deriving DecidableEq, Repr

/-- `Benchmark.java`, over the world `ω` its libraries act on. A `null` list
is `none`. -/
structure Benchmark (ω : Type) where
  getName : String
  init : Prog ω Throwable Unit
  saveEntitiesInTransaction : List Entity → Prog ω Throwable Unit
  loadEntities : Prog ω Throwable (Option (List Entity))
  clearCache : Prog ω Throwable Unit
  dispose : Prog ω Throwable Unit

/-- `Map<String, List<TimeMeasure>>`. -/
abbrev ResultMap := AList fun _ : String => List TimeMeasure

def ResultMap.size (results : ResultMap) : Nat := results.keys.length

/-! ## The background task -/

/-- What the task observably did, oldest first. -/
inductive ExecEvent (ω : Type)
  /-- `publishProgress(name)` -/
  | publishProgress (name : String)
  /-- `results.add(saveEntitiesInTransaction.end())`, with the world before and
  after the save -/
  | saveMeasured (name : String) (entities : List Entity) (before after : ω)
  /-- `results.add(loadEntities.end())`, with what the load returned -/
  | loadMeasured (name : String) (loaded : Option (List Entity)) (before after : ω)
  /-- the list `results` the averaging constructors are about to read -/
  | averaged (name : String) (results : List TimeMeasure)
  /-- `BenchmarkExecutor.this.results.put(name, medianResults)` -/
  | put (name : String) (medianResults : List TimeMeasure)

/-- What the task reads from outside: the clock, the random entity fields, its
constants. `PASSES` is a Java `int`. -/
structure ExecEnv where
  nanoTime : Nat → Int64
  random : Nat → Entity
  ids : ActionIds
  ENTITIES_COUNT : Nat
  PASSES : Nat
  passes_lt : PASSES < 2 ^ 31

structure Exec (ω : Type) where
  world : ω
  /-- calls of `System.nanoTime()` so far -/
  readings : Nat
  /-- calls of `generateEntities` so far -/
  generated : Nat
  results : ResultMap
  trace : List (ExecEvent ω)

def Exec.start {ω : Type} (world : ω) : Exec ω where
  world := world
  readings := 0
  generated := 0
  results := ∅
  trace := []

section Background

variable {ω : Type} (env : ExecEnv)

/-- A call into the adapter. -/
def adapter {α : Type} (m : Prog ω Throwable α) : Prog (Exec ω) Throwable α :=
  Prog.zoom Exec.world (fun w s => { s with world := w }) m

def record (event : ExecEvent ω) : Prog (Exec ω) Throwable Unit :=
  Prog.modifyState fun s => { s with trace := s.trace ++ [event] }

/-- `System.nanoTime()`. -/
def nanoTime : Prog (Exec ω) Throwable Int64 := fun s =>
  (.ok (env.nanoTime s.readings), { s with readings := s.readings + 1 })

/-- `Benchmark.generateEntities(count)`: `count` entities with one set of
random fields. -/
def generateEntities (count : Nat) : Prog (Exec ω) Throwable (List Entity) :=
  fun s =>
    (.ok (List.replicate count (env.random s.generated)),
      { s with generated := s.generated + 1 })

def publishProgress (name : String) : Prog (Exec ω) Throwable Unit :=
  record (.publishProgress name)

def putResults (name : String) (medianResults : List TimeMeasure) :
    Prog (Exec ω) Throwable Unit := do
  Prog.modifyState fun s => { s with results := s.results.insert name medianResults }
  record (.put name medianResults)

/-- `new TimeMeasure(actionRes, results)`. -/
def averageOf (actionRes : Int32) (results : List TimeMeasure) :
    Prog (Exec ω) Throwable TimeMeasure :=
  match TimeMeasure.ofMeasures actionRes results with
  | none => Prog.raise Throwable.arithmetic
  | some tm => pure tm

/-- The timed save of one pass. -/
def savePhase (benchmark : Benchmark ω) (results : List TimeMeasure)
    (entities : List Entity) : Prog (Exec ω) Throwable (List TimeMeasure) := do
  let before ← Prog.getState
  let start ← nanoTime env
  let saveEntitiesInTransaction :=
    TimeMeasure.ofAction env.ids.saveEntitiesInTransaction start
  adapter (benchmark.saveEntitiesInTransaction entities)
  let stop ← nanoTime env
  let after ← Prog.getState
  record (.saveMeasured benchmark.getName entities before.world after.world)
  pure (results ++ [saveEntitiesInTransaction.end' stop])

/-- The timed load of one pass. -/
def loadPhase (benchmark : Benchmark ω) (results : List TimeMeasure) :
    Prog (Exec ω) Throwable (List TimeMeasure) := do
  let before ← Prog.getState
  let start ← nanoTime env
  let loadEntities := TimeMeasure.ofAction env.ids.loadEntities start
  let entities ← adapter benchmark.loadEntities
  let stop ← nanoTime env
  let after ← Prog.getState
  record (.loadMeasured benchmark.getName entities before.world after.world)
  pure (results ++ [loadEntities.end' stop])

/-- The body of the pass loop. -/
def runPass (benchmark : Benchmark ω) (results : List TimeMeasure) :
    Prog (Exec ω) Throwable (List TimeMeasure) := do
  adapter benchmark.init
  let entities ← generateEntities env env.ENTITIES_COUNT
  let results ← savePhase env benchmark results entities
  adapter benchmark.clearCache
  let results ← loadPhase env benchmark results
  adapter benchmark.dispose
  pure results

/-- The pass loop, with the passes still to come. -/
def runPasses (benchmark : Benchmark ω) :
    Nat → List TimeMeasure → Prog (Exec ω) Throwable (List TimeMeasure)
  | 0, results => pure results
  | n + 1, results => do
      let results ← runPass env benchmark results
      runPasses benchmark n results

/-- One round of the benchmark loop. -/
def runBenchmark (benchmark : Benchmark ω) : Prog (Exec ω) Throwable Unit := do
  publishProgress benchmark.getName
  let results ← runPasses env benchmark env.PASSES []
  record (.averaged benchmark.getName results)
  let save ← averageOf env.ids.saveEntitiesInTransaction results
  let load ← averageOf env.ids.loadEntities results
  putResults benchmark.getName [save, load]
  publishProgress benchmark.getName

def doInBackground (benchmarks : List (Benchmark ω)) :
    Prog (Exec ω) Throwable Unit :=
  Prog.forEach (runBenchmark env) benchmarks

end Background

/-! ## What another thread sees of it -/

/-- One action of the background thread that another thread can see. -/
inductive Instr
  | publishProgress (name : String)
  | put (name : String)
deriving DecidableEq, Repr

/-- `doInBackground` as its publications and stores, in order. -/
def visibleSteps (names : List String) : List Instr :=
  names.flatMap fun name =>
    [.publishProgress name, .put name, .publishProgress name]

/-- An executor after `execute()`: the shared results map and what its task
has left to do. -/
structure Executor where
  results : ResultMap
  todo : List Instr

/-- `execute()`: a fresh map and a whole task. -/
def Executor.execute (names : List String) : Executor where
  results := ∅
  todo := visibleSteps names

/-- The task has nothing left to publish or store. -/
def Executor.finished (e : Executor) : Prop := e.todo = []

instance (e : Executor) : Decidable e.finished :=
  inferInstanceAs (Decidable (e.todo = []))

/-- One step of the task, with the published name if the step publishes. The
averages are what a store stores; how they come about is `runBenchmark`'s. -/
def Executor.background (e : Executor) (save load : TimeMeasure) :
    Option (Executor × Option String) :=
  match e.todo with
  | [] => none
  | .publishProgress name :: rest => some ({ e with todo := rest }, some name)
  | .put name :: rest =>
      some ({ results := e.results.insert name [save, load], todo := rest }, none)

/-- The two callbacks of `BenchmarkExecutorListener`, with the arguments they
are given; `results.get` answers `none` for `null`. -/
inductive ListenerCall
  | onBenchmarkStarted (name : String)
  | onBenchmarkFinished (name : String) (results : Option (List TimeMeasure))
deriving DecidableEq, Repr

/-- `onProgressUpdate` with a listener that is alive: both messages of a
benchmark carry its name, and the map says which of the two this is. -/
def onProgressUpdate (results : ResultMap) (name : String) : ListenerCall :=
  if name ∈ results then
    .onBenchmarkFinished name (results.lookup name)
  else
    .onBenchmarkStarted name

/-! ## The CSV text -/

def CSV_HEADER : List String := ["Name", "Save in transaction", "Load"]

/-- `for (i …) append(cells[i]).append(i == length - 1 ? "\n" : ",")`. -/
def appendCells (stringBuilder : String) (cells : List String) : String :=
  cells.zipIdx.foldl
    (fun sb p => sb ++ p.1 ++ (if p.2 = cells.length - 1 then "\n" else ","))
    stringBuilder

/-- One row of the loop over `results.keySet()`. -/
def appendRow (results : ResultMap) (stringBuilder key : String) : String :=
  match results.lookup key with
  | none => stringBuilder -- not a key of the map; the loop never asks
  | some measures =>
      appendCells (stringBuilder ++ key ++ ",")
        (measures.map fun tm => toString tm.msec)

/-- The text `generateCSV` writes, for one iteration order of `keySet()`. -/
def generateCSV (results : ResultMap) (keySet : List String) : String :=
  keySet.foldl (appendRow results) (appendCells "" CSV_HEADER)

end OrmBenchmark.Ref
