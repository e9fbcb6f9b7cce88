import OrmBenchmark.Ref.Activity

/-!
# Activities that come and go

The manifest lets the system destroy the activity and create a new one whenever
the configuration changes, and what the old one had started goes on without it.
An executor knows its activity through a `WeakReference` only: a destroyed
activity may be collected at any time, and then `onProgressUpdate` has nobody
to call. It asks twice, once whether there is a listener and once for the
listener, and an activity that is collected between the two is an exception on
the UI thread.

The tasks of all activities of the process run on one serial executor and
publish into one looper. An executor is named by the activity that created it
and by its number among that activity's. What an `Activity` here says of the
file is what it last wrote; `file` is the content.
-/

namespace OrmBenchmark.Ref

open OrmBenchmark.Lib

/-- A submitted task, with the activity its executor has as listener. -/
structure Task where
  listener : Nat
  executor : Executor

/-- A published name, with the activity that the listener of its executor is. -/
structure Posted where
  listener : Nat
  message : Message
deriving DecidableEq

structure Process where
  /-- every task submitted so far -/
  tasks : List Task
  /-- undelivered messages, oldest first -/
  queue : List Posted
  /-- the activity whose `onBenchmarkFinished` the UI thread is in -/
  handling : Option (Nat × Handling)
  /-- the listener calls made so far: activity, executor, call -/
  calls : List (Nat × Nat × ListenerCall)
  /-- every activity created so far; the last is on the screen -/
  activities : List Activity
  /-- destroyed activities that were collected -/
  collected : List Nat
  /-- the content of `orm-benchmark.csv` -/
  file : Option String
  crashed : Bool

inductive ProcessLabel
  | click
  /-- the activity on the screen is destroyed and a new one created -/
  | recreate
  | collect (activity : Nat)
  | background (save load : TimeMeasure)
  | deliver
  /-- … when the listener is collected between the two `listener.get()` -/
  | deliverCollected
  | list (keySet : List String)
  | finish (keySet : List String) (write : FileWrite)

/-- One step of the serial executor: the oldest task that is not over takes it.
With the tasks come its activity, its number among the tasks of that activity,
and what it published. -/
def stepTasks (save load : TimeMeasure) :
    List Task → Option (List Task × Nat × Nat × Option String)
  | [] => none
  | t :: rest =>
      match t.executor.background save load with
      | some (e', published) =>
          some ({ t with executor := e' } :: rest, t.listener, 0, published)
      | none =>
          match stepTasks save load rest with
          | none => none
          | some (rest', j, k, published) =>
              some (t :: rest', j, if t.listener = j then k + 1 else k, published)

def executorsOf (j : Nat) (tasks : List Task) : List Executor :=
  (tasks.filter fun t => t.listener = j).map Task.executor

namespace Process

def start (file : Option String) : Process where
  tasks := []
  queue := []
  handling := none
  calls := []
  activities := [Activity.onCreate file]
  collected := []
  file := file
  crashed := false

/-- The number of the activity on the screen. -/
def current (s : Process) : Nat := s.activities.length - 1

def click (registry : Registry) (s : Process) : Option Process :=
  match s.handling, s.activities[s.current]? with
  | none, some a =>
      if a.startEnabled = true then
        some { s with
          tasks := s.tasks ++ [⟨s.current, Executor.execute registry.names⟩]
          activities := s.activities.set s.current
            { a with executor := some (executorsOf s.current s.tasks).length } }
      else
        none
  | _, _ => none

def recreate (s : Process) : Option Process :=
  match s.handling with
  | none => some { s with activities := s.activities ++ [Activity.onCreate s.file] }
  | some _ => none

/-- The activity is destroyed, and the UI thread is not in one of its methods. -/
def Collectable (s : Process) (j : Nat) : Prop :=
  j < s.current ∧ j ∉ s.collected ∧ s.handling.map Prod.fst ≠ some j

instance (s : Process) (j : Nat) : Decidable (s.Collectable j) :=
  inferInstanceAs (Decidable (_ ∧ _ ∧ _))

def collect (j : Nat) (s : Process) : Option Process :=
  if s.Collectable j then some { s with collected := j :: s.collected } else none

def background (save load : TimeMeasure) (s : Process) : Option Process :=
  match stepTasks save load s.tasks with
  | none => none
  | some (tasks, j, k, published) =>
      some { s with
        tasks := tasks
        queue := s.queue ++ (published.map fun name => Posted.mk j ⟨k, name⟩).toList }

/-- `onProgressUpdate`: without a listener nothing happens. -/
def deliver (s : Process) : Option Process :=
  match s.handling, s.queue with
  | none, p :: rest =>
      if p.listener ∈ s.collected then
        some { s with queue := rest }
      else
        match s.activities[p.listener]?,
            (executorsOf p.listener s.tasks)[p.message.executor]? with
        | some a, some e =>
            let call := onProgressUpdate e.results p.message.name
            let s := { s with
              queue := rest
              calls := s.calls ++ [(p.listener, p.message.executor, call)] }
            match call with
            | .onBenchmarkStarted name =>
                some { s with
                  activities := s.activities.set p.listener (a.onBenchmarkStarted name) }
            | .onBenchmarkFinished _ _ => some { s with handling := some (p.listener, .entered) }
        | _, _ => none
  | _, _ => none

/-- The second `listener.get()` is null. -/
def deliverCollected (s : Process) : Option Process :=
  match s.handling, s.queue with
  | none, p :: rest =>
      if s.Collectable p.listener then
        some { s with
          queue := rest
          collected := p.listener :: s.collected
          crashed := true }
      else
        none
  | _, _ => none

/-- The map an activity looks at: that of the executor it holds. -/
def resultsOf (s : Process) (j : Nat) (a : Activity) : Option (Nat × ResultMap) :=
  match a.executor with
  | none => none
  | some k => ((executorsOf j s.tasks)[k]?).map fun e => (k, e.results)

def list (keySet : List String) (s : Process) : Option Process :=
  match s.handling with
  | some (j, .entered) =>
      match s.activities[j]? with
      | none => none
      | some a =>
          match s.resultsOf j a with
          | none => none
          | some (_, results) =>
              if keySet.Perm results.keys then
                some { s with
                  handling := some (j, .listed)
                  activities := s.activities.set j (a.updateResultsList results keySet) }
              else
                none
  | _ => none

def finish (registry : Registry) (keySet : List String) (write : FileWrite)
    (s : Process) : Option Process :=
  match s.handling with
  | some (j, .listed) =>
      match s.activities[j]? with
      | none => none
      | some a =>
          match s.resultsOf j a with
          | none => none
          | some (k, results) =>
              if keySet.Perm results.keys then
                let a' := a.onBenchmarkFinished registry.names.length k results keySet write
                some { s with
                  handling := none
                  activities := s.activities.set j a'
                  file := if results.size = registry.names.length then a'.file else s.file }
              else
                none
  | _ => none

def next (registry : Registry) (s : Process) (label : ProcessLabel) : Option Process :=
  if s.crashed then
    none
  else
    match label with
    | .click => s.click registry
    | .recreate => s.recreate
    | .collect j => s.collect j
    | .background save load => s.background save load
    | .deliver => s.deliver
    | .deliverCollected => s.deliverCollected
    | .list keySet => s.list keySet
    | .finish keySet write => s.finish registry keySet write

/-- Every interleaving of the user, the system, the background thread and the UI
thread. -/
def lts (registry : Registry) (file : Option String) : Lts Process ProcessLabel :=
  Lts.ofNext (start file) (next registry)

end Process

end OrmBenchmark.Ref
