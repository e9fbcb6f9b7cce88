import OrmBenchmark.Lib.Lts
import OrmBenchmark.Ref.Executor

/-!
# One executor and its listener

The background thread of one `BenchmarkExecutor` against the UI thread. A
published name travels through the main looper: it is delivered later, in
publication order, and only then does `onProgressUpdate` look at the results
map, which the background thread has gone on writing in the meantime. Any
interleaving of the two is a run.
-/

namespace OrmBenchmark.Ref

open OrmBenchmark.Lib

/-- The executor, the published names not yet delivered (oldest first), and
the calls its listener has received. -/
structure Delivery where
  executor : Executor
  queue : List String
  calls : List ListenerCall

inductive DeliveryLabel
  /-- a step of the background thread; a store takes the two averages -/
  | background (save load : TimeMeasure)
  /-- `onProgressUpdate` on the oldest undelivered name -/
  | deliver
deriving DecidableEq

namespace Delivery

def start (names : List String) : Delivery where
  executor := Executor.execute names
  queue := []
  calls := []

def next (s : Delivery) : DeliveryLabel → Option Delivery
  | .background save load =>
      match s.executor.background save load with
      | none => none
      | some (executor, published) =>
          some { s with executor := executor, queue := s.queue ++ published.toList }
  | .deliver =>
      match s.queue with
      | [] => none
      | name :: rest =>
          some { s with
            queue := rest
            calls := s.calls ++ [onProgressUpdate s.executor.results name] }

/-- Every interleaving of one executor with the delivery of its messages. -/
def lts (names : List String) : Lts Delivery DeliveryLabel :=
  Lts.ofNext (start names) next

/-- The task is over and every message is delivered. -/
def Complete (s : Delivery) : Prop := s.executor.finished ∧ s.queue = []

end Delivery

/-- What a listener is promised about benchmarks with these stored results:
for each, in order, one start and then one finish. -/
def protocol (results : ResultMap) (names : List String) : List ListenerCall :=
  names.flatMap fun name =>
    [.onBenchmarkStarted name, .onBenchmarkFinished name (results.lookup name)]

end OrmBenchmark.Ref
