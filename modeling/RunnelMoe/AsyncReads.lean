import RunnelMoe.PageSpecs

/-! The asynchronous reader: a bounded FIFO queue in front of a fixed set of workers.
The handle can be cloned, so requests that are not the cache's own share the queue
and the workers; they are kept as none. A closed reader accepts nothing more and
runs what it has accepted. -/
namespace RunnelMoe.AsyncReads
open StoreErrors PageSpecs

structure AsyncReaderConfig where
  workerThreads : Nat
  queueCapacity : Nat
  deriving DecidableEq, Repr

def twoReaders : AsyncReaderConfig := ⟨2,32⟩

structure Request where
  spec : PageSpec
  generation : Nat
  deriving DecidableEq, Repr

structure AsyncReader where
  accepting : Bool
  queue : List (Option Request)
  running : List (Option Request)
  deriving DecidableEq, Repr

def AsyncReader.empty : AsyncReader := ⟨true,[],[]⟩

def AsyncReader.enqueue (reader : AsyncReader) (request : Option Request) : AsyncReader :=
  {reader with queue := reader.queue ++ [request]}

def AsyncReader.submit (config : AsyncReaderConfig) (reader : AsyncReader) (request : Option Request) :
    Except StoreError AsyncReader :=
  if !reader.accepting then .error .shutdown
  else if reader.queue.length < config.queueCapacity then .ok (reader.enqueue request)
  else .error .queueFull

def AsyncReader.answer (config : AsyncReaderConfig) (reader : AsyncReader) : Except StoreError Unit :=
  match reader.submit config none with
  | .error e => .error e
  | .ok _ => .ok ()

def AsyncReader.close (reader : AsyncReader) : AsyncReader := {reader with accepting := false}

def AsyncReader.dequeue (config : AsyncReaderConfig) (reader : AsyncReader) : Option AsyncReader :=
  match reader.queue with
  | [] => none
  | request::rest =>
    if reader.running.length < config.workerThreads then
      some {reader with queue := rest, running := reader.running ++ [request]}
    else none

def AsyncReader.finish (reader : AsyncReader) (request : Option Request) : Option AsyncReader :=
  if request ∈ reader.running then some {reader with running := reader.running.erase request} else none

def AsyncReader.pending (reader : AsyncReader) : List Request :=
  (reader.queue ++ reader.running).reduceOption

section Pending
variable {config : AsyncReaderConfig} {reader next : AsyncReader}

theorem enqueuedPending (reader : AsyncReader) (request : Request) :
    (reader.enqueue (some request)).pending.Perm (request :: reader.pending) := by
  simp only [AsyncReader.pending,AsyncReader.enqueue,List.append_assoc,List.singleton_append]
  exact List.perm_middle.filterMap id

theorem foreignPending (ok : reader.submit config none = .ok next) : next.pending = reader.pending := by
  unfold AsyncReader.submit at ok
  split at ok
  · cases ok
  split at ok
  · cases ok
    show ((reader.queue ++ [none]) ++ reader.running).filterMap id = (reader.queue ++ reader.running).filterMap id
    simp
  · cases ok

theorem answered (request : Option Request) (ok : reader.answer config = .ok ()) :
    reader.submit config request = .ok (reader.enqueue request) := by
  unfold AsyncReader.answer AsyncReader.submit at ok
  unfold AsyncReader.submit
  split at ok
  · cases ok
  rename_i accepted
  split at accepted
  · cases accepted
  rename_i accepting
  split at accepted
  · rename_i room
    rw [if_neg accepting,if_pos room]
  · cases accepted

theorem dequeuedPending (ok : reader.dequeue config = some next) : next.pending.Perm reader.pending := by
  unfold AsyncReader.dequeue at ok
  split at ok
  · contradiction
  rename_i request rest first
  split at ok
  · cases Option.some.inj ok
    have moved : (rest ++ (reader.running ++ [request])).Perm (reader.queue ++ reader.running) := by
      rw [first,← List.append_assoc]
      exact List.perm_append_singleton _ _
    exact moved.filterMap id
  · contradiction

theorem finishedPending {request : Request} (ok : reader.finish (some request) = some next) :
    reader.pending.Perm (request :: next.pending) := by
  unfold AsyncReader.finish at ok
  split at ok
  · rename_i member
    cases Option.some.inj ok
    have moved : (reader.queue ++ reader.running).Perm
        (some request :: (reader.queue ++ reader.running.erase (some request))) :=
      ((List.perm_cons_erase member).append_left _).trans List.perm_middle
    exact moved.filterMap id
  · contradiction

theorem discardedPending (ok : reader.finish none = some next) : reader.pending.Perm next.pending := by
  unfold AsyncReader.finish at ok
  split at ok
  · rename_i member
    cases Option.some.inj ok
    have moved : (reader.queue ++ reader.running).Perm (none :: (reader.queue ++ reader.running.erase none)) :=
      ((List.perm_cons_erase member).append_left _).trans List.perm_middle
    exact moved.filterMap id
  · contradiction

end Pending
end RunnelMoe.AsyncReads
