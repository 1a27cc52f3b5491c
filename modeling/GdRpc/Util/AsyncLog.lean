import GdRpc.Library.Bytes
import GdRpc.Library.Transition

/-!
# `AsyncLogging`

The threads that log hold the mutex for the whole of `append`. The backend
`threadFunc` holds it for the section that takes the buffers, except while it
waits there for the condition variable; between that section and the next its
locals are its own. `file_` is what has been passed to `file_.append`.
-/

namespace GdRpc.Gdlog

open GdRpc.Library

namespace AsyncLogging

def Buffer.size_ : Nat := 4000 * 1024

/-- The bytes from `data_` to `cur_`, of which there are never `size_`. -/
structure Buffer where
  data : Bytes
  bounded : data.length < Buffer.size_
  deriving DecidableEq, Repr

namespace Buffer

def new : Buffer where
  data := []
  bounded := by decide

def length (buffer : Buffer) : Nat :=
  buffer.data.length

def avail (buffer : Buffer) : Nat :=
  size_ - buffer.data.length

def reset (_ : Buffer) : Buffer := new

def append (buffer : Buffer) (buf : Bytes) : Buffer :=
  if room : buf.length < buffer.avail then
    { data := buffer.data ++ buf
      bounded := by
        unfold avail at room
        rw [List.length_append]
        omega }
  else
    buffer

end Buffer

/-- Where the backend is. `taken` is between its lock section and the test for
too many buffers, `writing next` in the loop that writes the buffers. -/
inductive Phase where
  | latch
  | top
  | locking
  | waiting
  | taken
  | writing (next : Nat)
  | finished
  deriving DecidableEq, Repr

/-- The buffers taken in one round and the time of its notice, if it has to
give one. -/
structure Round where
  taken : List Bytes
  time : Bytes
  deriving DecidableEq, Repr

end AsyncLogging

open AsyncLogging

/-- The shared members, the locals of `threadFunc` and, for the record only,
the lines in the order in which the lock was taken and the rounds. -/
structure AsyncLogging where
  running_ : Bool
  currentBuffer_ : Option Buffer
  nextBuffer_ : Option Buffer
  buffers_ : List Buffer
  file_ : Bytes
  newBuffer1 : Option Buffer
  newBuffer2 : Option Buffer
  buffersToWrite : List Buffer
  phase : Phase
  lines : List Bytes
  rounds : List Round
  deriving DecidableEq, Repr

namespace AsyncLogging

def new : AsyncLogging where
  running_ := false
  currentBuffer_ := some .new
  nextBuffer_ := some .new
  buffers_ := []
  file_ := []
  newBuffer1 := none
  newBuffer2 := none
  buffersToWrite := []
  phase := .latch
  lines := []
  rounds := []

/-- Nothing when a null `currentBuffer_` would be dereferenced. -/
def append (logging : AsyncLogging) (logline : Bytes) : Option AsyncLogging :=
  match logging.currentBuffer_ with
  | none => none
  | some currentBuffer_ =>
      let logging := { logging with lines := logging.lines ++ [logline] }
      if logline.length < currentBuffer_.avail then
        some { logging with currentBuffer_ := some (currentBuffer_.append logline) }
      else
        some { logging with
          buffers_ := logging.buffers_ ++ [currentBuffer_]
          currentBuffer_ := some ((logging.nextBuffer_.getD .new).append logline)
          nextBuffer_ := none }

/-- `threadFunc` up to its loop, once the constructor has released the latch. -/
def beginThread (logging : AsyncLogging) : AsyncLogging :=
  { logging with
    newBuffer1 := some .new
    newBuffer2 := some .new
    buffersToWrite := []
    running_ := true
    phase := .top }

/-- The rest of the lock section, once `buffers_` has been looked at. -/
def take (logging : AsyncLogging) : Option AsyncLogging :=
  match logging.currentBuffer_ with
  | none => none
  | some currentBuffer_ =>
      let logging := { logging with
        currentBuffer_ := logging.newBuffer1
        newBuffer1 := none
        buffersToWrite := logging.buffers_ ++ [currentBuffer_]
        buffers_ := logging.buffersToWrite
        phase := .taken }
      match logging.nextBuffer_ with
      | some _ => some logging
      | none => some { logging with
          nextBuffer_ := logging.newBuffer2
          newBuffer2 := none }

def lock (logging : AsyncLogging) : Option AsyncLogging :=
  if logging.buffers_.isEmpty then some { logging with phase := .waiting }
  else logging.take

/-- The text that replaces the buffers dropped, cut to the 256 characters of
`buf`. -/
def notice (time : Bytes) (dropped : Nat) : Bytes :=
  (ascii "Dropped log messages at " ++ time ++ ascii ", " ++
    ascii (toString dropped) ++ ascii " larger buffers\n").take 255

/-- The test for more than 25 buffers, at the time given. -/
def drop (logging : AsyncLogging) (time : Bytes) : AsyncLogging :=
  let logging := { logging with
    phase := .writing 0
    rounds := logging.rounds ++ [⟨logging.buffersToWrite.map Buffer.data, time⟩] }
  if 25 < logging.buffersToWrite.length then
    { logging with
      file_ := logging.file_ ++ notice time (logging.buffersToWrite.length - 2)
      buffersToWrite := logging.buffersToWrite.take 2 }
  else
    logging

/-- A null spare buffer gets the last of the buffers written; there is nothing
to take it from when none is left. -/
def refill (newBuffer : Option Buffer) (buffersToWrite : List Buffer) :
    Option (Buffer × List Buffer) :=
  match newBuffer with
  | some buffer => some (buffer, buffersToWrite)
  | none =>
      match buffersToWrite.getLast? with
      | none => none
      | some buffer => some (buffer.reset, buffersToWrite.dropLast)

/-- The end of the loop body. -/
def recycle (logging : AsyncLogging) : Option AsyncLogging :=
  match refill logging.newBuffer1 logging.buffersToWrite with
  | none => none
  | some (newBuffer1, buffersToWrite) =>
      match refill logging.newBuffer2 buffersToWrite with
      | none => none
      | some (newBuffer2, _) =>
          some { logging with
            newBuffer1 := some newBuffer1
            newBuffer2 := some newBuffer2
            buffersToWrite := []
            phase := .top }

/-- The loop that writes the buffers and, behind it, the end of the body. -/
def write (logging : AsyncLogging) (next : Nat) : Option AsyncLogging :=
  match logging.buffersToWrite[next]? with
  | some buffer =>
      some { logging with
        file_ := logging.file_ ++ buffer.data
        phase := .writing (next + 1) }
  | none => logging.recycle

inductive Event where
  | append (logline : Bytes)
  | stop
  | backend (time : Bytes)
  deriving DecidableEq, Repr

/-- The next step of the backend, `time` being what the clock shows. -/
def backend (logging : AsyncLogging) (time : Bytes) : Option AsyncLogging :=
  match logging.phase with
  | .latch => some logging.beginThread
  | .top => some { logging with
      phase := if logging.running_ then .locking else .finished }
  | .locking => logging.lock
  | .waiting => logging.take
  | .taken => some (logging.drop time)
  | .writing next => logging.write next
  | .finished => some logging

def next (logging : AsyncLogging) : Event → Option AsyncLogging
  | .append logline => logging.append logline
  | .stop => some { logging with running_ := false }
  | .backend time => logging.backend time

/-- Lines are shorter than a buffer. -/
def Event.Admissible : Event → Prop
  | .append logline => logline.length < Buffer.size_
  | _ => True

instance : ∀ event : Event, Decidable event.Admissible
  | .append logline => inferInstanceAs (Decidable (logline.length < Buffer.size_))
  | .stop | .backend _ => inferInstanceAs (Decidable True)

/-- Any thread may append or stop at any time the mutex is free. -/
def system : System AsyncLogging Event where
  initial logging := logging = new
  step logging event after := event.Admissible ∧ logging.next event = some after

end AsyncLogging

end GdRpc.Gdlog
