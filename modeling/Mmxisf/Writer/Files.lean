/-
# Writer.Files -- the calls of a writer, and the files it owns

`ExclusiveFileByteSink`, `write_all`, `write_file_contents`,
`TemporaryFilesCleanup` and `path_is_available` of `writer.cpp`.  A writer calls
the file system, the codecs, the sink of its caller, the allocator and the stop
token; every such call is an operation here, so nothing is assumed of the
answers.

The store of a routine is what destructors act on: the descriptors of the sink
objects that are alive, and the paths that the cleanup object tracks.

One `allocate` stands for the allocations of a stretch of code without other
calls: where in the stretch one fails makes no difference to anything outside.
-/
import Mmxisf.Library.Buffer
import Mmxisf.Library.Executions
import Mmxisf.Writer.Entries

namespace Mmxisf.Writer

set_option autoImplicit false

open Library (Program Routine slice)
open Library.Routine (request modifyStore)

/-- The allocations that are told apart: those of the sink object of a file that
was just created, those of the cleanup object for its path, those of the summary
of a published file, and all others. -/
inductive AllocationSite
  | work | openedSink | trackedPath | summary
  deriving DecidableEq, Repr

inductive WriteOp
  | stopRequested
  | allocate (site : AllocationSite)
  | isAvailable (path : Path)
  | create (path : Path)
  | write (descriptor : Nat) (bytes : Bytes)
  | flush (descriptor : Nat)
  | close (descriptor : Nat)
  | sinkWrite (bytes : Bytes)
  | sinkFlush
  | compress (codec : CompressionCodec) (input : Bytes) (capacity : Nat)
  | openSpool (path : Path)
  | readSpool (handle size : Nat)
  | spoolHasMore (handle : Nat)
  | link (path destination : Path)
  | remove (path : Path)
  deriving DecidableEq

/-- `create` and `openSpool` name what they opened; `write` counts the bytes that
it took; `readSpool` returns the bytes that there were. -/
def WriteOp.Reply : WriteOp → Type
  | .stopRequested => Bool
  | .allocate _ => Bool
  | .isAvailable _ => Bool
  | .create _ => Option Nat
  | .write _ _ => Option Nat
  | .flush _ => Bool
  | .close _ => Bool
  | .sinkWrite _ => Result Nat
  | .sinkFlush => Result Unit
  | .compress _ _ _ => CompressReply
  | .openSpool _ => Option Nat
  | .readSpool _ _ => Bytes
  | .spoolHasMore _ => Bool
  | .link _ _ => Bool
  | .remove _ => Unit

/-- The open sink objects, and `TemporaryFilesCleanup::paths_`. -/
structure OwnedFiles where
  descriptors : List Nat := []
  paths : List Path := []
  deriving DecidableEq, Repr

abbrev WriteRoutine (α : Type) := Routine WriteOp WriteOp.Reply OwnedFiles Error α

/-! ## Checks -/

def fail {α : Type} (code : ErrorCode) (message : String) : WriteRoutine α :=
  Routine.fail (makeError code message)

def refuse (bad : Prop) [Decidable bad] (code : ErrorCode) (message : String) : WriteRoutine Unit :=
  Routine.ofExcept (reject bad code message)

def checkStop : WriteRoutine Unit := do
  let stopped : Bool ← request WriteOp.stopRequested
  refuse (stopped = true) .cancelled "XISF write was cancelled"

/-- The error that `Writer::write_file` makes of `std::bad_alloc`. -/
def badAlloc : Error := makeError .resourceLimit
    "Writer could not allocate within configured budgets"

def allocate (site : AllocationSite) : WriteRoutine Unit := do
  let allocated : Bool ← request (WriteOp.allocate site)
  if allocated = true then pure () else Routine.fail badAlloc

/-! ## Sinks -/

/-- The sink of the caller, or an `ExclusiveFileByteSink` with its descriptor. -/
inductive Sink
  | external
  | file (descriptor : Nat)
  deriving DecidableEq, Repr

namespace Sink

def write (sink : Sink) (source : Bytes) : WriteRoutine Nat :=
  match sink with
  | .external => do
      let reply ← request (WriteOp.sinkWrite source)
      Routine.ofExcept reply
  | .file descriptor => do
      if source = [] then pure 0
      else do
        let written : Option Nat ← request (WriteOp.write descriptor source)
        Routine.ofExcept (orFail written .ioError "Unable to write XISF bytes")

def flush (sink : Sink) : WriteRoutine Unit :=
  match sink with
  | .external => do
      let reply ← request WriteOp.sinkFlush
      Routine.ofExcept reply
  | .file descriptor => do
      let flushed : Bool ← request (WriteOp.flush descriptor)
      refuse (flushed = false) .ioError "Unable to flush XISF bytes"

/-- `close`; the object forgets its descriptor before the call. -/
def close (sink : Sink) : WriteRoutine Unit :=
  match sink with
  | .external => pure ()
  | .file descriptor => do
      modifyStore fun owned =>
        { owned with descriptors := owned.descriptors.filter (· ≠ descriptor) }
      let closed : Bool ← request (WriteOp.close descriptor)
      refuse (closed = false) .ioError "Unable to close writer file"

end Sink

/-- `ExclusiveFileByteSink::create`. -/
def createFile (path : Path) : WriteRoutine Sink := do
  let opened : Option Nat ← request (WriteOp.create path)
  match opened with
  | none => fail .ioError "Unable to exclusively create writer file"
  | some descriptor => do
      allocate .openedSink
      modifyStore fun owned => { owned with descriptors := owned.descriptors ++ [descriptor] }
      pure (.file descriptor)

/-- `TemporaryFilesCleanup::track`. -/
def track (path : Path) : WriteRoutine Unit := do
  allocate .trackedPath
  modifyStore fun owned => { owned with paths := owned.paths ++ [path] }

def closeAll : List Nat → Program WriteOp WriteOp.Reply Unit
  | [] => .done ()
  | descriptor :: rest => .call (.close descriptor) fun _ => closeAll rest

def removeAll : List Path → Program WriteOp WriteOp.Reply Unit
  | [] => .done ()
  | path :: rest => .call (.remove path) fun _ => removeAll rest

/-- The destructors of the sink objects. -/
def destroySinks (owned : OwnedFiles) : Program WriteOp WriteOp.Reply OwnedFiles :=
  (closeAll owned.descriptors).bind fun _ => .done { owned with descriptors := [] }

/-- The destructor of the cleanup object. -/
def destroyCleanup (owned : OwnedFiles) : Program WriteOp WriteOp.Reply OwnedFiles :=
  (removeAll owned.paths).bind fun _ => .done { owned with paths := [] }

/-! ## Writing and reading bytes -/

/-- `kChunkBytes` of `write_all`. -/
def kWriteChunk : Nat := 8 * 1024 * 1024

/-- The loop of `write_all`; every round writes a byte. -/
def writeFrom (output : Sink) (bytes : Bytes) : Nat → Nat → WriteRoutine Nat
  | 0, written => pure written
  | fuel + 1, written =>
      if written < bytes.length then do
        checkStop
        let count := min kWriteChunk (bytes.length - written)
        let result ← output.write (slice bytes written count)
        refuse (result = 0 ∨ result > count) .ioError "ByteSink returned an invalid write count"
        writeFrom output bytes fuel (written + result)
      else pure written

def writeAll (output : Sink) (bytes : Bytes) : WriteRoutine Nat :=
  writeFrom output bytes bytes.length 0

/-- `kChunkBytes` of `write_file_contents` and `compute_checksum_file`. -/
def kSpoolChunk : Nat := 1024 * 1024

/-- `std::ifstream input(path)`. -/
def openSpool (path : Path) : WriteRoutine Nat := do
  let opened : Option Nat ← request (WriteOp.openSpool path)
  Routine.ofExcept (orFail opened .ioError "Unable to read writer compression spool")

def readSpoolChunk (handle count : Nat) : WriteRoutine Bytes := do
  let bytes : Bytes ← request (WriteOp.readSpool handle count)
  refuse (bytes.length ≠ count) .ioError "Writer compression spool is truncated"
  pure bytes

/-- `input.peek() != eof`. -/
def checkSpoolEnd (handle : Nat) : WriteRoutine Unit := do
  let more : Bool ← request (WriteOp.spoolHasMore handle)
  refuse (more = true) .ioError "Writer compression spool has unexpected trailing data"

/-- The loop of `write_file_contents`. -/
def copySpoolFrom (output : Sink) (handle expectedSize : Nat) : Nat → Nat → WriteRoutine Nat
  | 0, written => pure written
  | fuel + 1, written =>
      if written < expectedSize then do
        checkStop
        let count := min (expectedSize - written) (min expectedSize kSpoolChunk)
        let bytes ← readSpoolChunk handle count
        let _ ← writeAll output bytes
        copySpoolFrom output handle expectedSize fuel (written + count)
      else pure written

def writeFileContents (output : Sink) (path : Path) (expectedSize : Nat) : WriteRoutine Nat := do
  allocate .work
  let handle ← openSpool path
  let written ← copySpoolFrom output handle expectedSize expectedSize 0
  checkSpoolEnd handle
  pure written

end Mmxisf.Writer
