/-
# Writer.Blocks -- preparing the bytes of a block

`compress_bytes`, `compute_checksum`, `compute_checksum_file` and
`prepare_block` of `writer.cpp`.  A block that is larger than one subblock is
compressed into a spool file, which the cleanup object of the call tracks.

A codec's bound is zero where the codec has none for a size; the digests are the
platform's and do not fail.
-/
import Mmxisf.Writer.Files
import Mmxisf.Writer.Shuffle

namespace Mmxisf.Writer

set_option autoImplicit false

open Library (Routine slice)

/-! ## Names -/

def compressionName : CompressionCodec → Text
  | .none => []
  | .zlib => lit "zlib"
  | .lz4 => lit "lz4"
  | .lz4hc => lit "lz4hc"
  | .zstd => lit "zstd"

def checksumName : ChecksumAlgorithm → Text
  | .none => []
  | .sha1 => lit "sha-1"
  | .sha256 => lit "sha-256"
  | .sha512 => lit "sha-512"
  | .sha3_256 => lit "sha3-256"
  | .sha3_512 => lit "sha3-512"

/-- `digits[value]` of `compute_checksum`. -/
def checksumDigit (value : Nat) : Byte := (lit "0123456789abcdef").getD value 0

/-- The name of the algorithm and the digest in hexadecimal. -/
def checksumText (platform : Platform) (algorithm : ChecksumAlgorithm) (bytes : Bytes) : Text :=
  checksumName algorithm ++ lit ":" ++
    (platform.digest algorithm bytes).flatMap fun byte =>
      [checksumDigit (byte.toNat / 16), checksumDigit (byte.toNat % 16)]

/-! ## Compression -/

/-- `LZ4_MAX_INPUT_SIZE`. -/
def kLz4MaxInputSize : Nat := 2113929216

/-- `bounded_capacity` of `compress_bytes`. -/
def boundedCapacity (codecBound maxOutputBytes : Nat) : Nat :=
  min (min codecBound maxOutputBytes) u64Max

def compressZlib (platform : Platform) (input : Bytes) (maxOutputBytes : Nat) :
    WriteRoutine Bytes := do
  refuse (input.length > u64Max) .resourceLimit "Writer zlib input exceeds codec limit"
  let capacity := boundedCapacity (platform.compressBound .zlib input.length) maxOutputBytes
  allocate .work
  let reply : CompressReply ← Routine.request (WriteOp.compress .zlib input capacity)
  match reply with
  | .produced output => pure output
  | .bufferTooSmall => fail .resourceLimit "Writer zlib output exceeds its byte budget"
  | .failed => fail .internalError "Writer zlib compression failed"

def compressLz4 (platform : Platform) (codec : CompressionCodec) (input : Bytes)
    (maxOutputBytes : Nat) : WriteRoutine Bytes := do
  refuse (input.length > kLz4MaxInputSize) .resourceLimit "Writer LZ4 input exceeds codec limit"
  let bound := platform.compressBound .lz4 input.length
  refuse (bound = 0) .internalError "Writer LZ4 compression bound failed"
  let capacity := boundedCapacity bound maxOutputBytes
  allocate .work
  let reply : CompressReply ← Routine.request (WriteOp.compress codec input capacity)
  match reply with
  | .produced (first :: rest) => pure (first :: rest)
  | _ =>
      if capacity < bound then
        fail .resourceLimit "Writer LZ4 output exceeds its byte budget"
      else fail .internalError "Writer LZ4 compression failed"

def compressZstd (platform : Platform) (input : Bytes) (maxOutputBytes : Nat) :
    WriteRoutine Bytes := do
  let bound := platform.compressBound .zstd input.length
  refuse (bound = 0) .resourceLimit "Writer Zstandard output exceeds codec limit"
  let capacity := boundedCapacity bound maxOutputBytes
  allocate .work
  let reply : CompressReply ← Routine.request (WriteOp.compress .zstd input capacity)
  match reply with
  | .produced output => pure output
  | _ =>
      if capacity < bound then
        fail .resourceLimit "Writer Zstandard output exceeds its byte budget"
      else fail .internalError "Writer Zstandard compression failed"

def compressBytes (platform : Platform) (input : Bytes) (codec : CompressionCodec)
    (maxOutputBytes : Nat) : WriteRoutine Bytes := do
  checkStop
  refuse (maxOutputBytes = 0) .resourceLimit "Writer compressed block has no remaining byte budget"
  let output ← (match codec with
    | .zlib => compressZlib platform input maxOutputBytes
    | .lz4 => compressLz4 platform .lz4 input maxOutputBytes
    | .lz4hc => compressLz4 platform .lz4hc input maxOutputBytes
    | .zstd => compressZstd platform input maxOutputBytes
    | .none => fail .internalError "Writer compression codec is missing")
  checkStop
  pure output

/-! ## Checksums -/

def computeChecksum (platform : Platform) (bytes : Bytes) (algorithm : ChecksumAlgorithm) :
    WriteRoutine Text := do
  refuse (algorithm = .none) .invalidArgument "Writer checksum algorithm is invalid"
  allocate .work
  pure (checksumText platform algorithm bytes)

/-- The loop of `compute_checksum_file`, with the bytes that were hashed. -/
def hashSpoolFrom (handle expectedSize : Nat) : Nat → Nat → Bytes → WriteRoutine Bytes
  | 0, _, hashed => pure hashed
  | fuel + 1, remaining, hashed =>
      if remaining ≠ 0 then do
        checkStop
        let count := min remaining (min expectedSize kSpoolChunk)
        let bytes ← readSpoolChunk handle count
        hashSpoolFrom handle expectedSize fuel (remaining - count) (hashed ++ bytes)
      else pure hashed

def computeChecksumFile (platform : Platform) (path : Path) (expectedSize : Nat)
    (algorithm : ChecksumAlgorithm) : WriteRoutine Text := do
  refuse (algorithm = .none) .invalidArgument "Writer checksum algorithm is invalid"
  allocate .work
  let handle ← openSpool path
  let hashed ← hashSpoolFrom handle expectedSize expectedSize expectedSize []
  checkSpoolEnd handle
  allocate .work
  pure (checksumText platform algorithm hashed)

/-! ## Blocks -/

structure BlockPrepareRequest where
  bytes : Bytes
  itemSize : Nat := 0
  compression : CompressionCodec := .none
  byteShuffle : Bool := false
  checksum : ChecksumAlgorithm := .none
  maxSerializedBytes : Nat := 0
  maxCumulativeRemaining : Nat := 0
  spoolSuffix : Path := []
  deriving DecidableEq, Repr

/-- `chunk_limit`. -/
def chunkLimit (compression : CompressionCodec) (subblockBytes : Nat) : Nat :=
  match compression with
  | .lz4 | .lz4hc => min subblockBytes kLz4MaxInputSize
  | .zlib => min subblockBytes u64Max
  | _ => subblockBytes

/-- What the compression loop keeps. -/
structure CompressedChunks where
  subblocks : List (Nat × Nat) := []
  storage : Bytes := []
  inputOffset : Nat := 0
  serializedSoFar : Nat := 0
  deriving DecidableEq, Repr

/-- One round of the compression loop: a subblock, kept in memory or appended to
the spool. -/
def compressChunk (platform : Platform) (request : BlockPrepareRequest) (options : WriterOptions)
    (spool : Option Sink) (chunks : CompressedChunks) : WriteRoutine CompressedChunks := do
  checkStop
  refuse (chunks.subblocks.length ≥ options.maxCompressionSubblocks) .resourceLimit
    "Writer compression subblock count exceeds its budget"
  let uncompressedSize := min (chunkLimit request.compression options.compressionSubblockBytes)
    (wrapSubtract request.bytes.length chunks.inputOffset)
  allocate .work
  let compressionInput ← (if request.byteShuffle = true then
      Routine.ofExcept (shuffledRange request.bytes request.itemSize chunks.inputOffset
        uncompressedSize)
    else pure (slice request.bytes chunks.inputOffset uncompressedSize))
  refuse (chunks.serializedSoFar ≥ request.maxSerializedBytes ∨
      chunks.serializedSoFar ≥ request.maxCumulativeRemaining) .resourceLimit
    "Writer compressed block has no remaining byte budget"
  let compressed ← compressBytes platform compressionInput request.compression
    (min (wrapSubtract request.maxSerializedBytes chunks.serializedSoFar)
      (wrapSubtract request.maxCumulativeRemaining chunks.serializedSoFar))
  let storage ← (match spool with
    | some sink => do
        let _ ← writeAll sink compressed
        pure chunks.storage
    | none => pure compressed)
  allocate .work
  pure {
    subblocks := chunks.subblocks ++ [(compressed.length, uncompressedSize)]
    storage
    inputOffset := wrapAdd chunks.inputOffset uncompressedSize
    serializedSoFar := wrapAdd chunks.serializedSoFar compressed.length }

/-- The compression loop; every round takes a byte of the input. -/
def compressChunks (platform : Platform) (request : BlockPrepareRequest) (options : WriterOptions)
    (spool : Option Sink) : Nat → CompressedChunks → WriteRoutine CompressedChunks
  | 0, chunks => pure chunks
  | fuel + 1, chunks =>
      if chunks.inputOffset < request.bytes.length then do
        let next ← compressChunk platform request options spool chunks
        compressChunks platform request options spool fuel next
      else pure chunks

/-- `codec:size`, with `+sh` and the item size where bytes are shuffled. -/
def compressionText (request : BlockPrepareRequest) : Text :=
  compressionName request.compression ++ (if request.byteShuffle = true then lit "+sh" else []) ++
    lit ":" ++ decimal request.bytes.length ++
    (if request.byteShuffle = true then lit ":" ++ decimal request.itemSize else [])

/-- One step of the loop that writes the sizes of the subblocks. -/
def appendSubblock (text : Text) (subblock : Nat × Nat) : Text :=
  (if text ≠ [] then text ++ lit ":" else text) ++ decimal subblock.1 ++ lit "," ++
    decimal subblock.2

/-- The sizes of the subblocks, when there is more than one. -/
def subblocksText (subblocks : List (Nat × Nat)) : Text :=
  if subblocks.length > 1 then subblocks.foldl appendSubblock [] else []

/-- The spool of a block that needs one: its sink, and its path. -/
def openBlockSpool (destination : Path) (request : BlockPrepareRequest) (options : WriterOptions) :
    WriteRoutine (Option Sink × Path) :=
  if request.bytes.length > chunkLimit request.compression options.compressionSubblockBytes then do
    refuse (destination = []) .invalidArgument
      "ByteSink multi-subblock compression requires a scratch file stem"
    allocate .work
    let sink ← createFile (destination ++ request.spoolSuffix)
    track (destination ++ request.spoolSuffix)
    pure (some sink, destination ++ request.spoolSuffix)
  else pure (none, [])

def closeSpool (spool : Option Sink) : WriteRoutine Unit :=
  match spool with
  | some sink => do
      sink.flush
      sink.close
  | none => pure ()

/-- The part of `prepare_block` for a block that is compressed. -/
def compressBlock (platform : Platform) (destination : Path) (request : BlockPrepareRequest)
    (options : WriterOptions) : WriteRoutine PreparedBlock := do
  refuse (chunkLimit request.compression options.compressionSubblockBytes = 0 ∨
      request.itemSize = 0) .invalidArgument "Writer compression geometry is invalid"
  let (spool, spoolPath) ← openBlockSpool destination request options
  let chunks ← compressChunks platform request options spool request.bytes.length {}
  closeSpool spool
  allocate .work
  pure {
    storage := chunks.storage
    spoolPath
    serializedSize := chunks.serializedSoFar
    compression := compressionText request
    subblocks := subblocksText chunks.subblocks }

/-- The checksum of a block as it will be written. -/
def blockChecksum (platform : Platform) (request : BlockPrepareRequest) (block : PreparedBlock) :
    WriteRoutine Text :=
  if request.checksum ≠ .none then
    if block.spoolPath = [] then
      computeChecksum platform (if block.storage = [] then request.bytes else block.storage)
        request.checksum
    else computeChecksumFile platform block.spoolPath block.serializedSize request.checksum
  else pure []

def prepareBlock (platform : Platform) (destination : Path) (request : BlockPrepareRequest)
    (options : WriterOptions) : WriteRoutine PreparedBlock :=
  Routine.ensuring (do
    let block ← (if request.compression ≠ .none then
        compressBlock platform destination request options
      else pure { serializedSize := request.bytes.length })
    refuse (block.serializedSize > request.maxSerializedBytes ∨
        block.serializedSize > request.maxCumulativeRemaining) .resourceLimit
      "Writer serialized block exceeds its byte budget"
    let checksum ← blockChecksum platform request block
    pure { block with checksum })
    destroySinks

end Mmxisf.Writer
