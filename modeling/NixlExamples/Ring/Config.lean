import Mathlib.Tactic.Ring

/-!
# Configuration of the streaming example

The module-level constants of `nixl_sender_receiver.py` as they are computed at import, and
`run_test`, which reassigns `NUM_BUFFERS`, `BUFFER_SIZE` and `NUM_TRANSFERS` before it starts the two
processes and leaves every constant derived from them (`PROGRESS_UPDATE_INTERVAL`,
`BACKPRESSURE_THRESHOLD`, `BUFFER_ENTRY_SIZE`, `TOTAL_MEMORY_SIZE`) at its import-time value.
A `Config` is what the two processes read; the descriptor lists both build from it are here too.
-/

namespace NixlExamples

/-- `NUM_BUFFERS` at import. -/
def importNumBuffers : Nat := 64

/-- `BUFFER_SIZE` at import (16 MiB). -/
def importBufferSize : Nat := 16 * 1024 * 1024

/-- `NUM_TRANSFERS` at import. -/
def importNumTransfers : Nat := 1000

/-- `PROGRESS_UPDATE_INTERVAL = max(1, NUM_BUFFERS // 4)`, evaluated at import. -/
def progressUpdateInterval : Nat := max 1 (importNumBuffers / 4)

/-- `BACKPRESSURE_THRESHOLD = NUM_BUFFERS - 4`, evaluated at import. -/
def backpressureThreshold : Nat := importNumBuffers - 4

/-- `BUFFER_BASE_OFFSET`. -/
def bufferBaseOffset : Nat := 2

/-- `BUFFER_ENTRY_SIZE = BUFFER_SIZE`, evaluated at import. -/
def bufferEntrySize : Nat := importBufferSize

/-- `TOTAL_MEMORY_SIZE = BUFFER_BASE_OFFSET + NUM_BUFFERS * BUFFER_ENTRY_SIZE`, evaluated at import. -/
def totalMemorySize : Nat := bufferBaseOffset + importNumBuffers * bufferEntrySize

/-- `get_buffer_offset(i)`. -/
def getBufferOffset (i : Nat) : Nat := bufferBaseOffset + i * bufferEntrySize

/-- The header value `0xFFFFFFFFFFFFFFFF` that marks a slot as drained. -/
def sentinel : Nat := 2 ^ 64 - 1

/-- The values both processes read: the three globals `run_test` assigns and the module constants. -/
structure Config where
  numBuffers : Nat
  bufferSize : Nat
  numTransfers : Nat
  threshold : Nat
  interval : Nat
  entrySize : Nat
  totalMemory : Nat
  numBuffers_pos : 0 < numBuffers
  interval_pos : 0 < interval

/-- `run_test(num_buffers, buffer_size, num_transfers)`: the globals it assigns, with every derived
constant left as the import computed it.  A ring of no buffers is excluded (`% NUM_BUFFERS` would
raise). -/
def runTest (numBuffers bufferSize numTransfers : Nat) (h : 0 < numBuffers) : Config where
  numBuffers := numBuffers
  bufferSize := bufferSize
  numTransfers := numTransfers
  threshold := backpressureThreshold
  interval := progressUpdateInterval
  entrySize := bufferEntrySize
  totalMemory := totalMemorySize
  numBuffers_pos := h
  interval_pos := by decide

/-- What `main()` runs: `run_test(NUM_BUFFERS, BUFFER_SIZE, NUM_TRANSFERS)` with the import values. -/
def mainConfig : Config := runTest importNumBuffers importBufferSize importNumTransfers (by decide)

@[simp] theorem runTest_threshold (n b t : Nat) (h : 0 < n) : (runTest n b t h).threshold = 60 := rfl
@[simp] theorem runTest_interval (n b t : Nat) (h : 0 < n) : (runTest n b t h).interval = 16 := rfl

/-! ### Descriptors -/

/-- A `(base_address, length, device_id)` entry of a descriptor list. -/
structure Desc where
  addr : Nat
  len : Nat
  dev : Nat
deriving DecidableEq, Repr

/-- `buffers_xfer_desc`, the descriptors the receiver hands to the sender, for a region at
`memoryAddr`. -/
def receiverDescs (cfg : Config) (memoryAddr : Nat) : List Desc :=
  (List.range cfg.numBuffers).map fun i =>
    ⟨memoryAddr + bufferBaseOffset + i * cfg.entrySize, cfg.bufferSize, 0⟩

/-- `memory_reg_desc`, the one region the receiver allocates and registers. -/
def receiverRegion (cfg : Config) (memoryAddr : Nat) : Desc := ⟨memoryAddr, cfg.totalMemory, 0⟩

/-- `buffer_base_addr + buffer_idx * BUFFER_ENTRY_SIZE`, where the receiver polls and resets the
header of the transfer it expects next. -/
def receiverHeaderAddr (cfg : Config) (memoryAddr received : Nat) : Nat :=
  memoryAddr + bufferBaseOffset + received % cfg.numBuffers * cfg.entrySize

/-- `local_buffer_list`, the sender's descriptors of its own `NUM_BUFFERS * BUFFER_SIZE` bytes at
`buffersAddr`. -/
def senderDescs (cfg : Config) (buffersAddr : Nat) : List Desc :=
  (List.range cfg.numBuffers).map fun i => ⟨buffersAddr + i * cfg.bufferSize, cfg.bufferSize, 0⟩

/-- `buffers_reg_desc`, the region the sender allocates and registers. -/
def senderRegion (cfg : Config) (buffersAddr : Nat) : Desc :=
  ⟨buffersAddr, cfg.numBuffers * cfg.bufferSize, 0⟩

/-- `buffers_addr + buffer_idx * BUFFER_SIZE`, where the sender writes the header of transfer `sent`. -/
def senderHeaderAddr (cfg : Config) (buffersAddr sent : Nat) : Nat :=
  buffersAddr + sent % cfg.numBuffers * cfg.bufferSize

/-- The index lists `make_prepped_xfer("WRITE", local, [i], remote, [i], ...)` pairs for handle `i`. -/
def preppedPair (i : Nat) : List Nat × List Nat := ([i], [i])

end NixlExamples
