import NixlExamples.Bytes
import NixlExamples.Ring.Config

/-!
# Header words in memory

`write_uint64` and `read_uint64` of `memory_utils.py` on a byte-addressed memory: numpy stores a
`uint64` as its eight bytes, least significant first (the byte order of the hosts the example runs
on), and raises `OverflowError` for a Python `int` past `2**64 - 1`.  A completed `WRITE` of one
descriptor onto another copies the bytes of the local descriptor onto the remote one.

* `readUint64_writeUint64`: `read_uint64` returns what `write_uint64` stored, and a store leaves every
  word whose eight bytes it does not touch as it was.
* `header_transfer`: when `BUFFER_SIZE` is at least 8 and at most the stride of the receiver's ring,
  the transfer of the sender's slot `i` carries the header word the sender wrote there into the
  receiver's slot `i`, and every other slot of the ring reads as before.  So the header words of the
  ring are the map `Session.hdr` that `landStep` updates.
* `header_truncated`: with `BUFFER_SIZE` below 8 the transfer carries only the low bytes of the
  header, and over the receiver's `SENTINEL` the word it reads is not the transfer count it expects.
-/

namespace NixlExamples

/-! ### Little-endian words -/

/-- The `w` bytes of `n`, least significant first; bits above `8 * w` are dropped. -/
def toBytesLE : Nat → Nat → Bytes
  | 0, _ => []
  | w + 1, n => (n % 256).toUInt8 :: toBytesLE w (n / 256)

/-- The natural with the given bytes, least significant first. -/
def ofBytesLE : Bytes → Nat
  | [] => 0
  | b :: bs => b.toNat + 256 * ofBytesLE bs

@[simp] theorem length_toBytesLE (w n : Nat) : (toBytesLE w n).length = w := by
  induction w generalizing n with
  | zero => rfl
  | succ w ih => simp only [toBytesLE, List.length_cons, ih]

theorem ofBytesLE_toBytesLE (w n : Nat) : ofBytesLE (toBytesLE w n) = n % 256 ^ w := by
  induction w generalizing n with
  | zero => simp [toBytesLE, ofBytesLE, Nat.mod_one]
  | succ w ih =>
    have h : ((n % 256).toUInt8).toNat = n % 256 := UInt8.toNat_ofNat_of_lt (Nat.mod_lt n (by decide))
    rw [toBytesLE, ofBytesLE, ih, h, pow_succ', Nat.mod_mul]

/-! ### Memory -/

/-- `bytes` stored from `addr` on. -/
def storeBytes (mem : Nat → UInt8) (addr : Nat) (bytes : Bytes) : Nat → UInt8 :=
  fun a => if addr ≤ a ∧ a < addr + bytes.length then bytes.getD (a - addr) 0 else mem a

/-- The `n` bytes from `addr` on. -/
def loadBytes (mem : Nat → UInt8) (addr n : Nat) : Bytes := (List.range n).map fun j => mem (addr + j)

/-- `write_uint64(addr, value)`: `none` for the `OverflowError` of a value past `2**64 - 1`. -/
def writeUint64 (mem : Nat → UInt8) (addr value : Nat) : Option (Nat → UInt8) :=
  if value < 2 ^ 64 then some (storeBytes mem addr (toBytesLE 8 value)) else none

/-- `read_uint64(addr)`. -/
def readUint64 (mem : Nat → UInt8) (addr : Nat) : Nat := ofBytesLE (loadBytes mem addr 8)

/-- A completed `WRITE` of the local descriptor `l` onto the remote descriptor `r`: the remote memory
holds the `l.len` bytes of the local memory at `l.addr` from `r.addr` on. -/
def writeDesc (localMem remoteMem : Nat → UInt8) (l r : Desc) : Nat → UInt8 :=
  storeBytes remoteMem r.addr (loadBytes localMem l.addr l.len)

@[simp] theorem length_loadBytes (mem : Nat → UInt8) (addr n : Nat) : (loadBytes mem addr n).length = n := by
  simp [loadBytes]

theorem loadBytes_storeBytes (mem : Nat → UInt8) (addr : Nat) {bytes : Bytes} {n : Nat} (hn : n ≤ bytes.length) :
    loadBytes (storeBytes mem addr bytes) addr n = bytes.take n := by
  refine List.ext_getElem (by simp [hn]) fun j h₁ h₂ => ?_
  simp only [length_loadBytes] at h₁
  simp only [loadBytes, List.getElem_map, List.getElem_range, List.getElem_take, storeBytes,
    Nat.add_sub_cancel_left, List.getD_eq_getElem?_getD, List.getElem?_eq_getElem (show j < bytes.length by omega)]
  rw [if_pos (by omega)]
  rfl

theorem loadBytes_storeBytes_apart (mem : Nat → UInt8) {addr b n : Nat} {bytes : Bytes}
    (h : b + n ≤ addr ∨ addr + bytes.length ≤ b) :
    loadBytes (storeBytes mem addr bytes) b n = loadBytes mem b n := by
  refine List.map_congr_left fun j hj => ?_
  rw [List.mem_range] at hj
  exact if_neg (by omega)

theorem take_loadBytes (mem : Nat → UInt8) (addr : Nat) {k n : Nat} (h : k ≤ n) :
    (loadBytes mem addr n).take k = loadBytes mem addr k := by
  rw [loadBytes, ← List.map_take, List.take_range, min_eq_left h, loadBytes]

/-- `read_uint64` returns what `write_uint64` stored, and a word whose bytes the store does not touch
reads as before. -/
theorem readUint64_writeUint64 {mem mem' : Nat → UInt8} {addr value : Nat} (h : writeUint64 mem addr value = some mem') :
    readUint64 mem' addr = value ∧
      ∀ b, b + 8 ≤ addr ∨ addr + 8 ≤ b → readUint64 mem' b = readUint64 mem b := by
  unfold writeUint64 at h
  split at h
  · cases h
    refine ⟨?_, fun b hb => ?_⟩
    · rw [readUint64, loadBytes_storeBytes _ _ (by simp), List.take_of_length_le (by simp),
        ofBytesLE_toBytesLE, Nat.mod_eq_of_lt (by simpa using ‹value < 2 ^ 64›)]
    · rw [readUint64, loadBytes_storeBytes_apart _ (by simpa using hb), readUint64]
  · cases h

theorem writeUint64_eq_none {mem : Nat → UInt8} {addr value : Nat} : writeUint64 mem addr value = none ↔ 2 ^ 64 ≤ value := by
  unfold writeUint64
  split <;> simp <;> omega

/-- A transfer of at least eight bytes carries the word at the start of the local descriptor. -/
theorem readUint64_writeDesc (localMem remoteMem : Nat → UInt8) {l r : Desc} (h : 8 ≤ l.len) :
    readUint64 (writeDesc localMem remoteMem l r) r.addr = readUint64 localMem l.addr := by
  rw [readUint64, writeDesc, loadBytes_storeBytes _ _ (by simpa using h), take_loadBytes _ _ h, readUint64]

/-- The top byte of a word weighs `256 ^ 7`. -/
theorem top_le_readUint64 (mem : Nat → UInt8) (addr : Nat) : (mem (addr + 7)).toNat * 256 ^ 7 ≤ readUint64 mem addr := by
  have e : readUint64 mem addr = (mem addr).toNat + 256 * ((mem (addr + 1)).toNat + 256 * ((mem (addr + 2)).toNat +
      256 * ((mem (addr + 3)).toNat + 256 * ((mem (addr + 4)).toNat + 256 * ((mem (addr + 5)).toNat +
      256 * ((mem (addr + 6)).toNat + 256 * ((mem (addr + 7)).toNat + 256 * 0))))))) := rfl
  rw [e]
  omega

/-! ### The ring's header words -/

/-- The header word of slot `i` of the receiver's ring at `memoryAddr`, as `read_uint64` reads it. -/
def ringHeader (cfg : Config) (memoryAddr : Nat) (mem : Nat → UInt8) (i : Nat) : Nat :=
  readUint64 mem (memoryAddr + bufferBaseOffset + i * cfg.entrySize)

theorem receiverHeaderAddr_eq (cfg : Config) (memoryAddr received : Nat) :
    receiverHeaderAddr cfg memoryAddr received =
      memoryAddr + bufferBaseOffset + received % cfg.numBuffers * cfg.entrySize := rfl

theorem getElem?_senderDescs {cfg : Config} {buffersAddr i : Nat} (h : i < cfg.numBuffers) :
    (senderDescs cfg buffersAddr)[i]? = some ⟨buffersAddr + i * cfg.bufferSize, cfg.bufferSize, 0⟩ := by
  simp [senderDescs, h]

theorem getElem?_receiverDescs {cfg : Config} {memoryAddr i : Nat} (h : i < cfg.numBuffers) :
    (receiverDescs cfg memoryAddr)[i]? =
      some ⟨memoryAddr + bufferBaseOffset + i * cfg.entrySize, cfg.bufferSize, 0⟩ := by
  simp [receiverDescs, h]

/-- Slots `i ≠ j` of a ring of stride `e` hold windows of `len ≤ e` and `8 ≤ e` bytes that do not
meet. -/
theorem slots_apart {base e len i j : Nat} (hlen : len ≤ e) (h8 : 8 ≤ e) (hij : j ≠ i) :
    base + j * e + 8 ≤ base + i * e ∨ base + i * e + len ≤ base + j * e := by
  rcases Nat.lt_or_gt_of_ne hij with h | h
  · have := Nat.mul_le_mul_right e (Nat.succ_le_of_lt h)
    rw [Nat.succ_mul] at this
    omega
  · have := Nat.mul_le_mul_right e (Nat.succ_le_of_lt h)
    rw [Nat.succ_mul] at this
    omega

/-- The transfer of the sender's slot carries its header word into the receiver's slot and leaves the
other slots of the ring as they were, when `BUFFER_SIZE` is between 8 and the ring's stride: the
ring's header words move as `Session.hdr` does in `landStep`. -/
theorem header_transfer {cfg : Config} {buffersAddr memoryAddr sent : Nat} {smem smem' rmem : Nat → UInt8}
    (h8 : 8 ≤ cfg.bufferSize) (hb : cfg.bufferSize ≤ cfg.entrySize)
    (hw : writeUint64 smem (senderHeaderAddr cfg buffersAddr sent) sent = some smem') :
    ∀ l r, (senderDescs cfg buffersAddr)[sent % cfg.numBuffers]? = some l →
      (receiverDescs cfg memoryAddr)[sent % cfg.numBuffers]? = some r →
      ringHeader cfg memoryAddr (writeDesc smem' rmem l r) =
        Function.update (ringHeader cfg memoryAddr rmem) (sent % cfg.numBuffers) sent := by
  intro l r hl hr
  have hi := Nat.mod_lt sent cfg.numBuffers_pos
  rw [getElem?_senderDescs hi, Option.some.injEq] at hl
  rw [getElem?_receiverDescs hi, Option.some.injEq] at hr
  subst hl hr
  funext j
  by_cases hj : j = sent % cfg.numBuffers
  · subst hj
    rw [Function.update_same, ringHeader, readUint64_writeDesc _ _ h8]
    exact (readUint64_writeUint64 hw).1
  · have happ := @slots_apart (memoryAddr + bufferBaseOffset) _ _ _ _ hb (by omega) hj
    rw [Function.update_noteq hj, ringHeader, ringHeader, readUint64, writeDesc,
      loadBytes_storeBytes_apart _ (by rwa [length_loadBytes]), readUint64]

theorem header_transfer_main :
    writeUint64 (fun _ => 0) (senderHeaderAddr mainConfig 0 5) 5 =
        some (storeBytes (fun _ => 0) (5 * 2 ^ 24) (toBytesLE 8 5)) ∧
      ringHeader mainConfig 0 (writeDesc (storeBytes (fun _ => 0) (5 * 2 ^ 24) (toBytesLE 8 5)) (fun _ => 255)
        ⟨5 * 2 ^ 24, 2 ^ 24, 0⟩ ⟨2 + 5 * 2 ^ 24, 2 ^ 24, 0⟩) = Function.update (ringHeader mainConfig 0 fun _ => 255) 5 5 :=
  have hw : writeUint64 (fun _ => 0) (senderHeaderAddr mainConfig 0 5) 5 =
      some (storeBytes (fun _ => 0) (5 * 2 ^ 24) (toBytesLE 8 5)) := rfl
  ⟨hw, header_transfer (by decide) (by decide) hw _ _ rfl rfl⟩

/-- With `BUFFER_SIZE` below 8, the word the receiver reads after the transfer over its `SENTINEL`
is not the transfer count it waits for, whatever the sender's slot held: the top byte is still
`0xFF`. -/
theorem header_truncated {cfg : Config} {buffersAddr memoryAddr sent : Nat} {smem' rmem rmem' : Nat → UInt8}
    (hsmall : cfg.bufferSize < 8) (hsent : sent < 2 ^ 56)
    (hs : writeUint64 rmem (receiverHeaderAddr cfg memoryAddr sent) sentinel = some rmem') :
    ∀ l r, (senderDescs cfg buffersAddr)[sent % cfg.numBuffers]? = some l →
      (receiverDescs cfg memoryAddr)[sent % cfg.numBuffers]? = some r →
      readUint64 (writeDesc smem' rmem' l r) (receiverHeaderAddr cfg memoryAddr sent) ≠ sent := by
  intro l r hl hr
  have hi := Nat.mod_lt sent cfg.numBuffers_pos
  rw [getElem?_senderDescs hi, Option.some.injEq] at hl
  rw [getElem?_receiverDescs hi, Option.some.injEq] at hr
  subst hl hr
  rw [receiverHeaderAddr_eq] at hs ⊢
  unfold writeUint64 at hs
  rw [if_pos (by decide), Option.some.injEq] at hs
  subst hs
  generalize memoryAddr + bufferBaseOffset + sent % cfg.numBuffers * cfg.entrySize = A
  -- the transfer stops below the top byte of the header, which keeps the sentinel's `0xFF`
  have htop : writeDesc smem' (storeBytes rmem A (toBytesLE 8 sentinel))
      ⟨buffersAddr + sent % cfg.numBuffers * cfg.bufferSize, cfg.bufferSize, 0⟩ ⟨A, cfg.bufferSize, 0⟩ (A + 7) = 255 := by
    simp only [writeDesc, storeBytes, length_loadBytes, length_toBytesLE]
    rw [if_neg (by omega), if_pos (by omega), Nat.add_sub_cancel_left]
    rfl
  have hle := top_le_readUint64 (writeDesc smem' (storeBytes rmem A (toBytesLE 8 sentinel))
      ⟨buffersAddr + sent % cfg.numBuffers * cfg.bufferSize, cfg.bufferSize, 0⟩ ⟨A, cfg.bufferSize, 0⟩) A
  rw [htop, show (255 : UInt8).toNat = 255 from rfl] at hle
  omega

theorem header_truncated_small :
    (runTest 4 4 10 (by decide)).bufferSize < 8 ∧
      readUint64 (writeDesc (fun _ => 0) (storeBytes (fun _ => 0) 2 (toBytesLE 8 sentinel)) ⟨0, 4, 0⟩ ⟨2, 4, 0⟩)
        (receiverHeaderAddr (runTest 4 4 10 (by decide)) 0 0) ≠ 0 :=
  ⟨by decide, @header_truncated _ 0 _ _ _ _ _ (by decide) (by decide) rfl _ _ rfl rfl⟩

end NixlExamples
