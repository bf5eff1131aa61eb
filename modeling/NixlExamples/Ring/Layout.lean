import NixlExamples.Ring.Config

/-!
# The ring's memory layout

Both descriptor lists are strided: entry `i` starts at `base + i * stride` and is `len` bytes long
(`receiverDescs_eq`, `senderDescs_eq`).  A strided list is pairwise disjoint when `len ≤ stride`
(`strided_pairwise_apart`) and lies in `[base, base + (n - 1) * stride + len)` (`strided_within`).

* The sender's list has stride and length `BUFFER_SIZE` and fills its `NUM_BUFFERS * BUFFER_SIZE`
  allocation exactly, for every configuration; the header it writes for transfer `s` starts its entry
  `s % NUM_BUFFERS`, and the handle of that slot pairs it with the receiver's entry of the same index
  (`sender_layout`).
* The receiver's list has stride `BUFFER_ENTRY_SIZE` and length `BUFFER_SIZE`, and its region is
  `TOTAL_MEMORY_SIZE` bytes; both constants keep their import values.  So its entries are disjoint and
  inside the region when `NUM_BUFFERS ≤ 64` and `BUFFER_SIZE ≤ 16 MiB` (`receiver_layout`), and not
  otherwise: `run_test(65, 8, _)` puts entry 64 past the end of the region and `run_test(2, 16 MiB + 8, _)`
  makes entries 0 and 1 overlap (`ring_layout_stale`).
-/

namespace NixlExamples

/-- The bytes of `d` lie inside the region `r`. -/
def Desc.Within (d r : Desc) : Prop := r.addr ≤ d.addr ∧ d.addr + d.len ≤ r.addr + r.len

/-- The bytes of `d` and `e` do not meet. -/
def Desc.Apart (d e : Desc) : Prop := d.addr + d.len ≤ e.addr ∨ e.addr + e.len ≤ d.addr

/-- The law of a descriptor list of a ring: `n` entries of `len` bytes each, pairwise disjoint, inside
the registered region `r`. -/
structure RingLayout (ds : List Desc) (n len : Nat) (r : Desc) : Prop where
  length : ds.length = n
  len_eq : ∀ d ∈ ds, d.len = len
  within : ∀ d ∈ ds, d.Within r
  apart : ds.Pairwise Desc.Apart

/-- `n` descriptors of `len` bytes, entry `i` at `base + i * stride`. -/
def strided (base stride len n : Nat) : List Desc :=
  (List.range n).map fun i => ⟨base + i * stride, len, 0⟩

theorem receiverDescs_eq (cfg : Config) (memoryAddr : Nat) :
    receiverDescs cfg memoryAddr =
      strided (memoryAddr + bufferBaseOffset) cfg.entrySize cfg.bufferSize cfg.numBuffers := rfl

theorem senderDescs_eq (cfg : Config) (buffersAddr : Nat) :
    senderDescs cfg buffersAddr = strided buffersAddr cfg.bufferSize cfg.bufferSize cfg.numBuffers := rfl

@[simp] theorem length_strided (base stride len n : Nat) : (strided base stride len n).length = n := by
  simp [strided]

theorem getElem?_strided {base stride len n i : Nat} (hi : i < n) :
    (strided base stride len n)[i]? = some ⟨base + i * stride, len, 0⟩ := by
  simp [strided, hi]

theorem mem_strided {base stride len n : Nat} {d : Desc} :
    d ∈ strided base stride len n ↔ ∃ i < n, d = ⟨base + i * stride, len, 0⟩ := by
  simp only [strided, List.mem_map, List.mem_range]
  exact ⟨fun ⟨i, hi, h⟩ => ⟨i, hi, h.symm⟩, fun ⟨i, hi, h⟩ => ⟨i, hi, h.symm⟩⟩

/-- Entries no longer than the stride do not meet. -/
theorem strided_pairwise_apart {base stride len n : Nat} (h : len ≤ stride) :
    (strided base stride len n).Pairwise Desc.Apart := by
  refine List.pairwise_map.2 ((List.pairwise_lt_range n).imp fun {i j} hij => .inl ?_)
  have : (i + 1) * stride ≤ j * stride := Nat.mul_le_mul_right _ hij
  simp only [Nat.succ_mul] at this
  show base + i * stride + len ≤ base + j * stride
  omega

/-- Every entry lies between `base` and the end of the last entry. -/
theorem strided_within {base stride len n : Nat} {d : Desc} (hd : d ∈ strided base stride len n) :
    base ≤ d.addr ∧ d.addr + d.len ≤ base + (n - 1) * stride + len := by
  obtain ⟨i, hi, rfl⟩ := mem_strided.1 hd
  have : i * stride ≤ (n - 1) * stride := Nat.mul_le_mul_right _ (by omega)
  exact ⟨by simp, by simp only; omega⟩

/-! ### The sender's list and the headers -/

/-- The sender's local descriptors fill its allocation, and for every transfer index `s` the header
it writes is the start of its entry `s % NUM_BUFFERS`, which the slot's handle pairs with the
receiver's entry of the same index, whose start is where the receiver polls for `s`. -/
theorem sender_layout (cfg : Config) (buffersAddr memoryAddr : Nat) :
    RingLayout (senderDescs cfg buffersAddr) cfg.numBuffers cfg.bufferSize (senderRegion cfg buffersAddr) ∧
      ∀ s, ∃ d e, (senderDescs cfg buffersAddr)[s % cfg.numBuffers]? = some d ∧
        (receiverDescs cfg memoryAddr)[s % cfg.numBuffers]? = some e ∧
        d.addr = senderHeaderAddr cfg buffersAddr s ∧ e.addr = receiverHeaderAddr cfg memoryAddr s ∧
        preppedPair (s % cfg.numBuffers) = ([s % cfg.numBuffers], [s % cfg.numBuffers]) := by
  have hs : ∀ s, s % cfg.numBuffers < cfg.numBuffers := fun s => Nat.mod_lt s cfg.numBuffers_pos
  refine ⟨⟨by simp [senderDescs_eq], fun d hd => ?_, fun d hd => ?_,
    strided_pairwise_apart (le_refl _)⟩, fun s => ?_⟩
  · rw [senderDescs_eq] at hd; obtain ⟨i, -, rfl⟩ := mem_strided.1 hd; rfl
  · rw [senderDescs_eq] at hd
    have := strided_within hd
    have hn : (cfg.numBuffers - 1) * cfg.bufferSize + cfg.bufferSize = cfg.numBuffers * cfg.bufferSize := by
      rw [← Nat.succ_mul, Nat.succ_eq_add_one, Nat.sub_add_cancel cfg.numBuffers_pos]
    exact ⟨this.1, by simp only [senderRegion]; omega⟩
  · rw [senderDescs_eq, receiverDescs_eq, getElem?_strided (hs s), getElem?_strided (hs s)]
    exact ⟨_, _, rfl, rfl, rfl, by simp [receiverHeaderAddr, Nat.add_assoc], rfl⟩

/-! ### The receiver's list -/

/-- With at most 64 slots of at most 16 MiB, the receiver's descriptors are disjoint and inside the
region it registers. -/
theorem receiver_layout {n b t : Nat} (h : 0 < n) (hn : n ≤ importNumBuffers) (hb : b ≤ bufferEntrySize)
    (memoryAddr : Nat) :
    RingLayout (receiverDescs (runTest n b t h) memoryAddr) n b (receiverRegion (runTest n b t h) memoryAddr) := by
  refine ⟨by simp [receiverDescs_eq, runTest], fun d hd => ?_, fun d hd => ?_,
    strided_pairwise_apart hb⟩
  · rw [receiverDescs_eq] at hd; obtain ⟨i, -, rfl⟩ := mem_strided.1 hd; rfl
  · rw [receiverDescs_eq] at hd
    have := strided_within hd
    have : (n - 1) * bufferEntrySize + b ≤ importNumBuffers * bufferEntrySize := by
      calc (n - 1) * bufferEntrySize + b ≤ (n - 1) * bufferEntrySize + bufferEntrySize := by omega
        _ = n * bufferEntrySize := by rw [← Nat.succ_mul, Nat.succ_eq_add_one, Nat.sub_add_cancel h]
        _ ≤ importNumBuffers * bufferEntrySize := Nat.mul_le_mul_right _ hn
    refine ⟨by simp only [receiverRegion]; omega, ?_⟩
    simp only [receiverRegion, runTest, totalMemorySize] at *
    omega

theorem receiver_layout_small :
    0 < 4 ∧ 4 ≤ importNumBuffers ∧ 1024 ≤ bufferEntrySize ∧
      RingLayout (receiverDescs (runTest 4 1024 10 (by decide)) 0) 4 1024
        (receiverRegion (runTest 4 1024 10 (by decide)) 0) :=
  ⟨by decide, by decide, by decide, receiver_layout (by decide) (by decide) (by decide) 0⟩

theorem ring_layout_stale (memoryAddr : Nat) :
    (∃ d ∈ receiverDescs (runTest 65 8 1 (by decide)) memoryAddr,
      ¬ d.Within (receiverRegion (runTest 65 8 1 (by decide)) memoryAddr)) ∧
    ¬ (receiverDescs (runTest 2 (bufferEntrySize + 8) 1 (by decide)) memoryAddr).Pairwise Desc.Apart := by
  refine ⟨⟨_, mem_strided.2 ⟨64, by decide, rfl⟩, fun ⟨_, h⟩ => ?_⟩, fun h => ?_⟩
  · simp only [receiverRegion, runTest, totalMemorySize, bufferEntrySize, importBufferSize, importNumBuffers,
      bufferBaseOffset] at h
    omega
  · rw [receiverDescs_eq, strided, List.pairwise_map] at h
    have := List.rel_of_pairwise_cons (show (List.range 2).Pairwise _ from h) (List.mem_singleton_self 1)
    simp only [Desc.Apart, runTest, bufferEntrySize, importBufferSize] at this
    omega

end NixlExamples
