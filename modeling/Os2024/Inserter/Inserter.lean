import Os2024.Fat32.Driver
import Os2024.Lib.Splice

/-!
# The image driver of the inserter

`read_blocks` and `write_blocks` of `ch2/external-inserter/external-inserter.c`, and `read_clusters` and
`write_clusters` of `ch1/fat32/fat32.c` on top of them. `image_storage` and the buffers are different memories, each
the bytes from its pointer on; offsets into the image are 32 bits wide. The main results say that the functions replace
one run of bytes: `writeBlocks_eq`, `readBlocks_eq`, `writeClusters_eq`, `readClusters_eq`.
-/

namespace Os2024

namespace Inserter

open Splice

/-- `memcpy` from one memory to another. -/
def memcpy (dest : Buffer) (destOff : Nat) (src : Buffer) (srcOff n : Nat) : Buffer :=
  (List.range n).foldl (fun dest i => Function.update dest (destOff + i) (src (srcOff + i))) dest

/-- `BLOCK_SIZE*(logical_block_address+i)`. -/
def blockOffset (logicalBlockAddress : UInt32) (i : Nat) : Nat := (512 * (logicalBlockAddress + UInt32.ofNat i)).toNat

/-- `read_blocks`: the buffer afterwards. -/
def readBlocks (ptr : Buffer) (logicalBlockAddress : UInt32) (blockCount : UInt8) (imageStorage : Buffer) : Buffer :=
  (List.range blockCount.toNat).foldl
    (fun ptr i => memcpy ptr (512 * i) imageStorage (blockOffset logicalBlockAddress i) 512) ptr

/-- `write_blocks`: the image afterwards. -/
def writeBlocks (ptr : Buffer) (logicalBlockAddress : UInt32) (blockCount : UInt8) (imageStorage : Buffer) : Buffer :=
  (List.range blockCount.toNat).foldl
    (fun imageStorage i => memcpy imageStorage (blockOffset logicalBlockAddress i) ptr (512 * i) 512) imageStorage

/-- Round `i` of `write_clusters`; the state is `cluster_buffer` and the image. -/
def writeRound (ptr : Buffer) (clusterNumber : UInt32) (s : Buffer × Buffer) (i : UInt8) : Buffer × Buffer :=
  let clusterBuffer := memcpy s.1 0 ptr (i.toNat * 2048) 2048
  (clusterBuffer, writeBlocks clusterBuffer (clusterToLba (clusterNumber + i.toUInt32)) 4 s.2)

/-- `write_clusters`: the image afterwards. -/
def writeClusters (clusterBuffer ptr : Buffer) (clusterNumber : UInt32) (clusterCount : UInt8)
    (imageStorage : Buffer) : Buffer :=
  if clusterCount > 63 then imageStorage
  else ((List.range clusterCount.toNat).foldl (fun s i => writeRound ptr clusterNumber s (UInt8.ofNat i))
    (clusterBuffer, imageStorage)).2

/-- Round `i` of `read_clusters`; the state is `cluster_buffer` and the caller's buffer. -/
def readRound (clusterNumber : UInt32) (imageStorage : Buffer) (s : Buffer × Buffer) (i : UInt8) : Buffer × Buffer :=
  let clusterBuffer := readBlocks s.1 (clusterToLba (clusterNumber + i.toUInt32)) 4 imageStorage
  (clusterBuffer, memcpy s.2 (i.toNat * 2048) clusterBuffer 0 2048)

/-- `read_clusters`: the buffer afterwards. -/
def readClusters (clusterBuffer ptr : Buffer) (clusterNumber : UInt32) (clusterCount : UInt8)
    (imageStorage : Buffer) : Buffer :=
  if clusterCount > 63 then ptr
  else ((List.range clusterCount.toNat).foldl (fun s i => readRound clusterNumber imageStorage s (UInt8.ofNat i))
    (clusterBuffer, ptr)).2

/-! ## Blocks -/

section Blocks

variable {ptr ptr' imageStorage clusterBuffer dest src : Buffer} {lba c : UInt32} {count : UInt8}
  {destOff srcOff i n : Nat}

theorem memcpy_eq : memcpy dest destOff src srcOff n = splice dest destOff n fun i => src (srcOff + i) :=
  foldl_update n

theorem blockOffset_eq (h : lba.toNat + i < 2 ^ 23) : blockOffset lba i = 512 * lba.toNat + 512 * i := by
  simp only [blockOffset, UInt32.toNat_mul, UInt32.toNat_add, UInt32.toNat_ofNat', UInt32.reduceToNat]
  omega

/-- A loop, seen through a part of its state. -/
theorem foldl_range_hom {σ τ : Type} {f : σ → Nat → σ} {g : τ → Nat → τ} (p : σ → τ)
    (h : ∀ s, ∀ i < n, p (f s i) = g (p s) i) (s : σ) :
    p ((List.range n).foldl f s) = (List.range n).foldl g (p s) := by
  induction n with
  | zero => rfl
  | succ n ih =>
    have hn := ih fun s i hi => h s i (hi.trans (Nat.lt_succ_self n))
    simp only [List.range_succ, List.foldl_append, List.foldl_cons, List.foldl_nil, h _ n (Nat.lt_succ_self n), hn]

/-- `write_blocks` replaces the bytes of its blocks. -/
theorem writeBlocks_eq (h : lba.toNat + count.toNat ≤ 2 ^ 23) : writeBlocks ptr lba count imageStorage =
    splice imageStorage (512 * lba.toNat) (512 * count.toNat) ptr := by
  rw [writeBlocks, ← foldl_splice 512 count.toNat]
  refine foldl_range_hom id (fun image i hi => ?_) imageStorage
  dsimp only [id]
  rw [memcpy_eq, blockOffset_eq (by omega)]

/-- `read_blocks` replaces the bytes of its buffer. -/
theorem readBlocks_eq (h : lba.toNat + count.toNat ≤ 2 ^ 23) : readBlocks ptr lba count imageStorage =
    splice ptr 0 (512 * count.toNat) fun i => imageStorage (512 * lba.toNat + i) := by
  rw [readBlocks, ← foldl_splice 512 count.toNat]
  refine foldl_range_hom id (fun ptr i hi => ?_) ptr
  dsimp only [id]
  rw [memcpy_eq, blockOffset_eq (by omega), Nat.zero_add]
  simp only [Nat.add_assoc]

/-! ## Clusters -/

theorem toNat_clusterToLba_round (h : c.toNat + n ≤ 2 ^ 21) (hi : i < n) (hn : n ≤ 63) :
    (clusterToLba (c + (UInt8.ofNat i).toUInt32)).toNat = 4 * c.toNat + 4 * i := by
  simp only [clusterToLba, UInt32.toNat_mul, UInt32.toNat_add, UInt8.toNat_toUInt32, UInt8.toNat_ofNat',
    UInt32.reduceToNat]
  omega

theorem not_gt_of_toNat_le (hcount : count.toNat ≤ 63) : ¬ count > 63 := by
  have h63 : (63 : UInt8).toNat = 63 := rfl
  rw [gt_iff_lt, UInt8.lt_iff_toNat_lt, h63]
  exact Nat.not_lt.mpr hcount

/-- A round of `write_clusters` replaces the bytes of one cluster. -/
theorem writeRound_image (h : c.toNat + n ≤ 2 ^ 21) (hi : i < n) (hn : n ≤ 63) (s : Buffer × Buffer) :
    (writeRound ptr c s (UInt8.ofNat i)).2 =
      splice s.2 (2048 * c.toNat + 2048 * i) 2048 fun j => ptr (2048 * i + j) := by
  have hlba := toNat_clusterToLba_round h hi hn
  have hi8 : (UInt8.ofNat i).toNat = i := UInt8.toNat_ofNat_of_lt' (show i < 256 by omega)
  have h4 : (4 : UInt8).toNat = 4 := rfl
  have hoff : 512 * (4 * c.toNat + 4 * i) = 2048 * c.toNat + 2048 * i := by omega
  rw [writeRound, writeBlocks_eq (by rw [hlba, h4]; omega), hlba, hoff, memcpy_eq, hi8, h4]
  refine splice_congr fun j hj => ?_
  have hbuffer : splice s.1 0 (512 * 4) (fun j => ptr (i * 2048 + j)) (0 + j) = ptr (i * 2048 + j) := splice_add hj
  rw [Nat.zero_add] at hbuffer
  exact hbuffer.trans (congrArg ptr (by omega))

/-- `write_clusters` replaces the bytes of its clusters. -/
theorem writeClusters_eq (hcount : count.toNat ≤ 63) (h : c.toNat + count.toNat ≤ 2 ^ 21) :
    writeClusters clusterBuffer ptr c count imageStorage =
      splice imageStorage (2048 * c.toNat) (2048 * count.toNat) ptr := by
  rw [writeClusters, if_neg (not_gt_of_toNat_le hcount), ← foldl_splice 2048 count.toNat]
  refine foldl_range_hom Prod.snd (fun s i hi => ?_) (clusterBuffer, imageStorage)
  exact writeRound_image h hi hcount s

/-- A round of `read_clusters` replaces the bytes of one cluster of the buffer. -/
theorem readRound_buffer (h : c.toNat + n ≤ 2 ^ 21) (hi : i < n) (hn : n ≤ 63) (s : Buffer × Buffer) :
    (readRound c imageStorage s (UInt8.ofNat i)).2 =
      splice s.2 (0 + 2048 * i) 2048 fun j => imageStorage (2048 * c.toNat + (2048 * i + j)) := by
  have hlba := toNat_clusterToLba_round h hi hn
  have hi8 : (UInt8.ofNat i).toNat = i := UInt8.toNat_ofNat_of_lt' (show i < 256 by omega)
  have h4 : (4 : UInt8).toNat = 4 := rfl
  rw [readRound, readBlocks_eq (by rw [hlba, h4]; omega), hlba, memcpy_eq, hi8, h4, Nat.zero_add, Nat.mul_comm i]
  dsimp only
  refine splice_congr fun j hj => ?_
  rw [splice_add hj]
  exact congrArg imageStorage (by omega)

/-- `read_clusters` replaces the bytes of its buffer. -/
theorem readClusters_eq (hcount : count.toNat ≤ 63) (h : c.toNat + count.toNat ≤ 2 ^ 21) :
    readClusters clusterBuffer ptr c count imageStorage =
      splice ptr 0 (2048 * count.toNat) fun i => imageStorage (2048 * c.toNat + i) := by
  rw [readClusters, if_neg (not_gt_of_toNat_le hcount), ← foldl_splice 2048 count.toNat]
  refine foldl_range_hom Prod.snd (fun s i hi => ?_) (clusterBuffer, ptr)
  exact readRound_buffer h hi hcount s

end Blocks

/-! ## The image as a block device -/

/-- The blocks of an image. -/
def imageDisk (imageStorage : Buffer) : Disk := fun lba k => imageStorage (512 * lba.toNat + k)

section Device

variable {ptr imageStorage : Buffer} {lba : UInt32} {count : UInt8}

/-- A block of the buffer. -/
theorem chunk_buffer (ptr : Buffer) (n : Nat) (i : Fin n) :
    Bytes.chunk (n := n) (m := 512) (fun k => ptr k) i = fun k : Fin 512 => ptr (512 * i + k) := by
  funext k
  exact congrArg ptr (Nat.add_comm k.val (512 * i.val))

/-- `write_blocks` is that of the device. -/
theorem imageDisk_writeBlocks (h : lba.toNat + count.toNat ≤ 2 ^ 23) :
    imageDisk (writeBlocks ptr lba count imageStorage) =
      Os2024.writeBlocks (n := count.toNat) (fun k => ptr k) lba (imageDisk imageStorage) := by
  rw [writeBlocks_eq h]
  funext a
  by_cases hrun : lba.toNat ≤ a.toNat ∧ a.toNat < lba.toNat + count.toNat
  · -- the block is number `i` of the run
    obtain ⟨i, hi⟩ := Nat.exists_eq_add_of_le hrun.1
    have hlt : i < count.toNat := by omega
    have hblock : a = lba + UInt32.ofNat i := by
      apply UInt32.toNat_inj.mp
      rw [hi, UInt32.toNat_add, UInt32.toNat_ofNat']
      omega
    have hdevice : Os2024.writeBlocks (n := count.toNat) (fun k => ptr k) lba (imageDisk imageStorage)
        (lba + UInt32.ofNat i) = Bytes.chunk (n := count.toNat) (m := 512) (fun k => ptr k) ⟨i, hlt⟩ :=
      writeBlocks_run (by omega) ⟨i, hlt⟩
    rw [hblock, hdevice, chunk_buffer, ← hblock]
    funext k
    have hsplice : splice imageStorage (512 * lba.toNat) (512 * count.toNat) ptr (512 * lba.toNat + (512 * i + k)) =
        ptr (512 * i + k) := splice_add (by omega)
    rw [← hsplice]
    exact congrArg (splice imageStorage _ _ ptr) (by omega)
  · rw [writeBlocks_of_notMem fun i hi => hrun ?_]
    · funext k
      exact splice_of_notMem (by omega)
    · have hnat := congrArg UInt32.toNat hi
      rw [UInt32.toNat_add, UInt32.toNat_ofNat'] at hnat
      omega

/-- `read_blocks` reads what that of the device does. -/
theorem readBlocks_imageDisk (h : lba.toNat + count.toNat ≤ 2 ^ 23) :
    (fun k : Fin (count.toNat * 512) => readBlocks ptr lba count imageStorage k) =
      Os2024.readBlocks (imageDisk imageStorage) lba count.toNat := by
  have hblocks : Bytes.chunk (fun k : Fin (count.toNat * 512) => readBlocks ptr lba count imageStorage k) =
      fun i : Fin count.toNat => imageDisk imageStorage (lba + UInt32.ofNat i) := by
    funext i k
    have hlba : (lba + UInt32.ofNat i).toNat = lba.toNat + i := by
      rw [UInt32.toNat_add, UInt32.toNat_ofNat']
      omega
    have hsplice : splice ptr 0 (512 * count.toNat) (fun i => imageStorage (512 * lba.toNat + i))
        (0 + (512 * i + k)) = imageStorage (512 * lba.toNat + (512 * i + k)) := splice_add (by omega)
    rw [chunk_buffer (readBlocks ptr lba count imageStorage), readBlocks_eq h, imageDisk, hlba]
    rw [Nat.zero_add] at hsplice
    exact hsplice.trans (congrArg imageStorage (by omega))
  rw [Os2024.readBlocks, ← hblocks, Bytes.flatten_chunk]

end Device

end Inserter

end Os2024
