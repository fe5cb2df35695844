import Os2024.Inserter.Inserter

/-!
# Cluster I/O of the inserter

Over the image driver, `read_clusters` and `write_clusters` are an array store of clusters: `cluster_io_store`.
-/

namespace Os2024

namespace Inserter

open Splice

section Store

variable {clusterBuffer clusterBuffer' buf imageStorage : Buffer} {c : UInt32} {n k m : UInt8}

/-- What was written reads back. -/
theorem readClusters_writeClusters (hn : n.toNat ≤ 63) (hc : c.toNat + n.toNat ≤ 2 ^ 21) (buf2 : Buffer) :
    ∀ j < n.toNat * 2048,
      readClusters clusterBuffer' buf2 c n (writeClusters clusterBuffer buf c n imageStorage) j = buf j := by
  intro j hj
  have hread : splice buf2 0 (2048 * n.toNat)
      (fun i => splice imageStorage (2048 * c.toNat) (2048 * n.toNat) buf (2048 * c.toNat + i)) (0 + j) =
      splice imageStorage (2048 * c.toNat) (2048 * n.toNat) buf (2048 * c.toNat + j) := splice_add (by omega)
  rw [Nat.zero_add] at hread
  rw [readClusters_eq hn hc, writeClusters_eq hn hc, hread, splice_add (by omega)]

/-- A block of another cluster is left alone. -/
theorem writeClusters_of_notMem (hn : n.toNat ≤ 63) (hc : c.toNat + n.toNat ≤ 2 ^ 21) {b j : Nat}
    (hb : ¬ (c.toNat * 4 ≤ b ∧ b < (c.toNat + n.toNat) * 4)) (hj : j < 512) :
    writeClusters clusterBuffer buf c n imageStorage (512 * b + j) = imageStorage (512 * b + j) := by
  rw [writeClusters_eq hn hc]
  exact splice_of_notMem (by omega)

/-- A run of clusters may be written in two. -/
theorem writeClusters_add (hn : n.toNat ≤ 63) (hc : c.toNat + n.toNat ≤ 2 ^ 21)
    (hkm : k.toNat + m.toNat = n.toNat) (clusterBuffer₁ clusterBuffer₂ : Buffer) :
    writeClusters clusterBuffer₂ (fun j => buf (k.toNat * 2048 + j)) (c + k.toUInt32) m
        (writeClusters clusterBuffer₁ buf c k imageStorage) =
      writeClusters clusterBuffer buf c n imageStorage := by
  have hck : (c + k.toUInt32).toNat = c.toNat + k.toNat := by
    rw [UInt32.toNat_add, UInt8.toNat_toUInt32]
    omega
  have hk : k.toNat ≤ 63 ∧ c.toNat + k.toNat ≤ 2 ^ 21 := ⟨by omega, by omega⟩
  have hm : m.toNat ≤ 63 ∧ (c + k.toUInt32).toNat + m.toNat ≤ 2 ^ 21 := ⟨by omega, by omega⟩
  have hoff : 2048 * (c.toNat + k.toNat) = 2048 * c.toNat + 2048 * k.toNat := Nat.mul_add ..
  rw [writeClusters_eq hn hc, writeClusters_eq hk.1 hk.2, writeClusters_eq hm.1 hm.2, hck, hoff, ← hkm, Nat.mul_add,
    Nat.mul_comm k.toNat]
  exact splice_append

/-- **Cluster I/O is an array store**: what was written reads back, other blocks are left alone, and a run may be
written in two. The clusters are within the first 4 GiB, and `image_storage` has 4 MiB. -/
theorem cluster_io_store (clusterBuffer clusterBuffer' buf buf2 imageStorage : Buffer) (c : UInt32) (n : UInt8)
    (hn : n.toNat ≤ 63) (hc : c.toNat + n.toNat ≤ 2 ^ 21) :
    (∀ j < n.toNat * 2048,
      readClusters clusterBuffer' buf2 c n (writeClusters clusterBuffer buf c n imageStorage) j = buf j) ∧
    (∀ b, ¬ (c.toNat * 4 ≤ b ∧ b < (c.toNat + n.toNat) * 4) → ∀ j < 512,
      writeClusters clusterBuffer buf c n imageStorage (512 * b + j) = imageStorage (512 * b + j)) ∧
    ∀ k m : UInt8, k.toNat + m.toNat = n.toNat → ∀ clusterBuffer₁ clusterBuffer₂,
      writeClusters clusterBuffer₂ (fun j => buf (k.toNat * 2048 + j)) (c + k.toUInt32) m
          (writeClusters clusterBuffer₁ buf c k imageStorage) =
        writeClusters clusterBuffer buf c n imageStorage :=
  ⟨readClusters_writeClusters hn hc buf2, fun _ hb _ hj => writeClusters_of_notMem hn hc hb hj,
    fun _ _ hkm => writeClusters_add hn hc hkm⟩

/-- Two clusters from cluster `5` on, one after the other. -/
theorem cluster_io_store_two :
    readClusters (fun _ => 0) (fun _ => 0) 5 2 (writeClusters (fun _ => 0) UInt8.ofNat 5 2 fun _ => 7) 4095 = 255 ∧
      writeClusters (fun _ => 0) UInt8.ofNat 5 2 (fun _ => 7) (512 * 19 + 511) = 7 ∧
      writeClusters (fun _ => 0) (fun j => UInt8.ofNat (2048 + j)) 6 1
          (writeClusters (fun _ => 0) UInt8.ofNat 5 1 fun _ => 7) =
        writeClusters (fun _ => 0) UInt8.ofNat 5 2 fun _ => 7 := by
  obtain ⟨hread, hkept, hsplit⟩ := cluster_io_store (fun _ => 0) (fun _ => 0) UInt8.ofNat (fun _ => 0) (fun _ => 7) 5 2
    (by decide) (by decide)
  exact ⟨hread 4095 (by decide), hkept 19 (by decide) 511 (by decide), hsplit 1 1 rfl _ _⟩

end Store

end Inserter

end Os2024
