import Mathlib.Data.Fintype.Pi
import Mathlib.Data.Fin.VecNotation
import Mathlib.Tactic.FinCases
import Os2024.Disk.Disk
import Os2024.Stdlib.String

/-!
# Constants and on-disk data types of the file system

The structures of `ch1/fat32/fat32.h` and their packed layouts. A cluster, a file allocation table and a directory
table are the same `2048` bytes: `bytes` and `ofBytes` of the two structures are inverse on both sides, so loading a
table from the cluster it was stored to gives it back, and storing a loaded one gives the cluster back.
-/

namespace Os2024

open Bytes

/-! ## Constants -/

def bootSector : UInt32 := 0
def cluster0Value : UInt32 := 0x0FFFFFF0
def cluster1Value : UInt32 := 0x0FFFFFFF
def fat32FatEndOfFile : UInt32 := 0x0FFFFFFF
def fat32FatEmptyEntry : UInt32 := 0x00000000
def fatClusterNumber : UInt32 := 1
def rootClusterNumber : UInt32 := 2
def attrSubdirectory : UInt8 := 0b00010000
def uattrNotEmpty : UInt8 := 0b10101010

/-- There are cells in the cluster map. -/
instance instNeZeroCells : NeZero 512 := ⟨by decide⟩

/-- There are entries in a directory table. -/
instance instNeZeroEntries : NeZero 64 := ⟨by decide⟩

/-- `CLUSTER_SIZE` = `BLOCK_SIZE * CLUSTER_BLOCK_COUNT` bytes. -/
abbrev Cluster := Fin 2048 → UInt8

/-- The characters `fs_signature` starts with. -/
def fsSignatureText : List Char := [
  'C', 'o', 'u', 'r', 's', 'e', ' ', ' ', ' ', ' ', ' ', ' ', ' ', ' ', ' ', ' ',
  'D', 'e', 's', 'i', 'g', 'n', 'e', 'd', ' ', 'b', 'y', ' ', ' ', ' ', ' ', ' ',
  'L', 'a', 'b', ' ', 'S', 'i', 's', 't', 'e', 'r', ' ', 'I', 'T', 'B', ' ', ' ',
  'M', 'a', 'd', 'e', ' ', 'w', 'i', 't', 'h', ' ', '<', '3', ' ', ' ', ' ', ' ',
  '-', '-', '-', '-', '-', '-', '-', '-', '-', '-', '-', '2', '0', '2', '4', '\n']

/-- The boot sector of a formatted disk. -/
def fsSignature : Block := fun k =>
  if k.val = 510 then 79 -- 'O'
  else if k.val = 511 then 107 -- 'k'
  else ((fsSignatureText.map fun c => UInt8.ofNat c.toNat)[k.val]?).getD 0

/-! ## The file allocation table -/

/-- `CLUSTER_MAP_SIZE` = `512` cells of 32 bits. -/
structure FAT32FileAllocationTable where
  clusterMap : Fin 512 → UInt32

namespace FAT32FileAllocationTable

def bytes (fat : FAT32FileAllocationTable) : Cluster :=
  flatten (n := 512) (m := 4) fun i => leBytes 4 (fat.clusterMap i).toNat

def ofBytes (c : Cluster) : FAT32FileAllocationTable where
  clusterMap i := UInt32.ofNat (ofLe (chunk (n := 512) (m := 4) c i))

@[simp] theorem ofBytes_bytes (fat : FAT32FileAllocationTable) : ofBytes fat.bytes = fat := by
  obtain ⟨map⟩ := fat
  simp only [ofBytes, bytes, chunk_flatten, ofLe_leBytes]
  congr 1
  funext i
  have hi := (map i).toNat_lt
  rw [Nat.mod_eq_of_lt (by omega), UInt32.ofNat_toNat]

@[simp] theorem bytes_ofBytes (c : Cluster) : (ofBytes c).bytes = c := by
  have h : ∀ i, leBytes 4 (UInt32.ofNat (ofLe (chunk (n := 512) (m := 4) c i))).toNat =
      chunk (n := 512) (m := 4) c i := by
    intro i
    have hi := ofLe_lt (chunk (n := 512) (m := 4) c i)
    rw [UInt32.toNat_ofNat_of_lt' (by simpa [UInt32.size] using hi), leBytes_ofLe]
  simp only [bytes, ofBytes, h]
  exact flatten_chunk (n := 512) (m := 4) c

end FAT32FileAllocationTable

/-! ## Directory entries and tables -/

/-- The eight characters of a name, padded with NUL. -/
abbrev Name := Fin 8 → UInt8

/-- The three characters of an extension, padded with NUL. -/
abbrev Ext := Fin 3 → UInt8

/-- The packed 32-byte directory entry. -/
structure FAT32DirectoryEntry where
  name : Name
  ext : Ext
  attr : UInt8 -- `attribute`, a keyword of Lean
  userAttribute : UInt8
  undelete : UInt8
  createTime : UInt16
  createDate : UInt16
  accessDate : UInt16
  clusterHigh : UInt16
  modifiedTime : UInt16
  modifiedDate : UInt16
  clusterLow : UInt16
  filesize : UInt32
  deriving DecidableEq

/-- `w` bytes of a record, from offset `off`. -/
def slice {n : Nat} (b : Fin n → UInt8) (off w : Nat) (h : off + w ≤ n) : Fin w → UInt8 :=
  fun k => b ⟨off + k, by omega⟩

def le16 (x : UInt16) : Fin 2 → UInt8 := leBytes 2 x.toNat
def ofLe16 (b : Fin 2 → UInt8) : UInt16 := UInt16.ofNat (ofLe b)
def le32 (x : UInt32) : Fin 4 → UInt8 := leBytes 4 x.toNat
def ofLe32 (b : Fin 4 → UInt8) : UInt32 := UInt32.ofNat (ofLe b)

@[simp] theorem ofLe16_le16 (x : UInt16) : ofLe16 (le16 x) = x := by
  have hx := x.toNat_lt
  rw [ofLe16, le16, ofLe_leBytes, Nat.mod_eq_of_lt (by omega), UInt16.ofNat_toNat]

@[simp] theorem le16_ofLe16 (b : Fin 2 → UInt8) : le16 (ofLe16 b) = b := by
  have hb := ofLe_lt b
  rw [ofLe16, le16, UInt16.toNat_ofNat_of_lt' (by simpa [UInt16.size] using hb), leBytes_ofLe]

@[simp] theorem ofLe32_le32 (x : UInt32) : ofLe32 (le32 x) = x := by
  have hx := x.toNat_lt
  rw [ofLe32, le32, ofLe_leBytes, Nat.mod_eq_of_lt (by omega), UInt32.ofNat_toNat]

@[simp] theorem le32_ofLe32 (b : Fin 4 → UInt8) : le32 (ofLe32 b) = b := by
  have hb := ofLe_lt b
  rw [ofLe32, le32, UInt32.toNat_ofNat_of_lt' (by simpa [UInt32.size] using hb), leBytes_ofLe]

namespace FAT32DirectoryEntry

/-- The fields in the order of the structure. -/
def bytes (e : FAT32DirectoryEntry) : Fin 32 → UInt8 := fun k =>
  if h : k.val < 8 then e.name ⟨k, h⟩
  else if h : k.val < 11 then e.ext ⟨k - 8, by omega⟩
  else if k.val < 12 then e.attr
  else if k.val < 13 then e.userAttribute
  else if k.val < 14 then e.undelete
  else if h : k.val < 16 then le16 e.createTime ⟨k - 14, by omega⟩
  else if h : k.val < 18 then le16 e.createDate ⟨k - 16, by omega⟩
  else if h : k.val < 20 then le16 e.accessDate ⟨k - 18, by omega⟩
  else if h : k.val < 22 then le16 e.clusterHigh ⟨k - 20, by omega⟩
  else if h : k.val < 24 then le16 e.modifiedTime ⟨k - 22, by omega⟩
  else if h : k.val < 26 then le16 e.modifiedDate ⟨k - 24, by omega⟩
  else if h : k.val < 28 then le16 e.clusterLow ⟨k - 26, by omega⟩
  else le32 e.filesize ⟨k - 28, by omega⟩

def ofBytes (b : Fin 32 → UInt8) : FAT32DirectoryEntry where
  name := slice b 0 8 (by omega)
  ext := slice b 8 3 (by omega)
  attr := b 11
  userAttribute := b 12
  undelete := b 13
  createTime := ofLe16 (slice b 14 2 (by omega))
  createDate := ofLe16 (slice b 16 2 (by omega))
  accessDate := ofLe16 (slice b 18 2 (by omega))
  clusterHigh := ofLe16 (slice b 20 2 (by omega))
  modifiedTime := ofLe16 (slice b 22 2 (by omega))
  modifiedDate := ofLe16 (slice b 24 2 (by omega))
  clusterLow := ofLe16 (slice b 26 2 (by omega))
  filesize := ofLe32 (slice b 28 4 (by omega))

@[simp] theorem bytes_ofBytes (b : Fin 32 → UInt8) : (ofBytes b).bytes = b := by
  funext k
  fin_cases k <;> simp [bytes, ofBytes, slice]

@[simp] theorem ofBytes_bytes (e : FAT32DirectoryEntry) : ofBytes e.bytes = e := by
  have hname : slice e.bytes 0 8 (by omega) = e.name := by funext k; simp [slice, bytes]
  have hext : slice e.bytes 8 3 (by omega) = e.ext := by funext k; fin_cases k <;> rfl
  have hcreateTime : slice e.bytes 14 2 (by omega) = le16 e.createTime := by funext k; fin_cases k <;> rfl
  have hcreateDate : slice e.bytes 16 2 (by omega) = le16 e.createDate := by funext k; fin_cases k <;> rfl
  have haccessDate : slice e.bytes 18 2 (by omega) = le16 e.accessDate := by funext k; fin_cases k <;> rfl
  have hclusterHigh : slice e.bytes 20 2 (by omega) = le16 e.clusterHigh := by funext k; fin_cases k <;> rfl
  have hmodifiedTime : slice e.bytes 22 2 (by omega) = le16 e.modifiedTime := by funext k; fin_cases k <;> rfl
  have hmodifiedDate : slice e.bytes 24 2 (by omega) = le16 e.modifiedDate := by funext k; fin_cases k <;> rfl
  have hclusterLow : slice e.bytes 26 2 (by omega) = le16 e.clusterLow := by funext k; fin_cases k <;> rfl
  have hfilesize : slice e.bytes 28 4 (by omega) = le32 e.filesize := by funext k; fin_cases k <;> rfl
  simp only [ofBytes, hname, hext, hcreateTime, hcreateDate, haccessDate, hclusterHigh, hmodifiedTime, hmodifiedDate,
    hclusterLow, hfilesize, ofLe16_le16, ofLe32_le32]
  rfl

/-- `cluster_low | (cluster_high << 16)`. -/
def clusterNumber (e : FAT32DirectoryEntry) : UInt32 := e.clusterLow.toUInt32 ||| (e.clusterHigh.toUInt32 <<< 16)

/-- The entry with `cluster_low` and `cluster_high` set from a cluster number. -/
def setCluster (e : FAT32DirectoryEntry) (cluster : UInt32) : FAT32DirectoryEntry :=
  { e with clusterLow := cluster.toUInt16, clusterHigh := (cluster >>> 16).toUInt16 }

@[simp] theorem clusterNumber_setCluster (e : FAT32DirectoryEntry) (cluster : UInt32) :
    (e.setCluster cluster).clusterNumber = cluster := by
  apply UInt32.toNat_inj.mp
  have hc := cluster.toNat_lt
  have hhi : cluster.toNat / 65536 * 65536 < 4294967296 := by omega
  have hlo : cluster.toNat % 65536 < 2 ^ 16 := by omega
  simp only [clusterNumber, setCluster, UInt32.toNat_or, UInt32.toNat_shiftLeft, UInt16.toNat_toUInt32,
    UInt32.toNat_toUInt16, UInt32.toNat_shiftRight, UInt32.toNat_ofNat, Nat.reducePow, Nat.reduceMod,
    Nat.shiftRight_eq_div_pow, Nat.shiftLeft_eq]
  rw [Nat.mod_eq_of_lt (a := cluster.toNat / 65536) (by omega), Nat.mod_eq_of_lt hhi, Nat.or_comm,
    ← Nat.shiftLeft_eq _ 16, ← Nat.shiftLeft_add_eq_or_of_lt hlo, Nat.shiftLeft_eq]
  omega

def setFilesize (e : FAT32DirectoryEntry) (filesize : UInt32) : FAT32DirectoryEntry := { e with filesize := filesize }

/-- The entry with `user_attribute` cleared, and nothing else. -/
def release (e : FAT32DirectoryEntry) : FAT32DirectoryEntry := { e with userAttribute := 0 }

/-- The entry is in use. -/
def occupied (e : FAT32DirectoryEntry) : Bool := e.userAttribute == uattrNotEmpty

/-- The entry is marked as a folder. -/
def isDirectory (e : FAT32DirectoryEntry) : Bool := e.attr == attrSubdirectory

@[simp] theorem release_occupied (e : FAT32DirectoryEntry) : e.release.occupied = false := rfl

@[simp] theorem release_isDirectory (e : FAT32DirectoryEntry) : e.release.isDirectory = e.isDirectory := rfl

/-- `memset` of an entry to zero. -/
def zero : FAT32DirectoryEntry := ofBytes fun _ => 0

end FAT32DirectoryEntry

/-- The eleven bytes the driver compares entries by. -/
def identifier (name : Name) (ext : Ext) : List UInt8 := List.ofFn name ++ List.ofFn ext

/-- `memcmp(identifier_request, identifier_search, 11) == 0`. -/
def FAT32DirectoryEntry.hasIdentifier (e : FAT32DirectoryEntry) (identifierRequest : List UInt8) : Bool :=
  memcmp identifierRequest (identifier e.name e.ext) == 0

theorem identifier_inj {name name' : Name} {ext ext' : Ext} :
    identifier name ext = identifier name' ext' ↔ name = name' ∧ ext = ext' := by
  constructor
  · intro h
    obtain ⟨hn, he⟩ := List.append_inj h (by simp)
    exact ⟨List.ofFn_injective hn, List.ofFn_injective he⟩
  · rintro ⟨rfl, rfl⟩
    rfl

@[simp] theorem FAT32DirectoryEntry.hasIdentifier_iff {e : FAT32DirectoryEntry} {name : Name} {ext : Ext} :
    e.hasIdentifier (identifier name ext) = true ↔ e.name = name ∧ e.ext = ext := by
  have hlen : (identifier name ext).length = (identifier e.name e.ext).length := by simp [identifier]
  simp only [hasIdentifier, beq_iff_eq, memcmp_eq_zero hlen, identifier_inj]
  exact and_congr eq_comm eq_comm

/-- `CLUSTER_SIZE / sizeof(struct FAT32DirectoryEntry)` = `64` entries. -/
structure FAT32DirectoryTable where
  table : Fin 64 → FAT32DirectoryEntry

namespace FAT32DirectoryTable

def bytes (t : FAT32DirectoryTable) : Cluster := flatten (n := 64) (m := 32) fun i => (t.table i).bytes

def ofBytes (c : Cluster) : FAT32DirectoryTable where
  table i := FAT32DirectoryEntry.ofBytes (chunk (n := 64) (m := 32) c i)

@[simp] theorem ofBytes_bytes (t : FAT32DirectoryTable) : ofBytes t.bytes = t := by
  obtain ⟨table⟩ := t
  simp only [ofBytes, bytes, chunk_flatten, FAT32DirectoryEntry.ofBytes_bytes]

@[simp] theorem bytes_ofBytes (c : Cluster) : (ofBytes c).bytes = c := by
  simp only [bytes, ofBytes, FAT32DirectoryEntry.bytes_ofBytes]
  exact flatten_chunk (n := 64) (m := 32) c

/-- The table with entry `i` replaced. -/
def set (t : FAT32DirectoryTable) (i : Fin 64) (e : FAT32DirectoryEntry) : FAT32DirectoryTable where
  table := Function.update t.table i e

@[simp] theorem set_table_self (t : FAT32DirectoryTable) (i : Fin 64) (e : FAT32DirectoryEntry) :
    (t.set i e).table i = e := by simp [set]

theorem set_table_of_ne {t : FAT32DirectoryTable} {i j : Fin 64} {e : FAT32DirectoryEntry} (h : j ≠ i) :
    (t.set i e).table j = t.table j := by simp [set, h]

@[simp] theorem set_set (t : FAT32DirectoryTable) (i : Fin 64) (e e' : FAT32DirectoryEntry) :
    (t.set i e).set i e' = t.set i e' := by simp [set]

end FAT32DirectoryTable

/-- The characters `..` and no others. -/
def dotDot : Name := ![46, 46, 0, 0, 0, 0, 0, 0]

/-- `init_directory_table`: an empty table of the folder `name` in the folder `parentDirCluster`. -/
def initDirectoryTable (name : Name) (parentDirCluster : UInt32) : FAT32DirectoryTable where
  table i :=
    if i = 0 then
      { FAT32DirectoryEntry.zero with name := name, attr := attrSubdirectory, userAttribute := uattrNotEmpty }
    else if i = 1 then
      { FAT32DirectoryEntry.zero with
        name := dotDot
        attr := attrSubdirectory
        userAttribute := uattrNotEmpty
        clusterHigh := (parentDirCluster >>> 16).toUInt16
        clusterLow := parentDirCluster.toUInt16 }
    else FAT32DirectoryEntry.zero

end Os2024
