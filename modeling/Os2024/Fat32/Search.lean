import Os2024.Fat32.Spec

/-!
# The search loops

`read_directory`, `read` and `write` search the parent with a `for` loop that returns from its body, `delete` with a
`while` loop that a flag ends, and each fills `identifier_request` and `identifier_search` with calls of `memset` and
`memcpy` of its own. Here the loops are written out as they are; `forLoop_eq_search` and `whileLoop_eq_search` say that
all of them compute `FAT32DirectoryTable.search`.
-/

namespace Os2024

open Scan

/-- A `char [11]` of the search loops. -/
abbrev IdentifierBuffer := Fin 11 → UInt8

/-- `memcpy(dst + off, src, n)`. -/
def IdentifierBuffer.memcpy {n : Nat} (dst : IdentifierBuffer) (off : Nat) (src : Fin n → UInt8) : IdentifierBuffer :=
  fun k => if h : off ≤ k.val ∧ k.val - off < n then src ⟨k.val - off, h.2⟩ else dst k

/-- `identifier_request` of `read`, `write` and `delete`; `buf` is what the array holds before. -/
def FAT32DriverRequest.identifierRequest (request : FAT32DriverRequest) (buf : IdentifierBuffer) : IdentifierBuffer :=
  (buf.memcpy 0 request.name).memcpy 8 request.ext

/-- `identifier_request` of `read_directory`. -/
def FAT32DriverRequest.identifierRequestDirectory (request : FAT32DriverRequest) (buf : IdentifierBuffer) :
    IdentifierBuffer :=
  let buf := buf.memcpy 0 fun _ : Fin 11 => 0
  buf.memcpy 0 request.name

/-- `identifier_search` of an entry. -/
def FAT32DirectoryEntry.identifierSearch (entry : FAT32DirectoryEntry) (buf : IdentifierBuffer) : IdentifierBuffer :=
  (buf.memcpy 0 entry.name).memcpy 8 entry.ext

namespace FAT32DirectoryTable

/-- The condition all loops end on. -/
def isMatch (t : FAT32DirectoryTable) (identifierRequest identifierSearch : IdentifierBuffer) (i : Fin 64) : Bool :=
  (t.table i).userAttribute == uattrNotEmpty &&
    memcmp (List.ofFn identifierRequest) (List.ofFn identifierSearch) == 0

/-- The `for` loop of `read_directory`, `read` and `write`. -/
def forLoop (t : FAT32DirectoryTable) (identifierRequest identifierSearch : IdentifierBuffer) (i : Nat) :
    Option (Fin 64) :=
  if h : i < 64 then
    let identifierSearch := (t.table ⟨i, h⟩).identifierSearch identifierSearch
    if t.isMatch identifierRequest identifierSearch ⟨i, h⟩ then some ⟨i, h⟩
    else forLoop t identifierRequest identifierSearch (i + 1)
  else none
termination_by 64 - i

/-- The `while` loop of `delete`: the last `directory_table_index` and `found`. -/
def whileLoop (t : FAT32DirectoryTable) (identifierRequest identifierSearch : IdentifierBuffer)
    (directoryTableIndex : Nat) (found : Bool) : Nat × Bool :=
  if h : directoryTableIndex < 64 ∧ found = false then
    let identifierSearch := (t.table ⟨directoryTableIndex, h.1⟩).identifierSearch identifierSearch
    if t.isMatch identifierRequest identifierSearch ⟨directoryTableIndex, h.1⟩ then
      whileLoop t identifierRequest identifierSearch directoryTableIndex true
    else whileLoop t identifierRequest identifierSearch (directoryTableIndex + 1) found
  else (directoryTableIndex, found)
termination_by 2 * (64 - directoryTableIndex) + (!found).toNat
decreasing_by
  · simp [h.2]
  · omega

/-- Where the `while` loop ends: at an entry, or behind the table. -/
def whileEnd : Option (Fin 64) → Nat × Bool
  | some i => (i.val, true)
  | none => (64, false)

end FAT32DirectoryTable

/-! ## Identifiers -/

section Identifiers

variable (request : FAT32DriverRequest) (entry : FAT32DirectoryEntry) (buf : IdentifierBuffer)

theorem ofFn_memcpy_memcpy (name : Name) (ext : Ext) :
    List.ofFn ((buf.memcpy 0 name).memcpy 8 ext) = identifier name ext := by
  have happend : (buf.memcpy 0 name).memcpy 8 ext = Fin.append name ext := by
    funext k
    fin_cases k <;> rfl
  rw [happend, List.ofFn_fin_append, identifier]

theorem FAT32DriverRequest.ofFn_identifierRequest :
    List.ofFn (request.identifierRequest buf) = identifier request.name request.ext := ofFn_memcpy_memcpy buf _ _

theorem FAT32DriverRequest.ofFn_identifierRequestDirectory :
    List.ofFn (request.identifierRequestDirectory buf) = identifier request.name fun _ => 0 := by
  have hzero : request.identifierRequestDirectory buf = (buf.memcpy 0 request.name).memcpy 8 fun _ : Fin 3 => 0 := by
    funext k
    fin_cases k <;> rfl
  rw [hzero, ofFn_memcpy_memcpy]

theorem FAT32DirectoryEntry.ofFn_identifierSearch :
    List.ofFn (entry.identifierSearch buf) = identifier entry.name entry.ext := ofFn_memcpy_memcpy buf _ _

end Identifiers

/-! ## The loops -/

section Loops

variable {t : FAT32DirectoryTable} {identifierRequest : IdentifierBuffer} {id : List UInt8}

/-- The test of the loops is that of `search`, whatever `identifier_search` held before. -/
theorem FAT32DirectoryTable.isMatch_eq (hid : List.ofFn identifierRequest = id) (buf : IdentifierBuffer) (i : Fin 64) :
    t.isMatch identifierRequest ((t.table i).identifierSearch buf) i =
      ((t.table i).occupied && (t.table i).hasIdentifier id) := by
  rw [isMatch, hid, FAT32DirectoryEntry.ofFn_identifierSearch]
  rfl

/-- The `for` loop from `i` on finds the first entry from `i` on. -/
theorem FAT32DirectoryTable.forLoop_eq (hid : List.ofFn identifierRequest = id) (buf : IdentifierBuffer) (i : Nat) :
    t.forLoop identifierRequest buf i =
      firstFrom i fun j => (t.table j).occupied && (t.table j).hasIdentifier id := by
  fun_induction FAT32DirectoryTable.forLoop t identifierRequest buf i with
  | case1 buf i h buf' hmatch =>
    rw [isMatch_eq hid] at hmatch
    exact (firstFrom_eq_some.mpr ⟨le_rfl, hmatch, fun j hj hlt => absurd hlt (by simpa [Fin.lt_def] using hj)⟩).symm
  | case2 buf i h buf' hmatch ih =>
    rw [isMatch_eq hid, Bool.not_eq_true] at hmatch
    rw [ih]
    exact (firstFrom_succ (i := ⟨i, h⟩) rfl hmatch).symm
  | case3 buf i h => exact (firstFrom_eq_none.mpr fun j hj => absurd (hj.trans_lt j.isLt) h).symm

/-- The `while` loop from `i` on ends at the first entry from `i` on, or behind the table. -/
theorem FAT32DirectoryTable.whileLoop_eq (hid : List.ofFn identifierRequest = id) (buf : IdentifierBuffer) (i : Nat)
    (hi : i ≤ 64) : t.whileLoop identifierRequest buf i false =
      whileEnd (firstFrom i fun j => (t.table j).occupied && (t.table j).hasIdentifier id) := by
  rw [← forLoop_eq hid buf]
  fun_induction FAT32DirectoryTable.forLoop t identifierRequest buf i with
  | case1 buf i h buf' hmatch =>
    rw [whileLoop, dif_pos ⟨h, rfl⟩]
    simp only [buf'] at hmatch
    simp only [hmatch, if_true]
    rw [whileLoop, dif_neg (by simp), whileEnd]
  | case2 buf i h buf' hmatch ih =>
    rw [whileLoop, dif_pos ⟨h, rfl⟩]
    simp only [buf'] at hmatch ih
    simp only [hmatch]
    exact ih (by omega)
  | case3 buf i h =>
    rw [whileLoop, dif_neg fun hc => h hc.1, Nat.le_antisymm hi (Nat.not_lt.mp h), whileEnd]

variable (t) (request : FAT32DriverRequest) (buf buf' : IdentifierBuffer)

/-- The loop of `read` and `write`. -/
theorem forLoop_eq_search : t.forLoop (request.identifierRequest buf) buf' 2 =
    t.search (identifier request.name request.ext) :=
  FAT32DirectoryTable.forLoop_eq (request.ofFn_identifierRequest buf) buf' 2

/-- The loop of `read_directory`. -/
theorem forLoop_eq_searchDirectory : t.forLoop (request.identifierRequestDirectory buf) buf' 2 =
    t.search (identifier request.name fun _ => 0) :=
  FAT32DirectoryTable.forLoop_eq (request.ofFn_identifierRequestDirectory buf) buf' 2

/-- The loop of `delete`. -/
theorem whileLoop_eq_search : t.whileLoop (request.identifierRequest buf) buf' 2 false =
    FAT32DirectoryTable.whileEnd (t.search (identifier request.name request.ext)) :=
  FAT32DirectoryTable.whileLoop_eq (request.ofFn_identifierRequest buf) buf' 2 (by decide)

end Loops

end Os2024
