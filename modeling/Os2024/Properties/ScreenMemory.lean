import Os2024.Framebuffer.Framebuffer
import Os2024.Interrupt.Terminal
import Os2024.Paging.Frames

/-!
# The memory behind the screen

`framebuffer_write` reaches the screen through entry `0x300` of the page directory, `putc` through entry `0`. By the
time a user program runs, entry `0` maps the program's page frame, so `framebuffer_write` stays on the screen
(`framebufferWrite_onScreen`) and every store of `putc` lands in the program (`not_staysOnScreen_of_cellAddress`): the
stores of a run are on the screen only if there are none, `stores_onScreen_iff`.
-/

namespace Os2024

attribute [local instance] instNeZeroFrames

/-- The physical address of a virtual one, where an entry maps a page of 4 MiB. -/
def PageDirectory.translate (dir : PageDirectory) (addr : UInt32) : Option UInt32 :=
  let entry := dir.table (pageNumber addr)
  if entry.flag.presentBit && entry.flag.pageSize then
    some (UInt32.ofNat entry.lowerAddress.val * pageFrameSize + addr % pageFrameSize)
  else none

/-- The state in which the kernel enters user mode. -/
def setupPaging (flag : PageDirectoryEntryFlag) : Paging := (pagingAllocateUserPageFrame flag 0 bootPaging).2

/-- A physical address of the 80 by 25 cells of the screen. -/
def OnScreen (addr : UInt32) : Prop := 0xB8000 ≤ addr.toNat ∧ addr.toNat < 0xB8000 + 2 * 80 * 25

/-- The physical frame is mapped for user mode. -/
def PageDirectory.UserFrame (dir : PageDirectory) (frame : Fin 1024) : Prop :=
  ∃ i, (dir.table i).flag.presentBit = true ∧ (dir.table i).flag.userSupervisor = true ∧
    (dir.table i).lowerAddress = frame

/-- The store of 16 bits at a virtual address stays on the screen, and out of the frames of user programs. -/
def PageDirectory.StaysOnScreen (dir : PageDirectory) (addr : UInt32) : Prop :=
  ∀ k < 2, ∃ p, dir.translate (addr + UInt32.ofNat k) = some p ∧ OnScreen p ∧ ¬ dir.UserFrame (pageNumber p)

/-! ## Translation -/

section Translation

variable {flag : PageDirectoryEntryFlag} {dir : PageDirectory} {addr p : UInt32} {i : Fin 1024}

theorem toNat_pageNumber (addr : UInt32) : (pageNumber addr).val = addr.toNat / 2 ^ 22 % 1024 := by
  have hand : addr.toNat >>> 22 &&& (2 ^ 10 - 1) = addr.toNat >>> 22 % 2 ^ 10 := Nat.and_two_pow_sub_one_eq_mod ..
  rw [Nat.shiftRight_eq_div_pow] at hand
  simpa [pageNumber, Nat.shiftRight_eq_div_pow] using hand

/-- The page stays, the offset in it too. -/
theorem translate_of_maps (dir : PageDirectory) (addr : UInt32)
    (hp : (dir.table (pageNumber addr)).flag.presentBit = true)
    (hs : (dir.table (pageNumber addr)).flag.pageSize = true) : ∃ p, dir.translate addr = some p ∧
      p.toNat = (dir.table (pageNumber addr)).lowerAddress.val * 2 ^ 22 + addr.toNat % 2 ^ 22 := by
  have hsize : pageFrameSize.toNat = 2 ^ 22 := by decide
  refine ⟨UInt32.ofNat (dir.table (pageNumber addr)).lowerAddress.val * pageFrameSize + addr % pageFrameSize,
    by simp [PageDirectory.translate, hp, hs], ?_⟩
  rw [UInt32.toNat_add, UInt32.toNat_mul, UInt32.toNat_mod, UInt32.toNat_ofNat', hsize]
  omega

/-- The program has the lowest free frame, frame `1`. -/
theorem setupPaging_eq : setupPaging flag = bootPaging.allocated flag 0 1 := by
  have hcall : (PagingCall.allocate flag 0).exec bootPaging = .ok (true, bootPaging.allocated flag 0 1) :=
    PagingCall.exec_allocate (by decide) (by decide)
  exact congrArg Prod.snd (Except.ok.inj hcall)

theorem setupPaging_zero : (setupPaging flag).pageDirectory.table 0 =
    { flag :=
        { flag with
          presentBit := true
          readWrite := true
          userSupervisor := true
          pageSize := true }
      lowerAddress := 1 } := by
  rw [setupPaging_eq]
  exact Paging.allocated_self

theorem setupPaging_of_ne (flag : PageDirectoryEntryFlag) (hi : i ≠ 0) :
    (setupPaging flag).pageDirectory.table i = bootPaging.pageDirectory.table i := by
  rw [setupPaging_eq]
  exact Paging.allocated_of_ne hi

/-- The first 4 MiB are the program's. -/
theorem setupPaging_translate_low (flag : PageDirectoryEntryFlag) (ha : addr.toNat < 2 ^ 22) :
    ∃ p, (setupPaging flag).pageDirectory.translate addr = some p ∧ p.toNat = 0x400000 + addr.toNat := by
  have hpage : pageNumber addr = 0 := Fin.ext <| by
    rw [toNat_pageNumber, Nat.div_eq_of_lt ha]
    rfl
  obtain ⟨p, hp, hn⟩ := translate_of_maps (setupPaging flag).pageDirectory addr
    (by rw [hpage, setupPaging_zero]) (by rw [hpage, setupPaging_zero])
  rw [hpage, setupPaging_zero, Nat.mod_eq_of_lt ha, show (1 : Fin 1024).val = 1 from rfl] at hn
  exact ⟨p, hp, by omega⟩

/-- From `0xC0000000` on, 4 MiB are frame `0`. -/
theorem setupPaging_translate_high (flag : PageDirectoryEntryFlag) (ha : 0xC0000000 ≤ addr.toNat) (hlt : addr.toNat < 0xC0000000 + 2 ^ 22) :
    ∃ p, (setupPaging flag).pageDirectory.translate addr = some p ∧ 0xC0000000 + p.toNat = addr.toNat := by
  have hpage : pageNumber addr = 0x300 := Fin.ext <| by
    rw [toNat_pageNumber]
    change _ = 0x300
    omega
  have hentry := (setupPaging_of_ne (i := 0x300) flag (by decide)).trans (bootPaging_table 0x300)
  rw [if_pos rfl] at hentry
  obtain ⟨p, hp, hn⟩ := translate_of_maps (setupPaging flag).pageDirectory addr
    (by rw [hpage, hentry]) (by rw [hpage, hentry])
  rw [hpage, hentry] at hn
  refine ⟨p, hp, ?_⟩
  change p.toNat = 0 * 2 ^ 22 + addr.toNat % 2 ^ 22 at hn
  omega

/-- The screen is in frame `0`, which only the kernel has. -/
theorem not_userFrame_of_onScreen (hp : OnScreen p) :
    ¬ (setupPaging flag).pageDirectory.UserFrame (pageNumber p) := by
  rintro ⟨i, _, huser, hframe⟩
  have hpage : pageNumber p = 0 := Fin.ext <| by
    rw [toNat_pageNumber, Nat.div_eq_of_lt (hp.2.trans (by decide))]
    rfl
  by_cases hi : i = 0
  · rw [hi, setupPaging_zero, hpage] at hframe
    cases hframe
  · rw [setupPaging_of_ne flag hi, bootPaging_table] at huser
    split at huser <;> cases huser

/-- **`framebuffer_write` stays on the screen.** -/
theorem framebufferWrite_onScreen {row col c fg bg : UInt8} {mem : Memory}
    (h : framebufferWrite row col c fg bg mem addr ≠ mem addr) :
    ∃ p, (setupPaging flag).pageDirectory.translate addr = some p ∧ OnScreen p ∧
      ¬ (setupPaging flag).pageDirectory.UserFrame (pageNumber p) := by
  have haddr := framebufferWrite_range h
  obtain ⟨p, hp, hn⟩ := setupPaging_translate_high flag (by omega : 0xC0000000 ≤ addr.toNat) (by omega)
  have hscreen : OnScreen p := ⟨by omega, by omega⟩
  exact ⟨p, hp, hscreen, not_userFrame_of_onScreen hscreen⟩

end Translation

/-! ## The stores of `putc` -/

section Stores

open Terminal

variable {s : Console} {t : State Cell} {flag : PageDirectoryEntryFlag} {c : UInt8} {color : UInt32}

/-- The address of a cell of the screen, as `putc` stores to it. -/
def CellAddress (addr : UInt32) : Prop := ∃ k < 2000, addr = terminalBuffer + UInt32.ofNat k * 2

theorem Console.putcAdvance_stores : (s.putcAdvance c color).stores =
    s.stores ++ if c = 10 then [] else
      [(terminalBuffer + (s.cursor.y * 80 + s.cursor.x) * 2, terminalCell color c)] := by
  by_cases hc : c = 10
  · rw [hc, Console.putcAdvance_newline, if_pos rfl, List.append_nil]
    rfl
  · rw [Console.putcAdvance_char hc, if_neg hc]
    split <;> rfl

/-- A newline within the screen moves the cursor and stores nothing. -/
theorem Console.Refines.putc_newline (h : s.Refines t) (color : UInt32) (hend : s.cursor.y.toNat + 1 < 25) :
    s.putc 10 color = s.moveTo 0 (s.cursor.y + 1) := by
  rw [Console.putc_eq, if_neg fun hge => Nat.not_le.mpr hend (h.putcAdvance_newline_end.mp hge),
    Console.putcAdvance_newline]

/-- One character: the stores that come with it are to cells, and there are none only for a newline within the
screen. -/
theorem Console.Refines.putc_stores (h : s.Refines t) (c : UInt8) (color : UInt32) :
    ∃ stores, (s.putc c color).stores = s.stores ++ stores ∧ (∀ a ∈ stores, CellAddress a.1) ∧
      (stores = [] ↔ c = 10 ∧ s.cursor.y.toNat + 1 < 25) := by
  have hindex := toNat_index h.x h.y
  have hx := h.x
  have hy := h.y
  -- the cell of the character, if it has one
  obtain ⟨stored, hstored, hcell, hnone⟩ : ∃ stores, (s.putcAdvance c color).stores = s.stores ++ stores ∧
      (∀ a ∈ stores, CellAddress a.1) ∧ (stores = [] ↔ c = 10) := by
    refine ⟨_, Console.putcAdvance_stores, ?_, ?_⟩
    · intro a ha
      split at ha
      · cases ha
      · rw [List.mem_singleton.mp ha]
        refine ⟨(s.cursor.y * 80 + s.cursor.x).toNat, by omega, ?_⟩
        rw [UInt32.ofNat_toNat]
    · split <;> simp [*]
  rw [Console.putc_eq]
  by_cases hend : (s.putcAdvance c color).cursor.y ≥ 25
  · rw [if_pos hend, Console.moveTo_stores, Console.blank_eq, Console.storeAll_stores, hstored, List.append_assoc]
    refine ⟨_, rfl, ?_, ?_⟩
    · intro a ha
      rcases List.mem_append.mp ha with ha | ha
      · exact hcell a ha
      · obtain ⟨k, hk, rfl⟩ := List.mem_map.mp ha
        exact ⟨k, mem_screenIndices.mp hk, rfl⟩
    · refine iff_of_false (fun hnil => ?_) ?_
      · have hzero : 0 ∈ screenIndices := mem_screenIndices.mpr (by decide)
        rw [List.map_eq_nil_iff.mp (List.append_eq_nil_iff.mp hnil).2] at hzero
        cases hzero
      · rintro ⟨rfl, hlt⟩
        exact Nat.not_le.mpr hlt (h.putcAdvance_newline_end.mp hend)
  · rw [if_neg hend]
    refine ⟨stored, hstored, hcell, hnone.trans ⟨?_, And.left⟩⟩
    rintro rfl
    exact ⟨rfl, Nat.not_le.mp fun hle => hend (h.putcAdvance_newline_end.mpr hle)⟩

/-- Any characters. -/
theorem Console.Refines.print_stores (h : s.Refines t) (glyphs : List Glyph) :
    ∃ stores, (s.print glyphs).stores = s.stores ++ stores ∧ (∀ a ∈ stores, CellAddress a.1) ∧
      (stores = [] ↔ (∀ g ∈ glyphs, g.1 = 10) ∧ s.cursor.y.toNat + glyphs.length < 25) := by
  induction glyphs generalizing s t with
  | nil => exact ⟨[], (List.append_nil _).symm, by simp, by simpa using h.y⟩
  | cons g glyphs ih =>
    obtain ⟨first, hfirst, hcell, hnone⟩ := h.putc_stores g.1 g.2
    obtain ⟨rest, hrest, hcells, hnones⟩ := ih (h.putc g.1 g.2)
    refine ⟨first ++ rest, ?_, ?_, ?_⟩
    · rw [← List.append_assoc, ← hfirst]
      exact hrest
    · intro a ha
      rcases List.mem_append.mp ha with ha | ha
      · exact hcell a ha
      · exact hcells a ha
    · rw [List.append_eq_nil_iff, hnone, hnones, List.forall_mem_cons, List.length_cons]
      by_cases hg : g.1 = 10 ∧ s.cursor.y.toNat + 1 < 25
      · rw [hg.1, h.putc_newline g.2 hg.2, Console.moveTo_cursor, h.toNat_nextRow]
        simp only [true_and, hg.2]
        exact and_congr_right fun _ => by omega
      · refine iff_of_false (fun hall => hg hall.1) fun hall => hg ⟨hall.1.1, ?_⟩
        omega

/-- No cell `putc` stores to is on the screen: the program has that memory. -/
theorem not_staysOnScreen_of_cellAddress {addr : UInt32} (h : CellAddress addr) :
    ¬ (setupPaging flag).pageDirectory.StaysOnScreen addr := by
  obtain ⟨k, hk, rfl⟩ := h
  intro hstays
  obtain ⟨p, hp, hscreen, -⟩ := hstays 0 (by decide)
  have haddr : (terminalBuffer + UInt32.ofNat k * 2 + UInt32.ofNat 0).toNat = 0xB8000 + 2 * k := by
    simp only [UInt32.toNat_add, UInt32.toNat_mul, UInt32.toNat_ofNat', terminalBuffer, UInt32.reduceToNat]
    omega
  obtain ⟨q, hq, hn⟩ := setupPaging_translate_low flag (haddr.trans_lt (by omega))
  rw [hq, Option.some.injEq] at hp
  subst hp
  have hlt := hscreen.2
  omega

/-- **The stores of a run are on the screen** exactly when there are none: all that is printed are fewer than 25
newlines. -/
theorem stores_onScreen_iff (flag : PageDirectoryEntryFlag) (mem : Memory) (calls : List PrintCall) :
    (∀ a ∈ ((Console.mk mem ⟨0, 0⟩ []).runCalls calls).stores,
      (setupPaging flag).pageDirectory.StaysOnScreen a.1) ↔
      (∀ g ∈ (Console.mk mem ⟨0, 0⟩ []).printed calls, g.1 = 10) ∧
        ((Console.mk mem ⟨0, 0⟩ []).printed calls).length < 25 := by
  obtain ⟨stores, hstores, hcells, hnone⟩ :=
    (Console.refines_terminal (s := ⟨mem, ⟨0, 0⟩, []⟩) rfl).print_stores ((Console.mk mem ⟨0, 0⟩ []).printed calls)
  rw [Console.runCalls_eq, hstores, List.nil_append, ← Nat.zero_add (List.length _)]
  refine Iff.trans ?_ hnone
  constructor
  · intro h
    refine List.eq_nil_iff_forall_not_mem.mpr fun a ha => ?_
    exact not_staysOnScreen_of_cellAddress (hcells a ha) (h a ha)
  · rintro rfl a ha
    cases ha

/-- An `A` is stored in the frame of the program. -/
theorem store_in_program :
    ((Console.mk (fun _ => 0) ⟨0, 0⟩ []).runCalls [.putc 0x41 7]).stores = [(0xB8000, 0x741)] ∧
      (setupPaging .zero).pageDirectory.translate 0xB8000 = some 0x4B8000 ∧
      (setupPaging .zero).pageDirectory.UserFrame (pageNumber 0x4B8000) ∧
      ¬ ∀ a ∈ ((Console.mk (fun _ => 0) ⟨0, 0⟩ []).runCalls [.putc 0x41 7]).stores,
        (setupPaging .zero).pageDirectory.StaysOnScreen a.1 := by
  have hstores : ((Console.mk (fun _ => 0) ⟨0, 0⟩ []).runCalls [.putc 0x41 7]).stores = [(0xB8000, 0x741)] := by
    decide +kernel
  refine ⟨hstores, by decide +kernel, ⟨0, ?_, ?_, ?_⟩, fun h => ?_⟩
  · rw [setupPaging_zero]
  · rw [setupPaging_zero]
  · rw [setupPaging_zero]
    decide
  · rw [hstores] at h
    exact not_staysOnScreen_of_cellAddress ⟨0, by decide, by decide⟩ (h _ (List.mem_singleton_self _))

end Stores

end Os2024
