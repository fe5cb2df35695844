import Os2024.Shell.Cd

/-!
# Where a path leads

A path leads from directory to directory, from the root or the current directory on: `walk`. `cd` looks up every
component in the current directory instead, so it arrives where the path leads only if that is the same:
`cd_walks_path_iff`.
-/

namespace Os2024

open Fuel Scan

/-- The cluster of the subdirectory of a name. -/
def FAT32DirectoryTable.subdirectory (t : FAT32DirectoryTable) (component : List UInt8) : Option UInt32 :=
  (firstFrom 1 fun i => (t.table i).occupied && (t.table i).isDirectory &&
    decide ((t.table i).name = nameOf component)).map fun i => (t.table i).clusterNumber

/-- Where the components of a path lead. -/
def walk (tables : UInt32 → FAT32DirectoryTable) (start : UInt32) (path : List (List UInt8)) : Option UInt32 :=
  path.foldlM (fun d component => (tables d).subdirectory component) start

/-- `cd` succeeds if the path leads somewhere, goes there then, and stays otherwise. -/
structure WalksPath (tables : UInt32 → FAT32DirectoryTable) (s : Shell) (target : Option UInt32)
    (result : Shell × List Glyph) : Prop where
  succeeds : result.2 = [] ↔ target.isSome
  arrives : ∀ d, target = some d → result.1 = ⟨d, tables d⟩
  stays : target = none → result.1.currentDirectory = s.currentDirectory

section Lookups

variable {tables : UInt32 → FAT32DirectoryTable} {t : FAT32DirectoryTable} {s : Shell} {start d : UInt32}
  {path : List (List UInt8)} {target : Option UInt32} {found : Except CdError UInt32}

/-- All components looked up in one table: each of them is a directory there, and the last one counts. -/
theorem foldlM_enter_eq_ok : path.foldlM (fun _ w => t.enter w) start = .ok d ↔
    (path = [] ∧ start = d) ∨
      ((∀ w ∈ path, ∃ d', t.enter w = .ok d') ∧ ∃ w ∈ path.getLast?, t.enter w = .ok d) := by
  induction path generalizing start with
  | nil =>
    simp [pure, Except.pure]
  | cons w path ih =>
    rw [List.foldlM_cons]
    cases hw : t.enter w with
    | error e => simp [hw, bind, Except.bind]
    | ok d' =>
      change path.foldlM (fun _ w => t.enter w) d' = .ok d ↔ _
      rw [ih]
      cases path with
      | nil => simp [hw]
      | cons w' path =>
        simp [hw, List.getLast?_cons_cons]

theorem foldlM_enter_ne_ok (start : UInt32) :
    (∀ d, path.foldlM (fun _ w => t.enter w) start ≠ .ok d) ↔ ∃ w ∈ path, ∃ e, t.enter w = .error e := by
  constructor
  · intro hne
    by_contra hall
    have hok : ∀ w ∈ path, ∃ d, t.enter w = .ok d := by
      intro w hw
      cases henter : t.enter w with
      | ok d => exact ⟨d, rfl⟩
      | error e => exact absurd ⟨w, hw, e, henter⟩ hall
    rcases List.eq_nil_or_concat' path with rfl | ⟨init, last, rfl⟩
    · exact hne start rfl
    · obtain ⟨d, hd⟩ := hok last (List.mem_append_right _ (List.mem_singleton_self _))
      refine hne d (foldlM_enter_eq_ok.mpr (.inr ⟨hok, last, ?_, hd⟩))
      exact List.getLast?_concat
  · rintro ⟨w, hw, e, henter⟩ d hd
    rcases foldlM_enter_eq_ok.mp hd with ⟨rfl, -⟩ | ⟨hall, -⟩
    · exact List.not_mem_nil hw
    · obtain ⟨d', hd'⟩ := hall w hw
      exact nomatch henter.symm.trans hd'

/-- The lookups in one table lead to the same as the walk. -/
theorem walk_eq_iff : (∀ d, walk tables start path = some d ↔ path.foldlM (fun _ w => t.enter w) start = .ok d) ↔
    (∀ d, walk tables start path = some d →
      path = [] ∨ (∀ w ∈ path, ∃ d', t.enter w = .ok d') ∧ ∃ w ∈ path.getLast?, t.enter w = .ok d) ∧
    (walk tables start path = none → ∃ w ∈ path, ∃ e, t.enter w = .error e) := by
  rw [← foldlM_enter_ne_ok start]
  constructor
  · refine fun h => ⟨fun d hd => ?_, fun hnone d hd => ?_⟩
    · exact (foldlM_enter_eq_ok.mp ((h d).mp hd)).imp_left And.left
    · exact nomatch hnone.symm.trans ((h d).mpr hd)
  · rintro ⟨hsome, hnone⟩
    have hto : ∀ d, walk tables start path = some d → path.foldlM (fun _ w => t.enter w) start = .ok d := by
      intro d hd
      rcases hsome d hd with rfl | hall
      · exact congrArg Except.ok (Option.some.inj hd)
      · exact foldlM_enter_eq_ok.mpr (.inr hall)
    refine fun d => ⟨hto d, fun hd => ?_⟩
    cases hwalk : walk tables start path with
    | none => exact absurd hd (hnone hwalk d)
    | some d' => exact congrArg some (Except.ok.inj ((hto d' hwalk).symm.trans hd))

theorem walksPath_iff (tables : UInt32 → FAT32DirectoryTable) :
    WalksPath tables s target (s.arrive tables found) ↔ ∀ d, target = some d ↔ found = .ok d := by
  constructor
  · intro h d
    cases found with
    | error e =>
      have hprinted : inColor red e.message ≠ [] := by cases e <;> exact List.cons_ne_nil _ _
      have hnone : target = none := by
        by_contra hsome
        exact hprinted (h.succeeds.mpr (Option.isSome_iff_ne_none.mpr hsome))
      simp [hnone]
    | ok c =>
      obtain ⟨d', hd'⟩ := Option.isSome_iff_exists.mp (h.succeeds.mp rfl)
      have hsame : c = d' := congrArg Shell.currentDirectory (h.arrives d' hd')
      rw [hd', hsame, Option.some_inj, Except.ok.injEq]
  · intro h
    cases found with
    | error e =>
      have hnone : target = none := Option.eq_none_iff_forall_ne_some.mpr fun d hd => nomatch (h d).mp hd
      have hprinted : inColor red e.message ≠ [] := by cases e <;> exact List.cons_ne_nil _ _
      subst hnone
      exact ⟨iff_of_false hprinted (Bool.not_eq_true _ ▸ rfl), fun d hd => (nomatch hd), fun _ => rfl⟩
    | ok c =>
      obtain rfl := (h c).mpr rfl
      refine ⟨iff_of_true rfl rfl, fun d hd => ?_, fun hnone => (nomatch hnone)⟩
      obtain rfl := Option.some.inj hd
      rfl

end Lookups

section Calls

variable {mem : Memory} {tables : UInt32 → FAT32DirectoryTable} {args : Arguments} {s : Shell} {path : List UInt8}

/-- What `cd` leaves is what the lookups in the table of the current directory lead to. -/
theorem cd_walksPath_iff (hcount : args.count = 2) (hpath : mem.Spells (args.address 1) 0 path)
    (hlen : ∀ w ∈ components path, w.length ≤ 8) (hloaded : s.dirTable = tables s.currentDirectory)
    (target : Option UInt32) :
    (∃ result, Returns (fun fuel => cd fuel mem tables args s) (some result) ∧ WalksPath tables s target result) ↔
      ∀ d, target = some d ↔ (components path).foldlM (fun _ w => (tables s.currentDirectory).enter w)
        (pathStart path s.currentDirectory) = .ok d := by
  have hreturns : Returns (fun fuel => cd fuel mem tables args s) (some (s.arrive tables
      ((components path).foldlM (fun _ w => s.dirTable.enter w) (pathStart path s.currentDirectory)))) :=
    Returns.of_ge (path.length + 2) fun fuel hfuel =>
      cd_eq hcount hpath (fun w hw => (hlen w hw).trans (by decide)) (by omega)
  rw [← hloaded, ← walksPath_iff tables]
  refine ⟨?_, fun h => ⟨_, hreturns, h⟩⟩
  rintro ⟨result, hresult, h⟩
  rwa [← Option.some.inj (hresult.unique hreturns)]

end Calls

/-- **`cd` walks the path** exactly in these cases: the path leads to a directory, and has no components or all of them
are found as directories in the current one and the last is that directory there; or it leads nowhere, and one of its
components is not found as a directory in the current one. -/
theorem cd_walks_path_iff (mem : Memory) (tables : UInt32 → FAT32DirectoryTable) (args : Arguments) (s : Shell)
    (path : List UInt8) (hcount : args.count = 2) (hpath : mem.Spells (args.address 1) 0 path)
    (hlen : ∀ w ∈ components path, w.length ≤ 8) (hloaded : s.dirTable = tables s.currentDirectory) :
    (∃ result, Returns (fun fuel => cd fuel mem tables args s) (some result) ∧
      WalksPath tables s (walk tables (pathStart path s.currentDirectory) (components path)) result) ↔
      (∀ d, walk tables (pathStart path s.currentDirectory) (components path) = some d →
        components path = [] ∨
          (∀ w ∈ components path, ∃ d', (tables s.currentDirectory).enter w = .ok d') ∧
            ∃ w ∈ (components path).getLast?, (tables s.currentDirectory).enter w = .ok d) ∧
      (walk tables (pathStart path s.currentDirectory) (components path) = none →
        ∃ w ∈ components path, ∃ e, (tables s.currentDirectory).enter w = .error e) := by
  rw [cd_walksPath_iff hcount hpath hlen hloaded]
  exact walk_eq_iff

/-- The folder `a` with the cluster `3` in the root, and the folder `b` with the cluster `4` in it. -/
def nestedTables (clusterNumber : UInt32) : FAT32DirectoryTable :=
  if clusterNumber = 2 then
    (initDirectoryTable (nameOf [114, 111, 111, 116]) 2).set 2
      { FAT32DirectoryEntry.zero with
        name := nameOf [97], attr := attrSubdirectory, userAttribute := uattrNotEmpty, clusterLow := 3 }
  else if clusterNumber = 3 then
    (initDirectoryTable (nameOf [97]) 2).set 2
      { FAT32DirectoryEntry.zero with
        name := nameOf [98], attr := attrSubdirectory, userAttribute := uattrNotEmpty, clusterLow := 4 }
  else initDirectoryTable (nameOf [98]) 3

/-- `cd a` in the root. -/
theorem cd_walks_one :
    ∃ result, Returns (fun fuel => cd fuel (textMemory [97] 0) nestedTables ⟨0, fun _ => (0, 1), 2⟩ ⟨2, nestedTables 2⟩)
      (some result) ∧ WalksPath nestedTables ⟨2, nestedTables 2⟩ (some 3) result := by
  have hwalk : walk nestedTables 2 [[97]] = some 3 := by decide +kernel
  have hfind : findEntry (nestedTables 2) (nameOf [97]) = some 2 := by decide +kernel
  have henter : (nestedTables 2).enter [97] = .ok 3 := by
    rw [FAT32DirectoryTable.enter, hfind]
    rfl
  have hcomponents : components [97] = [[97]] := by decide
  have hresult := cd_walks_path_iff (textMemory [97] 0) nestedTables ⟨0, fun _ => (0, 1), 2⟩ ⟨2, nestedTables 2⟩ [97]
    rfl (by decide) (by decide) rfl
  rw [hcomponents, show pathStart [97] 2 = 2 from rfl, hwalk] at hresult
  refine hresult.mpr ⟨fun d hd => .inr ⟨fun w hw => ?_, [97], rfl, ?_⟩, fun hnone => absurd hnone (Option.some_ne_none 3)⟩
  · rw [List.mem_singleton.mp hw]
    exact ⟨3, henter⟩
  · rw [← Option.some.inj hd]
    exact henter

/-- `cd a/b` in the root fails, though there is a folder `b` in `a`. -/
theorem cd_misses_nested :
    walk nestedTables 2 [[97], [98]] = some 4 ∧
      ¬ ∃ result, Returns
        (fun fuel => cd fuel (textMemory [97, 47, 98] 0) nestedTables ⟨0, fun _ => (0, 3), 2⟩ ⟨2, nestedTables 2⟩)
        (some result) ∧ WalksPath nestedTables ⟨2, nestedTables 2⟩ (some 4) result := by
  have hcomponents : components [97, 47, 98] = [[97], [98]] := by decide
  refine ⟨by decide +kernel, fun h => ?_⟩
  have hpath : (textMemory [97, 47, 98] 0).Spells 0 0 [97, 47, 98] := by decide
  have hsame := (cd_walksPath_iff rfl hpath (by decide) rfl (some 4)).mp h 4
  rw [hcomponents] at hsame
  have hfind : findEntry (nestedTables 2) (nameOf [98]) = none := by decide +kernel
  have henter : (nestedTables 2).enter [98] = .error .noSuchFile := by rw [FAT32DirectoryTable.enter, hfind]
  exact (foldlM_enter_ne_ok 2).mpr ⟨[98], List.mem_cons_of_mem _ List.mem_cons_self, _, henter⟩ 4 (hsame.mp rfl)

end Os2024
