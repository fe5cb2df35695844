import Os2024.Lib.Chain
import Os2024.Lib.Walk
import Os2024.Lib.Scan
import Os2024.Lib.Bytes
import Os2024.Lib.Copy
import Os2024.Lib.Fuel
import Os2024.Lib.Splice
import Os2024.Stdlib.String
import Os2024.Stdlib.Strings
import Os2024.Properties.Strings
import Os2024.Fat32.Layout
import Os2024.Fat32.Driver
import Os2024.Fat32.Crud
import Os2024.Fat32.Volume
import Os2024.Fat32.Walk
import Os2024.Fat32.Alloc
import Os2024.Fat32.Spec
import Os2024.Lib.Journal
import Os2024.Fat32.Catalog
import Os2024.Fat32.Outcome
import Os2024.Fat32.Image
import Os2024.Fat32.Represents
import Os2024.Fat32.Runs
import Os2024.Fat32.Fresh
import Os2024.Fat32.Entries
import Os2024.Fat32.View
import Os2024.Fat32.Space
import Os2024.Properties.Structure
import Os2024.Properties.Isolation
import Os2024.Properties.Reboot
import Os2024.Properties.Crash
import Os2024.Properties.RoundTrip
import Os2024.Properties.Folder
import Os2024.Properties.Forgery
import Os2024.Properties.Termination
import Os2024.Properties.Bounds
import Os2024.Paging.Paging
import Os2024.Paging.Frames
import Os2024.Properties.Frames
import Os2024.Properties.Failure
import Os2024.Properties.Padding
import Os2024.Properties.Sizes
import Os2024.Properties.Undo
import Os2024.Properties.Kinds
import Os2024.Properties.Commute
import Os2024.Properties.Overrun
import Os2024.Properties.Resolve
import Os2024.Properties.FolderNames
import Os2024.Properties.Available
import Os2024.Properties.Answers
import Os2024.Boot.Mount
import Os2024.Inserter.Insert
import Os2024.Properties.Boot
import Os2024.Boot.Setup
import Os2024.Lib.Terminal
import Os2024.Framebuffer.Framebuffer
import Os2024.Framebuffer.Screen
import Os2024.Interrupt.Putc
import Os2024.Interrupt.Terminal
import Os2024.Properties.Terminal
import Os2024.Properties.ScreenMemory
import Os2024.Keyboard.Keyboard
import Os2024.Properties.Keyboard
import Os2024.Interrupt.Interrupt
import Os2024.Properties.Syscall
import Os2024.Interrupt.Session
import Os2024.Properties.Sessions
import Os2024.Lib.Ports
import Os2024.Lib.Bitfield
import Os2024.Interrupt.Pic
import Os2024.Interrupt.Delivery
import Os2024.Properties.Delivery
import Os2024.Interrupt.Stack
import Os2024.Interrupt.Idt
import Os2024.Interrupt.Cpu
import Os2024.Interrupt.Intsetup
import Os2024.Properties.Stub
import Os2024.Protection.Gdt
import Os2024.Protection.Tables
import Os2024.Protection.Trap
import Os2024.Protection.UserMode
import Os2024.Protection.Entrypoint
import Os2024.Inserter.Inserter
import Os2024.Properties.ClusterIo
import Os2024.Disk.Ata
import Os2024.Properties.BlockDevice
import Os2024.Shell.Shell
import Os2024.Shell.Ls
import Os2024.Properties.Listing
import Os2024.Shell.Cd
import Os2024.Properties.ChangeDirectory
import Os2024.Shell.Mkdir
import Os2024.Shell.Cp
import Os2024.Properties.ErrorCodes
import Os2024.Properties.CopyFile
import Os2024.Properties.UserMode
import Os2024.Properties.Tlb
import Os2024.Properties.Launch
import Os2024.Properties.Screen
import Os2024.Properties.ShellSessions
import Os2024.Properties.MakeDirectory
