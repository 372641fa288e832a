import KernelCore.Boot
import KernelCore.Console
import KernelCore.Halt
import KernelCore.Logger
import KernelCore.Proofs.Effects
import KernelCore.Proofs.Heap.Blocks
import KernelCore.Proofs.Heap.Allocation
import KernelCore.Proofs.Heap.Release
import KernelCore.Proofs.Heap.Ledger
import KernelCore.Proofs.Heap.Restoration
import KernelCore.Proofs.Heap.Holdings
import KernelCore.Proofs.FrameBitmap
import KernelCore.Proofs.Paging.Entries
import KernelCore.Proofs.Paging.Ownership
import KernelCore.Proofs.Paging.Edits
import KernelCore.Proofs.Paging.Directories
import KernelCore.Proofs.Paging.Isolation
import KernelCore.Proofs.ReadyQueue
import KernelCore.Proofs.ProcessTable
import KernelCore.Proofs.ProcessTable.Records
import KernelCore.Proofs.ProcessTable.Loose
import KernelCore.Proofs.Scheduler
import KernelCore.Proofs.Scheduler.Decision
import KernelCore.Proofs.Scheduler.Moves
import KernelCore.Proofs.Scheduler.States
import KernelCore.Proofs.Scheduler.Stacks
import KernelCore.Proofs.Scheduler.Lookup
import KernelCore.Proofs.Scheduler.Turns
import KernelCore.Proofs.Scheduler.Sleep
import KernelCore.Proofs.Scheduler.Line
import KernelCore.Proofs.Scheduler.Lineup
import KernelCore.Proofs.Scheduler.Placement
import KernelCore.Proofs.Scheduler.Register
import KernelCore.Proofs.Kernel.Accounts
import KernelCore.Proofs.Kernel.Memory
import KernelCore.Proofs.Kernel.Lifecycle
import KernelCore.Proofs.Kernel.Custody
import KernelCore.Proofs.Kernel.Outcomes
import KernelCore.Proofs.Kernel.Reached
import KernelCore.Proofs.Kernel.Refusal
import KernelCore.Proofs.Kernel.Laps
import KernelCore.Proofs.Kernel.Stacks
import KernelCore.Proofs.Scheduler.Attended
import KernelCore.Proofs.Kernel.Idle
import KernelCore.Proofs.FrameBitmap.UsedFrames
import KernelCore.Proofs.FrameBitmap.Reserved
import KernelCore.Proofs.Loads
import KernelCore.Proofs.Scheduler.Plans
import KernelCore.Proofs.Kernel.Loads
import KernelCore.Proofs.Kernel.Prompt
import KernelCore.Proofs.Kernel.Registers
import KernelCore.Proofs.Kernel.Root
import KernelCore.Proofs.Kernel.Handled
import KernelCore.Proofs.Kernel.Sleep
import KernelCore.Proofs.Kernel.Lending
import KernelCore.Proofs.Paging.Translation
import KernelCore.Proofs.Paging.Coherence
import KernelCore.Proofs.Paging.Shelter
import KernelCore.Proofs.Paging.Exactness
import KernelCore.Proofs.Paging.Permissions
import KernelCore.Proofs.Kernel.Permissions
import KernelCore.Proofs.Masking
import KernelCore.Proofs.Kernel.Masking
import KernelCore.Proofs.Kernel.Bringup
import KernelCore.Proofs.Boot
import KernelCore.Proofs.Scheduler.Selection
import KernelCore.Proofs.Paging.Safety
import KernelCore.Proofs.Heap.Walks
import KernelCore.Proofs.Scheduler.Clock
import KernelCore.Proofs.Kernel.Safety
import KernelCore.Proofs.Kernel.Faultless
import KernelCore.Proofs.Scheduler.Slices
import KernelCore.Proofs.Scheduler.Preemption
import KernelCore.Proofs.Kernel.Preemption
import KernelCore.Proofs.Heap.Extents
import KernelCore.Proofs.Heap.FirstFit
import KernelCore.Proofs.Heap.History
import KernelCore.Proofs.Heap.Confluence
import KernelCore.Proofs.Paging.Atomicity
import KernelCore.Proofs.Paging.Destruction
import KernelCore.Proofs.Paging.Shortage
import KernelCore.Proofs.Heap.Arithmetic
import KernelCore.Proofs.Kernel.Syscalls
import KernelCore.Proofs.Paging.Fields
import KernelCore.Proofs.ProcessTable.Pids
import KernelCore.Proofs.Guards
import KernelCore.Proofs.Output
import KernelCore.Proofs.Names
