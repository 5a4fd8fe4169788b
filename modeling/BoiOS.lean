import BoiOS.Disk.StreamOnDrive
import BoiOS.Disk.Streaming
import BoiOS.Fs.ChainContent
import BoiOS.Fs.ClusterChain
import BoiOS.Fs.DirectoryFailure
import BoiOS.Fs.DirectoryLookup
import BoiOS.Fs.Division
import BoiOS.Fs.File
import BoiOS.Fs.FileBounds
import BoiOS.Fs.NameMatch
import BoiOS.Fs.OpenClose
import BoiOS.Fs.PathFree
import BoiOS.Kernel.DivideError
import BoiOS.Kernel.Gdt
import BoiOS.Kernel.Interrupts
import BoiOS.Kernel.OutputRuns
import BoiOS.Keyboard.Classic
import BoiOS.Keyboard.KeyQueue
import BoiOS.Memory.HeapExact
import BoiOS.Memory.HeapRuns
import BoiOS.Memory.MappingRuns
import BoiOS.Memory.PagingFrame
import BoiOS.Programs.CommandArguments
import BoiOS.Programs.Console
import BoiOS.Programs.Formatting
import BoiOS.Programs.Printing
import BoiOS.Programs.ReadLine
import BoiOS.Task.AllocationTable
import BoiOS.Task.ArgumentChain
import BoiOS.Task.CopyString
import BoiOS.Task.ElfExtent
import BoiOS.Task.ElfImage
import BoiOS.Task.PathBuffer
import BoiOS.Task.ProcessLeak
import BoiOS.Task.ProcessLedger
import BoiOS.Task.ProcessRuns
import BoiOS.Task.ProcessTable
import BoiOS.Task.ProgramArguments
import BoiOS.Task.TaskExit
import BoiOS.Task.UserMemoryRuns
import BoiOS.Task.UserMode
import BoiOS.Terminal.Terminal
