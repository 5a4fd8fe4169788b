import BoiOS.Task.SystemCommand

/-! A program that runs a command line: strtok of programs/stdlib/src/string.c, and
boios_parse_command and boios_system_run of programs/stdlib/src/boios.c. The program sees its own
data and stack in `own`, at its virtual addresses; what it allocates is mapped to itself and lies in
the memory of the kernel. -/
namespace BoiOS
open Library.StateRun

/-- `sp` is the static pointer of `strtok`, the place where the next word is looked for. -/
structure Userland where
  kernel : Kernel
  own : Memory
  sp : Nat

abbrev UserM (α : Type) := Prog Userland Stop α

def syscall {α : Type} (x : KernelM α) : UserM α := fun u =>
  (x u.kernel).map fun (a, kernel) => (a, { u with kernel })

/-! The tokenizer. A string that goes on for more than 2^32 characters has no end. -/

def strtokStart (m : Memory) (delimeters : List UInt8) : (fuel pStart : Nat) → Except Stop Nat
  | 0, _ => .error .faulted
  | fuel + 1, pStart =>
      if m pStart ∈ delimeters then strtokStart m delimeters fuel (u32 (pStart + 1))
      else .ok pStart

/-- The end of the word: the memory with a zero in place of the delimiter, and the place behind. -/
def strtokEnd (delimeters : List UInt8) : (fuel : Nat) → (m : Memory) → (sp : Nat) →
    Except Stop (Memory × Nat)
  | 0, _, _ => .error .faulted
  | fuel + 1, m, sp =>
      if m sp = 0 then .ok (m, sp)
      else if m sp ∈ delimeters then .ok (Function.update m sp 0, u32 (sp + 1))
      else strtokEnd delimeters fuel m (u32 (sp + 1))

/-- A string is taken up only when nothing is left of the one before it. -/
def strtok (str : Nat) (delimeters : List UInt8) : UserM Nat := fun u =>
  if str = 0 ∧ u.sp = 0 then .ok (0, u)
  else
    (strtokStart u.own delimeters 4294967296 (if u.sp = 0 then str else u.sp)).bind fun pStart =>
      if u.own pStart = 0 then .ok (0, { u with sp := 0 })
      else (strtokEnd delimeters 4294967296 u.own pStart).map fun (own, sp) =>
        (pStart, { u with own, sp })

/-! The list of words. -/

def boiosMalloc (size : Nat) : UserM Nat := syscall (isr80hCommand4Malloc size)

def copyOwn (dest src count : Nat) : UserM Unit :=
  modify fun u => { u with own := u.own.copyIn dest (u.own.stringAt src count ++ [0]) }

def fillCommandArgument (node token : Nat) : UserM Unit :=
  modify fun u => { u with
    kernel := { u.kernel with
      memory := (u.kernel.memory.copyIn node (u.own.stringAt token sizeofArgument ++ [0])).store32
        (u32 (node + sizeofArgument)) 0 } }

def linkCommandArgument (current newCommand : Nat) : UserM Unit :=
  modify fun u => { u with
    kernel := { u.kernel with
      memory := u.kernel.memory.store32 (u32 (current + sizeofArgument)) newCommand } }

def boiosParseCommandLoop : (fuel current : Nat) → UserM Unit
  | 0, _ => throw .faulted
  | fuel + 1, current => do
      let token ← strtok 0 [32]
      if token = 0 then pure ()
      else do
        let newCommand ← boiosMalloc sizeofCommandArgument
        if newCommand = 0 then pure ()
        else do
          fillCommandArgument newCommand token
          linkCommandArgument current newCommand
          boiosParseCommandLoop fuel newCommand

def sizeofScommand : Nat := 1025

/-- `scommand` is the address of the array on the stack. -/
def boiosParseCommand (command : Nat) (max : Int) (scommand : Nat) : UserM Nat := do
  if max ≥ sizeofScommand then pure 0
  else do
    copyOwn scommand command sizeofScommand
    let token ← strtok scommand [32]
    if token = 0 then pure 0
    else do
      let rootCommand ← boiosMalloc sizeofCommandArgument
      if rootCommand = 0 then pure 0
      else do
        fillCommandArgument rootCommand token
        boiosParseCommandLoop 4294967296 rootCommand
        pure rootCommand

def sizeofBuf : Nat := 1024

/-- The status, or none if the command was entered. `buf` and `scommand` are the addresses of the
two arrays on the stack. -/
def boiosSystemRun (command buf scommand : Nat) : UserM (Option Int) := do
  copyOwn buf command sizeofBuf
  let rootCommandArgument ← boiosParseCommand buf sizeofBuf scommand
  if rootCommandArgument = 0 then pure (some (-1))
  else syscall (isr80hCommand7InvokeSystemCommand rootCommandArgument)

end BoiOS
