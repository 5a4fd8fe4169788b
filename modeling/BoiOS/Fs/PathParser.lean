import BoiOS.Kernel.State
import BoiOS.Machine.Strings

/-! The path parser of fs/pparser.c. A path is a string; the cursor that its functions advance is
what is left of it. A store through a null pointer ends the run. -/
namespace BoiOS

def boiosMaxPath : Nat := 128

def sizeofPathRoot : Nat := 8
def sizeofPathPart : Nat := 8

def pathDelimiter : UInt8 := 47

def pathparserPathValidFormat (filename : List UInt8) : Bool :=
  let len := strnlen filename boiosMaxPath
  (decide (len ≥ 3) && isdigit (charAt filename 0)) &&
    (charAt filename 1 == 58 && charAt filename 2 == pathDelimiter)

def pathparserGetDriveByPath (path : List UInt8) : Int × List UInt8 :=
  if !pathparserPathValidFormat path then (-ebadpath, path)
  else (tonumericdigit (charAt path 0), path.drop 3)

def putPathRoot (ptr : Nat) (root : PathRoot) (k : Kernel) : Kernel :=
  { k with pathRoots := Function.update k.pathRoots ptr (some root) }

def putPathPart (ptr : Nat) (part : PathPart) (k : Kernel) : Kernel :=
  { k with pathParts := Function.update k.pathParts ptr (some part) }

def pathparserCreateRoot (driveNo : Int) : KernelM Nat := do
  let pathR ← kzalloc sizeofPathRoot
  if pathR = 0 then throw .faulted
  else do
    modify (putPathRoot pathR ⟨driveNo, 0⟩)
    pure pathR

def inPathPart (c : UInt8) : Bool := c != pathDelimiter && c != 0

/-- What is left of the path after a part: without the delimiter that ended it. -/
def skipDelimiter (path : List UInt8) : List UInt8 :=
  if charAt path 0 = pathDelimiter then path.drop 1 else path

def pathparserGetPathPart (path : List UInt8) : KernelM (Nat × List UInt8) := do
  let resultPathPart ← kzalloc boiosMaxPath
  let part := path.takeWhile inPathPart
  let path := skipDelimiter (path.dropWhile inPathPart)
  if part = [] then do
    kfree resultPathPart
    pure (0, path)
  else if resultPathPart = 0 then throw .faulted
  else do
    modify fun k => { k with memory := k.memory.copyIn resultPathPart part }
    pure (resultPathPart, path)

def pathparserParsePathPart (lastPart : Nat) (path : List UInt8) : KernelM (Nat × List UInt8) := do
  let (pathPartStr, path) ← pathparserGetPathPart path
  if pathPartStr = 0 then pure (0, path)
  else do
    let part ← kzalloc sizeofPathPart
    if part = 0 then throw .faulted
    else do
      modify (putPathPart part ⟨pathPartStr, 0⟩)
      if lastPart = 0 then pure (part, path)
      else do
        let k ← get
        let last ← fetch (k.pathParts lastPart)
        modify (putPathPart lastPart { last with next := part })
        pure (part, path)

/-- The loop of `pathparser_parse`. Each round takes a character of the path, so that a fuel of
one more than its length is enough. -/
def pathparserParseLoop : (fuel : Nat) → (part : Nat) → (path : List UInt8) → KernelM Unit
  | 0, _, _ => throw .faulted
  | fuel + 1, part, path => do
      let (part, path) ← pathparserParsePathPart part path
      if part = 0 then pure () else pathparserParseLoop fuel part path

def pathparserParse (path : List UInt8) : KernelM Nat :=
  if strlen path > boiosMaxPath then pure 0
  else
    let (driveNo, tmpPath) := pathparserGetDriveByPath path
    if driveNo < 0 then pure 0
    else do
      let pathRoot ← pathparserCreateRoot driveNo
      let (firstPart, tmpPath) ← pathparserParsePathPart 0 tmpPath
      if firstPart = 0 then pure pathRoot
      else do
        let k ← get
        let root ← fetch (k.pathRoots pathRoot)
        modify (putPathRoot pathRoot { root with first := firstPart })
        pathparserParseLoop (tmpPath.length + 1) firstPart tmpPath
        pure pathRoot

end BoiOS
