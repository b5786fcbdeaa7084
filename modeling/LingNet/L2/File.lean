import LingNet.L2.Loader
import LingNet.Zig.Heap
import LingNet.Zig.Path

/-! Loading a skill from a file. -/
namespace LingNet.L2
open Zig

/-- The errors of `loadFromFile`: its own, that of a call on the file, and those of the load. -/
inductive LoadFileError where
  | dataTooShort
  | readFailed
  | outOfMemory
  | file
  | load (e : LoadError)
  deriving DecidableEq, Repr

/-- What the file system and the allocator answer: `none` where a call on the file fails. `readAll`
gives the bytes that were there to read, and `file_size` of them at most. -/
structure FileCalls where
  openFile : Option (Fin (2 ^ 31))
  getEndPos : Option ℕ
  alloc : Bool
  readAll : Option Bytes
  dupe : Bool

namespace L2SkillLoader

/-- What follows once the file is open. -/
def loadFromOpenFile (env : Env) (calls : FileCalls) (path : List UInt8) :
    Proc World LoadFileError Unit :=
  match calls.getEndPos with
  | none => Proc.fail .file
  | some fileSize =>
    if fileSize < 96 then Proc.fail .dataTooShort
    else if !calls.alloc then Proc.fail .outOfMemory
    else match calls.readAll with
      | none => Proc.fail .file
      | some data =>
        if data.val.length ≠ fileSize then Proc.fail .readFailed
        else if !calls.dupe then Proc.fail .outOfMemory
        else (loadFromMemory env (Path.stem path) data).catching .load

/-- `defer file.close()` -/
def closeFile (fd : Fin (2 ^ 31)) (w : World) : World := { w with closed := fd.val :: w.closed }

def loadFromFile (env : Env) (calls : FileCalls) (path : List UInt8) :
    Proc World LoadFileError Unit :=
  match calls.openFile with
  | none => Proc.fail .file
  | some fd => (loadFromOpenFile env calls path).defer (closeFile fd)

end L2SkillLoader
end LingNet.L2
