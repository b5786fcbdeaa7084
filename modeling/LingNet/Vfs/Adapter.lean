import LingNet.Lib.IdTree
import LingNet.Zig.Path
import LingNet.Zig.Proc

/-! The virtual filesystem adapter: a tree of nodes, paths resolved inside it, and the quota
counters. -/
namespace LingNet.Vfs
open Zig

inductive VfsNodeType where
  | file
  | directory
  | symlink
  | pipe
  | socket
  deriving DecidableEq, Repr

/-- The fields of a node but for its children. -/
structure VfsEntry where
  name : List UInt8
  nodeType : VfsNodeType
  permissions : UInt32
  owner : UInt32
  group : UInt32
  size : ℕ
  data : Option Bytes

/-- A node, with its address as the identity. -/
abbrev VfsNode := IdTree VfsEntry

inductive VfsError where
  | outOfMemory
  | invalidPath
  | pathEscape
  | fileNotFound
  | readOnly
  | quotaExceeded
  | fileTooLarge
  | notAFile
  deriving DecidableEq, Repr

/-- What the allocator does for one call: it gives memory for the node, and the parent's list of
children can grow. -/
structure Memory where
  created : Bool := true
  appended : Bool := true

def VfsNode.init (mem : Memory) (name : List UInt8) (nodeType : VfsNodeType) :
    Outcome VfsError VfsEntry :=
  if mem.created then
    .ok {
      name := name
      nodeType := nodeType
      permissions := if nodeType = .directory then 0o755 else 0o644
      owner := 0
      group := 0
      size := 0
      data := none }
  else .err .outOfMemory

def VfsNode.findChild (node : VfsNode) (name : List UInt8) : Option VfsNode :=
  node.children.find? fun child => child.val.name = name

/-- A tree whose nodes have addresses of their own, and the next address the allocator gives. -/
structure VfsTree where
  root : VfsNode
  next : ℕ
  nodup : root.ids.Nodup
  lt_next : ∀ i ∈ root.ids, i < next

namespace VfsTree

/-- `VfsNode.addChild` of a new node, which gets its address here: a node that is not linked is
never seen again. -/
def addChild (t : VfsTree) (parent : ℕ) (entry : VfsEntry) : VfsTree where
  root := IdTree.append parent (.node t.next entry []) t.root
  next := t.next + 1
  nodup := by
    have hleaf : (IdTree.node t.next entry []).ids.Nodup := List.nodup_singleton _
    refine IdTree.ids_nodup_append t.nodup hleaf ?_ parent
    intro i hi hnew
    rw [List.mem_singleton.mp hnew] at hi
    exact Nat.lt_irrefl _ (t.lt_next _ hi)
  lt_next := by
    intro i hi
    rcases IdTree.mem_ids_modify (IdTree.mem_append_singleton _) hi with hi | ⟨n, hn, hi⟩
    · exact Nat.lt_succ_of_lt (t.lt_next i hi)
    · rw [List.mem_singleton.mp hn] at hi
      rw [List.mem_singleton.mp hi]
      exact Nat.lt_succ_self _

/-- `parent.children.orderedRemove(i)` -/
def removeChild (t : VfsTree) (parent i : ℕ) : VfsTree where
  root := IdTree.removeChild parent i t.root
  next := t.next
  nodup := IdTree.ids_nodup_removeChild t.nodup parent i
  lt_next := by
    intro j hj
    rcases IdTree.mem_ids_modify (IdTree.mem_eraseIdx i) hj with hj | ⟨n, hn, _⟩
    · exact t.lt_next j hj
    · cases hn

end VfsTree

structure VfsSandboxConfig where
  maxFileSize : ℕ := 100 * 1024 * 1024
  maxTotalSize : ℕ := 1024 * 1024 * 1024
  maxFiles : ℕ := 10000
  readOnly : Bool := false

structure VfsAdapter where
  tree : VfsTree
  config : VfsSandboxConfig
  totalSize : ℕ
  fileCount : ℕ

def dot : List UInt8 := [46]

def dotDot : List UInt8 := [46, 46]

/-- The loop of `resolve` over the components. -/
def walk (root : VfsNode) : VfsNode → List (List UInt8) → Outcome VfsError VfsNode
  | current, [] => .ok current
  | current, component :: rest =>
    if component = [] then walk root current rest
    else if component = dot then walk root current rest
    else if component = dotDot then
      if current.id = root.id then .err .pathEscape
      -- a node has no pointer to its parent
      else walk root root rest
    else
      match VfsNode.findChild current component with
      | some child => walk root child rest
      | none => .err .fileNotFound

def VfsTree.resolve (t : VfsTree) (path : List UInt8) : Outcome VfsError VfsNode :=
  if Path.Absolute path then walk t.root t.root (Path.split path.tail) else .err .invalidPath

/-- The node that the three operations find for `dirname(path) orelse "/"`. -/
def VfsTree.parentOf (t : VfsTree) (path : List UInt8) : Outcome VfsError VfsNode :=
  let parentPath := (Path.dirname path).getD [Path.slash]
  if parentPath = [Path.slash] then .ok t.root else t.resolve parentPath

namespace VfsAdapter

def init (config : VfsSandboxConfig) : VfsAdapter where
  tree := {
    root := .node 0 {
      name := [Path.slash]
      nodeType := .directory
      permissions := 0o755
      owner := 0
      group := 0
      size := 0
      data := none } []
    next := 1
    nodup := List.nodup_singleton _
    lt_next := fun i hi => by
      rw [List.mem_singleton.mp hi]
      exact Nat.one_pos }
  config := config
  totalSize := 0
  fileCount := 0

/-- `try parent.addChild(node)`; the address of the node is returned. -/
def addChild (mem : Memory) (parent : VfsNode) (entry : VfsEntry) : Proc VfsAdapter VfsError ℕ := do
  let self ← Proc.get
  if mem.appended then do
    Proc.modify fun self => { self with tree := self.tree.addChild parent.id entry }
    pure self.tree.next
  else Proc.fail .outOfMemory

def createFile (mem : Memory) (path : List UInt8) (data : Bytes) :
    Proc VfsAdapter VfsError ℕ := do
  let self ← Proc.get
  if self.config.readOnly then Proc.fail .readOnly
  else if self.config.maxFiles ≤ self.fileCount then Proc.fail .quotaExceeded
  else do
    let total ← Proc.lift (add self.totalSize data.val.length)
    if self.config.maxTotalSize < total then Proc.fail .quotaExceeded
    else if self.config.maxFileSize < data.val.length then Proc.fail .fileTooLarge
    else do
      let parent ← Proc.lift (self.tree.parentOf path)
      let entry ← Proc.lift (VfsNode.init mem (Path.basename path) .file)
      let node ← addChild mem parent { entry with data := some data, size := data.val.length }
      let fileCount ← Proc.lift (add self.fileCount 1)
      Proc.modify fun self => { self with fileCount := fileCount }
      let totalSize ← Proc.lift (add self.totalSize data.val.length)
      Proc.modify fun self => { self with totalSize := totalSize }
      pure node

def readFile (self : VfsAdapter) (path : List UInt8) : Outcome VfsError (List UInt8) := do
  let node ← self.tree.resolve path
  if node.val.nodeType ≠ .file then .err .notAFile
  else
    match node.val.data with
    | some data => pure data.val
    | none => pure []

def deleteFile (path : List UInt8) : Proc VfsAdapter VfsError Unit := do
  let self ← Proc.get
  if self.config.readOnly then Proc.fail .readOnly
  else do
    let parent ← Proc.lift (self.tree.parentOf path)
    let filename := Path.basename path
    match parent.children.zipIdx.find? fun entry => entry.1.val.name = filename with
    | none => Proc.fail .fileNotFound
    | some (child, i) => do
      let totalSize ← Proc.lift (sub self.totalSize child.val.size)
      Proc.modify fun self => { self with totalSize := totalSize }
      let fileCount ← Proc.lift (sub self.fileCount 1)
      Proc.modify fun self => { self with fileCount := fileCount }
      Proc.modify fun self => { self with tree := self.tree.removeChild parent.id i }

def createDir (mem : Memory) (path : List UInt8) : Proc VfsAdapter VfsError ℕ := do
  let self ← Proc.get
  if self.config.readOnly then Proc.fail .readOnly
  else do
    let parent ← Proc.lift (self.tree.parentOf path)
    let entry ← Proc.lift (VfsNode.init mem (Path.basename path) .directory)
    addChild mem parent entry

end VfsAdapter
end LingNet.Vfs
