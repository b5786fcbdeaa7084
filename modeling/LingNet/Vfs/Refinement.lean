import LingNet.Lib.Shelves
import LingNet.Vfs.Permission
import LingNet.Vfs.ReadBack

/-! What the adapter is for: a store of entries at paths of names. Files and directories of one
name stand behind one another, the oldest is seen, and a deletion takes it away with all that is
below it. The tree of nodes refines this store. -/
namespace LingNet.Vfs
open Zig

abbrev Name := List UInt8

/-- The adapter as a store, with its quotas. -/
structure Archive where
  shelves : Shelves Name VfsEntry
  config : VfsSandboxConfig
  totalSize : ℕ
  fileCount : ℕ

namespace Archive

/-- Where components lead from a place: down to a name that stands there, or back to the start. -/
def walk (s : Shelves Name VfsEntry) : List Name → List Name → Outcome VfsError (List Name)
  | place, [] => .ok place
  | place, component :: rest =>
    if component = [] ∨ component = dot then walk s place rest
    else if component = dotDot then if place = [] then .err .pathEscape else walk s [] rest
    else if s (place ++ [component]) = [] then .err .fileNotFound
    else walk s (place ++ [component]) rest

variable (a : Archive) (path : List UInt8)

def resolve : Outcome VfsError (List Name) :=
  if Path.Absolute path then walk a.shelves [] (Path.split path.tail) else .err .invalidPath

/-- The place of the directory of a path. -/
def placeOf : Outcome VfsError (List Name) :=
  let parentPath := (Path.dirname path).getD [Path.slash]
  if parentPath = [Path.slash] then .ok [] else a.resolve parentPath

/-- An entry is put behind its namesakes. -/
def put (mem : Memory) (place : List Name) (entry : VfsEntry) : Outcome VfsError Archive :=
  if mem.created ∧ mem.appended then
    .ok { a with shelves := a.shelves.put (place ++ [entry.name]) entry }
  else .err .outOfMemory

def createFile (mem : Memory) (data : Bytes) : Outcome VfsError Archive :=
  if a.config.readOnly then .err .readOnly
  else if a.config.maxFiles ≤ a.fileCount then .err .quotaExceeded
  else do
    let total ← add a.totalSize data.val.length
    if a.config.maxTotalSize < total then .err .quotaExceeded
    else if a.config.maxFileSize < data.val.length then .err .fileTooLarge
    else do
      let place ← a.placeOf path
      let b ← a.put mem place (VfsAdapter.fileEntry path data)
      let fileCount ← add a.fileCount 1
      pure { b with fileCount := fileCount, totalSize := total }

def createDir (mem : Memory) : Outcome VfsError Archive :=
  if a.config.readOnly then .err .readOnly
  else do
    let place ← a.placeOf path
    a.put mem place (VfsAdapter.dirEntry path)

def deleteFile : Outcome VfsError Archive :=
  if a.config.readOnly then .err .readOnly
  else do
    let place ← a.placeOf path
    match a.shelves (place ++ [Path.basename path]) with
    | [] => .err .fileNotFound
    | entry :: _ => do
      let totalSize ← sub a.totalSize entry.size
      let fileCount ← sub a.fileCount 1
      pure { a with
        shelves := a.shelves.cut (place ++ [Path.basename path])
        totalSize := totalSize
        fileCount := fileCount }

def entryAt : Outcome VfsError VfsEntry := do
  let place ← a.resolve path
  match a.shelves place with
  | [] => .err .fileNotFound
  | entry :: _ => .ok entry

def readFile : Outcome VfsError (List UInt8) := do
  let entry ← a.entryAt path
  if entry.nodeType ≠ .file then .err .notAFile
  else
    match entry.data with
    | some data => pure data.val
    | none => pure []

def checkPermission (uid gid mode : UInt32) : Outcome VfsError Bool := do
  let entry ← a.entryAt path
  if uid = 0 then pure true
  else pure (decide (entry.permissions &&& (mode <<< entry.shift uid gid) ≠ 0))

/-- The archive after a call, unless the call traps. -/
def call (a : Archive) : VfsOp → Outcome VfsError Archive
  | .createFile mem path data => a.createFile path mem data
  | .deleteFile path => a.deleteFile path
  | .createDir mem path => a.createDir path mem

def step (a : Archive) (op : VfsOp) : Option Archive :=
  match a.call op with
  | .ok b => some b
  | .err _ => some a
  | .trap _ => none

end Archive

namespace VfsAdapter

/-- The store that an adapter holds. -/
def archive (self : VfsAdapter) : Archive where
  shelves := self.tree.root.shelves VfsEntry.name
  config := self.config
  totalSize := self.totalSize
  fileCount := self.fileCount

/-- The answer of a call, with the store that it leaves in place of a value. -/
def archived {α : Type} : Outcome VfsError α × VfsAdapter → Outcome VfsError Archive
  | (.ok _, self) => .ok self.archive
  | (.err e, _) => .err e
  | (.trap f, _) => .trap f

def call (self : VfsAdapter) : VfsOp → Outcome VfsError Archive
  | .createFile mem path data => archived (createFile mem path data self)
  | .deleteFile path => archived (deleteFile path self)
  | .createDir mem path => archived (createDir mem path self)

end VfsAdapter

/-! Places and nodes. -/

section Places

variable {root current : VfsNode} {place : List Name} {t : VfsTree} {path : List UInt8}

/-- The node in front at a place. -/
def nodeAt (root : VfsNode) (place : List Name) : Outcome VfsError VfsNode :=
  match root.front? VfsEntry.name place with
  | some node => .ok node
  | none => .err .fileNotFound

theorem nodeAt_eq_ok : nodeAt root place = .ok current ↔
    root.front? VfsEntry.name place = some current := by
  unfold nodeAt
  cases root.front? VfsEntry.name place with
  | none => simp
  | some node => simp

theorem findChild_eq (h : root.front? VfsEntry.name place = some current) (name : Name) :
    VfsNode.findChild current name = root.front? VfsEntry.name (place ++ [name]) := by
  unfold VfsNode.findChild IdTree.front?
  rw [IdTree.front?_concat h, List.head?_filter]

theorem shelves_eq_nil_iff (place : List Name) :
    root.shelves VfsEntry.name place = [] ↔ root.front? VfsEntry.name place = none := by
  unfold IdTree.shelves IdTree.front?
  rw [List.map_eq_nil_iff, List.head?_eq_none_iff]

theorem shelves_of_front? (h : root.front? VfsEntry.name place = some current) :
    ∃ rest, root.shelves VfsEntry.name place = current.val :: rest := by
  unfold IdTree.front? at h
  unfold IdTree.shelves
  obtain ⟨rest, hshelf⟩ := List.head?_eq_some_iff.mp h
  exact ⟨rest.map IdTree.val, by rw [hshelf, List.map_cons]⟩

/-- The walk over nodes is the walk over places. -/
theorem walk_eq (ht : root.ids.Nodup) (components : List Name)
    (h : root.front? VfsEntry.name place = some current) :
    walk root current components =
      (Archive.walk (root.shelves VfsEntry.name) place components >>= nodeAt root) := by
  induction components generalizing current place with
  | nil => exact (nodeAt_eq_ok.mpr h).symm
  | cons component rest ih =>
    unfold Archive.walk
    rcases component_cases component with hskip | rfl | hproper
    · rw [walk_skip hskip, if_pos hskip]
      exact ih h
    · have hup : current.id = root.id ↔ place = [] := by
        have hroot : root ∈ IdTree.shelf VfsEntry.name [root] [] := List.mem_singleton_self root
        constructor
        · exact fun hid => IdTree.path_unique (.singleton ht) (IdTree.front?_mem h) hroot hid
        · rintro rfl
          cases h
          rfl
      have hmoves : ¬ (dotDot = [] ∨ dotDot = dot) := by decide
      rw [walk_dotDot, if_neg hmoves, if_pos rfl]
      by_cases hplace : place = []
      · rw [if_pos (hup.mpr hplace), if_pos hplace]
        rfl
      · rw [if_neg fun hid => hplace (hup.mp hid), if_neg hplace]
        exact ih rfl
    · obtain ⟨hnil, hdot, hdotDot⟩ := hproper
      rw [walk_proper ⟨hnil, hdot, hdotDot⟩, if_neg (by simp [hnil, hdot]), if_neg hdotDot,
        findChild_eq h]
      cases hfront : root.front? VfsEntry.name (place ++ [component]) with
      | none =>
        rw [if_pos ((shelves_eq_nil_iff _).mpr hfront)]
        rfl
      | some next =>
        have hne : root.shelves VfsEntry.name (place ++ [component]) ≠ [] := fun hnil => by
          have hnone := (shelves_eq_nil_iff _).mp hnil
          rw [hfront] at hnone
          cases hnone
        rw [if_neg hne]
        exact ih hfront

/-- A walk over places ends where something stands. -/
theorem walk_stands {s : Shelves Name VfsEntry} {components : List Name} {place' : List Name}
    (hroot : s [] ≠ []) (hplace : s place ≠ [])
    (h : Archive.walk s place components = .ok place') : s place' ≠ [] := by
  induction components generalizing place with
  | nil =>
    cases h
    exact hplace
  | cons component rest ih =>
    unfold Archive.walk at h
    split_ifs at h with hskip hup hstart hgone
    · exact ih hplace h
    · exact ih hroot h
    · exact ih hgone h

end Places

namespace VfsAdapter

variable {self : VfsAdapter} {path : List UInt8}

theorem resolve_eq (self : VfsAdapter) (path : List UInt8) :
    self.tree.resolve path = (self.archive.resolve path >>= nodeAt self.tree.root) := by
  unfold VfsTree.resolve Archive.resolve
  split_ifs
  · exact walk_eq self.tree.nodup _ rfl
  · rfl

theorem parentOf_eq (self : VfsAdapter) (path : List UInt8) :
    self.tree.parentOf path = (self.archive.placeOf path >>= nodeAt self.tree.root) := by
  unfold VfsTree.parentOf Archive.placeOf
  dsimp only
  split_ifs
  · rfl
  · exact resolve_eq self _

theorem exists_of_placeOf {place : List Name} (h : self.archive.placeOf path = .ok place) :
    ∃ parent, self.tree.root.front? VfsEntry.name place = some parent := by
  have hroot : self.archive.shelves [] ≠ [] := by
    intro hnil
    have hnone := (shelves_eq_nil_iff []).mp hnil
    cases hnone
  have hstands : self.archive.shelves place ≠ [] := by
    unfold Archive.placeOf Archive.resolve at h
    dsimp only at h
    split_ifs at h
    · cases h
      exact hroot
    · exact walk_stands hroot hroot h
  exact Option.ne_none_iff_exists'.mp fun hnone => hstands ((shelves_eq_nil_iff place).mpr hnone)

/-! What becomes of the store when the parts of a call run. -/

section Archived

variable {α β : Type}

theorem archived_get (f : VfsAdapter → Proc VfsAdapter VfsError α) (self : VfsAdapter) :
    archived ((Proc.get >>= f) self) = archived (f self self) := rfl

theorem archived_modify (g : VfsAdapter → VfsAdapter) (f : Unit → Proc VfsAdapter VfsError α)
    (self : VfsAdapter) : archived ((Proc.modify g >>= f) self) = archived (f () (g self)) := rfl

theorem archived_lift (x : Outcome VfsError β) (f : β → Proc VfsAdapter VfsError α)
    (self : VfsAdapter) :
    archived ((Proc.lift x >>= f) self) = (x >>= fun b => archived (f b self)) := by
  cases x <;> rfl

theorem archived_ite (c : Prop) [Decidable c] (e : VfsError) (x : Proc VfsAdapter VfsError α)
    (self : VfsAdapter) :
    archived ((if c then Proc.fail e else x) self) = if c then .err e else archived (x self) := by
  split_ifs <;> rfl

end Archived

/-- A node that is hung below the front of a place is put on its shelf. -/
theorem shelves_addChild {place : List Name} {parent : VfsNode}
    (hparent : self.tree.root.front? VfsEntry.name place = some parent) (entry : VfsEntry) :
    (self.tree.addChild parent.id entry).root.shelves VfsEntry.name =
      (self.tree.root.shelves VfsEntry.name).put (place ++ [entry.name]) entry :=
  IdTree.shelves_append self.tree.nodup hparent rfl

/-- The last part of a call that creates a node: the node is made and hung below its parent. -/
theorem addChild_archived {place : List Name} {parent : VfsNode} {α : Type} (mem : Memory)
    (entry : VfsEntry) (f : ℕ → Proc VfsAdapter VfsError α) (g : Archive → Outcome VfsError Archive)
    (hrest : archived (f self.tree.next { self with
      tree := self.tree.addChild parent.id entry }) =
        g { self.archive with
          shelves := self.archive.shelves.put (place ++ [entry.name]) entry })
    (hcreated : mem.created = true) :
    archived ((addChild mem parent entry >>= f) self) = (self.archive.put mem place entry >>= g) := by
  unfold Archive.put
  by_cases happended : mem.appended = true
  · rw [if_pos ⟨hcreated, happended⟩, Outcome.ok_bind,
      Proc.bind_of_ok (addChild_run.trans (if_pos happended))]
    exact hrest
  · rw [if_neg fun h => happended h.2, Outcome.err_bind,
      Proc.bind_of_err (addChild_run.trans (if_neg happended))]
    rfl

theorem put_of_not_created (a : Archive) {mem : Memory} (h : ¬ mem.created = true)
    (place : List Name) (entry : VfsEntry) : a.put mem place entry = .err .outOfMemory :=
  if_neg fun hmem => h hmem.1

theorem createFile_archived (self : VfsAdapter) (mem : Memory) (path : List UInt8) (data : Bytes) :
    archived (createFile mem path data self) = self.archive.createFile path mem data := by
  unfold createFile Archive.createFile
  simp only [archived_get, archived_ite, archived_lift]
  refine if_congr Iff.rfl rfl (if_congr Iff.rfl rfl ?_)
  change (add self.totalSize data.val.length >>= _) = (add self.totalSize data.val.length >>= _)
  cases htotal : (add self.totalSize data.val.length : Outcome VfsError ℕ) with
  | err e => rfl
  | trap f => rfl
  | ok total =>
    rw [Outcome.ok_bind, Outcome.ok_bind]
    refine if_congr Iff.rfl rfl (if_congr Iff.rfl rfl ?_)
    rw [parentOf_eq]
    cases hplace : self.archive.placeOf path with
    | err e => rfl
    | trap f => rfl
    | ok place =>
      obtain ⟨parent, hparent⟩ := exists_of_placeOf hplace
      rw [Outcome.ok_bind, Outcome.ok_bind, nodeAt_eq_ok.mpr hparent, Outcome.ok_bind]
      unfold VfsNode.init
      by_cases hcreated : mem.created = true
      · rw [if_pos hcreated, Outcome.ok_bind]
        refine addChild_archived mem (fileEntry path data) _ _ ?_ hcreated
        have hshelves := shelves_addChild hparent (fileEntry path data)
        simp only [archived_lift, archived_modify]
        change (add self.fileCount 1 >>= _) = (add self.fileCount 1 >>= _)
        cases (add self.fileCount 1 : Outcome VfsError ℕ) with
        | err e => rfl
        | trap f => rfl
        | ok count =>
          rw [Outcome.ok_bind, Outcome.ok_bind, Outcome.ok_bind]
          unfold archive at hshelves ⊢
          exact congrArg (fun shelves => Outcome.ok ({
            shelves := shelves
            config := self.config
            totalSize := total
            fileCount := count } : Archive)) hshelves
      · rw [if_neg hcreated, put_of_not_created _ hcreated]
        rfl

theorem createDir_archived (self : VfsAdapter) (mem : Memory) (path : List UInt8) :
    archived (createDir mem path self) = self.archive.createDir path mem := by
  unfold createDir Archive.createDir
  simp only [archived_get, archived_ite, archived_lift]
  refine if_congr Iff.rfl rfl ?_
  rw [parentOf_eq]
  cases hplace : self.archive.placeOf path with
  | err e => rfl
  | trap f => rfl
  | ok place =>
    obtain ⟨parent, hparent⟩ := exists_of_placeOf hplace
    rw [Outcome.ok_bind, Outcome.ok_bind, nodeAt_eq_ok.mpr hparent, Outcome.ok_bind]
    unfold VfsNode.init
    by_cases hcreated : mem.created = true
    · rw [if_pos hcreated, Outcome.ok_bind, addChild_run]
      have hshelves := shelves_addChild hparent (dirEntry path)
      unfold Archive.put
      by_cases happended : mem.appended = true
      · have hmem : mem.created = true ∧ mem.appended = true := ⟨hcreated, happended⟩
        rw [if_pos hmem, if_pos happended]
        exact congrArg (fun shelves => Outcome.ok { self.archive with shelves := shelves }) hshelves
      · rw [if_neg happended, if_neg fun h : mem.created = true ∧ _ => happended h.2]
        rfl
    · rw [if_neg hcreated, put_of_not_created _ hcreated]
      rfl

/-- The first child with the name, behind those that have other names. -/
theorem Doomed.split {parent child : VfsNode} {i : ℕ}
    (h : Doomed self.tree path parent child i) : ∃ l r, parent.children = l ++ child :: r ∧
      l.length = i ∧ child.val.name = Path.basename path ∧
      ∀ c ∈ l, c.val.name ≠ Path.basename path := by
  obtain ⟨hname, before, after, hsplit, hbefore⟩ := List.find?_eq_some_iff_append.mp h.found
  have hchildren := congrArg (List.map Prod.fst) hsplit
  rw [List.zipIdx_map_fst, List.map_append, List.map_cons] at hchildren
  have hindex : parent.children.zipIdx[before.length]? = some (child, i) := by
    rw [hsplit, List.getElem?_append_right le_rfl, Nat.sub_self]
    rfl
  rw [List.getElem?_zipIdx] at hindex
  obtain ⟨c, -, hc⟩ := Option.map_eq_some_iff.mp hindex
  refine ⟨before.map Prod.fst, after.map Prod.fst, hchildren, ?_, of_decide_eq_true hname, ?_⟩
  · rw [List.length_map, ← (Prod.mk.inj hc).2, Nat.zero_add]
  · intro c hc hcname
    obtain ⟨x, hx, rfl⟩ := List.mem_map.mp hc
    have hne := hbefore x hx
    simp [hcname] at hne

theorem deleteFile_archived {self : VfsAdapter} (htidy : self.tree.root.Tidy VfsEntry.name)
    (path : List UInt8) : archived (deleteFile path self) = self.archive.deleteFile path := by
  unfold deleteFile Archive.deleteFile
  simp only [archived_get, archived_ite, archived_lift]
  refine if_congr Iff.rfl rfl ?_
  have hparentOf := parentOf_eq self path
  cases hplace : self.archive.placeOf path with
  | err e =>
    rw [hparentOf, hplace]
    rfl
  | trap f =>
    rw [hparentOf, hplace]
    rfl
  | ok place =>
    obtain ⟨parent, hfront⟩ := exists_of_placeOf hplace
    rw [hplace, Outcome.ok_bind, nodeAt_eq_ok.mpr hfront] at hparentOf
    rw [hparentOf, Outcome.ok_bind, Outcome.ok_bind]
    have hshelf : self.archive.shelves (place ++ [Path.basename path]) =
        (parent.children.filter fun c => c.val.name = Path.basename path).map IdTree.val :=
      congrArg (List.map IdTree.val) (IdTree.front?_concat hfront _)
    cases hfind : parent.children.zipIdx.find? fun entry =>
        entry.1.val.name = Path.basename path with
    | none =>
      have hnone : VfsNode.findChild parent (Path.basename path) = none := by
        unfold VfsNode.findChild
        rw [← List.zipIdx_map_fst 0 parent.children, List.find?_map]
        exact congrArg (Option.map Prod.fst) hfind
      have hempty : (parent.children.filter fun c => c.val.name = Path.basename path) = [] := by
        rw [← List.head?_eq_none_iff, List.head?_filter]
        exact hnone
      rw [hshelf, hempty]
      rfl
    | some found =>
      obtain ⟨child, i⟩ := found
      obtain ⟨l, r, hsplit, rfl, hname, hl⟩ := Doomed.split ⟨hparentOf, hfind⟩
      have hfirst : (parent.children.filter fun c => c.val.name = Path.basename path) =
          child :: r.filter fun c => c.val.name = Path.basename path := by
        have hnone : (l.filter fun c => c.val.name = Path.basename path) = [] :=
          List.filter_eq_nil_iff.mpr fun c hc => by simpa using hl c hc
        rw [hsplit, List.filter_append, hnone, List.nil_append,
          List.filter_cons_of_pos (by simpa using hname)]
      have hcut := IdTree.shelves_removeChild self.tree.nodup htidy hfront hsplit
        fun c hc => by rw [hname]; exact hl c hc
      rw [hname] at hcut
      rw [hshelf, hfirst, List.map_cons]
      simp only [archived_lift, archived_modify]
      change (sub self.totalSize child.val.size >>= _) = (sub self.totalSize child.val.size >>= _)
      cases (sub self.totalSize child.val.size : Outcome VfsError ℕ) with
      | err e => rfl
      | trap f => rfl
      | ok total =>
        rw [Outcome.ok_bind, Outcome.ok_bind]
        change (sub self.fileCount 1 >>= _) = (sub self.fileCount 1 >>= _)
        cases (sub self.fileCount 1 : Outcome VfsError ℕ) with
        | err e => rfl
        | trap f => rfl
        | ok count =>
          exact congrArg (fun shelves => Outcome.ok ({
            shelves := shelves
            config := self.config
            totalSize := total
            fileCount := count } : Archive)) hcut

/-- Every call answers as on the store, and leaves the store that the call on it leaves. -/
theorem call_eq {self : VfsAdapter} (htidy : self.tree.root.Tidy VfsEntry.name) (op : VfsOp) :
    self.call op = self.archive.call op := by
  cases op with
  | createFile mem path data => exact createFile_archived self mem path data
  | deleteFile path => exact deleteFile_archived htidy path
  | createDir mem path => exact createDir_archived self mem path

/-- What a path leads to is the entry that the store has in front there. -/
theorem resolve_val (self : VfsAdapter) (path : List UInt8) :
    (do let node ← self.tree.resolve path; pure node.val) = self.archive.entryAt path := by
  unfold Archive.entryAt
  rw [resolve_eq]
  cases self.archive.resolve path with
  | err e => rfl
  | trap f => rfl
  | ok place =>
    rw [Outcome.ok_bind, Outcome.ok_bind]
    cases hfront : self.tree.root.front? VfsEntry.name place with
    | none =>
      have hnil : self.archive.shelves place = [] := (shelves_eq_nil_iff place).mpr hfront
      unfold nodeAt
      rw [hfront, hnil]
      rfl
    | some node =>
      obtain ⟨rest, hrest⟩ := shelves_of_front? hfront
      have hcons : self.archive.shelves place = node.val :: rest := hrest
      rw [nodeAt_eq_ok.mpr hfront, hcons]
      rfl

theorem readFile_archive (self : VfsAdapter) (path : List UInt8) :
    self.readFile path = self.archive.readFile path := by
  unfold readFile Archive.readFile
  rw [← resolve_val]
  cases self.tree.resolve path <;> rfl

theorem checkPermission_archive (self : VfsAdapter) (path : List UInt8) (uid gid mode : UInt32) :
    self.checkPermission path uid gid mode = self.archive.checkPermission path uid gid mode := by
  unfold checkPermission Archive.checkPermission
  rw [← resolve_val]
  cases self.tree.resolve path with
  | err e => rfl
  | trap f => rfl
  | ok node =>
    have hzero : mode <<< (0 : UInt32) = mode := by simp
    change (if uid = 0 then _ else _) = (if uid = 0 then _ else _)
    unfold VfsEntry.shift
    split_ifs
    · rfl
    · rfl
    · rfl
    · rw [hzero]

/-! Runs. -/

theorem settle_archived {α : Type} {x : Outcome VfsError α × VfsAdapter}
    (herr : ∀ e, x.1 = .err e → x.2 = self) :
    (settle x).map archive = match archived x with
      | .ok b => some b
      | .err _ => some self.archive
      | .trap _ => none := by
  obtain ⟨r, self'⟩ := x
  cases r with
  | ok a => rfl
  | err e =>
    cases herr e rfl
    rfl
  | trap f => rfl

theorem step_eq {self : VfsAdapter} (htidy : self.tree.root.Tidy VfsEntry.name) (op : VfsOp) :
    (self.step op).map archive = self.archive.step op := by
  unfold Archive.step
  rw [← call_eq htidy op]
  cases op with
  | createFile mem path data =>
    refine settle_archived fun e he => ?_
    rcases createFile_cases (Prod.eta (createFile mem path data self)).symm with
      ⟨_, -, hs⟩ | ⟨f, hf⟩ | ⟨hok, -⟩
    · exact hs
    · rw [he] at hf
      cases hf
    · rw [he] at hok
      cases hok
  | deleteFile path =>
    refine settle_archived fun e he => ?_
    rcases deleteFile_cases (Prod.eta (deleteFile path self)).symm with
      ⟨_, -, hs, -⟩ | ⟨_, _, _, -, -, ⟨hf, -⟩ | ⟨hok, -⟩⟩
    · exact hs
    · rw [he] at hf
      cases hf
    · rw [he] at hok
      cases hok
  | createDir mem path =>
    refine settle_archived fun e he => ?_
    rcases createDir_cases (Prod.eta (createDir mem path self)).symm with
      ⟨_, -, hs⟩ | ⟨f, hf⟩ | ⟨hok, -⟩
    · exact hs
    · rw [he] at hf
      cases hf
    · rw [he] at hok
      cases hok

/-- A node hangs below the front of its directory's place, so no namesake behind a front ever gets
children. -/
theorem tidy_step {self self' : VfsAdapter} {op : VfsOp}
    (h : self.tree.root.Tidy VfsEntry.name) (hs : self.step op = some self') :
    self'.tree.root.Tidy VfsEntry.name := by
  have hadd : ∀ path parent, self.tree.parentOf path = .ok parent → ∀ entry,
      (self.tree.addChild parent.id entry).root.Tidy VfsEntry.name := by
    intro path parent hparent entry
    rw [parentOf_eq] at hparent
    obtain ⟨place, -, hnode⟩ := Outcome.bind_eq_ok.mp hparent
    exact h.append self.tree.nodup (nodeAt_eq_ok.mp hnode) rfl
  rcases step_cases hs with rfl | ⟨_, path, data, -, -, -, -, parent, hparent, rfl⟩ |
    ⟨_, path, -, -, parent, hparent, rfl⟩ | ⟨path, parent, child, i, -, hdoomed, -, -, -, rfl⟩
  · exact h
  · exact hadd path parent hparent _
  · exact hadd path parent hparent _
  · obtain ⟨l, r, hsplit, rfl, hname, hl⟩ := hdoomed.split
    have hparent := hdoomed.parent_eq
    rw [parentOf_eq] at hparent
    obtain ⟨place, -, hnode⟩ := Outcome.bind_eq_ok.mp hparent
    exact h.removeChild self.tree.nodup (nodeAt_eq_ok.mp hnode) hsplit fun c hc => by
      rw [hname]
      exact hl c hc

end VfsAdapter

/-- An empty store: its root. -/
def Archive.init (config : VfsSandboxConfig) : Archive where
  shelves place := if place = [] then [(VfsAdapter.init config).tree.root.val] else []
  config := config
  totalSize := 0
  fileCount := 0

namespace VfsAdapter

theorem shelf_init (config : VfsSandboxConfig) (k : Name) (place : List Name) :
    IdTree.shelf VfsEntry.name [(init config).tree.root] (k :: place) = [] := by
  induction place using List.reverseRecOn with
  | nil => rfl
  | append_singleton place k' ih =>
    rw [← List.cons_append, IdTree.shelf_concat, ih]
    rfl

theorem archive_init (config : VfsSandboxConfig) : (init config).archive = .init config := by
  unfold archive Archive.init
  congr 1
  funext place
  cases place with
  | nil => rfl
  | cons k place =>
    rw [if_neg (List.cons_ne_nil k place)]
    exact congrArg (List.map IdTree.val) (shelf_init config k place)

theorem tidy_init (config : VfsSandboxConfig) : (init config).tree.root.Tidy VfsEntry.name := by
  intro place c hc
  cases place with
  | nil => cases hc
  | cons k place =>
    rw [shelf_init] at hc
    cases hc

/-- The adapter refines the store: from a new adapter every run of calls leaves what the same run
leaves of an empty store, it traps where that one does, and in between every call, every read and
every permission check answers as on the store. -/
theorem adapter_refines (config : VfsSandboxConfig) (ops : List VfsOp) :
    (Run.run step (init config) ops).map archive = Run.run Archive.step (.init config) ops ∧
      ∀ self, Run.run step (init config) ops = some self →
        (∀ op, self.call op = self.archive.call op) ∧
          (∀ path, self.readFile path = self.archive.readFile path) ∧
          ∀ path uid gid mode, self.checkPermission path uid gid mode =
            self.archive.checkPermission path uid gid mode := by
  constructor
  · rw [← archive_init]
    exact Run.map_run (I := fun self => self.tree.root.Tidy VfsEntry.name) archive
      (fun self op htidy => step_eq htidy op) (fun _ _ _ htidy hs => tidy_step htidy hs)
      (tidy_init config)
  · intro self hr
    have htidy := Run.invariant_of_run (I := fun self => self.tree.root.Tidy VfsEntry.name)
      (fun _ _ _ h hs => tidy_step h hs) (tidy_init config) hr
    exact ⟨call_eq htidy, readFile_archive self, checkPermission_archive self⟩

theorem adapter_refines_namesakes : ∃ self,
    Run.run step (init {}) [.createFile {} filePath noData, .createFile {} filePath oneByte,
        .deleteFile filePath] = some self ∧
      self.readFile filePath = .ok [120] ∧ self.archive.readFile filePath = .ok [120] := by
  have hrun : (Run.run step (init {}) [.createFile {} filePath noData,
      .createFile {} filePath oneByte, .deleteFile filePath]).isSome := by decide +kernel
  obtain ⟨self, hself⟩ := Option.isSome_iff_exists.mp hrun
  obtain ⟨hfinal, hreads⟩ := adapter_refines {} [.createFile {} filePath noData,
    .createFile {} filePath oneByte, .deleteFile filePath]
  have hread : self.readFile filePath = self.archive.readFile filePath :=
    (hreads self hself).2.1 filePath
  rw [hself] at hfinal
  have harchive : self.archive.readFile filePath = .ok [120] := by
    have hstore := congrArg (Option.map fun a => a.readFile filePath) hfinal
    exact Option.some.inj (hstore.trans (by decide +kernel))
  exact ⟨self, hself, hread.trans harchive, harchive⟩

end VfsAdapter
end LingNet.Vfs
