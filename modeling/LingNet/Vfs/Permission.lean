import LingNet.Vfs.Adapter
import Mathlib.Data.Nat.Bitwise

/-! The permission check, and how the rights of a node answer a request for several bits. -/
namespace LingNet.Vfs
open Zig

def VfsAdapter.checkPermission (self : VfsAdapter) (path : List UInt8) (uid gid mode : UInt32) :
    Outcome VfsError Bool := do
  let node ← self.tree.resolve path
  if uid = 0 then pure true
  else
    let perms := node.val.permissions
    if node.val.owner = uid then pure (decide (perms &&& (mode <<< 6) ≠ 0))
    else if node.val.group = gid then pure (decide (perms &&& (mode <<< 3) ≠ 0))
    else pure (decide (perms &&& mode ≠ 0))

/-- Where the bits stand that apply to an identity: those of the owner, of the group or of others. -/
def VfsEntry.shift (entry : VfsEntry) (uid gid : UInt32) : UInt32 :=
  if entry.owner = uid then 6 else if entry.group = gid then 3 else 0

/-- The three bits that apply. -/
def VfsEntry.triplet (entry : VfsEntry) (uid gid : UInt32) : UInt32 :=
  (entry.permissions >>> entry.shift uid gid) &&& 7

/-- Read, write and execute. -/
def permissionBits : List UInt32 := [4, 2, 1]

/-- Every bit that is asked for is set. -/
def AllSet (mode triplet : UInt32) : Prop :=
  ∀ bit ∈ permissionBits, mode &&& bit ≠ 0 → triplet &&& bit ≠ 0

/-- No bit that is asked for is set. -/
def NoneSet (mode triplet : UInt32) : Prop :=
  ∀ bit ∈ permissionBits, mode &&& bit ≠ 0 → triplet &&& bit = 0

instance (mode triplet : UInt32) : Decidable (AllSet mode triplet) :=
  List.decidableBAll _ permissionBits

instance (mode triplet : UInt32) : Decidable (NoneSet mode triplet) :=
  List.decidableBAll _ permissionBits

theorem exists_fin_of_lt {a : UInt32} (h : a < 8) : ∃ i : Fin 8, a = UInt32.ofNat i := by
  refine ⟨⟨a.toNat, h⟩, ?_⟩
  simp

/-- The test for any common bit says that every requested bit is set exactly where something is
requested and the answer is the same for all of it. -/
theorem and_ne_zero_iff_allSet {mode triplet : UInt32} (hmode : mode < 8) (htriplet : triplet < 8) :
    (triplet &&& mode ≠ 0 ↔ AllSet mode triplet) ↔
      mode ≠ 0 ∧ (AllSet mode triplet ∨ NoneSet mode triplet) := by
  obtain ⟨i, rfl⟩ := exists_fin_of_lt hmode
  obtain ⟨j, rfl⟩ := exists_fin_of_lt htriplet
  revert i j
  decide

theorem and_shiftLeft (x m k : ℕ) : x &&& (m <<< k) = ((x >>> k) &&& m) <<< k := by
  apply Nat.eq_of_testBit_eq
  intro i
  by_cases h : k ≤ i
  · have hi : k + (i - k) = i := by omega
    simp [Nat.testBit_shiftLeft, Nat.testBit_shiftRight, h, hi]
  · simp [Nat.testBit_shiftLeft, h]

/-- A shifted request meets the permissions exactly where it meets the triplet. -/
theorem and_shiftLeft_eq_zero_iff (perms : UInt32) (k : Fin 7) {mode : UInt32} (hmode : mode < 8) :
    perms &&& (mode <<< UInt32.ofNat k) = 0 ↔
      ((perms >>> UInt32.ofNat k) &&& 7) &&& mode = 0 := by
  have hseven : (7 : UInt32) &&& mode = mode := by
    obtain ⟨i, rfl⟩ := exists_fin_of_lt hmode
    revert i
    decide
  have hk : (UInt32.ofNat k).toNat % 32 = k := by
    revert k
    decide
  have hwide : mode.toNat <<< k.val < 2 ^ 32 := by
    have hlt : mode.toNat < 2 ^ 3 := hmode
    have hpow : 2 ^ k.val ≤ 2 ^ 6 := Nat.pow_le_pow_right (by omega) (by omega)
    rw [Nat.shiftLeft_eq]
    calc mode.toNat * 2 ^ k.val ≤ 2 ^ 3 * 2 ^ 6 := Nat.mul_le_mul hlt.le hpow
      _ < 2 ^ 32 := by decide
  have hleft : (mode <<< UInt32.ofNat k).toNat = mode.toNat <<< k.val := by
    rw [UInt32.toNat_shiftLeft, hk, Nat.mod_eq_of_lt hwide]
  rw [UInt32.and_assoc, hseven, ← UInt32.toNat_inj, ← UInt32.toNat_inj, UInt32.toNat_and,
    UInt32.toNat_and, hleft, UInt32.toNat_shiftRight, hk, and_shiftLeft, Nat.shiftLeft_eq]
  simp

/-- What the check answers for a path that resolves. -/
theorem checkPermission_eq {self : VfsAdapter} {path : List UInt8} {node : VfsNode}
    (hresolve : self.tree.resolve path = .ok node) (uid gid : UInt32) {mode : UInt32}
    (hmode : mode < 8) :
    self.checkPermission path uid gid mode =
      .ok (decide (uid = 0 ∨ node.val.triplet uid gid &&& mode ≠ 0)) := by
  unfold VfsAdapter.checkPermission VfsEntry.triplet VfsEntry.shift
  rw [hresolve, Outcome.ok_bind]
  by_cases hroot : uid = 0
  · simp [hroot]
  · let perms := node.val.permissions
    have howner : perms &&& (mode <<< 6) = 0 ↔ ((perms >>> 6) &&& 7) &&& mode = 0 :=
      and_shiftLeft_eq_zero_iff perms 6 hmode
    have hgroup : perms &&& (mode <<< 3) = 0 ↔ ((perms >>> 3) &&& 7) &&& mode = 0 :=
      and_shiftLeft_eq_zero_iff perms 3 hmode
    have hother : perms &&& mode = 0 ↔ ((perms >>> 0) &&& 7) &&& mode = 0 := by
      simpa using and_shiftLeft_eq_zero_iff perms 0 hmode
    split_ifs
    · simp [hroot, perms, howner]
    · simp [hroot, perms, hgroup]
    · simp only [hroot, false_or, ne_eq, ← hother, perms]
      rfl

/-- The check is right about a path that resolves exactly for the root user, and where something is
requested and all of it is answered alike. -/
theorem checkPermission_right_iff {self : VfsAdapter} {path : List UInt8} {node : VfsNode}
    (hresolve : self.tree.resolve path = .ok node) (uid gid : UInt32) {mode : UInt32}
    (hmode : mode < 8) :
    (self.checkPermission path uid gid mode = .ok true ↔
        uid = 0 ∨ AllSet mode (node.val.triplet uid gid)) ↔
      uid = 0 ∨ mode ≠ 0 ∧
        (AllSet mode (node.val.triplet uid gid) ∨ NoneSet mode (node.val.triplet uid gid)) := by
  have htriplet : node.val.triplet uid gid < 8 := by
    apply UInt32.lt_iff_toNat_lt.mpr
    unfold VfsEntry.triplet
    rw [UInt32.toNat_and]
    exact Nat.lt_succ_of_le Nat.and_le_right
  rw [checkPermission_eq hresolve uid gid hmode, ← and_ne_zero_iff_allSet hmode htriplet]
  by_cases hroot : uid = 0
  · simp [hroot]
  · simp [hroot]

/-- Others may read and execute the root directory of a new adapter. -/
theorem checkPermission_root_right :
    ((VfsAdapter.init {}).checkPermission [Path.slash] 1 1 5 = .ok true ↔
        (1 : UInt32) = 0 ∨ AllSet 5 ((VfsAdapter.init {}).tree.root.val.triplet 1 1)) ↔
      (1 : UInt32) = 0 ∨ (5 : UInt32) ≠ 0 ∧
        (AllSet 5 ((VfsAdapter.init {}).tree.root.val.triplet 1 1) ∨
          NoneSet 5 ((VfsAdapter.init {}).tree.root.val.triplet 1 1)) := by
  have hresolve : (VfsAdapter.init {}).tree.resolve [Path.slash] =
      .ok (VfsAdapter.init {}).tree.root := rfl
  exact checkPermission_right_iff hresolve 1 1 (by decide)

/-- The same user asks to read and write: the right to write is missing, and the check says yes. -/
theorem checkPermission_root_wrong :
    (VfsAdapter.init {}).checkPermission [Path.slash] 1 1 6 = .ok true ∧ (1 : UInt32) ≠ 0 ∧
      ¬ AllSet 6 ((VfsAdapter.init {}).tree.root.val.triplet 1 1) := by
  refine ⟨rfl, by decide, by decide⟩

end LingNet.Vfs
