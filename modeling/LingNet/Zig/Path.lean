import Mathlib.Data.List.DropRight
import Mathlib.Data.Nat.Notation

/-! Paths as byte strings: `std.fs.path` for slashes, and `std.mem.splitSequence` at them. -/
namespace Zig.Path

def slash : UInt8 := 47

/-- The path without the slashes at its end. -/
def trim (path : List UInt8) : List UInt8 := path.rdropWhile (· = slash)

def basename (path : List UInt8) : List UInt8 := (trim path).rtakeWhile (· ≠ slash)

/-- What stands before the base name, with its last slash. -/
def leading (path : List UInt8) : List UInt8 := (trim path).rdropWhile (· ≠ slash)

def dirname (path : List UInt8) : Option (List UInt8) :=
  match leading path with
  | [] => none
  | [_] => some [slash]
  | dir => some dir.dropLast

/-- `.` -/
def extensionDot : UInt8 := 46

/-- The base name without its extension. A base name that is all extension gives the whole path. -/
def stem (path : List UInt8) : List UInt8 :=
  match (basename path).rdropWhile (· ≠ extensionDot) with
  | [] => basename path
  | [_] => path
  | front => front.dropLast

/-- The components between the slashes, empty ones included. -/
def split (path : List UInt8) : List (List UInt8) := path.splitOn slash

def Absolute (path : List UInt8) : Prop := [slash] <+: path

instance (path : List UInt8) : Decidable (Absolute path) := inferInstanceAs (Decidable (_ <+: _))

example : dirname [47, 97, 47, 98] = some [47, 97] ∧ basename [47, 97, 47, 98] = [98] := by decide

example : dirname [47, 97] = some [47] ∧ dirname [97, 47] = none ∧ dirname [47, 47] = none := by
  decide

example : stem [47, 97, 46, 98] = [97] ∧ stem [97, 47, 98] = [98] ∧ stem [46, 98] = [46, 98] := by
  decide

theorem slash_notMem_basename (path : List UInt8) : slash ∉ basename path := by
  intro h
  have hne := List.mem_rtakeWhile_imp h
  simp at hne

theorem leading_append_basename (path : List UInt8) : leading path ++ basename path = trim path :=
  List.rdropWhile_append_rtakeWhile ..

/-- A path ends in slashes behind its base name. -/
theorem exists_slashes (path : List UInt8) :
    ∃ k, path = leading path ++ basename path ++ List.replicate k slash := by
  refine ⟨(path.rtakeWhile (· = slash)).length, ?_⟩
  rw [leading_append_basename]
  have htail : List.replicate (path.rtakeWhile (· = slash)).length slash =
      path.rtakeWhile (· = slash) := by
    symm
    refine List.eq_replicate_of_mem fun b hb => ?_
    simpa using List.mem_rtakeWhile_imp hb
  rw [htail]
  exact (List.rdropWhile_append_rtakeWhile ..).symm

/-- The leading part is empty or ends in a slash. -/
theorem leading_eq (path : List UInt8) :
    leading path = [] ∨ ∃ dir, leading path = dir ++ [slash] := by
  by_cases hne : leading path = []
  · exact .inl hne
  · right
    have hlast : (leading path).getLast hne = slash := by
      have hnot := List.rdropWhile_last_not (fun b => decide (b ≠ slash)) (trim path) hne
      exact not_not.mp fun h => hnot (decide_eq_true h)
    exact ⟨(leading path).dropLast, by rw [← hlast, List.dropLast_concat_getLast]⟩

theorem split_append_slash (a b : List UInt8) : split (a ++ slash :: b) = split a ++ split b :=
  List.splitOn_append_cons_self a b

theorem split_replicate (k : ℕ) : split (List.replicate k slash) = List.replicate (k + 1) [] := by
  induction k with
  | zero => rfl
  | succ k ih => exact (split_append_slash [] _).trans (congrArg ([[]] ++ ·) ih)

theorem split_of_notMem {a : List UInt8} (h : slash ∉ a) : split a = [a] :=
  List.splitOn_eq_singleton h

/-- A component followed by slashes. -/
theorem split_append_replicate {a : List UInt8} (h : slash ∉ a) (k : ℕ) :
    split (a ++ List.replicate k slash) = a :: List.replicate k [] := by
  cases k with
  | zero => rw [List.replicate_zero, List.append_nil, split_of_notMem h]; rfl
  | succ k => rw [List.replicate_succ, split_append_slash, split_of_notMem h, split_replicate]; rfl

/-- The components of an absolute path that name something. -/
def components (path : List UInt8) : List (List UInt8) :=
  (split path.tail).filter fun c => c ≠ []

theorem filter_split_append {b : List UInt8} (hslash : slash ∉ b) (hb : b ≠ [])
    (k : ℕ) : (split (b ++ List.replicate k slash)).filter (fun c => c ≠ []) = [b] := by
  rw [split_append_replicate hslash]
  simp [hb]

/-- The components of a path are those of the directory and the base name. -/
theorem components_eq {path : List UInt8} (habs : Absolute path) (hbase : basename path ≠ []) :
    components path = components ((dirname path).getD [slash]) ++ [basename path] := by
  obtain ⟨k, hpath⟩ := exists_slashes path
  obtain ⟨rest, hrest⟩ := habs
  have hslash := slash_notMem_basename path
  have hlast := filter_split_append hslash hbase k
  have hhead : path.head? = some slash := by rw [← hrest]; rfl
  unfold dirname
  generalize basename path = b at *
  rcases leading_eq path with hnil | ⟨dir, hdir⟩
  · -- the first slash would belong to the base name
    rw [hpath, hnil, List.nil_append] at hhead
    cases b with
    | nil => exact absurd rfl hbase
    | cons c b =>
      cases hhead
      exact absurd List.mem_cons_self hslash
  · rw [hdir] at hpath
    rw [hdir]
    unfold components
    cases dir with
    | nil =>
      rw [hpath]
      exact hlast
    | cons c dir =>
      have hdirname : (c :: dir ++ [slash]).dropLast = c :: dir := List.dropLast_concat
      have htail : path.tail = dir ++ slash :: (b ++ List.replicate k slash) := by
        rw [hpath]
        simp
      rw [htail, split_append_slash, List.filter_append, hlast]
      cases dir with
      | nil => rfl
      | cons d dir =>
        change _ = List.filter _ (split (c :: d :: dir ++ [slash]).dropLast.tail) ++ _
        rw [hdirname]
        rfl

/-- A path without a base name has slashes only. -/
theorem leading_of_basename_nil {path : List UInt8} (h : basename path = []) :
    leading path = [] := by
  have htrim := leading_append_basename path
  rw [h, List.append_nil] at htrim
  rcases leading_eq path with hnil | ⟨dir, hdir⟩
  · exact hnil
  · rw [hdir] at htrim
    have hne : trim path ≠ [] := by
      rw [← htrim]
      exact List.concat_ne_nil _ _
    have hnot := List.rdropWhile_last_not (fun b => decide (b = slash)) path hne
    have hlast : (trim path).getLast hne = slash := by
      simp only [← htrim, List.getLast_concat]
    exact absurd (decide_eq_true hlast) hnot

theorem components_of_basename_nil {path : List UInt8} (h : basename path = []) :
    components path = [] := by
  obtain ⟨k, hpath⟩ := exists_slashes path
  rw [leading_of_basename_nil h, h, List.nil_append, List.nil_append] at hpath
  unfold components
  rw [hpath, List.tail_replicate, split_replicate, List.filter_eq_nil_iff]
  intro component hmem
  rw [List.eq_of_mem_replicate hmem]
  simp

theorem absolute_slash : Absolute [slash] := List.prefix_rfl

/-- The directory of an absolute path is absolute. -/
theorem absolute_dirname {path : List UInt8} (habs : Absolute path) :
    Absolute ((dirname path).getD [slash]) := by
  obtain ⟨k, hpath⟩ := exists_slashes path
  obtain ⟨rest, hrest⟩ := habs
  unfold dirname
  rcases leading_eq path with hnil | ⟨dir, hdir⟩
  · rw [hnil]
    exact absolute_slash
  · cases dir with
    | nil =>
      rw [hdir]
      exact absolute_slash
    | cons c dir =>
      have hc : slash = c := by
        have hcons := hrest.trans hpath
        rw [hdir] at hcons
        exact (List.cons.inj hcons).1
      subst hc
      have hdirname : (slash :: dir ++ [slash]).dropLast = slash :: dir := List.dropLast_concat
      rw [hdir]
      cases dir with
      | nil => exact absolute_slash
      | cons d dir =>
        change Absolute (slash :: d :: dir ++ [slash]).dropLast
        rw [hdirname]
        exact ⟨d :: dir, rfl⟩

end Zig.Path
