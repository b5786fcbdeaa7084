import LingNet.Lib.Route
import LingNet.Sandbox.Policy
import LingNet.Zig.Path

/-! Which paths the prefix check lets through. Nothing resolves `..` before the check, so a path may
leave the allowed directory whose name it starts with. -/
namespace LingNet.Sandbox
open Zig.Path

def dot : List UInt8 := [46]

def dotdot : List UInt8 := [46, 46]

/-- One more component behind those that are left so far. -/
def reduce (left : List (List UInt8)) (component : List UInt8) : List (List UInt8) :=
  if component = [] ∨ component = dot then left
  else if component = dotdot then
    match left.getLast? with
    | none => [dotdot]
    | some last => if last = dotdot then left ++ [dotdot] else left.dropLast
  else left ++ [component]

/-- Lexical normalisation: empty components and `.` are dropped, `..` cancels the component before it
or stays at the front. -/
def normalize (path : List UInt8) : List (List UInt8) := (split path).foldl reduce []

/-- A component that names something. -/
abbrev Name := { component : List UInt8 // component ≠ [] ∧ component ≠ dot ∧ component ≠ dotdot }

def stepOf (component : List UInt8) : Route.Step Name :=
  if hstay : component = [] ∨ component = dot then .stay
  else if hup : component = dotdot then .up
  else .down ⟨component, fun h => hstay (.inl h), fun h => hstay (.inr h), hup⟩

/-- Where a path leads from the directory it starts in. -/
def route (path : List UInt8) : Route Name := Route.ofSteps ((split path).map stepOf)

/-- The components of a route, with `..` for each level that it climbs. -/
def components (r : Route Name) : List (List UInt8) :=
  List.replicate r.ups dotdot ++ r.names.map Subtype.val

theorem reduce_components (r : Route Name) (component : List UInt8) :
    reduce (components r) component = components (r.step (stepOf component)) := by
  obtain ⟨ups, names⟩ := r
  unfold reduce stepOf
  by_cases hstay : component = [] ∨ component = dot
  · simp [hstay, Route.step]
  · by_cases hup : component = dotdot
    · subst hup
      simp only [hstay, if_false, dif_neg, not_false_eq_true, if_true, dite_true]
      rcases List.eq_nil_or_concat names with rfl | ⟨names, name, rfl⟩
      · cases ups with
        | zero => rfl
        | succ ups => simp [components, Route.step, List.replicate_succ']
      · have hname := name.2.2.2
        simp [components, Route.step, hname]
    · simp [hstay, hup, Route.step, components]

theorem normalize_eq (path : List UInt8) : normalize path = components (route path) := by
  unfold normalize route Route.ofSteps
  rw [List.foldl_map]
  have hall : ∀ (l : List (List UInt8)) (r : Route Name), l.foldl reduce (components r) =
      components (l.foldl (fun r component => r.step (stepOf component)) r) := by
    intro l
    induction l with
    | nil => exact fun r => rfl
    | cons component l ih =>
      intro r
      rw [List.foldl_cons, List.foldl_cons, reduce_components]
      exact ih _
  exact hall (split path) Route.here

theorem route_dir_append (dir rest : List UInt8) :
    route (dir ++ slash :: rest) = (route dir).comp (route rest) := by
  unfold route
  rw [split_append_slash, List.map_append, Route.ofSteps_append]

theorem route_dir (dir : List UInt8) : route (dir ++ [slash]) = route dir := by
  unfold route
  rw [split_append_slash, List.map_append]
  exact Route.ofSteps_append_stay _

theorem components_comp (r s : Route Name) :
    components (r.comp s) = components (r.climb s.ups) ++ s.names.map Subtype.val := by
  simp [components, Route.comp]

/-- The components lie in one of the allowed directories. -/
def Inside (allowed : List (List UInt8)) (path : List (List UInt8)) : Prop :=
  ∃ dir ∈ allowed, normalize dir <+: path

instance (allowed path : List (List UInt8)) : Decidable (Inside allowed path) :=
  inferInstanceAs (Decidable (∃ dir ∈ allowed, normalize dir <+: path))

/-- The rest of a path behind an allowed directory does not climb out of it, or the directory it
climbs to lies in an allowed one, or it goes down into an allowed one again. -/
def Returns (allowed : List (List UInt8)) (dir rest : List UInt8) : Prop :=
  (route rest).ups = 0 ∨
    Inside allowed (components ((route dir).climb (route rest).ups)) ∨
    ∃ other ∈ allowed, ∃ down, down <+: (route rest).names.map Subtype.val ∧
      normalize other = components ((route dir).climb (route rest).ups) ++ down

theorem prefix_append_iff {α : Type*} {l m n : List α} :
    l <+: m ++ n ↔ l <+: m ∨ ∃ down, down <+: n ∧ l = m ++ down := by
  constructor
  · intro h
    rcases List.prefix_or_prefix_of_prefix h (List.prefix_append m n) with hl | ⟨down, rfl⟩
    · exact .inl hl
    · exact .inr ⟨down, (List.prefix_append_right_inj m).mp h, rfl⟩
  · rintro (h | ⟨down, h, rfl⟩)
    · exact h.trans (List.prefix_append m n)
    · exact (List.prefix_append_right_inj m).mpr h

/-- Behind an allowed directory a path stays inside exactly where its rest returns. -/
theorem inside_iff {allowed : List (List UInt8)} {dir rest : List UInt8}
    (hdir : dir ++ [slash] ∈ allowed) :
    Inside allowed (normalize (dir ++ slash :: rest)) ↔ Returns allowed (dir ++ [slash]) rest := by
  have hself : (route rest).ups = 0 →
      Inside allowed (components ((route dir).climb (route rest).ups)) := by
    intro hups
    have hsame : normalize (dir ++ [slash]) = components ((route dir).climb (route rest).ups) := by
      rw [hups, Route.climb_zero, normalize_eq, route_dir]
    exact ⟨dir ++ [slash], hdir, hsame ▸ List.prefix_rfl⟩
  unfold Returns
  rw [route_dir, normalize_eq, route_dir_append, components_comp]
  constructor
  · rintro ⟨other, hother, hprefix⟩
    rcases prefix_append_iff.mp hprefix with hbase | ⟨down, hdown, heq⟩
    · exact .inr (.inl ⟨other, hother, hbase⟩)
    · exact .inr (.inr ⟨other, hother, down, hdown, heq⟩)
  · rintro (hups | ⟨other, hother, hbase⟩ | ⟨other, hother, down, hdown, heq⟩)
    · obtain ⟨other, hother, hbase⟩ := hself hups
      exact ⟨other, hother, prefix_append_iff.mpr (.inl hbase)⟩
    · exact ⟨other, hother, prefix_append_iff.mpr (.inl hbase)⟩
    · exact ⟨other, hother, prefix_append_iff.mpr (.inr ⟨down, hdown, heq⟩)⟩

theorem grants_file_iff {self : SandboxInstance} {cap : Capability} {path : List UInt8}
    (hlevel : self.policy.level = .landlock ∨ self.policy.level = .full)
    (hcap : cap = .fileRead ∨ cap = .fileWrite) :
    self.checkCapability cap path = .ok () ↔ self.AllowsPath path := by
  rcases hcap with rfl | rfl
  · apply SandboxInstance.grants_fileRead_iff.trans
    rcases hlevel with hlevel | hlevel <;> simp [hlevel]
  · apply SandboxInstance.grants_fileWrite_iff.trans
    rcases hlevel with hlevel | hlevel <;> simp [hlevel, SandboxLevel.toNat]

/-- A file access is confined to the allowed directories exactly where the path, behind each allowed
directory that it starts with, does not leave them for good. -/
theorem file_access_confined_iff (self : SandboxInstance) (cap : Capability) (path : List UInt8)
    (hlevel : self.policy.level = .landlock ∨ self.policy.level = .full)
    (hcap : cap = .fileRead ∨ cap = .fileWrite)
    (hdirs : ∀ allowed ∈ self.policy.allowedPaths, ∃ dir, allowed = dir ++ [slash]) :
    (self.checkCapability cap path = .ok () →
        Inside self.policy.allowedPaths (normalize path)) ↔
      ∀ allowed ∈ self.policy.allowedPaths, allowed <+: path →
        Returns self.policy.allowedPaths allowed (path.drop allowed.length) := by
  rw [grants_file_iff hlevel hcap]
  have hbehind : ∀ allowed ∈ self.policy.allowedPaths, allowed <+: path →
      (Inside self.policy.allowedPaths (normalize path) ↔
        Returns self.policy.allowedPaths allowed (path.drop allowed.length)) := by
    rintro allowed hallowed ⟨rest, rfl⟩
    obtain ⟨dir, rfl⟩ := hdirs allowed hallowed
    rw [List.drop_left, List.append_assoc]
    exact inside_iff hallowed
  constructor
  · intro h allowed hallowed hprefix
    exact (hbehind allowed hallowed hprefix).mp (h ⟨allowed, hallowed, hprefix⟩)
  · rintro h ⟨allowed, hallowed, hprefix⟩
    exact (hbehind allowed hallowed hprefix).mpr (h allowed hallowed hprefix)

/-- The policy of the tests: `skills/` is allowed. -/
def skillsOnly : SandboxInstance where
  policy := { allowedPaths := [[115, 107, 105, 108, 108, 115, 47]] }

/-- Read access to `skills/a`. -/
theorem skillsOnly_confined :
    (skillsOnly.checkCapability .fileRead [115, 107, 105, 108, 108, 115, 47, 97] = .ok () →
        Inside skillsOnly.policy.allowedPaths
          (normalize [115, 107, 105, 108, 108, 115, 47, 97])) ↔
      ∀ allowed ∈ skillsOnly.policy.allowedPaths,
        allowed <+: [115, 107, 105, 108, 108, 115, 47, 97] →
        Returns skillsOnly.policy.allowedPaths allowed
          ([115, 107, 105, 108, 108, 115, 47, 97].drop allowed.length) := by
  apply file_access_confined_iff skillsOnly .fileRead _ (.inr rfl) (.inl rfl)
  intro allowed hallowed
  obtain rfl : allowed = _ := List.mem_singleton.mp hallowed
  exact ⟨[115, 107, 105, 108, 108, 115], rfl⟩

/-- The same policy grants `skills/../etc`. -/
theorem skillsOnly_escapes :
    skillsOnly.checkCapability .fileRead
        [115, 107, 105, 108, 108, 115, 47, 46, 46, 47, 101, 116, 99] = .ok () ∧
      ¬ Inside skillsOnly.policy.allowedPaths
        (normalize [115, 107, 105, 108, 108, 115, 47, 46, 46, 47, 101, 116, 99]) := by
  constructor
  · rfl
  · decide

end LingNet.Sandbox
