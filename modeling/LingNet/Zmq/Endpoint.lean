import Mathlib.Data.Vector.Basic
import LingNet.Zig.Outcome
import LingNet.Zig.ParseInt

/-! The addresses that `bind` and `connect` are given: the text of an endpoint, and the structure
that the parser makes of it. -/
namespace LingNet.Zmq
open Zig

inductive SocketError where
  | socketFailed
  | bindFailed
  | connectFailed
  | sendFailed
  | recvFailed
  | invalidEndpoint
  | outOfMemory
  deriving DecidableEq, Repr

structure SockAddrIn where
  sinFamily : UInt16
  sinPort : UInt16
  sAddr : UInt32
  sinZero : List.Vector UInt8 8

/-- The bytes of a native integer, the low one first. -/
def nativeBytes : ℕ → ℕ → List UInt8
  | 0, _ => []
  | n + 1, v => .ofNat v :: nativeBytes n (v / 256)

def SockAddrIn.bytes (addr : SockAddrIn) : List UInt8 :=
  nativeBytes 2 addr.sinFamily.toNat ++ nativeBytes 2 addr.sinPort.toNat ++
    nativeBytes 4 addr.sAddr.toNat ++ addr.sinZero.val

/-- `@byteSwap` of a `u16`. -/
def byteSwap (v : UInt16) : UInt16 := .ofNat (v.toNat % 256 * 256 + v.toNat / 256)

/-- `mem.lastIndexOfScalar(u8, _, _)` -/
def lastIndexOfScalar (slice : List UInt8) (value : UInt8) : Option ℕ :=
  match slice with
  | [] => none
  | c :: slice =>
    match lastIndexOfScalar slice value with
    | some i => some (i + 1)
    | none => if c = value then some 0 else none

/-- `tcp://` -/
def tcp : List UInt8 := [116, 99, 112, 58, 47, 47]

/-- `linux.AF.INET` -/
def AF_INET : UInt16 := 2

/-- The allocated slice `addr_bytes`: where it is, and what it holds. -/
structure AddrBytes where
  ptr : ℕ
  bytes : List UInt8
  deriving DecidableEq, Repr

def sockAddr (port : ℕ) : SockAddrIn where
  sinFamily := AF_INET
  sinPort := byteSwap (.ofNat port)
  sAddr := 0
  sinZero := .replicate 8 0

/-- `memory` is where the allocator has sixteen bytes, if it has. The text before the last colon is
cut out and dropped. -/
def parseEndpoint (memory : Option ℕ) (endpoint : List UInt8) : Outcome SocketError AddrBytes :=
  if ¬ tcp.isPrefixOf endpoint then .err .invalidEndpoint
  else
    let rest := endpoint.drop 6
    match lastIndexOfScalar rest 58 with
    | none => .err .invalidEndpoint
    | some colonIdx =>
      let portStr := rest.drop (colonIdx + 1)
      match parseInt 16 portStr with
      | none => .err .invalidEndpoint
      | some port =>
        match memory with
        | none => .err .outOfMemory
        | some ptr =>
          -- `@alignCast`
          if ptr % 4 ≠ 0 then .trap .incorrectAlignment
          else .ok ⟨ptr, (sockAddr port).bytes⟩

/-! What an endpoint says. -/

structure Quad where
  a : ℕ
  b : ℕ
  c : ℕ
  d : ℕ
  deriving DecidableEq, Repr

def Quad.any : Quad := ⟨0, 0, 0, 0⟩

def IsOctet (s : List UInt8) (v : ℕ) : Prop := IsDecimal s ∧ decimalValue s = v ∧ v ≤ 255

inductive IsHost : List UInt8 → Quad → Prop where
  | any : IsHost [42] .any
  | quad {sa sb sc sd : List UInt8} {a b c d : ℕ} (ha : IsOctet sa a) (hb : IsOctet sb b)
      (hc : IsOctet sc c) (hd : IsOctet sd d) :
      IsHost (sa ++ 46 :: sb ++ 46 :: sc ++ 46 :: sd) ⟨a, b, c, d⟩

/-- The endpoint is `tcp://HOST:PORT`. -/
def Spells (endpoint : List UInt8) (host : Quad) (port : ℕ) : Prop :=
  ∃ hostStr portStr, endpoint = tcp ++ hostStr ++ 58 :: portStr ∧ IsHost hostStr host ∧
    IsDecimal portStr ∧ decimalValue portStr = port ∧ port ≤ 65535

/-- A `sockaddr_in` with its port and address in network byte order. -/
def networkBytes (host : Quad) (port : ℕ) : List UInt8 :=
  [2, 0] ++ [port / 256, port % 256].map UInt8.ofNat ++
    [host.a, host.b, host.c, host.d].map UInt8.ofNat ++ List.replicate 8 0

/-- The parser accepts the endpoints that are spelled right, and makes of them what they say. -/
def ParsesRight (memory : Option ℕ) (endpoint : List UInt8) : Prop :=
  ((∃ addr, parseEndpoint memory endpoint = .ok addr) ↔
      ∃ host port, Spells endpoint host port) ∧
    ∀ addr host port, parseEndpoint memory endpoint = .ok addr → Spells endpoint host port →
      addr.bytes = networkBytes host port

def Accepts (endpoint : List UInt8) (port : ℕ) : Prop :=
  ∃ before portStr, endpoint = tcp ++ before ++ 58 :: portStr ∧ 58 ∉ portStr ∧
    parseInt 16 portStr = some port

def Delivers (memory : Option ℕ) : Prop := ∃ ptr, memory = some ptr ∧ ptr % 4 = 0

/-- Where there is an address to be made there is memory for it; and with memory, what the parser
accepts is spelled right and means every address of the host. -/
def Unambiguous (memory : Option ℕ) (endpoint : List UInt8) : Prop :=
  ((∃ host port, Spells endpoint host port) → Delivers memory) ∧
    (Delivers memory → ∀ port, Accepts endpoint port →
      (∃ host port, Spells endpoint host port) ∧
        ∀ host port, Spells endpoint host port → host = .any)

section Scan

theorem lastIndexOfScalar_of_notin {slice : List UInt8} {value : UInt8} (h : value ∉ slice) :
    lastIndexOfScalar slice value = none := by
  induction slice with
  | nil => rfl
  | cons c slice ih =>
    obtain ⟨hne, hrest⟩ := not_or.mp (mt List.mem_cons.mpr h)
    rw [lastIndexOfScalar, ih hrest]
    exact if_neg (Ne.symm hne)

theorem lastIndexOfScalar_append {before after : List UInt8} {value : UInt8}
    (h : value ∉ after) :
    lastIndexOfScalar (before ++ value :: after) value = some before.length := by
  induction before with
  | nil =>
    rw [List.nil_append, lastIndexOfScalar, lastIndexOfScalar_of_notin h]
    exact if_pos rfl
  | cons c before ih =>
    rw [List.cons_append, lastIndexOfScalar, ih]
    rfl

theorem notin_of_lastIndexOfScalar {slice : List UInt8} {value : UInt8}
    (h : lastIndexOfScalar slice value = none) : value ∉ slice := by
  induction slice with
  | nil => exact List.not_mem_nil
  | cons c slice ih =>
    rw [lastIndexOfScalar] at h
    cases hrest : lastIndexOfScalar slice value with
    | some i =>
      rw [hrest] at h
      cases h
    | none =>
      rw [hrest] at h
      dsimp only at h
      split_ifs at h with hc
      simp [Ne.symm hc, ih hrest]

theorem exists_of_lastIndexOfScalar {slice : List UInt8} {value : UInt8} {i : ℕ}
    (h : lastIndexOfScalar slice value = some i) :
    ∃ before, slice = before ++ value :: slice.drop (i + 1) ∧ value ∉ slice.drop (i + 1) := by
  induction slice generalizing i with
  | nil => cases h
  | cons c slice ih =>
    rw [lastIndexOfScalar] at h
    cases hrest : lastIndexOfScalar slice value with
    | some j =>
      rw [hrest] at h
      cases h
      obtain ⟨before, hcut, hlast⟩ := ih hrest
      exact ⟨c :: before, congrArg (c :: ·) hcut, hlast⟩
    | none =>
      rw [hrest] at h
      dsimp only at h
      split_ifs at h with hc
      cases h
      subst hc
      exact ⟨[], rfl, notin_of_lastIndexOfScalar hrest⟩

end Scan

section Parser

variable {endpoint : List UInt8} {memory : Option ℕ} {host : Quad} {port ptr : ℕ}

theorem parseEndpoint_of_accepts (h : Accepts endpoint port) (memory : Option ℕ) :
    parseEndpoint memory endpoint =
      match memory with
      | none => .err .outOfMemory
      | some ptr =>
        if ptr % 4 ≠ 0 then .trap .incorrectAlignment else .ok ⟨ptr, (sockAddr port).bytes⟩ := by
  obtain ⟨before, portStr, rfl, hlast, hport⟩ := h
  have hscheme : tcp.isPrefixOf (tcp ++ before ++ 58 :: portStr) = true := by
    rw [List.isPrefixOf_iff_prefix, List.append_assoc]
    exact List.prefix_append _ _
  have hrest : (tcp ++ before ++ 58 :: portStr).drop 6 = before ++ 58 :: portStr := by
    rw [List.append_assoc]
    exact List.drop_left' (show tcp.length = 6 from rfl)
  have hdrop : (before ++ 58 :: portStr).drop (before.length + 1) = portStr := by
    rw [List.drop_append]
    simp
  unfold parseEndpoint
  simp only [hscheme, not_true_eq_false, if_false, hrest, lastIndexOfScalar_append hlast, hdrop,
    hport]

theorem accepts_of_ne (h : parseEndpoint memory endpoint ≠ .err .invalidEndpoint) :
    ∃ port, Accepts endpoint port := by
  unfold parseEndpoint at h
  dsimp only at h
  split_ifs at h with hscheme
  · obtain ⟨rest, rfl⟩ := List.isPrefixOf_iff_prefix.mp hscheme
    have hrest : (tcp ++ rest).drop 6 = rest := List.drop_left' (show tcp.length = 6 from rfl)
    rw [hrest] at h
    cases hcolon : lastIndexOfScalar rest 58 with
    | none =>
      rw [hcolon] at h
      exact absurd rfl h
    | some colonIdx =>
      obtain ⟨before, hcut, hlast⟩ := exists_of_lastIndexOfScalar hcolon
      cases hport : parseInt 16 (rest.drop (colonIdx + 1)) with
      | none =>
        simp only [hcolon, hport] at h
        exact absurd rfl h
      | some port =>
        refine ⟨port, before, rest.drop (colonIdx + 1), ?_, hlast, hport⟩
        rw [List.append_assoc, ← hcut]
  · exact absurd rfl h

theorem parseEndpoint_eq_ok {addr : AddrBytes} : parseEndpoint memory endpoint = .ok addr ↔
    ∃ ptr port, memory = some ptr ∧ ptr % 4 = 0 ∧ Accepts endpoint port ∧
      addr = ⟨ptr, (sockAddr port).bytes⟩ := by
  constructor
  · intro h
    have hne : parseEndpoint memory endpoint ≠ .err .invalidEndpoint := by
      rw [h]
      exact nofun
    obtain ⟨port, haccepts⟩ := accepts_of_ne hne
    rw [parseEndpoint_of_accepts haccepts] at h
    cases memory with
    | none => cases h
    | some ptr =>
      dsimp only at h
      split_ifs at h with haligned
      cases h
      exact ⟨ptr, port, rfl, not_not.mp haligned, haccepts, rfl⟩
  · rintro ⟨ptr, port, rfl, haligned, haccepts, rfl⟩
    rw [parseEndpoint_of_accepts haccepts]
    exact if_neg (not_not.mpr haligned)

theorem accepts_of_spells (h : Spells endpoint host port) : Accepts endpoint port := by
  obtain ⟨hostStr, portStr, rfl, -, hdecimal, hvalue, hle⟩ := h
  have hport : parseInt 16 portStr = some (decimalValue portStr) :=
    parseInt_of_decimal hdecimal (by omega)
  rw [hvalue] at hport
  exact ⟨hostStr, portStr, rfl, hdecimal.notin (by decide), hport⟩

/-- The port stands in network byte order, and the address is the one of any host. -/
theorem bytes_sockAddr (hle : port ≤ 65535) : (sockAddr port).bytes = networkBytes .any port := by
  have hport : (UInt16.ofNat port).toNat = port :=
    UInt16.toNat_ofNat_of_lt' (by rw [UInt16.size]; omega)
  have hswap : (byteSwap (.ofNat port)).toNat = port % 256 * 256 + port / 256 := by
    unfold byteSwap
    rw [hport, UInt16.toNat_ofNat_of_lt' (by rw [UInt16.size]; omega)]
  have hlow : UInt8.ofNat (port % 256 * 256 + port / 256) = .ofNat (port / 256) := by
    apply UInt8.toNat_inj.mp
    rw [UInt8.toNat_ofNat', UInt8.toNat_ofNat']
    omega
  have hhigh : (port % 256 * 256 + port / 256) / 256 = port % 256 := by omega
  unfold SockAddrIn.bytes sockAddr networkBytes
  rw [hswap]
  simp only [nativeBytes, hlow, hhigh]
  rfl

theorem IsHost.le {hostStr : List UInt8} (h : IsHost hostStr host) :
    host.a ≤ 255 ∧ host.b ≤ 255 ∧ host.c ≤ 255 ∧ host.d ≤ 255 := by
  cases h with
  | any => decide
  | quad ha hb hc hd => exact ⟨ha.2.2, hb.2.2, hc.2.2, hd.2.2⟩

/-- Two addresses that lie in memory alike are the same. -/
theorem eq_any_of_bytes {hostStr : List UInt8} (h : IsHost hostStr host)
    (hbytes : networkBytes host port = networkBytes .any port) : host = .any := by
  obtain ⟨ha, hb, hc, hd⟩ := h.le
  unfold networkBytes at hbytes
  have hquad := List.append_cancel_left (List.append_cancel_right hbytes)
  simp only [List.map_cons, List.map_nil, List.cons.injEq, and_true] at hquad
  have hzero : ∀ v ≤ 255, UInt8.ofNat v = UInt8.ofNat 0 → v = 0 := by
    intro v hv heq
    have hnat := congrArg UInt8.toNat heq
    rw [UInt8.toNat_ofNat', UInt8.toNat_ofNat'] at hnat
    omega
  obtain ⟨haz, hbz, hcz, hdz⟩ := hquad
  cases host
  simp only [Quad.any, Quad.mk.injEq]
  exact ⟨hzero _ ha haz, hzero _ hb hbz, hzero _ hc hcz, hzero _ hd hdz⟩

theorem parseEndpoint_of_spells (h : Spells endpoint host port) (hdelivers : Delivers memory) :
    ∃ ptr, parseEndpoint memory endpoint = .ok ⟨ptr, networkBytes .any port⟩ := by
  obtain ⟨ptr, rfl, haligned⟩ := hdelivers
  have haccepts := accepts_of_spells h
  obtain ⟨-, -, -, -, -, -, hle⟩ := h
  refine ⟨ptr, ?_⟩
  rw [← bytes_sockAddr hle]
  exact parseEndpoint_eq_ok.mpr ⟨ptr, port, rfl, haligned, haccepts, rfl⟩

end Parser

/-- What the parser does with an endpoint is what its text says, exactly if the allocator delivers
where it has to, and no text is accepted that means another host, or none. -/
theorem parsesRight_iff (memory : Option ℕ) (endpoint : List UInt8) :
    ParsesRight memory endpoint ↔ Unambiguous memory endpoint := by
  constructor
  · rintro ⟨hok, hbytes⟩
    refine ⟨fun hspells => ?_, fun hdelivers port haccepts => ⟨?_, fun host port hspells => ?_⟩⟩
    · obtain ⟨addr, hparse⟩ := hok.mpr hspells
      obtain ⟨ptr, -, hmemory, haligned, -⟩ := parseEndpoint_eq_ok.mp hparse
      exact ⟨ptr, hmemory, haligned⟩
    · obtain ⟨ptr, hmemory, haligned⟩ := hdelivers
      exact hok.mp ⟨_, parseEndpoint_eq_ok.mpr ⟨ptr, port, hmemory, haligned, haccepts, rfl⟩⟩
    · obtain ⟨ptr, hparse⟩ := parseEndpoint_of_spells hspells hdelivers
      have heq := hbytes _ host port hparse hspells
      obtain ⟨hostStr, -, -, hhost, -⟩ := hspells
      exact eq_any_of_bytes hhost heq.symm
  · rintro ⟨hmemory, hmeaning⟩
    refine ⟨⟨fun ⟨addr, hparse⟩ => ?_, fun ⟨host, port, hspells⟩ => ?_⟩,
      fun addr host port hparse hspells => ?_⟩
    · obtain ⟨ptr, port, hptr, haligned, haccepts, -⟩ := parseEndpoint_eq_ok.mp hparse
      exact (hmeaning ⟨ptr, hptr, haligned⟩ port haccepts).1
    · obtain ⟨ptr, hparse⟩ := parseEndpoint_of_spells hspells (hmemory ⟨host, port, hspells⟩)
      exact ⟨_, hparse⟩
    · have hdelivers := hmemory ⟨host, port, hspells⟩
      have hany := (hmeaning hdelivers port (accepts_of_spells hspells)).2 host port hspells
      obtain ⟨ptr, hspelled⟩ := parseEndpoint_of_spells hspells hdelivers
      rw [hparse] at hspelled
      cases hspelled
      rw [hany]

theorem host_ignored : ¬ ParsesRight (some 4096)
    (tcp ++ [49, 50, 55, 46, 48, 46, 48, 46, 49] ++ [58, 56, 48]) := by
  rintro ⟨-, hbytes⟩
  have hspells : Spells (tcp ++ [49, 50, 55, 46, 48, 46, 48, 46, 49] ++ [58, 56, 48])
      ⟨127, 0, 0, 1⟩ 80 := by
    refine ⟨[49, 50, 55, 46, 48, 46, 48, 46, 49], [56, 48], rfl, ?_, by decide, by decide,
      by decide⟩
    have hzero : IsOctet [48] 0 := ⟨by decide, by decide, by decide⟩
    have hfirst : IsOctet [49, 50, 55] 127 := ⟨by decide, by decide, by decide⟩
    have hlast : IsOctet [49] 1 := ⟨by decide, by decide, by decide⟩
    exact .quad hfirst hzero hzero hlast
  obtain ⟨ptr, hparse⟩ := parseEndpoint_of_spells hspells ⟨4096, rfl, rfl⟩
  have heq : networkBytes .any 80 = networkBytes ⟨127, 0, 0, 1⟩ 80 := hbytes _ _ _ hparse hspells
  exact absurd heq (by decide)

end LingNet.Zmq
