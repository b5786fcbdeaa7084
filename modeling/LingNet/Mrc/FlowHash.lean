import LingNet.Lib.Mix
import LingNet.Mrc.Flow

/-! Which packets have one flow hash: the mixing step confuses none, and so they are those that the
key does not tell apart. -/
namespace LingNet.Mrc

/-- The word that `flowHash` mixes. -/
def MrcPacket.flowKey (pkt : MrcPacket) : UInt64 :=
  let h := pkt.srcIp.toUInt64 <<< 32 ||| pkt.dstIp.toUInt64
  let h := h ^^^ (pkt.srcPort.toUInt64 <<< 16 ||| pkt.dstPort.toUInt64)
  h ^^^ pkt.protocol.toUInt64

/-- The mixing step of `flowHash`. -/
def flowMix (h : UInt64) : UInt64 :=
  let h := h ^^^ h >>> 33
  let h := h * 0xff51afd7ed558ccd
  h ^^^ h >>> 33

theorem MrcPacket.flowHash_eq (pkt : MrcPacket) : pkt.flowHash = flowMix pkt.flowKey := rfl

theorem toBitVec_flowMix (h : UInt64) :
    (flowMix h).toBitVec = Mix.mix 33 0xff51afd7ed558ccd 33 h.toBitVec := rfl

theorem flowMix_bijective : Function.Bijective flowMix := by
  have hmix : Function.Bijective (Mix.mix 33 (0xff51afd7ed558ccd : BitVec 64) 33) :=
    Mix.mix_bijective (by omega) (by omega) (by decide)
  constructor
  · intro h k heq
    have hword : Mix.mix 33 0xff51afd7ed558ccd 33 h.toBitVec =
        Mix.mix 33 0xff51afd7ed558ccd 33 k.toBitVec := by
      rw [← toBitVec_flowMix, ← toBitVec_flowMix, heq]
    exact UInt64.toBitVec_inj.mp (hmix.injective hword)
  · intro k
    obtain ⟨x, hx⟩ := hmix.surjective k.toBitVec
    refine ⟨UInt64.ofBitVec x, UInt64.toBitVec_inj.mp ?_⟩
    rw [toBitVec_flowMix]
    exact hx

/-- The lower half of the key: everything but the source address falls into it. -/
def MrcPacket.lowKey (pkt : MrcPacket) : ℕ :=
  pkt.dstIp.toNat ^^^ (pkt.srcPort.toNat * 65536 + pkt.dstPort.toNat) ^^^ pkt.protocol.toNat

/-- A field behind a field of the given width. -/
theorem toNat_shift_or {w high low : ℕ} (hlow : low < 2 ^ w) :
    (high <<< w) ||| low = high * 2 ^ w + low := by
  rw [← Nat.shiftLeft_add_eq_or_of_lt hlow, Nat.shiftLeft_eq]

theorem MrcPacket.toNat_flowKey (pkt : MrcPacket) : pkt.flowKey.toNat =
    (pkt.srcIp.toNat * 2 ^ 32 + pkt.dstIp.toNat) ^^^
      (pkt.srcPort.toNat * 65536 + pkt.dstPort.toNat) ^^^ pkt.protocol.toNat := by
  have hsrc : pkt.srcIp.toNat < 2 ^ 32 := pkt.srcIp.toNat_lt
  have hport : pkt.srcPort.toNat < 2 ^ 16 := pkt.srcPort.toNat_lt
  have haddr : (pkt.srcIp.toUInt64 <<< 32 ||| pkt.dstIp.toUInt64).toNat =
      pkt.srcIp.toNat * 2 ^ 32 + pkt.dstIp.toNat := by
    have hshift : (pkt.srcIp.toUInt64 <<< 32).toNat = pkt.srcIp.toNat <<< 32 := by
      rw [UInt64.toNat_shiftLeft, UInt32.toNat_toUInt64]
      exact Nat.mod_eq_of_lt (by rw [Nat.shiftLeft_eq]; simp; omega)
    rw [UInt64.toNat_or, hshift, UInt32.toNat_toUInt64, toNat_shift_or pkt.dstIp.toNat_lt]
  have hports : (pkt.srcPort.toUInt64 <<< 16 ||| pkt.dstPort.toUInt64).toNat =
      pkt.srcPort.toNat * 65536 + pkt.dstPort.toNat := by
    have hshift : (pkt.srcPort.toUInt64 <<< 16).toNat = pkt.srcPort.toNat <<< 16 := by
      rw [UInt64.toNat_shiftLeft, UInt16.toNat_toUInt64]
      exact Nat.mod_eq_of_lt (by rw [Nat.shiftLeft_eq]; simp; omega)
    rw [UInt64.toNat_or, hshift, UInt16.toNat_toUInt64, toNat_shift_or pkt.dstPort.toNat_lt]
    norm_num
  unfold MrcPacket.flowKey
  dsimp only
  rw [UInt64.toNat_xor, UInt64.toNat_xor, haddr, hports, UInt8.toNat_toUInt64]

/-- The halves of the key. -/
theorem MrcPacket.flowKey_halves (pkt : MrcPacket) :
    pkt.flowKey.toNat / 2 ^ 32 = pkt.srcIp.toNat ∧ pkt.flowKey.toNat % 2 ^ 32 = pkt.lowKey := by
  have hdst : pkt.dstIp.toNat < 2 ^ 32 := pkt.dstIp.toNat_lt
  have hports : pkt.srcPort.toNat * 65536 + pkt.dstPort.toNat < 2 ^ 32 := by
    have hsrc : pkt.srcPort.toNat < 2 ^ 16 := pkt.srcPort.toNat_lt
    have hdst : pkt.dstPort.toNat < 2 ^ 16 := pkt.dstPort.toNat_lt
    omega
  have hprotocol : pkt.protocol.toNat < 2 ^ 32 := by
    have hlt : pkt.protocol.toNat < 2 ^ 8 := pkt.protocol.toNat_lt
    omega
  rw [pkt.toNat_flowKey]
  constructor
  · rw [Nat.xor_div_two_pow, Nat.xor_div_two_pow, Nat.div_eq_of_lt hports,
      Nat.div_eq_of_lt hprotocol, Nat.xor_zero, Nat.xor_zero]
    omega
  · have hlow : (pkt.srcIp.toNat * 2 ^ 32 + pkt.dstIp.toNat) % 2 ^ 32 = pkt.dstIp.toNat := by omega
    rw [Nat.xor_mod_two_pow, Nat.xor_mod_two_pow, Nat.mod_eq_of_lt hports,
      Nat.mod_eq_of_lt hprotocol, hlow]
    rfl

theorem MrcPacket.flowKey_inj {a b : MrcPacket} :
    a.flowKey = b.flowKey ↔ a.srcIp = b.srcIp ∧ a.lowKey = b.lowKey := by
  obtain ⟨ha, ha'⟩ := a.flowKey_halves
  obtain ⟨hb, hb'⟩ := b.flowKey_halves
  constructor
  · intro h
    rw [h] at ha ha'
    exact ⟨UInt32.toNat_inj.mp (ha.symm.trans hb), ha'.symm.trans hb'⟩
  · rintro ⟨hsrc, hlow⟩
    have hdiv : a.flowKey.toNat / 2 ^ 32 = b.flowKey.toNat / 2 ^ 32 := by rw [ha, hb, hsrc]
    have hmod : a.flowKey.toNat % 2 ^ 32 = b.flowKey.toNat % 2 ^ 32 := by rw [ha', hb', hlow]
    exact UInt64.toNat_inj.mp (by omega)

/-- The hash is a bijection of the key, and two packets have one hash exactly when they have one
source address and the rest of their fields add up, bit by bit, to the same word. -/
theorem flowHash_eq_iff : Function.Bijective flowMix ∧
    (∀ pkt : MrcPacket, pkt.flowHash = flowMix pkt.flowKey) ∧
    ∀ a b : MrcPacket, a.flowHash = b.flowHash ↔ a.srcIp = b.srcIp ∧
      a.dstIp.toNat ^^^ (a.srcPort.toNat * 65536 + a.dstPort.toNat) ^^^ a.protocol.toNat =
        b.dstIp.toNat ^^^ (b.srcPort.toNat * 65536 + b.dstPort.toNat) ^^^ b.protocol.toNat := by
  refine ⟨flowMix_bijective, MrcPacket.flowHash_eq, fun a b => ?_⟩
  rw [a.flowHash_eq, b.flowHash_eq, flowMix_bijective.injective.eq_iff]
  exact MrcPacket.flowKey_inj

example : ({ dstPort := 80, protocol := 6 } : MrcPacket).flowHash =
    ({ dstPort := 86, protocol := 0 } : MrcPacket).flowHash := by decide +kernel

end LingNet.Mrc
