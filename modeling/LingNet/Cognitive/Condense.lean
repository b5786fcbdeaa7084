import LingNet.Gqap.Arena

/-! The Zig side's truncation of a context into arena memory, which holds whatever it held. -/
namespace LingNet.Cognitive
open Zig Gqap

structure Message where
  role : List UInt8
  content : List UInt8
  deriving DecidableEq, Repr

/-- The arena is one of the trusted tier. -/
structure CondenserInput where
  messages : List Message
  maxTokens : ℕ
  arena : Arena
  trusted : arena.tier = .trusted

/-- The ratio is the quotient before it is rounded to an `f32`. -/
structure CondenserOutput where
  summary : Slice
  tokensSaved : ℕ
  compressionRatio : ℚ
  deriving DecidableEq, Repr

def totalTokens (total : ℕ) : List Message → Outcome ArenaError ℕ
  | [] => pure total
  | msg :: messages => do
    let total ← add total (msg.content.length / 4)
    totalTokens total messages

/-- `slice[start..][0..count]` of a slice of `len` bytes. -/
def checkSlice (len start count : ℕ) : Outcome ArenaError Unit :=
  if len < start then .trap .outOfBounds
  else if len - start < count then .trap .outOfBounds
  else .ok ()

/-- The loop over the messages; `written` bytes of the summary are filled. -/
def copyLoop (targetLen : ℕ) (summary : Slice) (written : ℕ) (s : Globals) :
    List Message → Outcome ArenaError (ℕ × Globals)
  | [] => pure (written, s)
  | msg :: messages =>
    if targetLen ≤ written then pure (written, s)
    else do
      let room ← sub targetLen written
      let copyLen := min msg.content.length room
      checkSlice summary.len written copyLen
      checkSlice msg.content.length 0 copyLen
      let s := s.store (summary.ptr + written) (msg.content.take copyLen)
      let written ← add written copyLen
      copyLoop targetLen summary written s messages

def condense (input : CondenserInput) (s : Globals) :
    Outcome ArenaError (CondenserOutput × Arena × Globals) := do
  let total ← totalTokens 0 input.messages
  if total ≤ input.maxTokens then
    let (summary, arena, s) ← input.arena.alloc .u8 0 s
    pure (⟨summary, 0, 1⟩, arena, s)
  else
    let targetLen ← mul input.maxTokens 4
    let (summary, arena, s) ← input.arena.alloc .u8 targetLen s
    let (_, s) ← copyLoop targetLen summary 0 s input.messages
    let saved ← sub total input.maxTokens
    pure (⟨summary, saved, input.maxTokens / total⟩, arena, s)

def concatenation (messages : List Message) : List UInt8 := messages.flatMap Message.content

def tokens (messages : List Message) : ℕ := (messages.map fun msg => msg.content.length / 4).sum

section Loop

variable {messages : List Message} {s : Globals}

theorem concatenation_cons (msg : Message) (messages : List Message) :
    concatenation (msg :: messages) = msg.content ++ concatenation messages := rfl

theorem length_concatenation_cons (msg : Message) (messages : List Message) :
    (concatenation (msg :: messages)).length =
      msg.content.length + (concatenation messages).length := List.length_append

theorem tokens_cons (msg : Message) (messages : List Message) :
    tokens (msg :: messages) = msg.content.length / 4 + tokens messages := rfl

/-- Each message is rounded down on its own. -/
theorem four_mul_tokens_le (messages : List Message) :
    4 * tokens messages ≤ (concatenation messages).length := by
  induction messages with
  | nil => exact Nat.le_refl 0
  | cons msg messages ih =>
    rw [tokens_cons, length_concatenation_cons]
    omega

theorem totalTokens_eq {total : ℕ} (h : total + tokens messages < usizeEnd) :
    totalTokens total messages = .ok (total + tokens messages) := by
  induction messages generalizing total with
  | nil => rfl
  | cons msg messages ih =>
    rw [tokens_cons] at h ⊢
    have hadd : (add total (msg.content.length / 4) : Outcome ArenaError ℕ) =
        .ok (total + msg.content.length / 4) := add_eq_ok.mpr ⟨by omega, rfl⟩
    rw [totalTokens, hadd, Outcome.ok_bind, ih (by omega), Nat.add_assoc]

theorem checkSlice_ok {len start count : ℕ} (h : start + count ≤ len) :
    checkSlice len start count = .ok () := by
  unfold checkSlice
  rw [if_neg (by omega), if_neg (by omega)]

theorem mem_store_of_lt {ptr i : ℕ} {bytes : List UInt8} (h : i < bytes.length) :
    (s.store ptr bytes).mem (ptr + i) = bytes[i] := by
  show (if ptr ≤ ptr + i then _ else _) = _
  rw [if_pos (Nat.le_add_right ptr i), Nat.add_sub_cancel_left, List.getElem?_eq_getElem h,
    Option.getD_some]

theorem mem_store_of_outside {ptr a : ℕ} {bytes : List UInt8}
    (h : a < ptr ∨ ptr + bytes.length ≤ a) : (s.store ptr bytes).mem a = s.mem a := by
  show (if ptr ≤ a then _ else s.mem a) = s.mem a
  split_ifs with hle
  · rw [List.getElem?_eq_none (by omega), Option.getD_none]
  · rfl

/-- What the loop leaves behind: the bytes from `written` on up to the end of the summary or of the
contents, and all other bytes as they were. -/
structure Copied (targetLen : ℕ) (summary : Slice) (written : ℕ) (bytes : List UInt8)
    (s s' : Globals) : Prop where
  copied : ∀ i, (h : i < bytes.length) → written + i < targetLen →
    s'.mem (summary.ptr + (written + i)) = bytes[i]
  kept : ∀ a, a < summary.ptr + written ∨ summary.ptr + targetLen ≤ a → s'.mem a = s.mem a

theorem copied_of_full {targetLen written : ℕ} (h : targetLen ≤ written) (summary : Slice)
    (bytes : List UInt8) (s : Globals) : Copied targetLen summary written bytes s s where
  copied i _ hlt := by omega
  kept _ _ := rfl

/-- One round of the loop, and then the rest. -/
theorem Copied.append {targetLen written copyLen : ℕ} {summary : Slice} {content rest : List UInt8}
    {s' : Globals} (hroom : written < targetLen)
    (hcopy : copyLen = min content.length (targetLen - written))
    (h : Copied targetLen summary (written + copyLen) rest
      (s.store (summary.ptr + written) (content.take copyLen)) s') :
    Copied targetLen summary written (content ++ rest) s s' := by
  have hlength : (content.take copyLen).length = copyLen := by
    rw [List.length_take]
    omega
  constructor
  · intro i hi hlt
    by_cases hfirst : i < copyLen
    · have hbyte : (s.store (summary.ptr + written) (content.take copyLen)).mem
          (summary.ptr + written + i) = (content.take copyLen)[i] :=
        mem_store_of_lt (by omega)
      have hkept := h.kept (summary.ptr + (written + i)) (by omega)
      rw [hkept, ← Nat.add_assoc, hbyte, List.getElem_take, List.getElem_append_left (by omega)]
    · -- the copy was not cut short: the content is over
      have hwhole : copyLen = content.length := by omega
      subst hwhole
      have hrest := h.copied (i - content.length) (by rw [List.length_append] at hi; omega)
        (by omega)
      have hindex : written + content.length + (i - content.length) = written + i := by omega
      rw [hindex] at hrest
      rw [hrest, List.getElem_append_right (by omega)]
  · intro a ha
    rw [h.kept a (by omega), mem_store_of_outside (by omega)]

theorem copyLoop_run {targetLen written : ℕ} {summary : Slice} (hlen : summary.len = targetLen)
    (htarget : targetLen < usizeEnd) (hwritten : written ≤ targetLen) :
    ∃ s', copyLoop targetLen summary written s messages =
        .ok (min targetLen (written + (concatenation messages).length), s') ∧
      Copied targetLen summary written (concatenation messages) s s' := by
  induction messages generalizing written s with
  | nil =>
    refine ⟨s, ?_, fun i hi => absurd hi (Nat.not_lt_zero i), fun _ _ => rfl⟩
    show Outcome.ok (written, s) = _
    have hmin : min targetLen (written + (concatenation []).length) = written :=
      Nat.min_eq_right hwritten
    rw [hmin]
  | cons msg messages ih =>
    rw [length_concatenation_cons, concatenation_cons]
    by_cases hfull : targetLen ≤ written
    · refine ⟨s, ?_, copied_of_full hfull summary _ s⟩
      rw [copyLoop, if_pos hfull]
      have hmin : min targetLen (written +
          (msg.content.length + (concatenation messages).length)) = written := by omega
      rw [hmin]
      rfl
    · have hroom : written < targetLen := Nat.lt_of_not_le hfull
      have hsub : (sub targetLen written : Outcome ArenaError ℕ) = .ok (targetLen - written) :=
        sub_eq_ok.mpr ⟨hwritten, rfl⟩
      obtain ⟨s', hrest, hcopied⟩ := @ih
        (s.store (summary.ptr + written)
          (msg.content.take (min msg.content.length (targetLen - written))))
        (written + min msg.content.length (targetLen - written)) (by omega)
      have hadd : (add written (min msg.content.length (targetLen - written)) :
          Outcome ArenaError ℕ) =
            .ok (written + min msg.content.length (targetLen - written)) :=
        add_eq_ok.mpr ⟨by omega, rfl⟩
      refine ⟨s', ?_, hcopied.append hroom rfl⟩
      rw [copyLoop, if_neg hfull, hsub, Outcome.ok_bind]
      dsimp only
      rw [checkSlice_ok (by omega), Outcome.ok_bind, checkSlice_ok (by omega), Outcome.ok_bind,
        hadd, Outcome.ok_bind, hrest]
      congr 2
      omega

end Loop

def load (s : Globals) (sl : Slice) : List UInt8 :=
  (List.range sl.len).map fun i => s.mem (sl.ptr + i)

/-- The summary is the front of the contents and fills its slice, no other byte has changed, and the
tokens beyond the limit are saved. -/
structure Truncated (input : CondenserInput) (s s' : Globals) (output : CondenserOutput) :
    Prop where
  length : output.summary.len = 4 * input.maxTokens
  bytes : load s' output.summary = (concatenation input.messages).take (4 * input.maxTokens)
  kept : ∀ a, a < output.summary.ptr ∨ output.summary.ptr + output.summary.len ≤ a →
    s'.mem a = s.mem a
  saved : output.tokensSaved = tokens input.messages - input.maxTokens

theorem len_of_alloc {arena arena' : Arena} {count : ℕ} {s s' : Globals} {sl : Slice}
    (h : arena.alloc .u8 count s = .ok (sl, arena', s')) : sl.len = count := by
  unfold Arena.alloc at h
  obtain ⟨size, hsize, h⟩ := Outcome.bind_eq_ok.mp h
  obtain ⟨-, rfl⟩ := mul_eq_ok.mp hsize
  obtain ⟨aligned, -, h⟩ := Outcome.bind_eq_ok.mp h
  obtain ⟨stop, -, h⟩ := Outcome.bind_eq_ok.mp h
  dsimp only at h
  split_ifs at h
  cases h
  exact Nat.one_mul count

theorem Copied.load_eq {targetLen : ℕ} {summary : Slice} {bytes : List UInt8} {s s' : Globals}
    (h : Copied targetLen summary 0 bytes s s') (hlen : summary.len = targetLen)
    (hfull : targetLen ≤ bytes.length) : load s' summary = bytes.take targetLen := by
  unfold load
  apply List.ext_getElem
  · rw [List.length_map, List.length_range, List.length_take, hlen]
    omega
  · intro i hi htake
    rw [List.length_take] at htake
    have hbyte := h.copied i (by omega) (by omega)
    rw [Nat.zero_add] at hbyte
    rw [List.getElem_map, List.getElem_range, List.getElem_take, hbyte]

/-- Truncation hands out no stale byte: however the messages are cut into tokens, their contents
fill the summary. -/
theorem condense_truncates {input : CondenserInput} {s s₁ : Globals} {summary : Slice}
    {arena : Arena} (hlength : (concatenation input.messages).length < usizeEnd)
    (hover : input.maxTokens < tokens input.messages)
    (halloc : input.arena.alloc .u8 (4 * input.maxTokens) s = .ok (summary, arena, s₁)) :
    ∃ output s', condense input s = .ok (output, arena, s') ∧ output.summary = summary ∧
      Truncated input s s' output := by
  have hrounded := four_mul_tokens_le input.messages
  have htotal : totalTokens 0 input.messages = .ok (tokens input.messages) := by
    rw [totalTokens_eq (by omega), Nat.zero_add]
  have htarget : (mul input.maxTokens 4 : Outcome ArenaError ℕ) = .ok (4 * input.maxTokens) :=
    mul_eq_ok.mpr ⟨by omega, Nat.mul_comm ..⟩
  have hlen := len_of_alloc halloc
  have hmem : ∀ a, s₁.mem a = s.mem a := by
    obtain ⟨-, -, -, -, rfl⟩ := Arena.alloc_eq_ok halloc
    intro a
    rw [Arena.mem_markDirty]
  obtain ⟨s', hloop, hcopied⟩ : ∃ s', copyLoop (4 * input.maxTokens) summary 0 s₁ input.messages =
        .ok (min (4 * input.maxTokens) (0 + (concatenation input.messages).length), s') ∧
      Copied (4 * input.maxTokens) summary 0 (concatenation input.messages) s₁ s' :=
    copyLoop_run hlen (by omega) (Nat.zero_le _)
  have hsaved : (sub (tokens input.messages) input.maxTokens : Outcome ArenaError ℕ) =
      .ok (tokens input.messages - input.maxTokens) := sub_eq_ok.mpr ⟨by omega, rfl⟩
  refine ⟨⟨summary, tokens input.messages - input.maxTokens,
    input.maxTokens / tokens input.messages⟩, s', ?_, rfl, ?_⟩
  · unfold condense
    rw [htotal, Outcome.ok_bind, if_neg (by omega), htarget, Outcome.ok_bind, halloc,
      Outcome.ok_bind]
    show (copyLoop (4 * input.maxTokens) summary 0 s₁ input.messages >>= _) = _
    rw [hloop, Outcome.ok_bind]
    show (sub (tokens input.messages) input.maxTokens >>= _) = _
    rw [hsaved]
    rfl
  · refine ⟨hlen, hcopied.load_eq hlen (by omega), fun a ha => ?_, rfl⟩
    dsimp only at ha
    rw [hcopied.kept a (by omega), hmem a]

def sampleInput : CondenserInput where
  messages := [⟨[117], [1, 2, 3, 4, 5, 6, 7]⟩, ⟨[97], [8, 9, 10, 11, 12, 13]⟩]
  maxTokens := 1
  arena := ⟨.trusted, 0, 1, 0⟩
  trusted := rfl

/-- Pools of two blocks of 64 bytes, of which every byte is stale. -/
def staleGlobals : Globals := { initialGlobals 4096 2 64 with mem := fun _ => 0xaa }

theorem condense_truncates_sample : ∃ output s',
    condense sampleInput staleGlobals = .ok (output, ⟨.trusted, 0, 1, 4⟩, s') ∧
      output.summary = ⟨4096, 4⟩ ∧ Truncated sampleInput staleGlobals s' output :=
  condense_truncates (by decide) (by decide) rfl

end LingNet.Cognitive
