import Mathlib.Data.Int.Basic
import CmdTran.Parser.Grammar

/-!
# The helpers over the two buffers

Each helper of `RestructFrame` is a function of the one byte string `pending ++ recv`, and makes no
access outside it.
-/

namespace CmdTran

/-- The bytes a call of `RestructFrame` works on, as one string. -/
def CFrameRestruct.stream (s : CFrameRestruct) (recv : List UInt8) : List UInt8 := s.pending ++ recv

/-- Room for the pending bytes, and `int` arithmetic that is exact up to the end of the stream. -/
structure Counted (int : Int → Int) (s : CFrameRestruct) (recv : List UInt8) : Prop where
  exitLen_nonneg : 0 ≤ s.exitLen
  exitLen_le : s.exitLen ≤ exitBufferLen
  exact_count : ∀ x, -(exitBufferLen : Int) ≤ x → x ≤ s.exitLen + recv.length → int x = x

/-- `int` arithmetic that is exact as far as a call needs it: the largest number computed is an
index in the stream plus a frame length. -/
structure Calm (int : Int → Int) (s : CFrameRestruct) (recv : List UInt8) : Prop extends
    Counted int s recv where
  exact_int : ∀ x, -(exitBufferLen : Int) ≤ x →
    x ≤ s.exitLen + recv.length + (frameLenMax - frameLenMin) → int x = x

theorem Counted.int_eq {int : Int → Int} {s : CFrameRestruct} {recv : List UInt8}
    (h : Counted int s recv) {x : Int} (hlo : -2048 ≤ x) (hhi : x ≤ s.exitLen + recv.length) :
    int x = x :=
  h.exact_count x hlo hhi

theorem Calm.int_eq {int : Int → Int} {s : CFrameRestruct} {recv : List UInt8}
    (h : Calm int s recv) {x : Int} (hlo : -2048 ≤ x) (hhi : x ≤ s.exitLen + recv.length + 1119) :
    int x = x :=
  h.exact_int x hlo hhi

/-! ## Reads -/

section Reads

variable {int : Int → Int} {s : CFrameRestruct} {recv : List UInt8}

theorem Counted.pending_length (h : Counted int s recv) : (s.pending.length : Int) = s.exitLen := by
  have h0 := h.exitLen_nonneg
  have h1 := h.exitLen_le
  rw [CFrameRestruct.pending, List.length_take, s.exitBuffer.length_eq]
  omega

theorem Counted.stream_length (h : Counted int s recv) :
    ((s.stream recv).length : Int) = s.exitLen + recv.length := by
  rw [CFrameRestruct.stream, List.length_append]
  have := h.pending_length
  omega

theorem Counted.totalLen_eq (h : Counted int s recv) :
    totalLen int s recv = (s.stream recv).length := by
  have h0 := h.exitLen_nonneg
  rw [totalLen, h.int_eq (by omega) (by omega),
    h.stream_length]

theorem Counted.exitByte_eq (h : Counted int s recv) {i : Int} (h0 : 0 ≤ i) (hi : i < s.exitLen) :
    s.exitByte i = .ok ((s.stream recv).getD i.toNat 0) := by
  have hlen := h.pending_length
  rw [CFrameRestruct.exitByte, Checked.read_of_lt 0 h0 (by omega), CFrameRestruct.stream,
    List.getD_append _ _ _ _ (by omega)]
  rfl

theorem Counted.recvByte_eq (h : Counted int s recv) {i j : Int} (hi : s.exitLen ≤ i)
    (hlt : i < (s.stream recv).length) (hj : j = i - s.exitLen) :
    recvByte recv j = .ok ((s.stream recv).getD i.toNat 0) := by
  have hlen := h.pending_length
  have hn := h.stream_length
  subst hj
  rw [recvByte, Checked.read_of_lt 0 (by omega) (by omega), CFrameRestruct.stream,
    List.getD_append_right _ _ _ _ (by omega),
    show i.toNat - s.pending.length = (i - s.exitLen).toNat by omega]
  rfl

end Reads

/-! ## `GetHeadIndex` -/

theorem drop_eq_getD_cons {s : List UInt8} {i : Nat} (h : i < s.length) :
    s.drop i = s.getD i 0 :: s.drop (i + 1) := by
  rw [List.drop_eq_getElem_cons h, List.getD_eq_getElem?_getD, List.getElem?_eq_getElem h]
  rfl

/-- `GetHeadIndex` skips what the scan skips for want of a head: it ends at a head, or at the end. -/
theorem Counted.headFrom_spec {int : Int → Int} {s : CFrameRestruct} {recv : List UInt8}
    (h : Counted int s recv) (n : Nat) {i : Int} (h0 : 0 ≤ i)
    (hn : i + n = (s.stream recv).length) :
    ∃ j, headFrom int s recv n i = .ok j ∧
      ((j = -1 ∧ frameScanner.scan ((s.stream recv).drop i.toNat) = ([], [])) ∨
        (i ≤ j ∧ j < (s.stream recv).length ∧ (s.stream recv).getD j.toNat 0 = frameHead ∧
          frameScanner.scan ((s.stream recv).drop i.toNat) =
            frameScanner.scan ((s.stream recv).drop j.toNat))) := by
  induction n generalizing i with
  | zero =>
      refine ⟨-1, rfl, Or.inl ⟨rfl, ?_⟩⟩
      rw [List.drop_eq_nil_of_le (by omega)]
      simp
  | succ n ih =>
      have he := h.exitLen_nonneg
      have hlen := h.stream_length
      have hbyte : (if i < s.exitLen then s.exitByte i else recvByte recv (int (i - s.exitLen))) =
          .ok ((s.stream recv).getD i.toNat 0) := by
        split
        · exact h.exitByte_eq h0 ‹_›
        · refine h.recvByte_eq (by omega) (by omega) (h.int_eq (by omega) (by omega))
      simp only [headFrom, hbyte, ok_bind]
      by_cases hb : (s.stream recv).getD i.toNat 0 = frameHead
      · rw [if_pos hb]
        exact ⟨i, rfl, Or.inr ⟨by omega, by omega, hb, rfl⟩⟩
      · rw [if_neg hb, h.int_eq (x := i + 1) (by omega) (by omega)]
        have hskip : frameScanner.scan ((s.stream recv).drop i.toNat) =
            frameScanner.scan ((s.stream recv).drop (i + 1).toNat) := by
          rw [drop_eq_getD_cons (by omega), frameScanner.scan_skip,
            show i.toNat + 1 = (i + 1).toNat by omega]
          simp only [frameScanner, frameVerdict, List.headD_cons, ne_eq, hb, not_false_eq_true,
            if_true]
        rw [hskip]
        obtain ⟨j, hj, hcase⟩ := ih (i := i + 1) (by omega) (by omega)
        refine ⟨j, hj, ?_⟩
        rcases hcase with hend | ⟨hij, hrest⟩
        · exact Or.inl hend
        · exact Or.inr ⟨by omega, hrest⟩

theorem Counted.getHeadIndex_spec {int : Int → Int} {s : CFrameRestruct} {recv : List UInt8}
    (h : Counted int s recv) {i : Int} (h0 : 0 ≤ i) (hi : i ≤ (s.stream recv).length) :
    ∃ j, getHeadIndex int s i recv = .ok j ∧
      ((j = -1 ∧ frameScanner.scan ((s.stream recv).drop i.toNat) = ([], [])) ∨
        (i ≤ j ∧ j < (s.stream recv).length ∧ (s.stream recv).getD j.toNat 0 = frameHead ∧
          frameScanner.scan ((s.stream recv).drop i.toNat) =
            frameScanner.scan ((s.stream recv).drop j.toNat))) := by
  rw [getHeadIndex, h.totalLen_eq]
  exact h.headFrom_spec _ h0 (by omega)

/-! ## `GetFrameLen` and `CheckSum` -/

theorem getD_drop (s : List UInt8) (i k : Nat) : (s.drop i).getD k 0 = s.getD (i + k) 0 := by
  rw [List.getD_eq_getElem?_getD, List.getElem?_drop, ← List.getD_eq_getElem?_getD]

/-- `GetFrameLen` is the length in the header when it is allowed, and -1 when it is not. -/
theorem Calm.getFrameLen_eq {int : Int → Int} {s : CFrameRestruct} {recv : List UInt8}
    (h : Calm int s recv) {i : Int} (h0 : 0 ≤ i)
    (hi : i + frameLenMin ≤ (s.stream recv).length) :
    getFrameLen int s i recv = .ok
      (if headerLen ((s.stream recv).drop i.toNat) < frameLenMin ∨
          headerLen ((s.stream recv).drop i.toNat) > frameLenMax then -1
        else headerLen ((s.stream recv).drop i.toNat)) := by
  have he := h.exitLen_nonneg
  have he' := h.exitLen_le
  have hn := h.stream_length
  simp only [frameLenMin, exitBufferLen] at hi he'
  have hlen : headerLen ((s.stream recv).drop i.toNat) =
      lenOfBytes ((s.stream recv).getD (i + 1).toNat 0) ((s.stream recv).getD (i + 2).toNat 0) := by
    rw [headerLen, getD_drop, getD_drop, show i.toNat + 1 = (i + 1).toNat by omega,
      show i.toNat + 2 = (i + 2).toNat by omega]
  -- where the two length bytes are: both kept, one kept and one received, both received
  have hread : (if i < int (s.exitLen - 2) then do
        .ok (lenOfBytes (← s.exitByte (int (i + 1))) (← s.exitByte (int (i + 2))))
      else if i = int (s.exitLen - 2) then do
        .ok (lenOfBytes (← s.exitByte (int (i + 1))) (← recvByte recv 0))
      else if i > int (s.exitLen - 2) then do
        .ok (lenOfBytes (← recvByte recv (int (int (i + 1) - s.exitLen)))
          (← recvByte recv (int (int (i + 2) - s.exitLen))))
      else .ok (-1)) = Except.ok (headerLen ((s.stream recv).drop i.toNat)) := by
    rw [hlen, h.int_eq (x := s.exitLen - 2) (by omega) (by omega),
      h.int_eq (x := i + 1) (by omega) (by omega), h.int_eq (x := i + 2) (by omega) (by omega)]
    split
    · rw [h.exitByte_eq (by omega) (by omega), h.exitByte_eq (by omega) (by omega)]
      rfl
    · split
      · rw [h.exitByte_eq (by omega) (by omega),
          h.recvByte_eq (i := i + 2) (by omega) (by omega) (by omega)]
        rfl
      · rw [if_pos (by omega), h.int_eq (x := i + 1 - s.exitLen) (by omega) (by omega),
          h.int_eq (x := i + 2 - s.exitLen) (by omega) (by omega),
          h.recvByte_eq (i := i + 1) (by omega) (by omega) rfl,
          h.recvByte_eq (i := i + 2) (by omega) (by omega) rfl]
        rfl
  rw [getFrameLen, hread, ok_bind]
  split <;> rfl

theorem Calm.checkSum_eq {int : Int → Int} {s : CFrameRestruct} {recv : List UInt8}
    (h : Calm int s recv) {i len : Int} (h0 : 0 ≤ i) (hlen : 1 ≤ len)
    (hi : i + len ≤ (s.stream recv).length) :
    checkSum int s i recv len =
      .ok (((s.stream recv).drop i.toNat).getD (len.toNat - 1) 0 = frameEnd) := by
  have he := h.exitLen_nonneg
  have he' := h.exitLen_le
  have hn := h.stream_length
  simp only [exitBufferLen] at he'
  rw [getD_drop, show i.toNat + (len.toNat - 1) = (i + len - 1).toNat by omega]
  rw [checkSum, h.int_eq (x := i + len) (by omega) (by omega),
    h.int_eq (x := i + len - 1) (by omega) (by omega)]
  split
  · rw [h.exitByte_eq (by omega) (by omega)]
    rfl
  · rw [h.int_eq (x := i - s.exitLen) (by omega) (by omega),
      h.int_eq (x := i - s.exitLen + len) (by omega) (by omega),
      h.int_eq (x := i - s.exitLen + len - 1) (by omega) (by omega),
      h.recvByte_eq (i := i + len - 1) (by omega) (by omega) (by omega)]
    rfl

/-! ## `SaveFrame` -/

def Block.put (b : Block) (src : List UInt8) : Block := (b.write 0 src).getD b

theorem Block.write_zero (b : Block) {src : List UInt8} (h : src.length ≤ memPoolBlockSize) :
    b.write 0 src = some (b.put src) := by
  obtain ⟨b', hb'⟩ := Buffer.write_isSome b src (Int.le_refl 0) (by omega)
  rw [Block.put, hb', Option.getD_some]

/-- The frame that was saved is at the front of its block. -/
theorem Block.take_put (b : Block) {src : List UInt8} (h : src.length ≤ memPoolBlockSize) :
    (b.put src).toList.take src.length = src := by
  have := Buffer.take_of_write (b.write_zero h)
  simpa using this

/-- The copies of `SaveFrame`, in one piece or in two, put the frame at the front of the block. -/
theorem Calm.copyFrame_eq {int : Int → Int} {s : CFrameRestruct} {recv : List UInt8}
    (h : Calm int s recv) {i len : Int} (h0 : 0 ≤ i) (hlen : 1 ≤ len)
    (hmax : len ≤ memPoolBlockSize) (hi : i + len ≤ (s.stream recv).length) (b : Block) :
    copyFrame int s i recv len b =
      .ok (b.put (((s.stream recv).drop i.toNat).take len.toNat)) := by
  have he := h.exitLen_nonneg
  have he' := h.exitLen_le
  have hn := h.stream_length
  have hp := h.pending_length
  simp only [exitBufferLen] at he'
  have hsize : (((s.stream recv).drop i.toNat).take len.toNat).length ≤ memPoolBlockSize := by
    rw [List.length_take]; omega
  rw [copyFrame, h.int_eq (x := i + len) (by omega) (by omega)]
  split
  · rename_i hin
    have hsrc : (s.pending.drop i.toNat).take len.toNat =
        ((s.stream recv).drop i.toNat).take len.toNat := by
      rw [CFrameRestruct.stream, List.drop_append_of_le_length (by omega),
        List.take_append_of_le_length (by rw [List.length_drop]; omega)]
    rw [CFrameRestruct.exitBytes, Checked.slice_eq h0 (by omega) (by omega), hsrc]
    simp only [orFault, ok_bind, blockWrite, b.write_zero hsize]
  · split
    · rename_i hin hacross
      have hkept : (s.pending.drop i.toNat).length = (s.exitLen - i).toNat := by
        rw [List.length_drop]; omega
      have hsrc : ((s.stream recv).drop i.toNat).take len.toNat =
          s.pending.drop i.toNat ++ recv.take (len - (s.exitLen - i)).toNat := by
        rw [CFrameRestruct.stream, List.drop_append_of_le_length (by omega), List.take_append,
          List.take_of_length_le (by omega), hkept,
          show len.toNat - (s.exitLen - i).toNat = (len - (s.exitLen - i)).toNat by omega]
      have hfst : (s.pending.drop i.toNat).length ≤ memPoolBlockSize := by omega
      have hsnd := Buffer.write_append (b.write_zero hfst) (recv.take (len - (s.exitLen - i)).toNat)
      rw [hkept, ← hsrc, b.write_zero hsize,
        show (0 : Int) + ((s.exitLen - i).toNat : Nat) = s.exitLen - i by omega] at hsnd
      rw [h.int_eq (x := s.exitLen - i) (by omega) (by omega),
        h.int_eq (x := len - (s.exitLen - i)) (by omega) (by omega), CFrameRestruct.exitBytes,
        Checked.slice_eq h0 (by omega) (by omega), List.take_of_length_le (by omega), recvBytes,
        Checked.slice_eq (by omega) (by omega) (by omega)]
      simp only [orFault, ok_bind, blockWrite, b.write_zero hfst, Int.toNat_zero,
        List.drop_zero, hsnd]
    · have hsrc : ((s.stream recv).drop i.toNat).take len.toNat =
          (recv.drop (i - s.exitLen).toNat).take len.toNat := by
        rw [CFrameRestruct.stream, List.drop_append, List.drop_eq_nil_of_le (by omega),
          List.nil_append, show i.toNat - s.pending.length = (i - s.exitLen).toNat by omega]
      rw [h.int_eq (x := i - s.exitLen) (by omega) (by omega), recvBytes,
        Checked.slice_eq (by omega) (by omega) (by omega), ← hsrc]
      simp only [orFault, ok_bind, blockWrite, b.write_zero hsize]

/-! ## `CopyRestToExitBuff` -/

/-- The loop moves `n` bytes down, from `i` to `index`. -/
theorem Calm.shiftDown_eq {int : Int → Int} {s : CFrameRestruct} {recv : List UInt8}
    (h : Calm int s recv) (n index i : Nat) (b : Buffer UInt8 exitBufferLen)
    (hle : index ≤ i) (hi : (i + n : Int) ≤ s.exitLen) :
    ∃ b', shiftDown int s n index i b = .ok (b', (index + n : Nat)) ∧
      b'.toList.take (index + n) = b.toList.take index ++ (b.toList.drop i).take n := by
  have he' := h.exitLen_le
  simp only [exitBufferLen] at he'
  induction n generalizing index i b with
  | zero => exact ⟨b, rfl, by simp⟩
  | succ n ih =>
      have hilt : i < b.toList.length := by rw [b.length_eq, exitBufferLen]; omega
      have hread : Checked.read (b.toList.take s.exitLen.toNat) (i : Int) =
          some (b.toList.getD i 0) := by
        rw [Checked.read_eq_getElem? (by omega), Int.toNat_natCast,
          List.getElem?_take_of_lt (by omega), List.getD_eq_getElem?_getD,
          List.getElem?_eq_getElem hilt]
        rfl
      obtain ⟨b₁, hb₁⟩ := b.write_isSome [b.toList.getD i 0] (Int.natCast_nonneg index)
        (by simp only [List.length_singleton, exitBufferLen]; omega)
      have htake := Buffer.take_of_write hb₁
      have hdrop := Buffer.drop_of_write hb₁
      simp only [Int.toNat_natCast, List.length_singleton] at htake hdrop
      have hdrop' : b₁.toList.drop (i + 1) = b.toList.drop (i + 1) := by
        have := congrArg (List.drop (i - index)) hdrop
        rwa [List.drop_drop, List.drop_drop, show index + 1 + (i - index) = i + 1 by omega] at this
      obtain ⟨b', hb', hb'take⟩ := ih (index + 1) (i + 1) b₁ (by omega) (by omega)
      refine ⟨b', ?_, ?_⟩
      · rw [shiftDown, hread]
        simp only [orFault, ok_bind, exitWrite, hb₁]
        rw [h.int_eq (x := index + 1) (by omega) (by omega),
          h.int_eq (x := i + 1) (by omega) (by omega)]
        push_cast at hb' ⊢
        rw [hb', show (index : Int) + 1 + n = index + (n + 1) by omega]
      · rw [show index + (n + 1) = index + 1 + n by omega, hb'take, htake, hdrop',
          drop_eq_getD_cons hilt, List.take_succ_cons, List.append_assoc, List.singleton_append]

/-- `CopyRestToExitBuff` keeps the stream from the index on. -/
theorem Calm.copyRestToExitBuff_spec {int : Int → Int} {s : CFrameRestruct} {recv : List UInt8}
    (h : Calm int s recv) {i : Int} (h0 : 0 ≤ i) (hi : i ≤ (s.stream recv).length)
    (hroom : (s.stream recv).length - i ≤ exitBufferLen) :
    ∃ s', copyRestToExitBuff int s i recv = .ok s' ∧
      s'.exitLen = ((s.stream recv).drop i.toNat).length ∧
      s'.pending = (s.stream recv).drop i.toNat := by
  have he := h.exitLen_nonneg
  have he' := h.exitLen_le
  have hn := h.stream_length
  have hp := h.pending_length
  simp only [exitBufferLen] at he' hroom
  rw [copyRestToExitBuff]
  split
  · rename_i hlt
    obtain ⟨k, rfl⟩ := Int.eq_ofNat_of_zero_le h0
    simp only [Int.toNat_natCast]
    -- the kept bytes move down, the received ones follow
    obtain ⟨b₁, hb₁, htake₁⟩ := h.shiftDown_eq (s.exitLen - k).toNat 0 k s.exitBuffer
      (by omega) (by omega)
    obtain ⟨b₂, hb₂⟩ := b₁.write_isSome recv (show 0 ≤ s.exitLen - k by omega)
      (by simp only [exitBufferLen]; omega)
    have htake₂ := Buffer.take_of_write hb₂
    have hmoved : (s.exitBuffer.toList.drop k).take (s.exitLen - k).toNat = s.pending.drop k := by
      rw [CFrameRestruct.pending, List.drop_take,
        show s.exitLen.toNat - k = (s.exitLen - k).toNat by omega]
    rw [Nat.zero_add, List.take_zero, List.nil_append, hmoved] at htake₁
    rw [htake₁, ← List.drop_append_of_le_length (by omega)] at htake₂
    rw [show ((0 + (s.exitLen - k).toNat : Nat) : Int) = s.exitLen - k by omega] at hb₁
    refine ⟨⟨b₂, s.exitLen - k + recv.length⟩, ?_, ?_, ?_⟩
    · rw [show ((0 : Nat) : Int) = 0 from rfl] at hb₁
      rw [hb₁]
      simp only [ok_bind, exitWrite, hb₂, orFault]
      rw [h.int_eq (by omega) (by omega)]
    · simp only [List.length_drop]
      omega
    · rw [CFrameRestruct.pending,
        show (s.exitLen - k + recv.length).toNat = (s.exitLen - k).toNat + recv.length by omega,
        htake₂, CFrameRestruct.stream]
  · have hsrc : ((s.stream recv).drop i.toNat) = recv.drop (i - s.exitLen).toNat := by
      rw [CFrameRestruct.stream, List.drop_append, List.drop_eq_nil_of_le (by omega),
        List.nil_append, show i.toNat - s.pending.length = (i - s.exitLen).toNat by omega]
    have hlen : ((recv.drop (i - s.exitLen).toNat).length : Int) =
        (s.stream recv).length - i := by
      rw [List.length_drop]; omega
    obtain ⟨b₁, hb₁⟩ := s.exitBuffer.write_isSome (recv.drop (i - s.exitLen).toNat) (Int.le_refl 0)
      (by simp only [exitBufferLen]; omega)
    have htake := Buffer.take_of_write hb₁
    rw [h.totalLen_eq, h.int_eq (x := (s.stream recv).length - i) (by omega) (by omega),
      h.int_eq (x := i - s.exitLen) (by omega) (by omega), recvBytes,
      Checked.slice_eq (by omega) (by omega) (by omega), List.take_of_length_le (by omega), hsrc]
    refine ⟨⟨b₁, (s.stream recv).length - i⟩, ?_, hlen.symm, ?_⟩
    · simp only [orFault, ok_bind, exitWrite, hb₁]
    · rw [CFrameRestruct.pending, ← hlen, Int.toNat_natCast]
      simpa using htake

end CmdTran
