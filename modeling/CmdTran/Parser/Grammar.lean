import Mathlib.Data.List.GetD
import Mathlib.Data.Int.Order.Basic
import CmdTran.Lib.Scan
import CmdTran.Parser.Basic

/-!
# What the parser is for

A byte stream is a sequence of frames `0x7E, length (2 bytes, big-endian), code, payload, 0xA5` with
other bytes around them. The flat scan over one byte string is the meaning that `RestructFrame`, with
its two buffers, is compared with.
-/

namespace CmdTran

/-! ## Frames -/

def headerLen (s : List UInt8) : Int := lenOfBytes (s.getD 1 0) (s.getD 2 0)

/-- What the bytes at the front of a stream are. -/
def frameVerdict (s : List UInt8) : Verdict :=
  if s.headD 0 ≠ frameHead then .skip
  else if s.length < frameLenMin then .wait
  else if headerLen s < frameLenMin ∨ headerLen s > frameLenMax then .skip
  else if s.length < headerLen s then .wait
  else if s.getD ((headerLen s).toNat - 1) 0 = frameEnd then .emit (headerLen s).toNat
  else .skip

/-- A complete frame: head, big-endian length equal to its size, end. -/
structure WellFormed (f : List UInt8) : Prop where
  head : f.head? = some frameHead
  len_min : frameLenMin ≤ f.length
  len_max : f.length ≤ frameLenMax
  len : headerLen f = f.length
  tail : f.getLast? = some frameEnd

theorem headerLen_append {s : List UInt8} (h : 3 ≤ s.length) (t : List UInt8) :
    headerLen (s ++ t) = headerLen s := by
  simp only [headerLen, List.getD_append _ _ _ _ (show 1 < s.length by omega),
    List.getD_append _ _ _ _ (show 2 < s.length by omega)]

theorem frameVerdict_emit {s : List UInt8} {n : Nat} (h : frameVerdict s = .emit n) :
    s.headD 0 = frameHead ∧ frameLenMin ≤ headerLen s ∧ headerLen s ≤ frameLenMax ∧
      headerLen s ≤ s.length ∧ s.getD (n - 1) 0 = frameEnd ∧ (n : Int) = headerLen s := by
  unfold frameVerdict at h
  split at h
  · cases h
  · rename_i hhead
    split at h
    · cases h
    · split at h
      · cases h
      · rename_i hlen
        split at h
        · cases h
        · split at h
          · rename_i hend
            cases h
            simp only [frameLenMin, frameLenMax] at hlen ⊢
            exact ⟨not_not.mp hhead, by omega, by omega, by omega, hend, by omega⟩
          · cases h

/-- A parser that waits holds less than the longest frame. -/
theorem length_of_wait {s : List UInt8} (h : frameVerdict s = .wait) :
    (s.length : Int) ≤ frameLenMax - 1 := by
  unfold frameVerdict at h
  split at h
  · cases h
  · split at h
    · simp only [frameLenMin, frameLenMax] at *
      omega
    · split at h
      · cases h
      · split at h
        · omega
        · split at h <;> cases h

theorem frameVerdict_stable {s : List UInt8} (hs : s ≠ []) (h : frameVerdict s ≠ .wait)
    (t : List UInt8) : frameVerdict (s ++ t) = frameVerdict s := by
  have hhead : (s ++ t).headD 0 = s.headD 0 := by
    cases s with
    | nil => exact absurd rfl hs
    | cons b s => rfl
  have happ : ((s ++ t).length : Int) = s.length + t.length := by simp
  unfold frameVerdict at h ⊢
  rw [hhead]
  split
  · rfl
  · rename_i hb
    rw [if_neg hb] at h
    have hlen : ¬ (s.length : Int) < frameLenMin := by
      intro hlt
      rw [if_pos hlt] at h
      exact h rfl
    rw [if_neg hlen] at h ⊢
    rw [if_neg (by omega), headerLen_append (by simp only [frameLenMin] at hlen; omega)]
    split
    · rfl
    · rename_i hr
      rw [if_neg hr] at h
      have hfit : ¬ (s.length : Int) < headerLen s := by
        intro hlt
        rw [if_pos hlt] at h
        exact h rfl
      simp only [frameLenMin] at hr
      rw [if_neg hfit, if_neg (by omega), List.getD_append _ _ _ _ (by omega)]

def frameScanner : Scanner UInt8 where
  verdict := frameVerdict
  emit_bounds h := by
    have := frameVerdict_emit h
    simp only [frameLenMin] at this
    omega
  stable hs h t := frameVerdict_stable hs h t

def framesOf (s : List UInt8) : List (List UInt8) := (frameScanner.scan s).1

/-- The bytes a parser keeps of a byte stream. -/
def restOf (s : List UInt8) : List UInt8 := (frameScanner.scan s).2

theorem restOf_length (s : List UInt8) : ((restOf s).length : Int) ≤ frameLenMax - 1 := by
  rcases frameScanner.scan_rest s with h | h
  · simp [restOf, h, frameLenMax]
  · exact length_of_wait h

theorem restOf_length_le (s : List UInt8) : (restOf s).length ≤ s.length :=
  (frameScanner.scan_rest_suffix s).length_le

theorem restOf_restOf (s : List UInt8) : frameScanner.scan (restOf s) = ([], restOf s) := by
  rcases frameScanner.scan_rest s with h | h
  · simp [restOf, h]
  · exact frameScanner.scan_wait h

theorem framesOf_append (s t : List UInt8) :
    framesOf (s ++ t) = framesOf s ++ framesOf (restOf s ++ t) := by
  simp only [framesOf, restOf, frameScanner.scan_append s t]

theorem restOf_append (s t : List UInt8) : restOf (s ++ t) = restOf (restOf s ++ t) := by
  simp only [restOf, frameScanner.scan_append s t]

theorem framesOf_count_le (s : List UInt8) : 5 * (framesOf s).length ≤ s.length := by
  apply frameScanner.mul_length_scan_le
  intro s n h
  have := frameVerdict_emit h
  simp only [frameLenMin] at this
  omega

theorem wellFormed_of_emit {f t : List UInt8} (h : frameVerdict (f ++ t) = .emit f.length) :
    WellFormed f := by
  obtain ⟨hhead, hmin, hmax, _, hend, hlen⟩ := frameVerdict_emit h
  have h5 : 5 ≤ f.length := by simp only [frameLenMin] at hmin; omega
  rw [headerLen_append (by omega)] at hlen hmin hmax
  rw [List.getD_append _ _ _ _ (by omega)] at hend
  cases f with
  | nil => simp at h5
  | cons b f =>
      simp only [List.cons_append, List.headD_cons] at hhead
      refine ⟨by rw [List.head?_cons, hhead], by omega, by omega, hlen.symm, ?_⟩
      rw [List.getLast?_eq_getElem?, ← hend, List.getD_eq_getElem?_getD,
        List.getElem?_eq_getElem (by simp)]
      rfl

theorem frameVerdict_of_wellFormed {f : List UInt8} (h : WellFormed f) :
    frameVerdict f = .emit f.length := by
  obtain ⟨hhead, hmin, hmax, hlen, hend⟩ := h
  have hh : f.headD 0 = frameHead := by
    cases f with
    | nil => simp at hhead
    | cons b f => simpa using hhead
  have hl : f.getD (f.length - 1) 0 = frameEnd := by
    rw [List.getLast?_eq_getElem?] at hend
    rw [List.getD_eq_getElem?_getD, hend]
    rfl
  unfold frameVerdict
  rw [hlen, if_neg (not_not.mpr hh), if_neg (by omega), if_neg (by omega), if_neg (by omega),
    Int.toNat_natCast, if_pos hl]

theorem wellFormed_of_mem_framesOf {s f : List UInt8} (h : f ∈ framesOf s) : WellFormed f := by
  obtain ⟨t, ht⟩ := frameScanner.scan_frames_emit s f h
  exact wellFormed_of_emit ht

/-! ## `FrameInit` -/

/-- `FrameInit` on the memory of a frame, which is `len` bytes long. -/
def frameInit (frame : List UInt8) (len : Nat) (code : UInt8) : List UInt8 :=
  ((((frame.set 0 0x7E).set 1 (UInt8.ofNat (len / 256))).set 2 (UInt8.ofNat (len % 256))).set 3
    code).set (len - 1) 0xA5

theorem frameInit_eq (a b c d e code : UInt8) (payload : List UInt8) :
    frameInit (a :: b :: c :: d :: payload ++ [e]) (payload.length + 5) code =
      0x7E :: UInt8.ofNat ((payload.length + 5) / 256) ::
        UInt8.ofNat ((payload.length + 5) % 256) :: code :: payload ++ [0xA5] := by
  simp [frameInit]

theorem wellFormed_frameInit (a b c d e code : UInt8) {payload : List UInt8}
    (h : (payload.length : Int) + 5 ≤ frameLenMax) :
    WellFormed (frameInit (a :: b :: c :: d :: payload ++ [e]) (payload.length + 5) code) := by
  simp only [frameLenMax] at h
  rw [frameInit_eq]
  refine ⟨rfl, ?_, ?_, ?_, ?_⟩
  · simp only [frameLenMin, List.length_append, List.length_cons, List.length_nil]; omega
  · simp only [frameLenMax, List.length_append, List.length_cons, List.length_nil]; omega
  · have h1 : (payload.length + 5) / 256 < 256 := by omega
    simp only [headerLen, lenOfBytes, List.cons_append, List.getD_cons_succ, List.getD_cons_zero,
      UInt8.toNat_ofNat', List.length_cons, List.length_append, List.length_nil]
    omega
  · rw [List.getLast?_append]
    rfl

end CmdTran
