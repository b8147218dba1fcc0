import CmdTran.Parser.Theorems

/-!
# The frames of a byte string

Which positions of a byte string start a frame, said by index, and the scan over them. What
`RestructFrame` queues and keeps is that scan.
-/

namespace CmdTran

/-! ## Positions -/

/-- The big-endian length behind the head at `i`. -/
def lengthAt (s : List UInt8) (i : Nat) : Nat :=
  (s.getD (i + 1) 0).toNat * 256 + (s.getD (i + 2) 0).toNat

def ValidStart (s : List UInt8) (i : Nat) : Prop :=
  s[i]? = some 0x7E ∧ i + 5 ≤ s.length ∧ 5 ≤ lengthAt s i ∧ lengthAt s i ≤ 1124 ∧
    i + lengthAt s i ≤ s.length ∧ s[i + lengthAt s i - 1]? = some 0xA5

/-- More bytes are needed to say whether there is a frame at `i`. -/
def Undecided (s : List UInt8) (i : Nat) : Prop :=
  s[i]? = some 0x7E ∧
    (s.length < i + 5 ∨ 5 ≤ lengthAt s i ∧ lengthAt s i ≤ 1124 ∧ s.length < i + lengthAt s i)

instance (s : List UInt8) (i : Nat) : Decidable (ValidStart s i) := inferInstanceAs (Decidable (_ ∧ _))

instance (s : List UInt8) (i : Nat) : Decidable (Undecided s i) := inferInstanceAs (Decidable (_ ∧ _))

/-- The frames from `i` on, and the suffix from the first undecided position. -/
def scanFrom (s : List UInt8) (i : Nat) : List (List UInt8) × List UInt8 :=
  if _hi : i < s.length then
    if _hv : ValidStart s i then
      let r := scanFrom s (i + lengthAt s i)
      ((s.drop i).take (lengthAt s i) :: r.1, r.2)
    else if Undecided s i then ([], s.drop i)
    else scanFrom s (i + 1)
  else ([], [])
termination_by s.length - i
decreasing_by
  · have := _hv.2.2.1
    omega
  · omega

/-! ## The verdict at a position -/

section Verdict

variable {s : List UInt8} {i : Nat}

theorem headerLen_drop (s : List UInt8) (i : Nat) : headerLen (s.drop i) = lengthAt s i := by
  rw [headerLen, getD_drop, getD_drop, lenOfBytes, lengthAt]
  omega

theorem headD_drop (hi : i < s.length) : (s.drop i).headD 0 = frameHead ↔ s[i]? = some 0x7E := by
  rw [drop_eq_getD_cons hi, List.headD_cons, List.getD_eq_getElem?_getD,
    List.getElem?_eq_getElem hi, Option.getD_some, Option.some.injEq, frameHead]

theorem length_drop_int (hi : i < s.length) : ((s.drop i).length : Int) = s.length - i := by
  rw [List.length_drop]
  omega

theorem frameLen_bounds : frameLenMin = 5 ∧ frameLenMax = 1124 := ⟨rfl, rfl⟩

theorem verdict_valid (hi : i < s.length) (h : ValidStart s i) :
    frameVerdict (s.drop i) = .emit (lengthAt s i) := by
  obtain ⟨hhead, hshort, hmin, hmax, hfit, hend⟩ := h
  have hlen := length_drop_int hi
  obtain ⟨hlow, hhigh⟩ := frameLen_bounds
  have hlast : (s.drop i).getD (lengthAt s i - 1) 0 = frameEnd := by
    have hplace : i + (lengthAt s i - 1) = i + lengthAt s i - 1 := by omega
    rw [getD_drop, hplace, List.getD_eq_getElem?_getD, hend]
    rfl
  rw [frameVerdict, if_neg (not_not.mpr ((headD_drop hi).mpr hhead)), headerLen_drop]
  rw [if_neg (by omega), if_neg (by omega), if_neg (by omega), Int.toNat_natCast, if_pos hlast]

theorem verdict_undecided (hi : i < s.length) (h : Undecided s i) :
    frameVerdict (s.drop i) = .wait := by
  obtain ⟨hhead, hcase⟩ := h
  have hlen := length_drop_int hi
  obtain ⟨hlow, hhigh⟩ := frameLen_bounds
  rw [frameVerdict, if_neg (not_not.mpr ((headD_drop hi).mpr hhead)), headerLen_drop]
  rcases hcase with hshort | ⟨hmin, hmax, hfit⟩
  · rw [if_pos (by omega)]
  · split
    · rfl
    · rw [if_neg (by omega), if_pos (by omega)]

theorem verdict_other (hi : i < s.length) (hv : ¬ValidStart s i) (hu : ¬Undecided s i) :
    frameVerdict (s.drop i) = .skip := by
  have hlen := length_drop_int hi
  obtain ⟨hlow, hhigh⟩ := frameLen_bounds
  rw [frameVerdict, headerLen_drop]
  split
  · rfl
  · rename_i hb
    have hhead := (headD_drop hi).mp (not_not.mp hb)
    have hlong : ¬s.length < i + 5 := fun hlt => hu ⟨hhead, Or.inl hlt⟩
    rw [if_neg (by omega)]
    split
    · rfl
    · rename_i hrange
      have hfit : ¬s.length < i + lengthAt s i := fun hlt =>
        hu ⟨hhead, Or.inr ⟨by omega, by omega, hlt⟩⟩
      rw [if_neg (by omega), Int.toNat_natCast, getD_drop]
      apply if_neg
      intro hend
      have hin : i + (lengthAt s i - 1) < s.length := by omega
      have hplace : i + (lengthAt s i - 1) = i + lengthAt s i - 1 := by omega
      apply hv
      refine ⟨hhead, by omega, by omega, by omega, by omega, ?_⟩
      rw [List.getD_eq_getElem?_getD, List.getElem?_eq_getElem hin, Option.getD_some] at hend
      rw [← hplace, List.getElem?_eq_getElem hin, hend, frameEnd]

end Verdict

/-- The scan over positions is that of the scanner, from the position on. -/
theorem scanFrom_eq (s : List UInt8) (i : Nat) : scanFrom s i = frameScanner.scan (s.drop i) := by
  fun_induction scanFrom s i with
  | case1 i hi hv r ih =>
      have hne : s.drop i ≠ [] := by
        rw [drop_eq_getD_cons hi]
        exact List.cons_ne_nil _ _
      rw [frameScanner.scan_emit hne (verdict_valid hi hv), List.drop_drop, ← ih]
  | case2 i hi hv hu => exact (frameScanner.scan_wait (verdict_undecided hi hu)).symm
  | case3 i hi hv hu ih =>
      have hskip := verdict_other hi hv hu
      rw [drop_eq_getD_cons hi] at hskip
      rw [drop_eq_getD_cons hi, frameScanner.scan_skip hskip, ih]
  | case4 i hi => rw [List.drop_of_length_le (Nat.not_lt.mp hi), frameScanner.scan_nil]

/-! ## `RestructFrame` -/

section Accepts

variable {π : Type} {getBuff : π → Option Block × π}

/-- A call that returned has queued the frames of the stream, returned how many, and kept the rest. -/
structure Accepts (stream : List UInt8) (r : Restruct π) : Prop where
  frames : r.queued.map taskFrame = (scanFrom stream 0).1
  frameCount : r.frameCount = (scanFrom stream 0).1.length
  pending : r.parser.pending = (scanFrom stream 0).2
  exitLen : r.parser.exitLen = (scanFrom stream 0).2.length

theorem Scanned.accepts (hpool : ∀ p, (getBuff p).1 ≠ none) {s : CFrameRestruct} {pool : π}
    {r : Restruct π} {stream : List UInt8} (h : Scanned getBuff ⟨s, pool, [], 0⟩ stream r) :
    Accepts stream r := by
  have hscan : scanFrom stream 0 = frameScanner.scan stream := scanFrom_eq stream 0
  have hframes := h.frames hpool
  refine ⟨?_, ?_, ?_, ?_⟩
  · rw [hscan, hframes, framesOf]
  · have hlen := congrArg List.length hframes
    rw [List.length_map, h.queued, List.nil_append] at hlen
    rw [hscan, h.frameCount, hlen, Int.zero_add, framesOf]
  · rw [hscan, h.pending, restOf]
  · rw [hscan, h.exitLen, restOf]

/-- From every state that calls lead to, `RestructFrame` returns and accepts the stream of what it kept
and what it received: with exact integers whatever is received, and on the machine as long as the
numbers of the call are in `int`. -/
theorem restructFrame_accepts (hpool : ∀ p, (getBuff p).1 ≠ none) (pool : π) (recv : List UInt8) :
    (∀ s, ReachableExact s → s.exitLen = s.pending.length ∧
      ∃ r, restructFrame id getBuff s pool recv = .ok r ∧ Accepts (s.pending ++ recv) r) ∧
    ∀ s, Reachable int32 FitsInt s → FitsInt s recv → s.exitLen = s.pending.length ∧
      ∃ r, restructFrame int32 getBuff s pool recv = .ok r ∧ Accepts (s.pending ++ recv) r := by
  constructor
  · intro s hs
    have hcalm := hs.settled.calm recv
    obtain ⟨r, hr, hscan⟩ := hcalm.restructFrame_spec getBuff pool
    exact ⟨hcalm.pending_length.symm, r, hr, hscan.accepts hpool⟩
  · intro s hs hfits
    obtain ⟨h0, h1⟩ := hs.exitLen_bounds fun s recv h0 h1 h => FitsInt.calm h0 h1 h
    have hcalm := hfits.calm h0 h1
    obtain ⟨r, hr, hscan⟩ := hcalm.restructFrame_spec getBuff pool
    exact ⟨hcalm.pending_length.symm, r, hr, hscan.accepts hpool⟩

/-- A head that is no frame, a frame, and the start of another one. -/
theorem restructFrame_accepts_new :
    ∃ r, restructFrame id cleanPool CFrameRestruct.new ()
        [0x7E, 0, 0, 0x7E, 0, 6, 0x10, 9, 0xA5, 0x7E, 1] = .ok r ∧
      Accepts (CFrameRestruct.new.pending ++ [0x7E, 0, 0, 0x7E, 0, 6, 0x10, 9, 0xA5, 0x7E, 1]) r :=
  ((restructFrame_accepts (fun _ => Option.some_ne_none _) () _).1 _ .new).2

end Accepts

end CmdTran
