import CmdTran.Parser.Lemmas.TwoBuffers

/-!
# `RestructFrame` is the flat scan

The loop of `RestructFrame` at an index computes the scan of the stream from that index on. The
frames of the scan go to the pool one by one, and those that get a block are queued.
-/

namespace CmdTran

variable {π : Type} {int : Int → Int} {getBuff : π → Option Block × π}

/-! ## Frames and blocks -/

/-- The tasks that a list of frames gives, and the pool after it: a frame without a block is
dropped. -/
def saveAll (getBuff : π → Option Block × π) : π → List (List UInt8) → List (Block × Int) × π
  | pool, [] => ([], pool)
  | pool, f :: fs =>
      match getBuff pool with
      | (none, pool) => saveAll getBuff pool fs
      | (some b, pool) => ((b.put f, (f.length : Int)) :: (saveAll getBuff pool fs).1,
          (saveAll getBuff pool fs).2)

/-- The bytes of a queued task that belong to its frame. -/
def taskFrame (t : Block × Int) : List UInt8 := t.1.toList.take t.2.toNat

theorem saveAll_append (pool : π) (fs gs : List (List UInt8)) :
    saveAll getBuff pool (fs ++ gs) =
      ((saveAll getBuff pool fs).1 ++ (saveAll getBuff (saveAll getBuff pool fs).2 gs).1,
        (saveAll getBuff (saveAll getBuff pool fs).2 gs).2) := by
  induction fs generalizing pool with
  | nil => rfl
  | cons f fs ih =>
      simp only [List.cons_append, saveAll]
      split <;> simp [ih]

theorem map_taskFrame_saveAll (pool : π) {fs : List (List UInt8)}
    (hfs : ∀ f ∈ fs, f.length ≤ memPoolBlockSize) :
    ((saveAll getBuff pool fs).1.map taskFrame).Sublist fs := by
  induction fs generalizing pool with
  | nil => exact .slnil
  | cons f fs ih =>
      have hrest := fun pool => ih pool fun g hg => hfs g (by simp [hg])
      simp only [saveAll]
      split
      · exact (hrest _).cons _
      · rename_i b _ _
        rw [List.map_cons, taskFrame, Int.toNat_natCast, b.take_put (hfs f (by simp))]
        exact (hrest _).cons_cons _

theorem map_taskFrame_saveAll_eq (hpool : ∀ p, (getBuff p).1 ≠ none) (pool : π)
    {fs : List (List UInt8)} (hfs : ∀ f ∈ fs, f.length ≤ memPoolBlockSize) :
    (saveAll getBuff pool fs).1.map taskFrame = fs := by
  induction fs generalizing pool with
  | nil => rfl
  | cons f fs ih =>
      simp only [saveAll]
      split
      · rename_i h
        exact absurd (by rw [h]) (hpool pool)
      · rename_i b pool' _
        rw [List.map_cons, taskFrame, Int.toNat_natCast, b.take_put (hfs f (by simp)),
          ih pool' fun g hg => hfs g (by simp [hg])]

/-! ## The loop -/

/-- A call that has got as far as an index: what is left of the stream is scanned, its frames are
saved, the rest is kept. -/
structure Scanned (getBuff : π → Option Block × π) (r : Restruct π) (s : List UInt8)
    (r' : Restruct π) : Prop where
  pending : r'.parser.pending = restOf s
  exitLen : r'.parser.exitLen = (restOf s).length
  pool : r'.pool = (saveAll getBuff r.pool (framesOf s)).2
  queued : r'.queued = r.queued ++ (saveAll getBuff r.pool (framesOf s)).1
  frameCount : r'.frameCount = r.frameCount + (saveAll getBuff r.pool (framesOf s)).1.length

theorem Scanned.of_scan_eq {r r' : Restruct π} {s t : List UInt8}
    (hscan : frameScanner.scan s = frameScanner.scan t) (h : Scanned getBuff r t r') :
    Scanned getBuff r s r' := by
  have hf : framesOf s = framesOf t := congrArg Prod.fst hscan
  have hr : restOf s = restOf t := congrArg Prod.snd hscan
  exact ⟨hr ▸ h.pending, hr ▸ h.exitLen, hf ▸ h.pool, hf ▸ h.queued, hf ▸ h.frameCount⟩

theorem Scanned.of_nil {r : Restruct π} {s : List UInt8}
    (hscan : frameScanner.scan s = ([], [])) :
    Scanned getBuff r s { r with parser := { r.parser with exitLen := 0 } } := by
  have hf : framesOf s = [] := congrArg Prod.fst hscan
  have hr : restOf s = [] := congrArg Prod.snd hscan
  constructor <;> simp [hf, hr, saveAll, CFrameRestruct.pending]

theorem Scanned.of_wait {r : Restruct π} {s : List UInt8} {p : CFrameRestruct}
    (hscan : frameScanner.scan s = ([], s)) (hp : p.pending = s) (hlen : p.exitLen = s.length) :
    Scanned getBuff r s { r with parser := p } := by
  have hf : framesOf s = [] := congrArg Prod.fst hscan
  have hr : restOf s = s := congrArg Prod.snd hscan
  constructor <;> simp [hf, hr, saveAll, hp, hlen]

/-- A frame went to the pool, and to the queue when it got a block. -/
structure Saved (getBuff : π → Option Block × π) (r : Restruct π) (f : List UInt8)
    (r₁ : Restruct π) : Prop where
  parser : r₁.parser = r.parser
  pool : r₁.pool = (saveAll getBuff r.pool [f]).2
  queued : r₁.queued = r.queued ++ (saveAll getBuff r.pool [f]).1
  frameCount : r₁.frameCount = r.frameCount + (saveAll getBuff r.pool [f]).1.length

theorem Saved.frameCount_le {r r₁ : Restruct π} {f : List UInt8} (h : Saved getBuff r f r₁) :
    r.frameCount ≤ r₁.frameCount ∧ r₁.frameCount ≤ r.frameCount + 1 := by
  have hlen : (saveAll getBuff r.pool [f]).1.length ≤ 1 := by
    simp only [saveAll]
    split <;> simp
  have := h.frameCount
  omega

theorem Scanned.of_emit {r r₁ r' : Restruct π} {s : List UInt8} {n : Nat} (hs : s ≠ [])
    (hv : frameVerdict s = .emit n) (hsaved : Saved getBuff r (s.take n) r₁)
    (h : Scanned getBuff r₁ (s.drop n) r') : Scanned getBuff r s r' := by
  have hscan := frameScanner.scan_emit hs hv
  have hf : framesOf s = [s.take n] ++ framesOf (s.drop n) := by
    rw [framesOf, hscan]; rfl
  have hr : restOf s = restOf (s.drop n) := by
    rw [restOf, hscan]; rfl
  constructor
  · rw [h.pending, hr]
  · rw [h.exitLen, hr]
  · rw [h.pool, hsaved.pool, hf, saveAll_append]
  · rw [h.queued, hsaved.queued, hsaved.pool, hf, saveAll_append, List.append_assoc]
  · rw [h.frameCount, hsaved.frameCount, hsaved.pool, hf, saveAll_append, List.length_append]
    push_cast
    omega

/-- `SaveFrame` saves the frame at the index, or drops it when there is no block. -/
theorem Calm.saveFrame_spec {r : Restruct π} {recv : List UInt8} (h : Calm int r.parser recv)
    (getBuff : π → Option Block × π) (i len : Int) (h0 : 0 ≤ i) (hlen : 1 ≤ len) (hmax : len ≤ memPoolBlockSize)
    (hi : i + len ≤ (r.parser.stream recv).length) (hc0 : 0 ≤ r.frameCount)
    (hc : r.frameCount ≤ i) :
    ∃ r₁, saveFrame int getBuff r i recv len = .ok r₁ ∧
      Saved getBuff r (((r.parser.stream recv).drop i.toNat).take len.toNat) r₁ := by
  have hn := h.stream_length
  have hlen' : ((((r.parser.stream recv).drop i.toNat).take len.toNat).length : Int) = len := by
    rw [List.length_take, List.length_drop]; omega
  rcases hg : getBuff r.pool with ⟨_ | b, pool⟩
  · refine ⟨{ r with pool }, by simp only [saveFrame, hg], ?_⟩
    constructor <;> simp [saveAll, hg]
  · refine ⟨{ r with
      pool
      queued := r.queued ++
        [(b.put (((r.parser.stream recv).drop i.toNat).take len.toNat), len)]
      frameCount := r.frameCount + 1 }, ?_, ?_⟩
    · simp only [saveFrame, hg, h.copyFrame_eq h0 hlen hmax hi, ok_bind,
        h.int_eq (x := r.frameCount + 1) (by omega) (by omega)]
    · constructor
      · rfl
      · simp only [saveAll, hg]
      · simp only [saveAll, hg, hlen']
      · simp [saveAll, hg]

/-! ## The loop -/

/-- What the verdict at a head is, once its header has been read. -/
theorem frameVerdict_head {s : List UInt8} (hhead : s.headD 0 = frameHead)
    (hlen : frameLenMin ≤ s.length) :
    frameVerdict s =
      if headerLen s < frameLenMin ∨ headerLen s > frameLenMax then .skip
      else if s.length < headerLen s then .wait
      else if s.getD ((headerLen s).toNat - 1) 0 = frameEnd then .emit (headerLen s).toNat
      else .skip := by
  rw [frameVerdict, if_neg (not_not.mpr hhead), if_neg (by omega)]

/-- One round after another, the loop scans the stream from its index on. -/
theorem Calm.restructLoop_spec {recv : List UInt8} (fuel : Nat) {i : Int} {r : Restruct π}
    (h : Calm int r.parser recv) (h0 : 0 ≤ i) (hi : i ≤ (r.parser.stream recv).length)
    (hfuel : (r.parser.stream recv).length - i < fuel) (hc0 : 0 ≤ r.frameCount)
    (hc : r.frameCount ≤ i) :
    ∃ r', restructLoop int getBuff recv fuel i r = .ok r' ∧
      Scanned getBuff r ((r.parser.stream recv).drop i.toNat) r' := by
  induction fuel generalizing i r with
  | zero => omega
  | succ fuel ih =>
      have he := h.exitLen_nonneg
      have hn := h.stream_length
      obtain ⟨j, hj, hcase⟩ := h.getHeadIndex_spec h0 hi
      rw [restructLoop, h.totalLen_eq, if_neg (by omega), hj, ok_bind]
      rcases hcase with ⟨rfl, hend⟩ | ⟨hij, hjlt, hhead, hscan⟩
      · exact ⟨_, if_pos rfl, Scanned.of_nil hend⟩
      · have hdrop : (((r.parser.stream recv).drop j.toNat).length : Int) =
            (r.parser.stream recv).length - j := by
          rw [List.length_drop]; omega
        have hcons := drop_eq_getD_cons (s := r.parser.stream recv) (i := j.toNat) (by omega)
        have hhead' : ((r.parser.stream recv).drop j.toNat).headD 0 = frameHead := by
          rw [hcons, List.headD_cons, hhead]
        have hne : (r.parser.stream recv).drop j.toNat ≠ [] := by rw [hcons]; simp
        -- a head that is no frame is skipped, and the loop goes on behind it
        have hskip (hv : frameVerdict ((r.parser.stream recv).drop j.toNat) = .skip) :
            ∃ r', restructLoop int getBuff recv fuel (int (j + 1)) r = .ok r' ∧
              Scanned getBuff r ((r.parser.stream recv).drop i.toNat) r' := by
          obtain ⟨r', hr', hs⟩ := ih (i := j + 1) h (by omega) (by omega) (by omega) hc0 (by omega)
          rw [h.int_eq (x := j + 1) (by omega) (by omega)]
          refine ⟨r', hr', hs.of_scan_eq ?_⟩
          rw [hcons] at hv
          rw [hscan, hcons, frameScanner.scan_skip hv, show j.toNat + 1 = (j + 1).toNat by omega]
        -- a head the scan waits on stays in the buffer, with all that follows
        have hwait (hv : frameVerdict ((r.parser.stream recv).drop j.toNat) = .wait) :
            ∃ s', copyRestToExitBuff int r.parser j recv = .ok s' ∧
              Scanned getBuff r ((r.parser.stream recv).drop i.toNat) { r with parser := s' } := by
          have hroom := length_of_wait hv
          simp only [frameLenMax] at hroom
          obtain ⟨s', hs', hlen, hpend⟩ := h.copyRestToExitBuff_spec (i := j) (by omega) (by omega)
            (by simp only [exitBufferLen]; omega)
          refine ⟨s', hs', (Scanned.of_wait ?_ hpend hlen).of_scan_eq hscan⟩
          exact frameScanner.scan_wait hv
        rw [if_neg (by omega), h.int_eq (x := j + frameLenMin)
          (by simp only [frameLenMin]; omega) (by simp only [frameLenMin]; omega)]
        split
        · obtain ⟨s', hs', hsc⟩ := hwait (by
            rw [frameVerdict, if_neg (not_not.mpr hhead'), if_pos (by omega)])
          exact ⟨_, by rw [hs']; rfl, hsc⟩
        · rename_i hmin
          have hverdict := frameVerdict_head hhead' (by omega)
          rw [h.getFrameLen_eq (by omega) (by omega), ok_bind]
          by_cases hbad : headerLen ((r.parser.stream recv).drop j.toNat) < frameLenMin ∨
              headerLen ((r.parser.stream recv).drop j.toNat) > frameLenMax
          · rw [if_pos hbad] at hverdict ⊢
            rw [h.int_eq (x := j + -1) (by omega) (by omega), if_neg (by omega), if_pos rfl]
            exact hskip hverdict
          · rw [if_neg hbad] at hverdict ⊢
            simp only [frameLenMin, frameLenMax] at hbad hmin
            generalize headerLen ((r.parser.stream recv).drop j.toNat) = len at hverdict hbad ⊢
            rw [h.int_eq (x := j + len) (by omega) (by omega)]
            split
            · obtain ⟨s', hs', hsc⟩ := hwait (by rw [hverdict, if_pos (by omega)])
              exact ⟨_, by rw [hs']; rfl, hsc⟩
            · rw [if_neg (by omega)] at hverdict ⊢
              rw [h.checkSum_eq (by omega) (by omega) (by omega), ok_bind]
              by_cases hend :
                  ((r.parser.stream recv).drop j.toNat).getD (len.toNat - 1) 0 = frameEnd
              · rw [if_pos hend] at hverdict
                obtain ⟨r₁, hr₁, hsaved⟩ := h.saveFrame_spec getBuff j len (by omega) (by omega) (by simp only [memPoolBlockSize]; omega)
                  (by omega) hc0 (by omega)
                have hcount := hsaved.frameCount_le
                obtain ⟨r', hr', hs⟩ := ih (i := j + len) (r := r₁) (hsaved.parser ▸ h) (by omega)
                  (by rw [hsaved.parser]; omega) (by rw [hsaved.parser]; omega) (by omega)
                  (by omega)
                simp only [hend, decide_true, Bool.not_true, Bool.false_eq_true, if_false, hr₁,
                  ok_bind]
                refine ⟨r', hr', ((Scanned.of_emit hne hverdict hsaved ?_)).of_scan_eq hscan⟩
                rw [List.drop_drop, show j.toNat + len.toNat = (j + len).toNat by omega]
                rwa [hsaved.parser] at hs
              · rw [if_neg hend] at hverdict
                simp only [hend, decide_false, Bool.not_false, if_true]
                exact hskip hverdict

/-- `RestructFrame` is the scan of what was kept and what was received. -/
theorem Calm.restructFrame_spec {s : CFrameRestruct} {recv : List UInt8} (h : Calm int s recv)
    (getBuff : π → Option Block × π) (pool : π) :
    ∃ r', restructFrame int getBuff s pool recv = .ok r' ∧
      Scanned getBuff ⟨s, pool, [], 0⟩ (s.stream recv) r' := by
  have he := h.exitLen_nonneg
  have hn := h.stream_length
  exact h.restructLoop_spec (r := ⟨s, pool, [], 0⟩) _ (Int.le_refl 0) (by simp only; omega)
    (by simp only; omega) (Int.le_refl 0) (Int.le_refl 0)

end CmdTran
