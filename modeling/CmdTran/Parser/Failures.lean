import Mathlib.Logic.Function.Iterate
import CmdTran.Parser.Theorems

/-!
# Frames without a block

`GetBuff` may return `NULL` at any of its calls. `SaveFrame` calls it once for each frame, and the frame
is queued exactly when that call got a block; nothing else of `RestructFrame` depends on it.
-/

namespace CmdTran

variable {π π₀ : Type}

/-! ## The calls of `GetBuff` -/

section Calls

variable (getBuff : π → Option Block × π)

/-- The pool after `n` calls. -/
def poolAfter (pool : π) (n : Nat) : π := (fun p => (getBuff p).2)^[n] pool

/-- Whether each of the next `n` calls gets a block. -/
def grants : π → Nat → List Bool
  | _, 0 => []
  | pool, n + 1 => (getBuff pool).1.isSome :: grants (getBuff pool).2 n

/-- The frames whose own answer is yes. -/
def served (frames : List (List UInt8)) (grants : List Bool) : List (List UInt8) :=
  ((frames.zip grants).filter (·.2)).map (·.1)

variable {getBuff}

theorem saveAll_pool (pool : π) (fs : List (List UInt8)) :
    (saveAll getBuff pool fs).2 = poolAfter getBuff pool fs.length := by
  induction fs generalizing pool with
  | nil => rfl
  | cons f fs ih =>
      rw [List.length_cons, poolAfter, Function.iterate_succ_apply]
      simp only [saveAll]
      split
      · rename_i hnone
        rw [ih, hnone, poolAfter]
      · rename_i hsome
        rw [ih, hsome, poolAfter]

theorem saveAll_frames (pool : π) {fs : List (List UInt8)}
    (hfs : ∀ f ∈ fs, f.length ≤ memPoolBlockSize) :
    (saveAll getBuff pool fs).1.map taskFrame = served fs (grants getBuff pool fs.length) := by
  induction fs generalizing pool with
  | nil => rfl
  | cons f fs ih =>
      have hrest := fun pool => ih pool fun g hg => hfs g (List.mem_cons_of_mem f hg)
      rw [List.length_cons, grants, served, List.zip_cons_cons]
      simp only [saveAll]
      split
      · rename_i hnone
        rw [hrest, hnone, List.filter_cons_of_neg (by simp), served]
      · rename_i b pool' hsome
        rw [List.map_cons, hrest, hsome, List.filter_cons_of_pos (by simp), List.map_cons, served,
          taskFrame, Int.toNat_natCast, b.take_put (hfs f List.mem_cons_self)]

end Calls

/-! ## Two runs of a call -/

/-- A call with any answers, next to one that always got a block. -/
structure DropsOnly (getBuff : π → Option Block × π) (pool : π) (r : Restruct π) (r₀ : Restruct π₀) :
    Prop where
  pending : r.parser.pending = r₀.parser.pending
  exitLen : r.parser.exitLen = r₀.parser.exitLen
  calls : r.pool = poolAfter getBuff pool r₀.queued.length
  frames : r.queued.map taskFrame =
    served (r₀.queued.map taskFrame) (grants getBuff pool r₀.queued.length)
  frameCount : r.frameCount = r.queued.length

variable {getBuff : π → Option Block × π} {getBuff₀ : π₀ → Option Block × π₀}

theorem Scanned.dropsOnly (hpool₀ : ∀ p, (getBuff₀ p).1 ≠ none) {s : CFrameRestruct} {pool : π}
    {pool₀ : π₀} {stream : List UInt8} {r : Restruct π} {r₀ : Restruct π₀}
    (h : Scanned getBuff ⟨s, pool, [], 0⟩ stream r)
    (h₀ : Scanned getBuff₀ ⟨s, pool₀, [], 0⟩ stream r₀) : DropsOnly getBuff pool r r₀ := by
  have hframes₀ := h₀.frames hpool₀
  have hlen : r₀.queued.length = (framesOf stream).length := by
    rw [← hframes₀, List.length_map]
  refine ⟨h.pending.trans h₀.pending.symm, h.exitLen.trans h₀.exitLen.symm, ?_, ?_, ?_⟩
  · rw [h.pool, saveAll_pool, hlen]
  · rw [h.queued, List.nil_append, saveAll_frames pool fun _ hf => framesOf_length_le hf, hframes₀,
      hlen]
  · rw [h.frameCount, h.queued, List.nil_append, Int.zero_add]

/-- Where the arithmetic of the call is exact, it and the call without failures return. -/
theorem Calm.dropsOnly {int : Int → Int} {s : CFrameRestruct} {recv : List UInt8}
    (h : Calm int s recv) (hpool₀ : ∀ p, (getBuff₀ p).1 ≠ none) (pool : π) (pool₀ : π₀) :
    ∃ r r₀, restructFrame int getBuff s pool recv = .ok r ∧
      restructFrame int getBuff₀ s pool₀ recv = .ok r₀ ∧ DropsOnly getBuff pool r r₀ := by
  obtain ⟨r, hr, hscan⟩ := h.restructFrame_spec getBuff pool
  obtain ⟨r₀, hr₀, hscan₀⟩ := h.restructFrame_spec getBuff₀ pool₀
  exact ⟨r, r₀, hr, hr₀, hscan.dropsOnly hpool₀ hscan₀⟩

end CmdTran
