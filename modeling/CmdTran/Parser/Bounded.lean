import CmdTran.Parser.Theorems

/-!
# The parser as the server uses it

`ProcessRecvData` reads into an array of fixed size, so every call of `RestructFrame` stays in `int`
and in its buffers, and the call is total.
-/

namespace CmdTran

/-- `MEM_POOL_BLOCK_SIZE *2`, a macro without brackets. -/
def readBuffLen : Nat := 1024 + 128 * 2

structure ReadBuff where
  bytes : List UInt8
  length_le : bytes.length ≤ readBuffLen

/-- A parser between two calls. -/
structure Parser where
  state : CFrameRestruct
  exitLen_nonneg : 0 ≤ state.exitLen
  exitLen_le : state.exitLen ≤ frameLenMax - 1

namespace Parser

def new : Parser := ⟨CFrameRestruct.new, by decide, by decide⟩

variable {π : Type} (getBuff : π → Option Block × π)

/-- `RestructFrame` on the bytes of one `read`. The error branch is never taken (`call_spec`). -/
def call (p : Parser) (pool : π) (buff : ReadBuff) : Restruct π :=
  match restructFrame int32 getBuff p.state pool buff.bytes with
  | .ok r => r
  | .error _ => ⟨p.state, pool, [], 0⟩

theorem calm (p : Parser) (buff : ReadBuff) : Calm int32 p.state buff.bytes := by
  have hle := p.exitLen_le
  have hbuff := buff.length_le
  apply FitsInt.calm p.exitLen_nonneg hle
  simp only [FitsInt, frameLenMax, frameLenMin, readBuffLen, intMax] at *
  omega

theorem call_spec (p : Parser) (pool : π) (buff : ReadBuff) :
    restructFrame int32 getBuff p.state pool buff.bytes = .ok (p.call getBuff pool buff) ∧
      Scanned getBuff ⟨p.state, pool, [], 0⟩ (p.state.pending ++ buff.bytes)
        (p.call getBuff pool buff) := by
  obtain ⟨r, hr, hscan⟩ := (p.calm buff).restructFrame_spec getBuff pool
  have hcall : p.call getBuff pool buff = r := by
    rw [call, hr]
  rw [hcall]
  exact ⟨hr, hscan⟩

def next (p : Parser) (pool : π) (buff : ReadBuff) : Parser :=
  ⟨(p.call getBuff pool buff).parser, (p.call_spec getBuff pool buff).2.exitLen_bounds.1,
    (p.call_spec getBuff pool buff).2.exitLen_bounds.2⟩

/-- What a call returns is the number of frames that it queued, and there is a bound on it. -/
theorem call_frameCount (p : Parser) (pool : π) (buff : ReadBuff) :
    (p.call getBuff pool buff).frameCount = (p.call getBuff pool buff).queued.length ∧
      (p.call getBuff pool buff).frameCount ≤ (frameLenMax - 1 + readBuffLen) / 5 := by
  obtain ⟨_, hscan⟩ := p.call_spec getBuff pool buff
  have hqueued := hscan.queued
  have hcount := hscan.frameCount
  have hframes := framesOf_count_le (p.state.pending ++ buff.bytes)
  have hsaved : ((saveAll getBuff pool (framesOf (p.state.pending ++ buff.bytes))).1.map
      taskFrame).length ≤ (framesOf (p.state.pending ++ buff.bytes)).length :=
    (map_taskFrame_saveAll pool fun f hf => framesOf_length_le hf).length_le
  have hpending := (p.calm buff).pending_length
  have hle := p.exitLen_le
  have hbuff := buff.length_le
  rw [List.length_map] at hsaved
  rw [List.length_append] at hframes
  rw [hqueued, hcount]
  simp only [List.nil_append, frameLenMax, readBuffLen] at *
  omega

end Parser

end CmdTran
