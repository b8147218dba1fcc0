import CmdTran.Lib.Buffer

/-!
# The frame parser

`CFrameRestruct` over its two physical buffers: the bytes kept from earlier calls
(`m_pExitBuffer[0..m_iExitLen)`) and the bytes just received. An access outside the live bytes of a
buffer, or a copy past the end of its target, is a fault and not a value.

The arithmetic of `int` is a parameter: `id` for exact integers, `int32` for the machine's.
-/

namespace CmdTran

/-! ## Constants -/

def memPoolBlockSize : Nat := 1024 + 128

def exitBufferLen : Nat := 2048

def frameHead : UInt8 := 0x7E

/-- The byte that `CheckSum` and `FrameInit` have at the end of a frame. -/
def frameEnd : UInt8 := 0xA5

def frameLenMin : Int := 5

def frameLenMax : Int := 1024 + 100

/-- The value of an `int` expression on the machine: 32 bits, two's complement. -/
def int32 (x : Int) : Int := x.bmod 0x100000000

abbrev Block := Buffer UInt8 memPoolBlockSize

/-! ## State -/

/-- What the code must not do. `spin` is a loop that does not end. -/
inductive Fault where
  | exitRead (off len : Int)
  | recvRead (off len : Int)
  | exitWrite (off len : Int)
  | blockWrite (off len : Int)
  | spin
  deriving DecidableEq, Repr

def orFault {α : Type} (f : Fault) : Option α → Except Fault α
  | some a => .ok a
  | none => .error f

@[simp] theorem ok_bind {α β : Type} (a : α) (f : α → Except Fault β) :
    (Except.ok a >>= f) = f a := rfl

structure CFrameRestruct where
  exitBuffer : Buffer UInt8 exitBufferLen
  exitLen : Int
  deriving DecidableEq

namespace CFrameRestruct

def new : CFrameRestruct := ⟨Buffer.fill exitBufferLen 0, 0⟩

def pending (s : CFrameRestruct) : List UInt8 := s.exitBuffer.toList.take s.exitLen.toNat

def exitByte (s : CFrameRestruct) (i : Int) : Except Fault UInt8 :=
  orFault (.exitRead i 1) (Checked.read s.pending i)

/-- The `len` bytes from `&m_pExitBuffer[off]` on. -/
def exitBytes (s : CFrameRestruct) (off len : Int) : Except Fault (List UInt8) :=
  orFault (.exitRead off len) (Checked.slice s.pending off len)

end CFrameRestruct

def recvByte (recv : List UInt8) (i : Int) : Except Fault UInt8 :=
  orFault (.recvRead i 1) (Checked.read recv i)

/-- The `len` bytes from `&pRecvBuffer[off]` on. -/
def recvBytes (recv : List UInt8) (off len : Int) : Except Fault (List UInt8) :=
  orFault (.recvRead off len) (Checked.slice recv off len)

def blockWrite (b : Block) (off : Int) (src : List UInt8) : Except Fault Block :=
  orFault (.blockWrite off src.length) (b.write off src)

def exitWrite (b : Buffer UInt8 exitBufferLen) (off : Int) (src : List UInt8) :
    Except Fault (Buffer UInt8 exitBufferLen) :=
  orFault (.exitWrite off src.length) (b.write off src)

/-! ## The helpers of `RestructFrame` -/

section Helpers

variable (int : Int → Int)

/-- `m_iExitLen + RecvLen` -/
def totalLen (s : CFrameRestruct) (recv : List UInt8) : Int := int (s.exitLen + recv.length)

/-- The loop of `GetHeadIndex` with `n` rounds left. -/
def headFrom (s : CFrameRestruct) (recv : List UInt8) : Nat → Int → Except Fault Int
  | 0, _ => .ok (-1)
  | n + 1, i => do
      let b ← (if i < s.exitLen then s.exitByte i else recvByte recv (int (i - s.exitLen)))
      if b = frameHead then .ok i else headFrom s recv n (int (i + 1))

def getHeadIndex (s : CFrameRestruct) (curIndex : Int) (recv : List UInt8) : Except Fault Int :=
  headFrom int s recv (totalLen int s recv - curIndex).toNat curIndex

/-- The loop of `CopyRestToExitBuff` with `n` rounds left: `m_pExitBuffer[index++] = m_pExitBuffer[i]`. -/
def shiftDown (s : CFrameRestruct) : Nat → Int → Int → Buffer UInt8 exitBufferLen →
    Except Fault (Buffer UInt8 exitBufferLen × Int)
  | 0, index, _, b => .ok (b, index)
  | n + 1, index, i, b => do
      let x ← orFault (.exitRead i 1) (Checked.read (b.toList.take s.exitLen.toNat) i)
      let b ← exitWrite b index [x]
      shiftDown s n (int (index + 1)) (int (i + 1)) b

def copyRestToExitBuff (s : CFrameRestruct) (curIndex : Int) (recv : List UInt8) :
    Except Fault CFrameRestruct :=
  if curIndex < s.exitLen then do
    let (b, index) ← shiftDown int s (s.exitLen - curIndex).toNat 0 curIndex s.exitBuffer
    let b ← exitWrite b index recv
    .ok ⟨b, int (index + recv.length)⟩
  else do
    let src ← recvBytes recv (int (curIndex - s.exitLen)) (int (totalLen int s recv - curIndex))
    let b ← exitWrite s.exitBuffer 0 src
    .ok ⟨b, int (totalLen int s recv - curIndex)⟩

def lenOfBytes (hi lo : UInt8) : Int := hi.toNat * 256 + lo.toNat

def getFrameLen (s : CFrameRestruct) (curIndex : Int) (recv : List UInt8) : Except Fault Int := do
  let frameLen ← (
    if curIndex < int (s.exitLen - 2) then do
      .ok (lenOfBytes (← s.exitByte (int (curIndex + 1))) (← s.exitByte (int (curIndex + 2))))
    else if curIndex = int (s.exitLen - 2) then do
      .ok (lenOfBytes (← s.exitByte (int (curIndex + 1))) (← recvByte recv 0))
    else if curIndex > int (s.exitLen - 2) then do
      .ok (lenOfBytes (← recvByte recv (int (int (curIndex + 1) - s.exitLen)))
        (← recvByte recv (int (int (curIndex + 2) - s.exitLen))))
    else .ok (-1))
  if frameLen < frameLenMin ∨ frameLen > frameLenMax then .ok (-1) else .ok frameLen

def checkSum (s : CFrameRestruct) (curIndex : Int) (recv : List UInt8) (frameLen : Int) :
    Except Fault Bool := do
  let code ← (
    if curIndex < s.exitLen ∧ int (curIndex + frameLen) ≤ s.exitLen then
      s.exitByte (int (int (curIndex + frameLen) - 1))
    else recvByte recv (int (int (int (curIndex - s.exitLen) + frameLen) - 1)))
  .ok (code = frameEnd)

/-- The copies of `SaveFrame` into the block it got. -/
def copyFrame (s : CFrameRestruct) (curIndex : Int) (recv : List UInt8) (frameLen : Int)
    (b : Block) : Except Fault Block :=
  if curIndex < s.exitLen ∧ int (curIndex + frameLen) ≤ s.exitLen then do
    blockWrite b 0 (← s.exitBytes curIndex frameLen)
  else if curIndex < s.exitLen ∧ int (curIndex + frameLen) > s.exitLen then do
    let b ← blockWrite b 0 (← s.exitBytes curIndex (int (s.exitLen - curIndex)))
    blockWrite b (int (s.exitLen - curIndex))
      (← recvBytes recv 0 (int (frameLen - int (s.exitLen - curIndex))))
  else do
    blockWrite b 0 (← recvBytes recv (int (curIndex - s.exitLen)) frameLen)

end Helpers

/-! ## `RestructFrame` -/

/-- What a call of `RestructFrame` changes: the parser, the block pool, the calls of `AddToList`
(block and length, oldest first) and the number it returns. -/
structure Restruct (π : Type) where
  parser : CFrameRestruct
  pool : π
  queued : List (Block × Int)
  frameCount : Int

section Restruct

variable {π : Type} (int : Int → Int) (getBuff : π → Option Block × π)

/-- `SaveFrame`, and the count of its caller. -/
def saveFrame (r : Restruct π) (curIndex : Int) (recv : List UInt8) (frameLen : Int) :
    Except Fault (Restruct π) :=
  match getBuff r.pool with
  | (none, pool) => .ok { r with pool }
  | (some b, pool) => do
      let b ← copyFrame int r.parser curIndex recv frameLen b
      .ok { r with
        pool
        queued := r.queued ++ [(b, frameLen)]
        frameCount := int (r.frameCount + 1) }

/-- The loop of `RestructFrame`. -/
def restructLoop (recv : List UInt8) : Nat → Int → Restruct π → Except Fault (Restruct π)
  | 0, _, _ => .error .spin
  | fuel + 1, curIndex, r =>
      let s := r.parser
      if curIndex > totalLen int s recv then .ok { r with parser := { s with exitLen := 0 } }
      else do
        let curIndex ← getHeadIndex int s curIndex recv
        if -1 = curIndex then .ok { r with parser := { s with exitLen := 0 } }
        else if int (curIndex + frameLenMin) > totalLen int s recv then do
          .ok { r with parser := ← copyRestToExitBuff int s curIndex recv }
        else do
          let frameLen ← getFrameLen int s curIndex recv
          -- a bad length is -1 here, and passes the comparison
          if int (curIndex + frameLen) > totalLen int s recv then do
            .ok { r with parser := ← copyRestToExitBuff int s curIndex recv }
          else if -1 = frameLen then restructLoop recv fuel (int (curIndex + 1)) r
          else do
            let good ← checkSum int s curIndex recv frameLen
            if !good then restructLoop recv fuel (int (curIndex + 1)) r
            else do
              let r ← saveFrame int getBuff r curIndex recv frameLen
              restructLoop recv fuel (int (curIndex + frameLen)) r

/-- Every round moves on by a byte at least, so this many rounds are enough
(`Calm.restructFrame_spec`). -/
def restructFrame (s : CFrameRestruct) (pool : π) (recv : List UInt8) :
    Except Fault (Restruct π) :=
  restructLoop int getBuff recv ((s.exitLen + recv.length).toNat + 2) 0 ⟨s, pool, [], 0⟩

end Restruct

end CmdTran
