import Mathlib.Logic.Function.Basic

/-!
# The lock-free queue

`CLockFreeQueue` with its calls run one after another. What the slots hold before the first `Push` is
not known.
-/

namespace CmdTran

/-- `QUEUE_LEN`, a macro without brackets. -/
def queueLen : Nat := 20 * 1024 * 1024

structure CLockFreeQueue (α : Type) where
  slots : Nat → α
  writeIndex : UInt32
  readIndex : UInt32
  maximumReadIndex : UInt32
  size : UInt32

def countToIndex (count : UInt32) : Nat := count.toNat % queueLen

/-- What a call returns: whether `Push` succeeded, the element of a `Pop` that did. -/
inductive Reply (α : Type) where
  | pushed (done : Bool)
  | popped (data : Option α)
  deriving DecidableEq

inductive Call (α : Type) where
  | push (data : α)
  | pop
  deriving DecidableEq

namespace CLockFreeQueue

variable {α : Type}

def new (junk : Nat → α) : CLockFreeQueue α := ⟨junk, 0, 0, 0, 0⟩

/-- `none` stands for a `Push` that never returns: the loop over `m_maximumReadIndex` spins until an
earlier `Push` has moved it up, and there is none under way. -/
def push (q : CLockFreeQueue α) (data : α) : Option (CLockFreeQueue α × Bool) :=
  let currentWriteIndex := q.writeIndex
  if countToIndex (currentWriteIndex + 1) = countToIndex q.readIndex then some (q, false)
  else
    let q := { q with
      writeIndex := currentWriteIndex + 1
      slots := Function.update q.slots (countToIndex currentWriteIndex) data }
    if q.maximumReadIndex = currentWriteIndex then
      some ({ q with maximumReadIndex := currentWriteIndex + 1, size := q.size + 1 }, true)
    else none

def pop (q : CLockFreeQueue α) : CLockFreeQueue α × Option α :=
  let currentReadIndex := q.readIndex
  if countToIndex currentReadIndex = countToIndex q.maximumReadIndex then (q, none)
  else
    ({ q with readIndex := currentReadIndex + 1, size := q.size - 1 },
      some (q.slots (countToIndex currentReadIndex)))

/-- The elements from `m_readIndex` to `m_maximumReadIndex`. -/
def contents (q : CLockFreeQueue α) : List α :=
  (List.range (q.maximumReadIndex - q.readIndex).toNat).map fun i =>
    q.slots (countToIndex (q.readIndex + UInt32.ofNat i))

def call (q : CLockFreeQueue α) : Call α → Option (CLockFreeQueue α × Reply α)
  | .push data => (q.push data).map fun r => (r.1, .pushed r.2)
  | .pop => some (q.pop.1, .popped q.pop.2)

/-- What the calls return, made one after another. -/
def replies (q : CLockFreeQueue α) : List (Call α) → Option (List (Reply α))
  | [] => some []
  | c :: calls => (q.call c).bind fun r => (replies r.1 calls).map (r.2 :: ·)

end CLockFreeQueue

/-! ## What it is for -/

namespace Fifo

variable {α : Type}

/-- A list of capacity `QUEUE_LEN - 1`, the oldest element first. -/
def call (elements : List α) : Call α → List α × Reply α
  | .push data =>
      if elements.length = queueLen - 1 then (elements, .pushed false)
      else (elements ++ [data], .pushed true)
  | .pop =>
      match elements with
      | [] => ([], .popped none)
      | oldest :: rest => (rest, .popped (some oldest))

def replies (elements : List α) : List (Call α) → List (Reply α)
  | [] => []
  | c :: calls => (call elements c).2 :: replies (call elements c).1 calls

end Fifo

end CmdTran
