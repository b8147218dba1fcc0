import CmdTran.Lib.Chain

/-!
# The list of memory blocks

`CMemBlockListManager` on `MemBlock`s as they are in memory; a block is known by its place there, and what
its `pNext` is before it is pushed is not known.

`none` is what C++ does not define, an access to a `MemBlock` that is not there, or a loop that does not
end.
-/

namespace CmdTran

variable {B : Type}

/-- `memory` has all `MemBlock`s, in and out of the list, with their `pNext` and `pBlock`. -/
structure CMemBlockListManager (B : Type) where
  memory : List (Cell Nat (Option B))
  pListHead : Option Nat
  pListTrail : Option Nat
  deriving DecidableEq

inductive BlockCall (B : Type) where
  | pushHead (pBlock : Option Nat)
  | pushTrail (pBlock : Option Nat)
  | getBlockHead
  | deletBlockWithAddr (addr : Option B)
  deriving DecidableEq

inductive BlockReply where
  | done (ret : Bool)
  | block (ret : Option Nat)
  deriving DecidableEq

namespace CMemBlockListManager

def new (memory : List (Cell Nat (Option B))) : CMemBlockListManager B := ⟨memory, none, none⟩

def cells (m : CMemBlockListManager B) : Nat → Option (Cell Nat (Option B)) := fun a => m.memory[a]?

/-- `block->pNext = next` -/
def setNext (m : CMemBlockListManager B) (block : Nat) (next : Option Nat) :
    Option (CMemBlockListManager B) :=
  (m.cells block).map fun cell => { m with memory := m.memory.set block { cell with next } }

def pushHead (m : CMemBlockListManager B) :
    Option Nat → Option (CMemBlockListManager B × Bool)
  | none => some (m, false)
  | some pBlock =>
      if m.pListHead = none then
        ({ m with pListHead := some pBlock, pListTrail := some pBlock }.setNext pBlock none).map
          fun m => (m, true)
      else
        (m.setNext pBlock m.pListHead).map fun m => ({ m with pListHead := some pBlock }, true)

/-- The branches of `PushTrail`. -/
def linkTrail (m : CMemBlockListManager B) (pBlock : Nat) : Option (CMemBlockListManager B) :=
  match m.pListTrail with
  | none => some { m with pListHead := some pBlock, pListTrail := some pBlock }
  | some trail => (m.setNext trail (some pBlock)).map fun m => { m with pListTrail := some pBlock }

def pushTrail (m : CMemBlockListManager B) :
    Option Nat → Option (CMemBlockListManager B × Bool)
  | none => some (m, false)
  | some pBlock =>
      (m.linkTrail pBlock).bind fun m =>
        m.pListTrail.bind fun trail => (m.setNext trail none).map fun m => (m, true)

def getBlockHead (m : CMemBlockListManager B) : Option (CMemBlockListManager B × Option Nat) :=
  match m.pListHead with
  | none => some (m, none)
  | some pRet =>
      (m.cells pRet).map fun cell =>
        let m := { m with pListHead := cell.next }
        (if m.pListHead = none then { m with pListTrail := none } else m, some pRet)

variable [DecidableEq B]

/-- After the loop: `pListTrail` goes back to `front` if `tmp` was the last block. -/
def fixTrail (m : CMemBlockListManager B) (front tmp : Option Nat) :
    CMemBlockListManager B × Option Nat :=
  (if tmp = m.pListTrail then { m with pListTrail := front } else m, tmp)

/-- The blocks behind the head. A walk over more blocks than there are goes round for ever. -/
def deletOther (m : CMemBlockListManager B) (addr : B) (head : Nat) (next : Option Nat) :
    Option (CMemBlockListManager B × Option Nat) :=
  (Chain.search m.cells (· = some addr) m.memory.length head next).bind fun
    | (front, none) => some (m.fixTrail (some front) none)
    | (front, some tmp) =>
        (m.cells tmp).bind fun found =>
          (m.setNext front found.next).map fun m => m.fixTrail (some front) (some tmp)

def deletBlockWithAddr (m : CMemBlockListManager B) (addr : Option B) :
    Option (CMemBlockListManager B × Option Nat) :=
  match addr, m.pListHead with
  | some addr, some head =>
      (m.cells head).bind fun cell =>
        if cell.item = some addr then some ({ m with pListHead := cell.next }.fixTrail none (some head))
        else m.deletOther addr head cell.next
  | _, _ => some (m, none)

def call (m : CMemBlockListManager B) :
    BlockCall B → Option (CMemBlockListManager B × BlockReply)
  | .pushHead pBlock => (m.pushHead pBlock).map fun r => (r.1, .done r.2)
  | .pushTrail pBlock => (m.pushTrail pBlock).map fun r => (r.1, .done r.2)
  | .getBlockHead => m.getBlockHead.map fun r => (r.1, .block r.2)
  | .deletBlockWithAddr addr => (m.deletBlockWithAddr addr).map fun r => (r.1, .block r.2)

/-- The calls one after another, with what they return. -/
def run (m : CMemBlockListManager B) :
    List (BlockCall B) → Option (CMemBlockListManager B × List BlockReply)
  | [] => some (m, [])
  | c :: calls => (m.call c).bind fun r => (run r.1 calls).map fun r' => (r'.1, r.2 :: r'.2)

end CMemBlockListManager

/-! ## What it is for -/

namespace BlockList

variable [DecidableEq B]

/-- The calls on a list of blocks; `pBlock` says which buffer a block has. -/
def call (pBlock : Nat → Option B) (blocks : List Nat) : BlockCall B → List Nat × BlockReply
  | .pushHead none | .pushTrail none => (blocks, .done false)
  | .pushHead (some block) => (block :: blocks, .done true)
  | .pushTrail (some block) => (blocks ++ [block], .done true)
  | .getBlockHead => (blocks.tail, .block blocks.head?)
  | .deletBlockWithAddr none => (blocks, .block none)
  | .deletBlockWithAddr (some addr) =>
      (blocks.eraseP (pBlock · = some addr), .block (blocks.find? (pBlock · = some addr)))

def run (pBlock : Nat → Option B) (blocks : List Nat) :
    List (BlockCall B) → List Nat × List BlockReply
  | [] => (blocks, [])
  | c :: calls =>
      let r := call pBlock blocks c
      let r' := run pBlock r.1 calls
      (r'.1, r.2 :: r'.2)

/-- A block that is pushed is one of the first `n` and not in the list. -/
def Allowed (n : Nat) (blocks : List Nat) : BlockCall B → Prop
  | .pushHead (some block) | .pushTrail (some block) => block < n ∧ block ∉ blocks
  | _ => True

/-- Every one of the calls is allowed where it is made. -/
def AllAllowed (n : Nat) (pBlock : Nat → Option B) (blocks : List Nat) : List (BlockCall B) → Prop
  | [] => True
  | c :: calls => Allowed n blocks c ∧ AllAllowed n pBlock (call pBlock blocks c).1 calls

end BlockList

/-- The chain of `pNext` from `pListHead` on has these blocks and ends behind the one that `pListTrail`
points to; both are `NULL` together. -/
structure CMemBlockListManager.Formed (m : CMemBlockListManager B) (blocks : List Nat) : Prop where
  chain : ∃ l, Chain.Linked m.cells m.pListHead l ∧ l.map Prod.fst = blocks
  trail : m.pListTrail = blocks.getLast?
  ends : m.pListHead = none ↔ m.pListTrail = none

end CmdTran
