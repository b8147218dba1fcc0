import CmdTran.Lib.System
import CmdTran.Stream.Chain

/-!
# The chain by its index

The operations of `CMemChain` that take an index, and all its operations in any order. `new` gives out
any address that is not in use, one that has been deleted too.

`none` is what C++ does not define: an access through a pointer that is `NULL` or deleted.
-/

namespace CmdTran

namespace CMemChain

def getIndex (c : CMemChain) (index : Int) : Option (Option Nat) :=
  if index < 0 then some none else Chain.follow c.nodes index.toNat c.chainHead

/-- The end of `DeleteAt`: `ptmp` is taken out from behind `pPreHead`. -/
def deleteBehind (c : CMemChain) (pPreHead ptmp : Nat) : Option CMemChain :=
  let chainEnd := if some ptmp = c.chainEnd then some pPreHead else c.chainEnd
  (c.nodes ptmp).bind fun tmp =>
    (c.nodes pPreHead).map fun preHead =>
      { c with
        nodes := Function.update (Function.update c.nodes pPreHead (some { preHead with next := tmp.next }))
          ptmp none
        chainEnd
        size := c.size - 1 }

def deleteAt (c : CMemChain) (index : Int) : Option (CMemChain × Bool) :=
  if index < 0 then some (c, false)
  else
    match c.chainHead with
    | none => some (c, false)
    | some head =>
        if c.chainHead = c.chainEnd then
          some ({ c with
            nodes := Function.update c.nodes head none
            chainHead := none
            chainEnd := none
            size := c.size - 1 }, true)
        else
          (c.nodes head).bind fun cell =>
            -- the loop goes from `pos = 1` on
            (Chain.trail c.nodes (index - 1).toNat head cell.next).bind fun
              | (_, none) => some (c, false)
              | (pPreHead, some ptmp) => (c.deleteBehind pPreHead ptmp).map fun c => (c, true)

/-- The node is copied out after `DeleteAt`. -/
def pop (c : CMemChain) : Option (CMemChain × StreamNode) :=
  let ret := c.chainHead
  (c.deleteAt 0).bind fun r => ((ret.bind r.1.nodes).map Cell.item).map fun node => (r.1, node)

/-! ## The chain in use -/

/-- `Push` gets a buffer, and `pNew` is what `new` returns. -/
inductive Op where
  | push (pNew buffer len : Nat) (backfun : Bool) (tag : Nat)
  | deleteHead
  | deleteAt (index : Int)
  | pop
  deriving DecidableEq

def step (c : CMemChain) : Op → Option CMemChain
  | .push pNew buffer len backfun tag =>
      if (c.nodes pNew).isNone then { c with heap := pNew }.push buffer len backfun tag else none
  | .deleteHead => c.deleteHead
  | .deleteAt index => (c.deleteAt index).map Prod.fst
  | .pop => c.pop.map Prod.fst

/-! ## What should hold -/

/-- The two pointers are `NULL` together; the nodes from the first one on come to an end, none of them
twice; the last one is where `m_pChainEnd` points, and `m_iSize` counts them. -/
structure Formed (c : CMemChain) : Prop where
  ends : c.chainHead = none ↔ c.chainEnd = none
  nodes : ∃ l, Chain.Linked c.nodes c.chainHead l ∧ (l.map Prod.fst).Nodup ∧
    c.chainEnd = l.getLast?.map Prod.fst ∧ c.size = l.length

/-- Every operation but `Pop` is defined. -/
structure Goes (c : CMemChain) : Prop where
  push : ∀ pNew buffer len backfun tag, c.nodes pNew = none →
    (c.step (.push pNew buffer len backfun tag)).isSome
  deleteHead : (c.step .deleteHead).isSome
  deleteAt : ∀ index, (c.step (.deleteAt index)).isSome

/-- The operations that are compared with those of a list. -/
inductive IndexOp where
  | getIndex (index : Int)
  | deleteAt (index : Int)
  | pop
  deriving DecidableEq

/-- The index is that of a node. -/
def InRange (l : List (Nat × StreamNode)) (index : Int) : Prop := 0 ≤ index ∧ index < l.length

instance (l : List (Nat × StreamNode)) (index : Int) : Decidable (InRange l index) :=
  inferInstanceAs (Decidable (_ ∧ _))

/-- The operation on the chain of these nodes is that on the list. -/
def Agrees (c : CMemChain) (l : List (Nat × StreamNode)) : IndexOp → Prop
  | .getIndex index =>
      c.getIndex index = some (if InRange l index then l[index.toNat]?.map Prod.fst else none)
  | .deleteAt index => ∃ c' ret, c.deleteAt index = some (c', ret) ∧
      if InRange l index then ret = true ∧ Denotes c' (l.eraseIdx index.toNat)
      else ret = false ∧ c' = c
  | .pop => ∀ first rest, l = first :: rest → ∃ c', c.pop = some (c', first.2) ∧ Denotes c' rest

/-- `DeleteAt(0)` and `Pop` are on a list only when there is little or nothing to do. -/
def AgreesFor (l : List (Nat × StreamNode)) : IndexOp → Prop
  | .getIndex _ => True
  | .deleteAt index => index < 0 ∨ l = [] ∨ l.length = 1 ∧ index = 0 ∨ 2 ≤ l.length ∧ 1 ≤ index
  | .pop => l = []

end CMemChain

def chains : StepSystem CMemChain CMemChain.Op where
  start := .new
  step := CMemChain.step

end CmdTran
