import CmdTran.Lib.Chain

/-!
# The chain of buffers

`CMemChain` as it is in memory: its nodes by address, its two pointers and its counter. `new` gives out
addresses that have not been in use before.

A node has a tag that the code does not have: the number of the `SendData` that it is of.
-/

namespace CmdTran

/-- The fields of a `MemNode` other than `pNext`; `pBuffer` is an address. -/
structure StreamNode where
  pBuffer : Nat
  callBackFun : Bool
  begin : Nat
  len : Nat
  tag : Nat
  deriving DecidableEq

/-- `heap` is the next address that `new` gives out. `m_iSize` is an `int`; `size` is the same for a chain of
fewer than 2^31 nodes. -/
structure CMemChain where
  nodes : Nat → Option (Cell Nat StreamNode)
  heap : Nat
  chainHead : Option Nat
  chainEnd : Option Nat
  size : Int

namespace CMemChain

def new : CMemChain := ⟨fun _ => none, 0, none, none, 0⟩

/-- `none` is what C++ does not define: a write through a pointer that is `NULL` or deleted. -/
def push (c : CMemChain) (buffer len : Nat) (backfun : Bool) (tag : Nat) : Option CMemChain :=
  let pNew := c.heap
  let node : Cell Nat StreamNode := ⟨none, buffer, backfun, 0, len, tag⟩
  if c.chainHead = none ∧ c.chainEnd = none then
    some ⟨Function.update c.nodes pNew (some node), c.heap + 1, some pNew, some pNew, c.size + 1⟩
  else
    c.chainEnd.bind fun last =>
      (c.nodes last).map fun cell =>
        ⟨Function.update (Function.update c.nodes last (some { cell with next := some pNew })) pNew
          (some node), c.heap + 1, c.chainHead, some pNew, c.size + 1⟩

/-- `*GetHead()` -/
def head (c : CMemChain) : Option StreamNode :=
  (c.chainHead.bind c.nodes).map Cell.item

def deleteHead (c : CMemChain) : Option CMemChain :=
  match c.chainHead with
  | none => some c
  | some node =>
      if c.chainHead = c.chainEnd then
        some { c with
          nodes := Function.update c.nodes node none
          chainHead := none
          chainEnd := none
          size := c.size - 1 }
      else
        (c.nodes node).map fun cell =>
          { c with
            nodes := Function.update c.nodes node none
            chainHead := cell.next
            size := c.size - 1 }

/-- `node->begin += ret` for the first node. -/
def advance (c : CMemChain) (ret : Nat) : CMemChain :=
  match c.chainHead with
  | none => c
  | some node =>
      { c with
        nodes := Function.update c.nodes node <|
          (c.nodes node).map fun cell =>
            { cell with item := { cell.item with begin := cell.item.begin + ret } } }

/-- The nodes, from the head on. -/
def contents (c : CMemChain) : List StreamNode := Chain.walk c.nodes c.size.toNat c.chainHead

/-! ## The chain as a list -/

/-- The chain consists of these nodes, given with their addresses. -/
structure Denotes (c : CMemChain) (l : List (Nat × StreamNode)) : Prop where
  linked : Chain.Linked c.nodes c.chainHead l
  last : c.chainEnd = l.getLast?.map Prod.fst
  size : c.size = l.length

/-- `new` has given out the addresses of all nodes. -/
structure Rep (c : CMemChain) (l : List (Nat × StreamNode)) : Prop extends Denotes c l where
  fresh : ∀ a ∈ l.map Prod.fst, a < c.heap

variable {c : CMemChain} {l : List (Nat × StreamNode)} {a : Nat} {x : StreamNode}

theorem denotes_new : Denotes new [] := ⟨rfl, rfl, rfl⟩

theorem rep_new : Rep new [] := ⟨denotes_new, fun _ h => nomatch h⟩

theorem Rep.contents (h : Rep c l) : c.contents = l.map Prod.snd := by
  rw [CMemChain.contents, h.size, Int.toNat_natCast]
  exact h.linked.walk

theorem Denotes.head_eq (h : Denotes c ((a, x) :: l)) : c.head = some x := by
  obtain ⟨hhead, next, hcell, _⟩ := h.linked.head
  simp only [CMemChain.head, hhead, Option.bind_some, hcell, Option.map_some]

/-- There is one node exactly when the two pointers are the same. -/
theorem Denotes.one_iff (h : Denotes c ((a, x) :: l)) : c.chainHead = c.chainEnd ↔ l = [] := by
  rw [h.linked.head.1, h.last, eq_comm]
  have hlinked : Chain.Linked c.nodes c.chainHead ([] ++ (a, x) :: l) := h.linked
  exact hlinked.last_iff

/-! ### Push -/

theorem Denotes.pushed (h : Denotes c l) (hnew : c.heap ∉ l.map Prod.fst) (buffer len : Nat)
    (backfun : Bool) (tag : Nat) :
    ∃ c', c.push buffer len backfun tag = some c' ∧ c'.heap = c.heap + 1 ∧
      Denotes c' (l ++ [(c.heap, ⟨buffer, backfun, 0, len, tag⟩)]) := by
  let node : StreamNode := ⟨buffer, backfun, 0, len, tag⟩
  have hlast' : some c.heap = (l ++ [(c.heap, node)]).getLast?.map Prod.fst := by simp
  have hsize : c.size + 1 = (l ++ [(c.heap, node)]).length := by
    rw [h.size, List.length_append, List.length_singleton]
    rfl
  have hlinked := h.linked
  have hlast := h.last
  rcases List.eq_nil_or_concat l with rfl | ⟨init, ⟨e, y⟩, rfl⟩
  · have hempty : c.chainHead = none ∧ c.chainEnd = none := ⟨hlinked, hlast⟩
    have hcell : Chain.Linked (Function.update c.nodes c.heap (some ⟨none, node⟩)) (some c.heap)
        [(c.heap, node)] := ⟨rfl, none, Function.update_self _ _ _, rfl⟩
    exact ⟨_, if_pos hempty, rfl, hcell, hlast', hsize⟩
  · rw [List.concat_eq_append] at hlast hlinked hnew hlast' hsize ⊢
    have hend : c.chainEnd = some e := by simpa using hlast
    have hsome : ¬(c.chainHead = none ∧ c.chainEnd = none) := by
      rw [hend]
      exact fun hboth => nomatch hboth.2
    obtain ⟨_, _, hcell, rfl⟩ := hlinked.suffix
    have hpush : c.push buffer len backfun tag =
        some ⟨Function.update (Function.update c.nodes e (some ⟨some c.heap, y⟩)) c.heap
          (some ⟨none, node⟩), c.heap + 1, c.chainHead, some c.heap, c.size + 1⟩ := by
      rw [CMemChain.push, if_neg hsome, hend, Option.bind_some, hcell]
      rfl
    exact ⟨_, hpush, rfl, hlinked.concat hnew node, hlast', hsize⟩

theorem Rep.push (h : Rep c l) (buffer len : Nat) (backfun : Bool) (tag : Nat) :
    ∃ c', c.push buffer len backfun tag = some c' ∧
      Rep c' (l ++ [(c.heap, ⟨buffer, backfun, 0, len, tag⟩)]) := by
  have hnew : c.heap ∉ l.map Prod.fst := fun hmem => absurd (h.fresh _ hmem) (Nat.lt_irrefl _)
  obtain ⟨c', hpush, hheap, hdenotes⟩ := h.pushed hnew buffer len backfun tag
  refine ⟨c', hpush, hdenotes, ?_⟩
  intro a ha
  rw [List.map_append, List.mem_append] at ha
  rcases ha with ha | ha
  · have := h.fresh a ha
    omega
  · have : a = c.heap := List.mem_singleton.mp ha
    omega

/-! ### DeleteHead -/

/-- The first node is deleted. -/
theorem Denotes.headDeleted (h : Denotes c ((a, x) :: l)) :
    ∃ c', c.deleteHead = some c' ∧ c'.nodes = Function.update c.nodes a none ∧
      c'.heap = c.heap ∧ Denotes c' l := by
  obtain ⟨hhead, next, hcell, hrest⟩ := h.linked.head
  have hlinked := h.linked.tail hcell
  have hsize : c.size - 1 = l.length := by
    rw [h.size, List.length_cons]
    omega
  have hlast := h.last
  have hone := h.one_iff
  rw [CMemChain.deleteHead]
  rw [hhead] at hone ⊢
  dsimp only
  split
  · rename_i hsame
    rw [hone] at hsame
    subst hsame
    exact ⟨_, rfl, rfl, rfl, rfl, rfl, hsize⟩
  · rename_i hmore
    rw [hone] at hmore
    rw [hcell]
    refine ⟨_, rfl, rfl, rfl, hlinked, ?_, hsize⟩
    cases l with
    | nil => exact absurd rfl hmore
    | cons p l =>
        dsimp only
        rw [hlast, List.getLast?_cons_cons]

theorem Rep.deleteHead (h : Rep c ((a, x) :: l)) : ∃ c', c.deleteHead = some c' ∧ Rep c' l := by
  obtain ⟨c', hdelete, _, hheap, hdenotes⟩ := h.headDeleted
  refine ⟨c', hdelete, hdenotes, ?_⟩
  intro b hb
  rw [hheap]
  exact h.fresh b (List.mem_cons_of_mem a hb)

theorem Rep.advance (h : Rep c ((a, x) :: l)) (ret : Nat) :
    Rep (c.advance ret) ((a, { x with begin := x.begin + ret }) :: l) := by
  obtain ⟨hhead, next, hcell, _⟩ := h.linked.head
  let x' : StreamNode := { x with begin := x.begin + ret }
  have hadvance : c.advance ret =
      { c with nodes := Function.update c.nodes a (some ⟨next, x'⟩) } := by
    rw [CMemChain.advance, hhead]
    dsimp only
    rw [hcell]
    rfl
  have hlast : c.chainEnd = ((a, x') :: l).getLast?.map Prod.fst := by
    rw [h.last]
    cases l <;> rfl
  rw [hadvance]
  exact ⟨⟨h.linked.set hcell x', hlast, h.size⟩, h.fresh⟩

end CMemChain

end CmdTran
