import CmdTran.MemChain.Theorems
import CmdTran.Output.Basic

/-!
# What the loops over a chain read

The loops of `CSocketSendTask::ProcessTask` and `RemoveSocket` on the chain as it is in memory, each read
of a field of a node as an access to the node. `none` is an access to a node that has been deleted. A
call-back does nothing to the chain.
-/

namespace CmdTran

/-- What is done with the buffer of a node. -/
inductive BufferUse where
  | callBack (pBuffer len code : Nat)
  | freeBlock (pBuffer : Nat)
  deriving DecidableEq

structure ChainLoop where
  chain : CMemChain
  currSendState : SendState
  uses : List BufferUse

namespace CMemChain

/-- `node->field` -/
def field {α : Type} (c : CMemChain) (node : Option Nat) (f : StreamNode → α) : Option α :=
  (node.bind c.nodes).map fun cell => f cell.item

end CMemChain

namespace ChainLoop

/-- `SEND_FAILD` -/
def sendFaild : Nat := 1

/-- `CallBackFun(pBuffer, len, code)`, if there is one, and `FreeBlock(pBuffer)`. -/
def release (s : ChainLoop) (node : Option Nat) (code : Nat) : Option ChainLoop :=
  (s.chain.field node StreamNode.callBackFun).bind fun backfun =>
    (if backfun then
      (s.chain.field node StreamNode.pBuffer).bind fun pBuffer =>
        (s.chain.field node StreamNode.len).map fun len =>
          { s with uses := s.uses ++ [.callBack pBuffer len code] }
    else some s).bind fun s =>
      (s.chain.field node StreamNode.pBuffer).map fun pBuffer =>
        { s with uses := s.uses ++ [.freeBlock pBuffer] }

/-! ## The send loop -/

/-- What is read for the call of `send`: where the rest of the buffer is, and its length. -/
def sendArgs (s : ChainLoop) : Option (Nat × Int) :=
  let node := s.chain.chainHead
  (s.chain.field node StreamNode.pBuffer).bind fun pBuffer =>
    (s.chain.field node StreamNode.begin).bind fun begin =>
      (s.chain.field node StreamNode.len).map fun len => (pBuffer + begin, (len : Int) - begin)

/-- From the return of `send` on, and whether the loop goes on. -/
def sent (s : ChainLoop) (rest ret : Int) : Option (ChainLoop × Bool) :=
  let node := s.chain.chainHead
  if ret < 0 then some (s, false)
  else if 0 < ret ∧ ret < rest then
    some ({ s with chain := s.chain.advance ret.toNat, currSendState := .waiting }, false)
  else if 0 < ret ∧ ret = rest then
    s.chain.deleteHead.bind fun chain =>
      ({ s with chain }.release node 0).map fun s => (s, true)
  else some (s, true)

/-- The loop up to the call of `send` after these results. -/
def sendLoop (s : ChainLoop) : List Int → Option ChainLoop
  | [] => if s.chain.size > 0 then s.sendArgs.map fun _ => s else some s
  | ret :: results =>
      if s.chain.size > 0 then
        s.sendArgs.bind fun args =>
          (s.sent args.2 ret).bind fun
            | (s, true) => sendLoop s results
            | (s, false) => some s
      else some s

/-! ## The drain loop -/

/-- `node` is used first, then deleted. -/
def drainOnce (s : ChainLoop) : Option ChainLoop :=
  (s.release s.chain.chainHead sendFaild).bind fun s =>
    s.chain.deleteHead.map fun chain => { s with chain }

/-- The loop for at most `n` rounds; `none` also if it is not over then. -/
def drainLoop (s : ChainLoop) : Nat → Option ChainLoop
  | 0 => if s.chain.size > 0 then none else some s
  | n + 1 => if s.chain.size > 0 then s.drainOnce.bind fun s => drainLoop s n else some s

/-- Each round takes one off `m_iSize`. -/
def drain (s : ChainLoop) : Option ChainLoop := s.drainLoop s.chain.size.toNat

/-! ## What should hold -/

/-- Of a node with `rest` bytes left, a `send` that fails or takes a part of them comes before one that
takes them all. -/
def NeverWhole (rest : Int) : List Int → Prop
  | [] => True
  | ret :: results => ret < 0 ∨ 0 < ret ∧ ret < rest ∨
      ¬(0 < ret ∧ ret = rest) ∧ NeverWhole rest results

instance decidableNeverWhole (rest : Int) : (results : List Int) → Decidable (NeverWhole rest results)
  | [] => isTrue trivial
  | _ :: results =>
      have := decidableNeverWhole rest results
      inferInstanceAs (Decidable (_ ∨ _ ∨ _ ∧ _))

/-- No `send` takes all that is left of the first node of the chain. -/
def HeadStays (l : List (Nat × StreamNode)) (results : List Int) : Prop :=
  ∀ p ∈ l.head?, NeverWhole ((p.2.len : Int) - p.2.begin) results

variable {s : ChainLoop} {c : CMemChain} {l : List (Nat × StreamNode)} {a : Nat} {x : StreamNode}
  {results : List Int}

/-! ## Reading -/

theorem field_some {α : Type} {cell : Cell Nat StreamNode} (h : c.nodes a = some cell)
    (f : StreamNode → α) : c.field (some a) f = some (f cell.item) := by
  rw [CMemChain.field, Option.bind_some, h]
  rfl

theorem field_none {α : Type} (h : c.nodes a = none) (f : StreamNode → α) :
    c.field (some a) f = none := by
  rw [CMemChain.field, Option.bind_some, h]
  rfl

theorem release_none (h : s.chain.nodes a = none) (code : Nat) : s.release (some a) code = none := by
  rw [release, field_none h]
  rfl

theorem release_some {cell : Cell Nat StreamNode} (h : s.chain.nodes a = some cell) (code : Nat) :
    ∃ uses, s.release (some a) code = some { s with uses } := by
  rw [release, field_some h, Option.bind_some]
  cases cell.item.callBackFun with
  | false =>
      rw [if_neg Bool.false_ne_true, Option.bind_some, field_some h]
      exact ⟨_, rfl⟩
  | true =>
      rw [if_pos rfl, field_some h, Option.bind_some, field_some h]
      dsimp only [Option.map_some, Option.bind_some]
      rw [field_some h]
      exact ⟨_, rfl⟩

theorem size_pos_iff (h : CMemChain.Denotes c l) : c.size > 0 ↔ l ≠ [] := by
  rw [h.size]
  cases l with
  | nil => simp
  | cons p l => simp

theorem sendArgs_eq (h : CMemChain.Denotes s.chain ((a, x) :: l)) :
    s.sendArgs = some (x.pBuffer + x.begin, (x.len : Int) - x.begin) := by
  obtain ⟨hhead, next, hcell, _⟩ := h.linked.head
  rw [sendArgs, hhead, field_some hcell, field_some hcell, field_some hcell]
  rfl

/-! ## The send loop -/

/-- A `send` that takes all that is left of the node: the node is deleted, then read. -/
theorem sent_whole (h : CMemChain.Denotes s.chain ((a, x) :: l)) {rest ret : Int}
    (hwhole : 0 < ret ∧ ret = rest) : s.sent rest ret = none := by
  obtain ⟨c', hdelete, hnodes, _⟩ := h.headDeleted
  have hgone : c'.nodes a = none := by
    rw [hnodes]
    exact Function.update_self _ _ _
  rw [sent, if_neg (by omega), if_neg (by omega), if_pos hwhole, hdelete, Option.bind_some,
    h.linked.head.1, release_none hgone]
  rfl

theorem sendLoop_isSome_cons (h : CMemChain.Denotes s.chain ((a, x) :: l)) (results : List Int) :
    (s.sendLoop results).isSome ↔ NeverWhole ((x.len : Int) - x.begin) results := by
  have hsize : s.chain.size > 0 := (size_pos_iff h).mpr (List.cons_ne_nil _ _)
  induction results with
  | nil =>
      rw [sendLoop, if_pos hsize, sendArgs_eq h]
      exact iff_of_true rfl trivial
  | cons ret results ih =>
      rw [sendLoop, if_pos hsize, sendArgs_eq h, Option.bind_some, NeverWhole]
      dsimp only
      by_cases hfailed : ret < 0
      · rw [sent, if_pos hfailed]
        exact iff_of_true rfl (.inl hfailed)
      · by_cases hpart : 0 < ret ∧ ret < (x.len : Int) - x.begin
        · rw [sent, if_neg hfailed, if_pos hpart]
          exact iff_of_true rfl (.inr (.inl hpart))
        · by_cases hwhole : 0 < ret ∧ ret = (x.len : Int) - x.begin
          · rw [sent_whole h hwhole]
            refine iff_of_false Bool.false_ne_true ?_
            rintro (hneg | hless | ⟨hnot, _⟩)
            · exact hfailed hneg
            · exact hpart hless
            · exact hnot hwhole
          · rw [sent, if_neg hfailed, if_neg hpart, if_neg hwhole]
            refine Iff.trans ih ?_
            constructor
            · exact fun hrest => .inr (.inr ⟨hwhole, hrest⟩)
            · rintro (hneg | hless | ⟨_, hrest⟩)
              · exact absurd hneg hfailed
              · exact absurd hless hpart
              · exact hrest

theorem sendLoop_isSome_iff (h : CMemChain.Denotes s.chain l) (results : List Int) :
    (s.sendLoop results).isSome ↔ HeadStays l results := by
  cases l with
  | nil =>
      have hsize : ¬s.chain.size > 0 := fun hpos => (size_pos_iff h).mp hpos rfl
      refine iff_of_true ?_ nofun
      cases results with
      | nil =>
          rw [sendLoop, if_neg hsize]
          rfl
      | cons ret results =>
          rw [sendLoop, if_neg hsize]
          rfl
  | cons p l =>
      rw [sendLoop_isSome_cons h]
      simp [HeadStays]

/-! ## The drain loop -/

theorem drainOnce_eq (h : CMemChain.Denotes s.chain ((a, x) :: l)) :
    ∃ s', s.drainOnce = some s' ∧ CMemChain.Denotes s'.chain l := by
  obtain ⟨hhead, next, hcell, _⟩ := h.linked.head
  obtain ⟨uses, hrelease⟩ := release_some hcell sendFaild
  obtain ⟨c', hdelete, _, _, hdenotes⟩ := h.headDeleted
  refine ⟨⟨c', s.currSendState, uses⟩, ?_, hdenotes⟩
  rw [drainOnce, hhead, hrelease, Option.bind_some, hdelete]
  rfl

theorem drain_eq (h : CMemChain.Denotes s.chain l) :
    ∃ s', s.drain = some s' ∧ CMemChain.Denotes s'.chain [] := by
  rw [drain, h.size, Int.toNat_natCast]
  induction l generalizing s with
  | nil => exact ⟨s, if_neg fun hpos => (size_pos_iff h).mp hpos rfl, h⟩
  | cons p l ih =>
      obtain ⟨s₁, honce, h₁⟩ := drainOnce_eq h
      obtain ⟨s', hrest, h'⟩ := ih h₁
      refine ⟨s', ?_, h'⟩
      rw [List.length_cons, drainLoop, if_pos ((size_pos_iff h).mpr (List.cons_ne_nil _ _)), honce]
      exact hrest

/-! ## Both loops -/

/-- The send loop reads no deleted node exactly as long as it deletes none; the drain loop never does. -/
theorem readsLive_iff (h : CMemChain.Denotes s.chain l) (results : List Int) :
    ((s.sendLoop results).isSome ↔ HeadStays l results) ∧ s.drain.isSome := by
  obtain ⟨s', hdrain, _⟩ := drain_eq h
  exact ⟨sendLoop_isSome_iff h results, Option.isSome_of_eq_some hdrain⟩

/-- A node of four bytes. -/
def fourBytes : StreamNode := ⟨10, true, 0, 4, 0⟩

/-- It is the only one. -/
def oneNode : ChainLoop :=
  ⟨⟨Function.update (fun _ => none) 1 (some ⟨none, fourBytes⟩), 2, some 1, some 1, 1⟩, .allow, []⟩

theorem denotes_oneNode : CMemChain.Denotes oneNode.chain [(1, fourBytes)] :=
  ⟨⟨rfl, none, rfl, rfl⟩, rfl, rfl⟩

theorem readsLive_iff_oneNode :
    ((oneNode.sendLoop [0, 3]).isSome ↔ HeadStays [(1, fourBytes)] [0, 3]) ∧ oneNode.drain.isSome :=
  readsLive_iff denotes_oneNode [0, 3]

/-- The kernel takes the four bytes at once. -/
theorem not_readsLive_oneNode :
    CMemChain.Denotes oneNode.chain [(1, fourBytes)] ∧ oneNode.sendLoop [4] = none :=
  ⟨denotes_oneNode, rfl⟩

end ChainLoop

end CmdTran
