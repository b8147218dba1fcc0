import CmdTran.MemChain.Theorems

/-!
# The end of a chain

A node that is taken out of the chain is deleted, by every operation. The destructor goes by the pointers of
the nodes, not by `m_iSize`, and saves each one before it deletes the node.
-/

namespace CmdTran

namespace CMemChain

/-- The destructor with at most `fuel` tests of its loop; the nodes that it deletes, in order. -/
def destroy (c : CMemChain) : Nat → Option (CMemChain × List Nat)
  | 0 => none
  | fuel + 1 =>
      match c.chainHead with
      | none => some (c, [])
      | some head =>
          (c.nodes head).bind fun cell =>
            (destroy { c with nodes := Function.update c.nodes head none, chainHead := cell.next } fuel).map
              fun r => (r.1, head :: r.2)

/-- `m_iSize` counts the nodes that are there. -/
def SizeCounts (c : CMemChain) : Prop :=
  ∃ addrs : List Nat, Chain.Occupies c.nodes addrs ∧ c.size = addrs.length

variable {c c' : CMemChain} {l : List (Nat × StreamNode)} {addrs : List Nat} {a b : Nat} {index : Int}

/-! ## Every operation -/

theorem Denotes.head_isSome (h : Denotes c l) (hhead : c.chainHead = some a) : (c.nodes a).isSome := by
  have hlinked := h.linked
  rw [hhead] at hlinked
  cases l with
  | nil => cases hlinked
  | cons p l =>
      obtain ⟨heq, next, hcell, _⟩ := hlinked
      cases heq
      exact Option.isSome_of_eq_some hcell

/-- One node is deleted, whatever becomes of the pointers. -/
theorem SizeCounts.delete (h : c.SizeCounts) (ha : (c.nodes a).isSome) {chainHead chainEnd : Option Nat} :
    SizeCounts ⟨Function.update c.nodes a none, c.heap, chainHead, chainEnd, c.size - 1⟩ := by
  obtain ⟨addrs, hoccupies, hsize⟩ := h
  have hmem : a ∈ addrs := (hoccupies.mem_iff a).mp ha
  refine ⟨addrs.erase a, hoccupies.delete a, ?_⟩
  have hpos := List.length_pos_of_mem hmem
  rw [List.length_erase_of_mem hmem]
  dsimp only
  omega

theorem SizeCounts.write (h : c.SizeCounts) (ha : (c.nodes a).isSome) (cell : Cell Nat StreamNode) :
    SizeCounts { c with nodes := Function.update c.nodes a (some cell) } := by
  obtain ⟨addrs, hoccupies, hsize⟩ := h
  exact ⟨addrs, hoccupies.write ha cell, hsize⟩

theorem SizeCounts.new (h : c.SizeCounts) (ha : c.nodes a = none) (cell : Cell Nat StreamNode) {heap : Nat}
    {chainHead chainEnd : Option Nat} :
    SizeCounts ⟨Function.update c.nodes a (some cell), heap, chainHead, chainEnd, c.size + 1⟩ := by
  obtain ⟨addrs, hoccupies, hsize⟩ := h
  refine ⟨a :: addrs, hoccupies.new ha cell, ?_⟩
  rw [List.length_cons]
  dsimp only
  omega

theorem SizeCounts.push (h : c.SizeCounts) (hnew : c.nodes c.heap = none) {buffer len tag : Nat}
    {backfun : Bool} (hs : c.push buffer len backfun tag = some c') : c'.SizeCounts := by
  rw [CMemChain.push] at hs
  split at hs
  · cases hs
    exact h.new hnew _
  · obtain ⟨last, _, hs⟩ := Option.bind_eq_some_iff.mp hs
    obtain ⟨cell, hlast, rfl⟩ := Option.map_eq_some_iff.mp hs
    have hne : c.heap ≠ last := by
      rintro rfl
      cases hnew.symm.trans hlast
    have hwritten := h.write (Option.isSome_of_eq_some hlast) { cell with next := some c.heap }
    exact hwritten.new ((Function.update_of_ne hne _ _).trans hnew) _

theorem SizeCounts.deleteHead (h : c.SizeCounts) (hd : Denotes c l) (hs : c.deleteHead = some c') :
    c'.SizeCounts := by
  rw [CMemChain.deleteHead] at hs
  split at hs
  · cases hs
    exact h
  · rename_i node hhead
    split at hs
    · cases hs
      exact h.delete (hd.head_isSome hhead)
    · obtain ⟨cell, hcell, rfl⟩ := Option.map_eq_some_iff.mp hs
      exact h.delete (Option.isSome_of_eq_some hcell)

theorem SizeCounts.deleteBehind (h : c.SizeCounts) (hs : c.deleteBehind a b = some c') :
    c'.SizeCounts := by
  obtain ⟨tmp, htmp, hs⟩ := Option.bind_eq_some_iff.mp hs
  obtain ⟨preHead, hpreHead, rfl⟩ := Option.map_eq_some_iff.mp hs
  have hwritten := h.write (Option.isSome_of_eq_some hpreHead) { preHead with next := tmp.next }
  refine hwritten.delete ?_
  dsimp only
  rcases Decidable.eq_or_ne b a with rfl | hne
  · rw [Function.update_self]
    rfl
  · rw [Function.update_of_ne hne]
    exact Option.isSome_of_eq_some htmp

theorem SizeCounts.deleteAt (h : c.SizeCounts) (hd : Denotes c l) {ret : Bool}
    (hs : c.deleteAt index = some (c', ret)) : c'.SizeCounts := by
  rw [CMemChain.deleteAt] at hs
  split at hs
  · cases hs
    exact h
  · split at hs
    · cases hs
      exact h
    · rename_i head hhead
      split at hs
      · cases hs
        exact h.delete (hd.head_isSome hhead)
      · obtain ⟨cell, _, hs⟩ := Option.bind_eq_some_iff.mp hs
        obtain ⟨⟨pPreHead, ptmp⟩, _, hs⟩ := Option.bind_eq_some_iff.mp hs
        cases ptmp with
        | none =>
            cases hs
            exact h
        | some ptmp =>
            obtain ⟨c'', hbehind, heq⟩ := Option.map_eq_some_iff.mp hs
            cases heq
            exact h.deleteBehind hbehind

theorem SizeCounts.step (h : c.SizeCounts) (hd : Denotes c l) {op : Op} (hs : c.step op = some c') :
    c'.SizeCounts := by
  cases op with
  | push pNew buffer len backfun tag =>
      rw [CMemChain.step] at hs
      split at hs
      · rename_i hnew
        have hheap : SizeCounts { c with heap := pNew } := h
        exact hheap.push (Option.isNone_iff_eq_none.mp hnew) hs
      · cases hs
  | deleteHead => exact h.deleteHead hd hs
  | deleteAt index =>
      obtain ⟨⟨c'', ret⟩, hdelete, rfl⟩ := Option.map_eq_some_iff.mp hs
      exact h.deleteAt hd hdelete
  | pop =>
      obtain ⟨⟨c'', node⟩, hpop, rfl⟩ := Option.map_eq_some_iff.mp hs
      obtain ⟨⟨c₁, ret⟩, hdelete, hcopy⟩ := Option.bind_eq_some_iff.mp hpop
      obtain ⟨node', _, heq⟩ := Option.map_eq_some_iff.mp hcopy
      cases heq
      exact h.deleteAt hd hdelete

theorem sizeCounts_new : new.SizeCounts :=
  ⟨[], ⟨List.nodup_nil, fun _ => iff_of_false Bool.false_ne_true List.not_mem_nil⟩, rfl⟩

/-! ## The destructor -/

/-- It deletes the nodes that are linked, and no others. -/
theorem destroy_eq (h : Chain.Linked c.nodes c.chainHead l) {fuel : Nat} (hfuel : l.length < fuel) :
    ∃ c', c.destroy fuel = some (c', l.map Prod.fst) ∧
      ∀ a, c'.nodes a = if a ∈ l.map Prod.fst then none else c.nodes a := by
  induction fuel generalizing c l with
  | zero => exact absurd hfuel (Nat.not_lt_zero _)
  | succ fuel ih =>
      cases l with
      | nil =>
          refine ⟨c, ?_, fun a => (if_neg List.not_mem_nil).symm⟩
          rw [destroy, show c.chainHead = none from h]
          rfl
      | cons p l =>
          obtain ⟨a, x⟩ := p
          obtain ⟨hhead, next, hcell, _⟩ := h.head
          have hlt : l.length < fuel := Nat.lt_of_succ_lt_succ hfuel
          obtain ⟨c', hrest, hnodes⟩ := ih
            (c := { c with nodes := Function.update c.nodes a none, chainHead := next }) (h.tail hcell) hlt
          refine ⟨c', ?_, fun b => ?_⟩
          · rw [destroy, hhead]
            dsimp only
            rw [hcell, Option.bind_some, hrest]
            rfl
          · rw [hnodes b, List.map_cons]
            dsimp only
            rcases Decidable.eq_or_ne b a with rfl | hne
            · rw [Function.update_self, ite_self, if_pos List.mem_cons_self]
            · rw [Function.update_of_ne hne]
              simp only [List.mem_cons, hne, false_or]

/-! ## Every run -/

/-- After any operations, the nodes that are there are as many as `m_iSize` says, and the destructor deletes
each of them once and then ends. -/
theorem nothingLeft_of_run {ops : List Op} (hr : chains.run .new ops = some c) :
    ∃ addrs : List Nat, Chain.Occupies c.nodes addrs ∧ c.size = addrs.length ∧
      ∀ fuel, addrs.length < fuel →
        ∃ c', c.destroy fuel = some (c', addrs) ∧ ∀ a, c'.nodes a = none := by
  have hstep : ∀ c op c', (∃ l, Denotes c l) ∧ c.SizeCounts → chains.step c op = some c' →
      (∃ l, Denotes c' l) ∧ c'.SizeCounts := by
    rintro c op c' ⟨⟨l, hd⟩, hcounts⟩ hs
    exact ⟨hd.step hs, hcounts.step hd hs⟩
  obtain ⟨⟨l, hd⟩, addrs, hoccupies, hsize⟩ :=
    chains.run_invariant hstep ⟨⟨[], denotes_new⟩, sizeCounts_new⟩ hr
  have hlength : addrs.length = l.length := Int.ofNat.inj (hsize.symm.trans hd.size)
  have hlinked := hd.linked.occupies hoccupies (Nat.le_of_eq hlength)
  refine ⟨l.map Prod.fst, hlinked, ?_, fun fuel hfuel => ?_⟩
  · rw [List.length_map]
    exact hd.size
  · rw [List.length_map] at hfuel
    obtain ⟨c', hdestroy, hnodes⟩ := destroy_eq hd.linked hfuel
    refine ⟨c', hdestroy, fun a => ?_⟩
    rw [hnodes a]
    split
    · rfl
    · rename_i hnotMem
      exact Option.not_isSome_iff_eq_none.mp fun hsome => hnotMem ((hlinked.mem_iff a).mp hsome)

/-- Four nodes with the middle ones deleted, and another one at the address of one of them. -/
theorem nothingLeft_of_run_threeNodes : ∃ c, chains.run .new threeNodes = some c ∧
    ∃ addrs : List Nat, Chain.Occupies c.nodes addrs ∧ c.size = addrs.length ∧
      ∀ fuel, addrs.length < fuel →
        ∃ c', c.destroy fuel = some (c', addrs) ∧ ∀ a, c'.nodes a = none :=
  have hdefined : (chains.run .new threeNodes).isSome := rfl
  have ⟨c, hr⟩ := Option.isSome_iff_exists.mp hdefined
  ⟨c, hr, nothingLeft_of_run hr⟩

end CMemChain

end CmdTran
