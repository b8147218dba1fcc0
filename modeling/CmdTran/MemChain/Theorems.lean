import CmdTran.MemChain.Basic

/-!
# The chain against a list

Every operation keeps the chain well formed. What `DeleteAt` takes out is the node behind `pPreHead`, and
that is never the first one of several.
-/

namespace CmdTran

namespace CMemChain

variable {c c' : CMemChain} {l : List (Nat × StreamNode)} {a b : Nat} {x y : StreamNode} {index : Int}

theorem Denotes.formed (h : Denotes c l) : c.Formed := by
  refine ⟨?_, l, h.linked, h.linked.nodup, h.last, h.size⟩
  rw [h.linked.head_eq, h.last]
  cases l <;> simp

/-- The chain determines its nodes. -/
theorem Denotes.unique {l' : List (Nat × StreamNode)} (h : Denotes c l) (h' : Denotes c l') : l = l' :=
  h.linked.unique h'.linked

/-! ## GetIndex -/

theorem Denotes.getIndex_eq (h : Denotes c l) (index : Int) :
    c.getIndex index = some (if InRange l index then l[index.toNat]?.map Prod.fst else none) := by
  rw [getIndex]
  split
  · rename_i hneg
    rw [if_neg fun hin : InRange l index => Int.not_le.mpr hneg hin.1]
  · rename_i hpos
    rw [h.linked.follow, List.head?_drop]
    split
    · rfl
    · rename_i hout
      have hlen : l.length ≤ index.toNat := by
        simp only [InRange] at hout
        omega
      rw [List.getElem?_eq_none hlen]
      rfl

/-! ## DeleteAt -/

/-- A node that is not the first one is taken out. -/
theorem Denotes.deleteBehind_eq {us zs : List (Nat × StreamNode)}
    (h : Denotes c (us ++ (a, x) :: (b, y) :: zs)) :
    ∃ c', c.deleteBehind a b = some c' ∧ Denotes c' (us ++ (a, x) :: zs) := by
  obtain ⟨_, _, ha, htail⟩ := h.linked.suffix
  obtain ⟨rfl, next, hb, _⟩ := htail
  have hsplit : us ++ (a, x) :: (b, y) :: zs = us ++ [(a, x)] ++ (b, y) :: zs := by simp
  have hnotMem : b ∉ (us ++ (a, x) :: zs).map Prod.fst := by
    have hlinked := h.linked
    rw [hsplit] at hlinked
    simpa using hlinked.notMem
  have hlast : (if some b = c.chainEnd then some a else c.chainEnd) =
      (us ++ (a, x) :: zs).getLast?.map Prod.fst := by
    have hiff := h.linked
    rw [hsplit] at hiff
    have hiff := hiff.last_iff
    rw [← hsplit, ← h.last, eq_comm] at hiff
    split
    · rename_i hend
      rw [hiff.mp hend]
      simp
    · rename_i hmore
      rw [hiff] at hmore
      rw [h.last]
      cases zs with
      | nil => exact absurd rfl hmore
      | cons p zs => simp
  have hsize : c.size - 1 = (us ++ (a, x) :: zs).length := by
    rw [h.size]
    simp
    omega
  have hdelete : c.deleteBehind a b = some { c with
      nodes := Function.update (Function.update c.nodes a (some ⟨next, x⟩)) b none
      chainEnd := if some b = c.chainEnd then some a else c.chainEnd
      size := c.size - 1 } := by
    rw [deleteBehind, hb, ha]
    rfl
  exact ⟨_, hdelete, (h.linked.unlink hb).update hnotMem none, hlast, hsize⟩

theorem Denotes.deleteAt_out (h : Denotes c l) (hout : index < 0 ∨ l = []) :
    c.deleteAt index = some (c, false) := by
  rw [deleteAt]
  rcases hout with hneg | rfl
  · exact if_pos hneg
  · rw [show c.chainHead = none from h.linked]
    exact ite_self _

/-- The only node goes, whatever the index. -/
theorem Denotes.deleteAt_one (h : Denotes c [(a, x)]) (hpos : 0 ≤ index) :
    ∃ c', c.deleteAt index = some (c', true) ∧ c'.nodes a = none ∧ Denotes c' [] := by
  obtain ⟨hhead, _⟩ := h.linked.head
  have hone := h.one_iff.mpr rfl
  have hsize : c.size - 1 = ([] : List (Nat × StreamNode)).length := by
    rw [h.size]
    rfl
  rw [deleteAt, if_neg (Int.not_lt.mpr hpos), hhead]
  dsimp only
  rw [← hhead, if_pos hone]
  exact ⟨_, rfl, Function.update_self _ _ _, rfl, rfl, hsize⟩

/-- Of several nodes the first one stays: the index 0 is as good as 1. -/
theorem Denotes.deleteAt_more (h : Denotes c ((a, x) :: l)) (hmore : l ≠ []) (hpos : 0 ≤ index) :
    if (index - 1).toNat < l.length then
      ∃ c', c.deleteAt index = some (c', true) ∧ Denotes c' ((a, x) :: l.eraseIdx (index - 1).toNat)
    else c.deleteAt index = some (c, false) := by
  obtain ⟨hhead, next, hcell, hrest⟩ := h.linked.head
  have hone : ¬c.chainHead = c.chainEnd := fun hone => hmore (h.one_iff.mp hone)
  generalize hn : (index - 1).toNat = n
  have hdelete : c.deleteAt index =
      match l[n]? with
      | none => some (c, false)
      | some ptmp =>
          (c.deleteBehind (Chain.lastOr a (l.take n)) ptmp.1).map fun c => (c, true) := by
    rw [deleteAt, if_neg (Int.not_lt.mpr hpos), hhead]
    dsimp only
    rw [← hhead, if_neg hone, hcell, Option.bind_some, hrest.trail, Option.bind_some, hn,
      List.head?_drop]
    cases l[n]? <;> rfl
  rw [hdelete]
  split
  · rename_i hlt
    have hsplit : l = l.take n ++ l[n] :: l.drop (n + 1) := by
      rw [List.getElem_cons_drop, List.take_append_drop]
    have herase : l.eraseIdx n = l.take n ++ l.drop (n + 1) := List.eraseIdx_eq_take_drop_succ l n
    rw [List.getElem?_eq_getElem hlt, herase]
    rcases List.eq_nil_or_concat (l.take n) with hfirst | ⟨us, p, hlater⟩
    · rw [hfirst] at hsplit ⊢
      rw [hsplit] at h
      have h : Denotes c ([] ++ (a, x) :: l[n] :: l.drop (n + 1)) := h
      obtain ⟨c', hbehind, hdenotes⟩ := h.deleteBehind_eq
      refine ⟨c', ?_, hdenotes⟩
      simpa using hbehind
    · rw [List.concat_eq_append] at hlater
      rw [hlater] at hsplit ⊢
      rw [hsplit, List.append_assoc, ← List.cons_append] at h
      obtain ⟨c', hbehind, hdenotes⟩ := h.deleteBehind_eq
      refine ⟨c', ?_, ?_⟩
      · simpa using hbehind
      · simpa using hdenotes
  · rename_i hout
    rw [List.getElem?_eq_none (Nat.not_lt.mp hout)]

/-! ## Pop -/

theorem Denotes.pop_nil (h : Denotes c []) : c.pop = none := by
  rw [pop, h.deleteAt_out (.inr rfl), show c.chainHead = none from h.linked]
  rfl

/-- The node has been deleted when it is copied out. -/
theorem Denotes.pop_one (h : Denotes c [(a, x)]) : c.pop = none := by
  obtain ⟨c', hdelete, hgone, _⟩ := h.deleteAt_one (Int.le_refl 0)
  rw [pop, hdelete, h.linked.head.1]
  dsimp only [Option.bind_some]
  rw [hgone]
  rfl

/-- The first node is copied out and the second one is gone. -/
theorem Denotes.pop_more (h : Denotes c ((a, x) :: (b, y) :: l)) :
    ∃ c', c.pop = some (c', x) ∧ Denotes c' ((a, x) :: l) := by
  obtain ⟨c', hdelete, hdenotes⟩ := h.deleteAt_more (List.cons_ne_nil _ _) (Int.le_refl 0)
  obtain ⟨_, next, hcell, _⟩ := hdenotes.linked.head
  refine ⟨c', ?_, hdenotes⟩
  rw [pop, hdelete, h.linked.head.1]
  dsimp only [Option.bind_some]
  rw [hcell]
  rfl

/-! ## Every operation -/

theorem Denotes.push (h : Denotes c l) {pNew : Nat} (hnew : c.nodes pNew = none) (buffer len : Nat)
    (backfun : Bool) (tag : Nat) :
    ∃ c', c.step (.push pNew buffer len backfun tag) = some c' ∧
      Denotes c' (l ++ [(pNew, ⟨buffer, backfun, 0, len, tag⟩)]) := by
  have hnotMem : pNew ∉ l.map Prod.fst := by
    intro hmem
    have hsome := h.linked.isSome hmem
    rw [hnew] at hsome
    cases hsome
  have hheap : Denotes { c with heap := pNew } l := ⟨h.linked, h.last, h.size⟩
  obtain ⟨c', hpush, _, hdenotes⟩ := hheap.pushed hnotMem buffer len backfun tag
  refine ⟨c', ?_, hdenotes⟩
  rw [CMemChain.step, hnew]
  exact hpush

theorem Denotes.deleteHead (h : Denotes c l) : ∃ c', c.deleteHead = some c' ∧ Denotes c' l.tail := by
  cases l with
  | nil =>
      refine ⟨c, ?_, h⟩
      rw [CMemChain.deleteHead, show c.chainHead = none from h.linked]
  | cons p l =>
      obtain ⟨c', hdelete, _, _, hdenotes⟩ := h.headDeleted
      exact ⟨c', hdelete, hdenotes⟩

theorem Denotes.deleteAt (h : Denotes c l) (index : Int) :
    ∃ c' ret l', c.deleteAt index = some (c', ret) ∧ Denotes c' l' := by
  rcases Int.lt_or_le index 0 with hneg | hpos
  · exact ⟨c, false, l, h.deleteAt_out (.inl hneg), h⟩
  · rcases l with _ | ⟨⟨a, x⟩, l⟩
    · exact ⟨c, false, [], h.deleteAt_out (.inr rfl), h⟩
    · rcases Decidable.eq_or_ne l [] with rfl | hmore
      · obtain ⟨c', hdelete, _, hdenotes⟩ := h.deleteAt_one hpos
        exact ⟨c', true, [], hdelete, hdenotes⟩
      · have hcases := h.deleteAt_more hmore hpos
        split at hcases
        · obtain ⟨c', hdelete, hdenotes⟩ := hcases
          exact ⟨c', true, _, hdelete, hdenotes⟩
        · exact ⟨c, false, _, hcases, h⟩

theorem Denotes.goes (h : Denotes c l) : c.Goes := by
  refine ⟨?_, ?_, ?_⟩
  · intro pNew buffer len backfun tag hnew
    obtain ⟨c', hpush, _⟩ := h.push hnew buffer len backfun tag
    exact Option.isSome_of_eq_some hpush
  · obtain ⟨c', hdelete, _⟩ := h.deleteHead
    exact Option.isSome_of_eq_some hdelete
  · intro index
    obtain ⟨c', ret, _, hdelete, _⟩ := h.deleteAt index
    rw [CMemChain.step, hdelete]
    rfl

theorem Denotes.pop (h : Denotes c l) {node : StreamNode} (hpop : c.pop = some (c', node)) :
    ∃ l', Denotes c' l' := by
  match l, h with
  | [], h => cases h.pop_nil.symm.trans hpop
  | [_], h => cases h.pop_one.symm.trans hpop
  | _ :: _ :: _, h =>
      obtain ⟨c'', hpop', hdenotes⟩ := h.pop_more
      cases hpop'.symm.trans hpop
      exact ⟨_, hdenotes⟩

/-- Whatever the operation, the chain consists of some nodes after it. -/
theorem Denotes.step {op : Op} (h : Denotes c l) (hs : c.step op = some c') : ∃ l', Denotes c' l' := by
  cases op with
  | push pNew buffer len backfun tag =>
      cases hnew : c.nodes pNew with
      | none =>
          obtain ⟨c'', hpush, hdenotes⟩ := h.push hnew buffer len backfun tag
          cases hpush.symm.trans hs
          exact ⟨_, hdenotes⟩
      | some cell =>
          rw [CMemChain.step, hnew] at hs
          cases hs
  | deleteHead =>
      obtain ⟨c'', hdelete, hdenotes⟩ := h.deleteHead
      cases hdelete.symm.trans hs
      exact ⟨_, hdenotes⟩
  | deleteAt index =>
      obtain ⟨c'', ret, l', hdelete, hdenotes⟩ := h.deleteAt index
      rw [CMemChain.step, hdelete] at hs
      cases hs
      exact ⟨l', hdenotes⟩
  | pop =>
      obtain ⟨⟨c'', node⟩, hpop, rfl⟩ := Option.map_eq_some_iff.mp hs
      exact h.pop hpop

theorem denotes_of_run {ops : List Op} (hr : chains.run .new ops = some c) : ∃ l, Denotes c l := by
  have hstep : ∀ c op c', (∃ l, Denotes c l) → chains.step c op = some c' → ∃ l, Denotes c' l := by
    rintro c op c' ⟨l, h⟩ hs
    exact h.step hs
  exact chains.run_invariant hstep ⟨[], denotes_new⟩ hr

theorem formed_of_run {ops : List Op} (hr : chains.run .new ops = some c) : c.Formed ∧ c.Goes := by
  obtain ⟨l, h⟩ := denotes_of_run hr
  exact ⟨h.formed, h.goes⟩

/-- Three nodes, the middle one and then the last one deleted, and another one at an address that has
been in use. -/
def threeNodes : List Op :=
  [.push 1 10 4 true 0, .push 2 20 4 true 0, .push 3 30 4 true 0, .deleteAt 1, .deleteAt 1,
    .push 2 40 4 false 0]

theorem formed_of_run_threeNodes : ∃ c, chains.run .new threeNodes = some c ∧ c.Formed ∧ c.Goes := by
  have hdefined : (chains.run .new threeNodes).isSome := rfl
  obtain ⟨c, hr⟩ := Option.isSome_iff_exists.mp hdefined
  exact ⟨c, hr, formed_of_run hr⟩

/-! ## Against a list -/

theorem Denotes.deleteAt_agrees_out (h : Denotes c l) (hout : index < 0 ∨ l = []) :
    Agrees c l (.deleteAt index) := by
  have hrange : ¬InRange l index := by
    rintro ⟨hpos, hlt⟩
    rcases hout with hneg | rfl
    · omega
    · exact Int.not_lt.mpr hpos hlt
  refine ⟨c, false, h.deleteAt_out hout, ?_⟩
  rw [if_neg hrange]
  exact ⟨rfl, rfl⟩

theorem Denotes.deleteAt_agrees_one (h : Denotes c [(a, x)]) (hpos : 0 ≤ index) :
    Agrees c [(a, x)] (.deleteAt index) ↔ index = 0 := by
  obtain ⟨c', hdelete, _, hdenotes⟩ := h.deleteAt_one hpos
  constructor
  · rintro ⟨c'', ret, hdelete', hret⟩
    cases hdelete.symm.trans hdelete'
    by_contra hne
    have hout : ¬InRange [(a, x)] index := by
      rintro ⟨_, hlt⟩
      simp only [List.length_singleton] at hlt
      omega
    rw [if_neg hout] at hret
    cases hret.1
  · rintro rfl
    refine ⟨c', true, hdelete, ?_⟩
    rw [if_pos ⟨Int.le_refl 0, by simp⟩]
    exact ⟨rfl, hdenotes⟩

theorem Denotes.deleteAt_agrees_more (h : Denotes c ((a, x) :: (b, y) :: l)) (hpos : 0 ≤ index) :
    Agrees c ((a, x) :: (b, y) :: l) (.deleteAt index) ↔ 1 ≤ index := by
  have hcases := h.deleteAt_more (List.cons_ne_nil _ _) hpos
  constructor
  · rintro ⟨c', ret, hdelete, hret⟩
    by_contra hlt
    have hzero : index = 0 := by omega
    subst hzero
    -- the second node has gone, not the first
    obtain ⟨c'', hdelete', hdenotes⟩ := hcases
    cases hdelete'.symm.trans hdelete
    have hin : InRange ((a, x) :: (b, y) :: l) 0 := by
      simp only [InRange, List.length_cons]
      omega
    rw [if_pos hin] at hret
    obtain ⟨hsame, _⟩ := List.cons.inj (hdenotes.unique hret.2)
    cases hsame
    exact (List.nodup_cons.mp h.linked.nodup).1 (List.mem_cons_self ..)
  · intro hge
    have hnat : index.toNat = (index - 1).toNat + 1 := by omega
    split at hcases
    · rename_i hlt
      obtain ⟨c', hdelete, hdenotes⟩ := hcases
      have hin : InRange ((a, x) :: (b, y) :: l) index := by
        simp only [InRange, List.length_cons] at hlt ⊢
        omega
      refine ⟨c', true, hdelete, ?_⟩
      rw [if_pos hin, hnat, List.eraseIdx_cons_succ]
      exact ⟨rfl, hdenotes⟩
    · rename_i hge'
      have hout : ¬InRange ((a, x) :: (b, y) :: l) index := by
        simp only [InRange, List.length_cons] at hge' ⊢
        omega
      refine ⟨c, false, hcases, ?_⟩
      rw [if_neg hout]
      exact ⟨rfl, rfl⟩

theorem Denotes.deleteAt_agrees (h : Denotes c l) (index : Int) :
    Agrees c l (.deleteAt index) ↔ AgreesFor l (.deleteAt index) := by
  simp only [AgreesFor]
  rcases Int.lt_or_le index 0 with hneg | hpos
  · exact iff_of_true (h.deleteAt_agrees_out (.inl hneg)) (.inl hneg)
  · match l, h with
    | [], h => exact iff_of_true (h.deleteAt_agrees_out (.inr rfl)) (.inr (.inl rfl))
    | [_], h =>
        rw [h.deleteAt_agrees_one hpos]
        simp
        omega
    | _ :: _ :: _, h =>
        rw [h.deleteAt_agrees_more hpos]
        simp
        omega

theorem Denotes.pop_agrees (h : Denotes c l) : Agrees c l .pop ↔ AgreesFor l .pop := by
  match l, h with
  | [], _ => exact iff_of_true nofun rfl
  | [p], h =>
      refine iff_of_false ?_ (List.cons_ne_nil _ _)
      intro hagrees
      obtain ⟨c', hpop, _⟩ := hagrees p [] rfl
      cases h.pop_one.symm.trans hpop
  | p :: q :: l, h =>
      refine iff_of_false ?_ (List.cons_ne_nil _ _)
      intro hagrees
      obtain ⟨c', hpop, hdenotes⟩ := hagrees p (q :: l) rfl
      obtain ⟨c'', hpop', hdenotes'⟩ := h.pop_more
      cases hpop'.symm.trans hpop
      obtain ⟨rfl, _⟩ := List.cons.inj (hdenotes.unique hdenotes')
      exact (List.nodup_cons.mp h.linked.nodup).1 (List.mem_cons_self ..)

/-- The operations on the nodes of the chain are those on the list exactly in these cases. -/
theorem agrees_iff {ops : List Op} (hr : chains.run .new ops = some c) :
    ∃ l, Denotes c l ∧ ∀ op, Agrees c l op ↔ AgreesFor l op := by
  obtain ⟨l, h⟩ := denotes_of_run hr
  refine ⟨l, h, ?_⟩
  intro op
  cases op with
  | getIndex index => exact iff_of_true (h.getIndex_eq index) trivial
  | deleteAt index => exact h.deleteAt_agrees index
  | pop => exact h.pop_agrees

def twoNodes : List Op := [.push 1 10 4 true 0, .push 2 20 4 true 0]

theorem agrees_iff_twoNodes : ∃ c l, chains.run .new twoNodes = some c ∧ Denotes c l ∧
    ∀ op, Agrees c l op ↔ AgreesFor l op := by
  have hdefined : (chains.run .new twoNodes).isSome := rfl
  obtain ⟨c, hr⟩ := Option.isSome_iff_exists.mp hdefined
  obtain ⟨l, h, hagrees⟩ := agrees_iff hr
  exact ⟨c, l, hr, h, hagrees⟩

/-- `DeleteAt(0)` and `Pop` on two nodes. -/
theorem not_agrees_twoNodes : ∃ c l, chains.run .new twoNodes = some c ∧ Denotes c l ∧
    ¬Agrees c l (.deleteAt 0) ∧ ¬Agrees c l .pop := by
  have hsize : (chains.run .new twoNodes).map CMemChain.size = some 2 := rfl
  obtain ⟨c, hr, hsize⟩ := Option.map_eq_some_iff.mp hsize
  obtain ⟨l, h⟩ := denotes_of_run hr
  have hlen : l.length = 2 := by
    have := h.size
    omega
  refine ⟨c, l, hr, h, ?_, ?_⟩
  · rw [h.deleteAt_agrees 0]
    rintro (hneg | rfl | ⟨hone, _⟩ | ⟨_, hpos⟩)
    · omega
    · cases hlen
    · omega
    · omega
  · rw [h.pop_agrees]
    rintro rfl
    cases hlen

end CMemChain

end CmdTran
