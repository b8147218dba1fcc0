import Mathlib.Data.List.Perm.Subperm
import CmdTran.BlockList.Basic

/-!
# The block list refines a list

What stale `pNext` a block has does not matter: a push writes it, and a removal writes that of the block in
front.
-/

namespace CmdTran

namespace CMemBlockListManager

variable {B : Type} {n a b : Nat} {pBlock : Nat → Option B} {m : CMemBlockListManager B}
  {blocks us zs : List Nat}

/-! ## The memory -/

/-- There are `n` blocks, each with its buffer. -/
structure Holds (n : Nat) (pBlock : Nat → Option B) (memory : List (Cell Nat (Option B))) : Prop where
  length : memory.length = n
  item : ∀ a cell, memory[a]? = some cell → cell.item = pBlock a

theorem Holds.cell (h : Holds n pBlock m.memory) (ha : a < n) :
    ∃ next, m.cells a = some ⟨next, pBlock a⟩ := by
  have hlt : a < m.memory.length := by
    rw [h.length]
    exact ha
  have hcell : m.cells a = some m.memory[a] := List.getElem?_eq_getElem hlt
  have hitem := h.item a _ hcell
  refine ⟨m.memory[a].next, ?_⟩
  rw [hcell, ← hitem]

/-- `setNext` writes the one pointer. -/
theorem Holds.setNext (h : Holds n pBlock m.memory) (ha : a < n) (next : Option Nat) :
    ∃ memory, m.setNext a next = some { m with memory } ∧ Holds n pBlock memory ∧
      (fun b => memory[b]?) = Function.update m.cells a (some ⟨next, pBlock a⟩) := by
  obtain ⟨old, hcell⟩ := h.cell ha
  have hlt : a < m.memory.length := by
    rw [h.length]
    exact ha
  have hcells : (fun b => (m.memory.set a ⟨next, pBlock a⟩)[b]?) =
      Function.update m.cells a (some ⟨next, pBlock a⟩) := by
    funext b
    by_cases hab : b = a
    · subst hab
      rw [Function.update_self, List.getElem?_set_self hlt]
    · rw [Function.update_of_ne hab, List.getElem?_set_ne (Ne.symm hab)]
      rfl
  refine ⟨m.memory.set a ⟨next, pBlock a⟩, ?_, ⟨?_, ?_⟩, hcells⟩
  · rw [CMemBlockListManager.setNext, hcell]
    rfl
  · rw [List.length_set]
    exact h.length
  · intro b cell hb
    have hb' := congrFun hcells b
    rw [hb] at hb'
    by_cases hab : b = a
    · subst hab
      rw [Function.update_self] at hb'
      cases hb'
      rfl
    · rw [Function.update_of_ne hab] at hb'
      exact h.item b cell hb'.symm

/-! ## The list -/

/-- The blocks with their buffers. -/
def withBuffer (pBlock : Nat → Option B) (blocks : List Nat) : List (Nat × Option B) :=
  blocks.map fun a => (a, pBlock a)

@[simp] theorem withBuffer_nil : withBuffer pBlock [] = [] := rfl

@[simp] theorem withBuffer_cons :
    withBuffer pBlock (a :: blocks) = (a, pBlock a) :: withBuffer pBlock blocks := rfl

theorem withBuffer_singleton : withBuffer pBlock [a] = [(a, pBlock a)] := rfl

@[simp] theorem withBuffer_append :
    withBuffer pBlock (us ++ zs) = withBuffer pBlock us ++ withBuffer pBlock zs :=
  List.map_append

@[simp] theorem length_withBuffer : (withBuffer pBlock blocks).length = blocks.length :=
  List.length_map _

@[simp] theorem map_fst_withBuffer : (withBuffer pBlock blocks).map Prod.fst = blocks := by
  rw [withBuffer, List.map_map]
  exact List.map_id' blocks

/-- The list consists of these blocks. -/
structure Denotes (n : Nat) (pBlock : Nat → Option B) (m : CMemBlockListManager B)
    (blocks : List Nat) : Prop where
  memory : Holds n pBlock m.memory
  linked : Chain.Linked m.cells m.pListHead (withBuffer pBlock blocks)
  trail : m.pListTrail = blocks.getLast?

theorem Denotes.head_eq (h : Denotes n pBlock m blocks) : m.pListHead = blocks.head? := by
  rw [h.linked.head_eq]
  cases blocks <;> rfl

theorem Denotes.nodup (h : Denotes n pBlock m blocks) : blocks.Nodup := by
  have hnodup := h.linked.nodup
  rw [map_fst_withBuffer] at hnodup
  exact hnodup

theorem Denotes.lt (h : Denotes n pBlock m blocks) (ha : a ∈ blocks) : a < n := by
  have hsome := h.linked.isSome (by simpa using ha)
  obtain ⟨cell, hcell⟩ := Option.isSome_iff_exists.mp hsome
  have hlt := (List.getElem?_eq_some_iff.mp hcell).1
  rw [h.memory.length] at hlt
  exact hlt

/-- No walk over the list is longer than there are blocks. -/
theorem Denotes.length_le (h : Denotes n pBlock m blocks) : blocks.length ≤ n := by
  have hsub : blocks ⊆ List.range n := fun a ha => List.mem_range.mpr (h.lt ha)
  have hle := (h.nodup.subperm hsub).length_le
  rw [List.length_range] at hle
  exact hle

/-- No walk over the blocks behind the head is longer than there are blocks. -/
theorem Denotes.rest_le (h : Denotes n pBlock m (a :: blocks)) :
    (withBuffer pBlock blocks).length ≤ m.memory.length := by
  have hle := h.length_le
  rw [length_withBuffer, h.memory.length]
  exact Nat.le_of_succ_le hle

/-- `pListTrail` points to a block exactly when nothing comes behind it. -/
theorem Denotes.trail_iff (h : Denotes n pBlock m (us ++ a :: zs)) :
    some a = m.pListTrail ↔ zs = [] := by
  have hlinked := h.linked
  rw [withBuffer_append, withBuffer_cons] at hlinked
  have hiff := hlinked.last_iff
  rw [← withBuffer_cons, ← withBuffer_append, withBuffer, List.getLast?_map, Option.map_map] at hiff
  rw [h.trail, eq_comm]
  simpa [withBuffer, Function.comp_def] using hiff

theorem Denotes.formed (h : Denotes n pBlock m blocks) : m.Formed blocks := by
  refine ⟨⟨_, h.linked, map_fst_withBuffer⟩, h.trail, ?_⟩
  rw [h.head_eq, h.trail]
  cases blocks <;> simp

/-! ## PushHead and PushTrail -/

theorem Denotes.pushHead (h : Denotes n pBlock m blocks) (hb : b < n) (hnew : b ∉ blocks) :
    ∃ m', m.pushHead (some b) = some (m', true) ∧ Denotes n pBlock m' (b :: blocks) := by
  have hhead := h.head_eq
  cases blocks with
  | nil =>
      let m₁ : CMemBlockListManager B := { m with pListHead := some b, pListTrail := some b }
      have hm₁ : Holds n pBlock m₁.memory := h.memory
      obtain ⟨memory, hset, hmemory, hcells⟩ := hm₁.setNext hb none
      refine ⟨{ m₁ with memory }, ?_, hmemory, ⟨rfl, none, ?_, rfl⟩, rfl⟩
      · rw [CMemBlockListManager.pushHead, if_pos (show m.pListHead = none from hhead), hset]
        rfl
      · exact (congrFun hcells b).trans (Function.update_self _ _ _)
  | cons first rest =>
      have hsome : ¬m.pListHead = none := by
        rw [hhead]
        nofun
      obtain ⟨memory, hset, hmemory, hcells⟩ := h.memory.setNext hb m.pListHead
      refine ⟨{ m with memory, pListHead := some b }, ?_, hmemory, ?_, ?_⟩
      · rw [CMemBlockListManager.pushHead, if_neg hsome, hset]
        rfl
      · have hlinked := h.linked.cons (a := b) (by simpa using hnew) (pBlock b)
        rw [← hcells] at hlinked
        exact hlinked
      · rw [List.getLast?_cons_cons]
        exact h.trail

theorem Denotes.pushTrail (h : Denotes n pBlock m blocks) (hb : b < n) (hnew : b ∉ blocks) :
    ∃ m', m.pushTrail (some b) = some (m', true) ∧ Denotes n pBlock m' (blocks ++ [b]) := by
  have htrail := h.trail
  rcases List.eq_nil_or_concat blocks with rfl | ⟨us, e, rfl⟩
  · let m₁ : CMemBlockListManager B := { m with pListHead := some b, pListTrail := some b }
    have hm₁ : Holds n pBlock m₁.memory := h.memory
    obtain ⟨memory, hset, hmemory, hcells⟩ := hm₁.setNext hb none
    refine ⟨{ m₁ with memory }, ?_, hmemory, ⟨rfl, none, ?_, rfl⟩, rfl⟩
    · rw [List.getLast?_nil] at htrail
      rw [CMemBlockListManager.pushTrail, linkTrail, htrail]
      dsimp only [Option.bind_some]
      rw [hset]
      rfl
    · exact (congrFun hcells b).trans (Function.update_self _ _ _)
  · rw [List.concat_eq_append] at h hnew htrail ⊢
    rw [List.getLast?_concat] at htrail
    have he : e < n := h.lt (by simp)
    obtain ⟨memory, hset, hmemory, hcells⟩ := h.memory.setNext he (some b)
    let m₁ : CMemBlockListManager B := { m with memory, pListTrail := some b }
    have hm₁ : Holds n pBlock m₁.memory := hmemory
    obtain ⟨memory', hset', hmemory', hcells'⟩ := hm₁.setNext hb none
    refine ⟨{ m₁ with memory := memory' }, ?_, hmemory', ?_, ?_⟩
    · rw [CMemBlockListManager.pushTrail, linkTrail, htrail]
      dsimp only
      rw [hset]
      dsimp only [Option.map_some, Option.bind_some]
      rw [hset']
      rfl
    · have hlinked := h.linked
      rw [withBuffer_append, withBuffer_cons] at hlinked
      have hlinked := hlinked.concat (a := b) (by simpa using hnew) (pBlock b)
      have hlater : (fun c => memory'[c]?) =
          Function.update (fun c => memory[c]?) b (some ⟨none, pBlock b⟩) := hcells'
      rw [← hcells, ← hlater, ← withBuffer_singleton, ← withBuffer_singleton, ← withBuffer_append,
        ← withBuffer_append] at hlinked
      exact hlinked
    · rw [List.getLast?_concat]

/-! ## GetBlockHead -/

theorem Denotes.getBlockHead (h : Denotes n pBlock m blocks) :
    ∃ m', m.getBlockHead = some (m', blocks.head?) ∧ Denotes n pBlock m' blocks.tail := by
  have hhead := h.head_eq
  cases blocks with
  | nil =>
      refine ⟨m, ?_, h⟩
      rw [CMemBlockListManager.getBlockHead, hhead]
      rfl
  | cons first rest =>
      obtain ⟨_, next, hcell, hrest⟩ := h.linked.head
      have hnext : next = rest.head? := by
        rw [hrest.head_eq]
        cases rest <;> rfl
      refine ⟨{ m with pListHead := next, pListTrail := rest.getLast? }, ?_, h.memory, hrest, rfl⟩
      rw [CMemBlockListManager.getBlockHead, hhead]
      dsimp only [List.head?_cons]
      rw [hcell, Option.map_some]
      dsimp only
      cases rest with
      | nil => rw [if_pos (show next = none from hnext), List.getLast?_nil]
      | cons second rest =>
          have hsome : ¬next = none := by
            rw [hnext]
            nofun
          have htrail := h.trail
          rw [List.getLast?_cons_cons] at htrail
          rw [if_neg hsome, ← htrail]

/-! ## DeletBlockWithAddr -/

/-- A block behind another one is taken out. -/
theorem Denotes.unlink (h : Denotes n pBlock m (us ++ a :: b :: zs)) :
    ∃ next m', m.cells b = some ⟨next, pBlock b⟩ ∧ m.setNext a next = some m' ∧
      Denotes n pBlock (m'.fixTrail (some a) (some b)).1 (us ++ a :: zs) := by
  have ha : a < n := h.lt (by simp)
  have hb : b < n := h.lt (by simp)
  have htrail : some b = m.pListTrail ↔ zs = [] := by
    have hsplit : us ++ a :: b :: zs = us ++ [a] ++ b :: zs := by simp
    rw [hsplit] at h
    exact h.trail_iff
  obtain ⟨next, hcell⟩ := h.memory.cell hb
  obtain ⟨memory, hset, hmemory, hcells⟩ := h.memory.setNext ha next
  have hlinked := h.linked
  rw [withBuffer_append, withBuffer_cons, withBuffer_cons] at hlinked
  have hlinked := hlinked.unlink hcell
  rw [← hcells, ← withBuffer_cons, ← withBuffer_append] at hlinked
  refine ⟨next, _, hcell, hset, ?_⟩
  rw [fixTrail]
  split
  · rename_i hlast
    rw [htrail] at hlast
    subst hlast
    exact ⟨hmemory, hlinked, by simp⟩
  · rename_i hmore
    rw [htrail] at hmore
    refine ⟨hmemory, hlinked, ?_⟩
    cases zs with
    | nil => exact absurd rfl hmore
    | cons c zs =>
        have hlast := h.trail
        rw [List.getLast?_append_cons, List.getLast?_cons_cons, List.getLast?_cons_cons] at hlast
        rw [List.getLast?_append_cons, List.getLast?_cons_cons]
        exact hlast

variable [DecidableEq B] {addr : B}

theorem deletBlockWithAddr_nil (hhead : m.pListHead = none) (addr : Option B) :
    m.deletBlockWithAddr addr = some (m, none) := by
  unfold deletBlockWithAddr
  rw [hhead]
  cases addr <;> rfl

theorem deletBlockWithAddr_cons {next : Option Nat} (hhead : m.pListHead = some a)
    (hcell : m.cells a = some ⟨next, pBlock a⟩) (addr : B) :
    m.deletBlockWithAddr (some addr) =
      if pBlock a = some addr then some ({ m with pListHead := next }.fixTrail none (some a))
      else m.deletOther addr a next := by
  unfold deletBlockWithAddr
  rw [hhead]
  dsimp only
  rw [hcell]
  rfl

/-- There is no block with this buffer. -/
theorem Denotes.delet_none (h : Denotes n pBlock m blocks)
    (hnot : ∀ a ∈ blocks, pBlock a ≠ some addr) :
    m.deletBlockWithAddr (some addr) = some (m, none) := by
  cases blocks with
  | nil => exact deletBlockWithAddr_nil h.linked _
  | cons first rest =>
      obtain ⟨hhead, next, hcell, hrest⟩ := h.linked.head
      have hsearch := hrest.search_none (· = some addr) h.rest_le (by
        intro cell hcell
        obtain ⟨a, ha, rfl⟩ := List.mem_map.mp hcell
        exact decide_eq_false (hnot a (List.mem_cons_of_mem _ ha))) first
      have htrail : ¬none = m.pListTrail := by
        rw [h.trail, List.getLast?_cons]
        nofun
      rw [deletBlockWithAddr_cons hhead hcell, if_neg (hnot first (List.mem_cons_self ..)), deletOther,
        hsearch, Option.bind_some]
      dsimp only
      rw [fixTrail, if_neg htrail]

/-- The first block has the buffer. -/
theorem Denotes.delet_head (h : Denotes n pBlock m (a :: blocks)) (ha : pBlock a = some addr) :
    ∃ m', m.deletBlockWithAddr (some addr) = some (m', some a) ∧ Denotes n pBlock m' blocks := by
  obtain ⟨hhead, next, hcell, hrest⟩ := h.linked.head
  have htrail : some a = m.pListTrail ↔ blocks = [] := by
    have h : Denotes n pBlock m ([] ++ a :: blocks) := h
    exact h.trail_iff
  rw [deletBlockWithAddr_cons hhead hcell, if_pos ha, fixTrail]
  dsimp only
  split
  · rename_i hlast
    rw [htrail] at hlast
    subst hlast
    exact ⟨_, rfl, h.memory, hrest, rfl⟩
  · rename_i hmore
    rw [htrail] at hmore
    refine ⟨_, rfl, h.memory, hrest, ?_⟩
    cases blocks with
    | nil => exact absurd rfl hmore
    | cons b blocks =>
        have hlast := h.trail
        rw [List.getLast?_cons_cons] at hlast
        exact hlast

/-- A block behind the first one is the first to have the buffer. -/
theorem Denotes.delet_other (h : Denotes n pBlock m (us ++ a :: b :: zs))
    (hnot : ∀ c ∈ us ++ [a], pBlock c ≠ some addr) (hb : pBlock b = some addr) :
    ∃ m', m.deletBlockWithAddr (some addr) = some (m', some b) ∧
      Denotes n pBlock m' (us ++ a :: zs) := by
  obtain ⟨next, m', hcell, hset, hdenotes⟩ := h.unlink
  obtain ⟨first, ys, hys⟩ := List.exists_cons_of_ne_nil (List.concat_ne_nil a us)
  have hlastOr : Chain.lastOr first (withBuffer pBlock ys) = a := by
    have hcons : Chain.lastOr first (withBuffer pBlock (first :: ys)) =
        Chain.lastOr first (withBuffer pBlock ys) := Chain.lastOr_cons first
    rw [← hcons, ← hys, withBuffer_append, withBuffer_singleton]
    exact Chain.lastOr_concat _ _
  have hsplit : us ++ a :: b :: zs = first :: (ys ++ b :: zs) := by
    rw [← List.cons_append, ← hys, List.append_assoc, List.singleton_append]
  rw [hsplit] at h
  rw [hys] at hnot
  obtain ⟨hhead, next', hcell', hrest⟩ := h.linked.head
  have hsearch : Chain.search m.cells (· = some addr) m.memory.length first next' =
      some (a, some b) := by
    have hle := h.rest_le
    rw [withBuffer_append, withBuffer_cons] at hle
    rw [List.map_append, List.map_cons] at hrest
    rw [hrest.search_some _ _ (decide_eq_true hb) first]
    · exact congrArg (fun front => some (front, some b)) hlastOr
    · simp at hle ⊢
      omega
    · intro cell hmem
      obtain ⟨c, hc, rfl⟩ := List.mem_map.mp hmem
      exact decide_eq_false (hnot c (List.mem_cons_of_mem _ hc))
  refine ⟨_, ?_, hdenotes⟩
  rw [deletBlockWithAddr_cons hhead hcell', if_neg (hnot first (List.mem_cons_self ..)), deletOther,
    hsearch, Option.bind_some]
  dsimp only
  rw [hcell, Option.bind_some, hset]
  rfl

/-! ## Every call -/

theorem Denotes.deletBlockWithAddr (h : Denotes n pBlock m blocks) (addr : B) :
    ∃ m', m.deletBlockWithAddr (some addr) = some (m', blocks.find? (pBlock · = some addr)) ∧
      Denotes n pBlock m' (blocks.eraseP (pBlock · = some addr)) := by
  cases hfind : blocks.find? (pBlock · = some addr) with
  | none =>
      have hnot : ∀ a ∈ blocks, pBlock a ≠ some addr := by
        intro a ha
        simpa using List.find?_eq_none.mp hfind a ha
      rw [List.eraseP_of_forall_not (by simpa using hnot)]
      exact ⟨m, h.delet_none hnot, h⟩
  | some b =>
      obtain ⟨hb, us, zs, rfl, hnot⟩ := List.find?_eq_some_iff_append.mp hfind
      have hb : pBlock b = some addr := by simpa using hb
      have hnot : ∀ c ∈ us, pBlock c ≠ some addr := by simpa using hnot
      rw [List.eraseP_append_right _ (by simpa using hnot), List.eraseP_cons_of_pos (by simpa using hb)]
      rcases List.eq_nil_or_concat us with rfl | ⟨us, a, rfl⟩
      · exact h.delet_head hb
      · rw [List.concat_eq_append, List.append_assoc] at h ⊢
        rw [List.concat_eq_append] at hnot
        exact h.delet_other hnot hb

/-- An allowed call does what it does on the list. -/
theorem Denotes.call (h : Denotes n pBlock m blocks) {c : BlockCall B}
    (hc : BlockList.Allowed n blocks c) :
    ∃ m', m.call c = some (m', (BlockList.call pBlock blocks c).2) ∧
      Denotes n pBlock m' (BlockList.call pBlock blocks c).1 := by
  cases c with
  | pushHead pushed =>
      cases pushed with
      | none => exact ⟨m, rfl, h⟩
      | some b =>
          obtain ⟨m', hpush, hdenotes⟩ := h.pushHead hc.1 hc.2
          refine ⟨m', ?_, hdenotes⟩
          rw [CMemBlockListManager.call, hpush]
          rfl
  | pushTrail pushed =>
      cases pushed with
      | none => exact ⟨m, rfl, h⟩
      | some b =>
          obtain ⟨m', hpush, hdenotes⟩ := h.pushTrail hc.1 hc.2
          refine ⟨m', ?_, hdenotes⟩
          rw [CMemBlockListManager.call, hpush]
          rfl
  | getBlockHead =>
      obtain ⟨m', hget, hdenotes⟩ := h.getBlockHead
      refine ⟨m', ?_, hdenotes⟩
      rw [CMemBlockListManager.call, hget]
      rfl
  | deletBlockWithAddr addr =>
      cases addr with
      | none => exact ⟨m, rfl, h⟩
      | some addr =>
          obtain ⟨m', hdelet, hdenotes⟩ := h.deletBlockWithAddr addr
          refine ⟨m', ?_, hdenotes⟩
          rw [CMemBlockListManager.call, hdelet]
          rfl

theorem Denotes.run (h : Denotes n pBlock m blocks) {calls : List (BlockCall B)}
    (hcalls : BlockList.AllAllowed n pBlock blocks calls) :
    ∃ m', m.run calls = some (m', (BlockList.run pBlock blocks calls).2) ∧
      Denotes n pBlock m' (BlockList.run pBlock blocks calls).1 := by
  induction calls generalizing m blocks with
  | nil => exact ⟨m, rfl, h⟩
  | cons c calls ih =>
      obtain ⟨m₁, hcall, h₁⟩ := h.call hcalls.1
      obtain ⟨m', hrun, h'⟩ := ih h₁ hcalls.2
      refine ⟨m', ?_, h'⟩
      rw [CMemBlockListManager.run, hcall, Option.bind_some, hrun]
      rfl

end CMemBlockListManager

/-! ## From the empty list -/

open CMemBlockListManager

variable {B : Type} [DecidableEq B]

/-- Which buffer each block of the memory has. -/
def bufferOf (memory : List (Cell Nat (Option B))) (block : Nat) : Option B :=
  memory[block]?.bind Cell.item

/-- Whatever the blocks hold at first, every call returns what it returns on the list, and the blocks are
linked as they are in the list. -/
theorem refines_of_allAllowed (memory : List (Cell Nat (Option B))) {calls : List (BlockCall B)}
    (hcalls : BlockList.AllAllowed memory.length (bufferOf memory) [] calls) :
    ∃ m, (CMemBlockListManager.new memory).run calls =
        some (m, (BlockList.run (bufferOf memory) [] calls).2) ∧
      m.Formed (BlockList.run (bufferOf memory) [] calls).1 := by
  have hitem : ∀ (a : Nat) cell, memory[a]? = some cell → cell.item = bufferOf memory a := by
    intro a cell hcell
    rw [bufferOf, hcell]
    rfl
  have hstart : Denotes memory.length (bufferOf memory) (.new memory) [] :=
    ⟨⟨rfl, hitem⟩, rfl, rfl⟩
  obtain ⟨m, hrun, hdenotes⟩ := hstart.run hcalls
  exact ⟨m, hrun, hdenotes.formed⟩

/-- Three blocks with stale pointers; the middle one goes and comes back at the end. -/
def threeBlocks : List (Cell Nat (Option Nat)) := [⟨some 0, some 7⟩, ⟨some 2, some 8⟩, ⟨some 1, none⟩]

def threeCalls : List (BlockCall Nat) :=
  [.pushTrail (some 0), .pushTrail (some 1), .pushHead (some 2), .deletBlockWithAddr (some 8),
    .deletBlockWithAddr none, .getBlockHead, .pushTrail (some 1), .deletBlockWithAddr (some 9)]

instance (n : Nat) (blocks : List Nat) : (c : BlockCall B) → Decidable (BlockList.Allowed n blocks c)
  | .pushHead none | .pushTrail none | .getBlockHead | .deletBlockWithAddr _ => isTrue trivial
  | .pushHead (some block) | .pushTrail (some block) =>
      inferInstanceAs (Decidable (block < n ∧ block ∉ blocks))

theorem refines_of_allAllowed_three :
    ∃ m, (CMemBlockListManager.new threeBlocks).run threeCalls =
        some (m, (BlockList.run (bufferOf threeBlocks) [] threeCalls).2) ∧
      m.Formed (BlockList.run (bufferOf threeBlocks) [] threeCalls).1 :=
  refines_of_allAllowed threeBlocks (by
    refine ⟨?_, ?_, ?_, ?_, ?_, ?_, ?_, ?_, trivial⟩ <;> decide)

end CmdTran
