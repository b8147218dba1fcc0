import CmdTran.Stream.Basic

/-!
# What the log and the chain say of the calls

The calls up to `finished` have been sent; the next ones are in the chain, the first of them perhaps in
part.
-/

namespace CmdTran

namespace Stream

/-! ## Bytes of the calls -/

theorem bytesOf_append (calls calls' : List Given) :
    bytesOf (calls ++ calls') = bytesOf calls ++ bytesOf calls' := List.flatMap_append

theorem bytesOf_cons (g : Given) (calls : List Given) :
    bytesOf (g :: calls) = g.bytes ++ bytesOf calls := List.flatMap_cons

theorem bytesOf_take_succ {given : List Given} {call : Nat} {g : Given}
    (hg : given[call]? = some g) :
    bytesOf (given.take (call + 1)) = bytesOf (given.take call) ++ g.bytes := by
  rw [List.take_add_one, hg, bytesOf_append]
  exact congrArg _ (List.append_nil g.bytes)

theorem length_bytesOf_take_le (given : List Given) {k m : Nat} (h : k ≤ m) :
    (bytesOf (given.take k)).length ≤ (bytesOf (given.take m)).length := by
  have hsplit : given.take m = given.take k ++ (given.take m).drop k := by
    have htake := List.take_append_drop k (given.take m)
    rw [List.take_take, Nat.min_eq_left h] at htake
    exact htake.symm
  rw [hsplit, bytesOf_append, List.length_append]
  exact Nat.le_add_right _ _

/-! ## The log -/

theorem bytes_resolve (g : Given) (call : Nat) :
    (g.resolve call).flatMap Outcome.bytes = [] := by
  unfold Given.resolve
  split <;> rfl

theorem call_of_mem_resolve {g : Given} {call : Nat} {o : Outcome} (h : o ∈ g.resolve call) :
    o.call = call := by
  unfold Given.resolve at h
  split at h
  · rcases List.mem_cons.mp h with rfl | h
    · rfl
    · rw [List.mem_singleton.mp h]
      rfl
  · rw [List.mem_singleton.mp h]
    rfl

/-- The log has the calls up to `finished` as a whole, and `part` of the next one. -/
structure Logged (given : List Given) (log : List Outcome) (finished : Nat) (part : List UInt8) :
    Prop where
  accepted : log.flatMap Outcome.bytes = bytesOf (given.take finished) ++ part
  calls : ∀ (call : Nat) g, given[call]? = some g → ∃ pieces : List (List UInt8),
    log.filter (·.call = call) = pieces.map (.sent call) ++
      (if call < finished then g.resolve call else []) ∧
    pieces.flatten = if call < finished then g.bytes else if call = finished then part else []
  only : ∀ call, given.length ≤ call → log.filter (·.call = call) = []

variable {given : List Given} {log : List Outcome} {finished : Nat} {part : List UInt8}

theorem logged_start : Logged [] [] 0 [] :=
  ⟨rfl, fun _ _ h => (nomatch h), fun _ _ => rfl⟩

/-- `SendData` -/
theorem Logged.give (h : Logged given log finished part) (hle : finished ≤ given.length)
    (hpart : finished = given.length → part = []) (g : Given) :
    Logged (given ++ [g]) log finished part := by
  refine ⟨?_, ?_, ?_⟩
  · rw [List.take_append_of_le_length hle]
    exact h.accepted
  · intro call g' hg'
    rcases Nat.lt_trichotomy call given.length with hlt | rfl | hgt
    · rw [List.getElem?_append_left hlt] at hg'
      exact h.calls call g' hg'
    · refine ⟨[], ?_, ?_⟩
      · rw [h.only _ (Nat.le_refl _), if_neg (Nat.not_lt.mpr hle)]
        rfl
      · rw [if_neg (Nat.not_lt.mpr hle)]
        split
        · rename_i heq
          exact (hpart heq.symm).symm
        · rfl
    · rw [List.getElem?_eq_none (by simp; omega)] at hg'
      cases hg'
  · intro call hcall
    rw [List.length_append] at hcall
    exact h.only call (by omega)

/-- The kernel takes the next bytes. -/
theorem Logged.accept (h : Logged given log finished part) (hlt : finished < given.length)
    (bytes : List UInt8) :
    Logged given (log ++ [.sent finished bytes]) finished (part ++ bytes) := by
  refine ⟨?_, ?_, ?_⟩
  · rw [List.flatMap_append, h.accepted, List.append_assoc]
    exact congrArg _ (congrArg _ (List.append_nil bytes))
  · intro call g hg
    obtain ⟨pieces, hhistory, hflatten⟩ := h.calls call g hg
    by_cases hcall : call = finished
    · subst hcall
      refine ⟨pieces ++ [bytes], ?_, ?_⟩
      · rw [List.filter_append, hhistory, if_neg (Nat.lt_irrefl _)]
        simp [Outcome.call]
      · simp only [Nat.lt_irrefl, if_false, if_true] at hflatten ⊢
        rw [List.flatten_append, hflatten]
        exact congrArg _ (List.append_nil bytes)
    · refine ⟨pieces, ?_, ?_⟩
      · rw [List.filter_append, hhistory]
        simp [Outcome.call, Ne.symm hcall]
      · simpa only [hcall, if_false] using hflatten
  · intro call hcall
    have hne : finished ≠ call := by omega
    rw [List.filter_append, h.only call hcall]
    simp [Outcome.call, hne]

/-- The call-back and `FreeBlock` after the last byte. -/
theorem Logged.resolve {g : Given} (h : Logged given log finished g.bytes)
    (hg : given[finished]? = some g) :
    Logged given (log ++ g.resolve finished) (finished + 1) [] := by
  have hlt := (List.getElem?_eq_some_iff.mp hg).1
  have hother : ∀ call, call ≠ finished → (g.resolve finished).filter (·.call = call) = [] := by
    intro call hne
    rw [List.filter_eq_nil_iff]
    intro o ho
    simp [call_of_mem_resolve ho, Ne.symm hne]
  refine ⟨?_, ?_, ?_⟩
  · rw [List.flatMap_append, h.accepted, bytes_resolve, bytesOf_take_succ hg]
  · intro call g' hg'
    obtain ⟨pieces, hhistory, hflatten⟩ := h.calls call g' hg'
    refine ⟨pieces, ?_, ?_⟩
    · rw [List.filter_append, hhistory]
      rcases Nat.lt_trichotomy call finished with hless | rfl | hmore
      · rw [if_pos hless, if_pos (by omega), hother call (by omega), List.append_nil]
      · have hown : (g.resolve call).filter (·.call = call) = g.resolve call := by
          rw [List.filter_eq_self]
          intro o ho
          simp [call_of_mem_resolve ho]
        rw [hg] at hg'
        cases hg'
        rw [if_neg (Nat.lt_irrefl _), if_pos (Nat.lt_succ_self _), hown, List.append_nil]
      · rw [if_neg (by omega), if_neg (by omega), hother call (by omega), List.append_nil]
    · rcases Nat.lt_trichotomy call finished with hless | rfl | hmore
      · rw [if_pos hless] at hflatten
        rw [if_pos (by omega), hflatten]
      · rw [hg] at hg'
        cases hg'
        rw [if_neg (Nat.lt_irrefl _), if_pos rfl] at hflatten
        rw [if_pos (Nat.lt_succ_self _), hflatten]
      · rw [if_neg (by omega), if_neg (by omega)] at hflatten
        rw [if_neg (by omega), hflatten, ite_self]
  · intro call hcall
    rw [List.filter_append, h.only call hcall, hother call (by omega), List.append_nil]

/-! ## The nodes of the chain -/

variable {memory : Nat → Block} {l : List (Nat × StreamNode)} {a : Nat} {x : StreamNode}

theorem length_given_bytes (memory : Nat → Block) (hlen : x.len ≤ memPoolBlockSize) :
    (x.given memory).bytes.length = x.len := by
  rw [StreamNode.given, List.length_take, Buffer.length_eq]
  exact Nat.min_eq_left hlen

/-- A write to a block of nobody in the chain. -/
theorem given_update {buf : Nat} (hne : x.pBuffer ≠ buf) (block : Block) :
    x.given (Function.update memory buf block) = x.given memory := by
  rw [StreamNode.given, Function.update_of_ne hne]
  rfl

/-- What `send` takes from behind `begin`. -/
theorem take_drop_given {ret : Nat} (hret : x.begin + ret ≤ x.len) :
    ((memory x.pBuffer).toList.drop x.begin).take ret =
      ((x.given memory).bytes.drop x.begin).take ret := by
  rw [StreamNode.given, List.drop_take, List.take_take, Nat.min_eq_left (by omega)]

/-- The part of the first node that has been sent. -/
def sentPart (memory : Nat → Block) : List (Nat × StreamNode) → List UInt8
  | [] => []
  | (_, x) :: _ => (x.given memory).bytes.take x.begin

/-- A new node has not been begun. -/
theorem sentPart_concat (l : List (Nat × StreamNode)) (a : Nat) (hbegin : x.begin = 0) :
    sentPart memory (l ++ [(a, x)]) = sentPart memory l := by
  cases l with
  | nil => simp only [List.nil_append, sentPart, hbegin, List.take_zero]
  | cons p l => rfl

/-- The nodes are those of the calls from `finished` on, and only the first one has been begun. -/
structure Queued (memory : Nat → Block) (given : List Given) (finished : Nat)
    (l : List (Nat × StreamNode)) : Prop where
  nodes : l.map (fun p => p.2.given memory) = given.drop finished
  tags : l.map (fun p => p.2.tag) = List.range' finished l.length
  le : finished ≤ given.length
  begins : ∀ p ∈ l.tail, p.2.begin = 0
  sizes : ∀ p ∈ l, p.2.begin < p.2.len ∧ p.2.len ≤ memPoolBlockSize

theorem queued_start (memory : Nat → Block) : Queued memory [] 0 [] :=
  ⟨rfl, rfl, Nat.le_refl 0, fun _ h => (nomatch h), fun _ h => (nomatch h)⟩

namespace Queued

theorem length_eq (h : Queued memory given finished l) : finished + l.length = given.length := by
  have hlength := congrArg List.length h.nodes
  have hle := h.le
  rw [List.length_map, List.length_drop] at hlength
  omega

theorem head (h : Queued memory given finished ((a, x) :: l)) :
    x.tag = finished ∧ given[finished]? = some (x.given memory) ∧
      given.drop (finished + 1) = l.map (fun p => p.2.given memory) := by
  have htags := h.tags
  have hnodes := h.nodes
  rw [List.map_cons, List.length_cons, List.range'_succ] at htags
  rw [List.map_cons] at hnodes
  refine ⟨(List.cons.inj htags).1, ?_, ?_⟩
  · rw [← List.head?_drop, ← hnodes]
    rfl
  · rw [← List.drop_drop, ← hnodes]
    rfl

/-- A write to a block that is not in the chain. -/
theorem update (h : Queued memory given finished l) {buf : Nat}
    (hbuf : buf ∉ l.map (fun p => p.2.pBuffer)) (block : Block) :
    Queued (Function.update memory buf block) given finished l := by
  refine ⟨?_, h.tags, h.le, h.begins, h.sizes⟩
  rw [← h.nodes]
  apply List.map_congr_left
  intro p hp
  apply given_update
  rintro rfl
  exact hbuf (List.mem_map.mpr ⟨p, hp, rfl⟩)

/-- `Push` -/
theorem push (h : Queued memory given finished l) (a : Nat) (hbegin : x.begin = 0)
    (htag : x.tag = given.length) (hlen : 0 < x.len ∧ x.len ≤ memPoolBlockSize) :
    Queued memory (given ++ [x.given memory]) finished (l ++ [(a, x)]) := by
  have hlength := h.length_eq
  have hle := h.le
  refine ⟨?_, ?_, ?_, ?_, ?_⟩
  · rw [List.map_append, h.nodes, List.drop_append_of_le_length hle]
    rfl
  · rw [List.map_append, h.tags, List.length_append, List.length_singleton, List.range'_concat,
      Nat.one_mul, hlength, ← htag]
    rfl
  · rw [List.length_append]
    omega
  · intro p hp
    cases l with
    | nil => cases hp
    | cons q l =>
        rw [List.cons_append, List.tail_cons, List.mem_append] at hp
        rcases hp with hp | hp
        · exact h.begins p hp
        · rw [List.mem_singleton.mp hp]
          exact hbegin
  · intro p hp
    rcases List.mem_append.mp hp with hp | hp
    · exact h.sizes p hp
    · rw [List.mem_singleton.mp hp]
      exact ⟨hbegin ▸ hlen.1, hlen.2⟩

/-- `node->begin += ret` -/
theorem advance (h : Queued memory given finished ((a, x) :: l)) {ret : Nat}
    (hret : x.begin + ret < x.len) :
    Queued memory given finished ((a, { x with begin := x.begin + ret }) :: l) := by
  refine ⟨h.nodes, h.tags, h.le, h.begins, ?_⟩
  intro p hp
  rcases List.mem_cons.mp hp with rfl | hp
  · exact ⟨hret, (h.sizes _ List.mem_cons_self).2⟩
  · exact h.sizes p (List.mem_cons_of_mem _ hp)

/-- `DeleteHead` -/
theorem tail (h : Queued memory given finished ((a, x) :: l)) :
    Queued memory given (finished + 1) l := by
  have hlength := h.length_eq
  have htags := h.tags
  rw [List.map_cons, List.length_cons, List.range'_succ] at htags
  rw [List.length_cons] at hlength
  refine ⟨h.head.2.2.symm, (List.cons.inj htags).2, by omega, ?_, ?_⟩
  · intro p hp
    exact h.begins p (List.mem_of_mem_tail hp)
  · intro p hp
    exact h.sizes p (List.mem_cons_of_mem _ hp)

/-- Nothing of the node that comes next has been sent. -/
theorem sentPart_tail (h : Queued memory given finished ((a, x) :: l)) : sentPart memory l = [] := by
  cases l with
  | nil => rfl
  | cons p l =>
      have hbegin : p.2.begin = 0 := h.begins p List.mem_cons_self
      rw [sentPart, hbegin, List.take_zero]

theorem sentPart_update (h : Queued memory given finished l) {buf : Nat}
    (hbuf : buf ∉ l.map (fun p => p.2.pBuffer)) (block : Block) :
    sentPart (Function.update memory buf block) l = sentPart memory l := by
  cases l with
  | nil => rfl
  | cons p l =>
      have hne : p.2.pBuffer ≠ buf := by
        rintro rfl
        exact hbuf List.mem_cons_self
      rw [sentPart, sentPart, given_update hne]

/-- What has been sent of the first node and what is left of the chain are the calls from `finished`
on. -/
theorem sentPart_append (h : Queued memory given finished l) :
    sentPart memory l ++
      (l.map Prod.snd).flatMap (fun node => (node.given memory).bytes.drop node.begin) =
      bytesOf (given.drop finished) := by
  rw [← h.nodes]
  cases l with
  | nil => rfl
  | cons p l =>
      have hrest : (l.map Prod.snd).flatMap
          (fun node => (node.given memory).bytes.drop node.begin) =
          bytesOf (l.map fun p => p.2.given memory) := by
        rw [bytesOf, List.flatMap_map, List.flatMap_map]
        apply List.flatMap_congr
        intro q hq
        rw [h.begins q hq, List.drop_zero]
      rw [List.map_cons, List.flatMap_cons, hrest, sentPart, List.map_cons, bytesOf_cons,
        ← List.append_assoc, List.take_append_drop]

end Queued

end Stream

end CmdTran
