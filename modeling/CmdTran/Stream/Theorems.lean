import CmdTran.Pool.Theorems
import CmdTran.Stream.Lemmas.Parts

/-!
# Nothing is lost, doubled or mixed up

The bytes of a socket go out as they were given to `SendData`, however `send` cuts them, as long as the
blocks in its chain are its own. That they are is what the pool guarantees.
-/

namespace CmdTran

namespace Stream

/-- The chain, the blocks in it and the log belong together. -/
structure Inv (count step : Int) (s : Stream) (finished : Nat) (l : List (Nat × StreamNode)) :
    Prop where
  rep : s.chain.Rep l
  pool : ∃ out pushed popped, PoolUse.Inv count step ⟨s.pool, out⟩ pushed popped ∧
    out.Perm (l.map (fun p => p.2.pBuffer) ++ s.others)
  queued : Queued s.memory s.given finished l
  logged : Logged s.given s.log finished (sentPart s.memory l)

variable {count step : Int} {s s' : Stream} {finished : Nat} {l : List (Nat × StreamNode)} {a : Nat}
  {x : StreamNode}

theorem inv_start {p : CMemPool} {pushed : List Nat} (h : PoolUse.Inv count step ⟨p, []⟩ pushed 0)
    (memory : Nat → Block) : Inv count step (start p memory) 0 [] :=
  ⟨CMemChain.rep_new, ⟨[], pushed, 0, h, List.Perm.nil⟩, queued_start memory, logged_start⟩

/-! ## The pool -/

/-- A block that has just been given out is nobody else's. -/
theorem notMem_of_inv {p : CMemPool} {out pushed : List Nat} {popped buf : Nat}
    (h : PoolUse.Inv count step ⟨p, buf :: out⟩ pushed popped) : buf ∉ out :=
  (List.nodup_cons.mp (List.nodup_append.mp h.exclusive).2.1).1

/-- `GetBlock`: it fails and changes nothing, or it gives out a block that nobody has. -/
theorem Inv.getBlock (h : Inv count step s finished l) (hsmall : PoolUse.Small count step) :
    s.pool.getBlock = some (s.pool, none) ∨ ∃ p buf out pushed popped,
      s.pool.getBlock = some (p, some buf) ∧
      PoolUse.Inv count step ⟨p, buf :: out⟩ pushed popped ∧
      out.Perm (l.map (fun p => p.2.pBuffer) ++ s.others) ∧
      buf ∉ l.map (fun p => p.2.pBuffer) := by
  obtain ⟨out, pushed, popped, hpool, hperm⟩ := h.pool
  obtain ⟨p, ret, hget, _, hfail, pushed', popped', hinv⟩ := hpool.getBlock hsmall
  cases ret with
  | none =>
      obtain rfl := hfail rfl
      exact .inl hget
  | some buf =>
      refine .inr ⟨p, buf, out, pushed', popped', hget, hinv, hperm, ?_⟩
      intro hmem
      exact notMem_of_inv hinv (hperm.mem_iff.mpr (List.mem_append_left _ hmem))

/-- `FreeBlock` of a block that is out. -/
theorem freeBlock_of_perm {p : CMemPool} {out pushed rest : List Nat} {popped addr : Nat}
    (h : PoolUse.Inv count step ⟨p, out⟩ pushed popped) (hsmall : PoolUse.Small count step)
    (hperm : out.Perm (addr :: rest)) :
    ∃ p', p.freeBlock addr = some (p', true) ∧ ∃ out' pushed',
      PoolUse.Inv count step ⟨p', out'⟩ pushed' popped ∧ out'.Perm rest := by
  have hmem : addr ∈ out := hperm.mem_iff.mpr List.mem_cons_self
  obtain ⟨q, hfree, hinv⟩ := h.freeBlock hsmall hmem
  refine ⟨_, hfree, _, _, hinv, ?_⟩
  have herase := hperm.erase addr
  rw [List.erase_cons_head] at herase
  exact herase

/-! ## `SendData` -/

/-- The new node, with the buffer copied to its block. -/
theorem Inv.give (h : Inv count step s finished l) {p : CMemPool} {buf popped : Nat}
    {out pushed : List Nat} (hpool : PoolUse.Inv count step ⟨p, buf :: out⟩ pushed popped)
    (hperm : out.Perm (l.map (fun p => p.2.pBuffer) ++ s.others))
    (hbuf : buf ∉ l.map (fun p => p.2.pBuffer)) (bytes : List UInt8) (backfun : Bool)
    (hbytes : 0 < bytes.length ∧ bytes.length ≤ memPoolBlockSize) :
    ∃ chain, s.chain.push buf bytes.length backfun s.given.length = some chain ∧
      Inv count step
        { s with
          pool := p
          memory := Function.update s.memory buf ((s.memory buf).put bytes)
          chain
          given := s.given ++ [⟨bytes, backfun⟩] } finished
        (l ++ [(s.chain.heap, ⟨buf, backfun, 0, bytes.length, s.given.length⟩)]) := by
  let x : StreamNode := ⟨buf, backfun, 0, bytes.length, s.given.length⟩
  let memory := Function.update s.memory buf ((s.memory buf).put bytes)
  have hgiven : x.given memory = ⟨bytes, backfun⟩ := by
    simp only [StreamNode.given, x, memory, Function.update_self, Block.take_put _ hbytes.2]
  have hpart : sentPart memory (l ++ [(s.chain.heap, x)]) = sentPart s.memory l := by
    rw [sentPart_concat l s.chain.heap rfl]
    exact h.queued.sentPart_update hbuf _
  have hlast : finished = s.given.length → sentPart s.memory l = [] := by
    intro heq
    have hlength := h.queued.length_eq
    have hnil : l = [] := List.length_eq_zero_iff.mp (by omega)
    rw [hnil, sentPart]
  obtain ⟨chain, hpush, hrep⟩ := h.rep.push buf bytes.length backfun s.given.length
  refine ⟨chain, hpush, hrep, ⟨buf :: out, pushed, popped, hpool, ?_⟩, ?_, ?_⟩
  · rw [List.map_append, List.append_assoc]
    exact (hperm.cons buf).trans List.perm_middle.symm
  · rw [← hgiven]
    exact (h.queued.update hbuf _).push s.chain.heap rfl rfl hbytes
  · have hlogged := h.logged.give h.queued.le hlast ⟨bytes, backfun⟩
    rw [← hpart] at hlogged
    exact hlogged

/-- `SendData` fails and changes nothing, or adds a node; it is not defined when it would read behind
the end of the buffer. -/
theorem Inv.sendData_cases (h : Inv count step s finished l) (hsmall : PoolUse.Small count step)
    (buffer : List UInt8) (len : Int) (backfun : Bool) :
    s.sendData (some buffer) len backfun = some (s, false) ∨
      (∃ s' l', s.sendData (some buffer) len backfun = some (s', true) ∧
        Inv count step s' finished l') ∨
      s.sendData (some buffer) len backfun = none ∧ buffer.length < len := by
  rw [Stream.sendData]
  dsimp only
  split
  · exact .inl rfl
  · rename_i hlen
    split
    · rename_i hbuffer
      exact .inr (.inr ⟨rfl, hbuffer⟩)
    · rename_i hbuffer
      rcases h.getBlock hsmall with hnull | ⟨p, buf, out, pushed, popped, hget, hpool, hperm, hbuf⟩
      · rw [hnull]
        exact .inl rfl
      · have hlength : (buffer.take len.toNat).length = len.toNat := by
          rw [List.length_take]
          omega
        have hbytes : 0 < (buffer.take len.toNat).length ∧
            (buffer.take len.toNat).length ≤ memPoolBlockSize := by
          rw [hlength]
          omega
        obtain ⟨chain, hpush, hinv⟩ := h.give hpool hperm hbuf (buffer.take len.toNat) backfun hbytes
        rw [hlength] at hpush
        rw [hget]
        dsimp only [Option.bind_some]
        rw [hpush]
        exact .inr (.inl ⟨_, _, rfl, hinv⟩)

theorem Inv.sendData (h : Inv count step s finished l) (hsmall : PoolUse.Small count step)
    (buffer : Option (List UInt8)) (len : Int) (backfun : Bool) {r : Stream × Bool}
    (hs : s.sendData buffer len backfun = some r) :
    (r.2 = false → r.1 = s) ∧ ∃ l', Inv count step r.1 finished l' := by
  cases buffer with
  | none =>
      cases hs
      exact ⟨fun _ => rfl, l, h⟩
  | some buffer =>
      rcases h.sendData_cases hsmall buffer len backfun with
        hfalse | ⟨s', l', htrue, hinv⟩ | ⟨hnone, _⟩
      · rw [hfalse] at hs
        cases hs
        exact ⟨fun _ => rfl, l, h⟩
      · rw [htrue] at hs
        cases hs
        exact ⟨nofun, l', hinv⟩
      · rw [hnone] at hs
        cases hs

theorem Inv.sendData_isSome (h : Inv count step s finished l) (hsmall : PoolUse.Small count step)
    {buffer : List UInt8} {len : Int} (hlen : len ≤ buffer.length) (backfun : Bool) :
    (s.sendData (some buffer) len backfun).isSome := by
  rcases h.sendData_cases hsmall buffer len backfun with hfalse | ⟨s', _, htrue, _⟩ | ⟨_, hshort⟩
  · rw [hfalse]
    rfl
  · rw [htrue]
    rfl
  · exact absurd hlen (Int.not_le.mpr hshort)

/-! ## One round of a send task -/

/-- The kernel takes a part of what is left of the first node. -/
theorem Inv.part (h : Inv count step s finished ((a, x) :: l)) {ret : Nat}
    (hret : x.begin + ret < x.len) :
    Inv count step { s.accept x ret with chain := s.chain.advance ret } finished
      ((a, { x with begin := x.begin + ret }) :: l) := by
  obtain ⟨rfl, hgiven, _⟩ := h.queued.head
  have hlt := (List.getElem?_eq_some_iff.mp hgiven).1
  have hlogged := h.logged.accept hlt (((s.memory x.pBuffer).toList.drop x.begin).take ret)
  have hpart : sentPart s.memory ((a, x) :: l) ++
      ((s.memory x.pBuffer).toList.drop x.begin).take ret =
      sentPart s.memory ((a, { x with begin := x.begin + ret }) :: l) := by
    rw [take_drop_given (Nat.le_of_lt hret)]
    exact List.take_add.symm
  rw [hpart] at hlogged
  exact ⟨h.rep.advance ret, h.pool, h.queued.advance hret, hlogged⟩

/-- The kernel takes all that is left of the first node. -/
theorem Inv.whole (h : Inv count step s finished ((a, x) :: l)) (hsmall : PoolUse.Small count step)
    {ret : Nat} (hret : x.begin + ret = x.len) : ∃ chain pool,
      s.chain.deleteHead = some chain ∧ s.pool.freeBlock x.pBuffer = some (pool, true) ∧
      Inv count step
        { s.accept x ret with
          chain
          pool
          log := (s.accept x ret).log ++ (x.given s.memory).resolve x.tag } (finished + 1) l := by
  obtain ⟨rfl, hgiven, _⟩ := h.queued.head
  have hlt := (List.getElem?_eq_some_iff.mp hgiven).1
  have hlen := (h.queued.sizes _ List.mem_cons_self).2
  have hlogged := h.logged.accept hlt (((s.memory x.pBuffer).toList.drop x.begin).take ret)
  have hpart : sentPart s.memory ((a, x) :: l) ++
      ((s.memory x.pBuffer).toList.drop x.begin).take ret = (x.given s.memory).bytes := by
    rw [take_drop_given (Nat.le_of_eq hret), sentPart, ← List.take_add, hret]
    exact List.take_of_length_le (Nat.le_of_eq (length_given_bytes s.memory hlen))
  rw [hpart] at hlogged
  have hresolved := hlogged.resolve hgiven
  rw [← h.queued.sentPart_tail] at hresolved
  obtain ⟨chain, hdelete, hrep⟩ := h.rep.deleteHead
  obtain ⟨out, pushed, popped, hpool, hperm⟩ := h.pool
  obtain ⟨pool, hfree, out', pushed', hpool', hperm'⟩ := freeBlock_of_perm hpool hsmall hperm
  exact ⟨chain, pool, hdelete, hfree, hrep, ⟨out', pushed', popped, hpool', hperm'⟩,
    h.queued.tail, hresolved⟩

theorem Inv.sendOnce (h : Inv count step s finished ((a, x) :: l))
    (hsmall : PoolUse.Small count step) {ret : Int}
    (hret : ret < 0 ∨ 1 ≤ ret ∧ ret ≤ (x.len : Int) - x.begin) :
    ∃ r finished' l', s.sendOnce ret = some r ∧ Inv count step r.1 finished' l' := by
  have hbegin := (h.queued.sizes _ List.mem_cons_self).1
  dsimp only at hbegin
  rw [Stream.sendOnce, h.rep.head_eq]
  dsimp only [Option.bind_some]
  split
  · exact ⟨_, _, _, rfl, h⟩
  · rename_i hpos
    split
    · exact ⟨_, _, _, rfl, h.part (by omega)⟩
    · rename_i hpart
      have hwhole : x.begin + ret.toNat = x.len := by omega
      obtain ⟨chain, pool, hdelete, hfree, hinv⟩ := h.whole hsmall hwhole
      rw [if_pos (by omega), hdelete, hfree]
      exact ⟨_, _, _, rfl, hinv⟩

/-- A round that is defined is one of these. -/
theorem Inv.valid (h : Inv count step s finished ((a, x) :: l)) {ret : Int}
    (hs : (s.sendOnce ret).isSome) : ret < 0 ∨ 1 ≤ ret ∧ ret ≤ (x.len : Int) - x.begin := by
  rw [Stream.sendOnce, h.rep.head_eq] at hs
  dsimp only [Option.bind_some] at hs
  split at hs
  · exact .inl ‹_›
  · split at hs
    · exact .inr (by omega)
    · split at hs
      · exact .inr (by omega)
      · cases hs

theorem Inv.cons_of_size (h : Inv count step s finished l) (hsize : 0 < s.chain.size) :
    ∃ a x l', l = (a, x) :: l' := by
  rw [h.rep.size] at hsize
  cases l with
  | nil => cases hsize
  | cons p l => exact ⟨p.1, p.2, l, rfl⟩

/-! ## A send task -/

theorem Inv.sendTask (h : Inv count step s finished l) (hsmall : PoolUse.Small count step)
    {results : List Int} (hs : s.sendTask results = some s') :
    ∃ finished' l', Inv count step s' finished' l' := by
  induction results generalizing s finished l with
  | nil =>
      rw [Stream.sendTask] at hs
      split at hs
      · cases hs
      · cases hs
        exact ⟨finished, l, h⟩
  | cons ret results ih =>
      rw [Stream.sendTask] at hs
      split at hs
      · rename_i hsize
        obtain ⟨a, x, l, rfl⟩ := h.cons_of_size hsize
        obtain ⟨r, hr, hrest⟩ := Option.bind_eq_some_iff.mp hs
        have hvalid := h.valid (by rw [hr]; rfl)
        obtain ⟨r', finished', l', hr', hinv⟩ := h.sendOnce hsmall hvalid
        rw [hr] at hr'
        cases hr'
        obtain ⟨s₁, again⟩ := r
        cases again with
        | true => exact ih hinv hrest
        | false =>
            dsimp only at hrest
            split at hrest
            · cases hrest
              exact ⟨finished', l', hinv⟩
            · cases hrest
      · cases hs

/-! ## The other sockets -/

theorem Inv.othersGet (h : Inv count step s finished l) (hsmall : PoolUse.Small count step)
    {content : Block} (hs : s.step (.othersGet content) = some s') :
    ∃ finished' l', Inv count step s' finished' l' := by
  rw [Stream.step] at hs
  rcases h.getBlock hsmall with hnull | ⟨p, buf, out, pushed, popped, hget, hpool, hperm, hbuf⟩
  · rw [hnull] at hs
    cases hs
    exact ⟨finished, l, h⟩
  · rw [hget] at hs
    cases hs
    refine ⟨finished, l, h.rep, ⟨buf :: out, pushed, popped, hpool, ?_⟩, h.queued.update hbuf _, ?_⟩
    · exact (hperm.cons buf).trans List.perm_middle.symm
    · have hpart := h.queued.sentPart_update hbuf content
      have hlogged := h.logged
      rw [← hpart] at hlogged
      exact hlogged

theorem Inv.othersFree (h : Inv count step s finished l) (hsmall : PoolUse.Small count step)
    {addr : Nat} (hs : s.step (.othersFree addr) = some s') :
    ∃ finished' l', Inv count step s' finished' l' := by
  rw [Stream.step] at hs
  split at hs
  · rename_i hmem
    obtain ⟨out, pushed, popped, hpool, hperm⟩ := h.pool
    have hfirst : out.Perm (addr :: (l.map (fun p => p.2.pBuffer) ++ s.others.erase addr)) :=
      hperm.trans (((List.perm_cons_erase hmem).append_left _).trans List.perm_middle)
    obtain ⟨pool, hfree, out', pushed', hpool', hperm'⟩ := freeBlock_of_perm hpool hsmall hfirst
    rw [hfree] at hs
    cases hs
    exact ⟨finished, l, h.rep, ⟨out', pushed', popped, hpool', hperm'⟩, h.queued, h.logged⟩
  · cases hs

theorem Inv.move (h : Inv count step s finished l) (hsmall : PoolUse.Small count step)
    {a : StreamStep} (hs : s.step a = some s') :
    ∃ finished' l', Inv count step s' finished' l' := by
  cases a with
  | sendData buffer len backfun =>
      obtain ⟨r, hr, rfl⟩ := Option.map_eq_some_iff.mp hs
      obtain ⟨_, l', hinv⟩ := h.sendData hsmall buffer len backfun hr
      exact ⟨finished, l', hinv⟩
  | sendTask results => exact h.sendTask hsmall hs
  | othersGet content => exact h.othersGet hsmall hs
  | othersFree addr => exact h.othersFree hsmall hs

/-! ## What follows -/

theorem Inv.stream (h : Inv count step s finished l) : s.accepted ++ s.unsent = bytesOf s.given := by
  rw [accepted, h.logged.accepted, unsent, h.rep.contents, List.append_assoc,
    h.queued.sentPart_append, ← bytesOf_append, List.take_append_drop]

/-- The next call after the finished ones has been accepted up to some byte before its end. -/
theorem Inv.accepted_next (h : Inv count step s finished l) {g : Given}
    (hg : s.given[finished]? = some g) : ∃ n < g.bytes.length,
      sentPart s.memory l = g.bytes.take n ∧
      s.accepted.length = (bytesOf (s.given.take finished)).length + n := by
  have hlt := (List.getElem?_eq_some_iff.mp hg).1
  have hlength := h.queued.length_eq
  obtain ⟨a, x, l, rfl⟩ := h.cons_of_size (by rw [h.rep.size]; omega)
  obtain ⟨_, hgiven, _⟩ := h.queued.head
  obtain ⟨hbegin, hlen⟩ := h.queued.sizes _ List.mem_cons_self
  rw [hg] at hgiven
  cases hgiven
  have hbytes := length_given_bytes s.memory hlen
  refine ⟨x.begin, hbytes ▸ hbegin, rfl, ?_⟩
  rw [accepted, h.logged.accepted, List.length_append, sentPart, List.length_take, hbytes,
    Nat.min_eq_left (Nat.le_of_lt hbegin)]

/-- The calls up to `finished` are those whose bytes have been accepted. -/
theorem Inv.completed_iff (h : Inv count step s finished l) {call : Nat} {g : Given}
    (hg : s.given[call]? = some g) :
    (s.Completed call ↔ call < finished) ∧
      g.bytes.take (s.accepted.length - (bytesOf (s.given.take call)).length) =
        if call < finished then g.bytes
        else if call = finished then sentPart s.memory l else [] := by
  have hsucc := congrArg List.length (bytesOf_take_succ hg)
  rw [List.length_append] at hsucc
  rw [Completed]
  rcases Nat.lt_trichotomy call finished with hless | rfl | hmore
  · have hle := length_bytesOf_take_le s.given (show call + 1 ≤ finished from hless)
    have haccepted := congrArg List.length h.logged.accepted
    rw [List.length_append] at haccepted
    rw [if_pos hless, accepted]
    exact ⟨iff_of_true (by omega) hless, List.take_of_length_le (by omega)⟩
  · obtain ⟨n, hn, hpart, haccepted⟩ := h.accepted_next hg
    rw [if_neg (Nat.lt_irrefl _), if_pos rfl, hpart, haccepted, Nat.add_sub_cancel_left]
    exact ⟨iff_of_false (by omega) (Nat.lt_irrefl _), rfl⟩
  · have hcall := (List.getElem?_eq_some_iff.mp hg).1
    have hnext := List.getElem?_eq_getElem (Nat.lt_trans hmore hcall)
    obtain ⟨n, hn, _, haccepted⟩ := h.accepted_next hnext
    have hsucc' := congrArg List.length (bytesOf_take_succ hnext)
    rw [List.length_append] at hsucc'
    have hle := length_bytesOf_take_le s.given (show finished + 1 ≤ call from hmore)
    rw [if_neg (by omega), if_neg (by omega), Nat.sub_eq_zero_of_le (by omega), List.take_zero]
    exact ⟨iff_of_false (by omega) (by omega), rfl⟩

theorem Inv.intact (h : Inv count step s finished l) (hsmall : PoolUse.Small count step) :
    s.Intact := by
  refine ⟨h.stream, ?_, h.logged.only, ?_⟩
  · intro call g hg
    obtain ⟨hcompleted, hpart⟩ := h.completed_iff hg
    obtain ⟨pieces, hhistory, hflatten⟩ := h.logged.calls call g hg
    refine ⟨pieces, ?_, hflatten.trans hpart.symm⟩
    rw [history, hhistory]
    simp only [hcompleted]
  · obtain ⟨out, pushed, popped, hpool, hperm⟩ := h.pool
    have htotal := hpool.total
    have hunused := hpool.unused_eq hsmall
    have hlength := hperm.length_eq
    rw [PoolUse.unused] at hunused
    rw [List.length_append, List.length_map] at hlength
    rw [unused, hunused, h.rep.size]
    dsimp only at htotal
    omega

theorem Inv.goes (h : Inv count step s finished l) (hsmall : PoolUse.Small count step) : s.Goes := by
  refine ⟨fun _ _ backfun hlen => h.sendData_isSome hsmall hlen backfun, ?_⟩
  intro hsize
  obtain ⟨a, x, l, rfl⟩ := h.cons_of_size hsize
  refine ⟨x, h.rep.head_eq, ?_⟩
  intro ret hret
  obtain ⟨r, _, _, hr, _⟩ := h.sendOnce hsmall hret
  rw [hr]
  rfl

theorem Inv.keepsWhenFalse (h : Inv count step s finished l) (hsmall : PoolUse.Small count step) :
    s.KeepsWhenFalse := by
  intro buffer len backfun s' hs
  obtain rfl := (h.sendData hsmall buffer len backfun hs).1 rfl
  exact ⟨rfl, rfl, rfl⟩

/-! ## Every run -/

/-- Whatever is given to `SendData` and however `send` cuts it, with the pool of the server: the bytes
go out in order, each call is resolved once, when its last byte has been accepted, and a call that fails
has done nothing. -/
theorem intact_of_run (junk : Nat → Nat) (memory : Nat → Block) :
    ∃ p, (CMemPool.new junk).creatPool memPoolBlockSize (1024 * 100) (1024 * 10) = some (p, true) ∧
      ∀ steps s, (streams p memory).run (start p memory) steps = some s →
        s.Intact ∧ s.Goes ∧ s.KeepsWhenFalse := by
  have hsmall : PoolUse.Small (1024 * 100) (1024 * 10) := ⟨by decide, by decide, by decide⟩
  obtain ⟨p, pushed, hcreat, hpool⟩ :=
    PoolUse.Inv.start hsmall (by decide : (0 : Int) < memPoolBlockSize) junk
  refine ⟨p, hcreat, ?_⟩
  intro steps s hrun
  have hmove : ∀ s a s', (∃ finished l, Inv (1024 * 100) (1024 * 10) s finished l) →
      (streams p memory).step s a = some s' →
      ∃ finished l, Inv (1024 * 100) (1024 * 10) s' finished l := by
    rintro s a s' ⟨finished, l, h⟩ hs
    exact h.move hsmall hs
  obtain ⟨finished, l, h⟩ :=
    (streams p memory).run_invariant hmove ⟨0, [], inv_start hpool memory⟩ hrun
  exact ⟨h.intact hsmall, h.goes hsmall, h.keepsWhenFalse hsmall⟩

/-- Three bytes go out in two pieces, with another call in between; the second send task ends with an
error. -/
example : ((CMemPool.new fun _ => 0).creatPool 1152 2 1).bind (fun r =>
    ((streams r.1 fun _ => Buffer.fill _ 0).run (start r.1 fun _ => Buffer.fill _ 0)
      [.sendData (some [1, 2, 3]) 3 true, .sendTask [2], .sendData none 1 false,
        .sendData (some [4]) 1 false, .sendTask [1, -1]]).map fun s => (s.log, s.unsent)) =
    some ([.sent 0 [1, 2], .sent 0 [3], .callBack 0 0, .freeBlock 0], [4]) := by
  decide +kernel

end Stream

end CmdTran
