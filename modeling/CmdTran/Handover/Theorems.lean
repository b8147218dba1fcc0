import CmdTran.Handover.Basic

/-!
# Every buffer is resolved once

The account of a call is the call, its nodes in the chain and what happened to its buffer. As long as
nobody comes to the socket too late, each account is one of a few, and a step changes the account of
at most one call, or moves `RemoveSocket` on.
-/

namespace CmdTran

variable {ω : Type} {env : World ω}

/-! ## Accounts -/

def CallStage.HandedOver (stage : CallStage) : Prop :=
  stage = .pushed ∨ stage = .allowed ∨ stage = .returned true

inductive Account (socket : SocketStage) (call : Nat) :
    Option SendCall → List (MemNode Nat) → List Outcome → Prop where
  | unborn : Account socket call none [] []
  | refused (len : Int) (backfun : Bool) :
      Account socket call (some ⟨none, len, backfun, .returned false⟩) [] []
  | held (buf : Block) (len : Int) (backfun : Bool) (stage : CallStage) (hlen : 0 < len)
      (hstage : stage = .copied ∨ stage = .found) :
      Account socket call (some ⟨some buf, len, backfun, stage⟩) [] []
  | givenBack (buf : Block) (len : Int) (backfun : Bool) :
      Account socket call (some ⟨some buf, len, backfun, .returned false⟩) [] [.freeBlock call]
  | kept (buf : Block) (len : Int) (backfun : Bool) (stage : CallStage) (begin : Nat)
      (pieces : List (List UInt8)) (hstage : stage.HandedOver)
      (hsocket : socket = .registered ∨ socket = .erased) (hbegin : begin < len.toNat)
      (hpieces : pieces.flatten = (buf.toList.take len.toNat).take begin) :
      Account socket call (some ⟨some buf, len, backfun, stage⟩)
        [{ MemNode.new buf len.toNat backfun call with begin }] (pieces.map (.sent call))
  | resolved (buf : Block) (len : Int) (backfun : Bool) (stage : CallStage)
      (pieces : List (List UInt8)) (code : Nat) (hstage : stage.HandedOver)
      (hcode : code = 0 ∧ pieces.flatten = buf.toList.take len.toNat ∨
        code = sendFaild ∧ (socket = .drained ∨ socket = .deleted)) :
      Account socket call (some ⟨some buf, len, backfun, stage⟩) []
        (pieces.map (.sent call) ++ resolve code (.new buf len.toNat backfun call))

def Accounted (s : Handover ω) : Prop :=
  ∀ call, Account s.socket call (s.calls call) (s.nodes call) (s.history call)

namespace Account

variable {socket : SocketStage} {call : Nat} {nodes : List (MemNode Nat)} {history : List Outcome}

theorem moved {socket' : SocketStage} {c : Option SendCall} (h : Account socket call c nodes history)
    (hkept : nodes = [] ∨ socket' = .erased)
    (hdrained : socket = .drained ∨ socket = .deleted → socket' = .drained ∨ socket' = .deleted) :
    Account socket' call c nodes history := by
  cases h with
  | unborn => exact .unborn
  | refused len backfun => exact .refused len backfun
  | held buf len backfun stage hlen hstage => exact .held buf len backfun stage hlen hstage
  | givenBack buf len backfun => exact .givenBack buf len backfun
  | kept buf len backfun stage begin pieces hstage hsocket hbegin hpieces =>
      refine .kept buf len backfun stage begin pieces hstage (Or.inr ?_) hbegin hpieces
      exact hkept.resolve_left (List.cons_ne_nil _ _)
  | resolved buf len backfun stage pieces code hstage hcode =>
      refine .resolved buf len backfun stage pieces code hstage ?_
      rcases hcode with hcode | ⟨hcode, hsocket⟩
      · exact Or.inl hcode
      · exact Or.inr ⟨hcode, hdrained hsocket⟩

theorem untouched {buf : Block} {len : Int} {backfun : Bool} {stage : CallStage}
    (h : Account socket call (some ⟨some buf, len, backfun, stage⟩) nodes history)
    (hstage : stage = .copied ∨ stage = .found) : nodes = [] ∧ history = [] ∧ 0 < len := by
  have hearly : ¬stage.HandedOver := by
    rcases hstage with rfl | rfl
    · rintro (h | h | h) <;> cases h
    · rintro (h | h | h) <;> cases h
  cases h with
  | held _ _ _ _ hlen _ => exact ⟨rfl, rfl, hlen⟩
  | givenBack => rcases hstage with h | h <;> cases h
  | kept _ _ _ _ _ _ hlate _ _ _ => exact absurd hlate hearly
  | resolved _ _ _ _ _ _ hlate _ => exact absurd hlate hearly

theorem node_only {c : Option SendCall} {node : MemNode Nat} {rest : List (MemNode Nat)}
    (h : Account socket call c (node :: rest) history) : rest = [] := by
  cases h with
  | kept => rfl

theorem sentPart {c : Option SendCall} {node : MemNode Nat} {n : Nat}
    (h : Account socket call c [node] history) (hlt : (n : Int) < node.rest) :
    Account socket call c [{ node with begin := node.begin + n }]
      (history ++ [.sent call (node.unsent.take n)]) := by
  cases h with
  | kept buf len backfun stage begin pieces hstage hsocket hbegin hpieces =>
      have hpieces' : (pieces ++ [((buf.toList.take len.toNat).drop begin).take n]).flatten =
          (buf.toList.take len.toNat).take (begin + n) := by
        rw [List.flatten_concat, hpieces, List.take_add]
      have hbegin' : begin + n < len.toNat := by
        simp only [MemNode.rest, MemNode.new] at hlt
        omega
      have h : Account socket call _ _ _ :=
        .kept buf len backfun stage (begin + n) _ hstage hsocket hbegin' hpieces'
      rw [List.map_append] at h
      exact h

theorem sentWhole {c : Option SendCall} {node : MemNode Nat}
    (h : Account socket call c [node] history) :
    Account socket call c [] (history ++ [.sent call node.unsent] ++ resolve 0 node) := by
  cases h with
  | kept buf len backfun stage begin pieces hstage hsocket hbegin hpieces =>
      have hpieces' : (pieces ++ [(buf.toList.take len.toNat).drop begin]).flatten =
          buf.toList.take len.toNat := by
        rw [List.flatten_concat, hpieces, List.take_append_drop]
      have h : Account socket call _ _ _ :=
        .resolved buf len backfun stage _ 0 hstage (Or.inl ⟨rfl, hpieces'⟩)
      rw [List.map_append] at h
      exact h

theorem drained {c : Option SendCall} (h : Account socket call c nodes history) :
    Account .drained call c [] (history ++ nodes.flatMap (resolve sendFaild)) := by
  cases h with
  | unborn => exact .unborn
  | refused len backfun => exact .refused len backfun
  | held buf len backfun stage hlen hstage => exact .held buf len backfun stage hlen hstage
  | givenBack buf len backfun => exact .givenBack buf len backfun
  | kept buf len backfun stage begin pieces hstage hsocket hbegin hpieces =>
      rw [List.flatMap_singleton]
      exact .resolved buf len backfun stage pieces sendFaild hstage (Or.inr ⟨rfl, Or.inl rfl⟩)
  | resolved buf len backfun stage pieces code hstage hcode =>
      rw [List.flatMap_nil, List.append_nil]
      refine .resolved buf len backfun stage pieces code hstage ?_
      rcases hcode with hcode | ⟨hcode, _⟩
      · exact Or.inl hcode
      · exact Or.inr ⟨hcode, Or.inl rfl⟩

end Account

/-! ## One call at a time -/

theorem Handover.setCall_self (s : Handover ω) (call : Nat) (c : SendCall) :
    (s.setCall call c).calls call = some c :=
  Function.update_self _ _ _

theorem Handover.setCall_other (s : Handover ω) {call other : Nat} (c : SendCall)
    (hne : other ≠ call) : (s.setCall call c).calls other = s.calls other :=
  Function.update_of_ne hne _ _

theorem Accounted.one {s s' : Handover ω} (h : Accounted s) (call : Nat)
    (hsocket : s'.socket = s.socket)
    (hother : ∀ other, other ≠ call → s'.calls other = s.calls other ∧
      s'.nodes other = s.nodes other ∧ s'.history other = s.history other)
    (hcall : Account s.socket call (s'.calls call) (s'.nodes call) (s'.history call)) :
    Accounted s' := by
  intro other
  rw [hsocket]
  by_cases heq : other = call
  · subst heq
    exact hcall
  · obtain ⟨hcalls, hnodes, hhistory⟩ := hother other heq
    rw [hcalls, hnodes, hhistory]
    exact h other

theorem Accounted.setCall {s s' : Handover ω} (h : Accounted s) (hsocket : s'.socket = s.socket)
    (hchain : s'.info.outputChain = s.info.outputChain) (hlog : s'.log = s.log)
    (hcalls : s'.calls = s.calls) {call : Nat} {c : SendCall}
    (hcall : Account s.socket call (some c) (s.nodes call) (s.history call)) :
    Accounted (s'.setCall call c) := by
  have hnodes (other : Nat) : (s'.setCall call c).nodes other = s.nodes other := by
    simp only [Handover.nodes, Handover.setCall, hchain]
  have hhistory (other : Nat) : (s'.setCall call c).history other = s.history other := by
    simp only [Handover.history, Handover.setCall, hlog]
  refine h.one call ?_ ?_ ?_
  · exact hsocket
  · intro other hne
    refine ⟨?_, hnodes other, hhistory other⟩
    rw [Handover.setCall_other _ _ hne, hcalls]
  · rw [hnodes, hhistory, Handover.setCall_self]
    exact hcall

theorem Accounted.same {s s' : Handover ω} (h : Accounted s) (hsocket : s'.socket = s.socket)
    (hchain : s'.info.outputChain = s.info.outputChain) (hlog : s'.log = s.log)
    (hcalls : s'.calls = s.calls) : Accounted s' := by
  intro call
  simp only [Handover.nodes, Handover.history, hsocket, hchain, hlog, hcalls]
  exact h call

theorem filter_append_own {α : Type} {f : α → Nat} {n : Nat} {new : List α} (old : List α)
    (hnew : ∀ a ∈ new, f a = n) :
    (old ++ new).filter (f · = n) = old.filter (f · = n) ++ new := by
  have hall : new.filter (f · = n) = new :=
    List.filter_eq_self.mpr fun a ha => decide_eq_true (hnew a ha)
  rw [List.filter_append, hall]

theorem filter_append_other {α : Type} {f : α → Nat} {n m : Nat} {new : List α} (old : List α)
    (hnew : ∀ a ∈ new, f a = n) (hne : m ≠ n) :
    (old ++ new).filter (f · = m) = old.filter (f · = m) := by
  have hnone : new.filter (f · = m) = [] := by
    apply List.filter_eq_nil_iff.mpr
    intro a ha hm
    exact hne ((of_decide_eq_true hm).symm.trans (hnew a ha))
  rw [List.filter_append, hnone, List.append_nil]

theorem call_of_mem_resolve {code : Nat} {node : MemNode Nat} {e : Outcome}
    (he : e ∈ resolve code node) : e.call = node.tag := by
  unfold resolve at he
  split at he
  · rcases List.mem_pair.mp he with rfl | rfl
    · rfl
    · rfl
  · rw [List.mem_singleton.mp he]
    rfl

/-- A call of `SendData` has just begun. -/
theorem Accounted.begin {s : Handover ω} (h : Accounted s) {call : Nat} (hnew : s.calls call = none)
    (pool : ω) {c : SendCall} (hcall : Account s.socket call (some c) [] []) :
    Accounted ({ s with pool }.setCall call c) := by
  have hacc := h call
  rw [hnew] at hacc
  have hnone : s.nodes call = [] ∧ s.history call = [] := by
    generalize s.nodes call = nodes, s.history call = history at hacc
    cases hacc
    exact ⟨rfl, rfl⟩
  refine h.setCall ?_ ?_ ?_ ?_ ?_
  · rfl
  · rfl
  · rfl
  · rfl
  · rw [hnone.1, hnone.2]
    exact hcall

theorem Accounted.lookup {s : Handover ω} (h : Accounted s) {call : Nat} {buf : Block} {len : Int}
    {backfun : Bool} (hcall : s.calls call = some ⟨some buf, len, backfun, .copied⟩)
    (pool : ω) :
    Accounted (s.setCall call ⟨some buf, len, backfun, .found⟩) ∧
      Accounted ({ s with pool, log := s.log ++ [Outcome.freeBlock call] }.setCall call
        ⟨some buf, len, backfun, .returned false⟩) := by
  have hacc := h call
  rw [hcall] at hacc
  obtain ⟨hnodes, hhistory, hlen⟩ := hacc.untouched (Or.inl rfl)
  have hown : ∀ e ∈ [Outcome.freeBlock call], e.call = call := by
    intro e he
    rw [List.mem_singleton.mp he]
    rfl
  constructor
  · apply h.setCall rfl rfl rfl rfl
    rw [hnodes, hhistory]
    exact .held buf len backfun .found hlen (Or.inr rfl)
  · refine h.one call ?_ ?_ ?_
    · rfl
    · intro other hne
      exact ⟨Handover.setCall_other _ _ hne, rfl, filter_append_other _ hown hne⟩
    · have hnew : ({ s with pool, log := s.log ++ [Outcome.freeBlock call] }.setCall call
          ⟨some buf, len, backfun, .returned false⟩).history call = [.freeBlock call] := by
        refine (filter_append_own _ hown).trans ?_
        change s.history call ++ _ = _
        rw [hhistory, List.nil_append]
      rw [hnew, Handover.setCall_self]
      change Account s.socket call _ (s.nodes call) _
      rw [hnodes]
      exact .givenBack buf len backfun

theorem Accounted.push {s : Handover ω} (h : Accounted s) {call : Nat} {buf : Block} {len : Int}
    {backfun : Bool} (hcall : s.calls call = some ⟨some buf, len, backfun, .found⟩)
    (hsocket : s.socket = .registered ∨ s.socket = .erased) :
    Accounted ({ s with info := s.info.push (.new buf len.toNat backfun call) }.setCall call
      ⟨some buf, len, backfun, .pushed⟩) := by
  have hacc := h call
  rw [hcall] at hacc
  obtain ⟨hnodes, hhistory, hlen⟩ := hacc.untouched (Or.inr rfl)
  have hown : ∀ node ∈ [MemNode.new buf len.toNat backfun call], node.tag = call := by
    intro node hnode
    rw [List.mem_singleton.mp hnode]
    rfl
  refine h.one call ?_ ?_ ?_
  · rfl
  · intro other hne
    exact ⟨Handover.setCall_other _ _ hne, filter_append_other _ hown hne, rfl⟩
  · have hnew : ({ s with info := s.info.push (.new buf len.toNat backfun call) }.setCall call
        ⟨some buf, len, backfun, .pushed⟩).nodes call = [.new buf len.toNat backfun call] := by
      refine (filter_append_own _ hown).trans ?_
      change s.nodes call ++ _ = _
      rw [hnodes, List.nil_append]
    rw [hnew, Handover.setCall_self]
    change Account s.socket call _ _ (s.history call)
    rw [hhistory]
    exact .kept buf len backfun .pushed 0 [] (Or.inl rfl) hsocket (by omega) rfl

/-! ## Steps over the chain -/

theorem Accounted.head {s : Handover ω} (h : Accounted s) {node : MemNode Nat}
    {chain : List (MemNode Nat)} (hchain : s.info.outputChain = node :: chain) :
    s.nodes node.tag = [node] ∧ chain.filter (·.tag = node.tag) = [] := by
  have hhead : s.nodes node.tag = node :: chain.filter (·.tag = node.tag) := by
    unfold Handover.nodes
    rw [hchain]
    exact List.filter_cons_of_pos (by simp)
  have hacc := h node.tag
  rw [hhead] at hacc
  have hrest := hacc.node_only
  rw [hhead, hrest]
  exact ⟨rfl, rfl⟩

/-- The head of the chain has changed, or left, and its call has the account `hcall`. -/
theorem Accounted.atHead {s s' : Handover ω} (h : Accounted s) {node : MemNode Nat}
    {chain : List (MemNode Nat)} (front : List (MemNode Nat)) (new : List Outcome)
    (hchain : s.info.outputChain = node :: chain) (hsocket : s'.socket = s.socket)
    (hcalls : s'.calls = s.calls) (hchain' : s'.info.outputChain = front ++ chain)
    (hfront : ∀ node' ∈ front, node'.tag = node.tag)
    (hlog : s'.log = s.log ++ new) (hnew : ∀ e ∈ new, e.call = node.tag)
    (hcall : Account s.socket node.tag (s.calls node.tag) front (s.history node.tag ++ new)) :
    Accounted s' := by
  refine h.one node.tag hsocket ?_ ?_
  · intro other hne
    have hnone : front.filter (·.tag = other) = [] := by
      apply List.filter_eq_nil_iff.mpr
      intro node' hnode' heq
      exact hne ((of_decide_eq_true heq).symm.trans (hfront node' hnode'))
    refine ⟨congrFun hcalls other, ?_, ?_⟩
    · unfold Handover.nodes
      rw [hchain', hchain, List.filter_append, hnone, List.nil_append]
      exact (List.filter_cons_of_neg (by simpa using Ne.symm hne)).symm
    · unfold Handover.history
      rw [hlog]
      exact filter_append_other _ hnew hne
  · have hnodes : s'.nodes node.tag = front := by
      unfold Handover.nodes
      rw [hchain', List.filter_append, (h.head hchain).2, List.append_nil]
      exact List.filter_eq_self.mpr fun node' hnode' => decide_eq_true (hfront node' hnode')
    have hhistory : s'.history node.tag = s.history node.tag ++ new := by
      unfold Handover.history
      rw [hlog]
      exact filter_append_own _ hnew
    rw [hcalls, hnodes, hhistory]
    exact hcall

theorem Accounted.sendOnce {s : Handover ω} (h : Accounted s) {r : SendResult} {freed : MemNode Nat}
    (hfreed : s.ReadsBack r freed) : Accounted (s.sendOnce env r freed) := by
  unfold Handover.sendOnce
  split
  · exact h.same rfl rfl rfl rfl
  · rename_i node chain hchain
    obtain ⟨hnodes, _⟩ := h.head hchain
    have hacc := h node.tag
    rw [hnodes] at hacc
    have hsame := hfreed node (by rw [hchain]; rfl)
    generalize hret : r.ret node = ret at hsame
    have hle : ret < 0 ∨ ret ≤ node.rest := hret ▸ r.ret_le node
    have hround := afterSend_round hchain hle
    dsimp only
    generalize afterSend s.info ret = after at hround
    cases hround with
    | nothing hno again =>
        rw [if_neg (by omega), List.append_nil]
        exact h.same rfl rfl rfl rfl
    | part hsome hlt =>
        rw [if_pos hsome]
        refine h.atHead [{ node with begin := node.begin + ret.toNat }] _ hchain rfl rfl rfl ?_ rfl
          ?_ ?_
        · intro node' hnode'
          rw [List.mem_singleton.mp hnode']
        · intro e he
          rw [List.mem_singleton.mp he]
          rfl
        · exact hacc.sentPart (by omega)
    | whole hsome heq =>
        obtain rfl := hsame hsome heq
        rw [if_pos hsome, heq, freed.take_unsent_rest]
        refine h.atHead [] ([.sent freed.tag freed.unsent] ++ resolve 0 freed) hchain rfl rfl rfl
          ?_ ?_ ?_ ?_
        · intro node' hnode'
          cases hnode'
        · exact List.append_assoc _ _ _
        · intro e he
          rcases List.mem_append.mp he with he | he
          · rw [List.mem_singleton.mp he]
            rfl
          · exact call_of_mem_resolve he
        · rw [← List.append_assoc]
          exact hacc.sentWhole

theorem filter_flatMap_resolve (code : Nat) (chain : List (MemNode Nat)) (call : Nat) :
    (chain.flatMap (resolve code)).filter (·.call = call) =
      (chain.filter (·.tag = call)).flatMap (resolve code) := by
  induction chain with
  | nil => rfl
  | cons node chain ih =>
      rw [List.flatMap_cons, List.filter_append, ih]
      by_cases htag : node.tag = call
      · have hall : (resolve code node).filter (·.call = call) = resolve code node :=
          List.filter_eq_self.mpr fun e he => decide_eq_true ((call_of_mem_resolve he).trans htag)
        rw [hall, List.filter_cons_of_pos (by simpa using htag), List.flatMap_cons]
      · have hnone : (resolve code node).filter (·.call = call) = [] := by
          apply List.filter_eq_nil_iff.mpr
          intro e he heq
          exact htag ((call_of_mem_resolve he).symm.trans (of_decide_eq_true heq))
        rw [hnone, List.filter_cons_of_neg (by simpa using htag), List.nil_append]

theorem Accounted.drain {s : Handover ω} (h : Accounted s) (pool : ω) :
    Accounted { s with
      socket := .drained
      pool
      info := { s.info with outputChain := [] }
      log := s.log ++ s.info.outputChain.flatMap (resolve sendFaild) } := by
  intro call
  have hdrained := (h call).drained
  unfold Handover.nodes at hdrained
  rw [← filter_flatMap_resolve] at hdrained
  unfold Handover.history
  rw [List.filter_append]
  exact hdrained

end CmdTran
