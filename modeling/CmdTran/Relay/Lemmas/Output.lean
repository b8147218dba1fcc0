import CmdTran.Relay.Lemmas.Input

/-!
# Output

What was sent to a connection and what its chain has left are together what was queued for it.
-/

namespace CmdTran

open Server Relay

variable {v v' : View} {inOrder : Prop}

structure Chained (v : View) : Prop where
  chain : ∀ fd c, v.fds fd = some c →
    sent v.log c ++ (v.chain fd).flatMap MemNode.unsent = (queued v.log c).flatten
  sent : ∀ c, sent v.log c <+: (queued v.log c).flatten
  form : ∀ c, ∀ f ∈ queued v.log c, WellFormed f

namespace Chained

theorem close (h : Chained v) (fd : Nat) : Chained (v.close fd) := by
  refine ⟨?_, h.sent, h.form⟩
  intro fd' c hc
  simp only [View.close, Function.update_apply] at hc
  split at hc
  · cases hc
  · exact h.chain fd' c hc

theorem received (h : Chained v) (conn : Conn) (bytes : List UInt8) :
    Chained (v.record (.received conn bytes)) := by
  refine ⟨?_, ?_, ?_⟩
  · intro fd c hc
    simpa [View.record] using h.chain fd c hc
  · intro c
    simpa [View.record] using h.sent c
  · intro c f hf
    simp only [View.record, queued_received] at hf
    exact h.form c f hf

theorem push (h : Chained v) (hnumbered : Numbered v) (fd : Nat) (source : Option Conn)
    {node : MemNode Nat} (hform : WellFormed node.unsent) : Chained (v.push fd source node) := by
  refine ⟨?_, ?_, ?_⟩
  · intro fd' c hc
    have hold := h.chain fd' c hc
    dsimp only [View.push, View.record, View.setChain] at hc ⊢
    rw [sent_queued, queued_queued, List.flatten_append, ← hold, Function.update_apply]
    by_cases hfd : fd' = fd
    · subst hfd
      rw [if_pos rfl, if_pos hc]
      simp
    · have hother : v.fds fd ≠ some c := fun hfd' => hfd (hnumbered.unique hc hfd')
      rw [if_neg hfd, if_neg hother]
      simp
  · intro c
    dsimp only [View.push, View.record, View.setChain]
    rw [sent_queued, queued_queued, List.flatten_append]
    exact (h.sent c).trans (List.prefix_append _ _)
  · intro c f hf
    simp only [View.push, View.record, View.setChain, queued_queued, List.mem_append] at hf
    rcases hf with hold | hnew
    · exact h.form c f hold
    · split at hnew
      · rw [List.mem_singleton.mp hnew]
        exact hform
      · cases hnew

theorem send (h : Chained v) (hnumbered : Numbered v) {fd : Nat} {conn : Conn} {node : MemNode Nat}
    {front rest : List (MemNode Nat)} {bytes : List UInt8} (hopen : v.fds fd = some conn)
    (hchain : v.chain fd = node :: rest)
    (hbytes : node.unsent = bytes ++ front.flatMap MemNode.unsent) :
    Chained ((v.setChain fd (front ++ rest)).record (.sent conn node.tag bytes)) := by
  have hall := h.chain fd conn hopen
  rw [hchain, List.flatMap_cons, hbytes, List.append_assoc, ← List.append_assoc (Relay.sent _ _) bytes]
    at hall
  refine ⟨?_, ?_, ?_⟩
  · intro fd' c hc
    dsimp only [View.record, View.setChain] at hc ⊢
    rw [sent_sent, queued_sent, Function.update_apply]
    by_cases hfd : fd' = fd
    · subst hfd
      cases hopen.symm.trans hc
      rw [if_pos rfl, if_pos rfl, List.flatMap_append]
      exact hall
    · have hother : conn ≠ c := by
        rintro rfl
        exact hfd (hnumbered.unique hc hopen)
      rw [if_neg hfd, if_neg hother, List.append_nil]
      exact h.chain fd' c hc
  · intro c
    dsimp only [View.record, View.setChain]
    rw [sent_sent, queued_sent]
    split
    · rename_i heq
      subst heq
      exact ⟨_, hall⟩
    · rw [List.append_nil]
      exact h.sent c
  · intro c f hf
    simp only [View.record, View.setChain, queued_sent] at hf
    exact h.form c f hf

theorem move (h : Chained v) (hnumbered : Numbered v) (hframed : Framed v) (hstaged : Staged v)
    (hmove : Move inOrder v v') : Chained v' := by
  cases hmove with
  | deliver => exact ⟨h.chain, h.sent, h.form⟩
  | drop => exact ⟨h.chain, h.sent, h.form⟩
  | accept w fd hidle hfree hrecv hframe htasks hchain =>
      refine ⟨?_, h.sent, h.form⟩
      intro fd' c hc
      dsimp only at hc ⊢
      simp only [Function.update_apply] at hc
      split at hc
      · rename_i heq
        subst heq
        cases hc
        obtain ⟨_, hqueued, hsent⟩ := hnumbered.fresh _ (Nat.le_refl _)
        rw [hchain, hqueued, hsent]
        rfl
      · exact h.chain fd' c hc
  | advance => exact ⟨h.chain, h.sent, h.form⟩
  | refuse w fd =>
      have hclose := h.close fd
      exact ⟨hclose.chain, hclose.sent, hclose.form⟩
  | addClient => exact ⟨h.chain, h.sent, h.form⟩
  | turn => exact ⟨h.chain, h.sent, h.form⟩
  | read w fd conn bytes =>
      have hlog := h.received conn bytes
      exact ⟨hlog.chain, hlog.sent, hlog.form⟩
  | missed fd conn bytes => exact h.received conn bytes
  | save => exact ⟨h.chain, h.sent, h.form⟩
  | saved => exact ⟨h.chain, h.sent, h.form⟩
  | close w fd =>
      have hclose := h.close fd
      exact ⟨hclose.chain, hclose.sent, hclose.form⟩
  | forget => exact ⟨h.chain, h.sent, h.form⟩
  | quit => exact ⟨h.chain, h.sent, h.form⟩
  | remove w fd hstage =>
      refine ⟨?_, h.sent, h.form⟩
      intro fd' c hc
      have hne : fd' ≠ fd := by
        rintro rfl
        cases (hstaged.closed w _ fd' hstage rfl).symm.trans hc
      simp only [View.setRecv, View.setChain, Function.update_of_ne hne]
      exact h.chain fd' c hc
  | take => exact ⟨h.chain, h.sent, h.form⟩
  | pass => exact ⟨h.chain, h.sent, h.form⟩
  | finish => exact ⟨h.chain, h.sent, h.form⟩
  | ack fd node hform => exact h.push hnumbered fd none hform
  | relay w task cameraId it fd node hstage hit hnode =>
      have hform : WellFormed node.unsent := by
        rw [hnode]
        exact (hframed.frame w task _ hstage).form
      have hpush := h.push hnumbered fd task.conn hform
      exact ⟨hpush.chain, hpush.sent, hpush.form⟩
  | reject => exact ⟨h.chain, h.sent, h.form⟩
  | shut w task =>
      have hclose := h.close task.sock
      exact ⟨hclose.chain, hclose.sent, hclose.form⟩
  | send fd conn node front rest bytes hopen hchain hbytes =>
      exact h.send hnumbered hopen hchain hbytes

end Chained

end CmdTran
