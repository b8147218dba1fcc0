import CmdTran.Output.Basic

/-!
# One round of the send loop

What `afterSend` can do to a chain, and the bytes of a node across it.
-/

namespace CmdTran

variable {τ : Type}

/-! ## Bytes of a node -/

namespace MemNode

theorem unsent_begin (node : MemNode τ) (n : Nat) :
    { node with begin := node.begin + n }.unsent = node.unsent.drop n := by
  simp only [unsent, List.drop_drop]

theorem length_unsent_le (node : MemNode τ) : (node.unsent.length : Int) ≤ max 0 node.rest := by
  simp only [unsent, rest, List.length_drop, List.length_take]
  omega

theorem take_unsent_rest (node : MemNode τ) : node.unsent.take node.rest.toNat = node.unsent := by
  apply List.take_of_length_le
  have hle := node.length_unsent_le
  omega

end MemNode

/-! ## The round -/

theorem SendResult.ret_le (node : MemNode τ) (r : SendResult) :
    r.ret node < 0 ∨ r.ret node ≤ node.rest := by
  cases r with
  | failed => exact Or.inl (Int.negSucc_lt_zero 0)
  | took n => exact Or.inr (min_le_right _ _)

/-- The round over `node :: chain` after a `send` that returned `ret`. -/
inductive Round (info : SocketInformation τ) (node : MemNode τ) (chain : List (MemNode τ)) (ret : Int) :
    AfterSend τ → Prop where
  | nothing (hret : ret ≤ 0) (again : Bool) : Round info node chain ret ⟨info, none, again⟩
  | part (hpos : 0 < ret) (hlt : ret < node.rest) :
      Round info node chain ret
        ⟨{ info with
            outputChain := { node with begin := node.begin + ret.toNat } :: chain
            currSendState := .waiting }, none, false⟩
  | whole (hpos : 0 < ret) (heq : ret = node.rest) :
      Round info node chain ret ⟨{ info with outputChain := chain }, some node, true⟩

theorem afterSend_round {info : SocketInformation τ} {node : MemNode τ} {chain : List (MemNode τ)}
    (hchain : info.outputChain = node :: chain) {ret : Int} (hle : ret < 0 ∨ ret ≤ node.rest) :
    Round info node chain ret (afterSend info ret) := by
  unfold afterSend
  rw [hchain]
  dsimp only
  split
  · exact .nothing (by omega) false
  · split
    · exact .part (by omega) (by omega)
    · split
      · exact .whole (by omega) (by omega)
      · exact .nothing (by omega) true

end CmdTran
