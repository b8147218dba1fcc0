import CmdTran.Lib.System

/-!
# What a run shows

A label says what the users of a system see of an action, if anything. A system simulates another one if
each step of the other is answered by steps that show the same; then whatever a run of the other shows, one
of its runs shows too.
-/

universe u v w x y

namespace StepSystem

variable {σ : Type u} {α : Type v} {τ : Type w} {β : Type x} {ε : Type y} (M : StepSystem σ α)
  (N : StepSystem τ β)

/-- What is seen of a run, each label read in the state that the action is taken in. -/
def trace (label : σ → α → Option ε) : σ → List α → List ε
  | _, [] => []
  | s, a :: as => (label s a).toList ++ ((M.step s a).map fun s' => trace label s' as).getD []

variable {label : σ → α → Option ε} {label' : τ → β → Option ε}

theorem trace_cons {s s' : σ} {a : α} (h : M.step s a = some s') (as : List α) :
    M.trace label s (a :: as) = (label s a).toList ++ M.trace label s' as := by
  rw [trace, h]
  rfl

theorem trace_append {s s' : σ} {as : List α} (h : M.run s as = some s') (bs : List α) :
    M.trace label s (as ++ bs) = M.trace label s as ++ M.trace label s' bs := by
  induction as generalizing s with
  | nil =>
      cases h
      rfl
  | cons a as ih =>
      obtain ⟨s₁, h₁, hrest⟩ := M.run_cons_eq_some.mp h
      rw [List.cons_append, M.trace_cons h₁, M.trace_cons h₁, ih hrest, List.append_assoc]

/-- Steps of `N` from one state to another that show `shown`. -/
def Shows (label' : τ → β → Option ε) (t : τ) (shown : List ε) (t' : τ) : Prop :=
  ∃ bs, N.run t bs = some t' ∧ N.trace label' t bs = shown

namespace Shows

variable {N} {t t' t'' : τ} {b : β}

theorem refl (t : τ) : N.Shows label' t [] t := ⟨[], rfl, rfl⟩

theorem single (h : N.step t b = some t') : N.Shows label' t (label' t b).toList t' := by
  refine ⟨[b], ?_, ?_⟩
  · rw [run_cons, h]
    rfl
  · rw [N.trace_cons h]
    exact List.append_nil _

theorem trans {shown shown' : List ε} (h : N.Shows label' t shown t') (h' : N.Shows label' t' shown' t'') :
    N.Shows label' t (shown ++ shown') t'' := by
  obtain ⟨bs, hrun, rfl⟩ := h
  obtain ⟨bs', hrun', rfl⟩ := h'
  refine ⟨bs ++ bs', ?_, N.trace_append hrun bs'⟩
  rw [run_append, hrun]
  exact hrun'

end Shows

/-- A guarded run is answered step by step. -/
theorem Meets.simulated {ok : σ → α → Prop} {R : σ → τ → Prop}
    (hstep : ∀ s t a s', R s t → ok s a → M.step s a = some s' →
      ∃ t', N.Shows label' t (label s a).toList t' ∧ R s' t')
    {s s' : σ} {t : τ} {as : List α} (h : M.Meets ok s as) (hR : R s t) (hr : M.run s as = some s') :
    ∃ t', N.Shows label' t (M.trace label s as) t' ∧ R s' t' := by
  induction as generalizing s t with
  | nil =>
      cases hr
      exact ⟨t, .refl t, hR⟩
  | cons a as ih =>
      obtain ⟨s₁, h₁, hr⟩ := M.run_cons_eq_some.mp hr
      obtain ⟨t₁, hshows, hR₁⟩ := hstep s t a s₁ hR h.1 h₁
      obtain ⟨t', hrest, hR'⟩ := ih (h.2 s₁ h₁) hR₁ hr
      refine ⟨t', ?_, hR'⟩
      rw [M.trace_cons h₁]
      exact hshows.trans hrest

/-- A quantity that never goes down and is below a bound in the end has been so all along. -/
theorem meets_below {size : σ → Nat} {bound : Nat}
    (hmono : ∀ s a s', M.step s a = some s' → size s ≤ size s') {s s' : σ} {as : List α}
    (hr : M.run s as = some s') (hlt : size s' < bound) :
    M.Meets (fun s a => ∀ s', M.step s a = some s' → size s' < bound) s as := by
  induction as generalizing s with
  | nil => trivial
  | cons a as ih =>
      obtain ⟨s₁, h₁, hr⟩ := M.run_cons_eq_some.mp hr
      refine (M.meets_cons h₁ as).mpr ⟨?_, ih hr⟩
      intro s₂ h₂
      cases h₁.symm.trans h₂
      have hkeep : ∀ s a s', size s₁ ≤ size s → M.step s a = some s' → size s₁ ≤ size s' :=
        fun s a s' hle hs => Nat.le_trans hle (hmono s a s' hs)
      exact Nat.lt_of_le_of_lt (M.run_invariant hkeep (Nat.le_refl _) hr) hlt

theorem Meets.and {ok ok' : σ → α → Prop} {s : σ} {as : List α} (h : M.Meets ok s as)
    (h' : M.Meets ok' s as) : M.Meets (fun s a => ok s a ∧ ok' s a) s as := by
  induction as generalizing s with
  | nil => trivial
  | cons a as ih => exact ⟨⟨h.1, h'.1⟩, fun s' hs => ih (h.2 s' hs) (h'.2 s' hs)⟩

end StepSystem
