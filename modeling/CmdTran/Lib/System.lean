import Mathlib.Logic.Function.Basic
import Mathlib.Data.List.Infix

/-!
# Step systems and their runs

A step system has a start state and a partial step function; nondeterminism is in the action. An
invariant is proved for one step and carried to runs here, once. A guard is a condition on the
actions of a run, each in the state it is taken in: `Meets` says that a whole run keeps to it.
-/

universe u v w

/-- `step s a = none` says that the action `a` is not possible in `s`. -/
structure StepSystem (σ : Type u) (α : Type v) where
  start : σ
  step : σ → α → Option σ

namespace StepSystem

variable {σ : Type u} {α : Type v} (M : StepSystem σ α)

/-- The state after the actions, if each of them was possible. -/
def run : σ → List α → Option σ
  | s, [] => some s
  | s, a :: as => (M.step s a).bind fun s' => run s' as

/-- Every action of the run meets the guard `ok` in the state it is taken in. -/
def Meets (ok : σ → α → Prop) : σ → List α → Prop
  | _, [] => True
  | s, a :: as => ok s a ∧ ∀ s', M.step s a = some s' → Meets ok s' as

/-! ## Runs -/

@[simp] theorem run_nil (s : σ) : M.run s [] = some s := rfl

@[simp] theorem run_cons (s : σ) (a : α) (as : List α) :
    M.run s (a :: as) = (M.step s a).bind fun s' => M.run s' as := rfl

theorem run_cons_eq_some {s s'' : σ} {a : α} {as : List α} :
    M.run s (a :: as) = some s'' ↔ ∃ s', M.step s a = some s' ∧ M.run s' as = some s'' := by
  simp [Option.bind_eq_some_iff]

theorem run_append (s : σ) (as bs : List α) :
    M.run s (as ++ bs) = (M.run s as).bind fun s' => M.run s' bs := by
  induction as generalizing s with
  | nil => rfl
  | cons a as ih =>
      simp only [List.cons_append, run_cons, Option.bind_assoc, ih]

theorem run_concat_eq_some {s s'' : σ} {a : α} {as : List α} :
    M.run s (as ++ [a]) = some s'' ↔ ∃ s', M.run s as = some s' ∧ M.step s' a = some s'' := by
  simp [run_append, Option.bind_eq_some_iff]

/-- What one step preserves, a run preserves. -/
theorem run_invariant {Inv : σ → Prop}
    (hstep : ∀ s a s', Inv s → M.step s a = some s' → Inv s')
    {s s' : σ} {as : List α} (hs : Inv s) (hr : M.run s as = some s') : Inv s' := by
  induction as generalizing s with
  | nil => cases hr; exact hs
  | cons a as ih =>
      obtain ⟨s₁, h₁, hr⟩ := M.run_cons_eq_some.mp hr
      exact ih (hstep _ _ _ hs h₁) hr

/-- What a step preserves as long as a quantity stays below a bound, a run does; the quantity never goes
down. -/
theorem run_invariant_below {Inv : σ → Prop} (size : σ → Nat) {bound : Nat}
    (hmono : ∀ s a s', M.step s a = some s' → size s ≤ size s')
    (hstep : ∀ s a s', Inv s → M.step s a = some s' → size s' < bound → Inv s')
    {s s' : σ} {as : List α} (hs : size s < bound → Inv s) (hr : M.run s as = some s')
    (hlt : size s' < bound) : Inv s' := by
  induction as generalizing s with
  | nil =>
      cases hr
      exact hs hlt
  | cons a as ih =>
      obtain ⟨s₁, h₁, hr⟩ := M.run_cons_eq_some.mp hr
      apply ih _ hr
      intro hlt₁
      exact hstep s a s₁ (hs (Nat.lt_of_le_of_lt (hmono s a s₁ h₁) hlt₁)) h₁ hlt₁

/-- Some run leads from one state to the other. -/
def Steps (s s' : σ) : Prop := ∃ as, M.run s as = some s'

namespace Steps

variable {M} {s s' s'' : σ}

theorem refl (s : σ) : M.Steps s s := ⟨[], rfl⟩

theorem single {a : α} (h : M.step s a = some s') : M.Steps s s' := by
  refine ⟨[a], ?_⟩
  rw [run_cons, h]
  rfl

theorem trans (h : M.Steps s s') (h' : M.Steps s' s'') : M.Steps s s'' := by
  obtain ⟨as, has⟩ := h
  obtain ⟨bs, hbs⟩ := h'
  refine ⟨as ++ bs, ?_⟩
  rw [run_append, has]
  exact hbs

/-- First one step. -/
theorem head {a : α} (h : M.step s a = some s') (h' : M.Steps s' s'') : M.Steps s s'' :=
  (single h).trans h'

/-- If in each state short of the goal some step takes the rank down, a run leads to the goal. -/
theorem of_rank {Inv goal : σ → Prop} (rank : σ → Nat)
    (hstep : ∀ s, Inv s → ¬goal s → ∃ a s', M.step s a = some s' ∧ Inv s' ∧ rank s' < rank s)
    (s : σ) (hs : Inv s) : ∃ s', M.Steps s s' ∧ goal s' := by
  induction hn : rank s using Nat.strongRecOn generalizing s with
  | ind n ih =>
      by_cases hgoal : goal s
      · exact ⟨s, refl s, hgoal⟩
      · obtain ⟨a, s₁, ha, h₁, hlt⟩ := hstep s hs hgoal
        obtain ⟨s', hsteps, hgoal'⟩ := ih (rank s₁) (hn ▸ hlt) s₁ h₁ rfl
        exact ⟨s', head ha hsteps, hgoal'⟩

end Steps

/-! ## Guarded runs -/

variable {ok : σ → α → Prop}

instance decidableMeets [∀ s a, Decidable (ok s a)] :
    (s : σ) → (as : List α) → Decidable (M.Meets ok s as)
  | _, [] => isTrue trivial
  | s, a :: as =>
      match h : M.step s a with
      | none => decidable_of_iff (ok s a) ⟨fun hok => ⟨hok, by simp [h]⟩, fun hm => hm.1⟩
      | some s' =>
          have := decidableMeets s' as
          decidable_of_iff (ok s a ∧ M.Meets ok s' as)
            ⟨fun hm => ⟨hm.1, fun s₁ h₁ => by cases h.symm.trans h₁; exact hm.2⟩,
              fun hm => ⟨hm.1, hm.2 s' h⟩⟩

theorem meets_of_forall (h : ∀ s a, ok s a) (s : σ) (as : List α) : M.Meets ok s as := by
  induction as generalizing s with
  | nil => trivial
  | cons a as ih => exact ⟨h s a, fun s' _ => ih s'⟩

/-- A guard on the actions alone. -/
theorem meets_of_forall_mem {good : α → Prop} {as : List α} (h : ∀ a ∈ as, good a) (s : σ) :
    M.Meets (fun _ a => good a) s as := by
  induction as generalizing s with
  | nil => trivial
  | cons a as ih =>
      exact ⟨h a List.mem_cons_self, fun s' _ => ih (fun b hb => h b (List.mem_cons_of_mem a hb)) s'⟩

theorem meets_and {ok' : σ → α → Prop} {s : σ} {as : List α} :
    M.Meets (fun s a => ok s a ∧ ok' s a) s as ↔ M.Meets ok s as ∧ M.Meets ok' s as := by
  constructor
  · intro h
    induction as generalizing s with
    | nil => exact ⟨trivial, trivial⟩
    | cons a as ih =>
        exact ⟨⟨h.1.1, fun s' hs => (ih (h.2 s' hs)).1⟩, ⟨h.1.2, fun s' hs => (ih (h.2 s' hs)).2⟩⟩
  · intro h
    induction as generalizing s with
    | nil => trivial
    | cons a as ih => exact ⟨⟨h.1.1, h.2.1⟩, fun s' hs => ih ⟨h.1.2 s' hs, h.2.2 s' hs⟩⟩

theorem meets_cons {s s' : σ} {a : α} (h : M.step s a = some s') (as : List α) :
    M.Meets ok s (a :: as) ↔ ok s a ∧ M.Meets ok s' as := by
  refine and_congr_right fun _ => ⟨fun hm => hm s' h, fun hm s₁ h₁ => ?_⟩
  cases h.symm.trans h₁
  exact hm

theorem meets_append {s s' : σ} {as : List α} (h : M.run s as = some s') (bs : List α) :
    M.Meets ok s (as ++ bs) ↔ M.Meets ok s as ∧ M.Meets ok s' bs := by
  induction as generalizing s with
  | nil =>
      cases h
      exact (and_iff_right trivial).symm
  | cons a as ih =>
      obtain ⟨s₁, h₁, h⟩ := M.run_cons_eq_some.mp h
      rw [List.cons_append, M.meets_cons h₁, M.meets_cons h₁, ih h, and_assoc]

/-- What one step preserves under the guard, a guarded run preserves. -/
theorem Meets.invariant {Inv : σ → Prop}
    (hstep : ∀ s a s', Inv s → ok s a → M.step s a = some s' → Inv s')
    {s s' : σ} {as : List α} (h : M.Meets ok s as) (hs : Inv s) (hr : M.run s as = some s') :
    Inv s' := by
  induction as generalizing s with
  | nil => cases hr; exact hs
  | cons a as ih =>
      obtain ⟨s₁, h₁, hr⟩ := M.run_cons_eq_some.mp hr
      exact ih (h.2 s₁ h₁) (hstep _ _ _ hs h.1 h₁) hr

/-- If every step under the guard takes the rank down, no guarded run is longer than the rank. -/
theorem Meets.length_le {Inv : σ → Prop} (rank : σ → Nat)
    (hstep : ∀ s a s', Inv s → ok s a → M.step s a = some s' → Inv s' ∧ rank s' < rank s)
    {s s' : σ} {as : List α} (h : M.Meets ok s as) (hs : Inv s) (hr : M.run s as = some s') :
    as.length + rank s' ≤ rank s := by
  induction as generalizing s with
  | nil =>
      cases hr
      exact Nat.le_of_eq (Nat.zero_add _)
  | cons a as ih =>
      obtain ⟨s₁, h₁, hr⟩ := M.run_cons_eq_some.mp hr
      obtain ⟨hs₁, hlt⟩ := hstep s a s₁ hs h.1 h₁
      have hrest := ih (h.2 s₁ h₁) hs₁ hr
      rw [List.length_cons]
      omega

/-- Under an invariant, a run that meets one guard meets each guard that the first one implies. -/
theorem Meets.imp {Inv : σ → Prop} {ok' : σ → α → Prop}
    (hstep : ∀ s a s', Inv s → ok s a → M.step s a = some s' → Inv s' ∧ ok' s a)
    {s s'' : σ} {as : List α} (h : M.Meets ok s as) (hs : Inv s) (hr : M.run s as = some s'') :
    M.Meets ok' s as := by
  induction as generalizing s with
  | nil => trivial
  | cons a as ih =>
      obtain ⟨s', hs', hr⟩ := M.run_cons_eq_some.mp hr
      obtain ⟨hinv, hok⟩ := hstep s a s' hs h.1 hs'
      refine ⟨hok, fun s₁ hs₁ => ?_⟩
      cases hs'.symm.trans hs₁
      exact ih (h.2 s' hs') hinv hr

/-- A guarded run meets the guard at each of its steps. -/
theorem Meets.at_step {s s₁ : σ} {as bs : List α} {a : α} (h : M.Meets ok s as)
    (hp : bs ++ [a] <+: as) (hb : M.run s bs = some s₁) : ok s₁ a := by
  induction bs generalizing s as with
  | nil =>
      obtain ⟨cs, rfl⟩ := hp
      cases hb
      exact h.1
  | cons b bs ih =>
      obtain ⟨cs, rfl⟩ := hp
      obtain ⟨s', hs', hb⟩ := M.run_cons_eq_some.mp hb
      exact ih (h.2 s' hs') ⟨cs, rfl⟩ hb

/-- A property of single steps (`Good s a s'`) that every step under the guard has, given that the
steps before it met the guard too, holds at every step of a guarded run. -/
theorem Meets.forall_steps {Inv : σ → Prop} (Good : σ → α → σ → Prop)
    (hok : ∀ s a s', Inv s → M.step s a = some s' → ok s a → Good s a s' ∧ Inv s')
    {s : σ} {as : List α} (h : M.Meets ok s as) (hs : Inv s) (bs : List α) (a : α) (s₁ s₂ : σ)
    (hp : bs ++ [a] <+: as) (hb : M.run s bs = some s₁) (ha : M.step s₁ a = some s₂) :
    Good s₁ a s₂ := by
  induction bs generalizing s as with
  | nil =>
      obtain ⟨cs, rfl⟩ := hp
      cases hb
      exact (hok _ a s₂ hs ha h.1).1
  | cons b bs ih =>
      obtain ⟨cs, rfl⟩ := hp
      obtain ⟨s', hs', hb⟩ := M.run_cons_eq_some.mp hb
      exact ih (h.2 s' hs') (hok _ b s' hs hs' h.1).2 ⟨cs, rfl⟩ hb

/-- If moreover each step that has the property met the guard, then all steps of a run have it
exactly when the run meets the guard. -/
theorem meets_iff_forall_steps {Inv : σ → Prop} (Good : σ → α → σ → Prop)
    (hok : ∀ s a s', Inv s → M.step s a = some s' → ok s a → Good s a s' ∧ Inv s')
    (hbad : ∀ s a s', Inv s → M.step s a = some s' → Good s a s' → ok s a)
    {s s'' : σ} {as : List α} (hs : Inv s) (hr : M.run s as = some s'') :
    (∀ bs a s₁ s₂, bs ++ [a] <+: as → M.run s bs = some s₁ → M.step s₁ a = some s₂ →
      Good s₁ a s₂) ↔ M.Meets ok s as := by
  constructor
  · intro hgood
    induction as generalizing s with
    | nil => trivial
    | cons a as ih =>
        obtain ⟨s', h', hrest⟩ := M.run_cons_eq_some.mp hr
        have hoka : ok s a := by
          apply hbad _ a s' hs h'
          exact hgood [] a _ s' (by simp) rfl h'
        refine ⟨hoka, fun s₁ hs₁ => ?_⟩
        cases h'.symm.trans hs₁
        apply ih (hok _ a s' hs h' hoka).2 hrest
        intro bs b s₁ s₂ hp hb hstep
        apply hgood (a :: bs) b s₁ s₂ _ _ hstep
        · simpa using hp
        · rw [run_cons, h']
          exact hb
  · intro h
    exact Meets.forall_steps M Good hok h hs

/-- In a run that meets one guard, a property of states holds all along exactly when the run meets
another guard, if a step that meets both keeps it and a step that keeps it meets the second. -/
theorem meets_iff_forall_states {Inv Good : σ → Prop} {pre : σ → α → Prop}
    (hok : ∀ s a s', Inv s → M.step s a = some s' → pre s a → ok s a → Inv s' ∧ Good s')
    (hbad : ∀ s a s', Inv s → M.step s a = some s' → pre s a → Good s' → ok s a)
    {s s'' : σ} {as : List α} (hs : Inv s) (hgood : Good s) (hpre : M.Meets pre s as)
    (hr : M.run s as = some s'') :
    (∀ bs s', bs <+: as → M.run s bs = some s' → Good s') ↔ M.Meets ok s as := by
  constructor
  · intro hall
    induction as generalizing s with
    | nil => trivial
    | cons a as ih =>
        obtain ⟨s', h', hrest⟩ := M.run_cons_eq_some.mp hr
        have hgood' : Good s' := by
          apply hall [a] s' (by simp)
          rw [run_cons, h']
          rfl
        have hoka := hbad s a s' hs h' hpre.1 hgood'
        refine (M.meets_cons h' as).mpr ⟨hoka, ?_⟩
        apply ih (hok s a s' hs h' hpre.1 hoka).1 hgood' (hpre.2 s' h') hrest
        intro bs s₁ hp hb
        apply hall (a :: bs) s₁ (by simpa using hp)
        rw [run_cons, h']
        exact hb
  · intro hmeets bs
    induction bs generalizing s as with
    | nil =>
        intro s' _ hb
        cases hb
        exact hgood
    | cons a bs ih =>
        rintro s₁ ⟨cs, rfl⟩ hb
        obtain ⟨s', h', hrest⟩ := M.run_cons_eq_some.mp hr
        rw [run_cons, h'] at hb
        obtain ⟨hinv', hgood'⟩ := hok s a s' hs h' hpre.1 hmeets.1
        exact ih hinv' hgood' (hpre.2 s' h') hrest (hmeets.2 s' h') s₁ ⟨cs, rfl⟩ hb

/-- A property of states that a step preserves exactly when it meets the guard holds along a whole
run exactly when the run meets the guard. -/
theorem meets_iff_invariant {Inv : σ → Prop}
    (hstep : ∀ s a s', Inv s → M.step s a = some s' → (ok s a ↔ Inv s'))
    {s s'' : σ} {as : List α} (hs : Inv s) (hr : M.run s as = some s'') :
    (∀ bs s', bs <+: as → M.run s bs = some s' → Inv s') ↔ M.Meets ok s as := by
  have hpre : M.Meets (fun _ _ => True) s as := M.meets_of_forall (fun _ _ => trivial) s as
  apply M.meets_iff_forall_states _ _ hs hs hpre hr
  · intro s a s' hi h _ hok
    have hi' := (hstep s a s' hi h).mp hok
    exact ⟨hi', hi'⟩
  · intro s a s' hi h _ hi'
    exact (hstep s a s' hi h).mpr hi'

/-! ## Counting -/

/-- How many actions of a run are of the kind, each in the state it is taken in. -/
def count (kind : σ → α → Bool) : σ → List α → Nat
  | _, [] => 0
  | s, a :: as => (kind s a).toNat + ((M.step s a).map fun s' => count kind s' as).getD 0

theorem count_cons {kind : σ → α → Bool} {s s' : σ} {a : α} (h : M.step s a = some s') (as : List α) :
    M.count kind s (a :: as) = (kind s a).toNat + M.count kind s' as := by
  rw [count, h]
  rfl

/-- If every action of the kind takes the rank down, no other action takes it up, but for those that pay and
take it up by at most `price`, then what is paid for bounds the actions of the kind. -/
theorem count_le {kind : σ → α → Bool} {pays : α → Bool} {price : Nat} (rank : σ → Nat)
    (hstep : ∀ s a s', M.step s a = some s' →
      rank s' + (kind s a).toNat ≤ rank s + price * (pays a).toNat)
    {s s' : σ} {as : List α} (hr : M.run s as = some s') :
    M.count kind s as + rank s' ≤ rank s + price * as.countP pays := by
  induction as generalizing s with
  | nil =>
      cases hr
      exact Nat.le_of_eq (Nat.zero_add _)
  | cons a as ih =>
      obtain ⟨s₁, h₁, hr⟩ := M.run_cons_eq_some.mp hr
      have hfirst := hstep s a s₁ h₁
      have hrest := ih hr
      have hpaid : price * (a :: as).countP pays = price * as.countP pays + price * (pays a).toNat := by
        rw [List.countP_cons, Nat.mul_add]
        cases pays a <;> rfl
      rw [M.count_cons h₁, hpaid]
      omega

/-! ## One system for each index -/

section Pi

variable (ι : Type w) [DecidableEq ι]

variable {ι}

end Pi

end StepSystem
