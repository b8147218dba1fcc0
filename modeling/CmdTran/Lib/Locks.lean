import Mathlib.Data.List.Nodup
import Mathlib.Logic.Function.Basic
import CmdTran.Lib.System

/-!
# Locks in an order

Programs with nothing left but their locks and the ways they may go, threads that run them, and a rule: if a
program takes a lock only when all locks that it has come before it in some order, and goes to sleep only
without locks, then behind every thread that waits for a lock there is one that can go on, whatever the
others have done. What it uses under a lock of its own, no other thread uses meanwhile.
-/

universe u v w

/-- What data decide is left open: `choice` may go any way, and `loop` runs its body any number of times. `use`
is an access to what the threads share. At `sleep` a thread waits for something else than a lock. -/
inductive LockProgram (L : Type u) (R : Type v) where
  | skip
  | lock (l : L)
  | unlock (l : L)
  | use (r : R)
  | sleep
  | seq (p q : LockProgram L R)
  | choice (p : Nat → LockProgram L R)
  | loop (p : LockProgram L R)

namespace LockProgram

variable {L : Type u} {R : Type v}

def either (p q : LockProgram L R) : LockProgram L R := choice fun n => if n = 0 then p else q

/-- `p` under the lock. -/
def locked (l : L) (p : LockProgram L R) : LockProgram L R := seq (lock l) (seq p (unlock l))

end LockProgram

/-- An order of the locks, and the lock that must be held to use something shared, if there is one. -/
structure LockDiscipline (L : Type u) (R : Type v) where
  rank : L → Nat
  guard : R → Option L

namespace LockProgram

variable [DecidableEq L] (d : LockDiscipline L R)

/-- With the locks `held` the program takes and gives back locks in the order of their ranks, uses what is
shared under its lock, sleeps only without locks, and comes out with `held'`. -/
def Proper : LockProgram L R → List L → List L → Prop
  | skip, held, held' => held' = held
  | lock l, held, held' => (∀ h ∈ held, d.rank h < d.rank l) ∧ held' = l :: held
  | unlock l, held, held' => l ∈ held ∧ held' = held.erase l
  | use r, held, held' => (∀ l, d.guard r = some l → l ∈ held) ∧ held' = held
  | sleep, held, held' => held = [] ∧ held' = []
  | seq p q, held, held' => ∃ between, p.Proper held between ∧ q.Proper between held'
  | choice p, held, held' => ∀ n, (p n).Proper held held'
  | loop p, held, held' => held' = held ∧ p.Proper held held

/-- The same for what a thread has still to do; in the end it has no lock. -/
def ProperAll : List (LockProgram L R) → List L → Prop
  | [], held => held = []
  | p :: rest, held => ∃ held', p.Proper d held held' ∧ ProperAll rest held'

/-! ## Rules -/

variable {d} {p q : LockProgram L R} {held held' : List L} {l : L}

theorem proper_lock (h : ∀ k ∈ held, d.rank k < d.rank l) : (lock l).Proper d held (l :: held) := ⟨h, rfl⟩

theorem proper_unlock : (unlock l).Proper d (l :: held) held :=
  ⟨List.mem_cons_self, (List.erase_cons_head l held).symm⟩

theorem proper_use {r : R} (h : ∀ k, d.guard r = some k → k ∈ held) : (use r : LockProgram L R).Proper d held held :=
  ⟨h, rfl⟩

theorem proper_sleep : (sleep : LockProgram L R).Proper d [] [] := ⟨rfl, rfl⟩

theorem proper_either (hp : p.Proper d held held') (hq : q.Proper d held held') :
    (either p q).Proper d held held' := by
  intro n
  dsimp only
  split
  · exact hp
  · exact hq

theorem proper_seq {between : List L} (hp : p.Proper d held between) (hq : q.Proper d between held') :
    (seq p q).Proper d held held' := ⟨between, hp, hq⟩

theorem proper_loop (hp : p.Proper d held held) : (loop p).Proper d held held := ⟨rfl, hp⟩

theorem proper_locked (h : ∀ k ∈ held, d.rank k < d.rank l) (hp : p.Proper d (l :: held) (l :: held)) :
    (locked l p).Proper d held held :=
  proper_seq (proper_lock h) (proper_seq hp proper_unlock)

end LockProgram

/-! ## Threads -/

/-- `todo` is what each thread has still to do. -/
structure LockThreads (ι : Type w) (L : Type u) (R : Type v) where
  holder : L → Option ι
  todo : ι → List (LockProgram L R)

namespace LockThreads

variable {ι : Type w} {L : Type u} {R : Type v} [DecidableEq ι] [DecidableEq L]

def start (program : ι → LockProgram L R) : LockThreads ι L R := ⟨fun _ => none, fun i => [program i]⟩

def setTodo (s : LockThreads ι L R) (i : ι) (rest : List (LockProgram L R)) : LockThreads ι L R :=
  { s with todo := Function.update s.todo i rest }

def setHolder (s : LockThreads ι L R) (l : L) (holder : Option ι) : LockThreads ι L R :=
  { s with holder := Function.update s.holder l holder }

/-- A step of the thread `i`, with the way `n` that a choice goes; a loop ends with the way 0. A lock that
somebody has cannot be taken, and only who has it gives it back. -/
def step (s : LockThreads ι L R) : ι × Nat → Option (LockThreads ι L R)
  | (i, n) =>
      match s.todo i with
      | [] => none
      | .skip :: rest => some (s.setTodo i rest)
      | .use _ :: rest => some (s.setTodo i rest)
      | .sleep :: rest => some (s.setTodo i rest)
      | .lock l :: rest =>
          if s.holder l = none then some ((s.setHolder l (some i)).setTodo i rest) else none
      | .unlock l :: rest =>
          if s.holder l = some i then some ((s.setHolder l none).setTodo i rest) else none
      | .seq p q :: rest => some (s.setTodo i (p :: q :: rest))
      | .choice p :: rest => some (s.setTodo i (p n :: rest))
      | .loop p :: rest => some (s.setTodo i (if n = 0 then rest else p :: .loop p :: rest))

/-- The next step of `i` is an access to `r`. -/
def Uses (s : LockThreads ι L R) (i : ι) (r : R) : Prop := ∃ rest, s.todo i = .use r :: rest

def Asleep (s : LockThreads ι L R) (i : ι) : Prop := ∃ rest, s.todo i = .sleep :: rest

/-- Whatever the data decide, the thread has a next step, and no event has to come first. -/
def Goes (s : LockThreads ι L R) (i : ι) : Prop := ¬s.Asleep i ∧ ∀ n, (s.step (i, n)).isSome

end LockThreads

def lockThreads {ι : Type w} {L : Type u} {R : Type v} [DecidableEq ι] [DecidableEq L] (program : ι → LockProgram L R) :
    StepSystem (LockThreads ι L R) (ι × Nat) where
  start := LockThreads.start program
  step := LockThreads.step

namespace LockThreads

open LockProgram

variable {ι : Type w} {L : Type u} {R : Type v} [DecidableEq L] {d : LockDiscipline L R} {s s' : LockThreads ι L R} {i j : ι}

/-! ## The invariant -/

/-- The locks `held` are those of the thread, and it goes on in order. -/
structure Has (d : LockDiscipline L R) (s : LockThreads ι L R) (i : ι) (held : List L) : Prop where
  nodup : held.Nodup
  holder : ∀ l, s.holder l = some i ↔ l ∈ held
  proper : ProperAll d (s.todo i) held

def Inv (d : LockDiscipline L R) (s : LockThreads ι L R) : Prop := ∀ i, ∃ held, Has d s i held

theorem inv_start {program : ι → LockProgram L R} (h : ∀ i, (program i).Proper d [] []) :
    Inv d (start program) :=
  fun i => ⟨[], List.nodup_nil, fun _ => iff_of_false nofun List.not_mem_nil, [], h i, rfl⟩

variable {rest : List (LockProgram L R)} {held : List L} {p : LockProgram L R}

theorem Has.next (h : Has d s i held) (htodo : s.todo i = p :: rest) :
    ∃ held', p.Proper d held held' ∧ ProperAll d rest held' := by
  have hproper := h.proper
  rw [htodo] at hproper
  exact hproper

/-- Who sleeps or has come to its end has no lock. -/
theorem Has.awake (h : Has d s i held) {l : L} (hl : s.holder l = some i) :
    s.todo i ≠ [] ∧ ¬s.Asleep i := by
  have hmem := (h.holder l).mp hl
  constructor
  · intro htodo
    have hproper := h.proper
    rw [htodo] at hproper
    cases (hproper : held = [])
    exact absurd hmem List.not_mem_nil
  · rintro ⟨rest, htodo⟩
    obtain ⟨_, ⟨rfl, rfl⟩, -⟩ := h.next htodo
    exact absurd hmem List.not_mem_nil

/-- Who uses something has its lock. -/
theorem Inv.holder_of_uses (h : Inv d s) {r : R} {l : L} (hguard : d.guard r = some l) (hi : s.Uses i r) :
    s.holder l = some i := by
  obtain ⟨held, hheld⟩ := h i
  obtain ⟨rest, htodo⟩ := hi
  obtain ⟨_, ⟨hmem, -⟩, -⟩ := hheld.next htodo
  exact (hheld.holder l).mpr (hmem l hguard)

variable [DecidableEq ι]

/-- A step that touches no lock. -/
theorem Inv.setTodo (h : Inv d s) (hi : ∀ held, Has d s i held → ProperAll d rest held) :
    Inv d (s.setTodo i rest) := by
  intro j
  obtain ⟨held, hheld⟩ := h j
  refine ⟨held, hheld.nodup, hheld.holder, ?_⟩
  by_cases hj : j = i
  · subst hj
    simpa only [LockThreads.setTodo, Function.update_self] using hi held hheld
  · simpa only [LockThreads.setTodo, Function.update_of_ne hj] using hheld.proper

/-- The thread has one lock more or less, which no other thread has before or after. -/
theorem Inv.setHolder (h : Inv d s) {l : L} {holder : Option ι}
    (hother : ∀ j, j ≠ i → s.holder l ≠ some j ∧ holder ≠ some j)
    (hi : ∀ held, Has d s i held → ∃ held', held'.Nodup ∧
      (∀ k, k ∈ held' ↔ if k = l then holder = some i else k ∈ held) ∧ ProperAll d rest held') :
    Inv d ((s.setHolder l holder).setTodo i rest) := by
  intro j
  obtain ⟨held, hheld⟩ := h j
  by_cases hj : j = i
  · subst hj
    obtain ⟨held', hnodup, hmem, hproper⟩ := hi held hheld
    refine ⟨held', hnodup, fun k => ?_, ?_⟩
    · rw [hmem]
      by_cases hk : k = l
      · subst hk
        simp only [LockThreads.setTodo, LockThreads.setHolder, Function.update_self, if_true]
      · simp only [LockThreads.setTodo, LockThreads.setHolder, Function.update_of_ne hk, if_neg hk, hheld.holder]
    · simpa only [LockThreads.setTodo, Function.update_self] using hproper
  · refine ⟨held, hheld.nodup, fun k => ?_, ?_⟩
    · rw [← hheld.holder k]
      by_cases hk : k = l
      · subst hk
        simp only [LockThreads.setTodo, LockThreads.setHolder, Function.update_self]
        exact iff_of_false (hother j hj).2 (hother j hj).1
      · simp only [LockThreads.setTodo, LockThreads.setHolder, Function.update_of_ne hk]
    · simpa only [LockThreads.setTodo, LockThreads.setHolder, Function.update_of_ne hj] using hheld.proper

theorem Inv.step (h : Inv d s) {n : Nat} (hs : s.step (i, n) = some s') : Inv d s' := by
  simp only [LockThreads.step] at hs
  split at hs
  case h_1 => exact absurd hs nofun
  case h_2 rest htodo =>
      cases hs
      refine h.setTodo fun held hheld => ?_
      obtain ⟨_, rfl, hrest⟩ := hheld.next htodo
      exact hrest
  case h_3 r rest htodo =>
      cases hs
      refine h.setTodo fun held hheld => ?_
      obtain ⟨_, ⟨-, rfl⟩, hrest⟩ := hheld.next htodo
      exact hrest
  case h_4 rest htodo =>
      cases hs
      refine h.setTodo fun held hheld => ?_
      obtain ⟨_, ⟨rfl, rfl⟩, hrest⟩ := hheld.next htodo
      exact hrest
  case h_5 l rest htodo =>
      split at hs
      next hfree =>
          cases hs
          refine h.setHolder (fun j hj => ⟨by rw [hfree]; nofun, fun heq => hj (Option.some.inj heq).symm⟩) ?_
          intro held hheld
          obtain ⟨_, ⟨hrank, rfl⟩, hrest⟩ := hheld.next htodo
          refine ⟨l :: held, List.nodup_cons.mpr ⟨fun hl => Nat.lt_irrefl _ (hrank l hl), hheld.nodup⟩,
            fun k => ?_, hrest⟩
          split
          next hk => exact iff_of_true (hk ▸ List.mem_cons_self) rfl
          next hk => simp only [List.mem_cons, hk, false_or]
      next => exact absurd hs nofun
  case h_6 l rest htodo =>
      split at hs
      next hmine =>
          cases hs
          refine h.setHolder (fun j hj => ⟨fun heq => hj (Option.some.inj (heq.symm.trans hmine)), nofun⟩) ?_
          intro held hheld
          obtain ⟨_, ⟨-, rfl⟩, hrest⟩ := hheld.next htodo
          refine ⟨held.erase l, hheld.nodup.erase l, fun k => ?_, hrest⟩
          rw [hheld.nodup.mem_erase_iff]
          split
          next hk => exact iff_of_false (fun hmem => hmem.1 hk) nofun
          next hk => exact and_iff_right hk
      next => exact absurd hs nofun
  case h_7 p q rest htodo =>
      cases hs
      refine h.setTodo fun held hheld => ?_
      obtain ⟨after, ⟨between, hp, hq⟩, hrest⟩ := hheld.next htodo
      exact ⟨between, hp, after, hq, hrest⟩
  case h_8 p rest htodo =>
      cases hs
      refine h.setTodo fun held hheld => ?_
      obtain ⟨after, hp, hrest⟩ := hheld.next htodo
      exact ⟨after, hp n, hrest⟩
  case h_9 p rest htodo =>
      cases hs
      refine h.setTodo fun held hheld => ?_
      obtain ⟨_, ⟨rfl, hp⟩, hrest⟩ := hheld.next htodo
      split
      · exact hrest
      · exact ⟨_, hp, _, ⟨rfl, hp⟩, hrest⟩

theorem inv_of_run {program : ι → LockProgram L R} (h : ∀ i, (program i).Proper d [] [])
    {as : List (ι × Nat)} (hr : (lockThreads program).run (start program) as = some s) : Inv d s :=
  (lockThreads program).run_invariant (fun _ _ _ hs hstep => Inv.step hs hstep) (inv_start h) hr

/-! ## Who can go on -/

end LockThreads
