import Mathlib.Data.List.Nodup

/-!
# Who holds what

Items at places, each with a key, and the list of the keys that are out. A key is out as long as its item is
at a place, and never at two.
-/

universe u v w

/-- `has p x` says that the item `x` is at the place `p`. -/
structure Holding {P : Type u} {α : Type v} {κ : Type w} (key : α → κ) (has : P → α → Prop)
    (out : List κ) : Prop where
  one : ∀ p x q y, has p x → has q y → key x = key y → p = q ∧ x = y
  out : ∀ k, k ∈ out ↔ ∃ p x, has p x ∧ key x = k

namespace Holding

variable {P : Type u} {α : Type v} {κ : Type w} {key : α → κ} {has has' : P → α → Prop} {out : List κ}
  {p₀ p₁ : P} {x₀ : α}

theorem empty (h : ∀ p x, ¬has p x) : Holding key has [] := by
  refine ⟨fun p x _ _ hx => absurd hx (h p x), fun k => ?_⟩
  refine ⟨fun hk => absurd hk List.not_mem_nil, ?_⟩
  rintro ⟨p, x, hx, _⟩
  exact absurd hx (h p x)

theorem congr (h : Holding key has out) (hsame : ∀ p x, has' p x ↔ has p x) : Holding key has' out := by
  obtain rfl : has' = has := funext fun p => funext fun x => propext (hsame p x)
  exact h

theorem mem_out (h : Holding key has out) (hx : has p₀ x₀) : key x₀ ∈ out := (h.out _).mpr ⟨p₀, x₀, hx, rfl⟩

/-- An item comes to a place, with a key that is not out. -/
theorem gain (h : Holding key has out) (hnew : key x₀ ∉ out)
    (hhas : ∀ p x, has' p x ↔ has p x ∨ p = p₀ ∧ x = x₀) : Holding key has' (key x₀ :: out) := by
  have hother : ∀ p x, has p x → key x ≠ key x₀ := fun p x hx heq => hnew (heq ▸ h.mem_out hx)
  refine ⟨?_, fun k => ?_⟩
  · intro p x q y hx hy hkey
    rcases (hhas p x).mp hx with hx | ⟨rfl, rfl⟩
    · rcases (hhas q y).mp hy with hy | ⟨rfl, rfl⟩
      · exact h.one p x q y hx hy hkey
      · exact absurd hkey (hother p x hx)
    · rcases (hhas q y).mp hy with hy | ⟨rfl, rfl⟩
      · exact absurd hkey.symm (hother q y hy)
      · exact ⟨rfl, rfl⟩
  · rw [List.mem_cons, h.out]
    constructor
    · rintro (rfl | ⟨p, x, hx, rfl⟩)
      · exact ⟨p₀, x₀, (hhas p₀ x₀).mpr (.inr ⟨rfl, rfl⟩), rfl⟩
      · exact ⟨p, x, (hhas p x).mpr (.inl hx), rfl⟩
    · rintro ⟨p, x, hx, rfl⟩
      rcases (hhas p x).mp hx with hx | ⟨rfl, rfl⟩
      · exact .inr ⟨p, x, hx, rfl⟩
      · exact .inl rfl

/-- An item leaves its place, and its key comes in. -/
theorem lose [DecidableEq κ] (h : Holding key has out) (hnodup : out.Nodup) (hold : has p₀ x₀)
    (hhas : ∀ p x, has' p x ↔ has p x ∧ x ≠ x₀) : Holding key has' (out.erase (key x₀)) := by
  refine ⟨?_, fun k => ?_⟩
  · intro p x q y hx hy hkey
    exact h.one p x q y ((hhas p x).mp hx).1 ((hhas q y).mp hy).1 hkey
  · rw [hnodup.mem_erase_iff, h.out]
    constructor
    · rintro ⟨hne, p, x, hx, rfl⟩
      refine ⟨p, x, (hhas p x).mpr ⟨hx, ?_⟩, rfl⟩
      rintro rfl
      exact hne rfl
    · rintro ⟨p, x, hx, rfl⟩
      obtain ⟨hx, hne⟩ := (hhas p x).mp hx
      exact ⟨fun hkey => hne (h.one p x p₀ x₀ hx hold hkey).2, p, x, hx, rfl⟩

/-- An item goes to another place. -/
theorem move (h : Holding key has out) (hold : has p₀ x₀)
    (hhas : ∀ p x, has' p x ↔ has p x ∧ x ≠ x₀ ∨ p = p₁ ∧ x = x₀) : Holding key has' out := by
  refine ⟨?_, fun k => ?_⟩
  · intro p x q y hx hy hkey
    rcases (hhas p x).mp hx with ⟨hx, hne⟩ | ⟨rfl, rfl⟩
    · rcases (hhas q y).mp hy with ⟨hy, _⟩ | ⟨rfl, rfl⟩
      · exact h.one p x q y hx hy hkey
      · exact absurd (h.one p x p₀ y hx hold hkey).2 hne
    · rcases (hhas q y).mp hy with ⟨hy, hne⟩ | ⟨rfl, rfl⟩
      · exact absurd (h.one q y p₀ x hy hold hkey.symm).2 hne
      · exact ⟨rfl, rfl⟩
  · rw [h.out]
    constructor
    · rintro ⟨p, x, hx, rfl⟩
      by_cases heq : x = x₀
      · subst heq
        exact ⟨p₁, x, (hhas p₁ x).mpr (.inr ⟨rfl, rfl⟩), rfl⟩
      · exact ⟨p, x, (hhas p x).mpr (.inl ⟨hx, heq⟩), rfl⟩
    · rintro ⟨p, x, hx, rfl⟩
      rcases (hhas p x).mp hx with ⟨hx, _⟩ | ⟨_, rfl⟩
      · exact ⟨p, x, hx, rfl⟩
      · exact ⟨p₀, x, hold, rfl⟩

end Holding
