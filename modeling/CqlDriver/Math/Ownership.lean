import Mathlib.Logic.Function.Basic

/-!
# Ownership

Owners hold at most one thing each. What is alive is held by exactly one of them, and nothing else
is held. Things are handed from one owner to another one that holds nothing, come into being at an
owner, and end there.

## Main definitions

* `Owned` — what is alive is held once

## Main results

* `Owned.insert`, `Owned.remove` — a thing comes into being, and ends
* `Owned.move` — a thing is handed on
* `Owned.lost` — an owner that holds something cannot simply take something else
-/

namespace CqlDriver.Math

variable {ω α : Type*} {live live' : α → Prop} {holds : ω → Option α} {a b : ω} {x y : α}

/-- Everything that is alive has exactly one owner, and owners hold nothing else. -/
structure Owned (live : α → Prop) (holds : ω → Option α) : Prop where
  unique : ∀ {a b x}, holds a = some x → holds b = some x → a = b
  alive : ∀ {a x}, holds a = some x → live x
  held : ∀ {x}, live x → ∃ a, holds a = some x

namespace Owned

theorem of_iff (h : Owned live holds) (hlive : ∀ x, live' x ↔ live x) : Owned live' holds where
  unique := h.unique
  alive ha := (hlive _).mpr (h.alive ha)
  held hx := h.held ((hlive _).mp hx)

/-- A thing that is alive and held by nobody was lost. -/
theorem lost (hx : live x) (hnone : ∀ a, holds a ≠ some x) : ¬ Owned live holds := by
  intro h
  obtain ⟨a, ha⟩ := h.held hx
  exact hnone a ha

variable [DecidableEq ω]

/-- A thing comes into being at an owner that holds nothing. -/
theorem insert (h : Owned live holds) (hb : holds b = none) (hx : ¬ live x)
    (hlive : ∀ y, live' y ↔ y = x ∨ live y) :
    Owned live' (Function.update holds b (some x)) where
  unique {a c y} ha hc := by
    by_cases hab : a = b <;> by_cases hcb : c = b
    · rw [hab, hcb]
    · -- the new thing is held by nobody else
      subst hab
      rw [Function.update_self] at ha
      rw [Function.update_of_ne hcb, ← ha] at hc
      exact absurd (h.alive hc) hx
    · subst hcb
      rw [Function.update_self] at hc
      rw [Function.update_of_ne hab, ← hc] at ha
      exact absurd (h.alive ha) hx
    · rw [Function.update_of_ne hab] at ha
      rw [Function.update_of_ne hcb] at hc
      exact h.unique ha hc
  alive {a y} ha := by
    rw [hlive]
    by_cases hab : a = b
    · subst hab
      rw [Function.update_self] at ha
      exact Or.inl (Option.some.inj ha).symm
    · rw [Function.update_of_ne hab] at ha
      exact Or.inr (h.alive ha)
  held {y} hy := by
    rcases (hlive y).mp hy with rfl | hold
    · exact ⟨b, Function.update_self ..⟩
    · obtain ⟨a, ha⟩ := h.held hold
      have hab : a ≠ b := by
        rintro rfl
        rw [hb] at ha
        cases ha
      exact ⟨a, by rw [Function.update_of_ne hab, ha]⟩

/-- A thing ends at its owner. -/
theorem remove (h : Owned live holds) (ha : holds a = some x)
    (hlive : ∀ y, live' y ↔ y ≠ x ∧ live y) : Owned live' (Function.update holds a none) where
  unique {b c y} hb hc := by
    by_cases hba : b = a
    · subst hba
      rw [Function.update_self] at hb
      cases hb
    by_cases hca : c = a
    · subst hca
      rw [Function.update_self] at hc
      cases hc
    · rw [Function.update_of_ne hba] at hb
      rw [Function.update_of_ne hca] at hc
      exact h.unique hb hc
  alive {b y} hb := by
    by_cases hba : b = a
    · subst hba
      rw [Function.update_self] at hb
      cases hb
    · rw [Function.update_of_ne hba] at hb
      refine (hlive y).mpr ⟨?_, h.alive hb⟩
      rintro rfl
      exact hba (h.unique hb ha)
  held {y} hy := by
    obtain ⟨hne, hold⟩ := (hlive y).mp hy
    obtain ⟨b, hb⟩ := h.held hold
    have hba : b ≠ a := by
      rintro rfl
      exact hne (Option.some.inj (hb.symm.trans ha))
    exact ⟨b, by rw [Function.update_of_ne hba, hb]⟩

/-- What an owner holds, if anything, is handed to one that holds nothing. -/
theorem move (h : Owned live holds) (hb : Function.update holds a none b = none) :
    Owned live (Function.update (Function.update holds a none) b (holds a)) := by
  cases ha : holds a with
  | none =>
    have hsame : Function.update holds a none = holds := by rw [← ha, Function.update_eq_self]
    rw [hsame] at hb ⊢
    rw [← hb, Function.update_eq_self]
    exact h
  | some x =>
    -- the thing ends at one owner and comes into being at the other
    have hremoved : Owned (fun y => y ≠ x ∧ live y) (Function.update holds a none) :=
      h.remove ha fun _ => Iff.rfl
    refine hremoved.insert hb (fun hx => hx.1 rfl) fun y => ?_
    by_cases hy : y = x
    · simp only [hy, true_or, iff_true]
      exact h.alive ha
    · simp [hy]

/-- What an owner held is lost when something else takes its place. -/
theorem not_owned_update (h : Owned live holds) (ha : holds a = some x) {v : Option α}
    (hv : v ≠ some x) : ¬ Owned live (Function.update holds a v) := by
  refine lost (h.alive ha) fun b hb => ?_
  by_cases hba : b = a
  · subst hba
    rw [Function.update_self] at hb
    exact hv hb
  · rw [Function.update_of_ne hba] at hb
    exact hba (h.unique hb ha)

end Owned

end CqlDriver.Math
