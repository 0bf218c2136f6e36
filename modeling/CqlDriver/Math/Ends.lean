import Mathlib.Logic.Basic

/-!
# How a program with state and errors ends

A program reads and writes a state and returns or fails. `Ends` says what holds of the
result: one assertion for the value and the state when it returns, and another one for the
error and the state when it fails. The rules compute it from the parts of a program.

## Main definitions

* `Ends` — the assertions hold at the end

## Main results

* `ends_bind`, `Ends.bind` — the second program starts where the first one returns
* `Ends.mono` — weaker assertions hold too
-/

namespace CqlDriver.Math

variable {ε σ α β : Type} {m : EStateM ε σ α} {s : σ} {P Q : α → σ → Prop} {D E : ε → σ → Prop}

/-- The first assertion holds when the program returns, the second one when it fails. -/
def Ends (m : EStateM ε σ α) (s : σ) (Q : α → σ → Prop) (E : ε → σ → Prop) : Prop :=
  match m s with
  | .ok a s' => Q a s'
  | .error e s' => E e s'

@[simp] theorem ends_pure {a : α} : Ends (pure a : EStateM ε σ α) s Q E ↔ Q a s := Iff.rfl

@[simp] theorem ends_throw {e : ε} : Ends (throw e : EStateM ε σ α) s Q E ↔ E e s := Iff.rfl

@[simp] theorem ends_get {Q : σ → σ → Prop} : Ends (get : EStateM ε σ σ) s Q E ↔ Q s s := Iff.rfl

@[simp] theorem ends_modify {f : σ → σ} {Q : Unit → σ → Prop} :
    Ends (modify f : EStateM ε σ Unit) s Q E ↔ Q () (f s) := Iff.rfl

/-- The second program starts where the first one returns. -/
@[simp] theorem ends_bind {f : α → EStateM ε σ β} {R : β → σ → Prop} :
    Ends (m >>= f) s R E ↔ Ends m s (fun a s' => Ends (f a) s' R E) E := by
  show Ends (EStateM.bind m f) s R E ↔ _
  simp only [Ends, EStateM.bind]
  cases m s with
  | ok a s' => rfl
  | error e s' => rfl

theorem ends_ite {p : Prop} [Decidable p] {n : EStateM ε σ α} :
    Ends (if p then m else n) s Q E ↔ if p then Ends m s Q E else Ends n s Q E := by
  by_cases h : p
  · simp only [if_pos h]
  · simp only [if_neg h]

/-- Weaker assertions hold too. -/
theorem Ends.mono (h : Ends m s P D) (hok : ∀ a s', P a s' → Q a s')
    (herror : ∀ e s', D e s' → E e s') : Ends m s Q E := by
  rw [Ends] at h ⊢
  cases hresult : m s with
  | ok a s' =>
    rw [hresult] at h
    exact hok a s' h
  | error e s' =>
    rw [hresult] at h
    exact herror e s' h

/-- Between two programs an assertion holds that the second one starts from. -/
theorem Ends.bind {f : α → EStateM ε σ β} {R : β → σ → Prop} (hm : Ends m s P E)
    (hf : ∀ a s', P a s' → Ends (f a) s' R E) : Ends (m >>= f) s R E :=
  ends_bind.mpr (hm.mono hf fun _ _ h => h)

end CqlDriver.Math
