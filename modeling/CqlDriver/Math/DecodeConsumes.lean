import CqlDriver.Math.Decode

/-!
# Consuming an encoding

A decode function consumes some bytes when it returns right behind them, whatever else stands
there. What it returns and what it leaves in the object are described by a condition, so the
consumption of a sequence follows from that of its steps: each step takes the bytes that its
part was encoded to.

## Main definitions

* `Decode.Consumes` — returning right behind the bytes

## Main results

* `Consumes.bind`, `Consumes.read`, `Consumes.write`, `Consumes.on`, `Consumes.ite`,
  `Consumes.times` — the rules
* `Consumes.of_object` — from an equation for the decode function
-/

namespace CqlDriver.Math.Decode

variable {ε σ τ α β : Type} {m : Decode ε σ α} {bytes more : List UInt8} {x : σ}
  {Q Q' : α → σ → Prop}

/-- Whatever is behind the bytes, the function returns with the cursor there, and its result and
the object satisfy `Q`. -/
def Consumes (m : Decode ε σ α) (bytes : List UInt8) (x : σ) (Q : α → σ → Prop) : Prop :=
  ∀ rest, ∃ a y, m ⟨x, bytes ++ rest⟩ = .ok a ⟨y, rest⟩ ∧ Q a y

theorem Consumes.mono (h : Consumes m bytes x Q) (hle : ∀ a y, Q a y → Q' a y) :
    Consumes m bytes x Q' := by
  intro rest
  obtain ⟨a, y, hrun, hpost⟩ := h rest
  exact ⟨a, y, hrun, hle a y hpost⟩

theorem Consumes.pure {a : α} (h : Q a x) : Consumes (pure a : Decode ε σ α) [] x Q :=
  fun _ => ⟨a, x, rfl, h⟩

/-- The second step takes the bytes behind those of the first one. -/
theorem Consumes.bind {f : α → Decode ε σ β} {R : β → σ → Prop} (h : Consumes m bytes x Q)
    (hnext : ∀ a y, Q a y → Consumes (f a) more y R) : Consumes (m >>= f) (bytes ++ more) x R := by
  intro rest
  obtain ⟨a, y, hrun, hpost⟩ := h (more ++ rest)
  obtain ⟨b, z, hrun', hpost'⟩ := hnext a y hpost rest
  refine ⟨b, z, ?_, hpost'⟩
  rw [List.append_assoc, bind_ok hrun]
  exact hrun'

/-- A value that is read without touching the object. -/
theorem Consumes.read {f : α → Decode ε σ β} {R : β → σ → Prop} {a : α}
    (h : ∀ rest, m ⟨x, bytes ++ rest⟩ = .ok a ⟨x, rest⟩) (hnext : Consumes (f a) more x R) :
    Consumes (m >>= f) (bytes ++ more) x R := by
  have hread : Consumes m bytes x fun b y => b = a ∧ y = x := fun rest => ⟨a, x, h rest, rfl, rfl⟩
  apply hread.bind
  rintro _ _ ⟨rfl, rfl⟩
  exact hnext

/-- A write comes before what is read next. -/
theorem Consumes.write {f : σ → σ} {n : Decode ε σ β} {R : β → σ → Prop}
    (h : Consumes n bytes (f x) R) : Consumes (do Decode.update f; n) bytes x R :=
  fun rest => h rest

theorem Consumes.update {f : σ → σ} {Q : Unit → σ → Prop} (h : Q () (f x)) :
    Consumes (Decode.update f : Decode ε σ Unit) [] x Q :=
  fun _ => ⟨(), f x, rfl, h⟩

theorem Consumes.on {get : σ → τ} {set : τ → σ → σ} {m : Decode ε τ α}
    (h : Consumes m bytes (get x) fun a t => Q a (set t x)) : Consumes (on get set m) bytes x Q := by
  intro rest
  obtain ⟨a, t, hrun, hpost⟩ := h rest
  exact ⟨a, set t x, on_ok (c := ⟨x, bytes ++ rest⟩) hrun, hpost⟩

theorem Consumes.ite {p : Prop} [Decidable p] {n : Decode ε σ α} (h : p → Consumes m bytes x Q)
    (h' : ¬ p → Consumes n bytes x Q) : Consumes (if p then m else n) bytes x Q := by
  by_cases hp : p
  · rw [if_pos hp]
    exact h hp
  · rw [if_neg hp]
    exact h' hp

/-- A decode function that makes the object another one. -/
theorem Consumes.of_object {m : Decode ε σ Unit} {z : σ}
    (h : ∀ rest, m ⟨x, bytes ++ rest⟩ = .ok () ⟨z, rest⟩) :
    Consumes m bytes x fun _ y => y = z :=
  fun rest => ⟨(), z, h rest, rfl⟩

/-- A loop takes the encodings of the items one after the other. -/
theorem Consumes.times {ι : Type} {m : Decode ε σ Unit} {encode : ι → List UInt8}
    (next : σ → ι → σ) (items : List ι)
    (h : ∀ item ∈ items, ∀ x rest, m ⟨x, encode item ++ rest⟩ = .ok () ⟨next x item, rest⟩)
    (x : σ) :
    Consumes (Decode.times m items.length) (items.flatMap encode) x
      fun _ y => y = items.foldl next x := by
  induction items generalizing x with
  | nil => exact .pure rfl
  | cons item items ih =>
    have hrest := ih (fun other hother => h other (List.mem_cons_of_mem _ hother)) (next x item)
    apply (Consumes.of_object (h item List.mem_cons_self x)).bind
    rintro _ _ rfl
    exact hrest

/-- When the object at the end is known, it is there whatever follows. -/
theorem Consumes.exists_ok {m : Decode ε σ Unit} {Q : Unit → σ → Prop} (h : Consumes m bytes x Q)
    (rest : List UInt8) : ∃ y, m ⟨x, bytes ++ rest⟩ = .ok () ⟨y, rest⟩ ∧ Q () y := by
  obtain ⟨_, y, hrun, hpost⟩ := h rest
  exact ⟨y, hrun, hpost⟩

end CqlDriver.Math.Decode
