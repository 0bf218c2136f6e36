import CqlDriver.Math.Decode

/-!
# Decoding into two objects

Two decode functions are related when on the same bytes they both return or both
throw, with the same exception. What has to hold of the two objects before, and what
holds of them and of the results after, are relations; the rules below follow the
shape of the decode functions.

## Main definitions

* `Decode.ResultRelated` — related results
* `Decode.Related` — related decode functions

## Main results

* `Related.bind`, `Related.read`, `Related.seq`, `Related.on`, `Related.update`,
  `Related.times` — the rules
* `related_take`, `related_number` — reading does not depend on the object
-/

namespace CqlDriver.Math.Decode

variable {ε σ τ σ' τ' α β γ δ : Type}

/-- Both have returned with as many bytes left, or both have thrown the same. -/
inductive ResultRelated (Q : α → β → σ → τ → Prop) :
    EStateM.Result ε (Cursor σ) α → EStateM.Result ε (Cursor τ) β → Prop
  | ok {a : α} {b : β} {x : σ} {y : τ} {rest : List UInt8} (returned : Q a b x y) :
      ResultRelated Q (.ok a ⟨x, rest⟩) (.ok b ⟨y, rest⟩)
  | error {e : ε} {c : Cursor σ} {d : Cursor τ} : ResultRelated Q (.error e c) (.error e d)

/-- From objects related by `P` the two do the same, up to `Q`. -/
def Related (P : σ → τ → Prop) (Q : α → β → σ → τ → Prop) (m : Decode ε σ α) (n : Decode ε τ β) :
    Prop :=
  ∀ x y rest, P x y → ResultRelated Q (m ⟨x, rest⟩) (n ⟨y, rest⟩)

variable {P : σ → τ → Prop} {Q : α → β → σ → τ → Prop} {R : γ → δ → σ → τ → Prop}
  {m : Decode ε σ α} {n : Decode ε τ β}

theorem ResultRelated.mono {Q' : α → β → σ → τ → Prop} {r : EStateM.Result ε (Cursor σ) α}
    {s : EStateM.Result ε (Cursor τ) β} (h : ResultRelated Q r s)
    (hle : ∀ a b x y, Q a b x y → Q' a b x y) : ResultRelated Q' r s := by
  cases h with
  | ok returned => exact .ok (hle _ _ _ _ returned)
  | error => exact .error

theorem Related.mono {P' : σ → τ → Prop} {Q' : α → β → σ → τ → Prop} (h : Related P Q m n)
    (hP : ∀ x y, P' x y → P x y) (hQ : ∀ a b x y, Q a b x y → Q' a b x y) :
    Related P' Q' m n :=
  fun x y rest hP' => (h x y rest (hP x y hP')).mono hQ

theorem Related.pure {a : α} {b : β} (h : ∀ x y, P x y → Q a b x y) :
    Related P Q (pure a : Decode ε σ α) (pure b : Decode ε τ β) :=
  fun x y _ hP => .ok (h x y hP)

theorem Related.throw {e : ε} :
    Related P Q (throw e : Decode ε σ α) (throw e : Decode ε τ β) :=
  fun _ _ _ _ => .error

/-- A sequence is related when its steps are. -/
theorem Related.bind {f : α → Decode ε σ γ} {g : β → Decode ε τ δ} (h : Related P Q m n)
    (hnext : ∀ a b, Related (Q a b) R (f a) (g b)) : Related P R (m >>= f) (n >>= g) := by
  intro x y rest hP
  have hfirst := h x y rest hP
  generalize hr : m ⟨x, rest⟩ = r at hfirst
  generalize hs : n ⟨y, rest⟩ = s at hfirst
  cases hfirst with
  | ok returned =>
    rw [bind_ok hr, bind_ok hs]
    exact hnext _ _ _ _ _ returned
  | error =>
    rw [bind_error hr, bind_error hs]
    exact .error

/-- A value that both read is the same in what follows. -/
theorem Related.read {n : Decode ε τ α} {f : α → Decode ε σ γ} {g : α → Decode ε τ δ}
    (h : Related P (fun a b x y => a = b ∧ P x y) m n) (hnext : ∀ a, Related P R (f a) (g a)) :
    Related P R (m >>= f) (n >>= g) := by
  apply h.bind
  rintro a b x y rest ⟨rfl, hP⟩
  exact hnext a x y rest hP

/-- A step without a result changes the relation. -/
theorem Related.seq {S : σ → τ → Prop} {m : Decode ε σ Unit} {n : Decode ε τ Unit}
    {f : Decode ε σ γ} {g : Decode ε τ δ} (h : Related P (fun _ _ => S) m n)
    (hnext : Related S R f g) : Related P R (do m; f) (do n; g) :=
  h.bind fun _ _ => hnext

theorem Related.ite {c : Prop} [Decidable c] {m' : Decode ε σ α} {n' : Decode ε τ β}
    (h : c → Related P Q m n) (h' : ¬ c → Related P Q m' n') :
    Related P Q (if c then m else m') (if c then n else n') := by
  by_cases hc : c
  · rw [if_pos hc, if_pos hc]
    exact h hc
  · rw [if_neg hc, if_neg hc]
    exact h' hc

/-- The same object gives the same. -/
theorem Related.refl (m : Decode ε σ α) :
    Related (fun x y => x = y) (fun a b x y => a = b ∧ x = y) m m := by
  rintro x y rest rfl
  cases m ⟨x, rest⟩ with
  | ok a c => exact .ok ⟨rfl, rfl⟩
  | error e c => exact .error

theorem Related.times {m : Decode ε σ Unit} {n : Decode ε τ Unit}
    (h : Related P (fun _ _ => P) m n) (count : Nat) :
    Related P (fun _ _ => P) (times m count) (times n count) := by
  induction count with
  | zero => exact .pure fun x y hP => hP
  | succ count ih => exact h.seq ih

theorem Related.update {f : σ → σ} {g : τ → τ} {R : Unit → Unit → σ → τ → Prop}
    (h : ∀ x y, P x y → R () () (f x) (g y)) :
    Related P R (Decode.update f : Decode ε σ Unit) (Decode.update g : Decode ε τ Unit) :=
  fun x y _ hP => .ok (h x y hP)

theorem Related.object {R : σ → τ → σ → τ → Prop} (h : ∀ x y, P x y → R x y x y) :
    Related P R (Decode.object : Decode ε σ σ) (Decode.object : Decode ε τ τ) :=
  fun x y _ hP => .ok (h x y hP)

theorem Related.remaining :
    Related P (fun bytes bytes' x y => bytes = bytes' ∧ P x y)
      (Decode.remaining : Decode ε σ (List UInt8)) (Decode.remaining : Decode ε τ (List UInt8)) :=
  fun _ _ _ hP => .ok ⟨rfl, hP⟩

/-- Decoding members of the two objects. -/
theorem Related.on {S : σ' → τ' → Prop} {T : α → β → σ' → τ' → Prop} {m : Decode ε σ' α}
    {n : Decode ε τ' β} {get : σ → σ'} {set : σ' → σ → σ} {get' : τ → τ'} {set' : τ' → τ → τ}
    (h : Related S T m n) (hget : ∀ x y, P x y → S (get x) (get' y))
    (hset : ∀ x y, P x y → ∀ a b u v, T a b u v → Q a b (set u x) (set' v y)) :
    Related P Q (Decode.on get set m) (Decode.on get' set' n) := by
  intro x y rest hP
  have hmember := h (get x) (get' y) rest (hget x y hP)
  simp only [Decode.on]
  generalize m ⟨get x, rest⟩ = r at hmember
  generalize n ⟨get' y, rest⟩ = s at hmember
  cases hmember with
  | ok returned => exact .ok (hset x y hP _ _ _ _ returned)
  | error => exact .error

/-- A local object that is decoded, and a value that is read. -/
theorem Related.onLocal {start : σ'} {m : Decode ε σ' Unit} {n : Decode ε τ β} {f : β → σ'}
    (h : ∀ y₀, Related (fun _ y => y = y₀) (fun _ b x y => x = f b ∧ y = y₀) m n) :
    Related P (fun a b x y => a = f b ∧ P x y) (Decode.onLocal start m : Decode ε σ σ') n := by
  intro x y rest hP
  have hlocal := h y start y rest rfl
  rw [Decode.onLocal]
  generalize m ⟨start, rest⟩ = r at hlocal
  generalize n ⟨y, rest⟩ = s at hlocal
  cases hlocal with
  | ok returned =>
    obtain ⟨hobject, rfl⟩ := returned
    exact .ok ⟨hobject, hP⟩
  | error => exact .error

/-- Bytes are read in the same way whatever the object is. -/
theorem related_take {short : ε} {count : Nat} :
    Related P (fun bytes bytes' x y => bytes = bytes' ∧ P x y) (take short count)
      (take short count) := by
  intro x y rest hP
  simp only [take]
  split
  · exact .error
  · exact .ok ⟨rfl, hP⟩

/-- A step on the result that does not touch the object. -/
theorem Related.map_eq {f : α → γ} {m : Decode ε σ α} {n : Decode ε τ α}
    (h : Related P (fun a b x y => a = b ∧ P x y) m n) :
    Related P (fun a b x y => a = b ∧ P x y) (do return f (← m)) (do return f (← n)) := by
  apply h.bind
  rintro a b
  apply Related.pure
  rintro x y ⟨rfl, hP⟩
  exact ⟨rfl, hP⟩

theorem related_number {short : ε} {width : Nat} :
    Related P (fun value value' x y => value = value' ∧ P x y) (number short width)
      (number short width) :=
  related_take.map_eq

end CqlDriver.Math.Decode
