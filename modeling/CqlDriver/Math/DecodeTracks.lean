import CqlDriver.Math.Decode

/-!
# Decode functions that read the same bytes

A decode function may look at its object, and stop for reasons that have nothing to do with
the bytes. `Tracks` compares it with another one that only follows the bytes: whenever the
first one returns, the second one returns too, with the same bytes left.

## Main definitions

* `Decode.Local` — a decode function that looks at what it reads only
* `Decode.Quiet` — a decode function that reads nothing
* `Decode.Keeps` — a decode function that leaves a part of the object alone
* `Decode.Tracks` — what one function reads, the other one reads too

## Main results

* `Local.bind`, `Quiet.bind`, `Keeps.bind`, `Tracks.bind`, `Tracks.quiet`, `Tracks.on`,
  `Tracks.times` — the rules
* `tracks_take`, `tracks_number` — reading
-/

namespace CqlDriver.Math.Decode

variable {ε σ τ υ α β γ δ : Type} {Q : α → β → Prop} {R : γ → δ → Prop}

/-- A sequence that returns was a first step and a second one that returned. -/
theorem exists_of_bind_ok {m : Decode ε σ α} {f : α → Decode ε σ γ} {c c' : Cursor σ} {b : γ}
    (h : (m >>= f) c = .ok b c') : ∃ a d, m c = .ok a d ∧ f a d = .ok b c' := by
  cases hm : m c with
  | ok a d =>
    rw [bind_ok hm] at h
    exact ⟨a, d, rfl, h⟩
  | error e d =>
    rw [bind_error hm] at h
    cases h

/-- What was read was there. -/
theorem take_ok {short : ε} {count : Nat} {c c' : Cursor σ} {bytes : List UInt8}
    (h : take short count c = .ok bytes c') :
    count ≤ c.rest.length ∧ bytes = c.rest.take count ∧ c' = ⟨c.object, c.rest.drop count⟩ := by
  rw [take] at h
  split at h
  · cases h
  next hlength =>
    cases h
    exact ⟨Nat.not_lt.mp hlength, rfl, rfl⟩

theorem number_ok {short : ε} {width : Nat} {c c' : Cursor σ} {value : Nat}
    (h : number short width c = .ok value c') :
    width ≤ c.rest.length ∧ c' = ⟨c.object, c.rest.drop width⟩ := by
  obtain ⟨bytes, d, htake, hpure⟩ := exists_of_bind_ok h
  cases hpure
  exact ⟨(take_ok htake).1, (take_ok htake).2.2⟩

/-! ## Reading a front -/

/-- A function whose result does not depend on the bytes that it leaves. -/
def Local (m : Decode ε σ α) : Prop :=
  ∀ c a c', m c = .ok a c' → ∀ more, m ⟨c.object, c.rest ++ more⟩ = .ok a ⟨c'.object, c'.rest ++ more⟩

theorem Local.pure (a : α) : Local (pure a : Decode ε σ α) := by
  intro c b c' h more
  cases h
  rfl

theorem Local.bind {m : Decode ε σ α} {f : α → Decode ε σ γ} (h : Local m)
    (hnext : ∀ a, Local (f a)) : Local (m >>= f) := by
  intro c b c' hok more
  obtain ⟨a, d, hm, hf⟩ := exists_of_bind_ok hok
  rw [bind_ok (h c a d hm more)]
  exact hnext a d b c' hf more

theorem local_take {short : ε} {count : Nat} : Local (take short count : Decode ε σ _) := by
  intro c bytes c' h more
  obtain ⟨hle, rfl, rfl⟩ := take_ok h
  have hlong : ¬ (c.rest ++ more).length < count := by
    rw [List.length_append]
    omega
  rw [take, if_neg hlong, List.take_append_of_le_length hle, List.drop_append_of_le_length hle]

theorem local_number {short : ε} {width : Nat} : Local (number short width : Decode ε σ _) :=
  local_take.bind fun _ => .pure _

/-! ## Reading nothing -/

/-- A function that reads nothing when it returns. -/
def Quiet (m : Decode ε σ α) : Prop := ∀ c a c', m c = .ok a c' → c'.rest = c.rest

theorem Quiet.pure (a : α) : Quiet (pure a : Decode ε σ α) := by
  intro c b c' h
  cases h
  rfl

theorem Quiet.throw (e : ε) : Quiet (throw e : Decode ε σ α) := fun _ _ _ h => by cases h

theorem Quiet.update (f : σ → σ) : Quiet (update f : Decode ε σ Unit) := by
  intro c a c' h
  cases h
  rfl

theorem Quiet.object : Quiet (object : Decode ε σ σ) := by
  intro c a c' h
  cases h
  rfl

theorem Quiet.remaining : Quiet (remaining : Decode ε σ (List UInt8)) := by
  intro c a c' h
  cases h
  rfl

theorem Quiet.bind {m : Decode ε σ α} {f : α → Decode ε σ γ} (h : Quiet m)
    (hnext : ∀ a, Quiet (f a)) : Quiet (m >>= f) := by
  intro c b c' hok
  obtain ⟨a, d, hm, hf⟩ := exists_of_bind_ok hok
  rw [hnext a d b c' hf, h c a d hm]

theorem Quiet.ite {p : Prop} [Decidable p] {m n : Decode ε σ α} (h : Quiet m) (h' : Quiet n) :
    Quiet (if p then m else n) := by
  split
  · exact h
  · exact h'

/-! ## Keeping a part of the object -/

/-- When the function returns, this part of the object is as it was. -/
def Keeps (get : σ → τ) (m : Decode ε σ α) : Prop :=
  ∀ c a c', m c = .ok a c' → get c'.object = get c.object

section Keeps

variable {get : σ → τ} {m n : Decode ε σ α}

/-- A function that only reads leaves the whole object alone. -/
theorem Keeps.object_eq {c c' : Cursor σ} {a : α} (h : Keeps id m) (hok : m c = .ok a c') :
    c'.object = c.object :=
  h c a c' hok

theorem Keeps.pure (a : α) : Keeps get (pure a : Decode ε σ α) := by
  intro c b c' h
  cases h
  rfl

theorem Keeps.update {f : σ → σ} (h : ∀ x, get (f x) = get x) :
    Keeps get (update f : Decode ε σ Unit) := by
  intro c a c' hok
  cases hok
  exact h c.object

theorem Keeps.bind {f : α → Decode ε σ γ} (h : Keeps get m) (hnext : ∀ a, Keeps get (f a)) :
    Keeps get (m >>= f) := by
  intro c b c' hok
  obtain ⟨a, d, hm, hf⟩ := exists_of_bind_ok hok
  rw [hnext a d b c' hf, h c a d hm]

theorem Keeps.ite {p : Prop} [Decidable p] (h : Keeps get m) (h' : Keeps get n) :
    Keeps get (if p then m else n) := by
  split
  · exact h
  · exact h'

theorem keeps_take {short : ε} {count : Nat} : Keeps get (take short count) := by
  intro c bytes c' h
  rw [(take_ok h).2.2]

theorem keeps_number {short : ε} {width : Nat} : Keeps get (number short width) :=
  keeps_take.bind fun _ => .pure _

end Keeps

/-! ## Reading the same -/

/-- Whenever `m` returns, `n` returns with the same bytes left, and the results are related. -/
def Tracks (Q : α → β → Prop) (m : Decode ε σ α) (n : Decode ε τ β) : Prop :=
  ∀ c a c' y, m c = .ok a c' → ∃ b y', n ⟨y, c.rest⟩ = .ok b ⟨y', c'.rest⟩ ∧ Q a b

variable {m : Decode ε σ α} {n : Decode ε τ β}

theorem Tracks.pure {a : α} {b : β} (h : Q a b) :
    Tracks Q (pure a : Decode ε σ α) (pure b : Decode ε τ β) := by
  intro c a' c' y hok
  cases hok
  exact ⟨b, y, rfl, h⟩

/-- A function that never returns is tracked by any other. -/
theorem Tracks.throw (e : ε) : Tracks Q (throw e : Decode ε σ α) n := fun _ _ _ _ h => by cases h

theorem Tracks.bind {f : α → Decode ε σ γ} {g : β → Decode ε τ δ} (h : Tracks Q m n)
    (hnext : ∀ a b, Q a b → Tracks R (f a) (g b)) : Tracks R (m >>= f) (n >>= g) := by
  intro c r c' y hok
  obtain ⟨a, d, hm, hf⟩ := exists_of_bind_ok hok
  obtain ⟨b, y₁, hn, hab⟩ := h c a d y hm
  obtain ⟨s, y₂, hg, hrs⟩ := hnext a b hab d r c' y₁ hf
  exact ⟨s, y₂, (bind_ok hn g).trans hg, hrs⟩

/-- A value that both read decides how they go on. -/
theorem Tracks.read {n : Decode ε τ α} {f : α → Decode ε σ γ} {g : α → Decode ε τ δ}
    (h : Tracks Eq m n) (hnext : ∀ a, Tracks R (f a) (g a)) : Tracks R (m >>= f) (n >>= g) := by
  refine h.bind ?_
  rintro a _ rfl
  exact hnext a

/-- Steps that read nothing are not needed. -/
theorem Tracks.quiet {f : α → Decode ε σ γ} {n : Decode ε τ δ} (h : Quiet m)
    (hnext : ∀ a, Tracks R (f a) n) : Tracks R (m >>= f) n := by
  intro c r c' y hok
  obtain ⟨a, d, hm, hf⟩ := exists_of_bind_ok hok
  rw [← h c a d hm]
  exact hnext a d r c' y hf

/-- What follows without reading is not needed either. -/
theorem Tracks.then_quiet {f : α → Decode ε σ γ} (h : Tracks Q m n) (hnext : ∀ a, Quiet (f a)) :
    Tracks (fun _ _ => True) (m >>= f) n := by
  intro c r c' y hok
  obtain ⟨a, d, hm, hf⟩ := exists_of_bind_ok hok
  obtain ⟨b, y', hn, -⟩ := h c a d y hm
  rw [hnext a d r c' hf]
  exact ⟨b, y', hn, trivial⟩

/-- What was read may be thrown away. -/
theorem Tracks.discard (h : Tracks Q m n) :
    Tracks (fun _ _ => True) m (do let _ ← n : Decode ε τ Unit) := by
  intro c a c' y hok
  obtain ⟨b, y', hn, -⟩ := h c a c' y hok
  exact ⟨(), y', (bind_ok hn _).trans rfl, trivial⟩

theorem Tracks.ite {p : Prop} [Decidable p] {m' : Decode ε σ α} {n' : Decode ε τ β}
    (h : p → Tracks Q m n) (h' : ¬ p → Tracks Q m' n') :
    Tracks Q (if p then m else m') (if p then n else n') := by
  by_cases hp : p
  · rw [if_pos hp, if_pos hp]
    exact h hp
  · rw [if_neg hp, if_neg hp]
    exact h' hp

/-- Decoding a member reads what decoding it alone reads. -/
theorem Tracks.on {m : Decode ε υ α} {get : σ → υ} {set : υ → σ → σ} (h : Tracks Q m n) :
    Tracks Q (on get set m) n := by
  intro c a c' y hok
  rw [Decode.on] at hok
  split at hok
  next hm =>
    cases hok
    exact h _ _ _ y hm
  · cases hok

theorem Tracks.onLocal {m : Decode ε υ Unit} {start : υ} (h : Tracks (fun _ _ => True) m n) :
    Tracks (fun _ _ => True) (onLocal start m : Decode ε σ υ) n := by
  intro c a c' y hok
  rw [Decode.onLocal] at hok
  split at hok
  next hm =>
    cases hok
    exact h _ _ _ y hm
  · cases hok

theorem Tracks.times {m : Decode ε σ Unit} {n : Decode ε τ Unit}
    (h : Tracks (fun _ _ => True) m n) (count : Nat) :
    Tracks (fun _ _ => True) (times m count) (times n count) := by
  induction count with
  | zero => exact .pure trivial
  | succ count ih => exact h.bind fun _ _ _ => ih

/-- The bytes that are read do not depend on the object. -/
theorem tracks_take {short : ε} {count : Nat} :
    Tracks Eq (take short count : Decode ε σ _) (take short count : Decode ε τ _) := by
  intro c a c' y hok
  simp only [take] at hok ⊢
  split at hok
  · cases hok
  next hlength =>
    cases hok
    rw [if_neg hlength]
    exact ⟨_, y, rfl, rfl⟩

theorem Tracks.map_eq {f : α → γ} {n : Decode ε τ α} (h : Tracks Eq m n) :
    Tracks Eq (do return f (← m)) (do return f (← n)) :=
  h.read fun _ => .pure rfl

theorem tracks_number {short : ε} {width : Nat} :
    Tracks Eq (number short width : Decode ε σ _) (number short width : Decode ε τ _) :=
  tracks_take.map_eq

end CqlDriver.Math.Decode
