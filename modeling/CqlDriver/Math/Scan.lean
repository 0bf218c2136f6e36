import CqlDriver.Math.Decode

/-!
# Programs that inspect memory

A program reads bytes at addresses and changes a state; it may stop with an error. What it does is
recorded: the bytes that it inspects, and the rounds of its loops that were completed, each with the
bodies it was in then. A body is a range of addresses that a part of the program is confined to.
Nothing keeps the program from inspecting a byte outside: that it does not is a property of the
record.

## Main definitions

* `Memory`, `Extent` — bytes at addresses, and ranges of addresses
* `Scan` — programs, with `Scan.load`, `Scan.inBody`, `Scan.round` and `Scan.times`
* `Traced.Inside` — what is inspected lies in all the bodies around it
* `rounds` — the rounds of the program itself, not of those it runs in bodies
* `Scan.Bounded`, `Scan.Confined` — programs that stay inside a range, or before an address
* `Follows` — a program does what a decode function does with the bytes before an address

## Main results

* `Scan.Bounded.bind`, `Scan.Confined.bind`, `Scan.Confined.times` — programs that stay inside step
  by step
* `Scan.Confined.withLocal` — a loop completes only the rounds that there are bytes for
* `Follows.bind`, `Follows.times` — programs that follow decode functions step by step
-/

namespace CqlDriver.Math

/-- The byte at each address. -/
abbrev Memory := Nat → UInt8

/-- The addresses from a start on. -/
structure Extent where
  start : Nat
  size : Nat
  deriving DecidableEq, Repr

/-- The address is one of the range. -/
def Extent.Contains (extent : Extent) (address : Nat) : Prop :=
  extent.start ≤ address ∧ address < extent.start + extent.size

instance (extent : Extent) (address : Nat) : Decidable (extent.Contains address) :=
  inferInstanceAs (Decidable (_ ∧ _))

theorem Extent.Contains.mono {inner outer : Extent} {address : Nat} (h : inner.Contains address)
    (hstart : outer.start ≤ inner.start)
    (hstop : inner.start + inner.size ≤ outer.start + outer.size) : outer.Contains address :=
  ⟨hstart.trans h.1, h.2.trans_le hstop⟩

/-- The bytes at the addresses of a range. -/
def slice (memory : Memory) (start size : Nat) : List UInt8 :=
  (List.range' start size).map memory

@[simp] theorem length_slice (memory : Memory) (start size : Nat) :
    (slice memory start size).length = size := by
  simp [slice]

@[simp] theorem slice_zero (memory : Memory) (start : Nat) : slice memory start 0 = [] := rfl

theorem take_slice (memory : Memory) (start : Nat) {size n : Nat} (h : n ≤ size) :
    (slice memory start size).take n = slice memory start n := by
  rw [slice, ← List.map_take, List.take_range'_of_length_ge h, slice]

theorem drop_slice (memory : Memory) (start size n : Nat) :
    (slice memory start size).drop n = slice memory (start + n) (size - n) := by
  rw [slice, ← List.map_drop, List.drop_range', Nat.mul_one, slice]

/-- What is recorded. -/
inductive Event
  | inspect (address : Nat)
  /-- A round of a loop was completed. -/
  | round
  deriving DecidableEq, Repr

/-- An event, and the bodies it happens in, from the innermost on. -/
structure Traced where
  bodies : List Extent
  event : Event
  deriving DecidableEq, Repr

namespace Traced

/-- An inspected byte is in a range and in all the bodies around it. -/
def Inside (outer : Extent) (t : Traced) : Prop :=
  ∀ address, t.event = .inspect address →
    outer.Contains address ∧ ∀ body ∈ t.bodies, body.Contains address

/-- What happens in a body. -/
def push (body : Extent) (t : Traced) : Traced := { t with bodies := t.bodies ++ [body] }

theorem Inside.mono {inner outer : Extent} {t : Traced} (h : t.Inside inner)
    (hstart : outer.start ≤ inner.start)
    (hstop : inner.start + inner.size ≤ outer.start + outer.size) : t.Inside outer :=
  fun address haddress => ⟨(h address haddress).1.mono hstart hstop, (h address haddress).2⟩

/-- The body that was a range becomes one of the bodies around. -/
theorem Inside.push {body : Extent} {t : Traced} (h : t.Inside body) : (t.push body).Inside body := by
  intro address haddress
  obtain ⟨hbody, hbodies⟩ := h address haddress
  refine ⟨hbody, fun other hother => ?_⟩
  rcases List.mem_append.mp hother with hmem | hmem
  · exact hbodies other hmem
  · exact List.mem_singleton.mp hmem ▸ hbody

end Traced

/-- The rounds that were completed outside of all bodies. -/
def rounds (trace : List Traced) : Nat := trace.count ⟨[], .round⟩

@[simp] theorem rounds_nil : rounds [] = 0 := rfl

@[simp] theorem rounds_append (trace more : List Traced) :
    rounds (trace ++ more) = rounds trace + rounds more := List.count_append

@[simp] theorem rounds_push (body : Extent) (trace : List Traced) :
    rounds (trace.map (Traced.push body)) = 0 := by
  rw [rounds, List.count_eq_zero]
  intro hmem
  obtain ⟨t, -, ht⟩ := List.mem_map.mp hmem
  exact List.append_ne_nil_of_right_ne_nil _ (List.cons_ne_nil _ _) (congrArg Traced.bodies ht)

/-- The bytes from an address on are inspected. -/
def inspected (start n : Nat) : List Traced :=
  (List.range' start n).map fun address => ⟨[], .inspect address⟩

@[simp] theorem rounds_inspected (start n : Nat) : rounds (inspected start n) = 0 := by
  simp [rounds, inspected, List.count_eq_zero]

theorem inside_of_mem_inspected {extent : Extent} {start n : Nat} {t : Traced}
    (h : t ∈ inspected start n) (hstart : extent.start ≤ start)
    (hstop : start + n ≤ extent.start + extent.size) : t.Inside extent := by
  obtain ⟨address, hmem, rfl⟩ := List.mem_map.mp h
  obtain ⟨hfrom, hto⟩ := List.mem_range'_1.mp hmem
  rintro _ ⟨⟩
  exact ⟨⟨hstart.trans hfrom, hto.trans_le hstop⟩, fun _ h => absurd h List.not_mem_nil⟩

/-- What a program has recorded, its state, and what it returns or the error. -/
structure Outcome (ε σ α : Type) where
  trace : List Traced
  state : σ
  result : Except ε α

/-- Something was recorded before. -/
def Outcome.after {ε σ α : Type} (trace : List Traced) (o : Outcome ε σ α) : Outcome ε σ α :=
  { o with trace := trace ++ o.trace }

@[simp] theorem Outcome.after_nil {ε σ α : Type} (o : Outcome ε σ α) : o.after [] = o := rfl

/-- A program that inspects memory. -/
def Scan (ε σ α : Type) := Memory → σ → Outcome ε σ α

namespace Scan

variable {ε σ τ α β : Type}

/-- Run the next program where one has ended. -/
protected def bind (m : Scan ε σ α) (f : α → Scan ε σ β) : Scan ε σ β := fun memory s =>
  match (m memory s).result with
  | .ok a => (f a memory (m memory s).state).after (m memory s).trace
  | .error e => ⟨(m memory s).trace, (m memory s).state, .error e⟩

instance : Monad (Scan ε σ) where
  pure a := fun _ s => ⟨[], s, .ok a⟩
  bind := Scan.bind

/-- Stop with an error. -/
def throw (e : ε) : Scan ε σ α := fun _ s => ⟨[], s, .error e⟩

/-- Change the state. -/
def update (f : σ → σ) : Scan ε σ Unit := fun _ s => ⟨[], f s, .ok ()⟩

/-- The state as it is now. -/
def get : Scan ε σ σ := fun _ s => ⟨[], s, .ok s⟩

/-- Inspect the bytes from an address on. -/
def load (start n : Nat) : Scan ε σ { bytes : List UInt8 // bytes.length = n } := fun memory s =>
  ⟨inspected start n, s, .ok ⟨slice memory start n, length_slice memory start n⟩⟩

/-- Record that a round of a loop is completed. -/
def round : Scan ε σ Unit := fun _ s => ⟨[⟨[], .round⟩], s, .ok ()⟩

/-- Run a program in a body. -/
def inBody (body : Extent) (m : Scan ε σ α) : Scan ε σ α := fun memory s =>
  { m memory s with trace := (m memory s).trace.map (Traced.push body) }

/-- Run a program on a part of the state. -/
def on (get : σ → τ) (set : τ → σ → σ) (m : Scan ε τ α) : Scan ε σ α := fun memory s =>
  let o := m memory (get s)
  ⟨o.trace, set o.state s, o.result⟩

/-- Run a program on a local variable, which is returned. -/
def onLocal (start : τ) (m : Scan ε τ Unit) : Scan ε σ τ := fun memory s =>
  let o := m memory start
  ⟨o.trace, s, o.result.map fun _ => o.state⟩

/-- Run a program on a part of the object, and on the pointer. -/
def onObject (get : σ → τ) (set : τ → σ → σ) (m : Scan ε (τ × Nat) α) : Scan ε (σ × Nat) α :=
  on (fun s => (get s.1, s.2)) (fun t s => (set t.1 s.1, t.2)) m

/-- Run a program on a local object, which is returned, and on the pointer. -/
def onLocalObject (start : τ) (m : Scan ε (τ × Nat) Unit) : Scan ε (σ × Nat) τ := fun memory s =>
  let o := m memory (start, s.2)
  ⟨o.trace, (s.1, o.state.2), o.result.map fun _ => o.state.1⟩

/-- Run a program with a local variable. -/
def withLocal (start : τ) (m : Scan ε (σ × τ) α) : Scan ε σ α := fun memory s =>
  let o := m memory (s, start)
  ⟨o.trace, o.state.1, o.result⟩

/-- Run a program a number of times. -/
def times (m : Scan ε σ Unit) : Nat → Scan ε σ Unit
  | 0 => pure ()
  | n + 1 => do
    m
    times m n

variable {m : Scan ε σ α} {f : α → Scan ε σ β} {memory : Memory} {s : σ}

@[simp] theorem pure_apply (a : α) : (pure a : Scan ε σ α) memory s = ⟨[], s, .ok a⟩ := rfl

theorem bind_ok {a : α} (h : (m memory s).result = .ok a) :
    (m >>= f) memory s = (f a memory (m memory s).state).after (m memory s).trace := by
  show Scan.bind m f memory s = _
  rw [Scan.bind, h]

theorem bind_error {e : ε} (h : (m memory s).result = .error e) :
    (m >>= f) memory s = ⟨(m memory s).trace, (m memory s).state, .error e⟩ := by
  show Scan.bind m f memory s = _
  rw [Scan.bind, h]

@[simp] theorem get_bind (f : σ → Scan ε σ β) : (get >>= f) memory s = f s memory s := rfl

@[simp] theorem update_bind (g : σ → σ) (f : Unit → Scan ε σ β) :
    (update g >>= f) memory s = f () memory (g s) := rfl

theorem load_bind {start n : Nat} (f : { bytes : List UInt8 // bytes.length = n } → Scan ε σ β) :
    (load start n >>= f) memory s =
      (f ⟨slice memory start n, length_slice memory start n⟩ memory s).after (inspected start n) :=
  rfl

end Scan

/-! ## Programs that stay inside -/

namespace Scan

variable {ε σ τ α β : Type} {extent : Extent} {ok : ε → Prop} {budget more : Nat} {m : Scan ε σ α}
  {f : α → Scan ε σ β}

/-- What the program inspects is in a range, the rounds it completes are within a budget, and its
errors are of a kind. -/
structure Bounded (extent : Extent) (budget : Nat) (ok : ε → Prop) (m : Scan ε σ α) : Prop where
  inside : ∀ memory s, ∀ t ∈ (m memory s).trace, t.Inside extent
  rounds_le : ∀ memory s, rounds (m memory s).trace ≤ budget
  error : ∀ memory s e, (m memory s).result = .error e → ok e

namespace Bounded

theorem mono (h : Bounded extent budget ok m) (hle : budget ≤ more) : Bounded extent more ok m :=
  ⟨h.inside, fun memory s => (h.rounds_le memory s).trans hle, h.error⟩

theorem throw {e : ε} (he : ok e) : Bounded extent 0 ok (Scan.throw e : Scan ε σ α) where
  inside _ _ _ ht := absurd ht List.not_mem_nil
  rounds_le _ _ := le_rfl
  error _ _ _ h := by
    cases h
    exact he

theorem update (g : σ → σ) : Bounded extent 0 ok (Scan.update g : Scan ε σ Unit) where
  inside _ _ _ ht := absurd ht List.not_mem_nil
  rounds_le _ _ := le_rfl
  error _ _ _ h := by cases h

/-- Bytes of the range are inspected. -/
theorem load {start n : Nat} (hstart : extent.start ≤ start)
    (hstop : start + n ≤ extent.start + extent.size) :
    Bounded extent 0 ok (Scan.load start n : Scan ε σ _) where
  inside _ _ _ ht := inside_of_mem_inspected ht hstart hstop
  rounds_le _ _ := Nat.le_of_eq (rounds_inspected start n)
  error _ _ _ h := by cases h

theorem bind (h : Bounded extent budget ok m) (hnext : ∀ a, Bounded extent more ok (f a)) :
    Bounded extent (budget + more) ok (m >>= f) where
  inside memory s t ht := by
    cases hresult : (m memory s).result with
    | ok a =>
      rw [bind_ok hresult] at ht
      rcases List.mem_append.mp ht with hmem | hmem
      · exact h.inside memory s t hmem
      · exact (hnext a).inside memory _ t hmem
    | error e =>
      rw [bind_error hresult] at ht
      exact h.inside memory s t ht
  rounds_le memory s := by
    have hfirst := h.rounds_le memory s
    cases hresult : (m memory s).result with
    | ok a =>
      have hsecond := (hnext a).rounds_le memory (m memory s).state
      simp only [bind_ok hresult, Outcome.after, rounds_append]
      omega
    | error e =>
      rw [bind_error hresult]
      exact hfirst.trans (Nat.le_add_right _ _)
  error memory s e he := by
    cases hresult : (m memory s).result with
    | ok a =>
      rw [bind_ok hresult] at he
      exact (hnext a).error memory _ e he
    | error e' =>
      rw [bind_error hresult] at he
      cases he
      exact h.error memory s e hresult

/-- A step that completes no rounds uses nothing of the budget. -/
theorem bind_quiet (h : Bounded extent 0 ok m) (hnext : ∀ a, Bounded extent budget ok (f a)) :
    Bounded extent budget ok (m >>= f) :=
  (h.bind hnext).mono (Nat.le_of_eq (Nat.zero_add budget))

theorem on {get : σ → τ} {set : τ → σ → σ} {m : Scan ε τ α} (h : Bounded extent budget ok m) :
    Bounded extent budget ok (Scan.on get set m) where
  inside memory s := h.inside memory (get s)
  rounds_le memory s := h.rounds_le memory (get s)
  error memory s := h.error memory (get s)

theorem onLocal {start : τ} {m : Scan ε τ Unit} (h : Bounded extent budget ok m) :
    Bounded extent budget ok (Scan.onLocal start m : Scan ε σ τ) where
  inside memory _ := h.inside memory start
  rounds_le memory _ := h.rounds_le memory start
  error memory s e he := by
    refine h.error memory start e ?_
    simp only [Scan.onLocal] at he
    cases hresult : (m memory start).result with
    | ok _ => rw [hresult] at he; cases he
    | error _ => rw [hresult] at he; cases he; rfl

theorem enlarge {outer : Extent} (h : Bounded extent budget ok m)
    (hstart : outer.start ≤ extent.start)
    (hstop : extent.start + extent.size ≤ outer.start + outer.size) : Bounded outer budget ok m :=
  ⟨fun memory s t ht => (h.inside memory s t ht).mono hstart hstop, h.rounds_le, h.error⟩

/-- In a body, rounds do not count for what is around it. -/
theorem inBody {body : Extent} (h : Bounded body budget ok m) :
    Bounded body 0 ok (Scan.inBody body m) where
  inside memory s t ht := by
    obtain ⟨inner, hinner, rfl⟩ := List.mem_map.mp ht
    exact (h.inside memory s inner hinner).push
  rounds_le memory s := Nat.le_of_eq (rounds_push body _)
  error := h.error

end Bounded

/-- The program moves a pointer, not past `stop`, and inspects only what is between the pointer and
`stop`. Each round that it completes has moved the pointer by `cost` at least. -/
structure Confined (stop cost : Nat) (ok : ε → Prop) (m : Scan ε (σ × Nat) α) : Prop where
  le_pointer : ∀ memory s, s.2 ≤ stop →
    s.2 + cost * rounds (m memory s).trace ≤
      (m memory s).state.2
  pointer_le : ∀ memory s, s.2 ≤ stop → (m memory s).state.2 ≤ stop
  inside : ∀ memory s, s.2 ≤ stop → ∀ t ∈ (m memory s).trace,
    t.Inside ⟨s.2, stop - s.2⟩
  error : ∀ memory s, s.2 ≤ stop → ∀ e,
    (m memory s).result = .error e → ok e

/-- When the program returns, it has moved the pointer by `gain` beyond the rounds. -/
def Moves (stop cost gain : Nat) (m : Scan ε (σ × Nat) α) : Prop :=
  ∀ memory s a, s.2 ≤ stop → (m memory s).result = .ok a →
    s.2 + cost * rounds (m memory s).trace + gain ≤ (m memory s).state.2

namespace Confined

variable {stop cost : Nat} {m : Scan ε (σ × Nat) α} {f : α → Scan ε (σ × Nat) β}

theorem pure (a : α) : Confined stop cost ok (pure a : Scan ε (σ × Nat) α) where
  le_pointer _ _ _ := le_rfl
  pointer_le _ _ h := h
  inside _ _ _ _ ht := absurd ht List.not_mem_nil
  error _ _ _ _ h := by cases h

theorem bind (h : Confined stop cost ok m) (hnext : ∀ a, Confined stop cost ok (f a)) :
    Confined stop cost ok (m >>= f) where
  le_pointer memory s hle := by
    have hfirst := h.le_pointer memory s hle
    cases hresult : (m memory s).result with
    | ok a =>
      have hsecond := (hnext a).le_pointer memory (m memory s).state
        (h.pointer_le memory s hle)
      simp only [bind_ok hresult, Outcome.after, rounds_append, Nat.mul_add]
      omega
    | error e =>
      rw [bind_error hresult]
      exact hfirst
  pointer_le memory s hle := by
    have hfirst := h.pointer_le memory s hle
    cases hresult : (m memory s).result with
    | ok a =>
      rw [bind_ok hresult]
      exact (hnext a).pointer_le memory (m memory s).state hfirst
    | error e =>
      rw [bind_error hresult]
      exact hfirst
  inside memory s hle t ht := by
    have hpointer := h.le_pointer memory s hle
    have hstop := h.pointer_le memory s hle
    cases hresult : (m memory s).result with
    | ok a =>
      rw [bind_ok hresult] at ht
      rcases List.mem_append.mp ht with hmem | hmem
      · exact h.inside memory s hle t hmem
      · -- what comes behind the moved pointer comes behind the pointer
        refine ((hnext a).inside memory (m memory s).state hstop t hmem).mono ?_ ?_
        · dsimp only
          omega
        · dsimp only
          omega
    | error e =>
      rw [bind_error hresult] at ht
      exact h.inside memory s hle t ht
  error memory s hle e he := by
    cases hresult : (m memory s).result with
    | ok a =>
      rw [bind_ok hresult] at he
      exact (hnext a).error memory (m memory s).state
        (h.pointer_le memory s hle) e he
    | error e' =>
      rw [bind_error hresult] at he
      cases he
      exact h.error memory s hle e hresult

theorem times {m : Scan ε (σ × Nat) Unit} (h : Confined stop cost ok m) (n : Nat) :
    Confined stop cost ok (Scan.times m n) := by
  induction n with
  | zero => exact .pure ()
  | succ n ih => exact h.bind fun _ => ih

/-- What is done next may depend on the state. -/
theorem get_bind {f : σ × Nat → Scan ε (σ × Nat) β} (h : ∀ s, Confined stop cost ok (f s)) :
    Confined stop cost ok (Scan.get >>= f) where
  le_pointer memory s := (h s).le_pointer memory s
  pointer_le memory s := (h s).pointer_le memory s
  inside memory s := (h s).inside memory s
  error memory s := (h s).error memory s

theorem update {g : σ × Nat → σ × Nat} (hg : ∀ s, (g s).2 = s.2) :
    Confined stop cost ok (Scan.update g) where
  le_pointer _ s _ := Nat.le_of_eq (hg s).symm
  pointer_le _ s h := (hg s).symm ▸ h
  inside _ _ _ _ ht := absurd ht List.not_mem_nil
  error _ _ _ _ h := by cases h

theorem onObject {get : σ → τ} {set : τ → σ → σ} {m : Scan ε (τ × Nat) α}
    (h : Confined stop cost ok m) : Confined stop cost ok (Scan.onObject get set m) where
  le_pointer memory s := h.le_pointer memory (get s.1, s.2)
  pointer_le memory s := h.pointer_le memory (get s.1, s.2)
  inside memory s := h.inside memory (get s.1, s.2)
  error memory s := h.error memory (get s.1, s.2)

theorem onLocalObject {start : τ} {m : Scan ε (τ × Nat) Unit} (h : Confined stop cost ok m) :
    Confined stop cost ok (Scan.onLocalObject start m : Scan ε (σ × Nat) τ) where
  le_pointer memory s := h.le_pointer memory (start, s.2)
  pointer_le memory s := h.pointer_le memory (start, s.2)
  inside memory s := h.inside memory (start, s.2)
  error memory s hle e he := by
    refine h.error memory (start, s.2) hle e ?_
    simp only [Scan.onLocalObject] at he
    cases hresult : (m memory (start, s.2)).result with
    | ok _ => rw [hresult] at he; cases he
    | error _ => rw [hresult] at he; cases he; rfl

/-- A round that moves the pointer far enough is paid for. -/
theorem bind_round (h : Confined stop cost ok m) (hmoves : Moves stop cost cost m) :
    Confined stop cost ok (m >>= fun _ => Scan.round) where
  le_pointer memory s hle := by
    cases hresult : (m memory s).result with
    | ok a =>
      have hmoved := hmoves memory s a hle hresult
      simp only [bind_ok hresult, Outcome.after, Scan.round, rounds_append, Nat.mul_add]
      have hone : rounds [⟨[], .round⟩] = 1 := rfl
      rw [hone]
      omega
    | error e =>
      rw [bind_error hresult]
      exact h.le_pointer memory s hle
  pointer_le memory s hle := by
    have hfirst := h.pointer_le memory s hle
    cases hresult : (m memory s).result with
    | ok a =>
      rw [bind_ok hresult]
      exact hfirst
    | error e =>
      rw [bind_error hresult]
      exact hfirst
  inside memory s hle t ht := by
    cases hresult : (m memory s).result with
    | ok a =>
      rw [bind_ok hresult] at ht
      rcases List.mem_append.mp ht with hmem | hmem
      · exact h.inside memory s hle t hmem
      · obtain rfl := List.mem_singleton.mp hmem
        exact fun _ h => by cases h
    | error e =>
      rw [bind_error hresult] at ht
      exact h.inside memory s hle t ht
  error memory s hle e he := by
    cases hresult : (m memory s).result with
    | ok a =>
      rw [bind_ok hresult] at he
      cases he
    | error e' =>
      rw [bind_error hresult] at he
      cases he
      exact h.error memory s hle e hresult

/-- With a pointer of its own, the program completes only the rounds that there are bytes for. -/
theorem withLocal (h : Confined stop cost ok m) (hcost : 0 < cost) {start : Nat}
    (hstart : start ≤ stop) :
    Bounded ⟨start, stop - start⟩ ((stop - start) / cost) ok (Scan.withLocal start m) where
  inside memory s := h.inside memory (s, start) hstart
  rounds_le memory s := by
    have hle := h.le_pointer memory (s, start) hstart
    have hstop := h.pointer_le memory (s, start) hstart
    rw [Nat.le_div_iff_mul_le hcost, Nat.mul_comm]
    show cost * rounds (m memory (s, start)).trace ≤ _
    omega
  error memory s := h.error memory (s, start) hstart

end Confined

namespace Moves

variable {stop cost gain : Nat} {m : Scan ε (σ × Nat) α} {f : α → Scan ε (σ × Nat) β}

/-- The first step moves the pointer, and the next one does not move it back. -/
theorem bind (h : Moves stop cost gain m) (hm : Confined stop cost ok m)
    (hnext : ∀ a, Confined stop cost ok (f a)) : Moves stop cost gain (m >>= f) := by
  intro memory s b hle hok
  cases hresult : (m memory s).result with
  | ok a =>
    have hfirst := h memory s a hle hresult
    have hsecond := (hnext a).le_pointer memory (m memory s).state (hm.pointer_le memory s hle)
    simp only [bind_ok hresult, Outcome.after, rounds_append, Nat.mul_add]
    omega
  | error e =>
    rw [bind_error hresult] at hok
    cases hok

/-- What a change of the object alone is followed by moves the pointer. -/
theorem update_bind {g : σ × Nat → σ × Nat} (hg : ∀ s, (g s).2 = s.2)
    {f : Unit → Scan ε (σ × Nat) β} (h : Moves stop cost gain (f ())) :
    Moves stop cost gain (Scan.update g >>= f) := by
  intro memory s b hle hok
  have hmoved := h memory (g s) b ((hg s).symm ▸ hle) hok
  rw [hg s] at hmoved
  exact hmoved

theorem onObject {get : σ → τ} {set : τ → σ → σ} {m : Scan ε (τ × Nat) α}
    (h : Moves stop cost gain m) : Moves stop cost gain (Scan.onObject get set m) :=
  fun memory s => h memory (get s.1, s.2)

theorem onLocalObject {start : τ} {m : Scan ε (τ × Nat) Unit} (h : Moves stop cost gain m) :
    Moves stop cost gain (Scan.onLocalObject start m : Scan ε (σ × Nat) τ) := by
  intro memory s b hle hok
  simp only [Scan.onLocalObject] at hok
  cases hresult : (m memory (start, s.2)).result with
  | ok _ => exact h memory (start, s.2) () hle hresult
  | error _ => rw [hresult] at hok; cases hok

end Moves

end Scan

/-! ## Programs that do what decode functions do -/

/-- The outcome of a program that moves a pointer up to `stop` is the one of a decode function: the
same object, the same result, and the bytes that are left are those before `stop`. -/
def Agrees {ε σ α : Type} (memory : Memory) (stop : Nat) (o : Outcome ε (σ × Nat) α) :
    EStateM.Result ε (Cursor σ) α → Prop
  | .ok a c => o.result = .ok a ∧ o.state.1 = c.object ∧ o.state.2 ≤ stop ∧
      c.rest = slice memory o.state.2 (stop - o.state.2)
  | .error e c => o.result = .error e ∧ o.state.1 = c.object

/-- The program does what the decode function does with the bytes before `stop`. -/
def Follows {ε σ α : Type} (stop : Nat) (m : Scan ε (σ × Nat) α) (d : Decode ε σ α) : Prop :=
  ∀ memory object pointer, pointer ≤ stop →
    Agrees memory stop (m memory (object, pointer)) (d ⟨object, slice memory pointer (stop - pointer)⟩)

namespace Follows

variable {ε σ τ α β : Type} {stop : Nat} {m : Scan ε (σ × Nat) α} {d : Decode ε σ α}
  {f : α → Scan ε (σ × Nat) β} {g : α → Decode ε σ β}

theorem pure (a : α) : Follows stop (pure a : Scan ε (σ × Nat) α) (pure a) :=
  fun _ _ _ h => ⟨rfl, rfl, h, rfl⟩

theorem bind (h : Follows stop m d) (hnext : ∀ a, Follows stop (f a) (g a)) :
    Follows stop (m >>= f) (d >>= g) := by
  intro memory object pointer hle
  have hfirst := h memory object pointer hle
  cases hd : d ⟨object, slice memory pointer (stop - pointer)⟩ with
  | ok a c =>
    rw [hd] at hfirst
    obtain ⟨hresult, hobject, hpointer, hrest⟩ := hfirst
    have hsecond := hnext a memory (m memory (object, pointer)).state.1
      (m memory (object, pointer)).state.2 hpointer
    have hc : c = ⟨_, _⟩ := congrArg₂ Cursor.mk hobject.symm hrest
    rw [Scan.bind_ok hresult, Decode.bind_ok hd, hc]
    exact hsecond
  | error e c =>
    rw [hd] at hfirst
    rw [Scan.bind_error hfirst.1, Decode.bind_error hd]
    exact ⟨rfl, hfirst.2⟩

theorem times {m : Scan ε (σ × Nat) Unit} {d : Decode ε σ Unit} (h : Follows stop m d) (n : Nat) :
    Follows stop (Scan.times m n) (Decode.times d n) := by
  induction n with
  | zero => exact .pure ()
  | succ n ih => exact h.bind fun _ => ih

theorem throw (e : ε) : Follows stop (Scan.throw e : Scan ε (σ × Nat) α) (throw e) :=
  fun _ _ _ _ => ⟨rfl, rfl⟩

/-- A change of the object. -/
theorem update (g : σ → σ) :
    Follows stop (Scan.update fun s => (g s.1, s.2) : Scan ε (σ × Nat) Unit) (Decode.update g) :=
  fun _ _ _ h => ⟨rfl, rfl, h, rfl⟩

theorem onObject {get : σ → τ} {set : τ → σ → σ} {m : Scan ε (τ × Nat) α} {d : Decode ε τ α}
    (h : Follows stop m d) : Follows stop (Scan.onObject get set m) (Decode.on get set d) := by
  intro memory object pointer hle
  have hpart := h memory (get object) pointer hle
  rw [Decode.on]
  dsimp only
  cases hd : d ⟨get object, slice memory pointer (stop - pointer)⟩ with
  | ok a c =>
    rw [hd] at hpart
    obtain ⟨hresult, hobject, hpointer, hrest⟩ := hpart
    exact ⟨hresult, congrArg (set · object) hobject, hpointer, hrest⟩
  | error e c =>
    rw [hd] at hpart
    exact ⟨hpart.1, congrArg (set · object) hpart.2⟩

theorem onLocalObject {start : τ} {m : Scan ε (τ × Nat) Unit} {d : Decode ε τ Unit}
    (h : Follows stop m d) :
    Follows stop (Scan.onLocalObject start m : Scan ε (σ × Nat) τ) (Decode.onLocal start d) := by
  intro memory object pointer hle
  have hlocal := h memory start pointer hle
  rw [Decode.onLocal]
  dsimp only
  cases hd : d ⟨start, slice memory pointer (stop - pointer)⟩ with
  | ok a c =>
    rw [hd] at hlocal
    obtain ⟨hresult, hobject, hpointer, hrest⟩ := hlocal
    refine ⟨?_, rfl, hpointer, hrest⟩
    simp only [Scan.onLocalObject, hresult, Except.map, hobject]
  | error e c =>
    rw [hd] at hlocal
    refine ⟨?_, rfl⟩
    simp only [Scan.onLocalObject, hlocal.1, Except.map]

/-- Rounds are only recorded. -/
theorem bind_round {m : Scan ε (σ × Nat) Unit} {d : Decode ε σ Unit} (h : Follows stop m d) :
    Follows stop (m >>= fun _ => Scan.round) d := by
  intro memory object pointer hle
  have hfirst := h memory object pointer hle
  cases hd : d ⟨object, slice memory pointer (stop - pointer)⟩ with
  | ok a c =>
    rw [hd] at hfirst
    rw [Scan.bind_ok hfirst.1]
    exact ⟨rfl, hfirst.2⟩
  | error e c =>
    rw [hd] at hfirst
    rw [Scan.bind_error hfirst.1]
    exact ⟨rfl, hfirst.2⟩

end Follows

/-- The outcome is the one of a decode function. -/
def Mirrored {ε σ : Type} (o : Outcome ε σ Unit) : EStateM.Result ε (Cursor σ) Unit → Prop
  | .ok _ c => o.result = .ok () ∧ o.state = c.object
  | .error e c => o.result = .error e ∧ o.state = c.object

/-- The program does what the decode function does with the bytes of a range, of which some may be
left. -/
def Mirrors {ε σ : Type} (start size : Nat) (m : Scan ε σ Unit) (d : Decode ε σ Unit) : Prop :=
  ∀ memory s, Mirrored (m memory s) (d ⟨s, slice memory start size⟩)

/-- With a pointer of its own, a program that follows a decode function mirrors it. -/
theorem Agrees.withLocal {ε σ : Type} {memory : Memory} {stop start : Nat}
    {m : Scan ε (σ × Nat) Unit} {s : σ} {r : EStateM.Result ε (Cursor σ) Unit}
    (h : Agrees memory stop (m memory (s, start)) r) :
    Mirrored (Scan.withLocal start m memory s) r := by
  cases r with
  | ok a c => exact ⟨h.1, h.2.1⟩
  | error e c => exact h

/-- What was recorded before does not matter. -/
theorem Mirrored.after {ε σ : Type} {o : Outcome ε σ Unit} {r : EStateM.Result ε (Cursor σ) Unit}
    (h : Mirrored o r) (trace : List Traced) : Mirrored (o.after trace) r := by
  cases r with
  | ok a c => exact h
  | error e c => exact h

end CqlDriver.Math
