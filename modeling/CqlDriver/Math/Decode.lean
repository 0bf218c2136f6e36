import CqlDriver.Math.BigEndian

/-!
# Decoding in place

A decode function reads from the bytes that are left and writes into an object. It
may stop with an error; what it has written and read until then stays. Objects have
members, and the decode function of a member is used on the whole through `on`.

## Main definitions

* `Cursor` — an object and the bytes that are left
* `Decode` — decode functions
* `take`, `number` — reading bytes
* `Decode.on`, `Decode.onLocal` — decoding a member, or a local object
* `Decode.inside` — decoding from a part of the bytes
* `Decode.times`, `Decode.collect` — counted loops

## Main results

* `Decode.bind_ok`, `Decode.bind_error` — how a sequence runs
* `take_append`, `number_append` — reading what was written
* `Decode.collect_append` — the loop rule
-/

namespace CqlDriver.Math

/-- An object that is being decoded and the bytes that are left. -/
structure Cursor (σ : Type) where
  object : σ
  rest : List UInt8
  deriving DecidableEq, Repr

/-- A decode function. -/
abbrev Decode (ε σ α : Type) := EStateM ε (Cursor σ) α

namespace Decode

variable {ε σ τ α β : Type} {c c' : Cursor σ} {a : α} {e : ε}

@[simp] theorem pure_apply : (pure a : Decode ε σ α) c = .ok a c := rfl

@[simp] theorem throw_apply : (throw e : Decode ε σ α) c = .error e c := rfl

/-- After a step that returns, the next one runs. -/
theorem bind_ok {m : Decode ε σ α} (h : m c = .ok a c') (f : α → Decode ε σ β) :
    (m >>= f) c = f a c' := by
  show EStateM.bind m f c = _
  rw [EStateM.bind, h]

/-- After an error nothing runs. -/
theorem bind_error {m : Decode ε σ α} (h : m c = .error e c') (f : α → Decode ε σ β) :
    (m >>= f) c = .error e c' := by
  show EStateM.bind m f c = _
  rw [EStateM.bind, h]

/-- The object as it is now. -/
def object : Decode ε σ σ := fun c => .ok c.object c

/-- Write the object. -/
def update (f : σ → σ) : Decode ε σ Unit := fun c => .ok () { c with object := f c.object }

@[simp] theorem object_apply : (object : Decode ε σ σ) c = .ok c.object c := rfl

@[simp] theorem update_apply (f : σ → σ) :
    (update f : Decode ε σ Unit) c = .ok () { c with object := f c.object } := rfl

/-- The bytes that are left. -/
def remaining : Decode ε σ (List UInt8) := fun c => .ok c.rest c

@[simp] theorem remaining_apply : (remaining : Decode ε σ (List UInt8)) c = .ok c.rest c := rfl

/-- Decode a member of the object. -/
def on (get : σ → τ) (set : τ → σ → σ) (m : Decode ε τ α) : Decode ε σ α := fun c =>
  match m ⟨get c.object, c.rest⟩ with
  | .ok a d => .ok a ⟨set d.object c.object, d.rest⟩
  | .error e d => .error e ⟨set d.object c.object, d.rest⟩

/-- Decode a local object, which is returned. -/
def onLocal (start : τ) (m : Decode ε τ Unit) : Decode ε σ τ := fun c =>
  match m ⟨start, c.rest⟩ with
  | .ok _ d => .ok d.object ⟨c.object, d.rest⟩
  | .error e d => .error e ⟨c.object, d.rest⟩

theorem on_ok {get : σ → τ} {set : τ → σ → σ} {m : Decode ε τ α} {d : Cursor τ}
    (h : m ⟨get c.object, c.rest⟩ = .ok a d) :
    on get set m c = .ok a ⟨set d.object c.object, d.rest⟩ := by
  rw [on, h]

theorem on_error {get : σ → τ} {set : τ → σ → σ} {m : Decode ε τ α} {d : Cursor τ}
    (h : m ⟨get c.object, c.rest⟩ = .error e d) :
    on get set m c = .error e ⟨set d.object c.object, d.rest⟩ := by
  rw [on, h]

theorem onLocal_ok {start : τ} {m : Decode ε τ Unit} {d : Cursor τ}
    (h : m ⟨start, c.rest⟩ = .ok () d) :
    (onLocal start m : Decode ε σ τ) c = .ok d.object ⟨c.object, d.rest⟩ := by
  rw [onLocal, h]

theorem onLocal_error {start : τ} {m : Decode ε τ Unit} {d : Cursor τ}
    (h : m ⟨start, c.rest⟩ = .error e d) :
    (onLocal start m : Decode ε σ τ) c = .error e ⟨c.object, d.rest⟩ := by
  rw [onLocal, h]

/-- Decode the object from other bytes, of which some may be left. -/
def inside (bytes : List UInt8) (m : Decode ε σ Unit) : Decode ε σ Unit := fun c =>
  match m ⟨c.object, bytes⟩ with
  | .ok _ d => .ok () { c with object := d.object }
  | .error e d => .error e { c with object := d.object }

theorem inside_ok {bytes rest left : List UInt8} {m : Decode ε σ Unit} {x y : σ}
    (h : m ⟨x, bytes⟩ = .ok () ⟨y, left⟩) : inside bytes m ⟨x, rest⟩ = .ok () ⟨y, rest⟩ := by
  rw [inside, h]

/-- Run a decode function a number of times. -/
def times (m : Decode ε σ Unit) : Nat → Decode ε σ Unit
  | 0 => pure ()
  | n + 1 => do
    m
    times m n

/-- Run a decode function a number of times and collect what it returns. -/
def collect (m : Decode ε σ α) : Nat → Decode ε σ (List α)
  | 0 => pure []
  | n + 1 => do
    let a ← m
    let rest ← collect m n
    return a :: rest

/-- Items that are encoded one after the other are collected in order. -/
theorem collect_append {m : Decode ε σ α} {encode : α → List UInt8} {x : σ} (items : List α)
    (hitem : ∀ item ∈ items, ∀ rest, m ⟨x, encode item ++ rest⟩ = .ok item ⟨x, rest⟩)
    (rest : List UInt8) :
    collect m items.length ⟨x, items.flatMap encode ++ rest⟩ = .ok items ⟨x, rest⟩ := by
  induction items with
  | nil => rfl
  | cons item items ih =>
    have hfirst := hitem item List.mem_cons_self (items.flatMap encode ++ rest)
    have hrest := ih fun other hother => hitem other (List.mem_cons_of_mem _ hother)
    rw [List.length_cons, collect, List.flatMap_cons, List.append_assoc, bind_ok hfirst,
      bind_ok hrest]
    rfl

/-- The first item that does not parse ends the loop. -/
theorem collect_error {m : Decode ε σ α} (h : m c = .error e c') (n : Nat) :
    collect m (n + 1) c = .error e c' :=
  bind_error h _

end Decode

section Reading

variable {ε σ : Type} {short : ε} {x : σ} {bytes rest : List UInt8} {width n : Nat}

/-- Read the next bytes. -/
def take (short : ε) (n : Nat) : Decode ε σ (List UInt8) := fun c =>
  if c.rest.length < n then .error short c
  else .ok (c.rest.take n) { c with rest := c.rest.drop n }

/-- Read a number in network byte order. -/
def number (short : ε) (width : Nat) : Decode ε σ Nat := do
  return ofBigEndian (← take short width)

theorem take_append (h : bytes.length = n) :
    take short n (⟨x, bytes ++ rest⟩ : Cursor σ) = .ok bytes ⟨x, rest⟩ := by
  have hle : ¬ (bytes ++ rest).length < n := by
    rw [List.length_append]
    omega
  rw [take, if_neg hle, List.take_left' h, List.drop_left' h]

/-- A number that was written is read back. -/
theorem number_append (h : n < 256 ^ width) :
    number short width (⟨x, bigEndian width n ++ rest⟩ : Cursor σ) = .ok n ⟨x, rest⟩ := by
  rw [number, Decode.bind_ok (take_append (length_bigEndian width n)), ofBigEndian_bigEndian h]
  rfl

/-- There is nothing to read when bytes are missing. -/
theorem take_short {c : Cursor σ} (h : c.rest.length < n) : take short n c = .error short c :=
  if_pos h

end Reading

end CqlDriver.Math
