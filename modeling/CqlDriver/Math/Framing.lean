import Mathlib.Data.List.Basic

/-!
# Frames in a stream

A sender writes frames one behind the other, with nothing between them. A receiver has some
symbols of the stream and takes frames off their front for as long as one is complete.

If a frame says itself where it ends, the receiver finds the frames that were written, wherever
the stream is cut: those that arrived whole, in order, and nothing else.

## Main definitions

* `Framing` — how frames are written and how the first one is read
* `Framing.read` — all frames that are complete, and what is left

## Main results

* `Framing.read_stream` — the frames that were written are read
* `Framing.read_take` — from the beginning of a stream the first frames are read
-/

namespace CqlDriver.Math

/-- How frames are written as symbols, and how a frame is read off the front. -/
structure Framing (α φ : Type*) where
  /-- The frames that are written. -/
  IsFrame : φ → Prop
  write : φ → List α
  /-- The first frame and the symbols behind it, unless it is incomplete. -/
  next : List α → Option (φ × List α)
  next_append : ∀ {f}, IsFrame f → ∀ rest, next (write f ++ rest) = some (f, rest)
  next_short : ∀ {f short}, IsFrame f → short <+: write f → short ≠ write f → next short = none
  next_length : ∀ {l f rest}, next l = some (f, rest) → rest.length < l.length

namespace Framing

variable {α φ : Type*} {F : Framing α φ} {l rest short : List α} {f : φ} {frames other : List φ}

/-- At most so many frames from the front, and what is left. -/
def readLoop (F : Framing α φ) : Nat → List α → List φ × List α
  | 0, l => ([], l)
  | k + 1, l =>
    match F.next l with
    | none => ([], l)
    | some (f, rest) =>
      let (frames, left) := F.readLoop k rest
      (f :: frames, left)

/-- All complete frames from the front, and what is left. -/
def read (F : Framing α φ) (l : List α) : List φ × List α := F.readLoop l.length l

/-- Every frame takes a symbol, so there are no more frames than symbols. -/
theorem readLoop_eq_read {k : Nat} (h : l.length ≤ k) : F.readLoop k l = F.read l := by
  suffices ∀ j k l, l.length ≤ j → l.length ≤ k → F.readLoop j l = F.readLoop k l from
    this k l.length l h (Nat.le_refl _)
  intro j
  induction j with
  | zero =>
    intro k l hj _
    obtain rfl : l = [] := List.eq_nil_of_length_eq_zero (Nat.le_zero.mp hj)
    cases k with
    | zero => rfl
    | succ k =>
      rw [readLoop, readLoop]
      split
      · rfl
      next hnext => exact absurd (F.next_length hnext) (Nat.not_lt_zero _)
  | succ j ih =>
    intro k l hj hk
    cases k with
    | zero =>
      obtain rfl : l = [] := List.eq_nil_of_length_eq_zero (Nat.le_zero.mp hk)
      rw [readLoop, readLoop]
      split
      · rfl
      next hnext => exact absurd (F.next_length hnext) (Nat.not_lt_zero _)
    | succ k =>
      simp only [readLoop]
      split
      · rfl
      next f rest hnext =>
        have hlt := F.next_length hnext
        rw [ih k rest (by omega) (by omega)]

theorem read_of_none (h : F.next l = none) : F.read l = ([], l) := by
  rw [read]
  cases l.length with
  | zero => rfl
  | succ k => rw [readLoop, h]

theorem read_of_some (h : F.next l = some (f, rest)) :
    F.read l = (f :: (F.read rest).1, (F.read rest).2) := by
  have hlt := F.next_length h
  obtain ⟨k, hk⟩ := Nat.exists_eq_add_one_of_ne_zero (Nat.ne_zero_of_lt hlt)
  rw [read, hk, readLoop, h]
  dsimp only
  rw [readLoop_eq_read (by omega)]

theorem next_nil : F.next [] = none := by
  cases h : F.next [] with
  | none => rfl
  | some found => exact absurd (F.next_length h) (Nat.not_lt_zero _)

theorem read_write_append (hf : F.IsFrame f) (rest : List α) :
    F.read (F.write f ++ rest) = (f :: (F.read rest).1, (F.read rest).2) :=
  read_of_some (F.next_append hf rest)

/-- The frames that were written are read, up to symbols that do not complete another one. -/
theorem read_stream (hframes : ∀ f ∈ frames, F.IsFrame f) (hrest : F.next rest = none) :
    F.read (frames.flatMap F.write ++ rest) = (frames, rest) := by
  induction frames with
  | nil => exact read_of_none hrest
  | cons f frames ih =>
    have hothers := ih fun other hother => hframes other (List.mem_cons_of_mem f hother)
    rw [List.flatMap_cons, List.append_assoc, read_write_append (hframes f List.mem_cons_self),
      hothers]

/-- All of a stream is read. -/
theorem read_flatMap (hframes : ∀ f ∈ frames, F.IsFrame f) :
    F.read (frames.flatMap F.write) = (frames, []) := by
  have h := read_stream hframes (next_nil (F := F))
  rwa [List.append_nil] at h

/-- A stream that is cut consists of whole frames and a part of the next one. -/
theorem exists_of_take (hframes : ∀ f ∈ frames, F.IsFrame f) (n : Nat) :
    ∃ k short, (frames.flatMap F.write).take n = (frames.take k).flatMap F.write ++ short ∧
      F.next short = none := by
  induction frames generalizing n with
  | nil => exact ⟨0, [], by simp, next_nil⟩
  | cons f frames ih =>
    have hf := hframes f List.mem_cons_self
    by_cases hcut : n < (F.write f).length
    · -- the first frame is cut
      refine ⟨0, (F.write f).take n, ?_, F.next_short hf (List.take_prefix n _) ?_⟩
      · simp [List.take_append_of_le_length (Nat.le_of_lt hcut)]
      · intro hall
        have hlength := congrArg List.length hall
        rw [List.length_take] at hlength
        omega
    · obtain ⟨k, short, htake, hshort⟩ :=
        ih (fun other hother => hframes other (List.mem_cons_of_mem f hother))
          (n - (F.write f).length)
      refine ⟨k + 1, short, ?_, hshort⟩
      rw [List.flatMap_cons, List.take_append, List.take_of_length_le (Nat.not_lt.mp hcut), htake,
        List.take_succ_cons, List.flatMap_cons, List.append_assoc]

/-- Wherever a stream is cut, the frames in front of the cut are read. -/
theorem read_take (hframes : ∀ f ∈ frames, F.IsFrame f) (n : Nat) :
    (F.read ((frames.flatMap F.write).take n)).1 <+: frames := by
  obtain ⟨k, short, htake, hshort⟩ := exists_of_take hframes n
  rw [htake, read_stream (fun f hf => hframes f (List.mem_of_mem_take hf)) hshort]
  exact List.take_prefix k frames

/-- A stream is written by one list of frames only. -/
theorem eq_of_flatMap_eq (hframes : ∀ f ∈ frames, F.IsFrame f) (hother : ∀ f ∈ other, F.IsFrame f)
    (h : frames.flatMap F.write = other.flatMap F.write) : frames = other := by
  have hread := read_flatMap hframes
  rw [h, read_flatMap hother] at hread
  exact (congrArg Prod.fst hread).symm

end Framing

end CqlDriver.Math
