import Mathlib.Data.List.Induction
import Mathlib.Data.List.Nodup
import Mathlib.Logic.Function.Basic
import CqlDriver.Math.Lists

/-!
# Sequences of writes

A table is written entry by entry. Whatever was written before, an entry holds the value that was
written to it last, and one that was never written is as before. Two kinds of tables are written
here, a function and a list.

## Main definitions

* `writeAll` — a function after a sequence of writes
* `setAll` — a list after a sequence of writes, where writes behind its end do nothing

## Main results

* `writeAll_apply`, `getElem?_setAll` — the last write counts
* `valuesOf_of_nodup` — the only value of a key
-/

namespace CqlDriver.Math

section Functions

variable {κ β : Type*} [DecidableEq κ] {f : κ → β} {writes more : List (κ × β)} {key : κ}

/-- A function after these writes, the first one first. -/
def writeAll (f : κ → β) (writes : List (κ × β)) : κ → β :=
  writes.foldl (fun f write => Function.update f write.1 write.2) f

@[simp] theorem writeAll_nil : writeAll f [] = f := rfl

theorem writeAll_append : writeAll f (writes ++ more) = writeAll (writeAll f writes) more :=
  List.foldl_append

/-- The last write to a key counts. -/
theorem writeAll_apply : writeAll f writes key = (valuesOf writes key).getLast?.getD (f key) := by
  induction writes using List.reverseRecOn with
  | nil => rfl
  | append_singleton writes write ih =>
    obtain ⟨other, value⟩ := write
    rw [writeAll_append, valuesOf_append, valuesOf_singleton]
    by_cases hkey : other = key
    · subst hkey
      simp [writeAll]
    · have hother : key ≠ other := fun h => hkey h.symm
      simp [writeAll, hkey, hother]
      exact ih

/-- A key to which only its own value is written keeps it. -/
theorem writeAll_eq_self (h : ∀ write ∈ writes, write.1 = key → write.2 = f key) :
    writeAll f writes key = f key := by
  rw [writeAll_apply]
  cases hlast : (valuesOf writes key).getLast? with
  | none => rfl
  | some value => exact h _ (mem_valuesOf.mp (List.mem_of_getLast? hlast)) rfl

/-- After some writes and more of them that all write one value, a key that is among the last ones
has this value. -/
theorem writeAll_append_map {keys : List κ} {value : β} (h : key ∈ keys) :
    writeAll f (writes ++ keys.map fun key => (key, value)) key = value := by
  have hlast : valuesOf (keys.map fun key => (key, value)) key ≠ [] := by
    have hmem : value ∈ valuesOf (keys.map fun key => (key, value)) key :=
      mem_valuesOf.mpr (List.mem_map_of_mem h)
    exact List.ne_nil_of_mem hmem
  obtain ⟨last, hlast⟩ := Option.ne_none_iff_exists'.mp (mt List.getLast?_eq_none_iff.mp hlast)
  obtain ⟨_, -, heq⟩ := List.mem_map.mp (mem_valuesOf.mp (List.mem_of_getLast? hlast))
  rw [writeAll_append, writeAll_apply, hlast, Option.getD_some]
  exact (Prod.mk.inj heq).2.symm

end Functions

section Lists

variable {β : Type*} {l : List β} {writes : List (Nat × β)} {i : Nat} {value : β}

/-- A list after these writes, the first one first. -/
def setAll (l : List β) (writes : List (Nat × β)) : List β :=
  writes.foldl (fun l write => l.set write.1 write.2) l

@[simp] theorem length_setAll : (setAll l writes).length = l.length := by
  induction writes generalizing l with
  | nil => rfl
  | cons write writes ih => exact ih.trans List.length_set

/-- The last write to an index counts. -/
theorem getElem?_setAll (h : i < l.length) :
    (setAll l writes)[i]? = (valuesOf writes i).getLast?.or l[i]? := by
  induction writes using List.reverseRecOn with
  | nil => rfl
  | append_singleton writes write ih =>
    obtain ⟨j, value⟩ := write
    have hsplit : setAll l (writes ++ [(j, value)]) = (setAll l writes).set j value :=
      List.foldl_append
    rw [hsplit, valuesOf_append, valuesOf_singleton, List.getElem?_set, length_setAll]
    by_cases hji : j = i
    · subst hji
      simp [h]
    · simp [hji, ih]

end Lists

section Nodup

variable {κ β : Type*} [DecidableEq κ] {pairs : List (κ × β)} {key : κ} {value : β}

/-- A key that stands once has one value. -/
theorem valuesOf_of_nodup (h : (pairs.map Prod.fst).Nodup) (hmem : (key, value) ∈ pairs) :
    valuesOf pairs key = [value] := by
  induction pairs with
  | nil => cases hmem
  | cons first rest ih =>
    obtain ⟨other, found⟩ := first
    rw [List.map_cons, List.nodup_cons] at h
    obtain ⟨hfirst, hrest⟩ := h
    rcases List.mem_cons.mp hmem with heq | hmem
    · cases heq
      rw [valuesOf_cons_self]
      -- no other pair has this key
      refine congrArg (value :: ·) (List.eq_nil_iff_forall_not_mem.mpr fun later hlater => ?_)
      exact hfirst (List.mem_map.mpr ⟨(key, later), mem_valuesOf.mp hlater, rfl⟩)
    · have hne : other ≠ key := by
        rintro rfl
        exact hfirst (List.mem_map.mpr ⟨(other, value), hmem, rfl⟩)
      rw [valuesOf_cons_of_ne hne, ih hrest hmem]

end Nodup

end CqlDriver.Math
