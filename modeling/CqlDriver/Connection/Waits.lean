import Mathlib.Data.List.Nodup
import CqlDriver.Connection.Bookkeeping

/-!
# Every wait is answered once and in order

The calls of `waitNextMessage` on one connection, numbered in the order they were
made. Each of them is either still in its slot or resolved, and never both or twice;
the messages of a stream go to its waits in the order of the calls.

## Main definitions

* `ReceiveSide` — a receiver with its numbered waits
* `ReceiveSide.system` — the receiver driven by events in any order
* `ReceiveSide.Correct` — what holds of it in every run

## Main results

* `ReceiveSide.correct_of_reachable` — `Correct` holds in every reachable state
-/

namespace CqlDriver

open Math (valuesOf)

namespace Receiver

variable {ω μ : Type*} {r : Receiver ω μ} {stream other : Nat} {waiter : ω} {message : μ}

/-- The waits of a stream that were given a message, with that message. -/
def deliveries (r : Receiver ω μ) (stream : Nat) : List (ω × μ) :=
  r.resolved.filterMap fun entry =>
    if entry.stream = stream then entry.outcome.message?.map (entry.waiter, ·) else none

theorem map_snd_deliveries (r : Receiver ω μ) (stream : Nat) :
    (r.deliveries stream).map Prod.snd = r.deliveredTo stream := by
  rw [deliveries, List.map_filterMap, deliveredTo]
  congr 1
  funext entry
  split
  · rw [Option.map_map]
    exact Option.map_id'
  · rfl

theorem deliveries_append (r : Receiver ω μ) (entries : List (Resolution ω μ)) :
    ({ r with resolved := r.resolved ++ entries } : Receiver ω μ).deliveries stream =
      r.deliveries stream ++ ({ r with resolved := entries } : Receiver ω μ).deliveries stream :=
  List.filterMap_append

theorem deliveries_resolve (waiter : ω) (outcome : Outcome μ) :
    (r.resolve stream waiter outcome).deliveries other = r.deliveries other ++
      if stream = other then (outcome.message?.map (waiter, ·)).toList else [] := by
  rw [resolve, deliveries_append]
  congr 1
  by_cases hsame : stream = other
  · cases hmessage : outcome.message? with
    | none => simp [deliveries, hsame, hmessage]
    | some message => simp [deliveries, hsame, hmessage]
  · simp [deliveries, hsame]

@[simp] theorem deliveries_close : r.close.deliveries stream = r.deliveries stream := by
  rw [close, deliveries, List.filterMap_append]
  have hnone : (r.waiting.map fun entry => (⟨entry.1, entry.2, .failed⟩ : Resolution ω μ)).filterMap
      (fun entry => if entry.stream = stream then
        entry.outcome.message?.map (entry.waiter, ·) else none) = [] := by
    rw [List.filterMap_map, List.filterMap_eq_nil_iff]
    intro entry _
    simp [Outcome.message?]
  rw [hnone, List.append_nil]
  rfl

/-- Each waiting slot is listed once. -/
theorem waiting_nodup (r : Receiver ω μ) : r.waiting.Nodup := by
  have hstreams : (r.waiting.map Prod.fst).Nodup := by
    have hsub : (r.waiting.map Prod.fst).Sublist (r.receivingPromiseMap.zipIdx.map Prod.snd) := by
      rw [waiting]
      generalize r.receivingPromiseMap.zipIdx = entries
      induction entries with
      | nil => exact .refl _
      | cons entry rest ih =>
        obtain ⟨value, place⟩ := entry
        cases value with
        | none => exact ih.cons _
        | some found => exact ih.cons_cons _
    refine hsub.nodup ?_
    rw [List.zipIdx_map_snd]
    exact List.nodup_range'
  exact hstreams.of_map

/-- A slot that starts to wait. -/
theorem waiting_setSlot_some (hlt : stream < r.receivingPromiseMap.length)
    (hslot : r.slot stream = none) (waiter : ω) :
    (r.setSlot stream (some waiter)).waiting.Perm ((stream, waiter) :: r.waiting) := by
  have hnew : (stream, waiter) ∉ r.waiting := by
    rw [mem_waiting, hslot]
    rintro ⟨⟩
  rw [List.perm_ext_iff_of_nodup (waiting_nodup _) (List.nodup_cons.mpr ⟨hnew, waiting_nodup r⟩)]
  rintro ⟨place, found⟩
  rw [mem_waiting, slot_setSlot hlt, List.mem_cons, mem_waiting, Prod.mk.injEq]
  by_cases hsame : stream = place
  · subst hsame
    simp [hslot, eq_comm]
  · simp [hsame, Ne.symm hsame]

/-- A slot that is emptied. -/
theorem waiting_setSlot_none (hslot : r.slot stream = some waiter) :
    r.waiting.Perm ((stream, waiter) :: (r.setSlot stream none).waiting) := by
  have hlt := lt_of_slot hslot
  have hempty : (r.setSlot stream none).slot stream = none := by
    rw [slot_setSlot hlt, if_pos rfl]
  have hsome := waiting_setSlot_some (r := r.setSlot stream none)
    (by rw [setSlot, List.length_set]; exact hlt) hempty waiter
  have hback : (r.setSlot stream none).setSlot stream (some waiter) = r := by
    have hget := getElem?_of_slot hslot
    obtain ⟨_, hget⟩ := List.getElem?_eq_some_iff.mp hget
    rw [setSlot, setSlot, List.set_set, ← hget, List.set_getElem_self]
  rw [hback] at hsome
  exact hsome

end Receiver

/-- A receiver whose waits are numbered in the order of the calls; `waits` has the
stream of each call. -/
structure ReceiveSide (μ : Type*) where
  receiver : Receiver Nat μ
  waits : List Nat

namespace ReceiveSide

open Receiver

variable {μ : Type*} {c d : ReceiveSide μ}

/-- A wait gets the next number. -/
def number (n : Nat) : Event Unit μ → Event Nat μ
  | .wait stream _ => .wait stream n
  | .arrive stream message => .arrive stream message
  | .receiveHeader => .receiveHeader
  | .receiveBody => .receiveBody
  | .receiveError => .receiveError
  | .startError => .startError
  | .close => .close

/-- The stream of a wait. -/
def waitStream : Event Unit μ → List Nat
  | .wait stream _ => [stream]
  | _ => []

/-- One event-loop task, with the waits numbered. -/
def step (c : ReceiveSide μ) (event : Event Unit μ) : Option (ReceiveSide μ) :=
  (c.receiver.step (number c.waits.length event)).map fun receiver =>
    ⟨receiver, c.waits ++ waitStream event⟩

/-- A connected receiver driven by events in any order. -/
def system (maxStreams maxPendingMessages : Nat) :
    Math.TransitionSystem (ReceiveSide μ) (Event Unit μ) where
  start c := c = ⟨create maxStreams maxPendingMessages, []⟩
  step := step

/-- How numbers, slots and resolutions hang together. -/
structure Numbered (c : ReceiveSide μ) : Prop where
  slot_stream : ∀ stream n, c.receiver.slot stream = some n → c.waits[n]? = some stream
  resolved_stream : ∀ entry ∈ c.receiver.resolved, c.waits[entry.waiter]? = some entry.stream
  once : (c.receiver.resolved.map (·.waiter) ++ c.receiver.waiting.map Prod.snd).Perm
    (List.range c.waits.length)
  ordered : ∀ stream, ((c.receiver.deliveries stream).map Prod.fst).Pairwise (· < ·)
  before : ∀ stream n, c.receiver.slot stream = some n →
    ∀ m ∈ (c.receiver.deliveries stream).map Prod.fst, m < n

namespace Numbered

theorem lt_of_mem_deliveries (h : c.Numbered) {stream n : Nat}
    (hmem : n ∈ (c.receiver.deliveries stream).map Prod.fst) : n < c.waits.length := by
  obtain ⟨⟨n', message⟩, hdelivered, rfl⟩ := List.mem_map.mp hmem
  obtain ⟨entry, hentry, heq⟩ := List.mem_filterMap.mp hdelivered
  have hnumber : entry.waiter = n' := by
    split at heq
    · obtain ⟨_, _, hpair⟩ := Option.map_eq_some_iff.mp heq
      exact (Prod.mk.inj hpair).1
    · cases heq
  have hresolved : n' ∈ c.receiver.resolved.map (·.waiter) :=
    List.mem_map.mpr ⟨entry, hentry, hnumber⟩
  exact List.mem_range.mp (h.once.mem_iff.mp (List.mem_append_left _ hresolved))

/-- Steps that leave slots, resolutions and waits alone. -/
theorem frame (h : c.Numbered)
    (hsame : (d.receiver.receivingPromiseMap, d.receiver.resolved, d.waits) =
      (c.receiver.receivingPromiseMap, c.receiver.resolved, c.waits)) : d.Numbered := by
  simp only [Prod.mk.injEq] at hsame
  obtain ⟨hslots, hresolved, hwaits⟩ := hsame
  have hslot : ∀ stream, d.receiver.slot stream = c.receiver.slot stream := by
    intro stream
    rw [slot, slot, hslots]
  have hdeliveries : ∀ stream, d.receiver.deliveries stream = c.receiver.deliveries stream := by
    intro stream
    rw [deliveries, deliveries, hresolved]
  constructor
  · intro stream n hsome
    rw [hslot] at hsome
    rw [hwaits]
    exact h.slot_stream stream n hsome
  · intro entry hmem
    rw [hresolved] at hmem
    rw [hwaits]
    exact h.resolved_stream entry hmem
  · rw [hresolved, waiting, hslots, hwaits]
    exact h.once
  · intro stream
    rw [hdeliveries]
    exact h.ordered stream
  · intro stream n hsome
    rw [hslot] at hsome
    rw [hdeliveries]
    exact h.before stream n hsome

/-- Closing fails each waiting slot once. -/
theorem close (h : c.Numbered) : (⟨c.receiver.close, c.waits⟩ : ReceiveSide μ).Numbered := by
  constructor
  · intro stream n hsome
    rw [slot_close] at hsome
    cases hsome
  · intro entry hmem
    rcases List.mem_append.mp hmem with hold | hnew
    · exact h.resolved_stream entry hold
    · obtain ⟨⟨stream, n⟩, hwaiting, rfl⟩ := List.mem_map.mp hnew
      exact h.slot_stream stream n (mem_waiting.mp hwaiting)
  · have hnone : c.receiver.close.waiting = [] := by
      rw [List.eq_nil_iff_forall_not_mem]
      rintro ⟨stream, n⟩ hmem
      rw [mem_waiting, slot_close] at hmem
      cases hmem
    rw [hnone, Receiver.close, List.map_append, List.map_map, List.map_nil, List.append_nil]
    exact h.once
  · intro stream
    rw [deliveries_close]
    exact h.ordered stream
  · intro stream n hsome
    rw [slot_close] at hsome
    cases hsome

/-- A wait that is resolved at once, with or without a message. -/
theorem resolveNext (h : c.Numbered) (stream : Nat) (outcome : Outcome μ)
    (hwaiter : outcome.message? = none ∨ c.receiver.slot stream = none) :
    (⟨c.receiver.resolve stream c.waits.length outcome, c.waits ++ [stream]⟩ :
      ReceiveSide μ).Numbered := by
  constructor
  · intro other n hsome
    exact Math.getElem?_append_of_some [stream] (h.slot_stream other n hsome)
  · intro entry hmem
    rcases List.mem_append.mp hmem with hold | hnew
    · exact Math.getElem?_append_of_some [stream] (h.resolved_stream entry hold)
    · rw [List.mem_singleton.mp hnew]
      exact List.getElem?_concat_length
  · rw [resolve, List.map_append, List.map_singleton, List.length_append, List.length_singleton,
      List.range_succ, List.append_assoc]
    refine .trans ?_ (h.once.append_right _)
    rw [List.append_assoc]
    exact (List.perm_append_comm).append_left _
  · intro other
    rw [deliveries_resolve, List.map_append, List.pairwise_append]
    refine ⟨h.ordered other, ?_, ?_⟩
    · split
      · cases outcome.message? with
        | none => exact .nil
        | some message => exact List.pairwise_singleton _ _
      · exact .nil
    · intro m hm n hn
      -- the new number is larger than every number given so far
      have hlast : n = c.waits.length := by
        split at hn
        · cases hmessage : outcome.message? with
          | none =>
            rw [hmessage] at hn
            cases hn
          | some message =>
            rw [hmessage] at hn
            exact List.mem_singleton.mp hn
        · cases hn
      rw [hlast]
      exact h.lt_of_mem_deliveries hm
  · intro other n hsome m hm
    rw [deliveries_resolve, List.map_append, List.mem_append] at hm
    rcases hm with hold | hnew
    · exact h.before other n hsome m hold
    · exfalso
      split at hnew
      next hsame =>
        rcases hwaiter with hnone | hempty
        · rw [hnone] at hnew
          cases hnew
        · subst hsame
          have hsome' : c.receiver.slot stream = some n := hsome
          rw [hempty] at hsome'
          cases hsome'
      · cases hnew

/-- A wait that enters the slot of its stream. -/
theorem register (h : c.Numbered) {stream : Nat}
    (hlt : stream < c.receiver.receivingPromiseMap.length)
    (hslot : c.receiver.slot stream = none) :
    (⟨c.receiver.setSlot stream (some c.waits.length), c.waits ++ [stream]⟩ :
      ReceiveSide μ).Numbered := by
  constructor
  · intro other n hsome
    simp only [slot_setSlot hlt] at hsome
    split at hsome
    next hsame =>
      subst hsame
      cases hsome
      exact List.getElem?_concat_length
    · exact Math.getElem?_append_of_some [stream] (h.slot_stream other n hsome)
  · intro entry hmem
    exact Math.getElem?_append_of_some [stream] (h.resolved_stream entry hmem)
  · have hperm := (waiting_setSlot_some hlt hslot c.waits.length).map Prod.snd
    rw [List.length_append, List.length_singleton, List.range_succ]
    refine (hperm.append_left _).trans ?_
    rw [List.map_cons]
    refine List.perm_middle.trans ?_
    refine (h.once.cons _).trans ?_
    exact (List.perm_append_singleton _ _).symm
  · exact h.ordered
  · intro other n hsome m hm
    simp only [slot_setSlot hlt] at hsome
    split at hsome
    · cases hsome
      exact h.lt_of_mem_deliveries hm
    · exact h.before other n hsome m hm

/-- A message passed to the waiting slot of its stream. -/
theorem passMessage (h : c.Numbered) {stream n : Nat} (message : μ)
    (hslot : c.receiver.slot stream = some n) :
    (⟨(c.receiver.setSlot stream none).resolve stream n (.message message), c.waits⟩ :
      ReceiveSide μ).Numbered := by
  have hlt := lt_of_slot hslot
  constructor
  · intro other k hsome
    have hset : (c.receiver.setSlot stream none).slot other = some k := hsome
    rw [slot_setSlot hlt] at hset
    split at hset
    · cases hset
    · exact h.slot_stream other k hset
  · intro entry hmem
    rcases List.mem_append.mp hmem with hold | hnew
    · exact h.resolved_stream entry hold
    · rw [List.mem_singleton.mp hnew]
      exact h.slot_stream stream n hslot
  · have hperm := (waiting_setSlot_none hslot).map Prod.snd
    rw [List.map_cons] at hperm
    rw [resolve, List.map_append, List.map_singleton, List.append_assoc]
    exact ((hperm.append_left _).symm).trans h.once
  · intro other
    rw [deliveries_resolve, List.map_append, List.pairwise_append]
    refine ⟨h.ordered other, ?_, ?_⟩
    · split
      · exact List.pairwise_singleton _ _
      · exact .nil
    · intro m hm k hk
      split at hk
      next hsame =>
        subst hsame
        rw [List.mem_singleton.mp hk]
        exact h.before stream n hslot m hm
      · cases hk
  · intro other k hsome m hm
    have hset : (c.receiver.setSlot stream none).slot other = some k := hsome
    rw [slot_setSlot hlt] at hset
    split at hset
    · cases hset
    next hne =>
      rw [deliveries_resolve, if_neg hne, List.append_nil] at hm
      exact h.before other k hset m hm

theorem waitNextMessage (h : c.Numbered) (hsound : c.receiver.Sound) {stream : Nat}
    (hlt : stream < c.receiver.receivingPromiseMap.length) :
    (⟨c.receiver.waitNextMessage stream c.waits.length, c.waits ++ [stream]⟩ :
      ReceiveSide μ).Numbered := by
  rw [Receiver.waitNextMessage]
  split
  next message rest hqueue =>
    have htaken : (⟨c.receiver.setQueue stream rest, c.waits⟩ : ReceiveSide μ).Numbered := h.frame rfl
    apply htaken.resolveNext
    right
    -- a stream with a message in its queue has no waiter
    cases hslot : c.receiver.slot stream with
    | none => exact hslot
    | some n =>
      have hempty := hsound.slots.empty stream n hslot
      rw [hqueue] at hempty
      cases hempty
  next hqueue =>
    split
    · exact h.resolveNext stream .alreadyWaiting (.inl rfl)
    next hslot =>
      have hregistered := h.register hlt hslot
      split
      · rw [startReceiver]
        split
        · exact hregistered.frame rfl
        · exact hregistered.frame rfl
      · exact hregistered.frame rfl

theorem receiveBody (h : c.Numbered) (stream : Nat) (message : μ) :
    (⟨c.receiver.receiveBody stream message, c.waits⟩ : ReceiveSide μ).Numbered := by
  rw [Receiver.receiveBody]
  split
  · exact h.close.frame rfl
  · split
    next n hslot =>
      have hpassed := h.passMessage message hslot
      split
      · exact hpassed.close.frame rfl
      · exact hpassed.frame rfl
    · split
      · exact h.frame rfl
      · exact h.close.frame rfl

/-- Every step keeps the numbering. -/
theorem step {event : Event Unit μ} (h : c.Numbered) (hsound : c.receiver.Sound)
    (hstep : ReceiveSide.step c event = some d) : d.Numbered := by
  obtain ⟨r, hr, rfl⟩ := Option.map_eq_some_iff.mp hstep
  have hto := stepTo hr
  cases event with
  | wait stream u =>
    cases hto with
    | wait lt => exact h.waitNextMessage hsound lt
  | arrive stream message =>
    simp only [waitStream, List.append_nil]
    cases hto with
    | arrive connected => exact h.frame rfl
  | receiveHeader =>
    simp only [waitStream, List.append_nil]
    cases hto with
    | receiveHeader connected reading next => exact h.frame rfl
  | receiveBody =>
    simp only [waitStream, List.append_nil]
    cases hto with
    | receiveBody reading => exact h.receiveBody _ _
  | receiveError =>
    simp only [waitStream, List.append_nil]
    cases hto with
    | receiveError running => exact h.close.frame rfl
  | startError =>
    simp only [waitStream, List.append_nil]
    cases hto with
    | startError broken => exact h.close.frame rfl
  | close =>
    simp only [waitStream, List.append_nil]
    cases hto with
    | close => exact h.close

end Numbered

/-! ## Every run -/

theorem sound_and_numbered_of_reachable {maxStreams maxPendingMessages : Nat}
    (h : (system maxStreams maxPendingMessages).Reachable c) :
    c.receiver.Sound ∧ c.Numbered := by
  apply Math.TransitionSystem.Reachable.invariant
    (fun c : ReceiveSide μ => c.receiver.Sound ∧ c.Numbered) _ _ h
  · intro c hstart
    cases hstart
    have hwaiting : (create maxStreams maxPendingMessages : Receiver Nat μ).waiting = [] := by
      rw [List.eq_nil_iff_forall_not_mem]
      rintro ⟨stream, n⟩ hmem
      rw [mem_waiting, slot_create] at hmem
      cases hmem
    refine ⟨create_sound _ _, ?_, fun _ hmem => (by cases hmem), ?_, fun _ => .nil, ?_⟩
    · intro stream n hsome
      rw [slot_create] at hsome
      cases hsome
    · rw [hwaiting]
      exact .refl _
    · intro stream n hsome
      rw [slot_create] at hsome
      cases hsome
  · intro c event d hc hstep
    obtain ⟨r, hr, hd⟩ := Option.map_eq_some_iff.mp hstep
    refine ⟨?_, hc.2.step hc.1 hstep⟩
    rw [← hd]
    exact hc.1.step hr

/-- The bookkeeping of the receive side and the order of delivery. -/
structure Correct (c : ReceiveSide μ) : Prop where
  /-- The count is the number of slots marked waiting. -/
  count : c.receiver.receivingPromiseCount = c.receiver.receivingPromiseMap.countP Option.isSome
  /-- A waiting slot has an empty queue and a receive loop. -/
  slot : ∀ stream n, c.receiver.slot stream = some n →
    c.receiver.queue stream = [] ∧ c.receiver.IsReceiving
  /-- The messages of a stream are the first frames that arrived for it, in order. -/
  delivered : ∀ stream,
    (c.receiver.deliveries stream).map Prod.snd <+: valuesOf c.receiver.arrived stream
  /-- No frame is lost while the connection is open. -/
  kept : c.receiver.isConnected = true → ∀ stream,
    (c.receiver.deliveries stream).map Prod.snd ++ c.receiver.queue stream ++
      valuesOf c.receiver.loop.frame stream ++ valuesOf c.receiver.incoming stream =
        valuesOf c.receiver.arrived stream
  /-- They go to the waits of that stream in the order of the calls. -/
  successive : ∀ stream, ((c.receiver.deliveries stream).map Prod.fst).Pairwise (· < ·)
  /-- A wait is resolved for its own stream. -/
  own_stream : ∀ entry ∈ c.receiver.resolved, c.waits[entry.waiter]? = some entry.stream
  /-- A wait is resolved once or still in its slot. -/
  once : (c.receiver.resolved.map (·.waiter) ++ c.receiver.waiting.map Prod.snd).Perm
    (List.range c.waits.length)
  /-- `close()` fails every waiting slot once and empties it. -/
  close : c.receiver.close.resolved =
      c.receiver.resolved ++ c.receiver.waiting.map (fun entry => ⟨entry.1, entry.2, .failed⟩) ∧
    c.receiver.waiting.Nodup ∧ ∀ stream, c.receiver.close.slot stream = none

/-- In every run of waits, arrivals, reads and closes, the bookkeeping is right and
each stream delivers in order. -/
theorem correct_of_reachable {maxStreams maxPendingMessages : Nat}
    (h : (system maxStreams maxPendingMessages).Reachable c) : c.Correct := by
  obtain ⟨hsound, hnumbered⟩ := sound_and_numbered_of_reachable h
  constructor
  · exact hsound.slots.count
  · intro stream n hslot
    exact ⟨hsound.slots.empty stream n hslot, hsound.active (hsound.slots.count_pos hslot)⟩
  · intro stream
    obtain ⟨rest, heq, -⟩ := hsound.fifo stream
    rw [map_snd_deliveries, ← heq, List.append_assoc, List.append_assoc]
    exact List.prefix_append _ _
  · intro hconnected stream
    obtain ⟨rest, heq, hrest⟩ := hsound.fifo stream
    rw [map_snd_deliveries, ← hrest hconnected]
    exact heq
  · exact hnumbered.ordered
  · exact hnumbered.resolved_stream
  · exact hnumbered.once
  · exact ⟨rfl, waiting_nodup _, fun stream => slot_close⟩

/-- Two streams wait, the frame of the second one arrives first. -/
theorem correct_run :
    ∃ c : ReceiveSide Char, (system 3 10).Reachable c ∧ c.Correct ∧
      c.receiver.deliveries 2 = [(1, 'b')] := by
  have hrun : ((system 3 10).run (⟨create 3 10, []⟩ : ReceiveSide Char)
      [.wait 1 (), .wait 2 (), .arrive 2 'b', .arrive 1 'a', .receiveHeader,
        .receiveBody]).map (·.receiver.deliveries 2) = some [(1, 'b')] := by decide
  obtain ⟨c, hc, hdeliveries⟩ := Option.map_eq_some_iff.mp hrun
  have hreach := Math.TransitionSystem.reachable_of_run rfl hc
  exact ⟨c, hreach, correct_of_reachable hreach, hdeliveries⟩

end ReceiveSide

end CqlDriver
