import CqlDriver.Common.Exception
import CqlDriver.Math.Lists
import CqlDriver.Math.Transition

/-!
# Stream objects and the ids they hold

`ConnectionStream` is an RAII object: it holds one stream id of one connection and
puts the id back when it is closed, overwritten or destroyed. Its connection keeps
the free ids in a vector that the objects share with it, so that the vector lives
on when the connection is destroyed.

The model is a heap of connections and stream objects, each named by its position.
The operations on the objects come in any order, and an object may be moved onto an
object of another connection.

## Main definitions

* `ConnectionStream` — the members of a stream object
* `StreamHeap` — connections with their vectors, and all stream objects
* `StreamHeap.held` — the ids of a connection that valid objects hold
* `StreamHeap.system` — the operations in any order

## Main results

* `StreamHeap.free_add_held` — free and held ids of a live connection are all its
  ids, along every run
* `StreamHeap.ids_exact` — no id is shared or lost, and the counts of the
  connection agree
-/

namespace CqlDriver

/-- A value that `NodeConfiguration::setMaxStreams` accepts. -/
structure MaxStreams where
  value : Nat
  two_le : 2 ≤ value
  le_255 : value ≤ 255
  deriving DecidableEq, Repr

/-- `NodeConfiguration::setMaxStreams`. -/
def setMaxStreams (value : Nat) : Except Exception MaxStreams :=
  if h : 2 ≤ value ∧ value ≤ 255 then
    .ok ⟨value, h.1, h.2⟩
  else
    .error ⟨.format, "invalid max streams value, it should >= 2 and <= 255"⟩

/-- RAII object that holds an in use stream id. -/
structure ConnectionStream where
  isValid : Bool
  streamId : UInt16
  /-- The connection whose vector of free ids is shared, `none` for a null pointer. -/
  freeStreamIds : Option Nat
  deriving DecidableEq, Repr

namespace ConnectionStream

/-- `getStreamId`. -/
def getStreamId (stream : ConnectionStream) : Except Exception UInt16 :=
  if stream.isValid then
    .ok stream.streamId
  else
    .error (logicException "can't get stream id from an invalid stream")

/-- The constructor without arguments. -/
def invalid : ConnectionStream := ⟨false, 0, none⟩

/-- The constructor of a stream in use. -/
def create (streamId : UInt16) (freeStreamIds : Nat) : ConnectionStream :=
  ⟨true, streamId, some freeStreamIds⟩

/-- What a move leaves behind. -/
def movedFrom (stream : ConnectionStream) : ConnectionStream :=
  ⟨false, stream.streamId, none⟩

/-- The id of connection `c` that the object holds. -/
def idOf (c : Nat) (stream : ConnectionStream) : Option UInt16 :=
  if stream.isValid = true ∧ stream.freeStreamIds = some c then some stream.streamId else none

end ConnectionStream

/-- What of a `Connection` concerns its streams. -/
structure StreamOwner where
  maxStreams : MaxStreams
  /-- The vector of free ids, with its end first. -/
  freeStreamIds : List UInt16
  streamZero : ConnectionStream
  /-- The connection is not destroyed yet. -/
  isLive : Bool
  deriving DecidableEq, Repr

namespace StreamOwner

/-- The constructor of the connection at position `c`: the vector gets `j - i` at
place `i`, for `j` ids. -/
def create (c : Nat) (maxStreams : MaxStreams) : StreamOwner where
  maxStreams := maxStreams
  freeStreamIds :=
    ((List.range (maxStreams.value - 1)).map fun i =>
      UInt16.ofNat (maxStreams.value - 1 - i)).reverse
  streamZero := .create 0 c
  isLive := true

/-- `getFreeStreamsCount`. -/
def getFreeStreamsCount (owner : StreamOwner) : Nat := owner.freeStreamIds.length

/-- `isAllStreamsFree`, stream zero excepted. -/
def isAllStreamsFree (owner : StreamOwner) : Bool :=
  decide (owner.maxStreams.value ≤ owner.freeStreamIds.length + 1)

end StreamOwner

/-- All connections and all stream objects; `none` is a destroyed object. -/
structure StreamHeap where
  connections : List StreamOwner
  streams : List (Option ConnectionStream)
  deriving DecidableEq, Repr

namespace StreamHeap

/-! ## The operations -/

/-- The stream object at a position. -/
def stream? (h : StreamHeap) (i : Nat) : Option ConnectionStream := h.streams[i]?.join

/-- The part of `close` that puts the id back. -/
def release (h : StreamHeap) (stream : ConnectionStream) : StreamHeap :=
  match stream.isValid, stream.freeStreamIds with
  | true, some c =>
    { h with
      connections := h.connections.modify c fun owner =>
        { owner with freeStreamIds := stream.streamId :: owner.freeStreamIds } }
  -- a valid stream that holds no vector is only written to the error log
  | _, _ => h

/-- `ConnectionStream::close`. -/
def close (h : StreamHeap) (i : Nat) (stream : ConnectionStream) : StreamHeap :=
  { h.release stream with streams := h.streams.set i (some { stream with isValid := false }) }

/-- The move constructor. -/
def moveConstruct (h : StreamHeap) (i : Nat) (stream : ConnectionStream) : StreamHeap :=
  { h with streams := h.streams.set i (some stream.movedFrom) ++ [some stream] }

/-- The move assignment of object `j` to object `i`. -/
def moveAssign (h : StreamHeap) (i j : Nat) (target source : ConnectionStream) : StreamHeap :=
  if i = j then
    h
  else
    { h.release target with
      streams := (h.streams.set i (some source)).set j (some source.movedFrom) }

/-- The destructor. -/
def destroy (h : StreamHeap) (i : Nat) (stream : ConnectionStream) : StreamHeap :=
  { h.release stream with streams := h.streams.set i none }

/-- `Connection::openStream`, on the connection at a position. -/
def openStream (h : StreamHeap) (c : Nat) (owner : StreamOwner) : StreamHeap :=
  match owner.freeStreamIds with
  | [] => { h with streams := h.streams ++ [some .invalid] }
  | streamId :: rest =>
    { h with
      connections := h.connections.set c { owner with freeStreamIds := rest }
      streams := h.streams ++ [some (.create streamId c)] }

/-- The destructor of a connection closes its stream zero. -/
def destroyConnection (h : StreamHeap) (c : Nat) (owner : StreamOwner) : StreamHeap :=
  { h with
    connections := h.connections.set c
      { owner with
        freeStreamIds := owner.streamZero.streamId :: owner.freeStreamIds
        isLive := false } }

/-! ## Events -/

/-- The operations. -/
inductive Event
  /-- The constructor of a connection. -/
  | connect (maxStreams : MaxStreams)
  | destroyConnection (c : Nat)
  /-- The constructor without arguments. -/
  | create
  | openStream (c : Nat)
  | close (i : Nat)
  | moveConstruct (i : Nat)
  | moveAssign (i j : Nat)
  | destroy (i : Nat)
  /-- `returnConnection` closes the stream and opens another one for a waiter. -/
  | returnConnection (c i : Nat) (hasWaiter : Bool)
  deriving DecidableEq, Repr

/-- The connection at a position, unless it was destroyed. -/
def live? (h : StreamHeap) (c : Nat) : Option StreamOwner := h.connections[c]?.filter (·.isLive)

/-- One operation. -/
def step (h : StreamHeap) : Event → Option StreamHeap
  | .connect maxStreams =>
    some { h with connections := h.connections ++ [.create h.connections.length maxStreams] }
  | .destroyConnection c => (h.live? c).map (h.destroyConnection c)
  | .create => some { h with streams := h.streams ++ [some .invalid] }
  | .openStream c => (h.live? c).map (h.openStream c)
  | .close i => (h.stream? i).map (h.close i)
  | .moveConstruct i => (h.stream? i).map (h.moveConstruct i)
  | .moveAssign i j =>
    match h.stream? i, h.stream? j with
    | some target, some source => some (h.moveAssign i j target source)
    | _, _ => none
  | .destroy i => (h.stream? i).map (h.destroy i)
  | .returnConnection c i hasWaiter => do
    let stream ← h.stream? i
    let closed := h.close i stream
    let owner ← closed.live? c
    pure (if hasWaiter then closed.openStream c owner else closed)

/-- No connection and no stream object at the start. -/
def system : Math.TransitionSystem StreamHeap Event where
  start h := h = ⟨[], []⟩
  step := step

/-! ## Held and free ids -/

/-- The ids of connection `c` that valid stream objects hold. -/
def held (h : StreamHeap) (c : Nat) : List UInt16 :=
  h.streams.filterMap fun object => object.bind (ConnectionStream.idOf c)

/-- Every valid object shares a vector, and the free and the held ids of a live
connection are the ids it was made with. -/
structure Intact (h : StreamHeap) : Prop where
  shares : ∀ stream, some stream ∈ h.streams → stream.isValid = true →
    ∃ c < h.connections.length, stream.freeStreamIds = some c
  free_add_held : ∀ c owner, h.connections[c]? = some owner → owner.isLive = true →
    (owner.freeStreamIds : Multiset UInt16) + h.held c =
      (StreamOwner.create c owner.maxStreams).freeStreamIds

variable {h : StreamHeap} {stream target source : ConnectionStream} {owner : StreamOwner}
  {c i j : Nat}

theorem idOf_of_not_valid (hvalid : stream.isValid = false) : stream.idOf c = none := by
  simp [ConnectionStream.idOf, hvalid]

theorem getElem?_of_stream (hstream : h.stream? i = some stream) :
    h.streams[i]? = some (some stream) := by
  rw [stream?, Option.join_eq_some_iff] at hstream
  exact hstream

theorem mem_of_stream (hstream : h.stream? i = some stream) : some stream ∈ h.streams :=
  List.mem_of_getElem? (getElem?_of_stream hstream)

theorem live?_eq_some (hlive : h.live? c = some owner) :
    h.connections[c]? = some owner ∧ owner.isLive = true :=
  Option.filter_eq_some_iff.mp hlive

@[simp] theorem length_connections_release :
    (h.release stream).connections.length = h.connections.length := by
  rw [release]
  split
  · exact List.length_modify _ _ _
  · rfl

/-- `close` puts the id back to the connection it belongs to, and to no other. -/
theorem getElem?_release (howner : (h.release stream).connections[c]? = some owner) :
    ∃ old, h.connections[c]? = some old ∧ owner =
      { old with freeStreamIds := (stream.idOf c).toList ++ old.freeStreamIds } := by
  rw [release] at howner
  split at howner
  next d hvalid hshared =>
    rw [List.getElem?_modify] at howner
    obtain ⟨old, hold, rfl⟩ := Option.map_eq_some_iff.mp howner
    refine ⟨old, hold, ?_⟩
    rw [ConnectionStream.idOf, hshared]
    by_cases hd : d = c
    · rw [if_pos hd, if_pos ⟨hvalid, congrArg some hd⟩]
      rfl
    · rw [if_neg hd, if_neg fun hand => hd (Option.some.inj hand.2)]
      rfl
  next hnone =>
    refine ⟨owner, howner, ?_⟩
    have hid : stream.idOf c = none := by
      rw [ConnectionStream.idOf, if_neg]
      exact fun hand => hnone c hand.1 hand.2
    rw [hid]
    rfl

/-- An object gives up its id, and the other objects hold what they held. -/
theorem Intact.release (hintact : h.Intact) {streams : List (Option ConnectionStream)}
    (hshares : ∀ other, some other ∈ streams → other.isValid = true →
      ∃ c < h.connections.length, other.freeStreamIds = some c)
    (hheld : ∀ c, (held ⟨h.connections, streams⟩ c : Multiset UInt16) + (stream.idOf c).toList =
      h.held c) :
    ({ h.release stream with streams } : StreamHeap).Intact := by
  constructor
  · intro other hother hvalid
    obtain ⟨c, hc, hshared⟩ := hshares other hother hvalid
    exact ⟨c, by rwa [length_connections_release], hshared⟩
  · intro c owner howner hlive
    obtain ⟨old, hold, rfl⟩ := getElem?_release howner
    have hexact := hintact.free_add_held c old hold hlive
    rw [← hheld c] at hexact
    rw [← hexact, ← Multiset.coe_add]
    -- the id moves from the held ones to the free ones
    rw [add_comm (held ⟨h.connections, streams⟩ c : Multiset UInt16), ← add_assoc,
      add_comm ((stream.idOf c).toList : Multiset UInt16)]
    rfl

/-- An operation that puts no id back. -/
theorem Intact.of_streams (hintact : h.Intact) {streams : List (Option ConnectionStream)}
    (hshares : ∀ other, some other ∈ streams → other.isValid = true →
      ∃ c < h.connections.length, other.freeStreamIds = some c)
    (hheld : ∀ c, (held ⟨h.connections, streams⟩ c : Multiset UInt16) = h.held c) :
    ({ h with streams } : StreamHeap).Intact :=
  @Intact.release h .invalid hintact streams hshares fun c => by
    rw [hheld c]
    exact add_zero _

/-- What one write to an object does to the held ids. -/
theorem held_set {streams : List (Option ConnectionStream)} {old : Option ConnectionStream}
    (new : Option ConnectionStream) (hold : streams[i]? = some old) (c : Nat) :
    (held ⟨h.connections, streams.set i new⟩ c : Multiset UInt16) +
        (old.bind (ConnectionStream.idOf c)).toList =
      (held ⟨h.connections, streams⟩ c : Multiset UInt16) +
        (new.bind (ConnectionStream.idOf c)).toList :=
  Math.filterMap_set_add new hold

theorem held_append (streams more : List (Option ConnectionStream)) (c : Nat) :
    held ⟨h.connections, streams ++ more⟩ c =
      held ⟨h.connections, streams⟩ c ++ held ⟨h.connections, more⟩ c :=
  List.filterMap_append

/-- An object is made invalid. -/
theorem held_set_invalid (new : Option ConnectionStream) (hstream : h.stream? i = some stream)
    (hnew : ∀ c, new.bind (ConnectionStream.idOf c) = none) (c : Nat) :
    (held ⟨h.connections, h.streams.set i new⟩ c : Multiset UInt16) + (stream.idOf c).toList =
      h.held c := by
  have hset := held_set (h := h) new (getElem?_of_stream hstream) c
  rw [hnew c] at hset
  exact hset.trans (add_zero _)

theorem shares_set (hintact : h.Intact) (new : Option ConnectionStream)
    (hnew : ∀ other, new = some other → other.isValid = true → some other ∈ h.streams) :
    ∀ other, some other ∈ h.streams.set i new → other.isValid = true →
      ∃ c < h.connections.length, other.freeStreamIds = some c := by
  intro other hother hvalid
  rcases List.mem_or_eq_of_mem_set hother with hmem | heq
  · exact hintact.shares other hmem hvalid
  · exact hintact.shares other (hnew other heq.symm hvalid) hvalid

/-! ## The operations keep the ids -/

theorem Intact.close (hintact : h.Intact) (hstream : h.stream? i = some stream) :
    (h.close i stream).Intact := by
  apply hintact.release
  · exact shares_set hintact _ fun other heq hvalid => by cases heq; cases hvalid
  · exact held_set_invalid _ hstream fun c => idOf_of_not_valid rfl

theorem Intact.destroy (hintact : h.Intact) (hstream : h.stream? i = some stream) :
    (h.destroy i stream).Intact := by
  apply hintact.release
  · exact shares_set hintact _ fun other heq _ => by cases heq
  · exact held_set_invalid _ hstream fun c => rfl

theorem Intact.moveConstruct (hintact : h.Intact) (hstream : h.stream? i = some stream) :
    (h.moveConstruct i stream).Intact := by
  apply hintact.of_streams
  · intro other hother hvalid
    rcases List.mem_append.mp hother with hmem | hnew
    · apply shares_set hintact (some stream.movedFrom) _ other hmem hvalid
      exact fun moved heq hmoved => by cases heq; cases hmoved
    · cases List.mem_singleton.mp hnew
      exact hintact.shares stream (mem_of_stream hstream) hvalid
  · intro c
    have hset := held_set_invalid (some stream.movedFrom) hstream
      (fun c => idOf_of_not_valid rfl) c
    rw [held_append, ← hset, ← Multiset.coe_add]
    cases hid : stream.idOf c <;> simp [held, hid]

theorem Intact.moveAssign (hintact : h.Intact) (htarget : h.stream? i = some target)
    (hsource : h.stream? j = some source) : (h.moveAssign i j target source).Intact := by
  rw [StreamHeap.moveAssign]
  split
  · exact hintact
  next hne =>
    apply hintact.release
    · intro other hother hvalid
      rcases List.mem_or_eq_of_mem_set hother with hmem | heq
      · apply shares_set hintact (some source) _ other hmem hvalid
        exact fun moved heq _ => by cases heq; exact mem_of_stream hsource
      · cases heq
        cases hvalid
    · intro c
      -- the id of the target is put back, the id of the source changes its holder
      have hfirst := held_set (h := h) (some source) (getElem?_of_stream htarget) c
      have hkept : (h.streams.set i (some source))[j]? = some (some source) := by
        rw [List.getElem?_set_ne hne]
        exact getElem?_of_stream hsource
      have hsecond := held_set (h := h) (some source.movedFrom) hkept c
      rw [Option.bind_some, Option.bind_some] at hfirst hsecond
      rw [@idOf_of_not_valid source.movedFrom c rfl, Option.toList_none] at hsecond
      have hall : (held ⟨h.connections, (h.streams.set i (some source)).set j
          (some source.movedFrom)⟩ c : Multiset UInt16) + (target.idOf c).toList +
            (source.idOf c).toList = (h.held c : Multiset UInt16) + (source.idOf c).toList := by
        rw [add_right_comm, hsecond, Multiset.coe_nil, add_zero]
        exact hfirst
      exact add_right_cancel hall

theorem Intact.create (hintact : h.Intact) :
    ({ h with streams := h.streams ++ [some .invalid] } : StreamHeap).Intact := by
  apply hintact.of_streams
  · intro other hother hvalid
    rcases List.mem_append.mp hother with hmem | hnew
    · exact hintact.shares other hmem hvalid
    · cases List.mem_singleton.mp hnew
      cases hvalid
  · intro c
    rw [held_append]
    simp [held, ConnectionStream.idOf, ConnectionStream.invalid]

theorem Intact.openStream (hintact : h.Intact) (hlive : h.live? c = some owner) :
    (h.openStream c owner).Intact := by
  obtain ⟨howner, hisLive⟩ := live?_eq_some hlive
  have hlt : c < h.connections.length := (List.getElem?_eq_some_iff.mp howner).1
  rw [StreamHeap.openStream]
  split
  · exact hintact.create
  next streamId rest hfree =>
    constructor
    · intro other hother hvalid
      simp only [List.length_set]
      rcases List.mem_append.mp hother with hmem | hnew
      · exact hintact.shares other hmem hvalid
      · cases List.mem_singleton.mp hnew
        exact ⟨c, hlt, rfl⟩
    · intro d other hother hotherLive
      have hheld : held ⟨h.connections, h.streams ++ [some (.create streamId c)]⟩ d =
          h.held d ++ if c = d then [streamId] else [] := by
        rw [held_append]
        by_cases hcd : c = d <;>
          simp [held, ConnectionStream.idOf, ConnectionStream.create, hcd]
      rw [List.getElem?_set] at hother
      by_cases hcd : c = d
      · subst hcd
        rw [if_pos rfl, if_pos hlt] at hother
        cases hother
        have hexact := hintact.free_add_held c owner howner hisLive
        rw [hfree] at hexact
        rw [← hexact]
        refine (congrArg (fun l : List UInt16 => (rest : Multiset UInt16) + l) hheld).trans ?_
        rw [if_pos rfl, Multiset.coe_add, Multiset.coe_add, Multiset.coe_eq_coe]
        exact (List.perm_append_comm.trans (List.perm_append_comm.append_right _)).trans
          (by simpa using List.perm_append_comm)
      · rw [if_neg hcd] at hother
        have hexact := hintact.free_add_held d other hother hotherLive
        rw [if_neg hcd, List.append_nil] at hheld
        exact (congrArg (fun l : List UInt16 =>
          (other.freeStreamIds : Multiset UInt16) + l) hheld).trans hexact

theorem Intact.connect (hintact : h.Intact) (maxStreams : MaxStreams) :
    ({ h with
      connections := h.connections ++ [.create h.connections.length maxStreams] } :
        StreamHeap).Intact := by
  constructor
  · intro other hother hvalid
    obtain ⟨c, hc, hshared⟩ := hintact.shares other hother hvalid
    exact ⟨c, by rw [List.length_append]; exact Nat.lt_add_right _ hc, hshared⟩
  · intro c owner howner hlive
    rcases Math.getElem?_concat_some howner with hold | ⟨rfl, rfl⟩
    · exact hintact.free_add_held c owner hold hlive
    · -- no object can share the vector of a connection that was not there
      have hnone : h.held h.connections.length = [] := by
        apply List.filterMap_eq_nil_iff.mpr
        intro object hobject
        cases object with
        | none => rfl
        | some stream =>
          rw [Option.bind_some, ConnectionStream.idOf, if_neg]
          rintro ⟨hvalid, hshared⟩
          obtain ⟨c, hc, hc'⟩ := hintact.shares stream hobject hvalid
          rw [hshared] at hc'
          cases hc'
          exact Nat.lt_irrefl _ hc
      have hheld : held ⟨h.connections ++ [.create h.connections.length maxStreams], h.streams⟩
          h.connections.length = [] := hnone
      rw [hheld]
      exact add_zero _

theorem Intact.destroyConnection (hintact : h.Intact) :
    (h.destroyConnection c owner).Intact := by
  constructor
  · intro other hother hvalid
    obtain ⟨d, hd, hshared⟩ := hintact.shares other hother hvalid
    exact ⟨d, by rw [StreamHeap.destroyConnection, List.length_set]; exact hd, hshared⟩
  · intro d other hother hlive
    rw [StreamHeap.destroyConnection, List.getElem?_set] at hother
    split at hother
    · split at hother
      · cases hother
        cases hlive
      · cases hother
    · exact hintact.free_add_held d other hother hlive

/-- An operation keeps the ids. -/
theorem Intact.step {h' : StreamHeap} {event : Event} (hintact : h.Intact)
    (hstep : h.step event = some h') : h'.Intact := by
  cases event with
  | connect maxStreams =>
    cases hstep
    exact hintact.connect maxStreams
  | destroyConnection c =>
    obtain ⟨owner, -, rfl⟩ := Option.map_eq_some_iff.mp hstep
    exact hintact.destroyConnection
  | create =>
    cases hstep
    exact hintact.create
  | openStream c =>
    obtain ⟨owner, hlive, rfl⟩ := Option.map_eq_some_iff.mp hstep
    exact hintact.openStream hlive
  | close i =>
    obtain ⟨stream, hstream, rfl⟩ := Option.map_eq_some_iff.mp hstep
    exact hintact.close hstream
  | moveConstruct i =>
    obtain ⟨stream, hstream, rfl⟩ := Option.map_eq_some_iff.mp hstep
    exact hintact.moveConstruct hstream
  | moveAssign i j =>
    rw [StreamHeap.step] at hstep
    split at hstep
    next htarget hsource =>
      cases hstep
      exact hintact.moveAssign htarget hsource
    · cases hstep
  | destroy i =>
    obtain ⟨stream, hstream, rfl⟩ := Option.map_eq_some_iff.mp hstep
    exact hintact.destroy hstream
  | returnConnection c i hasWaiter =>
    obtain ⟨stream, hstream, hrest⟩ := Option.bind_eq_some_iff.mp hstep
    obtain ⟨owner, hlive, hpure⟩ := Option.bind_eq_some_iff.mp hrest
    cases hpure
    have hclosed := hintact.close hstream
    cases hasWaiter with
    | false => exact hclosed
    | true => exact hclosed.openStream hlive

theorem intact_of_reachable (hreach : system.Reachable h) : h.Intact := by
  refine hreach.invariant _ ?_ fun s a t hs hstep => hs.step hstep
  rintro _ rfl
  exact ⟨fun _ hmem => (by cases hmem), fun c owner howner => by cases howner⟩

/-! ## The ids of a live connection -/

/-- The vector of a new connection, with its end first, counts up from one. -/
theorem toNat_create (c : Nat) (maxStreams : MaxStreams) :
    (StreamOwner.create c maxStreams).freeStreamIds.map UInt16.toNat =
      List.range' 1 (maxStreams.value - 1) := by
  have hle := maxStreams.le_255
  have hmap : ((List.range (maxStreams.value - 1)).map fun i =>
      UInt16.ofNat (maxStreams.value - 1 - i)).map UInt16.toNat =
        (List.range' 1 (maxStreams.value - 1)).reverse := by
    rw [List.map_map, List.reverse_range']
    apply List.map_congr_left
    intro i _
    rw [Function.comp_apply, UInt16.toNat_ofNat']
    omega
  rw [StreamOwner.create, List.map_reverse, hmap, List.reverse_reverse]

/-- What holds of the ids of a connection. -/
structure IdsExact (h : StreamHeap) (c : Nat) (owner : StreamOwner) : Prop where
  /-- Free and held ids together are `1` to `maxStreams - 1`, each once. -/
  perm : ((owner.freeStreamIds ++ h.held c).map UInt16.toNat).Perm
    (List.range' 1 (owner.maxStreams.value - 1))
  /-- Stream zero is neither free nor handed out. -/
  zero_notMem : (0 : UInt16) ∉ owner.freeStreamIds ++ h.held c
  freeStreamsCount : owner.getFreeStreamsCount + (h.held c).length = owner.maxStreams.value - 1
  allStreamsFree : owner.isAllStreamsFree = true ↔ h.held c = []

/-- In every reachable state no id of a live connection is shared or lost. -/
theorem ids_exact (hreach : system.Reachable h) (howner : h.connections[c]? = some owner)
    (hlive : owner.isLive = true) : h.IdsExact c owner := by
  have hexact := (intact_of_reachable hreach).free_add_held c owner howner hlive
  rw [Multiset.coe_add, Multiset.coe_eq_coe] at hexact
  have hperm := hexact.map UInt16.toNat
  rw [toNat_create] at hperm
  have hcount : owner.freeStreamIds.length + (h.held c).length = owner.maxStreams.value - 1 := by
    have hlength := hperm.length_eq
    rwa [List.length_map, List.length_append, List.length_range'] at hlength
  have htwo := owner.maxStreams.two_le
  refine ⟨hperm, ?_, hcount, ?_⟩
  · intro hzero
    have hmem := hperm.mem_iff.mp (List.mem_map_of_mem hzero)
    rw [List.mem_range'_1] at hmem
    exact absurd hmem.1 (by decide)
  · rw [StreamOwner.isAllStreamsFree, decide_eq_true_iff, ← List.length_eq_zero_iff]
    omega

/-- A run that moves a stream onto another one and returns it. -/
theorem ids_exact_run :
    ∃ h owner, system.Reachable h ∧ h.connections[0]? = some owner ∧ owner.isLive = true ∧
      h.IdsExact 0 owner := by
  let events : List Event :=
    [.connect ⟨4, by decide, by decide⟩, .openStream 0, .openStream 0, .moveConstruct 0,
      .moveAssign 1 2, .moveAssign 1 1, .returnConnection 0 1 true, .destroy 2]
  have hsome : (system.run ⟨[], []⟩ events).isSome := by decide
  obtain ⟨h, hrun⟩ := Option.isSome_iff_exists.mp hsome
  have hreach := Math.TransitionSystem.reachable_of_run rfl hrun
  have hconnection : ∃ owner, h.connections[0]? = some owner ∧ owner.isLive = true := by
    have hall : ((system.run ⟨[], []⟩ events).bind fun h => h.live? 0).isSome := by decide
    rw [hrun] at hall
    obtain ⟨owner, howner⟩ := Option.isSome_iff_exists.mp hall
    exact ⟨owner, live?_eq_some howner⟩
  obtain ⟨owner, howner, hlive⟩ := hconnection
  exact ⟨h, owner, hreach, howner, hlive, ids_exact hreach howner hlive⟩

end StreamHeap

end CqlDriver
