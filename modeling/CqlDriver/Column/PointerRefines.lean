import CqlDriver.Column.Codec
import CqlDriver.Column.PointerTypes

/-!
# Pointers and the bytes that are left

The decode functions on pointers do what the decode functions on the bytes that are left do: the same
objects and the same exceptions, and the pointer stands where those bytes begin. So the codec is right
for pointers too.

## Main definitions

* `Pointer.Class.Refines` — a class on pointers and one on bytes
* `ValueType.pointer` — the class of a type on pointers

## Main results

* `ValueType.refines` — every column type
* `ValueType.decode_encoded_at` — decoding at a pointer what was encoded
-/

namespace CqlDriver

open Math (Memory Scan Decode Mirrors Follows slice take_slice drop_slice length_slice toSigned
  ofBigEndian ofSigned)

namespace Pointer

variable {σ α κ ν : Type}

/-- Bodies and columns are decoded like those in the bytes that are left. -/
structure Class.Refines (c : Class α) (d : ColumnClass α) : Prop where
  init : c.init = d.init
  reset : c.reset = d.reset
  /-- A size is a 32-bit integer. -/
  body : ∀ ptr size : Nat, size < 2 ^ 31 → Mirrors ptr size (c.decodeBody ptr size) d.decodeBody
  decode : ∀ stop, Follows stop (c.decode stop) d.decode

/-! ## Sizes -/

/-- A size is a signed integer of four bytes. -/
theorem announcedSize_lt (memory : Memory) (ptr : Nat) : announcedSize memory ptr < 2 ^ 31 := by
  have hbytes := Math.ofBigEndian_lt (slice memory ptr 4)
  rw [length_slice] at hbytes
  rw [announcedSize, toSigned]
  split
  · omega
  · omega

theorem follows_decodeSized {decodeBody : Nat → Int → Scan Failure α Unit}
    {onNull : Scan Failure (α × Nat) Unit} {body null : Decoder α Unit}
    (hbody : ∀ ptr size : Nat, size < 2 ^ 31 → Mirrors ptr size (decodeBody ptr size) body)
    (hnull : ∀ memory value ptr stop, ptr + 4 ≤ stop →
      Math.Agrees memory stop (onNull memory (value, ptr))
        (null ⟨value, slice memory ptr (stop - ptr)⟩)) (stop : Nat) :
    Follows stop (decodeSized decodeBody onNull stop) (ColumnTrait.decodeSized body null) := by
  intro memory value ptr hle
  rw [ColumnTrait.decodeSized]
  by_cases hshort : stop < ptr + 4
  · have hless : stop - ptr < 4 := by omega
    rw [decodeSized_short hshort]
    simp only [length_slice, if_pos hless]
    exact ⟨rfl, rfl⟩
  · have hlong : ¬ stop - ptr < 4 := by omega
    rw [decodeSized_long hshort]
    simp only [length_slice, if_neg hlong, take_slice memory ptr (Nat.not_lt.mp hlong),
      drop_slice]
    rw [← announcedSize]
    by_cases hnonneg : 0 ≤ announcedSize memory ptr
    · obtain ⟨size, hsize⟩ := Int.eq_ofNat_of_zero_le hnonneg
      have hlt : size < 2 ^ 31 := by
        have hsizeLt := announcedSize_lt memory ptr
        omega
      rw [hsize, if_pos (Int.natCast_nonneg size), Int.toNat_natCast]
      by_cases hfits : stop - ptr < 4 + size
      · have hfound : stop < ptr ∨ (stop : Int) - ptr < 4 + size := by omega
        rw [if_pos hfits, decodeFound, if_pos (Int.natCast_nonneg size), if_pos hfound]
        exact ⟨rfl, rfl⟩
      · rw [if_neg hfits, decodeFound_body (Int.natCast_nonneg size)
          (by rw [Int.toNat_natCast]; omega)]
        rw [take_slice memory (ptr + 4) (show size ≤ stop - ptr - 4 by omega)]
        have hmirrors := hbody (ptr + 4) size hlt memory value
        rw [Decode.inside]
        dsimp only
        cases hd : body ⟨value, slice memory (ptr + 4) size⟩ with
        | ok a c =>
          rw [hd] at hmirrors
          simp only [Math.Outcome.after, hmirrors.1, hmirrors.2, Int.toNat_natCast, Math.Agrees,
            true_and]
          exact ⟨by omega, by rw [Nat.sub_sub]⟩
        | error e c =>
          rw [hd] at hmirrors
          simp only [Math.Outcome.after, hmirrors.1, hmirrors.2, Math.Agrees, and_self]
    · rw [if_neg hnonneg, decodeFound, if_neg hnonneg]
      exact hnull memory value ptr stop (by omega)

/-- With its size in front, a column is decoded alike if its body is. -/
theorem column_refines {init : α} {reset : α → α} {encodeBody : α → Bytes → Bytes}
    {decodeBody : Nat → Int → Scan Failure α Unit} {body : Decoder α Unit}
    (h : ∀ ptr size : Nat, size < 2 ^ 31 → Mirrors ptr size (decodeBody ptr size) body) :
    (column init reset decodeBody).Refines (ColumnTrait.column init reset encodeBody body) where
  init := rfl
  reset := rfl
  body := h
  decode := follows_decodeSized h fun _ _ _ _ _ => ⟨rfl, rfl⟩

/-- A value that may be null is decoded alike if the value is. -/
theorem Nullable.refines {c : Class α} {d : ColumnClass α} (h : c.Refines d) :
    (Nullable.column c).Refines (CqlDriver.Nullable.column d) := by
  have hbody : ∀ ptr size : Nat, size < 2 ^ 31 → Mirrors ptr size (decodeBody c ptr size)
      (CqlDriver.Nullable.decodeBody d) := by
    intro ptr size hlt memory nullable
    have hvalue := h.body ptr size hlt memory nullable.value
    rw [decodeBody, if_pos (Int.natCast_nonneg size), CqlDriver.Nullable.decodeBody]
    cases hd : d.decodeBody ⟨nullable.value, slice memory ptr size⟩ with
    | ok a e =>
      rw [hd] at hvalue
      rw [Decode.bind_ok (Decode.on_ok hd), Scan.bind_ok (by exact hvalue.1)]
      exact ⟨rfl, congrArg (CqlDriver.Nullable.mk · false) hvalue.2⟩
    | error failure e =>
      rw [hd] at hvalue
      have hon : Decode.on CqlDriver.Nullable.value
          (fun value nullable => { nullable with value }) d.decodeBody
          ⟨nullable, slice memory ptr size⟩ =
            .error failure ⟨{ nullable with value := e.object }, e.rest⟩ := by
        rw [Decode.on, hd]
      rw [Decode.bind_error hon, Scan.bind_error (by exact hvalue.1)]
      exact ⟨rfl, congrArg (CqlDriver.Nullable.mk · nullable.isNull) hvalue.2⟩
  have hinit : (Nullable.column c).init = (CqlDriver.Nullable.column d).init :=
    congrArg (CqlDriver.Nullable.mk · true) h.init
  have hreset : (Nullable.column c).reset = (CqlDriver.Nullable.column d).reset := by
    funext nullable
    exact congrArg (fun reset => CqlDriver.Nullable.mk (reset nullable.value) true) h.reset
  refine ⟨hinit, hreset, hbody, follows_decodeSized hbody fun memory nullable ptr stop hlong => ?_⟩
  refine ⟨rfl, congrFun hreset nullable, hlong, ?_⟩
  show (slice memory ptr (stop - ptr)).drop 4 = slice memory (ptr + 4) (stop - (ptr + 4))
  rw [drop_slice, Nat.sub_sub]

/-! ## Scalar types -/

/-- Bytes whose number is fixed, or none. -/
theorem mirrors_decodeFixed {width : Nat} {lengthNotMatched : Failure} {empty : α}
    {ofBytes : Bytes → α} (ptr size : Nat) :
    Mirrors ptr size (decodeFixed width lengthNotMatched empty ofBytes ptr size)
      (CqlDriver.decodeFixed width lengthNotMatched empty ofBytes) := by
  intro memory value
  rw [CqlDriver.decodeFixed, Decode.bind_ok Decode.remaining_apply]
  dsimp only
  rw [length_slice, decodeFixed]
  by_cases hzero : size = 0
  · rw [if_pos hzero, if_pos (Int.natCast_eq_zero.mpr hzero)]
    exact ⟨rfl, rfl⟩
  · rw [if_neg hzero, if_neg (mt Int.natCast_eq_zero.mp hzero)]
    by_cases hmatched : size = width
    · rw [if_neg (not_not.mpr hmatched), if_neg (not_not.mpr (Int.natCast_inj.mpr hmatched))]
      subst hmatched
      exact ⟨rfl, rfl⟩
    · rw [if_pos hmatched, if_pos (mt Int.natCast_inj.mp hmatched)]
      exact ⟨rfl, rfl⟩

/-- A body of the right size is stored. -/
theorem IntegerBase.decodeBody_width {width : Nat} (h : width ≠ 0) (memory : Memory) (ptr : Nat)
    (value : CqlDriver.IntegerBase.Value width) :
    IntegerBase.decodeBody width ptr width memory value =
      ⟨Math.inspected ptr width, CqlDriver.IntegerBase.ofBytes width (slice memory ptr width),
        .ok ()⟩ := by
  rw [IntegerBase.decodeBody, decodeFixed, if_neg (mt Int.natCast_eq_zero.mp h),
    if_neg (not_not.mpr rfl), Scan.load_bind]
  simp [Scan.update, Math.Outcome.after]

theorem IntegerBase.mirrors (width ptr size : Nat) :
    Mirrors ptr size (IntegerBase.decodeBody width ptr size)
      (CqlDriver.IntegerBase.decodeBody : Decoder (CqlDriver.IntegerBase.Value width) Unit) :=
  mirrors_decodeFixed ptr size

theorem StringBase.mirrors (ptr size : Nat) :
    Mirrors ptr size (StringBase.decodeBody ptr size) CqlDriver.StringBase.decodeBody := by
  intro memory value
  rw [StringBase.decodeBody, if_pos (Int.natCast_nonneg size)]
  exact ⟨rfl, rfl⟩

/-- The sign that is put in front is that of the first byte. -/
theorem VarInt.mirrors (ptr size : Nat) (hlt : size < 2 ^ 31) :
    Mirrors ptr size (VarInt.decodeBody ptr size) CqlDriver.VarInt.decodeBody := by
  intro memory value
  have hsize : ofSigned 64 (size : Int) = size := by
    rw [ofSigned]
    omega
  have hbody : CqlDriver.VarInt.decodeBody ⟨value, slice memory ptr size⟩ =
      if size = 0 then .ok () ⟨0, slice memory ptr size⟩
      else if 8 < size then .error CqlDriver.VarInt.tooLarge ⟨value, slice memory ptr size⟩
      else .ok () ⟨CqlDriver.IntegerBase.ofBytes 8 (CqlDriver.VarInt.pad (slice memory ptr size)),
        slice memory ptr size⟩ := by
    rw [CqlDriver.VarInt.decodeBody, Decode.bind_ok Decode.remaining_apply]
    simp only [length_slice]
    split
    · rfl
    · split
      · rfl
      · rfl
  rw [hbody, decodeBody]
  by_cases hne : size = 0
  · rw [if_pos hne, if_pos (Int.natCast_eq_zero.mpr hne)]
    exact ⟨rfl, rfl⟩
  · rw [if_neg hne, if_neg (mt Int.natCast_eq_zero.mp hne), hsize, Int.toNat_natCast]
    by_cases hlarge : 8 < size
    · rw [if_pos hlarge, if_pos hlarge]
      exact ⟨rfl, rfl⟩
    · rw [if_neg hlarge, if_neg hlarge]
      -- the bytes begin with the one that was looked at
      have hcons : slice memory ptr size = memory ptr :: slice memory (ptr + 1) (size - 1) := by
        obtain ⟨n, rfl⟩ := Nat.exists_eq_succ_of_ne_zero hne
        rfl
      have hfirst : (slice memory ptr 1).any CqlDriver.VarInt.isNegative =
          CqlDriver.VarInt.isNegative (memory ptr) := Bool.or_false _
      have hlength : (slice memory (ptr + 1) (size - 1)).length + 1 = size := by
        rw [length_slice]
        omega
      refine ⟨rfl, ?_⟩
      show CqlDriver.IntegerBase.ofBytes 8 (List.replicate (8 - size) (if (slice memory ptr 1).any
        CqlDriver.VarInt.isNegative then 0xff else 0) ++ slice memory ptr size) = _
      rw [hfirst, hcons, CqlDriver.VarInt.pad, hlength]

theorem Inet.mirrors (ptr size : Nat) :
    Mirrors ptr size (Inet.decodeBody ptr size) CqlDriver.Inet.decodeBody := by
  intro memory value
  by_cases hzero : size = 0
  · subst hzero
    exact ⟨rfl, rfl⟩
  · by_cases hv4 : size = 4
    · subst hv4
      exact ⟨rfl, rfl⟩
    · by_cases hv6 : size = 16
      · subst hv6
        exact ⟨rfl, rfl⟩
      · have hbytes : CqlDriver.Inet.decodeBody ⟨value, slice memory ptr size⟩ =
            .error CqlDriver.Inet.unsupportedLength ⟨value, slice memory ptr size⟩ := by
          rw [CqlDriver.Inet.decodeBody, Decode.bind_ok Decode.remaining_apply]
          simp [length_slice, hzero, hv4, hv6]
        rw [hbytes, decodeBody, if_neg (by omega), if_neg (by omega), if_neg (by omega)]
        exact ⟨rfl, rfl⟩

/-- The result of decoding a part of the object from a part of the bytes. -/
theorem mirrored_on (get : σ → α) (set : α → σ → σ) {m : Scan Failure α Unit}
    {body : Decoder α Unit} {ptr size : Nat} (h : Mirrors ptr size m body) (memory : Memory)
    (value : σ) (rest : Bytes) :
    Math.Mirrored (Scan.on get set m memory value)
      (Decode.on get set (Decode.inside (slice memory ptr size) body) ⟨value, rest⟩) := by
  have hpart := h memory (get value)
  rw [Decode.on, Decode.inside]
  dsimp only
  cases hd : body ⟨get value, slice memory ptr size⟩ with
  | ok a c =>
    rw [hd] at hpart
    exact ⟨hpart.1, congrArg (set · value) hpart.2⟩
  | error failure c =>
    rw [hd] at hpart
    exact ⟨hpart.1, congrArg (set · value) hpart.2⟩

theorem Decimal.mirrors (ptr size : Nat) (hlt : size < 2 ^ 31) :
    Mirrors ptr size (Decimal.decodeBody ptr size) CqlDriver.Decimal.decodeBody := by
  intro memory value
  by_cases hzero : size = 0
  · subst hzero
    exact ⟨rfl, rfl⟩
  · by_cases hshort : size < 4 + 1
    · have hbytes : CqlDriver.Decimal.decodeBody ⟨value, slice memory ptr size⟩ =
          .error CqlDriver.Decimal.lengthNotEnough ⟨value, slice memory ptr size⟩ := by
        rw [CqlDriver.Decimal.decodeBody, Decode.bind_ok Decode.remaining_apply]
        simp [length_slice, hzero, hshort]
      rw [hbytes, decodeBody, if_neg (by omega), if_pos (by omega)]
      exact ⟨rfl, rfl⟩
    · have hfour : 4 ≤ size := by omega
      have hrest : (size : Int) - 4 = ((size - 4 : Nat) : Int) := by omega
      let scaled : CqlDriver.Decimal.Value :=
        (CqlDriver.IntegerBase.ofBytes 4 (slice memory ptr 4), value.2)
      have hscale : Decode.on Prod.fst (fun scale value => (scale, value.2))
          (Decode.inside ((slice memory ptr size).take 4) CqlDriver.IntegerBase.decodeBody)
          ⟨value, slice memory ptr size⟩ = .ok () ⟨scaled, slice memory ptr size⟩ := by
        rw [take_slice memory ptr hfour]
        rfl
      have hunscaled := mirrored_on Prod.snd (fun unscaled value => (value.1, unscaled))
        (VarInt.mirrors (ptr + 4) (size - 4) (by omega)) memory scaled (slice memory ptr size)
      rw [← drop_slice] at hunscaled
      rw [decodeBody, if_neg (by omega), if_neg (by omega), CqlDriver.Decimal.decodeBody,
        Decode.bind_ok Decode.remaining_apply]
      dsimp only
      rw [length_slice, if_neg hzero, if_neg hshort, Decode.bind_ok hscale, hrest]
      exact hunscaled

theorem scalarColumn_refines (s : Scalar) : (scalarColumn s).Refines s.column := by
  cases s with
  | boolean | tinyInt => exact column_refines fun ptr size _ => IntegerBase.mirrors 1 ptr size
  | smallInt => exact column_refines fun ptr size _ => IntegerBase.mirrors 2 ptr size
  | int => exact column_refines fun ptr size _ => IntegerBase.mirrors 4 ptr size
  | bigInt | counter => exact column_refines fun ptr size _ => IntegerBase.mirrors 8 ptr size
  | ascii | text | blob => exact column_refines fun ptr size _ => StringBase.mirrors ptr size
  | varInt => exact column_refines VarInt.mirrors
  | decimal => exact column_refines Decimal.mirrors
  | inet => exact column_refines fun ptr size _ => Inet.mirrors ptr size

/-! ## Containers -/

/-- The number of the elements, from four bytes. -/
theorem onLocal_decodeBody (memory : Memory) (ptr : Nat) (value : σ) :
    (Scan.onLocal 0 (IntegerBase.decodeBody 4 ptr 4) : Scan Failure σ _) memory value =
      ⟨Math.inspected ptr 4, value, .ok (CqlDriver.IntegerBase.ofBytes 4 (slice memory ptr 4))⟩ := by
  have hfixed := IntegerBase.decodeBody_width (by decide : 4 ≠ 0) memory ptr 0
  rw [Nat.cast_ofNat] at hfixed
  rw [Scan.onLocal, hfixed]
  rfl

theorem decodeSize_of_take {sizeNotEnough sizeNegative : Failure} {c c' : Math.Cursor σ}
    {bytes : Bytes} (h : Math.take sizeNotEnough 4 c = .ok bytes c') :
    ColumnClass.decodeSize sizeNotEnough sizeNegative c =
      if (CqlDriver.IntegerBase.ofBytes 4 bytes).toInt < 0 then .error sizeNegative c'
      else .ok (CqlDriver.IntegerBase.ofBytes 4 bytes).toInt.toNat c' := by
  rw [ColumnClass.decodeSize, Decode.bind_ok h]
  dsimp only
  split
  · rfl
  · rfl

/-- The elements are decoded alike if one is. -/
theorem mirrors_decodeElements {sizeNotEnough sizeNegative : Failure} {empty : σ}
    {decodeItem : Nat → Scan Failure (σ × Nat) Unit} {item : Decoder σ Unit}
    (h : ∀ stop, Follows stop (decodeItem stop) item) (ptr size : Nat) :
    Mirrors ptr size (decodeElements sizeNotEnough sizeNegative empty decodeItem ptr size) (do
      let count ← ColumnClass.decodeSize sizeNotEnough sizeNegative
      Decode.update fun _ => empty
      Decode.times item count) := by
  intro memory value
  rw [decodeElements]
  by_cases hshort : size < 4
  · have hsize : ColumnClass.decodeSize sizeNotEnough sizeNegative ⟨value, slice memory ptr size⟩ =
        .error sizeNotEnough ⟨value, slice memory ptr size⟩ :=
      Decode.bind_error (Math.take_short (by rwa [length_slice])) _
    rw [if_pos (by omega), Decode.bind_error hsize]
    exact ⟨rfl, rfl⟩
  · have htake : Math.take sizeNotEnough 4 ⟨value, slice memory ptr size⟩ =
        .ok (slice memory ptr 4) ⟨value, slice memory (ptr + 4) (size - 4)⟩ := by
      rw [Math.take, length_slice, if_neg hshort, take_slice memory ptr (Nat.not_lt.mp hshort),
        drop_slice]
    have hsize := @decodeSize_of_take _ sizeNotEnough sizeNegative _ _ _ htake
    have hlong : ¬ (size : Int) < 4 := by omega
    rw [if_neg hlong, Scan.bind_ok (congrArg Math.Outcome.result (onLocal_decodeBody memory ptr value)),
      onLocal_decodeBody]
    generalize (CqlDriver.IntegerBase.ofBytes 4 (slice memory ptr 4)) = count at hsize ⊢
    by_cases hnegative : count.toInt < 0
    · rw [if_pos hnegative] at hsize
      rw [Decode.bind_error hsize, if_pos hnegative]
      exact ⟨rfl, rfl⟩
    · have hitems := (h (ptr + size)).bind_round.times count.toInt.toNat memory empty (ptr + 4)
        (by omega)
      rw [Nat.add_sub_add_left] at hitems
      rw [if_neg hnegative] at hsize
      rw [Decode.bind_ok hsize, Decode.bind_ok (Decode.update_apply _), if_neg hnegative,
        Int.toNat_natCast]
      dsimp only
      rw [Scan.update_bind]
      exact hitems.withLocal.after (Math.inspected ptr 4)

theorem ListBase.refines {c : Class α} {d : ColumnClass α} (h : c.Refines d) :
    (ListBase.column c).Refines (CqlDriver.ListBase.column d) := by
  refine column_refines fun ptr size _ => mirrors_decodeElements (fun stop => ?_) ptr size
  rw [decodeItem, CqlDriver.ListBase.decodeItem, h.init]
  exact (Follows.update fun value => value ++ [d.init]).bind fun _ => (h.decode stop).onObject

/-- The unordered sets. -/
def unorderedSet (α : Type) [DecidableEq α] (order : IterationOrder) : SetType α where
  Value := UnorderedSet α
  empty := .empty
  emplace value item := value.emplace order item

theorem SetBase.refines [DecidableEq α] {c : Class α} {d : ColumnClass α} (order : IterationOrder)
    (h : c.Refines d) :
    (SetBase.column (unorderedSet α order) c).Refines (CqlDriver.SetBase.column order d) := by
  refine column_refines fun ptr size _ => mirrors_decodeElements (fun stop => ?_) ptr size
  rw [decodeItem, CqlDriver.SetBase.decodeItem, h.init]
  exact (h.decode stop).onLocalObject.bind fun item =>
    Follows.update fun value : UnorderedSet α => value.emplace order item

/-- The unordered maps. -/
def unorderedMap (κ ν : Type) [DecidableEq κ] (order : IterationOrder) : MapType κ ν where
  Value := UnorderedMap κ ν
  empty := .empty
  emplace value entry := value.emplace order entry

theorem MapBase.refines [DecidableEq κ] {k : Class κ} {v : Class ν} {k' : ColumnClass κ}
    {v' : ColumnClass ν} (order : IterationOrder) (hk : k.Refines k') (hv : v.Refines v') :
    (MapBase.column (unorderedMap κ ν order) k v).Refines
      (CqlDriver.MapBase.column order k' v') := by
  refine column_refines fun ptr size _ => mirrors_decodeElements (fun stop => ?_) ptr size
  rw [decodeItem, CqlDriver.MapBase.decodeItem, hk.init, hv.init]
  exact (hk.decode stop).onLocalObject.bind fun key => (hv.decode stop).onLocalObject.bind fun item =>
    Follows.update fun value : UnorderedMap κ ν => value.emplace order (key, item)

end Pointer

namespace ValueType

/-- The class of a type, on pointers. -/
def pointer (order : IterationOrder) : (type : ValueType) → Pointer.Class type.Value
  | scalar s => Pointer.scalarColumn s
  | nullable type => Pointer.Nullable.column (type.pointer order)
  | list element => Pointer.ListBase.column (element.pointer order)
  | set element => Pointer.SetBase.column (Pointer.unorderedSet _ order) (Pointer.scalarColumn element)
  | map key value => Pointer.MapBase.column (Pointer.unorderedMap _ _ order)
      (Pointer.scalarColumn key) (value.pointer order)

/-- On pointers, every column type is decoded as in the bytes that are left. -/
theorem refines (order : IterationOrder) (type : ValueType) :
    (type.pointer order).Refines (type.column order) := by
  induction type with
  | scalar s => exact Pointer.scalarColumn_refines s
  | nullable type ih => exact Pointer.Nullable.refines ih
  | list element ih => exact Pointer.ListBase.refines ih
  | set element => exact Pointer.SetBase.refines order (Pointer.scalarColumn_refines element)
  | map key value ih => exact Pointer.MapBase.refines order (Pointer.scalarColumn_refines key) ih

/-- The types are among those that stay inside. -/
theorem isColumnType (calendar : Pointer.Calendar) (order : IterationOrder) (type : ValueType) :
    Pointer.IsColumnType calendar (type.pointer order) := by
  have hscalar (s : Scalar) : Pointer.IsColumnType calendar (Pointer.scalarColumn s) :=
    .scalar (.scalar s)
  induction type with
  | scalar s => exact hscalar s
  | nullable type ih => exact .nullable ih
  | list element ih => exact .list ih
  | set element => exact .set _ (hscalar element)
  | map key value ih => exact .map _ (hscalar key) ih

/-- Decoding where a value was encoded stores the value and moves the pointer right behind it. -/
theorem decode_encoded_at (order : IterationOrder) (type : ValueType) {value : type.Value}
    (hkept : type.Kept value) (hfits : (type.column order).Fits value) {memory : Memory}
    {ptr stop : Nat} (hle : ptr ≤ stop) {rest : Bytes}
    (hmemory : slice memory ptr (stop - ptr) = (type.column order).encoded value ++ rest)
    (old : type.Value) :
    ∃ stored, (((type.pointer order).decode stop memory (old, ptr)).result = .ok ()) ∧
      ((type.pointer order).decode stop memory (old, ptr)).state =
        (stored, ptr + ((type.column order).encoded value).length) ∧ type.Same value stored := by
  obtain ⟨stored, hdecode, hsame⟩ :=
    (type.roundTrip order).decode_encoded value hkept hfits old rest
  have hagrees := (type.refines order).decode stop memory old ptr hle
  rw [hmemory, hdecode] at hagrees
  obtain ⟨hresult, hobject, hstop, hrest⟩ := hagrees
  refine ⟨stored, hresult, Prod.ext hobject ?_, hsame⟩
  have hbefore := congrArg List.length hmemory
  have hafter := congrArg List.length hrest
  rw [length_slice, List.length_append] at hbefore
  rw [length_slice] at hafter
  dsimp only at hafter ⊢
  omega

end ValueType

end CqlDriver
