import Mathlib.Algebra.Order.Ring.Int

/-!
# Text streams

Integers are written in decimal. Output that is shorter than the field width is padded on its
left with the fill character, which stays; the width belongs to the next output only.

## Main definitions

* `OStream` — a `std::ostream` in its default format
* `OStream.insert` — formatted output
-/

namespace CqlDriver

/-- A text stream and the part of its format that is used. -/
structure OStream where
  text : List Char
  width : Int
  fill : Char

namespace OStream

def setfill (stream : OStream) (fill : Char) : OStream := { stream with fill := fill }

def setw (stream : OStream) (width : Int) : OStream := { stream with width := width }

/-- Formatted output is padded on its left, and takes the field width away. -/
def insert (stream : OStream) (chars : List Char) : OStream :=
  { stream with
    text := stream.text ++ List.replicate (stream.width - chars.length).toNat stream.fill ++ chars
    width := 0 }

theorem insert_of_width_zero (text chars : List Char) (fill : Char) :
    insert ⟨text, 0, fill⟩ chars = ⟨text ++ chars, 0, fill⟩ := by
  have hpadding : ((0 : Int) - chars.length).toNat = 0 := by omega
  rw [insert, hpadding, List.replicate_zero, List.append_nil]

end OStream

end CqlDriver
