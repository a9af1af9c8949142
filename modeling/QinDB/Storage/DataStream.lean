/-
# Storage.DataStream — integers and texts on a `QDataStream`

The stream writes every integer in the width of its C++ type, most significant byte
first. Reading past the end of the stream gives zero. The text type of the stream is a
parameter with the one law that matters here: what was written is read back, whatever
follows it. `QString.utf16` is the documented encoding: a length in bytes, then UTF-16
units.

* `streamRead_write`: an integer is read back in the width it was written in.
* `streamRead_wider`: read in a smaller width, its high bytes are read.
-/
import QinDB.Base.LittleEndian
import QinDB.Core.Types

namespace QinDB.Storage

open QinDB.Core QinDB.Base

set_option autoImplicit false

/-- Write an unsigned integer of `w` bytes. -/
def streamWrite (w n : Nat) : Bytes := (LittleEndian.encode w n).reverse

/-- Read an unsigned integer of `w` bytes. -/
def streamRead (w : Nat) (stream : Bytes) : Nat × Bytes :=
  if stream.length < w then (0, [])
  else (LittleEndian.decode (stream.take w).reverse, stream.drop w)

@[simp] theorem length_streamWrite (w n : Nat) : (streamWrite w n).length = w := by
  rw [streamWrite, List.length_reverse, LittleEndian.length_encode]

theorem streamRead_append {w : Nat} {front : Bytes} (width : front.length = w) (rest : Bytes) :
    streamRead w (front ++ rest) = (LittleEndian.decode front.reverse, rest) := by
  subst width
  have enough : ¬ (front ++ rest).length < front.length := by
    rw [List.length_append]
    omega
  rw [streamRead, if_neg enough, List.take_left, List.drop_left]

theorem streamRead_lt (w : Nat) (stream : Bytes) : (streamRead w stream).1 < 256 ^ w := by
  unfold streamRead
  split
  · exact Nat.pow_pos (by decide)
  · rename_i enough
    have bound := LittleEndian.decode_lt (stream.take w).reverse
    rwa [List.length_reverse, List.length_take, Nat.min_eq_left (not_lt.mp enough)] at bound

theorem streamRead_write {w n : Nat} (small : n < 256 ^ w) (rest : Bytes) :
    streamRead w (streamWrite w n ++ rest) = (n, rest) := by
  rw [streamRead_append (length_streamWrite w n), streamWrite, List.reverse_reverse,
    LittleEndian.decode_encode_of_lt w small]

/-- Written in `v + w` bytes and read in `v`, an integer loses its low `w` bytes, which stay
on the stream. -/
theorem streamRead_wider {v w n : Nat} (small : n < 256 ^ (v + w)) (rest : Bytes) :
    streamRead v (streamWrite (v + w) n ++ rest) = (n / 256 ^ w, streamWrite w n ++ rest) := by
  have high : n / 256 ^ w < 256 ^ v := by
    rw [Nat.div_lt_iff_lt_mul (Nat.pow_pos (by decide)), ← Nat.pow_add]
    exact small
  have split : streamWrite (v + w) n = streamWrite v (n / 256 ^ w) ++ streamWrite w n := by
    rw [streamWrite, Nat.add_comm, LittleEndian.encode_add, List.reverse_append]
    rfl
  rw [split, List.append_assoc, streamRead_write high]

/-! ## Texts -/

/-- The stream operators of a text type. -/
structure TextCodec (S : Type) where
  empty : S
  write : S → Bytes
  read : Bytes → Option (S × Bytes)
  read_write : ∀ text rest, read (write text ++ rest) = some (text, rest)

namespace TextCodec

variable {S : Type} (codec : TextCodec S)

/-- A text that cannot be read is left empty. -/
def readText (stream : Bytes) : S × Bytes := (codec.read stream).getD (codec.empty, [])

@[simp] theorem readText_write (text : S) (rest : Bytes) :
    codec.readText (codec.write text ++ rest) = (text, rest) := by
  rw [readText, codec.read_write, Option.getD_some]

end TextCodec

/-- A text of UTF-16 units that is short enough for a 32-bit length in bytes, below the two
values that mark a null text and a longer length field. -/
structure QString where
  units : List UInt16
  short : 2 * units.length < 2 ^ 32 - 2
  deriving DecidableEq

namespace QString

def writeUnits (units : List UInt16) : Bytes := units.flatMap fun unit => streamWrite 2 unit.toNat

def readUnits : Nat → Bytes → List UInt16
  | 0, _ => []
  | count + 1, stream =>
      .ofNat (streamRead 2 stream).1 :: readUnits count (streamRead 2 stream).2

theorem length_writeUnits (units : List UInt16) : (writeUnits units).length = 2 * units.length := by
  induction units with
  | nil => rfl
  | cons unit units ih =>
    rw [writeUnits] at ih
    rw [writeUnits, List.flatMap_cons, List.length_append, length_streamWrite, ih,
      List.length_cons]
    omega

theorem readUnits_write (units : List UInt16) (rest : Bytes) :
    readUnits units.length (writeUnits units ++ rest) = units := by
  induction units with
  | nil => rfl
  | cons unit units ih =>
    have first := streamRead_write (w := 2) unit.toNat_lt (writeUnits units ++ rest)
    rw [writeUnits, List.flatMap_cons, ← writeUnits, List.append_assoc, List.length_cons, readUnits,
      first, ih, UInt16.ofNat_toNat]

def write (text : QString) : Bytes := streamWrite 4 (2 * text.units.length) ++ writeUnits text.units

/-- A null text reads as empty; an odd or exceeding length is corrupt. -/
def read (stream : Bytes) : Option (QString × Bytes) :=
  let size := (streamRead 4 stream).1
  let body := (streamRead 4 stream).2
  if size = 2 ^ 32 - 1 then some (⟨[], by decide⟩, body)
  else if size % 2 = 1 ∨ body.length < size then none
  else
    let units := readUnits (size / 2) body
    if short : 2 * units.length < 2 ^ 32 - 2 then some (⟨units, short⟩, body.drop size) else none

theorem read_write (text : QString) (rest : Bytes) :
    read (text.write ++ rest) = some (text, rest) := by
  have size : 2 * text.units.length < 256 ^ 4 := lt_of_lt_of_le text.short (by decide)
  have head := streamRead_write size (writeUnits text.units ++ rest)
  have body : (writeUnits text.units ++ rest).drop (2 * text.units.length) = rest := by
    rw [← length_writeUnits, List.drop_left]
  have notNull : 2 * text.units.length ≠ 2 ^ 32 - 1 := by
    have := text.short
    omega
  have sound : ¬ (2 * text.units.length % 2 = 1 ∨
      (writeUnits text.units ++ rest).length < 2 * text.units.length) := by
    rw [List.length_append, length_writeUnits]
    omega
  have units : readUnits (2 * text.units.length / 2) (writeUnits text.units ++ rest) =
      text.units := by
    rw [Nat.mul_div_cancel_left _ (by decide), readUnits_write]
  rw [write, List.append_assoc, read]
  simp only [head, if_neg notNull, if_neg sound, units, text.short, dif_pos, body]

def utf16 : TextCodec QString where
  empty := ⟨[], by decide⟩
  write := write
  read := read
  read_write := read_write

end QString

end QinDB.Storage
