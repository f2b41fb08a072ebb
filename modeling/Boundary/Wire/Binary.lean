import Mathlib

/-!
# Fixed-width integers as bytes

Go's `encoding/binary` writes an unsigned integer of `n` bytes in little- or
big-endian order and reads it back. The encoders reduce the number modulo
`256 ^ n`, as the conversion to `uint32` or `uint64` does before the write, and
the decoders invert them on numbers that fit. `copyAt` is Go's `copy` into a
buffer at an offset, which leaves the buffer's other bytes as they were.
-/

namespace Wire

/-- The `n` low bytes of `x`, least significant first. -/
def leBytes : Nat → Nat → List UInt8
  | 0, _ => []
  | n + 1, x => (x % 256).toUInt8 :: leBytes n (x / 256)

/-- The number whose bytes, least significant first, are the list. -/
def ofLeBytes : List UInt8 → Nat
  | [] => 0
  | b :: bs => b.toNat + 256 * ofLeBytes bs

/-- The `n` low bytes of `x`, most significant first. -/
def beBytes (n x : Nat) : List UInt8 := (leBytes n x).reverse

/-- The number whose bytes, most significant first, are the list. -/
def ofBeBytes (bs : List UInt8) : Nat := ofLeBytes bs.reverse

@[simp] theorem length_leBytes (n x : Nat) : (leBytes n x).length = n := by
  induction n generalizing x with
  | zero => rfl
  | succ n ih => simp [leBytes, ih]

@[simp] theorem length_beBytes (n x : Nat) : (beBytes n x).length = n := by
  simp [beBytes]

theorem toNat_toUInt8_mod (x : Nat) : (x % 256).toUInt8.toNat = x % 256 := by
  simp [Nat.toUInt8, UInt8.toNat_ofNat']

/-- Reading back `n` little-endian bytes gives the number modulo `256 ^ n`. -/
theorem ofLeBytes_leBytes (n x : Nat) : ofLeBytes (leBytes n x) = x % 256 ^ n := by
  induction n generalizing x with
  | zero => simp [leBytes, ofLeBytes, Nat.mod_one]
  | succ n ih =>
    simp only [leBytes, ofLeBytes, ih, toNat_toUInt8_mod]
    -- the low byte, then the rest shifted by one byte
    rw [Nat.pow_succ, Nat.mul_comm (256 ^ n) 256, Nat.mod_mul]

theorem ofBeBytes_beBytes (n x : Nat) : ofBeBytes (beBytes n x) = x % 256 ^ n := by
  simp [ofBeBytes, beBytes, ofLeBytes_leBytes]

/-! ## Writing into a buffer -/

/-- Go's `copy(dst[i:], src)`: the elements of `src` written over `dst` from
position `i` on, as many as fit; the rest of `dst` keeps what it held. -/
def copyAt {α : Type} (dst : List α) (i : Nat) (src : List α) : List α :=
  dst.take i ++ src.take (dst.length - i) ++ dst.drop (i + src.length)

@[simp] theorem length_copyAt {α : Type} (dst : List α) (i : Nat) (src : List α) (hi : i ≤ dst.length) :
    (copyAt dst i src).length = dst.length := by
  simp only [copyAt, List.length_append, List.length_take, List.length_drop]
  omega

/-- A copy that fits replaces exactly as many elements as it has. -/
theorem copyAt_append {α : Type} (pre src post : List α) (hsrc : src.length ≤ post.length) :
    copyAt (pre ++ post) pre.length src = pre ++ src ++ post.drop src.length := by
  have hfit : src.length ≤ (pre ++ post).length - pre.length := by simp; omega
  simp only [copyAt, List.take_left, List.take_of_length_le hfit, List.drop_append,
    List.drop_eq_nil_of_le (Nat.le_add_right pre.length src.length), Nat.add_sub_cancel_left,
    List.nil_append]

theorem getElem?_copyAt_of_lt {α : Type} {dst : List α} {i j : Nat} (src : List α)
    (hi : i ≤ dst.length) (hj : j < i) : (copyAt dst i src)[j]? = dst[j]? := by
  have hpre : j < (dst.take i).length := by simp; omega
  rw [copyAt, List.append_assoc, List.getElem?_append_left hpre, List.getElem?_take_of_lt hj]

theorem getElem?_copyAt_of_le {α : Type} {dst : List α} {i j : Nat} (src : List α)
    (hi : i ≤ dst.length) (hj : i + src.length ≤ j) : (copyAt dst i src)[j]? = dst[j]? := by
  by_cases hfit : i + src.length ≤ dst.length
  · have hpre : (dst.take i ++ src.take (dst.length - i)).length = i + src.length := by
      simp; omega
    rw [copyAt, List.getElem?_append_right (by omega), hpre, List.getElem?_drop]
    congr 1
    omega
  · have hout : dst.length ≤ j := by omega
    rw [List.getElem?_eq_none hout,
      List.getElem?_eq_none (by rw [length_copyAt _ _ _ hi]; exact hout)]

theorem getElem?_copyAt_src {α : Type} {dst : List α} {i j : Nat} (src : List α)
    (hij : i ≤ j) (hj : j < i + src.length) (hdst : j < dst.length) :
    (copyAt dst i src)[j]? = src[j - i]? := by
  have hpre : (dst.take i).length = i := by simp; omega
  rw [copyAt, List.append_assoc, List.getElem?_append_right (by omega), hpre,
    List.getElem?_append_left (by simp; omega), List.getElem?_take_of_lt (by omega)]

end Wire
