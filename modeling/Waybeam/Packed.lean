/-
# `Waybeam.Packed` — packed structures in network byte order

A wire format without padding is a list of widths.  `pack` writes a value into each field, most
significant byte first.  A reader takes it apart in one of two ways:

    split ws b       all the fields in order                    (`struct.unpack`)
    field b off w    the `w` bytes from `off` on                (an overlaid packed struct)

They read the same numbers (`split_eq_fields`), a reader gets back what was packed
(`split_pack`), and what `split` read, packed again, is the bytes it read (`pack_split`).
Nothing here names a program.
-/
import Mathlib.Data.List.Basic
import Mathlib.Algebra.BigOperators.Group.List.Basic
import Mathlib.Algebra.GroupWithZero.Nat

namespace Waybeam.Packed

/-- The `w` bytes of `n`, most significant first; what is above them is dropped. -/
def bytes : ℕ → ℕ → List UInt8
  | 0, _ => []
  | w + 1, n => UInt8.ofNat (n / 256 ^ w % 256) :: bytes w n

/-- The number some bytes spell, most significant first. -/
def value : List UInt8 → ℕ
  | [] => 0
  | b :: bs => b.toNat * 256 ^ bs.length + value bs

@[simp] theorem length_bytes (w n : ℕ) : (bytes w n).length = w := by
  induction w with
  | zero => rfl
  | succ w ih => rw [bytes, List.length_cons, ih]

theorem value_bytes (w n : ℕ) : value (bytes w n) = n % 256 ^ w := by
  induction w with
  | zero => rw [bytes, value, pow_zero, Nat.mod_one]
  | succ w ih =>
      have hdigit : (UInt8.ofNat (n / 256 ^ w % 256)).toNat = n / 256 ^ w % 256 :=
        Nat.mod_eq_of_lt (Nat.mod_lt _ (by decide))
      rw [bytes, value, length_bytes, ih, hdigit, pow_succ, Nat.mod_mul]
      ac_rfl

theorem value_bytes_of_lt {w n : ℕ} (h : n < 256 ^ w) : value (bytes w n) = n := by
  rw [value_bytes, Nat.mod_eq_of_lt h]

theorem value_lt (b : List UInt8) : value b < 256 ^ b.length := by
  induction b with
  | nil => exact Nat.one_pos
  | cons c b ih =>
      have hc : c.toNat + 1 ≤ 256 := c.toNat_lt
      calc value (c :: b) < c.toNat * 256 ^ b.length + 256 ^ b.length := Nat.add_lt_add_left ih _
        _ = (c.toNat + 1) * 256 ^ b.length := (Nat.succ_mul ..).symm
        _ ≤ 256 * 256 ^ b.length := Nat.mul_le_mul_right _ hc
        _ = 256 ^ (c :: b).length := (pow_succ' ..).symm

/-- Only the low bytes matter. -/
theorem bytes_mod (w n : ℕ) : bytes w (n % 256 ^ w) = bytes w n := by
  induction w generalizing n with
  | zero => rfl
  | succ w ih =>
      have hhead : n % 256 ^ (w + 1) / 256 ^ w % 256 = n / 256 ^ w % 256 := by
        rw [pow_succ, Nat.mod_mul_right_div_self, Nat.mod_mod]
      have htail : bytes w (n % 256 ^ (w + 1)) = bytes w n := by
        rw [← ih, Nat.mod_mod_of_dvd _ (pow_dvd_pow 256 (Nat.le_succ w)), ih]
      rw [bytes, bytes, hhead, htail]

theorem bytes_value (b : List UInt8) : bytes b.length (value b) = b := by
  induction b with
  | nil => rfl
  | cons c b ih =>
      have hlt := value_lt b
      have hpos : 0 < 256 ^ b.length := Nat.pow_pos (by decide)
      have hhead : value (c :: b) / 256 ^ b.length % 256 = c.toNat := by
        rw [value, Nat.add_comm, Nat.add_mul_div_right _ _ hpos, Nat.div_eq_of_lt hlt, Nat.zero_add]
        exact Nat.mod_eq_of_lt c.toNat_lt
      have htail : bytes b.length (value (c :: b)) = b := by
        rw [← bytes_mod, value, Nat.add_comm, Nat.add_mul_mod_self_right, bytes_mod, ih]
      rw [List.length_cons, bytes, hhead, htail, UInt8.ofNat_toNat]

/-! ## Structures -/

/-- The fields in order, each a width and a value. -/
def pack (fs : List (ℕ × ℕ)) : List UInt8 := fs.flatMap fun f => bytes f.1 f.2

/-- The values of fields of the given widths, from the front. -/
def split : List ℕ → List UInt8 → List ℕ
  | [], _ => []
  | w :: ws, b => value (b.take w) :: split ws (b.drop w)

/-- The field of width `w` at offset `off`. -/
def field (b : List UInt8) (off w : ℕ) : ℕ := value ((b.drop off).take w)

/-- The fields of the given widths from an offset on. -/
def fields (b : List UInt8) : ℕ → List ℕ → List ℕ
  | _, [] => []
  | off, w :: ws => field b off w :: fields b (off + w) ws

theorem length_pack (fs : List (ℕ × ℕ)) : (pack fs).length = (fs.map Prod.fst).sum := by
  induction fs with
  | nil => rfl
  | cons f fs ih =>
      rw [pack, List.flatMap_cons, List.length_append, length_bytes, List.map_cons, List.sum_cons, ← ih]
      rfl

theorem split_pack {fs : List (ℕ × ℕ)} (h : ∀ f ∈ fs, f.2 < 256 ^ f.1) (rest : List UInt8) :
    split (fs.map Prod.fst) (pack fs ++ rest) = fs.map Prod.snd := by
  induction fs with
  | nil => rfl
  | cons f fs ih =>
      have hlen : f.1 = (bytes f.1 f.2).length := (length_bytes ..).symm
      have hshape : pack (f :: fs) ++ rest = bytes f.1 f.2 ++ (pack fs ++ rest) := List.append_assoc ..
      rw [hshape, List.map_cons, List.map_cons, split, List.take_left' hlen.symm, List.drop_left' hlen.symm,
        value_bytes_of_lt (h f List.mem_cons_self), ih fun g hg => h g (List.mem_cons_of_mem _ hg)]

theorem split_pack_self {fs : List (ℕ × ℕ)} (h : ∀ f ∈ fs, f.2 < 256 ^ f.1) :
    split (fs.map Prod.fst) (pack fs) = fs.map Prod.snd := by
  have hsplit := split_pack h []
  rwa [List.append_nil] at hsplit

theorem pack_split (ws : List ℕ) {b : List UInt8} (h : ws.sum ≤ b.length) :
    pack (ws.zip (split ws b)) = b.take ws.sum := by
  induction ws generalizing b with
  | nil => rfl
  | cons w ws ih =>
      rw [List.sum_cons] at h ⊢
      have hw : (b.take w).length = w := by
        rw [List.length_take]
        omega
      have hhead : bytes w (value (b.take w)) = b.take w := by
        have hvalue := bytes_value (b.take w)
        rwa [hw] at hvalue
      have hlen : ws.sum ≤ (b.drop w).length := by
        rw [List.length_drop]
        omega
      have htail := ih hlen
      rw [split, List.zip_cons_cons, pack, List.flatMap_cons, hhead, List.take_add]
      exact congrArg (b.take w ++ ·) htail

theorem split_drop (b : List UInt8) (off : ℕ) (ws : List ℕ) : split ws (b.drop off) = fields b off ws := by
  induction ws generalizing off with
  | nil => rfl
  | cons w ws ih => rw [split, fields, List.drop_drop, ih, field]

/-- Unpacking reads what an overlaid struct reads. -/
theorem split_eq_fields (b : List UInt8) (ws : List ℕ) : split ws b = fields b 0 ws := split_drop b 0 ws

/-- A slice has the fields it covers. -/
theorem split_slice (b : List UInt8) (off : ℕ) {ws : List ℕ} {n : ℕ} (h : ws.sum ≤ n) :
    split ws ((b.drop off).take n) = fields b off ws := by
  rw [← split_drop]
  induction ws generalizing off n with
  | nil => rfl
  | cons w ws ih =>
      rw [List.sum_cons] at h
      rw [split, split, List.take_take, Nat.min_eq_left (by omega), List.drop_take, List.drop_drop,
        ih (off + w) (by omega)]

/-- Cutting a datagram behind a field leaves the field. -/
theorem field_take {b : List UInt8} {off w n : ℕ} (h : off + w ≤ n) : field (b.take n) off w = field b off w := by
  rw [field, field, List.drop_take, List.take_take, Nat.min_eq_left (by omega)]

theorem field_lt (b : List UInt8) (off w : ℕ) : field b off w < 256 ^ w :=
  Nat.lt_of_lt_of_le (value_lt _) (Nat.pow_le_pow_right (by decide) (List.length_take_le ..))

end Waybeam.Packed
