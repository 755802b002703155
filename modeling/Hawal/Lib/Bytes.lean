import Mathlib.Data.List.Basic
import Mathlib.Algebra.Group.Nat.Defs

/-!
# Big-endian integers and reads of a fixed length

`toBigEndian k n` lays `n` out in `k` bytes, most significant first, dropping what
does not fit; `ofBigEndian` reads such bytes back. `readFull` is a read of exactly
`n` bytes from what has arrived so far: when fewer are there it says how many are
missing, which for a live connection means to wait and at the end of the input is
an end-of-file error.
-/

namespace Hawal.Lib

/-- `n` in `k` bytes, most significant first. -/
def toBigEndian : ℕ → ℕ → List UInt8
  | 0, _ => []
  | k + 1, n => toBigEndian k (n / 256) ++ [UInt8.ofNat n]

/-- The number that bytes spell, most significant first. -/
def ofBigEndian (bs : List UInt8) : ℕ := bs.foldl (fun acc b => acc * 256 + b.toNat) 0

@[simp] theorem length_toBigEndian (k n : ℕ) : (toBigEndian k n).length = k := by
  induction k generalizing n with
  | zero => rfl
  | succ k ih => rw [toBigEndian, List.length_append, ih]; rfl

theorem ofBigEndian_append_singleton (bs : List UInt8) (b : UInt8) :
    ofBigEndian (bs ++ [b]) = ofBigEndian bs * 256 + b.toNat := by
  simp [ofBigEndian]

/-- What was laid out in `k` bytes is read back modulo `256 ^ k`. -/
theorem ofBigEndian_toBigEndian (k n : ℕ) : ofBigEndian (toBigEndian k n) = n % 256 ^ k := by
  induction k generalizing n with
  | zero => simp [toBigEndian, ofBigEndian, Nat.mod_one]
  | succ k ih =>
    have hb : (UInt8.ofNat n).toNat = n % 256 := UInt8.toNat_ofNat'
    rw [toBigEndian, ofBigEndian_append_singleton, ih, hb, Nat.pow_succ', Nat.mod_mul]
    omega

/-- Bytes wide enough for a number give it back. -/
theorem ofBigEndian_toBigEndian_of_lt {k n : ℕ} (h : n < 256 ^ k) :
    ofBigEndian (toBigEndian k n) = n := by
  rw [ofBigEndian_toBigEndian, Nat.mod_eq_of_lt h]

/-- The first bytes are those of a quotient. -/
theorem take_toBigEndian (k j n : ℕ) : (toBigEndian (k + j) n).take k = toBigEndian k (n / 256 ^ j) := by
  induction j generalizing n with
  | zero =>
    rw [Nat.pow_zero, Nat.div_one]
    exact List.take_of_length_le (Nat.le_of_eq (length_toBigEndian k n))
  | succ j ih =>
    have hlen : k ≤ (toBigEndian (k + j) (n / 256)).length := by
      rw [length_toBigEndian]
      exact Nat.le_add_right k j
    show (toBigEndian (k + j + 1) n).take k = _
    rw [toBigEndian, List.take_append_of_le_length hlen, ih, Nat.div_div_eq_div_mul, Nat.pow_succ']

/-- Some of the bytes spell less than all of them. -/
theorem ofBigEndian_take_lt {k w n : ℕ} (hk : k < w) (hn : 0 < n) : ofBigEndian ((toBigEndian w n).take k) < n := by
  obtain ⟨j, rfl⟩ := Nat.exists_eq_add_of_lt hk
  have hle : ofBigEndian ((toBigEndian (k + (j + 1)) n).take k) ≤ n / 256 ^ (j + 1) := by
    rw [take_toBigEndian, ofBigEndian_toBigEndian]
    exact Nat.mod_le _ _
  refine Nat.lt_of_le_of_lt hle (Nat.div_lt_self hn ?_)
  exact Nat.one_lt_pow (Nat.succ_ne_zero j) (by decide)

/-- Why a reader stops without a value: the read it is in needs `missing` more bytes,
or the input is bad. -/
inductive Stop (ε : Type*) where
  /-- The input ends `missing` bytes before the end of the read. -/
  | short (missing : ℕ)
  /-- The reader rejects the input. -/
  | bad (e : ε)
  deriving DecidableEq, Repr

/-- `io.ReadFull`: exactly `n` bytes, and what comes after them. -/
def readFull {ε : Type*} (n : ℕ) (r : List UInt8) : Except (Stop ε) (List UInt8 × List UInt8) :=
  if n ≤ r.length then .ok (r.take n, r.drop n) else .error (.short (n - r.length))

theorem readFull_append {ε : Type*} {n : ℕ} {bs : List UInt8} (h : bs.length = n) (r : List UInt8) :
    readFull (ε := ε) n (bs ++ r) = .ok (bs, r) := by
  subst h
  simp [readFull]

theorem readFull_of_lt {ε : Type*} {n : ℕ} {r : List UInt8} (h : r.length < n) :
    readFull (ε := ε) n r = .error (.short (n - r.length)) := by
  rw [readFull, if_neg (Nat.not_le.mpr h)]

theorem readFull_eq_ok {ε : Type*} {n : ℕ} {r a b : List UInt8} (h : readFull (ε := ε) n r = .ok (a, b)) :
    n ≤ r.length ∧ a = r.take n ∧ b = r.drop n := by
  unfold readFull at h
  split_ifs at h with hn
  cases h
  exact ⟨hn, rfl, rfl⟩

/-- A read of `bs` from part of an input that starts with `bs`: it wants for bytes, or
it is over and what is left is part of the rest. -/
theorem readFull_part {ε : Type*} {n : ℕ} {bs rest p q : List UInt8} (hn : bs.length = n)
    (h : bs ++ rest = p ++ q) :
    (p.length < n ∧ readFull (ε := ε) n p = .error (.short (n - p.length))) ∨
      ∃ p', p = bs ++ p' ∧ rest = p' ++ q ∧ readFull (ε := ε) n p = .ok (bs, p') := by
  by_cases hlt : p.length < n
  · exact .inl ⟨hlt, readFull_of_lt hlt⟩
  · right
    have hpre : bs <+: p :=
      List.prefix_of_prefix_length_le ⟨rest, rfl⟩ ⟨q, h.symm⟩ (by omega)
    obtain ⟨p', rfl⟩ := hpre
    rw [List.append_assoc, List.append_cancel_left_eq] at h
    exact ⟨p', rfl, h, readFull_append hn p'⟩

end Hawal.Lib
