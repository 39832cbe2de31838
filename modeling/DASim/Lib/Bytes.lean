import Mathlib.Logic.Function.Basic
import Mathlib.Data.Nat.Digits.Lemmas

/-!
# Bytes at addresses

A memory gives every address a byte.  `read` and `write` are block copies from
and to consecutive addresses, and `encode` and `decode` go between numbers and
their bytes, with the least significant byte first.  `get` and `put` are the
fields of a record.
-/

namespace DASim

/-- A byte for each address. -/
abbrev Bytes := Nat → UInt8

namespace Bytes

/-- `n` bytes from address `a` on. -/
def read (m : Bytes) (a : Nat) : Nat → List UInt8
  | 0 => []
  | n + 1 => m a :: read m (a + 1) n

/-- The memory after bytes were written from address `a` on. -/
def write (m : Bytes) (a : Nat) : List UInt8 → Bytes
  | [] => m
  | b :: bs => write (Function.update m a b) (a + 1) bs

/-- The memory seen from address `c` on. -/
def drop (m : Bytes) (c : Nat) : Bytes := fun x => m (c + x)

variable {m m' : Bytes} {a c n : Nat}

theorem read_congr (h : ∀ x, a ≤ x → x < a + n → m x = m' x) : m.read a n = m'.read a n := by
  induction n generalizing a with
  | zero => rfl
  | succ n ih =>
      rw [read, read, h a (by omega) (by omega), ih fun x hl hr => h x (by omega) (by omega)]

theorem length_read (m : Bytes) (a n : Nat) : (m.read a n).length = n := by
  induction n generalizing a with
  | zero => rfl
  | succ n ih => rw [read, List.length_cons, ih]

/-- Only the addresses that are written to change. -/
theorem write_of_outside {bs : List UInt8} {x : Nat} (h : x < a ∨ a + bs.length ≤ x) :
    m.write a bs x = m x := by
  induction bs generalizing m a with
  | nil => rfl
  | cons b bs ih =>
      rw [List.length_cons] at h
      rw [write, ih (by omega), Function.update_of_ne (by omega)]

theorem read_write_self (m : Bytes) (a : Nat) (bs : List UInt8) :
    (m.write a bs).read a bs.length = bs := by
  induction bs generalizing m a with
  | nil => rfl
  | cons b bs ih =>
      have hhead : m.write a (b :: bs) a = b := by
        rw [write, write_of_outside (by omega), Function.update_self]
      rw [List.length_cons, read, hhead, write, ih]

/-- What is read elsewhere does not change. -/
theorem read_write_of_disjoint {bs : List UInt8} (h : a + n ≤ c ∨ c + bs.length ≤ a) :
    (m.write c bs).read a n = m.read a n :=
  read_congr fun _ _ _ => write_of_outside (by omega)

theorem read_drop (m : Bytes) (c a n : Nat) : (m.drop c).read a n = m.read (c + a) n := by
  induction n generalizing a with
  | zero => rfl
  | succ n ih => rw [read, read, ih, drop, Nat.add_assoc]

theorem drop_write (m : Bytes) (c a : Nat) (bs : List UInt8) :
    (m.write (c + a) bs).drop c = (m.drop c).write a bs := by
  induction bs generalizing m a with
  | nil => rfl
  | cons b bs ih =>
      have hupdate : drop (Function.update m (c + a) b) c = Function.update (m.drop c) a b :=
        Function.update_comp_eq_of_injective m (add_right_injective c) a b
      rw [write, write, Nat.add_assoc, ih, hupdate]

/-- What is written below does not change what is seen. -/
theorem drop_write_of_le {bs : List UInt8} (h : a + bs.length ≤ c) :
    (m.write a bs).drop c = m.drop c := by
  funext x
  exact write_of_outside (by omega)

/-! ## Numbers -/

/-- The `k` lowest bytes of a number. -/
def encode : Nat → Nat → List UInt8
  | 0, _ => []
  | k + 1, n => UInt8.ofNat n :: encode k (n / 256)

/-- The number with the given bytes. -/
def decode (bs : List UInt8) : Nat := Nat.ofDigits 256 (bs.map UInt8.toNat)

theorem length_encode (k n : Nat) : (encode k n).length = k := by
  induction k generalizing n with
  | zero => rfl
  | succ k ih => rw [encode, List.length_cons, ih]

theorem decode_encode {k n : Nat} (h : n < 256 ^ k) : decode (encode k n) = n := by
  induction k generalizing n with
  | zero =>
      rw [Nat.pow_zero] at h
      rw [encode, decode, List.map_nil, Nat.ofDigits_nil]
      omega
  | succ k ih =>
      have hdiv : n / 256 < 256 ^ k := Nat.div_lt_of_lt_mul (by rwa [Nat.pow_succ'] at h)
      have hrest := ih hdiv
      rw [decode] at hrest
      rw [encode, decode, List.map_cons, Nat.ofDigits_cons, hrest, UInt8.toNat_ofNat']
      omega

/-- The number in the `k` bytes from address `a` on. -/
def get (m : Bytes) (a k : Nat) : Nat := decode (m.read a k)

/-- The memory with a number written to the `k` bytes from address `a` on. -/
def put (m : Bytes) (a k n : Nat) : Bytes := m.write a (encode k n)

theorem get_put_self {k n : Nat} (h : n < 256 ^ k) : (m.put a k n).get a k = n := by
  have hread := read_write_self m a (encode k n)
  rw [length_encode] at hread
  rw [get, put, hread, decode_encode h]

theorem get_put_of_disjoint {k l n : Nat} (h : a + k ≤ c ∨ c + l ≤ a) :
    (m.put c l n).get a k = m.get a k := by
  rw [get, put, read_write_of_disjoint (by rwa [length_encode]), get]

theorem toNat_lt_of_mem {bs : List UInt8} {n : Nat} (h : n ∈ bs.map UInt8.toNat) : n < 256 := by
  obtain ⟨b, -, rfl⟩ := List.mem_map.mp h
  exact b.toNat_lt

theorem decode_lt (bs : List UInt8) : decode bs < 256 ^ bs.length := by
  have hlt := Nat.ofDigits_lt_base_pow_length (b := 256) (by omega) (l := bs.map UInt8.toNat)
    fun _ => toNat_lt_of_mem
  rwa [List.length_map] at hlt

theorem digits_decode {bs : List UInt8} (h : 0 ∉ bs) :
    Nat.digits 256 (decode bs) = bs.map UInt8.toNat := by
  refine Nat.digits_ofDigits 256 (by omega) _ (fun _ => toNat_lt_of_mem) fun hne hzero => h ?_
  obtain ⟨b, hb, hb0⟩ := List.mem_map.mp (hzero ▸ List.getLast_mem hne)
  rwa [UInt8.toNat_inj.mp (hb0.trans UInt8.toNat_zero.symm)] at hb

/-- Bytes that are not 0 are determined by the number they are. -/
theorem decode_inj {bs bs' : List UInt8} (h : 0 ∉ bs) (h' : 0 ∉ bs') :
    decode bs = decode bs' ↔ bs = bs' := by
  refine ⟨fun heq => ?_, congrArg decode⟩
  have hdigits := congrArg (Nat.digits 256) heq
  rw [digits_decode h, digits_decode h'] at hdigits
  exact List.map_injective_iff.mpr (fun _ _ => UInt8.toNat_inj.mp) hdigits

end Bytes

end DASim
