import Mathlib.Data.List.Basic
import Mathlib.Tactic

namespace layout

/-- Byte-addressed memory of one object. -/
abbrev Memory := Nat → UInt8

/-- Size and alignment of a member's type. -/
structure CType where
  size : Nat
  align : Nat
deriving DecidableEq, Repr

def alignUp (offset align : Nat) : Nat := (offset + (align - 1)) / align * align

/-- Members placed one after the other, each at the next multiple of its alignment. -/
def offsetsFrom {F : Type} : Nat → List (F × CType) → List (F × Nat)
  | _, [] => []
  | start, (f, t) :: rest =>
    (f, alignUp start t.align) :: offsetsFrom (alignUp start t.align + t.size) rest

def read (m : Memory) (start count : Nat) : List UInt8 :=
  (List.range count).map fun i => m (start + i)

def write (m : Memory) (start : Nat) (bytes : List UInt8) : Memory := fun i =>
  if start ≤ i ∧ i < start + bytes.length then bytes.getD (i - start) 0 else m i

@[simp]
theorem length_read (m : Memory) (start count : Nat) : (read m start count).length = count := by
  simp [read]

theorem read_congr {m m' : Memory} {start count : Nat}
    (h : ∀ i, start ≤ i → i < start + count → m' i = m i) :
    read m' start count = read m start count := by
  apply List.map_congr_left
  intro i hi
  exact h _ (by omega) (by have := List.mem_range.mp hi; omega)

theorem read_eq_iff {m m' : Memory} {start count : Nat} :
    read m' start count = read m start count ↔
      ∀ i, start ≤ i → i < start + count → m' i = m i := by
  refine ⟨?_, read_congr⟩
  intro h i hlow hhigh
  have hmem : i - start ∈ List.range count := List.mem_range.mpr (by omega)
  have hat := List.map_inj_left.mp h _ hmem
  have hpos : start + (i - start) = i := by omega
  simpa only [hpos] using hat

/-- A write leaves everything outside its own bytes alone. -/
theorem read_write_disjoint (m : Memory) {start pos count : Nat} {bytes : List UInt8}
    (h : pos + count ≤ start ∨ start + bytes.length ≤ pos) :
    read (write m start bytes) pos count = read m pos count := by
  apply read_congr
  intro i hlow hhigh
  have hout : ¬ (start ≤ i ∧ i < start + bytes.length) := by omega
  simp only [write, if_neg hout]

/-- Inside the written bytes a read returns what was written there. -/
theorem read_write_inside (m : Memory) (start count : Nat) (bytes : List UInt8) (skip : Nat)
    (h : skip + count ≤ bytes.length) :
    read (write m start bytes) (start + skip) count = (bytes.drop skip).take count := by
  apply List.ext_getElem?
  intro i
  by_cases hi : i < count
  · have hin : start ≤ start + skip + i ∧ start + skip + i < start + bytes.length := by omega
    have hpos : start + skip + i - start = skip + i := by omega
    have hlen : skip + i < bytes.length := by omega
    simp [read, hi, write, hin, hpos, List.getElem?_eq_getElem hlen, List.getElem?_take_of_lt hi,
      List.getElem?_drop]
  · rw [List.getElem?_eq_none (by simpa using hi),
      List.getElem?_eq_none (by simp only [List.length_take, List.length_drop]; omega)]

/-- Little-endian encoding of the low `count` bytes of a number. -/
def leBytes : Nat → Nat → List UInt8
  | 0, _ => []
  | count + 1, v => UInt8.ofNat v :: leBytes count (v / 256)

def leNat : List UInt8 → Nat
  | [] => 0
  | b :: bs => b.toNat + 256 * leNat bs

@[simp]
theorem length_leBytes (count v : Nat) : (leBytes count v).length = count := by
  induction count generalizing v with
  | zero => rfl
  | succ count ih => simp [leBytes, ih]

theorem leNat_leBytes (count v : Nat) : leNat (leBytes count v) = v % 256 ^ count := by
  induction count generalizing v with
  | zero => simp [leBytes, leNat, Nat.mod_one]
  | succ count ih =>
    have hbyte : (UInt8.ofNat v).toNat = v % 256 := by simp
    rw [leBytes, leNat, ih, hbyte, pow_succ, mul_comm (256 ^ count) 256, Nat.mod_mul]

theorem leBytes_add (a b v : Nat) :
    leBytes (a + b) v = leBytes a v ++ leBytes b (v / 256 ^ a) := by
  induction a generalizing v with
  | zero => simp [leBytes]
  | succ a ih =>
    rw [Nat.succ_add, leBytes, leBytes, ih, Nat.div_div_eq_div_mul, pow_succ,
      mul_comm (256 ^ a) 256]
    rfl

/-- Byte strings of one length are determined by the number they encode. -/
theorem leNat_inj {a b : List UInt8} (hlength : a.length = b.length) (h : leNat a = leNat b) :
    a = b := by
  induction a generalizing b with
  | nil => exact (List.eq_nil_of_length_eq_zero hlength.symm).symm
  | cons x xs ih =>
    cases b with
    | nil => simp at hlength
    | cons y ys =>
      have hx : x.toNat < 256 := x.toNat_lt
      have hy : y.toNat < 256 := y.toNat_lt
      simp only [leNat] at h
      have hhead : x.toNat = y.toNat := by omega
      have htail : leNat xs = leNat ys := by omega
      rw [UInt8.toNat_inj.mp hhead, ih (by simpa using hlength) htail]

end layout
