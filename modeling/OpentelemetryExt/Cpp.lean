import Mathlib.Data.List.Basic
import Mathlib.Data.List.TakeWhile
import Mathlib.Tactic

namespace opentelemetry

/-- Contents of a `std::string`, or of the character array behind a `zend_string`. -/
abbrev Bytes := List UInt8

/-- A string literal of the source. All of them are ASCII. -/
def lit (s : String) : Bytes := s.toList.map fun c => UInt8.ofNat c.toNat

/-- What a `char *` conversion keeps of a string: everything before the first NUL. -/
def c_str (s : Bytes) : Bytes := s.takeWhile (· ≠ 0)

theorem c_str_eq_self_iff {s : Bytes} : c_str s = s ↔ 0 ∉ s := by
  rw [c_str, List.takeWhile_eq_self_iff]
  constructor
  · intro h hmem
    simpa using h 0 hmem
  · intro h c hc
    rw [decide_eq_true_eq]
    rintro rfl
    exact h hc

theorem c_str_append {a : Bytes} (b : Bytes) (h : 0 ∉ a) : c_str (a ++ b) = a ++ c_str b := by
  unfold c_str
  rw [List.takeWhile_append_of_pos]
  intro c hc
  rw [decide_eq_true_eq]
  rintro rfl
  exact h hc

theorem c_str_c_str (s : Bytes) : c_str (c_str s) = c_str s := List.takeWhile_idem

/-- The ways in which a step of the extension leaves defined behaviour or is
ended by a C++ exception that nothing catches. In each case the PHP process
does not go on. -/
inductive Fault where
  | nullPointer
  | dangling
  | uninitialised
  | outOfBounds
  | wrongType
  | divisionByZero
  | overflow
  | exception
deriving DecidableEq, Repr

@[simp]
theorem ok_bind {ε α β : Type} (a : α) (f : α → Except ε β) : (Except.ok a >>= f) = f a := rfl

@[simp]
theorem error_bind {ε α β : Type} (e : ε) (f : α → Except ε β) :
    (Except.error e >>= f) = .error e := rfl

@[simp]
theorem pure_eq_ok {ε α : Type*} (a : α) : (pure a : Except ε α) = .ok a := rfl

/-- A read through a pointer that may be null. -/
def deref {α : Type} : Option α → Except Fault α
  | some a => .ok a
  | none => .error .nullPointer

@[simp] theorem deref_some {α : Type} (a : α) : deref (some a) = .ok a := rfl

@[simp] theorem deref_none {α : Type} : deref (none : Option α) = .error .nullPointer := rfl

theorem deref_eq_ok_iff {α : Type} {o : Option α} {a : α} : deref o = .ok a ↔ o = some a := by
  cases o <;> simp

/-- `data()` of a vector followed by a copy of `n` bytes: the copy never looks
at the size, so it leaves the vector when the vector is shorter. -/
def copyBytes (v : Bytes) (n : Nat) : Except Fault Bytes :=
  if n ≤ v.length then .ok (v.take n) else .error .outOfBounds

theorem copyBytes_eq_ok_iff {v w : Bytes} {n : Nat} :
    copyBytes v n = .ok w ↔ n ≤ v.length ∧ w = v.take n := by
  unfold copyBytes
  split <;> simp_all [eq_comm]

/-- `std::string::substr`. -/
def substr (s : Bytes) (pos n : Nat) : Except Fault Bytes :=
  if pos ≤ s.length then .ok ((s.drop pos).take n) else .error .exception

/-- The decimal digits of `std::to_string`. -/
def decimal (n : Nat) : Bytes := (Nat.toDigits 10 n).map fun c => UInt8.ofNat c.toNat

/-- `std::to_string` of a signed integer. -/
def to_string (n : Int) : Bytes :=
  if n < 0 then 45 :: decimal n.natAbs else decimal n.natAbs

/-- A product of two `int` values that leaves the 31-bit range overflows. -/
def intMul (a b : Nat) : Except Fault Nat :=
  if a * b < 2 ^ 31 then .ok (a * b) else .error .overflow

theorem mapM_eq_ok {α β : Type} {f : α → Except Fault β} {g : α → β} {l : List α}
    (h : ∀ a ∈ l, f a = .ok (g a)) : l.mapM f = .ok (l.map g) := by
  induction l with
  | nil => rfl
  | cons a l ih =>
    have hhead := h a (by simp)
    have htail := ih fun b hb => h b (by simp [hb])
    rw [List.mapM_cons, hhead, htail]
    rfl

end opentelemetry
