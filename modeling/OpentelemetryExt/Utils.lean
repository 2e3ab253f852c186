import Mathlib.Data.List.DropRight
import OpentelemetryExt.Hex
import OpentelemetryExt.Lib.Delimited

open delimited

namespace opentelemetry

/-- The inner loop of `explode`: how many characters of `delimiter` match from here on. -/
def matchLength : Bytes → Bytes → Nat
  | c :: str, d :: delimiter => if c = d then matchLength str delimiter + 1 else 0
  | _, _ => 0

/-- The outer loop of `explode` at position `i`, with the current piece begun at
`k`. Every turn advances `i`, so that the length of `str` is enough fuel. -/
def explodeFrom (delimiter str : Bytes) : Nat → Nat → Nat → List Bytes
  | 0, i, k => [(str.drop k).take (i - k)]
  | fuel + 1, i, k =>
    if i < str.length then
      if matchLength (str.drop i) delimiter = delimiter.length then
        (str.drop k).take (i - k) ::
          explodeFrom delimiter str fuel (i + delimiter.length) (i + delimiter.length)
      else explodeFrom delimiter str fuel (i + 1) k
    else [(str.drop k).take (i - k)]

def explode (delimiter str : Bytes) : List Bytes :=
  if delimiter.length = 0 then [] else explodeFrom delimiter str str.length 0 0

/-- `trim`: blanks only, at both ends. -/
def trim (s : Bytes) : Bytes := (s.dropWhile (· == 32)).rdropWhile (· == 32)

/-- `starts_with` on two NUL-terminated strings. -/
def starts_with (pre str : Bytes) : Bool := (c_str pre).isPrefixOf (c_str str)

/-- `strstr(search, str)` is not null: `search` contains `str`. -/
def is_contain (str search : Bytes) : Bool := decide (c_str str <:+: c_str search)

/-- `strcmp(a, b) == 0`. -/
def is_equal (a b : Bytes) : Bool := c_str a == c_str b

/-- What the hooks read of a `zend_function`. -/
structure ZendFunction where
  function_name : Option Bytes
  scope : Option Bytes
  is_static : Bool
deriving DecidableEq, Repr

def find_trace_generate_class_name (class_name function_name : Bytes) (is_static : Bool) : Bytes :=
  c_str class_name ++ lit (if is_static then "::" else "->") ++ c_str function_name

def find_trace_add_scope_name (function_name scope : Option Bytes) (is_static : Bool) : Bytes :=
  match function_name, scope with
  | none, _ => []
  | some function_name, some scope => find_trace_generate_class_name scope function_name is_static
  | some function_name, none => c_str function_name

def ZendFunction.name (func : ZendFunction) : Bytes :=
  find_trace_add_scope_name func.function_name func.scope func.is_static

/-- `find_code_stacktrace`. A chain of frames is the list of their functions,
innermost first; the end of the list is the null `prev_execute_data`. -/
def find_code_stacktrace : List (Option ZendFunction) → Bytes
  | [] => []
  | none :: _ => []
  | some func :: caller =>
    let name :=
      match caller with
      | some f :: prev =>
        let name := find_code_stacktrace (some f :: prev)
        if name ≠ [] then name ++ lit "\\" else name
      | _ => []
    if func.name ≠ [] then name ++ func.name else name

/-- The inner loop comes to the end of the delimiter if and only if the delimiter is next. -/
theorem matchLength_eq_length_iff (str delimiter : Bytes) :
    matchLength str delimiter = delimiter.length ↔ delimiter <+: str := by
  induction str generalizing delimiter with
  | nil => simp [matchLength, eq_comm]
  | cons c str ih =>
    cases delimiter with
    | nil => simp [matchLength]
    | cons d delimiter =>
      rw [matchLength, List.length_cons, List.cons_prefix_cons]
      by_cases h : c = d
      · rw [if_pos h, Nat.add_right_cancel_iff, ih delimiter]
        simp [h]
      · simp [h, Ne.symm h]

private theorem take_split {str : Bytes} {i k : Nat} (hk : k ≤ i) :
    str.drop k = (str.drop k).take (i - k) ++ str.drop i := by
  conv_lhs => rw [← List.take_append_drop (i - k) (str.drop k)]
  rw [List.drop_drop, Nat.add_sub_cancel' hk]

/-- The invariant of the outer loop: no delimiter begins between the start of the
current piece and the position. -/
def Scanned (delimiter str : Bytes) (i k : Nat) : Prop :=
  ∀ j, k ≤ j → j < i → ¬ delimiter <+: str.drop j

theorem Scanned.clear {delimiter str : Bytes} {i k : Nat} (h : Scanned delimiter str i k)
    (hk : k ≤ i) (hi : i ≤ str.length) :
    Clear delimiter ((str.drop k).take (i - k)) (str.drop i) := by
  intro j hj
  have hlt : j < i - k := by
    rw [List.length_take, List.length_drop] at hj
    omega
  rw [← take_split hk, List.drop_drop]
  exact h (k + j) (by omega) (by omega)

/-- At the end of the string the last piece holds no delimiter. -/
theorem Scanned.last {delimiter str : Bytes} {k : Nat} (hdelimiter : delimiter ≠ [])
    (h : Scanned delimiter str str.length k) (hk : k ≤ str.length) :
    Cuts delimiter (str.drop k) [(str.drop k).take (str.length - k)] := by
  have hall : (str.drop k).take (str.length - k) = str.drop k := by
    rw [← List.length_drop, List.take_length]
  have hclear := h.clear hk (Nat.le_refl _)
  rw [hall] at hclear ⊢
  exact .last (hclear.not_inside hdelimiter)

theorem explodeFrom_cuts {delimiter str : Bytes} (hdelimiter : delimiter ≠ []) {fuel : Nat} :
    ∀ {i k : Nat}, k ≤ i → i ≤ str.length → str.length ≤ i + fuel → Scanned delimiter str i k →
      Cuts delimiter (str.drop k) (explodeFrom delimiter str fuel i k) := by
  induction fuel with
  | zero =>
    intro i k hk hi hfuel hscanned
    obtain rfl : i = str.length := by omega
    exact hscanned.last hdelimiter hk
  | succ fuel ih =>
    intro i k hk hi hfuel hscanned
    have hpos : 0 < delimiter.length := List.length_pos_iff.mpr hdelimiter
    rw [explodeFrom]
    by_cases hlt : i < str.length
    · rw [if_pos hlt]
      by_cases hfound : delimiter <+: str.drop i
      · -- A delimiter: the piece ends here, and the next one begins behind the delimiter.
        rw [if_pos ((matchLength_eq_length_iff _ _).mpr hfound)]
        obtain ⟨rest, hrest⟩ := hfound
        have hbehind : str.drop (i + delimiter.length) = rest := by
          rw [← List.drop_drop, ← hrest, List.drop_left]
        have hlen : i + delimiter.length ≤ str.length := by
          have := congrArg List.length hrest
          rw [List.length_append, List.length_drop] at this
          omega
        have hnext := ih (Nat.le_refl (i + delimiter.length)) hlen (by omega)
          (fun j hj hj' => absurd hj (by omega))
        have hclear := hscanned.clear hk hi
        rw [hbehind] at hnext
        rw [← hrest] at hclear
        have hcut := Cuts.cut hclear hnext
        rwa [hrest, ← take_split hk] at hcut
      · rw [if_neg (mt (matchLength_eq_length_iff _ _).mp hfound)]
        apply ih (by omega) (by omega) (by omega)
        intro j hj hj'
        by_cases hlast : j = i
        · rw [hlast]
          exact hfound
        · exact hscanned j hj (by omega)
    · rw [if_neg hlt]
      obtain rfl : i = str.length := by omega
      exact hscanned.last hdelimiter hk

theorem explode_cuts {delimiter : Bytes} (hdelimiter : delimiter ≠ []) (str : Bytes) :
    Cuts delimiter str (explode delimiter str) := by
  have hpos : 0 < delimiter.length := List.length_pos_iff.mpr hdelimiter
  rw [explode, if_neg (by omega)]
  exact explodeFrom_cuts hdelimiter (Nat.le_refl 0) (Nat.zero_le _) (by omega)
    (fun j _ hj => absurd hj (by omega))

/-- `explode` is exact for a delimiter of any length: its loop needs no more turns than the
string has characters, the pieces joined by the delimiter are the string, no piece holds
the delimiter, every cut is at the leftmost delimiter that is left, and the cuts are
counted by `occurrences`. The empty string is one empty piece. -/
theorem explode_exact {delimiter : Bytes} (hdelimiter : delimiter ≠ []) (str : Bytes) :
    (∀ fuel, str.length ≤ fuel → explodeFrom delimiter str fuel 0 0 = explode delimiter str) ∧
    delimiter.intercalate (explode delimiter str) = str ∧
    (∀ piece ∈ explode delimiter str, ¬ delimiter <:+: piece) ∧
    Cuts delimiter str (explode delimiter str) ∧
    (explode delimiter str).length = occurrences delimiter 0 str + 1 ∧
    explode delimiter [] = [[]] := by
  have hcuts := explode_cuts hdelimiter str
  refine ⟨fun fuel hfuel => ?_, hcuts.join, hcuts.not_inside hdelimiter, hcuts,
    hcuts.length hdelimiter, ?_⟩
  · have hlong := explodeFrom_cuts hdelimiter (Nat.le_refl 0) (Nat.zero_le _)
      (by omega : str.length ≤ 0 + fuel) (fun j _ hj => absurd hj (by omega))
    exact hlong.unique hcuts
  · exact (explode_cuts hdelimiter []).unique (.last (mt List.infix_nil.mp hdelimiter))

/-- A delimiter that overlaps itself. -/
theorem explode_exact_overlap :
    explode (lit "aa") (lit "baaaca") = [lit "b", lit "aca"] ∧
      (explode (lit "aa") (lit "baaaca")).length = occurrences (lit "aa") 0 (lit "baaaca") + 1 :=
  ⟨by decide, (explode_exact (by decide : lit "aa" ≠ []) (lit "baaaca")).2.2.2.2.1⟩

/-- With a one-character delimiter `explode` cuts at every occurrence of it. -/
theorem explode_singleton (c : UInt8) (str : Bytes) : explode [c] str = str.splitOn c :=
  (explode_cuts (by simp) str).eq_splitOn

end opentelemetry
