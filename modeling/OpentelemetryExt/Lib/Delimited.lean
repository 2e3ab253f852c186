import Mathlib.Data.List.Basic
import Mathlib.Tactic

namespace delimited

variable {α : Type} [DecidableEq α]

/-- The text before the first occurrence of `mark`, and the text after it. -/
def cut (mark : List α) : List α → Option (List α × List α)
  | [] => if mark = [] then some ([], []) else none
  | c :: s =>
    if mark <+: c :: s then some ([], (c :: s).drop mark.length)
    else (cut mark s).map fun parts => (c :: parts.1, parts.2)

theorem cut_mark (mark s : List α) : cut mark (mark ++ s) = some ([], s) := by
  cases h : mark ++ s with
  | nil =>
    obtain ⟨rfl, rfl⟩ := List.append_eq_nil_iff.mp h
    rfl
  | cons c rest =>
    rw [cut, ← h, if_pos (List.prefix_append mark s), List.drop_left]

theorem cut_cons {mark s : List α} {c : α} (h : ¬ mark <+: c :: s) :
    cut mark (c :: s) = (cut mark s).map fun parts => (c :: parts.1, parts.2) := if_neg h

/-- No mark begins in a text that does not have its first character. -/
theorem cut_append {m : α} {mark a : List α} (ha : m ∉ a) (s : List α) :
    cut (m :: mark) (a ++ s) = (cut (m :: mark) s).map fun parts => (a ++ parts.1, parts.2) := by
  induction a with
  | nil => simp
  | cons c a ih =>
    obtain ⟨hc, ha⟩ := not_or.mp (mt List.mem_cons.mpr ha)
    have hprefix : ¬ m :: mark <+: c :: (a ++ s) := fun h => hc (List.cons_prefix_cons.mp h).1
    rw [List.cons_append, cut_cons hprefix, ih ha, Option.map_map]
    rfl

theorem cut_of_not_mem {m : α} {mark a : List α} (ha : m ∉ a) (s : List α) :
    cut (m :: mark) (a ++ (m :: mark ++ s)) = some (a, s) := by
  rw [cut_append ha, cut_mark, Option.map_some, List.append_nil]

/-- The two parts are around a mark. -/
theorem cut_eq_some {mark s a b : List α} (h : cut mark s = some (a, b)) : s = a ++ mark ++ b := by
  induction s generalizing a with
  | nil =>
    rw [cut] at h
    split at h
    · obtain ⟨rfl, rfl⟩ : [] = a ∧ [] = b := by simpa using h
      simp [‹mark = []›]
    · cases h
  | cons c s ih =>
    rw [cut] at h
    split at h
    · obtain ⟨rest, hrest⟩ := ‹mark <+: c :: s›
      rw [← hrest, List.drop_left] at h
      obtain ⟨rfl, rfl⟩ : [] = a ∧ rest = b := by simpa using h
      exact hrest.symm
    · obtain ⟨⟨a', b'⟩, hcut, hparts⟩ := Option.map_eq_some_iff.mp h
      obtain ⟨rfl, rfl⟩ : c :: a' = a ∧ b' = b := by simpa using hparts
      rw [ih hcut]
      rfl

/-- No mark begins in `a` when `rest` follows it. -/
def Clear (mark a rest : List α) : Prop := ∀ i < a.length, ¬ mark <+: (a ++ rest).drop i

/-- A text and its pieces: every cut is made at the leftmost mark that is left. -/
inductive Cuts (mark : List α) : List α → List (List α) → Prop where
  | last {s : List α} (hclear : ¬ mark <:+: s) : Cuts mark s [s]
  | cut {a b : List α} {pieces : List (List α)} (hleft : Clear mark a (mark ++ b))
      (hrest : Cuts mark b pieces) : Cuts mark (a ++ (mark ++ b)) (a :: pieces)

/-- The marks of a text counted from the left without overlap: the first `skip`
characters belong to a mark that is counted. -/
def occurrences (mark : List α) : Nat → List α → Nat
  | _, [] => 0
  | skip + 1, _ :: s => occurrences mark skip s
  | 0, c :: s =>
    if mark <+: c :: s then occurrences mark (mark.length - 1) s + 1 else occurrences mark 0 s

theorem isInfix_iff_drop {mark s : List α} : mark <:+: s ↔ ∃ i ≤ s.length, mark <+: s.drop i := by
  constructor
  · rintro ⟨a, b, rfl⟩
    refine ⟨a.length, by simp only [List.length_append]; omega, b, ?_⟩
    rw [List.append_assoc, List.drop_left]
  · rintro ⟨i, -, hprefix⟩
    exact hprefix.isInfix.trans (List.drop_suffix i s).isInfix

theorem Clear.tail {mark a rest : List α} {c : α} (h : Clear mark (c :: a) rest) :
    ¬ mark <+: c :: (a ++ rest) ∧ Clear mark a rest := by
  constructor
  · exact h 0 (by simp)
  · intro i hi
    exact h (i + 1) (by simpa using hi)

/-- A clear text has no mark inside, whatever follows. -/
theorem Clear.not_inside {mark a rest : List α} (hmark : mark ≠ []) (h : Clear mark a rest) :
    ¬ mark <:+: a := by
  rintro ⟨before, after, hsplit⟩
  have hpos : 0 < mark.length := List.length_pos_iff.mpr hmark
  have hlt : before.length < a.length := by
    rw [← hsplit]
    simp only [List.length_append]
    omega
  apply h before.length hlt
  rw [← hsplit, List.append_assoc, List.append_assoc, List.drop_left]
  exact List.prefix_append mark _

theorem occurrences_drop (mark : List α) (skip : Nat) (s : List α) :
    occurrences mark skip s = occurrences mark 0 (s.drop skip) := by
  induction s generalizing skip with
  | nil => simp [occurrences]
  | cons c s ih =>
    cases skip with
    | zero => rfl
    | succ skip => exact ih skip

theorem occurrences_mark {mark : List α} (hmark : mark ≠ []) (b : List α) :
    occurrences mark 0 (mark ++ b) = occurrences mark 0 b + 1 := by
  obtain ⟨m, rest, rfl⟩ := List.exists_cons_of_ne_nil hmark
  have hprefix : m :: rest <+: m :: (rest ++ b) := List.prefix_append (m :: rest) b
  rw [List.cons_append, occurrences, if_pos hprefix, occurrences_drop]
  simp

theorem occurrences_clear {mark a rest : List α} (h : Clear mark a rest) :
    occurrences mark 0 (a ++ rest) = occurrences mark 0 rest := by
  induction a with
  | nil => rfl
  | cons c a ih =>
    obtain ⟨hhead, htail⟩ := h.tail
    rw [List.cons_append, occurrences, if_neg hhead, ih htail]

theorem occurrences_eq_zero {mark s : List α} (hmark : mark ≠ []) (h : ¬ mark <:+: s) :
    occurrences mark 0 s = 0 := by
  have hclear : Clear mark s [] := by
    intro i hi hprefix
    rw [List.append_nil] at hprefix
    exact h (isInfix_iff_drop.mpr ⟨i, by omega, hprefix⟩)
  have hcount := occurrences_clear hclear
  rw [List.append_nil] at hcount
  exact hcount

theorem Cuts.ne_nil {mark s : List α} {pieces : List (List α)} (h : Cuts mark s pieces) :
    pieces ≠ [] := by
  cases h <;> exact List.cons_ne_nil _ _

/-- The pieces joined by the mark are the text. -/
theorem Cuts.join {mark s : List α} {pieces : List (List α)} (h : Cuts mark s pieces) :
    mark.intercalate pieces = s := by
  induction h with
  | last => simp [List.intercalate]
  | cut hleft hrest ih =>
    obtain ⟨first, others, rfl⟩ := List.exists_cons_of_ne_nil hrest.ne_nil
    rw [← ih]
    simp [List.intercalate]

theorem Cuts.not_inside {mark s : List α} {pieces : List (List α)} (hmark : mark ≠ [])
    (h : Cuts mark s pieces) : ∀ piece ∈ pieces, ¬ mark <:+: piece := by
  induction h with
  | last hclear =>
    intro piece hmem
    rwa [List.mem_singleton.mp hmem]
  | cut hleft hrest ih =>
    intro piece hmem
    rcases List.mem_cons.mp hmem with rfl | hmem
    · exact hleft.not_inside hmark
    · exact ih piece hmem

/-- There is one piece more than there are marks. -/
theorem Cuts.length {mark s : List α} {pieces : List (List α)} (hmark : mark ≠ [])
    (h : Cuts mark s pieces) : pieces.length = occurrences mark 0 s + 1 := by
  induction h with
  | last hclear => rw [occurrences_eq_zero hmark hclear, List.length_singleton]
  | cut hleft hrest ih =>
    rw [occurrences_clear hleft, occurrences_mark hmark, List.length_cons, ih]

/-- Two texts that a mark follows at the leftmost place are the same. -/
theorem Clear.unique {mark a b a' b' : List α} (h : Clear mark a (mark ++ b))
    (h' : Clear mark a' (mark ++ b')) (hsame : a ++ (mark ++ b) = a' ++ (mark ++ b')) :
    a = a' ∧ b = b' := by
  have hle : a.length ≤ a'.length := by
    by_contra hlt
    apply h a'.length (by omega)
    rw [hsame, List.drop_left]
    exact List.prefix_append mark b'
  have hge : a'.length ≤ a.length := by
    by_contra hlt
    apply h' a.length (by omega)
    rw [← hsame, List.drop_left]
    exact List.prefix_append mark b
  obtain ⟨ha, hrest⟩ := List.append_inj hsame (by omega)
  exact ⟨ha, List.append_cancel_left hrest⟩

/-- A text is cut in one way. -/
theorem Cuts.unique {mark s : List α} {pieces pieces' : List (List α)}
    (h : Cuts mark s pieces) (h' : Cuts mark s pieces') : pieces = pieces' := by
  induction h generalizing pieces' with
  | @last s hclear =>
    generalize hs : s = t at h'
    cases h' with
    | last => rfl
    | @cut a b others hleft hrest =>
      exact absurd ⟨a, b, by rw [hs, List.append_assoc]⟩ hclear
  | @cut a b pieces hleft hrest ih =>
    generalize hs : a ++ (mark ++ b) = t at h'
    cases h' with
    | last hclear => exact absurd ⟨a, b, by rw [← hs, List.append_assoc]⟩ hclear
    | @cut a' b' others hleft' hrest' =>
      obtain ⟨rfl, rfl⟩ := hleft.unique hleft' hs
      rw [ih hrest']

/-- For one character the cuts are those of `splitOn`. -/
theorem Cuts.eq_splitOn {m : α} {s : List α} {pieces : List (List α)} (h : Cuts [m] s pieces) :
    pieces = s.splitOn m := by
  induction h with
  | last hclear =>
    have habsent : m ∉ _ := mt (List.singleton_infix_iff m _).mpr hclear
    exact (List.splitOn_eq_singleton habsent).symm
  | cut hleft hrest ih =>
    have habsent : m ∉ _ := mt (List.singleton_infix_iff m _).mpr (hleft.not_inside (by simp))
    rw [List.singleton_append, List.splitOn_append_cons_self_of_not_mem habsent, ← ih]

/-- The pieces of a text do not contain the separator, and nothing that the text does not. -/
theorem mem_splitOn {c : α} {s piece : List α} (h : piece ∈ s.splitOn c) :
    c ∉ piece ∧ ∀ d ∈ piece, d ∈ s := by
  induction s generalizing piece with
  | nil =>
    rw [List.splitOn_nil, List.mem_singleton] at h
    simp [h]
  | cons x s ih =>
    by_cases hx : x = c
    · have hsplit : (x :: s).splitOn c = [] :: s.splitOn c := by
        rw [hx]
        exact List.splitOn_append_cons_self [] s
      rw [hsplit] at h
      rcases List.mem_cons.mp h with rfl | h
      · simp
      · exact ⟨(ih h).1, fun d hd => List.mem_cons_of_mem x ((ih h).2 d hd)⟩
    · -- The first piece of the rest grows by a character that is not the separator.
      obtain ⟨first, rest, hfirst⟩ := List.exists_cons_of_ne_nil (List.splitOn_ne_nil c s)
      have hsplit : (x :: s).splitOn c = (x :: first) :: rest := by
        rw [List.splitOn_cons_eq_if_modifyHead, if_neg (by simpa using hx), hfirst]
        rfl
      rw [hsplit] at h
      rcases List.mem_cons.mp h with rfl | h
      · obtain ⟨hclear, hmem⟩ := @ih first (by simp [hfirst])
        refine ⟨by simp [Ne.symm hx, hclear], fun d hd => ?_⟩
        rcases List.mem_cons.mp hd with rfl | hd
        · exact List.mem_cons_self
        · exact List.mem_cons_of_mem x (hmem d hd)
      · obtain ⟨hclear, hmem⟩ := @ih piece (by simp [hfirst, h])
        exact ⟨hclear, fun d hd => List.mem_cons_of_mem x (hmem d hd)⟩

/-- Joined texts come apart into the pieces of each. -/
theorem splitOn_intercalate_flatMap {c : α} {texts : List (List α)} (h : texts ≠ []) :
    ([c].intercalate texts).splitOn c = texts.flatMap fun text => text.splitOn c := by
  induction texts with
  | nil => exact absurd rfl h
  | cons text texts ih =>
    cases texts with
    | nil => simp [List.intercalate]
    | cons text' texts =>
      have hjoin : [c].intercalate (text :: text' :: texts) =
          text ++ c :: [c].intercalate (text' :: texts) := by
        simp [List.intercalate]
      rw [hjoin, List.splitOn_append_cons_self, ih (List.cons_ne_nil _ _)]
      rfl

end delimited
