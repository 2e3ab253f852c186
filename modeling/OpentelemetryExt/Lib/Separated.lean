import Mathlib.Data.List.DropRight
import Mathlib.Tactic

namespace separated

variable {α β : Type} {sep : α} {text : β → List α} {bare : β → Prop} [DecidablePred bare]
  {l : List β} {y : β}

/-- The texts one after another, each with `sep` behind it except the bare ones. -/
def followed (sep : α) (text : β → List α) (bare : β → Prop) [DecidablePred bare] (l : List β) :
    List α :=
  l.flatMap fun y => if bare y then text y else text y ++ [sep]

/-- The texts one after another, each with `sep` before it. -/
def preceded (sep : α) (text : β → List α) (l : List β) : List α := l.flatMap fun y => sep :: text y

theorem followed_singleton :
    followed sep text bare [y] = if bare y then text y else text y ++ [sep] :=
  List.flatMap_singleton ..

theorem followed_append (l l' : List β) : followed sep text bare (l ++ l') =
    followed sep text bare l ++ followed sep text bare l' := List.flatMap_append ..

theorem followed_congr {text' : β → List α} (h : ∀ y ∈ l, text y = text' y) :
    followed sep text bare l = followed sep text' bare l :=
  List.flatMap_congr fun y hy => by rw [h y hy]

theorem preceded_concat : preceded sep text (l ++ [y]) = preceded sep text l ++ sep :: text y := by
  rw [preceded, List.flatMap_append, List.flatMap_singleton]
  rfl

/-- A bare text saves one `sep`. -/
theorem length_followed : (followed sep text bare l).length + l.countP (fun y => bare y) =
    (preceded sep text l).length := by
  induction l with
  | nil => rfl
  | cons y l ih =>
    simp only [followed, preceded, List.flatMap_cons, List.length_append, List.length_cons,
      List.countP_cons] at ih ⊢
    by_cases hbare : bare y
    · rw [if_pos hbare, if_pos (decide_eq_true hbare)]
      omega
    · rw [if_neg hbare, if_neg (by simpa using hbare), List.length_append, List.length_singleton]
      omega

/-- Where every text has its own `sep`, it does not matter on which side. -/
theorem followed_eq_preceded_iff :
    sep :: followed sep text bare l = preceded sep text l ++ [sep] ↔ ∀ y ∈ l, ¬ bare y := by
  constructor
  · intro h
    have hlength := congrArg List.length h
    have hcount : (followed sep text bare l).length + l.countP (fun y => bare y) =
        (preceded sep text l).length := length_followed
    rw [List.length_cons, List.length_append, List.length_singleton] at hlength
    have hzero : l.countP (fun y => bare y) = 0 := by omega
    intro y hy hbare
    exact List.countP_eq_zero.mp hzero y hy (decide_eq_true hbare)
  · intro h
    induction l with
    | nil => rfl
    | cons y l ih =>
      obtain ⟨hy, hl⟩ := List.forall_mem_cons.mp h
      have hrest := ih hl
      calc sep :: followed sep text bare (y :: l)
          = sep :: text y ++ (sep :: followed sep text bare l) := by
            simp only [followed, List.flatMap_cons, if_neg hy, List.cons_append,
              List.append_assoc, List.nil_append]
        _ = preceded sep text (y :: l) ++ [sep] := by
            rw [hrest]
            simp only [preceded, List.flatMap_cons, List.cons_append, List.append_assoc]

variable {a b s : List α}

/-- A text that is not empty, and neither begins nor ends with `sep`. -/
structure Solid (sep : α) (s : List α) : Prop where
  ne_nil : s ≠ []
  head : s.head? ≠ some sep
  last : s.getLast? ≠ some sep

theorem Solid.append (ha : Solid sep a) (hb : Solid sep b) (s : List α) :
    Solid sep (a ++ s ++ b) where
  ne_nil h := hb.ne_nil (List.append_eq_nil_iff.mp h).2
  head := by
    rw [List.append_assoc, List.head?_append_of_ne_nil _ ha.ne_nil]
    exact ha.head
  last := by
    rw [List.getLast?_append_of_ne_nil _ hb.ne_nil]
    exact hb.last

theorem Solid.map {f : α → α} (hf : ∀ c, f c = sep → c = sep) (ha : Solid sep a) :
    Solid sep (a.map f) where
  ne_nil h := ha.ne_nil (List.map_eq_nil_iff.mp h)
  head h := by
    rw [List.head?_map] at h
    obtain ⟨c, hc, hsep⟩ := Option.map_eq_some_iff.mp h
    apply ha.head
    rw [hc, hf c hsep]
  last h := by
    rw [List.getLast?_map] at h
    obtain ⟨c, hc, hsep⟩ := Option.map_eq_some_iff.mp h
    apply ha.last
    rw [hc, hf c hsep]

variable [DecidableEq α]

/-- A text without what it has of `sep` at both ends. -/
def strip (sep : α) (s : List α) : List α := (s.dropWhile (· == sep)).rdropWhile (· == sep)

/-- From a text that begins with another character nothing is taken on the left. -/
theorem strip_append (ha : Solid sep a) (s : List α) :
    strip sep (a ++ s) = (a ++ s).rdropWhile (· == sep) := by
  obtain ⟨c, rest, rfl⟩ := List.exists_cons_of_ne_nil ha.ne_nil
  have hc : c ≠ sep := fun h => ha.head (congrArg some h)
  rw [strip, List.cons_append, List.dropWhile_cons_of_neg]
  simpa using hc

theorem rdropWhile_solid (ha : Solid sep a) : a.rdropWhile (· == sep) = a := by
  rw [List.rdropWhile_eq_self_iff]
  intro hne hlast
  apply ha.last
  rw [List.getLast?_eq_some_getLast hne, beq_iff_eq.mp hlast]

theorem strip_solid (ha : Solid sep a) : strip sep a = a := by
  have h := strip_append ha []
  rw [List.append_nil] at h
  rw [h, rdropWhile_solid ha]

theorem strip_concat (ha : Solid sep a) : strip sep (a ++ [sep]) = a := by
  have hsep : (sep == sep) = true := beq_self_eq_true sep
  rw [strip_append ha, List.rdropWhile_concat_pos (· == sep) _ _ hsep, rdropWhile_solid ha]

theorem getLast?_strip (sep : α) (s : List α) : (strip sep s).getLast? ≠ some sep := by
  intro h
  have hne : strip sep s ≠ [] := by
    rintro hnil
    rw [hnil] at h
    cases h
  have hlast := List.rdropWhile_last_not (· == sep) (s.dropWhile (· == sep)) hne
  rw [List.getLast?_eq_some_getLast hne] at h
  exact hlast (beq_iff_eq.mpr (Option.some.inj h))

/-- Texts written with a `sep` behind each of them but the bare ones, and stripped at the end, are
texts with a `sep` before each of them if and only if none but the last is bare, and none empty. -/
theorem strip_followed_iff (ha : Solid sep a)
    (htext : ∀ y ∈ l, Solid sep (text y) ∨ bare y ∧ text y = []) :
    strip sep (a ++ sep :: followed sep text bare l) = a ++ preceded sep text l ↔
      (∀ y ∈ l.dropLast, ¬ bare y) ∧ ∀ y ∈ l, text y ≠ [] := by
  obtain rfl | ⟨init, y, rfl⟩ := List.eq_nil_or_concat' l
  · refine iff_of_true ?_ ⟨fun y hy => absurd hy List.not_mem_nil, fun y hy => absurd hy
      List.not_mem_nil⟩
    exact (strip_concat ha).trans (List.append_nil a).symm
  obtain ⟨hinit, hlast⟩ := List.forall_mem_append.mp htext
  rw [followed_append, followed_singleton, preceded_concat, List.dropLast_concat,
    List.forall_mem_append]
  obtain hsolid | ⟨hbare, hempty⟩ := hlast y (List.mem_singleton_self y)
  · have hstrip : strip sep (a ++ sep :: (followed sep text bare init ++
        if bare y then text y else text y ++ [sep])) =
        a ++ (sep :: followed sep text bare init) ++ text y := by
      have hwhole := ha.append hsolid (sep :: followed sep text bare init)
      by_cases hbare : bare y
      · rw [if_pos hbare, ← List.cons_append, ← List.append_assoc]
        exact strip_solid hwhole
      · rw [if_neg hbare, ← List.cons_append, ← List.append_assoc, ← List.append_assoc]
        exact strip_concat hwhole
    have hsplit : a ++ (preceded sep text init ++ sep :: text y) =
        a ++ (preceded sep text init ++ [sep]) ++ text y := by simp
    rw [hstrip, hsplit, List.append_left_inj, List.append_right_inj, followed_eq_preceded_iff]
    constructor
    · intro hbare
      refine ⟨hbare, fun z hz => ?_, fun z hz => ?_⟩
      · obtain hz' | ⟨hz', -⟩ := hinit z hz
        · exact hz'.ne_nil
        · exact absurd hz' (hbare z hz)
      · rw [List.mem_singleton.mp hz]
        exact hsolid.ne_nil
    · exact fun h => h.1
  · refine iff_of_false (fun h => ?_) fun h => h.2.2 y (List.mem_singleton_self y) hempty
    apply getLast?_strip sep (a ++ sep :: (followed sep text bare init ++
      if bare y then text y else text y ++ [sep]))
    rw [h, hempty, List.getLast?_append_of_ne_nil _ (by simp), List.getLast?_concat]

end separated
