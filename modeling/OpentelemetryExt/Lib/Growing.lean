import Mathlib.Data.List.Basic
import Mathlib.Data.List.Infix
import OpentelemetryExt.Lib.Heap

open heap

namespace growing

variable {α β : Type} {R : α → α → Prop} {l l' : List α} {a : α}

/-- Where the first list has an element, the second has one that `R` lets it become. The second may
be longer. -/
def Grows (R : α → α → Prop) (l l' : List α) : Prop :=
  ∀ (i : Nat) (a : α), l[i]? = some a → ∃ b, l'[i]? = some b ∧ R a b

instance instRefl [Std.Refl R] : Std.Refl (Grows R) := ⟨fun _ _ a ha => ⟨a, ha, Std.Refl.refl a⟩⟩

instance instIsTrans [IsTrans α R] : IsTrans (List α) (Grows R) where
  trans _ _ _ h h' i a ha := by
    obtain ⟨b, hb, hab⟩ := h i a ha
    obtain ⟨c, hc, hbc⟩ := h' i b hb
    exact ⟨c, hc, IsTrans.trans a b c hab hbc⟩

theorem Grows.length (h : Grows R l l') : l.length ≤ l'.length := by
  by_contra hlt
  have hin : l'.length < l.length := by omega
  obtain ⟨b, hb, -⟩ := h l'.length l[l'.length] (List.getElem?_eq_getElem hin)
  rw [List.getElem?_eq_none (le_refl _)] at hb
  cases hb

theorem Grows.append [Std.Refl R] (l m : List α) : Grows R l (l ++ m) := by
  intro i a ha
  obtain ⟨hin, -⟩ := List.getElem?_eq_some_iff.mp ha
  refine ⟨a, ?_, Std.Refl.refl a⟩
  rw [List.getElem?_append_left hin]
  exact ha

theorem Grows.modify [Std.Refl R] (l : List α) (i : Nat) {f : α → α} (hf : ∀ a, R a (f a)) :
    Grows R l (l.modify i f) := by
  intro j a ha
  rw [List.getElem?_modify, ha]
  by_cases hij : i = j
  · exact ⟨f a, by simp [hij], hf a⟩
  · exact ⟨a, by simp [hij], Std.Refl.refl a⟩

/-- The element that was added last. -/
theorem modify_concat (l : List α) (a : α) (f : α → α) :
    (l ++ [a]).modify l.length f = l ++ [f a] :=
  List.modifyTailIdx_add (List.modifyHead f) 0 l [a]

/-- What a function shows of the elements grows with them. -/
theorem Grows.map {S : β → β → Prop} {f : α → β} (h : Grows R l l')
    (hf : ∀ a b, R a b → S (f a) (f b)) : Grows S (l.map f) (l'.map f) := by
  intro i b hb
  rw [List.getElem?_map, Option.map_eq_some_iff] at hb
  obtain ⟨a, ha, rfl⟩ := hb
  obtain ⟨c, hc, hac⟩ := h i a ha
  exact ⟨f c, by rw [List.getElem?_map, hc, Option.map_some], hf a c hac⟩

/-- All that was allocated from `p` on, in order. -/
structure Stretch (p : Nat) (l : List α) (h : Heap α) : Prop where
  next : h.next = p + l.length
  cell (i : Nat) : h.cell (p + i) = l[i]?

namespace Stretch

variable {p q : Nat} {h : Heap α}

theorem alloc (hs : Stretch p l h) (a : α) : Stretch p (l ++ [a]) (h.alloc a) where
  next := by
    change h.next + 1 = _
    rw [hs.next, List.length_append, List.length_singleton]
    omega
  cell i := by
    rw [Heap.cell_alloc, hs.next]
    rcases lt_trichotomy i l.length with hlt | heq | hgt
    · rw [if_neg (by omega), hs.cell, List.getElem?_append_left hlt]
    · rw [if_pos (by omega), heq]
      simp
    · rw [if_neg (by omega), hs.cell, List.getElem?_eq_none (by omega), List.getElem?_eq_none]
      simp only [List.length_append, List.length_singleton]
      omega

theorem modify (hs : Stretch p l h) (i : Nat) (f : α → α) :
    Stretch p (l.modify i f) (h.modify (p + i) f) where
  next := by rw [Heap.next_modify, hs.next, List.length_modify]
  cell j := by
    rw [List.getElem?_modify]
    by_cases hij : i = j
    · subst hij
      rw [Heap.cell_modify_self, hs.cell]
      simp
    · rw [Heap.cell_modify_ne (by omega), hs.cell]
      simp [hij]

/-- What was there before is none of it. -/
theorem modify_lt (hs : Stretch p l h) (hq : q < p) (f : α → α) : Stretch p l (h.modify q f) where
  next := hs.next
  cell i := by rw [Heap.cell_modify_ne (by omega), hs.cell]

theorem filterMap (hs : Stretch p l h) : (List.range' p l.length).filterMap h.cell = l := by
  have hcells : (List.range' p l.length).map h.cell = l.map some := by
    refine List.ext_getElem? fun i => ?_
    rw [List.getElem?_map, List.getElem?_map]
    by_cases hi : i < l.length
    · rw [List.getElem?_range' hi, Option.map_some, Nat.one_mul, hs.cell, List.getElem?_eq_getElem hi]
      rfl
    · rw [List.getElem?_eq_none (by simp; omega), List.getElem?_eq_none (by omega)]
      rfl
  have hsame := congrArg (List.filterMap id) hcells
  rwa [List.filterMap_map, List.filterMap_map, Function.id_comp, Function.id_comp,
    List.filterMap_some] at hsame

theorem of_empty (h : Heap α) : Stretch h.next [] h where
  next := rfl
  cell i := by
    rw [h.fresh _ (by omega)]
    rfl

end Stretch

end growing
