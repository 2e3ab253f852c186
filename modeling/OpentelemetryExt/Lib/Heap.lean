import Mathlib.Data.List.Basic
import Mathlib.Data.Set.Insert
import Mathlib.Tactic

namespace heap

/-- Objects of one type by address. Nothing lives at or above `next`, and addresses are
never used twice, so that a pointer to a deleted object stays recognisable. -/
structure Heap (α : Type) where
  next : Nat
  cell : Nat → Option α
  fresh : ∀ p, next ≤ p → cell p = none

variable {α : Type}

namespace Heap

def empty : Heap α := ⟨0, fun _ => none, fun _ _ => rfl⟩

/-- The heap after `a` was allocated at `h.next`. -/
def alloc (h : Heap α) (a : α) : Heap α where
  next := h.next + 1
  cell p := if p = h.next then some a else h.cell p
  fresh p hp := by
    rw [if_neg (by omega)]
    exact h.fresh p (by omega)

def modify (h : Heap α) (p : Nat) (f : α → α) : Heap α where
  next := h.next
  cell q := if q = p then (h.cell q).map f else h.cell q
  fresh q hq := by simp [h.fresh q hq]

def free (h : Heap α) (dead : List Nat) : Heap α where
  next := h.next
  cell q := if q ∈ dead then none else h.cell q
  fresh q hq := by simp [h.fresh q hq]

/-- The heap with `c` for what is at `p`, whatever was there. -/
def put (p : Nat) (c : Option α) (h : Heap α) : Heap α where
  next := max h.next (p + 1)
  cell q := if q = p then c else h.cell q
  fresh q hq := by
    rw [if_neg (by omega)]
    exact h.fresh q (by omega)

theorem lt_next {h : Heap α} {p : Nat} {a : α} (hp : h.cell p = some a) : p < h.next := by
  by_contra hge
  rw [h.fresh p (by omega)] at hp
  cases hp

theorem cell_alloc (h : Heap α) (a : α) (p : Nat) :
    (h.alloc a).cell p = if p = h.next then some a else h.cell p := rfl

theorem cell_free (h : Heap α) (dead : List Nat) (p : Nat) :
    (h.free dead).cell p = if p ∈ dead then none else h.cell p := rfl

@[simp]
theorem cell_alloc_self (h : Heap α) (a : α) : (h.alloc a).cell h.next = some a := if_pos rfl

theorem cell_alloc_of_some {h : Heap α} {p : Nat} {a b : α} (hp : h.cell p = some b) :
    (h.alloc a).cell p = some b := by
  have := lt_next hp
  have hne : p ≠ h.next := by omega
  simp [alloc, hp, hne]

theorem cell_alloc_ne {h : Heap α} {p : Nat} {a : α} (hp : p ≠ h.next) :
    (h.alloc a).cell p = h.cell p := if_neg hp

@[simp]
theorem cell_modify_self (h : Heap α) (p : Nat) (f : α → α) :
    (h.modify p f).cell p = (h.cell p).map f := if_pos rfl

theorem cell_modify_ne {h : Heap α} {p q : Nat} {f : α → α} (hq : q ≠ p) :
    (h.modify p f).cell q = h.cell q := if_neg hq

theorem cell_alloc_cases {h : Heap α} {p : Nat} {a b : α} (hp : (h.alloc a).cell p = some b) :
    p = h.next ∧ b = a ∨ h.cell p = some b := by
  rw [cell_alloc] at hp
  split at hp
  · exact .inl ⟨‹_›, (Option.some.inj hp).symm⟩
  · exact .inr hp

theorem cell_modify_cases {h : Heap α} {p q : Nat} {f : α → α} {b : α}
    (hq : (h.modify p f).cell q = some b) :
    q = p ∧ (∃ a, h.cell p = some a ∧ b = f a) ∨ q ≠ p ∧ h.cell q = some b := by
  by_cases hp : q = p
  · subst hp
    rw [cell_modify_self] at hq
    obtain ⟨a, ha, rfl⟩ := Option.map_eq_some_iff.mp hq
    exact .inl ⟨rfl, a, ha, rfl⟩
  · rw [cell_modify_ne hp] at hq
    exact .inr ⟨hp, hq⟩

theorem cell_of_free {h : Heap α} {dead : List Nat} {p : Nat} {a : α}
    (hp : (h.free dead).cell p = some a) : h.cell p = some a := by
  rw [cell_free] at hp
  split at hp
  · cases hp
  · exact hp

/-- The addresses at which there is an object. -/
def live (h : Heap α) : Set Nat := {p | (h.cell p).isSome}

@[simp] theorem live_empty : (empty : Heap α).live = ∅ := by
  ext p
  simp [live, empty]

@[simp]
theorem live_alloc (h : Heap α) (a : α) : (h.alloc a).live = insert h.next h.live := by
  ext p
  by_cases hp : p = h.next
  · simp [live, cell_alloc, hp]
  · simp [live, cell_alloc, hp]

@[simp]
theorem live_modify (h : Heap α) (p : Nat) (f : α → α) : (h.modify p f).live = h.live := by
  ext q
  by_cases hq : q = p
  · subst hq
    simp [live]
  · simp [live, cell_modify_ne hq]

theorem live_free (h : Heap α) (dead : List Nat) :
    (h.free dead).live = h.live \ {p | p ∈ dead} := by
  ext p
  by_cases hp : p ∈ dead
  · simp [live, cell_free, hp]
  · simp [live, cell_free, hp]

theorem next_not_mem_live (h : Heap α) : h.next ∉ h.live := by
  simp [live, h.fresh h.next le_rfl]

theorem cell_put_ne {h : Heap α} {p q : Nat} {c : Option α} (hq : q ≠ p) :
    (h.put p c).cell q = h.cell q := if_neg hq

theorem modify_put {h : Heap α} {p q : Nat} {c : Option α} (f : α → α) (hq : q ≠ p) :
    (h.put p c).modify q f = (h.modify q f).put p c := by
  unfold modify put
  simp only [mk.injEq, true_and]
  funext q'
  by_cases hp : q' = p
  · subst hp
    rw [if_neg (Ne.symm hq), if_pos rfl, if_pos rfl]
  · simp only [if_neg hp]

/-- Two updates of one object are one. -/
theorem modify_modify (h : Heap α) (p : Nat) (f g : α → α) :
    (h.modify p f).modify p g = h.modify p fun a => g (f a) := by
  unfold modify
  simp only [mk.injEq, true_and]
  funext q
  by_cases hq : q = p
  · simp only [if_pos hq, Option.map_map, Function.comp_def]
  · simp only [if_neg hq]

@[simp] theorem next_modify (h : Heap α) (p : Nat) (f : α → α) : (h.modify p f).next = h.next := rfl

@[simp] theorem next_free (h : Heap α) (dead : List Nat) : (h.free dead).next = h.next := rfl

/-- The heap with no address below `n` left to give out: all else that took them is elsewhere. -/
def skip (h : Heap α) (n : Nat) : Heap α where
  next := max h.next n
  cell := h.cell
  fresh p hp := h.fresh p (by omega)

/-- The second heap has given out no more addresses than the first, and those in `own` have the
same objects in both. -/
structure Alike (own : Set Nat) (h h' : Heap α) : Prop where
  next : h'.next ≤ h.next
  same (p : Nat) : p ∈ own → h'.cell p = h.cell p
  below (p : Nat) : p ∈ own → p < h.next

/-- Two heaps have the same objects at the addresses in `own`, and give out the same next. In the
first of them, the objects at the addresses in `others` are still those of `before`. -/
structure Shares (own others : Set Nat) (before h h' : Heap α) : Prop where
  next : h'.next = h.next
  grown : before.next ≤ h.next
  same (p : Nat) : p ∈ own → h'.cell p = h.cell p
  below (p : Nat) : p ∈ own → p < h.next
  apart (p : Nat) : p ∈ others → p ∉ own ∧ p < h.next ∧ h.cell p = before.cell p

namespace Shares

variable {own others : Set Nat} {before h h' : Heap α}

theorem alloc (hs : Shares own others before h h') (a : α) :
    Shares (insert h.next own) others before (h.alloc a) (h'.alloc a) where
  next := congrArg (· + 1) hs.next
  grown := Nat.le_succ_of_le hs.grown
  same p hp := by
    rw [cell_alloc, cell_alloc, hs.next]
    by_cases hnew : p = h.next
    · rw [if_pos hnew, if_pos hnew]
    · rw [if_neg hnew, if_neg hnew]
      exact hs.same p (hp.resolve_left hnew)
  below p hp := by
    rcases hp with rfl | hp
    · exact Nat.lt_succ_self _
    · exact Nat.lt_succ_of_lt (hs.below p hp)
  apart p hp := by
    obtain ⟨hown, hlt, hcell⟩ := hs.apart p hp
    have hne : p ≠ h.next := by omega
    refine ⟨fun hmem => hmem.elim hne hown, Nat.lt_succ_of_lt hlt, ?_⟩
    rw [cell_alloc_ne hne, hcell]

theorem modify (hs : Shares own others before h h') {p : Nat} (hp : p ∈ own) (f : α → α) :
    Shares own others before (h.modify p f) (h'.modify p f) where
  next := hs.next
  grown := hs.grown
  same q hq := by
    by_cases heq : q = p
    · subst heq
      rw [cell_modify_self, cell_modify_self, hs.same q hq]
    · rw [cell_modify_ne heq, cell_modify_ne heq, hs.same q hq]
  below := hs.below
  apart q hq := by
    obtain ⟨hown, hlt, hcell⟩ := hs.apart q hq
    refine ⟨hown, hlt, ?_⟩
    have hne : q ≠ p := by
      rintro rfl
      exact hown hp
    rw [cell_modify_ne hne, hcell]

theorem free (hs : Shares own others before h h') {dead : List Nat} (hdead : ∀ p ∈ dead, p ∈ own) :
    Shares own others before (h.free dead) (h'.free dead) where
  next := hs.next
  grown := hs.grown
  same q hq := by
    rw [cell_free, cell_free, hs.same q hq]
  below := hs.below
  apart q hq := by
    obtain ⟨hown, hlt, hcell⟩ := hs.apart q hq
    refine ⟨hown, hlt, ?_⟩
    rw [cell_free, if_neg fun hmem => hown (hdead q hmem), hcell]

theorem alike (hs : Shares own others before h h') : Alike own h h' :=
  ⟨hs.next.le, hs.same, hs.below⟩

end Shares

/-- Once both have skipped the addresses that went elsewhere, they give out the same next. -/
theorem Alike.shares {own others : Set Nat} {h h' : Heap α} {n : Nat} (ha : Alike own h h')
    (hn : h.next ≤ n) (hothers : ∀ p ∈ others, p ∉ own ∧ p < h.next) :
    Shares own others h (h.skip n) (h'.skip n) where
  next := by
    have hnext := ha.next
    change max h'.next n = max h.next n
    omega
  grown := Nat.le_max_left _ _
  same := ha.same
  below p hp := lt_of_lt_of_le (ha.below p hp) (Nat.le_max_left _ _)
  apart p hp := by
    obtain ⟨hown, hlt⟩ := hothers p hp
    exact ⟨hown, lt_of_lt_of_le hlt (Nat.le_max_left _ _), rfl⟩

/-- What happens to others leaves a heap like the one it was like. -/
theorem Alike.frame {own own' others : Set Nat} {before h h' u : Heap α} (ha : Alike own before u)
    (hs : Shares own' others before h h') (hown : own ⊆ others) : Alike own h u where
  next := ha.next.trans hs.grown
  same p hp := by
    rw [ha.same p hp, (hs.apart p (hown hp)).2.2]
  below p hp := (hs.apart p (hown hp)).2.1

end Heap

end heap
