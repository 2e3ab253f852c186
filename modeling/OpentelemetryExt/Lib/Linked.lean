import OpentelemetryExt.Lib.Heap

open heap

namespace linked

/-- A cell of a singly linked list. -/
structure Node (α : Type) where
  value : α
  next : Option Nat

variable {α : Type}

/-- From this pointer on, the list has these values. -/
inductive Leads (h : Heap (Node α)) : Option Nat → List α → Prop
  | nil : Leads h none []
  | cons {p : Nat} {a : α} {next : Option Nat} {as : List α} :
      h.cell p = some ⟨a, next⟩ → Leads h next as → Leads h (some p) (a :: as)

/-- A new list with the values, and the pointer to its first cell. -/
def chain (h : Heap (Node α)) : List α → Option Nat × Heap (Node α)
  | [] => (none, h)
  | a :: as =>
    let rest := chain h as
    (some rest.2.next, rest.2.alloc ⟨a, rest.1⟩)

variable {h : Heap (Node α)} {p : Option Nat} {a : α} {as : List α}

theorem Leads.alloc (hleads : Leads h p as) (node : Node α) : Leads (h.alloc node) p as := by
  induction hleads with
  | nil => exact .nil
  | cons hcell _ ih => exact .cons (Heap.cell_alloc_of_some hcell) ih

theorem leads_chain (h : Heap (Node α)) (as : List α) : Leads (chain h as).2 (chain h as).1 as := by
  induction as with
  | nil => exact .nil
  | cons a as ih => exact .cons (Heap.cell_alloc_self _ _) (ih.alloc _)

theorem Leads.cell (hleads : Leads h p (a :: as)) :
    ∃ q next, p = some q ∧ h.cell q = some ⟨a, next⟩ ∧ Leads h next as := by
  cases hleads with
  | cons hcell hrest => exact ⟨_, _, rfl, hcell, hrest⟩

theorem Leads.eq_nil_iff (hleads : Leads h p as) : p = none ↔ as = [] := by
  cases hleads with
  | nil => simp
  | cons => simp

/-- The pointer to the next cell, or back to the head of the list from its last cell. -/
def Node.around (node : Node α) (head : Option Nat) : Option Nat :=
  match node.next with
  | some next => some next
  | none => head

/-- `q` is the cell at index `i` of the list that begins at `head`. -/
structure Stands (h : Heap (Node α)) (head : Option Nat) (as : List α) (i : Nat) (q : Nat) : Prop where
  list : Leads h head as
  rest : Leads h (some q) (as.drop i)

namespace Stands

variable {head : Option Nat} {i q : Nat}

theorem first (hlist : Leads h (some q) as) : Stands h (some q) as 0 q := ⟨hlist, hlist⟩

theorem lt_length (hstands : Stands h head as i q) : i < as.length := by
  by_contra hge
  have hnil : as.drop i = [] := List.drop_eq_nil_of_le (not_lt.mp hge)
  have hnone := hstands.rest.eq_nil_iff.mpr hnil
  cases hnone

theorem value (hstands : Stands h head as i q) :
    ∃ a next, as[i]? = some a ∧ h.cell q = some ⟨a, next⟩ ∧ Leads h next (as.drop (i + 1)) := by
  have hlt := hstands.lt_length
  have hrest := hstands.rest
  rw [List.drop_eq_getElem_cons hlt] at hrest
  obtain ⟨q', next, hq, hcell, hnext⟩ := hrest.cell
  cases hq
  exact ⟨as[i], next, List.getElem?_eq_getElem hlt, hcell, hnext⟩

/-- One step around the list goes to the next index, modulo the length. -/
theorem around {node : Node α} (hstands : Stands h head as i q) (hcell : h.cell q = some node) :
    ∃ q', node.around head = some q' ∧ Stands h head as ((i + 1) % as.length) q' := by
  have hlt := hstands.lt_length
  obtain ⟨a, next, -, hcell', hnext⟩ := hstands.value
  obtain rfl : node = ⟨a, next⟩ := Option.some.inj (hcell.symm.trans hcell')
  cases next with
  | some q' =>
    have hinside : i + 1 < as.length := by
      by_contra hge
      have hnone := hnext.eq_nil_iff.mpr (List.drop_eq_nil_of_le (not_lt.mp hge))
      cases hnone
    refine ⟨q', rfl, hstands.list, ?_⟩
    rwa [Nat.mod_eq_of_lt hinside]
  | none =>
    have hend : as.length ≤ i + 1 := List.drop_eq_nil_iff.mp (hnext.eq_nil_iff.mp rfl)
    obtain rfl | ⟨q', rfl⟩ := head.eq_none_or_eq_some
    · rw [hstands.list.eq_nil_iff.mp rfl] at hlt
      exact absurd hlt (Nat.not_lt_zero _)
    · refine ⟨q', rfl, hstands.list, ?_⟩
      have hlast : i + 1 = as.length := le_antisymm hlt hend
      rw [hlast, Nat.mod_self]
      exact hstands.list

end Stands

end linked
