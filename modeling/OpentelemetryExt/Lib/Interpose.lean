import Mathlib.Logic.Function.Basic
import Mathlib.Data.List.Nodup
import Mathlib.Tactic

namespace interpose

/-- Entries of a table, each with a handler that can be replaced. -/
class Hookable (F A : Type) where
  handler : F → A
  withHandler : A → F → F
  handler_withHandler (a : A) (f : F) : handler (withHandler a f) = a
  withHandler_handler (f : F) : withHandler (handler f) f = f
  withHandler_withHandler (a b : A) (f : F) : withHandler b (withHandler a f) = withHandler b f

open Hookable

variable {P S F A : Type}

/-- A table that others may add to, and the handlers that were replaced in it. -/
structure State (P S F A : Type) where
  table : P → Option F
  saved : S → Option A

/-- The table `later` is `table` with more entries. -/
def Extends (table later : P → Option F) : Prop := ∀ p f, table p = some f → later p = some f

theorem Extends.update [DecidableEq P] {table : P → Option F} {p : P} (h : table p = none) (f : F) :
    Extends table (Function.update table p (some f)) := by
  intro q g hg
  have hne : q ≠ p := by
    rintro rfl
    rw [h] at hg
    cases hg
  rw [Function.update_of_ne hne, hg]

/-- What is put into a place, and where the handler from there is saved. -/
structure Hooking (P S A : Type) where
  place : P
  slot : S
  hook : A

/-- No place is hooked twice, and no slot used twice. -/
structure Distinct (xs : List (Hooking P S A)) : Prop where
  places : (xs.map Hooking.place).Nodup
  slots : (xs.map Hooking.slot).Nodup

theorem Distinct.tail {x : Hooking P S A} {xs : List (Hooking P S A)} (h : Distinct (x :: xs)) :
    Distinct xs :=
  ⟨(List.nodup_cons.mp h.places).2, (List.nodup_cons.mp h.slots).2⟩

theorem Distinct.head {x y : Hooking P S A} {xs : List (Hooking P S A)} (h : Distinct (x :: xs))
    (hy : y ∈ xs) : y.place ≠ x.place ∧ y.slot ≠ x.slot := by
  constructor
  · intro heq
    exact (List.nodup_cons.mp h.places).1 (List.mem_map.mpr ⟨y, hy, heq⟩)
  · intro heq
    exact (List.nodup_cons.mp h.slots).1 (List.mem_map.mpr ⟨y, hy, heq⟩)

theorem Distinct.sublist {xs ys : List (Hooking P S A)} (h : Distinct ys) (hsub : xs.Sublist ys) :
    Distinct xs :=
  ⟨h.places.sublist (hsub.map _), h.slots.sublist (hsub.map _)⟩

variable [DecidableEq P] [DecidableEq S] [Hookable F A]

/-- A place that is empty is passed over. -/
def hook (x : Hooking P S A) (s : State P S F A) : State P S F A :=
  match s.table x.place with
  | some f => { table := Function.update s.table x.place (some (withHandler x.hook f))
                saved := Function.update s.saved x.slot (some (handler f)) }
  | none => s

/-- Where nothing was saved, `null` is put back, and saved. -/
def unhook (null : A) (x : Hooking P S A) (s : State P S F A) : State P S F A :=
  match s.table x.place with
  | some f =>
    { table := Function.update s.table x.place (some (withHandler ((s.saved x.slot).getD null) f))
      saved := Function.update s.saved x.slot (some ((s.saved x.slot).getD null)) }
  | none => s

def hookAll (xs : List (Hooking P S A)) (s : State P S F A) : State P S F A :=
  xs.foldl (fun s x => hook x s) s

def unhookAll (null : A) (xs : List (Hooking P S A)) (s : State P S F A) : State P S F A :=
  xs.foldl (fun s x => unhook null x s) s

variable {s : State P S F A} {x : Hooking P S A} {xs ys : List (Hooking P S A)} {null : A}

theorem hookAll_append : hookAll (xs ++ ys) s = hookAll ys (hookAll xs s) := List.foldl_append

theorem unhookAll_append :
    unhookAll null (xs ++ ys) s = unhookAll null ys (unhookAll null xs s) :=
  List.foldl_append

theorem hook_table_self : (hook x s).table x.place = (s.table x.place).map (withHandler x.hook) := by
  unfold hook
  cases hplace : s.table x.place with
  | none => exact hplace
  | some f => exact Function.update_self _ _ _

theorem hook_table_ne {p : P} (hne : p ≠ x.place) : (hook x s).table p = s.table p := by
  unfold hook
  cases s.table x.place with
  | none => rfl
  | some f => exact Function.update_of_ne hne _ _

theorem hook_saved_self : (hook x s).saved x.slot =
    ((s.table x.place).map handler).or (s.saved x.slot) := by
  unfold hook
  cases s.table x.place with
  | none => rfl
  | some f => exact Function.update_self _ _ _

theorem hook_saved_ne {q : S} (hne : q ≠ x.slot) : (hook x s).saved q = s.saved q := by
  unfold hook
  cases s.table x.place with
  | none => rfl
  | some f => exact Function.update_of_ne hne _ _

theorem unhook_table_self : (unhook null x s).table x.place =
    (s.table x.place).map (withHandler ((s.saved x.slot).getD null)) := by
  unfold unhook
  cases hplace : s.table x.place with
  | none => exact hplace
  | some f => exact Function.update_self _ _ _

theorem unhook_table_ne {p : P} (hne : p ≠ x.place) :
    (unhook null x s).table p = s.table p := by
  unfold unhook
  cases s.table x.place with
  | none => rfl
  | some f => exact Function.update_of_ne hne _ _

theorem unhook_saved_ne {q : S} (hne : q ≠ x.slot) : (unhook null x s).saved q = s.saved q := by
  unfold unhook
  cases s.table x.place with
  | none => rfl
  | some f => exact Function.update_of_ne hne _ _

theorem hookAll_table_of_forall_ne {p : P} (h : ∀ x ∈ xs, p ≠ x.place) :
    (hookAll xs s).table p = s.table p := by
  induction xs generalizing s with
  | nil => rfl
  | cons x xs ih =>
    obtain ⟨hx, hxs⟩ := List.forall_mem_cons.mp h
    exact (ih hxs).trans (hook_table_ne hx)

theorem hookAll_saved_of_forall_ne {q : S} (h : ∀ x ∈ xs, q ≠ x.slot) :
    (hookAll xs s).saved q = s.saved q := by
  induction xs generalizing s with
  | nil => rfl
  | cons x xs ih =>
    obtain ⟨hx, hxs⟩ := List.forall_mem_cons.mp h
    exact (ih hxs).trans (hook_saved_ne hx)

/-- Nothing is put into an empty place. -/
theorem hookAll_table_eq_none {p : P} (h : s.table p = none) : (hookAll xs s).table p = none := by
  induction xs generalizing s with
  | nil => exact h
  | cons x xs ih =>
    apply ih
    by_cases hp : p = x.place
    · subst hp
      rw [hook_table_self, h, Option.map_none]
    · rw [hook_table_ne hp, h]

/-- Every place of the list that is taken holds its hook. -/
theorem hookAll_table (hdistinct : Distinct xs) (hmem : x ∈ xs) :
    (hookAll xs s).table x.place = (s.table x.place).map (withHandler x.hook) := by
  induction xs generalizing s with
  | nil => cases hmem
  | cons y xs ih =>
    rcases List.mem_cons.mp hmem with rfl | hmem
    · have hrest : ∀ z ∈ xs, x.place ≠ z.place := fun z hz => (hdistinct.head hz).1.symm
      exact (hookAll_table_of_forall_ne hrest).trans hook_table_self
    · have hne : x.place ≠ y.place := (hdistinct.head hmem).1
      exact (ih hdistinct.tail hmem).trans (by rw [hook_table_ne hne])

/-- Its slot holds what was there before. -/
theorem hookAll_saved (hdistinct : Distinct xs) (hmem : x ∈ xs) :
    (hookAll xs s).saved x.slot = ((s.table x.place).map handler).or (s.saved x.slot) := by
  induction xs generalizing s with
  | nil => cases hmem
  | cons y xs ih =>
    rcases List.mem_cons.mp hmem with rfl | hmem
    · have hrest : ∀ z ∈ xs, x.slot ≠ z.slot := fun z hz => (hdistinct.head hz).2.symm
      exact (hookAll_saved_of_forall_ne hrest).trans hook_saved_self
    · obtain ⟨hplace, hslot⟩ := hdistinct.head hmem
      refine (ih hdistinct.tail hmem).trans ?_
      rw [hook_table_ne hplace, hook_saved_ne hslot]

theorem unhookAll_table_of_forall_ne {p : P} (h : ∀ x ∈ xs, p ≠ x.place) :
    (unhookAll null xs s).table p = s.table p := by
  induction xs generalizing s with
  | nil => rfl
  | cons x xs ih =>
    obtain ⟨hx, hxs⟩ := List.forall_mem_cons.mp h
    exact (ih hxs).trans (unhook_table_ne hx)

/-- Every place of the list that is taken gets the handler from its slot. -/
theorem unhookAll_table (hdistinct : Distinct xs) (hmem : x ∈ xs) :
    (unhookAll null xs s).table x.place =
      (s.table x.place).map (withHandler ((s.saved x.slot).getD null)) := by
  induction xs generalizing s with
  | nil => cases hmem
  | cons y xs ih =>
    rcases List.mem_cons.mp hmem with rfl | hmem
    · have hrest : ∀ z ∈ xs, x.place ≠ z.place := fun z hz => (hdistinct.head hz).1.symm
      exact (unhookAll_table_of_forall_ne hrest).trans unhook_table_self
    · obtain ⟨hplace, hslot⟩ := hdistinct.head hmem
      refine (ih hdistinct.tail hmem).trans ?_
      rw [unhook_table_ne hplace, unhook_saved_ne hslot]

/-- The entries as they were before the hooks, or as others have added them. -/
def unhooked (before later : P → Option F) (p : P) : Option F := (before p).or (later p)

/-- What is hooked and unhooked is as it was if and only if nothing has been added, meanwhile,
in the places of the list, other than with `null`. -/
theorem unhookAll_eq_iff {later : P → Option F} (hdistinct : Distinct xs)
    (hfresh : ∀ x ∈ xs, (s.saved x.slot).getD null = null)
    (hlater : Extends (hookAll xs s).table later) :
    (unhookAll null xs { hookAll xs s with table := later }).table = unhooked s.table later ↔
      ∀ x ∈ xs, ∀ f, later x.place = some f → handler f ≠ null → (s.table x.place).isSome := by
  have hat (x : Hooking P S A) (hx : x ∈ xs) :
      (unhookAll null xs { hookAll xs s with table := later }).table x.place =
        (later x.place).map (withHandler (((s.table x.place).map handler).getD null)) := by
    rw [unhookAll_table hdistinct hx]
    simp only [hookAll_saved hdistinct hx]
    cases s.table x.place with
    | none => rw [Option.map_none, Option.none_or, hfresh x hx, Option.getD_none]
    | some f => rw [Option.map_some, Option.some_or]
  constructor
  · intro heq x hx f hf hne
    by_contra hnone
    rw [Option.not_isSome_iff_eq_none] at hnone
    have hplace := congrFun heq x.place
    rw [hat x hx, unhooked, hnone, hf] at hplace
    have hfixed : withHandler null f = f := Option.some.inj hplace
    apply hne
    rw [← hfixed, handler_withHandler]
  · intro hall
    funext p
    by_cases hmem : ∃ x ∈ xs, p = x.place
    · obtain ⟨x, hx, rfl⟩ := hmem
      rw [hat x hx, unhooked]
      cases hbefore : s.table x.place with
      | none =>
        cases hplace : later x.place with
        | none => rfl
        | some f =>
          have hnull : handler f = null := by
            by_contra hne
            have hsome := hall x hx f hplace hne
            rw [hbefore] at hsome
            cases hsome
          rw [Option.map_none, Option.getD_none, Option.map_some, Option.none_or, ← hnull,
            withHandler_handler]
      | some f =>
        have hhooked : (hookAll xs s).table x.place = some (withHandler x.hook f) := by
          rw [hookAll_table hdistinct hx, hbefore, Option.map_some]
        rw [hlater _ _ hhooked]
        simp only [Option.map_some, Option.getD_some, Option.some_or, withHandler_withHandler,
          withHandler_handler]
    · push Not at hmem
      rw [unhookAll_table_of_forall_ne hmem, unhooked]
      cases hbefore : s.table p with
      | none => rw [Option.none_or]
      | some f =>
        rw [Option.some_or]
        apply hlater
        rw [hookAll_table_of_forall_ne hmem, hbefore]

end interpose
