import Mathlib.Data.List.Basic
import Mathlib.Tactic

namespace assoc

variable {K V : Type} [DecidableEq K] [BEq K] [LawfulBEq K]

/-- The entry for `key` is replaced where it stands, or added at the end. -/
def assign (key : K) (value : V) : List (K × V) → List (K × V)
  | [] => [(key, value)]
  | (k, v) :: rest => if k = key then (key, value) :: rest else (k, v) :: assign key value rest

def remove (key : K) (entries : List (K × V)) : List (K × V) := entries.filter fun e => e.1 ≠ key

/-- A hash table: its entries as they came in, and what it held each time it was cleared. The order
in which it lists its entries may depend on both. -/
structure Table (K V : Type) where
  entries : List (K × V) := []
  cleared : List (List (K × V)) := []
deriving DecidableEq, Repr

namespace Table

def assign (key : K) (value : V) (t : Table K V) : Table K V :=
  { t with entries := assoc.assign key value t.entries }

/-- The entries go, and the buckets stay. -/
def clear (t : Table K V) : Table K V :=
  if t.entries = [] then t else { entries := [], cleared := t.cleared ++ [t.entries] }

/-- The same entries in a table that has been filled and cleared before. -/
def after (past : List (List (K × V))) (t : Table K V) : Table K V :=
  { t with cleared := past ++ t.cleared }

omit [BEq K] [LawfulBEq K] in
@[simp] theorem entries_assign (key : K) (value : V) (t : Table K V) :
    (t.assign key value).entries = assoc.assign key value t.entries := rfl

omit [DecidableEq K] [BEq K] [LawfulBEq K] in
@[simp] theorem entries_clear (t : Table K V) : t.clear.entries = [] := by
  unfold clear
  split
  · assumption
  · rfl

omit [DecidableEq K] [BEq K] [LawfulBEq K] in
theorem clear_of_nil {t : Table K V} (h : t.entries = []) : t.clear = t := if_pos h

omit [DecidableEq K] [BEq K] [LawfulBEq K] in
/-- What was there before is all that is left. -/
theorem clear_eq (t : Table K V) : t.clear = { cleared := t.clear.cleared } := by
  rw [← entries_clear t]

omit [DecidableEq K] [BEq K] [LawfulBEq K] in
@[simp] theorem clear_empty : ({} : Table K V).clear = {} := clear_of_nil rfl

omit [DecidableEq K] [BEq K] [LawfulBEq K] in
/-- What was before stays before. -/
theorem clear_after (past : List (List (K × V))) (t : Table K V) :
    (t.after past).clear = t.clear.after past := by
  by_cases h : t.entries = []
  · rw [clear_of_nil h, clear_of_nil (show (t.after past).entries = [] from h)]
  · rw [clear, clear, if_neg h, if_neg (show (t.after past).entries ≠ [] from h), after, after,
      List.append_assoc]

end Table

theorem lookup_cons_ne {key k : K} (v : V) (rest : List (K × V)) (h : key ≠ k) :
    ((k, v) :: rest).lookup key = rest.lookup key := by
  rw [List.lookup_cons, beq_eq_false_iff_ne.mpr h]

@[simp]
theorem lookup_assign_self (key : K) (value : V) (entries : List (K × V)) :
    (assign key value entries).lookup key = some value := by
  induction entries with
  | nil => simp [assign]
  | cons e rest ih =>
    obtain ⟨k, v⟩ := e
    by_cases h : k = key
    · simp [assign, h]
    · rw [assign, if_neg h, lookup_cons_ne v _ (Ne.symm h), ih]

theorem lookup_assign_ne {key key' : K} (value : V) (entries : List (K × V)) (h : key' ≠ key) :
    (assign key value entries).lookup key' = entries.lookup key' := by
  induction entries with
  | nil => rw [assign, lookup_cons_ne value _ h]
  | cons e rest ih =>
    obtain ⟨k, v⟩ := e
    by_cases hk : k = key
    · subst hk
      rw [assign, if_pos rfl, lookup_cons_ne _ _ h, lookup_cons_ne _ _ h]
    · rw [assign, if_neg hk, List.lookup_cons, List.lookup_cons, ih]

@[simp]
theorem lookup_remove_self (key : K) (entries : List (K × V)) :
    (remove key entries).lookup key = none := by
  rw [List.lookup_eq_none_iff]
  intro e he
  have hne := (List.mem_filter.mp he).2
  exact bne_iff_ne.mpr (Ne.symm (of_decide_eq_true hne))

theorem lookup_remove_ne {key key' : K} (entries : List (K × V)) (h : key' ≠ key) :
    (remove key entries).lookup key' = entries.lookup key' := by
  induction entries with
  | nil => rfl
  | cons e rest ih =>
    obtain ⟨k, v⟩ := e
    unfold remove at ih ⊢
    by_cases hk : k = key
    · subst hk
      rw [List.filter_cons_of_neg (by simp), ih, lookup_cons_ne _ _ h]
    · rw [List.filter_cons_of_pos (by simpa using hk), List.lookup_cons, List.lookup_cons, ih]

theorem Table.assign_eq_self {key : K} {value : V} {t : Table K V}
    (h : assoc.assign key value t.entries = t.entries) : t.assign key value = t := by
  rw [Table.assign, h]

/-- The same value is assigned again exactly when nothing changes. -/
theorem assign_eq_self_iff {key : K} {value : V} {entries : List (K × V)} :
    assign key value entries = entries ↔ entries.lookup key = some value := by
  constructor
  · intro h
    rw [← h, lookup_assign_self]
  · intro h
    induction entries with
    | nil => cases h
    | cons e rest ih =>
      obtain ⟨k, v⟩ := e
      by_cases hk : k = key
      · subst hk
        rw [List.lookup_cons_self] at h
        rw [assign, if_pos rfl, Option.some.inj h]
      · rw [lookup_cons_ne v rest (Ne.symm hk)] at h
        rw [assign, if_neg hk, ih h]

theorem mem_assign {key : K} {value : V} {entries : List (K × V)} {e : K × V}
    (h : e ∈ assign key value entries) : e = (key, value) ∨ e ∈ entries := by
  induction entries with
  | nil => exact .inl (List.mem_singleton.mp h)
  | cons e' rest ih =>
    obtain ⟨k, v⟩ := e'
    rw [assign] at h
    split at h
    · exact (List.mem_cons.mp h).imp_right (List.mem_cons_of_mem _)
    · obtain rfl | hrest := List.mem_cons.mp h
      · exact .inr (List.mem_cons_self ..)
      · exact (ih hrest).imp_right (List.mem_cons_of_mem _)

/-- Entries assigned one after the other: the last for a key counts. -/
def assignAll (es entries : List (K × V)) : List (K × V) :=
  es.foldl (fun entries e => assign e.1 e.2 entries) entries

theorem lookup_assignAll (key : K) (es entries : List (K × V)) :
    (assignAll es entries).lookup key = (es.reverse.lookup key).or (entries.lookup key) := by
  induction es generalizing entries with
  | nil => rfl
  | cons e es ih =>
    obtain ⟨k, v⟩ := e
    rw [assignAll, List.foldl_cons, ← assignAll, ih, List.reverse_cons, List.lookup_append,
      Option.or_assoc]
    by_cases hkey : key = k
    · rw [hkey, lookup_assign_self, List.lookup_cons_self]
      rfl
    · rw [lookup_assign_ne _ _ hkey, lookup_cons_ne v [] hkey]
      rfl

/-- A key that is assigned again keeps its place. -/
theorem keys_assign (key : K) (value : V) (entries : List (K × V)) :
    (assign key value entries).map Prod.fst =
      if key ∈ entries.map Prod.fst then entries.map Prod.fst
      else entries.map Prod.fst ++ [key] := by
  induction entries with
  | nil => rfl
  | cons e rest ih =>
    obtain ⟨k, v⟩ := e
    by_cases hk : k = key
    · simp [assign, hk]
    · rw [assign, if_neg hk, List.map_cons, ih]
      by_cases hmem : key ∈ rest.map Prod.fst
      · rw [if_pos hmem, if_pos (by simp [hmem])]
        rfl
      · rw [if_neg hmem, if_neg (by simpa [Ne.symm hk] using hmem)]
        rfl

theorem nodup_assign {entries : List (K × V)} (key : K) (value : V)
    (h : (entries.map Prod.fst).Nodup) : ((assign key value entries).map Prod.fst).Nodup := by
  rw [keys_assign]
  split
  · exact h
  · exact List.nodup_append.mpr ⟨h, List.nodup_singleton key, by
      intro k hk k' hk' heq
      rw [List.mem_singleton.mp hk'] at heq
      exact absurd (heq ▸ hk) ‹_›⟩

theorem nodup_assignAll {es entries : List (K × V)} (h : (entries.map Prod.fst).Nodup) :
    ((assignAll es entries).map Prod.fst).Nodup := by
  induction es generalizing entries with
  | nil => exact h
  | cons e es ih => exact ih (nodup_assign e.1 e.2 h)

/-- Where no key comes twice, an entry is what its key is looked up to. -/
theorem lookup_eq_some_of_mem {entries : List (K × V)} {key : K} {value : V}
    (h : (entries.map Prod.fst).Nodup) (hmem : (key, value) ∈ entries) :
    entries.lookup key = some value := by
  induction entries with
  | nil => cases hmem
  | cons e rest ih =>
    obtain ⟨k, v⟩ := e
    obtain ⟨hk, hrest⟩ := List.nodup_cons.mp h
    rcases List.mem_cons.mp hmem with heq | htail
    · cases heq
      exact List.lookup_cons_self
    · have hne : key ≠ k := fun heq => hk (List.mem_map.mpr ⟨_, htail, heq⟩)
      rw [lookup_cons_ne v rest hne]
      exact ih hrest htail

theorem mem_of_lookup_eq_some {entries : List (K × V)} {key : K} {value : V}
    (h : entries.lookup key = some value) : (key, value) ∈ entries := by
  obtain ⟨before, after, heq, -⟩ := List.lookup_eq_some_iff.mp h
  simp [heq]

/-- Where no key comes twice, the entries for a key that has one are this one. -/
theorem filter_key_of_nodup {entries : List (K × V)} {key : K} {value : V}
    (h : (entries.map Prod.fst).Nodup) (hmem : (key, value) ∈ entries) :
    entries.filter (fun e => e.1 = key) = [(key, value)] := by
  induction entries with
  | nil => cases hmem
  | cons e rest ih =>
    obtain ⟨hk, hrest⟩ := List.nodup_cons.mp h
    rcases List.mem_cons.mp hmem with rfl | htail
    · have hnone : rest.filter (fun e => e.1 = key) = [] := by
        apply List.filter_eq_nil_iff.mpr
        intro e he hkey
        exact hk (List.mem_map.mpr ⟨e, he, of_decide_eq_true hkey⟩)
      rw [List.filter_cons_of_pos (by simp), hnone]
    · have hne : e.1 ≠ key := fun heq => hk (List.mem_map.mpr ⟨_, htail, heq.symm⟩)
      rw [List.filter_cons_of_neg (by simpa using hne), ih hrest htail]

/-- The entries for a key are as many as the key comes. -/
theorem length_filter_key (entries : List (K × V)) (key : K) :
    (entries.filter fun e => e.1 = key).length = (entries.map Prod.fst).count key := by
  induction entries with
  | nil => rfl
  | cons e rest ih =>
    by_cases hkey : e.1 = key
    · rw [List.filter_cons_of_pos (by simpa using hkey), List.length_cons, ih, List.map_cons, hkey,
        List.count_cons_self]
    · rw [List.filter_cons_of_neg (by simpa using hkey), ih, List.map_cons,
        List.count_cons_of_ne hkey]

/-- The order of the entries does not matter where no key comes twice. -/
theorem lookup_perm {entries entries' : List (K × V)} (hperm : entries'.Perm entries)
    (h : (entries.map Prod.fst).Nodup) (key : K) : entries'.lookup key = entries.lookup key := by
  have h' : (entries'.map Prod.fst).Nodup := (hperm.map Prod.fst).nodup_iff.mpr h
  cases hlookup : entries.lookup key with
  | some value =>
    exact lookup_eq_some_of_mem h' (hperm.mem_iff.mpr (mem_of_lookup_eq_some hlookup))
  | none =>
    cases hlookup' : entries'.lookup key with
    | none => rfl
    | some value =>
      have hmem := hperm.mem_iff.mp (mem_of_lookup_eq_some hlookup')
      rw [lookup_eq_some_of_mem h hmem] at hlookup
      cases hlookup

/-- What was put together from several lists is looked up in one of them. -/
theorem lookup_reverse_flatMap {E : Type} (f : E → List (K × V)) (key : K) (es : List E) :
    (es.flatMap f).reverse.lookup key =
      es.reverse.findSome? fun e => (f e).reverse.lookup key := by
  rw [List.reverse_flatMap]
  induction es.reverse with
  | nil => rfl
  | cons e es ih =>
    rw [List.flatMap_cons, List.lookup_append, ih, List.findSome?_cons, Function.comp_apply]
    cases (f e).reverse.lookup key <;> rfl

section

variable {E : Type} {g : E → Option V} {es es' : List E} {value : V}

/-- Some of the elements gives this value. -/
def Gives (g : E → Option V) (es : List E) (value : V) : Prop := ∃ e ∈ es, g e = some value

theorem gives_of_last (h : es.reverse.findSome? g = some value) : Gives g es value := by
  obtain ⟨e, he, hvalue⟩ := List.exists_of_findSome?_eq_some h
  exact ⟨e, List.mem_reverse.mp he, hvalue⟩

/-- The element that gives it may come last. -/
theorem Gives.last (h : Gives g es value) :
    ∃ order : List E, order.Perm es ∧ order.reverse.findSome? g = some value := by
  obtain ⟨e, he, hvalue⟩ := h
  obtain ⟨before, after, rfl⟩ := List.append_of_mem he
  refine ⟨before ++ after ++ [e], ?_, ?_⟩
  · rw [List.append_assoc]
    exact List.Perm.append_left before (List.perm_append_singleton e after)
  · rw [List.reverse_append, List.reverse_singleton, List.singleton_append,
      List.findSome?_cons, hvalue]

theorem last_eq_of_gives {o : Option V} (h : ∀ value, Gives g es value ↔ o = some value) :
    es.reverse.findSome? g = o := by
  cases hlast : es.reverse.findSome? g with
  | some value => exact ((h value).mp (gives_of_last hlast)).symm
  | none =>
    cases o with
    | none => rfl
    | some value =>
      obtain ⟨e, he, hvalue⟩ := (h value).mpr rfl
      rw [List.findSome?_eq_none_iff] at hlast
      rw [hlast e (List.mem_reverse.mpr he)] at hvalue
      cases hvalue

/-- Whatever their orders, two lists end with the same value exactly when each gives that value
alone, or both give none. -/
theorem last_eq_iff :
    (∀ order order' : List E, order.Perm es → order'.Perm es' →
      order'.reverse.findSome? g = order.reverse.findSome? g) ↔
    ∃ o : Option V, (∀ value, Gives g es value ↔ o = some value) ∧
      ∀ value, Gives g es' value ↔ o = some value := by
  constructor
  · intro h
    have hsame := h es es' (.refl _) (.refl _)
    refine ⟨es.reverse.findSome? g, fun value => ⟨fun hgives => ?_, gives_of_last⟩,
      fun value => ⟨fun hgives => ?_, fun hlast => gives_of_last (hsame.trans hlast)⟩⟩
    · obtain ⟨order, hperm, hlast⟩ := hgives.last
      rw [← hsame, h order es' hperm (.refl _), hlast]
    · obtain ⟨order', hperm, hlast⟩ := hgives.last
      rw [← h es order' (.refl _) hperm, hlast]
  · rintro ⟨o, hgives, hgives'⟩ order order' hperm hperm'
    have hsame {l l' : List E} (hl : l.Perm l') (value : V) : Gives g l value ↔ Gives g l' value := by
      simp only [Gives, hl.mem_iff]
    rw [last_eq_of_gives fun value => (hsame hperm value).trans (hgives value),
      last_eq_of_gives fun value => (hsame hperm' value).trans (hgives' value)]

end

end assoc
