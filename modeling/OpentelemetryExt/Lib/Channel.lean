import OpentelemetryExt.Lib.Heap
import OpentelemetryExt.Lib.Run

open heap run

namespace channel

/-- A queue for a bounded number of messages, each of a bounded size. -/
structure Channel {α : Type} (size : α → Nat) where
  capacity : Nat
  limit : Nat
  waiting : List α
  length_le : waiting.length ≤ capacity
  size_le : ∀ a ∈ waiting, size a ≤ limit

variable {κ α : Type} {size : α → Nat}

namespace Channel

def empty (capacity limit : Nat) : Channel size where
  capacity
  limit
  waiting := []
  length_le := Nat.zero_le _
  size_le a ha := absurd ha List.not_mem_nil

/-- There is room for the message, and it is not too large. -/
def Admits (c : Channel size) (a : α) : Prop := size a ≤ c.limit ∧ c.waiting.length < c.capacity

instance decidableAdmits (c : Channel size) (a : α) : Decidable (c.Admits a) :=
  inferInstanceAs (Decidable (_ ∧ _))

/-- The channel with a message more, if it admits one. -/
def push (c : Channel size) (a : α) : Channel size :=
  if h : c.Admits a then
    { c with
      waiting := c.waiting ++ [a]
      length_le := by
        rw [List.length_append]
        exact h.2
      size_le := by
        intro b hb
        rcases List.mem_append.mp hb with hb | hb
        · exact c.size_le b hb
        · rw [List.mem_singleton.mp hb]
          exact h.1 }
  else c

/-- The channel without the message that has waited longest. -/
def pop (c : Channel size) : Channel size :=
  { c with
    waiting := c.waiting.tail
    length_le := by
      rw [List.length_tail]
      exact Nat.le_trans (Nat.sub_le _ _) c.length_le
    size_le := fun a ha => c.size_le a (List.mem_of_mem_tail ha) }

theorem push_waiting {c : Channel size} {a : α} (h : c.Admits a) :
    (c.push a).waiting = c.waiting ++ [a] := by
  rw [push, dif_pos h]

@[simp]
theorem push_limit (c : Channel size) (a : α) : (c.push a).limit = c.limit := by
  unfold push
  split <;> rfl

@[simp] theorem pop_limit (c : Channel size) : c.pop.limit = c.limit := rfl

end Channel

/-- Why a message is not accepted. -/
inductive Refusal where
  | missing
  | oversized
  | full
deriving DecidableEq, Repr

/-- Channels that are found by name. One that has lost its name is still there for those that have
opened it. -/
structure Directory (κ : Type) {α : Type} (size : α → Nat) where
  names : κ → Option Nat
  channels : Heap (Channel size)
  live (k : κ) (q : Nat) : names k = some q → (channels.cell q).isSome

namespace Directory

def empty : Directory κ size where
  names _ := none
  channels := .empty
  live _ _ h := by cases h

/-- The messages that wait in a channel. -/
def waiting (d : Directory κ size) (q : Nat) : List α :=
  match d.channels.cell q with
  | some c => c.waiting
  | none => []

def modify (d : Directory κ size) (q : Nat) (f : Channel size → Channel size) :
    Directory κ size where
  names := d.names
  channels := d.channels.modify q f
  live k q' h := by
    have hlive := d.live k q' h
    by_cases hq : q' = q
    · subst hq
      rw [Heap.cell_modify_self, Option.isSome_map]
      exact hlive
    · rw [Heap.cell_modify_ne hq]
      exact hlive

/-- The size of the message is looked at first. -/
def trySend (q : Nat) (a : α) (d : Directory κ size) : Except Refusal (Directory κ size) :=
  match d.channels.cell q with
  | none => .error .missing
  | some c =>
    if c.limit < size a then .error .oversized
    else if c.capacity ≤ c.waiting.length then .error .full
    else .ok (d.modify q fun c => c.push a)

/-- `none` while there is nothing to receive. -/
def receive (q : Nat) (d : Directory κ size) : Option (α × Directory κ size) :=
  match d.waiting q with
  | a :: _ => some (a, d.modify q Channel.pop)
  | [] => none

variable [DecidableEq κ]

/-- The bounds are those of the channel that is there, if there is one. -/
def openOrCreate (k : κ) (capacity limit : Nat) (d : Directory κ size) : Directory κ size :=
  if (d.names k).isSome then d
  else
    { names := Function.update d.names k (some d.channels.next)
      channels := d.channels.alloc (.empty capacity limit)
      live := by
        intro k' q hq
        by_cases hk : k' = k
        · subst hk
          rw [Function.update_self] at hq
          obtain rfl := Option.some.inj hq
          rw [Heap.cell_alloc_self]
          rfl
        · rw [Function.update_of_ne hk] at hq
          obtain ⟨c, hc⟩ := Option.isSome_iff_exists.mp (d.live k' q hq)
          rw [Heap.cell_alloc_of_some hc]
          rfl }

def remove (k : κ) (d : Directory κ size) : Directory κ size where
  names := Function.update d.names k none
  channels := d.channels
  live k' q hq := by
    by_cases hk : k' = k
    · subst hk
      rw [Function.update_self] at hq
      cases hq
    · rw [Function.update_of_ne hk] at hq
      exact d.live k' q hq

end Directory

/-- What is done to a directory. -/
inductive Use (κ α : Type) where
  | create (k : κ) (capacity limit : Nat)
  | remove (k : κ)
  | put (q : Nat) (a : α)
  | take (q : Nat) (a : α)
deriving DecidableEq, Repr

def Answers [DecidableEq κ] : Use κ α → Directory κ size → Directory κ size → Prop
  | .create k capacity limit, d, d' => d' = d.openOrCreate k capacity limit
  | .remove k, d, d' => d' = d.remove k
  | .put q a, d, d' => d.trySend q a = .ok d'
  | .take q a, d, d' => d.receive q = some (a, d')

/-- The message that is put into the channel `q`. -/
def Use.putIn (q : Nat) : Use κ α → Option α
  | .put q' a => if q' = q then some a else none
  | .create _ _ _ | .remove _ | .take _ _ => none

/-- The message that is taken from the channel `q`. -/
def Use.takenFrom (q : Nat) : Use κ α → Option α
  | .take q' a => if q' = q then some a else none
  | .create _ _ _ | .remove _ | .put _ _ => none

def accepted (q : Nat) (log : List (Use κ α)) : List α := log.filterMap (Use.putIn q)

def fetched (q : Nat) (log : List (Use κ α)) : List α := log.filterMap (Use.takenFrom q)

theorem accepted_snoc (q : Nat) (log : List (Use κ α)) (u : Use κ α) :
    accepted q (log ++ [u]) = accepted q log ++ (u.putIn q).toList := by
  rw [accepted, List.filterMap_append]
  cases h : u.putIn q <;> simp [accepted, h]

theorem fetched_snoc (q : Nat) (log : List (Use κ α)) (u : Use κ α) :
    fetched q (log ++ [u]) = fetched q log ++ (u.takenFrom q).toList := by
  rw [fetched, List.filterMap_append]
  cases h : u.takenFrom q <;> simp [fetched, h]

namespace Directory

variable {d d' : Directory κ size} {k : κ} {q : Nat} {a : α} {c : Channel size}
  {log : List (Use κ α)}

theorem waiting_modify_self (f : Channel size → Channel size) (hc : d.channels.cell q = some c) :
    (d.modify q f).waiting q = (f c).waiting := by
  simp [waiting, modify, hc]

theorem waiting_modify_ne {q' : Nat} (f : Channel size → Channel size) (hq : q' ≠ q) :
    (d.modify q f).waiting q' = d.waiting q' := by
  simp only [waiting, modify, Heap.cell_modify_ne hq]

/-- A message is accepted by a channel that admits it. -/
theorem trySend_eq_ok_iff : d.trySend q a = .ok d' ↔
    ∃ c, d.channels.cell q = some c ∧ c.Admits a ∧ d' = d.modify q fun c => c.push a := by
  unfold trySend
  cases hcell : d.channels.cell q with
  | none => simp
  | some c =>
    dsimp only
    split
    · rename_i hsize
      simp [Channel.Admits, Nat.not_le.mpr hsize]
    · split
      · rename_i hroom
        simp [Channel.Admits, Nat.not_lt.mpr hroom]
      · rename_i hsize hroom
        have hadmits : c.Admits a := And.intro (Nat.le_of_not_lt hsize) (Nat.lt_of_not_le hroom)
        simp [hadmits, eq_comm]

theorem trySend_ne_missing (hc : d.channels.cell q = some c) :
    d.trySend q a ≠ .error .missing := by
  unfold trySend
  rw [hc]
  dsimp only
  split
  · simp
  · split <;> simp

theorem receive_eq_some_iff : d.receive q = some (a, d') ↔
    ∃ c rest, d.channels.cell q = some c ∧ c.waiting = a :: rest ∧ d' = d.modify q Channel.pop := by
  unfold receive waiting
  cases hcell : d.channels.cell q with
  | none => simp
  | some c => cases hwaiting : c.waiting <;> simp [hwaiting, eq_comm]

variable [DecidableEq κ]

theorem waiting_openOrCreate (capacity limit : Nat) :
    (d.openOrCreate k capacity limit).waiting q = d.waiting q := by
  unfold openOrCreate
  split
  · rfl
  · by_cases hq : q = d.channels.next
    · subst hq
      have hnone : d.channels.cell d.channels.next = none := d.channels.fresh _ le_rfl
      simp only [waiting, Heap.cell_alloc_self, hnone, Channel.empty]
    · simp only [waiting, Heap.cell_alloc_ne hq]

/-- Where there was no channel, there is an empty one with these bounds. -/
theorem openOrCreate_new (hk : d.names k = none) (capacity limit : Nat) :
    (d.openOrCreate k capacity limit).names k = some d.channels.next ∧
      (d.openOrCreate k capacity limit).channels.cell d.channels.next =
        some (.empty capacity limit) := by
  have hnone : ¬ (d.names k).isSome = true := by
    rw [hk]
    exact Bool.false_ne_true
  rw [openOrCreate, if_neg hnone]
  exact ⟨Function.update_self _ _ _, Heap.cell_alloc_self _ _⟩

/-- What has been accepted has been received or is waiting, after every step. -/
theorem balanced_step {u : Use κ α} (h : Answers u d d')
    (hbalanced : ∀ q, accepted q log = fetched q log ++ d.waiting q) (q : Nat) :
    accepted q (log ++ [u]) = fetched q (log ++ [u]) ++ d'.waiting q := by
  rw [accepted_snoc, fetched_snoc, hbalanced q]
  cases u with
  | create k capacity limit =>
    obtain rfl := h
    simp [Use.putIn, Use.takenFrom, waiting_openOrCreate]
  | remove k =>
    obtain rfl := h
    have hsame : (d.remove k).waiting q = d.waiting q := rfl
    simp [Use.putIn, Use.takenFrom, hsame]
  | put q' a =>
    obtain ⟨c, hc, hadmits, rfl⟩ := trySend_eq_ok_iff.mp h
    by_cases hq : q = q'
    · subst hq
      have hwaiting : d.waiting q = c.waiting := by simp only [waiting, hc]
      rw [waiting_modify_self _ hc, Channel.push_waiting hadmits, hwaiting]
      simp [Use.putIn, Use.takenFrom]
    · rw [waiting_modify_ne _ hq]
      simp [Use.putIn, Use.takenFrom, Ne.symm hq]
  | take q' a =>
    obtain ⟨c, rest, hc, hwaiting, rfl⟩ := receive_eq_some_iff.mp h
    by_cases hq : q = q'
    · subst hq
      have hhead : d.waiting q = a :: rest := by simp only [waiting, hc, hwaiting]
      rw [waiting_modify_self _ hc, hhead]
      simp [Use.putIn, Use.takenFrom, Channel.pop, hwaiting]
    · rw [waiting_modify_ne _ hq]
      simp [Use.putIn, Use.takenFrom, Ne.symm hq]

/-- No channel loses, repeats or reorders a message, whoever puts it in and whoever takes it. -/
theorem balanced (h : Run Answers (empty : Directory κ size) log d) (q : Nat) :
    accepted q log = fetched q log ++ d.waiting q := by
  induction h generalizing q with
  | nil => rfl
  | snoc _ hlast ih => exact balanced_step hlast ih q

/-- A channel stays, with the limit that it was made with. -/
theorem cell_of_answers {u : Use κ α} (h : Answers u d d') (hc : d.channels.cell q = some c) :
    ∃ c', d'.channels.cell q = some c' ∧ c'.limit = c.limit := by
  have hmodify (q' : Nat) (f : Channel size → Channel size) (hf : ∀ c, (f c).limit = c.limit) :
      ∃ c', (d.modify q' f).channels.cell q = some c' ∧ c'.limit = c.limit := by
    by_cases hq : q = q'
    · subst hq
      refine ⟨f c, ?_, hf c⟩
      simp [modify, hc]
    · refine ⟨c, ?_, rfl⟩
      simpa only [modify, Heap.cell_modify_ne hq] using hc
  cases u with
  | create k capacity limit =>
    obtain rfl := h
    refine ⟨c, ?_, rfl⟩
    unfold openOrCreate
    split
    · exact hc
    · exact Heap.cell_alloc_of_some hc
  | remove k =>
    obtain rfl := h
    exact ⟨c, hc, rfl⟩
  | put q' a =>
    obtain ⟨-, -, -, rfl⟩ := trySend_eq_ok_iff.mp h
    exact hmodify q' _ fun c => c.push_limit a
  | take q' a =>
    obtain ⟨-, -, -, -, rfl⟩ := receive_eq_some_iff.mp h
    exact hmodify q' _ Channel.pop_limit

/-- What is done under another name leaves a name alone. -/
theorem names_of_answers {u : Use κ α} (h : Answers u d d') (hremove : u ≠ .remove k)
    (hcreate : ∀ capacity limit, u ≠ .create k capacity limit) : d'.names k = d.names k := by
  cases u with
  | create k' capacity limit =>
    obtain rfl := h
    have hne : k ≠ k' := by
      rintro rfl
      exact hcreate capacity limit rfl
    unfold openOrCreate
    split
    · rfl
    · exact Function.update_of_ne hne _ _
  | remove k' =>
    obtain rfl := h
    have hne : k ≠ k' := by
      rintro rfl
      exact hremove rfl
    exact Function.update_of_ne hne _ _
  | put q' a =>
    obtain ⟨-, -, -, rfl⟩ := trySend_eq_ok_iff.mp h
    rfl
  | take q' a =>
    obtain ⟨-, -, -, -, rfl⟩ := receive_eq_some_iff.mp h
    rfl

end Directory

end channel
