import Mathlib.Order.Defs.Unbundled
import Mathlib.Tactic

namespace stateful

/-- Why a program did not return: a fault, after which there is no state, or a non-local
exit, which skips the rest of the program but leaves the state reached. -/
inductive Stop (σ ε : Type) where
  | fault (e : ε)
  | unwind (s : σ)

/-- Programs over a state `σ` with faults `ε`. -/
abbrev Prog (σ ε α : Type) := StateT σ (Except (Stop σ ε)) α

variable {σ ε α β : Type}

@[simp]
theorem bind_apply (m : Prog σ ε α) (f : α → Prog σ ε β) (s : σ) :
    (m >>= f) s = m s >>= fun r => f r.1 r.2 := rfl

@[simp]
theorem map_apply (f : α → β) (m : Prog σ ε α) (s : σ) :
    (f <$> m) s = m s >>= fun r => .ok (f r.1, r.2) := rfl

@[simp] theorem pure_apply (a : α) (s : σ) : (pure a : Prog σ ε α) s = .ok (a, s) := rfl

@[simp] theorem get_apply (s : σ) : (get : Prog σ ε σ) s = .ok (s, s) := rfl

@[simp] theorem set_apply (s t : σ) : (set t : Prog σ ε PUnit) s = .ok (⟨⟩, t) := rfl

@[simp] theorem modify_apply (f : σ → σ) (s : σ) :
    (modify f : Prog σ ε PUnit) s = .ok (⟨⟩, f s) := rfl

@[simp] theorem ite_apply {p : Prop} [Decidable p] (m n : Prog σ ε α) (s : σ) :
    (if p then m else n) s = if p then m s else n s := by
  split <;> rfl

theorem forM_cons (f : β → Prog σ ε PUnit) (b : β) (l : List β) :
    (b :: l).forM f = f b >>= fun _ => l.forM f := rfl

/-- The elements that do not count may be left out first. -/
theorem forM_filterMap {γ : Type} (p : β → Option γ) (f : γ → Prog σ ε PUnit) (l : List β) :
    (l.filterMap p).forM f = l.forM fun b => (p b).elim (pure ⟨⟩) f := by
  induction l with
  | nil => rfl
  | cons b l ih =>
    cases hb : p b with
    | some c => rw [List.filterMap_cons_some hb, forM_cons, forM_cons, ih, hb, Option.elim_some]
    | none => rw [List.filterMap_cons_none hb, forM_cons, ih, hb, Option.elim_none, pure_bind]

/-- A result that does not depend on the state. -/
def lift : Except ε α → Prog σ ε α
  | .ok a => pure a
  | .error e => fun _ => .error (.fault e)

/-- A non-local exit. -/
def unwind : Prog σ ε α := fun s => .error (.unwind s)

@[simp] theorem lift_ok (a : α) (s : σ) : (lift (.ok a) : Prog σ ε α) s = .ok (a, s) := rfl

@[simp] theorem lift_error (e : ε) (s : σ) :
    (lift (.error e) : Prog σ ε α) s = .error (.fault e) := rfl

@[simp] theorem unwind_apply (s : σ) : (unwind : Prog σ ε α) s = .error (.unwind s) := rfl

theorem bind_ok_iff {m : Prog σ ε α} {f : α → Prog σ ε β} {s : σ} {r : β × σ} :
    (m >>= f) s = .ok r ↔ ∃ a t, m s = .ok (a, t) ∧ f a t = .ok r := by
  rw [bind_apply]
  cases h : m s with
  | error e => simp [Bind.bind, Except.bind]
  | ok q => simp [Bind.bind, Except.bind, Prod.ext_iff]

theorem lift_ok_iff {x : Except ε α} {s : σ} {r : α × σ} :
    (lift x : Prog σ ε α) s = .ok r ↔ x = .ok r.1 ∧ r.2 = s := by
  cases x with
  | error e => simp
  | ok a => simp [Prod.ext_iff, eq_comm]

/-- The program on the first component of the state. -/
def onFirst {τ : Type} (m : Prog σ ε α) : Prog (σ × τ) ε α := fun s =>
  match m s.1 with
  | .ok (a, t) => .ok (a, (t, s.2))
  | .error (.unwind t) => .error (.unwind (t, s.2))
  | .error (.fault e) => .error (.fault e)

/-- The state in which `m`, started in `s`, returns or is left. -/
def Ends (m : Prog σ ε α) (s t : σ) : Prop := (∃ a, m s = .ok (a, t)) ∨ m s = .error (.unwind t)

theorem Ends.of_ok {m : Prog σ ε α} {s t : σ} {a : α} (h : m s = .ok (a, t)) : Ends m s t :=
  .inl ⟨a, h⟩

theorem Ends.eq_of_ok {m : Prog σ ε α} {s t u : σ} {a : α} (h : Ends m s t)
    (hm : m s = .ok (a, u)) : t = u := by
  rcases h with ⟨b, hb⟩ | hb <;> rw [hm] at hb <;> cases hb
  rfl

theorem Ends.false_of_fault {m : Prog σ ε α} {s t : σ} {e : ε} (h : Ends m s t)
    (hm : m s = .error (.fault e)) : False := by
  rcases h with ⟨b, hb⟩ | hb <;> rw [hm] at hb <;> cases hb

theorem ends_bind_iff {m : Prog σ ε α} {f : α → Prog σ ε β} {s t : σ} :
    Ends (m >>= f) s t ↔
      (∃ a u, m s = .ok (a, u) ∧ Ends (f a) u t) ∨ m s = .error (.unwind t) := by
  simp only [Ends, bind_apply]
  cases h : m s with
  | error e => simp [Bind.bind, Except.bind]
  | ok q => simp [Bind.bind, Except.bind, Prod.ext_iff]

theorem bind_unwind_iff {m : Prog σ ε α} {f : α → Prog σ ε β} {s t : σ} :
    (m >>= f) s = .error (.unwind t) ↔
      (∃ a u, m s = .ok (a, u) ∧ f a u = .error (.unwind t)) ∨ m s = .error (.unwind t) := by
  rw [bind_apply]
  cases h : m s with
  | error e => simp [Bind.bind, Except.bind]
  | ok q => simp [Bind.bind, Except.bind, Prod.ext_iff]

/-- The state in which `m` ends, unless it faults. -/
def final (m : Prog σ ε α) (s : σ) : Option σ :=
  match m s with
  | .ok r => some r.2
  | .error (.unwind t) => some t
  | .error (.fault _) => none

theorem ends_iff_final {m : Prog σ ε α} {s t : σ} : Ends m s t ↔ final m s = some t := by
  unfold final Ends
  rcases m s with (e | u) | ⟨a, u⟩ <;> simp

theorem ends_final {m : Prog σ ε α} {s : σ} (h : (final m s).isSome) :
    Ends m s ((final m s).get h) := ends_iff_final.mpr (Option.some_get h).symm

/-- The states before and after `m` are related by `R`, whether `m` returns or is left. -/
def Keeps (R : σ → σ → Prop) (m : Prog σ ε α) : Prop := ∀ ⦃s t⦄, Ends m s t → R s t

/-- Programs that only look at the state. -/
def Reads (m : Prog σ ε α) : Prop := Keeps (fun s t => t = s) m

/-- Programs without a non-local exit. -/
def Direct (m : Prog σ ε α) : Prop := ∀ s t, m s ≠ .error (.unwind t)

/-- The programs obtained from the operations `P` by sequencing. Operations that only
read the state, faults and exits may be used freely. -/
inductive Built (P : ∀ {α : Type}, Prog σ ε α → Prop) : ∀ {α : Type}, Prog σ ε α → Prop
  | op {α : Type} {m : Prog σ ε α} : P m → Built P m
  | reads {α : Type} {m : Prog σ ε α} : Reads m → Built P m
  | bind {α β : Type} {m : Prog σ ε α} {f : α → Prog σ ε β} :
      Built P m → (∀ a, Built P (f a)) → Built P (m >>= f)

theorem Reads.pure (a : α) : Reads (pure a : Prog σ ε α) := by
  rintro s t (⟨b, h⟩ | h) <;> cases h
  rfl

theorem Reads.get : Reads (get : Prog σ ε σ) := by
  rintro s t (⟨b, h⟩ | h) <;> cases h
  rfl

theorem Reads.unwind : Reads (unwind : Prog σ ε α) := by
  rintro s t (⟨b, h⟩ | h) <;> cases h
  rfl

theorem Reads.lift (x : Except ε α) : Reads (lift x : Prog σ ε α) := by
  cases x with
  | error e => rintro s t (⟨b, h⟩ | h) <;> cases h
  | ok a => exact .pure a

variable {R : σ → σ → Prop}

theorem Keeps.of_reads [Std.Refl R] {m : Prog σ ε α} (h : Reads m) : Keeps R m := by
  intro s t hm
  rw [h hm]
  exact Std.Refl.refl s

theorem Keeps.bind [IsTrans σ R] {m : Prog σ ε α} {f : α → Prog σ ε β} (hm : Keeps R m)
    (hf : ∀ a, Keeps R (f a)) : Keeps R (m >>= f) := by
  intro s t h
  obtain ⟨a, u, hfirst, hrest⟩ | hleft := ends_bind_iff.mp h
  · exact IsTrans.trans _ _ _ (hm (.of_ok hfirst)) (hf a hrest)
  · exact hm (.inr hleft)

theorem Keeps.mono {R' : σ → σ → Prop} {m : Prog σ ε α} (h : Keeps R m)
    (himp : ∀ s t, R s t → R' s t) : Keeps R' m := fun _ _ hends => himp _ _ (h hends)

theorem Reads.bind {m : Prog σ ε α} {f : α → Prog σ ε β} (hm : Reads m) (hf : ∀ a, Reads (f a)) :
    Reads (m >>= f) := by
  intro s t h
  obtain ⟨a, u, hfirst, hrest⟩ | hleft := ends_bind_iff.mp h
  · rw [hf a hrest, hm (.of_ok hfirst)]
  · exact hm (.inr hleft)

theorem Keeps.modify {f : σ → σ} (h : ∀ s, R s (f s)) :
    Keeps R (modify f : Prog σ ε PUnit) := by
  rintro s t (⟨b, hm⟩ | hm) <;> cases hm
  exact h s

theorem Keeps.ite {p : Prop} [Decidable p] {m n : Prog σ ε α} (hm : Keeps R m) (hn : Keeps R n) :
    Keeps R (if p then m else n) := by
  split
  · exact hm
  · exact hn

theorem Keeps.forM [Std.Refl R] [IsTrans σ R] {l : List β} {f : β → Prog σ ε PUnit}
    (h : ∀ b, Keeps R (f b)) : Keeps R (l.forM f) := by
  induction l with
  | nil => exact .of_reads (.pure _)
  | cons b l ih => exact (h b).bind fun _ => ih

/-- From `s` the program comes to its end. -/
def Returns (m : Prog σ ε α) (s : σ) : Prop := ∃ a t, m s = .ok (a, t)

theorem Returns.of_ok {m : Prog σ ε α} {s t : σ} {a : α} (h : m s = .ok (a, t)) : Returns m s :=
  ⟨a, t, h⟩

theorem Returns.bind {m : Prog σ ε α} {f : α → Prog σ ε β} {s t : σ} {a : α}
    (hm : m s = .ok (a, t)) (hf : Returns (f a) t) : Returns (m >>= f) s := by
  obtain ⟨b, u, hrest⟩ := hf
  exact ⟨b, u, bind_ok_iff.mpr ⟨a, t, hm, hrest⟩⟩

theorem Direct.ok {m : Prog σ ε α} {s t : σ} (h : Direct m) (hends : Ends m s t) :
    ∃ a, m s = .ok (a, t) := hends.resolve_right (h s t)

/-- A computation that returns. -/
theorem returns_of_isSome {m : Prog σ ε α} {s : σ} (h : (m s).toOption.isSome = true) :
    ∃ a t, m s = .ok (a, t) := by
  cases hm : m s with
  | ok r => exact ⟨r.1, r.2, rfl⟩
  | error e =>
    rw [hm] at h
    cases h

theorem Direct.pure (a : α) : Direct (pure a : Prog σ ε α) := by
  rintro s t h
  cases h

theorem Direct.get : Direct (get : Prog σ ε σ) := by
  rintro s t h
  cases h

theorem Direct.set (u : σ) : Direct (set u : Prog σ ε PUnit) := by
  rintro s t h
  cases h

theorem Direct.modify (f : σ → σ) : Direct (modify f : Prog σ ε PUnit) := by
  rintro s t h
  cases h

theorem Direct.lift (x : Except ε α) : Direct (lift x : Prog σ ε α) := by
  rintro s t h
  cases x <;> cases h

theorem Direct.bind {m : Prog σ ε α} {f : α → Prog σ ε β} (hm : Direct m)
    (hf : ∀ a, Direct (f a)) : Direct (m >>= f) := by
  intro s t h
  rw [bind_apply] at h
  cases hms : m s with
  | error e =>
    rw [hms] at h
    cases h
    exact hm s t hms
  | ok r =>
    rw [hms] at h
    exact hf r.1 r.2 t h

theorem Direct.ite {p : Prop} [Decidable p] {m n : Prog σ ε α} (hm : Direct m) (hn : Direct n) :
    Direct (if p then m else n) := by
  split
  · exact hm
  · exact hn

theorem Direct.forM {l : List β} {f : β → Prog σ ε PUnit} (h : ∀ b, Direct (f b)) :
    Direct (l.forM f) := by
  induction l with
  | nil => exact .pure _
  | cons b l ih => exact (h b).bind fun _ => ih

/-- When `m` returns, it returns `a`. -/
def Yields (a : α) (m : Prog σ ε α) : Prop := ∀ ⦃s b t⦄, m s = .ok (b, t) → b = a

theorem Yields.pure (a : α) : Yields a (pure a : Prog σ ε α) := by
  rintro s b t h
  cases h
  rfl

theorem Yields.bind {b : β} {m : Prog σ ε α} {f : α → Prog σ ε β} (h : ∀ a, Yields b (f a)) :
    Yields b (m >>= f) := by
  intro s c t hm
  obtain ⟨a, u, -, hrest⟩ := bind_ok_iff.mp hm
  exact h a hrest

theorem Yields.ite {p : Prop} [Decidable p] {a : α} {m n : Prog σ ε α} (hm : Yields a m)
    (hn : Yields a n) : Yields a (if p then m else n) := by
  split
  · exact hm
  · exact hn

variable {P : ∀ {α : Type}, Prog σ ε α → Prop}

/-- What every operation keeps, every program built from them keeps. -/
theorem Built.keeps [Std.Refl R] [IsTrans σ R] {m : Prog σ ε α} (h : Built P m)
    (hop : ∀ {α : Type} {m : Prog σ ε α}, P m → Keeps R m) : Keeps R m := by
  induction h with
  | op hm => exact hop hm
  | reads hm => exact .of_reads hm
  | bind _ _ ihm ihf => exact ihm.bind ihf

/-- Operations may themselves be built of finer ones. -/
theorem Built.trans {Q : ∀ {α : Type}, Prog σ ε α → Prop} {m : Prog σ ε α} (h : Built P m)
    (hop : ∀ {α : Type} {m : Prog σ ε α}, P m → Built Q m) : Built Q m := by
  induction h with
  | op hm => exact hop hm
  | reads hm => exact .reads hm
  | bind _ _ ihm ihf => exact .bind ihm ihf

theorem Built.pure (a : α) : Built P (Pure.pure a : Prog σ ε α) := .reads (.pure a)

theorem Built.ite {p : Prop} [Decidable p] {m n : Prog σ ε α} (hm : Built P m)
    (hn : Built P n) : Built P (if p then m else n) := by
  split
  · exact hm
  · exact hn

theorem Built.forM {l : List β} {f : β → Prog σ ε PUnit} (h : ∀ b, Built P (f b)) :
    Built P (l.forM f) := by
  induction l with
  | nil => exact .pure _
  | cons b l ih => exact (h b).bind fun _ => ih

theorem Built.foldlM {l : List β} {f : α → β → Prog σ ε α} (h : ∀ a b, Built P (f a b)) (a : α) :
    Built P (l.foldlM f a) := by
  induction l generalizing a with
  | nil => exact .pure a
  | cons b l ih =>
    rw [List.foldlM_cons]
    exact (h a b).bind ih

/-- Two states agree on `view`. -/
def SameOn {τ : Type} (view : σ → τ) (s t : σ) : Prop := view t = view s

instance {τ : Type} (view : σ → τ) : Std.Refl (SameOn view) := ⟨fun _ => rfl⟩

instance {τ : Type} (view : σ → τ) : IsTrans σ (SameOn view) := ⟨fun _ _ _ h h' => h'.trans h⟩

/-- `I` is not lost on the way from one state to the other. -/
def Preserves (I : σ → Prop) (s t : σ) : Prop := I s → I t

instance (I : σ → Prop) : Std.Refl (Preserves I) := ⟨fun _ h => h⟩

instance (I : σ → Prop) : IsTrans σ (Preserves I) := ⟨fun _ _ _ h h' hs => h' (h hs)⟩

/-- An outcome, with the state that it leaves changed by `g`. -/
def through (g : σ → σ) : Except (Stop σ ε) (α × σ) → Except (Stop σ ε) (α × σ)
  | .ok (a, s) => .ok (a, g s)
  | .error (.unwind s) => .error (.unwind (g s))
  | .error (.fault e) => .error (.fault e)

/-- `n` goes the same way from the state changed by `g` as `m` from the state itself, and the
change is still there when they return or are left. -/
def Echoes (g : σ → σ) (n m : Prog σ ε α) : Prop := ∀ s, n (g s) = through g (m s)

/-- `m` goes the same way from a state and from the state changed by `g`. -/
abbrev Unaware (g : σ → σ) (m : Prog σ ε α) : Prop := Echoes g m m

namespace Echoes

variable {g : σ → σ}

theorem pure (a : α) : Echoes g (Pure.pure a : Prog σ ε α) (Pure.pure a) := fun _ => rfl

theorem unwind : Echoes g (stateful.unwind : Prog σ ε α) stateful.unwind := fun _ => rfl

theorem lift (x : Except ε α) : Echoes g (stateful.lift x : Prog σ ε α) (stateful.lift x) := by
  intro s
  cases x with
  | ok a => rfl
  | error e => rfl

theorem modify {f : σ → σ} (h : ∀ s, f (g s) = g (f s)) :
    Echoes g (modify f : Prog σ ε PUnit) (modify f) := by
  intro s
  rw [modify_apply, h]
  rfl

theorem read_bind {f f' : σ → Prog σ ε β} (h : ∀ s, Echoes g (f (g s)) (f' s)) :
    Echoes g (get >>= f) (get >>= f') := fun s => h s s

/-- What is read of the state does not show the change. -/
theorem get_bind {f : σ → Prog σ ε β} (h : ∀ s, f (g s) = f s) (hf : ∀ s, Echoes g (f s) (f s)) :
    Echoes g (get >>= f) (get >>= f) := by
  refine read_bind fun s => ?_
  rw [h s]
  exact hf s

/-- It is enough to look at one state. -/
theorem bind_at {n m : Prog σ ε α} {f' f : α → Prog σ ε β} {s : σ} (hm : n (g s) = through g (m s))
    (hf : ∀ a t, m s = .ok (a, t) → f' a (g t) = through g (f a t)) :
    (n >>= f') (g s) = through g ((m >>= f) s) := by
  rw [bind_apply, bind_apply, hm]
  cases hs : m s with
  | ok r => exact hf r.1 r.2 hs
  | error e => cases e <;> rfl

theorem bind {n m : Prog σ ε α} {f' f : α → Prog σ ε β} (hm : Echoes g n m)
    (hf : ∀ a, Echoes g (f' a) (f a)) : Echoes g (n >>= f') (m >>= f) :=
  fun s => bind_at (hm s) fun a t _ => hf a t

theorem ite {p : Prop} [Decidable p] {m n m' n' : Prog σ ε α} (hm : Echoes g m' m)
    (hn : Echoes g n' n) : Echoes g (if p then m' else n') (if p then m else n) := by
  split
  · exact hm
  · exact hn

theorem forM {f f' : β → Prog σ ε PUnit} {l : List β} (hf : ∀ b, Echoes g (f' b) (f b)) :
    Echoes g (l.forM f') (l.forM f) := by
  induction l with
  | nil => exact .pure _
  | cons b l ih => exact .bind (hf b) fun _ => ih

theorem foldlM {f f' : α → β → Prog σ ε α} {l : List β} (hf : ∀ a b, Echoes g (f' a b) (f a b))
    (a : α) : Echoes g (l.foldlM f' a) (l.foldlM f a) := by
  induction l generalizing a with
  | nil => exact .pure _
  | cons b l ih => exact .bind (hf a b) fun a => ih a

/-- The ends of the two are the same, but for the change. -/
theorem ends_iff {n m : Prog σ ε α} {s u : σ} (h : n (g s) = through g (m s)) :
    Ends n (g s) u ↔ ∃ t, Ends m s t ∧ g t = u := by
  unfold Ends
  rw [h]
  rcases m s with (e | t) | ⟨a, t⟩
  · simp [through]
  · simp [through, eq_comm]
  · simp [through, eq_comm]

end Echoes

/-- A change that nothing is aware of until it is undone leaves no trace. -/
theorem Unaware.bind_eq {g : σ → σ} {m : Prog σ ε α} {f : α → Prog σ ε β} {s : σ}
    (hm : Unaware g m) (hdirect : Direct m)
    (hf : ∀ a t, m s = .ok (a, t) → f a (g t) = f a t) : (m >>= f) (g s) = (m >>= f) s := by
  rw [bind_apply, bind_apply, hm s]
  cases hs : m s with
  | ok r => exact hf r.1 r.2 hs
  | error e =>
    cases e with
    | fault e => rfl
    | unwind t => exact absurd hs (hdirect s t)

/-- From the states in which `I` holds, which it keeps, `m` returns, and as far as `view`
shows the state, it does so exactly as `C` says. -/
structure Acts {τ : Type} (I : σ → Prop) (view : σ → τ) (C : τ → τ → Prop) (m : Prog σ ε α) :
    Prop where
  keeps {s t : σ} {a : α} : I s → m s = .ok (a, t) → I t
  returns_iff {s : σ} : I s → ∀ y, (∃ a t, m s = .ok (a, t) ∧ view t = y) ↔ C (view s) y

namespace Acts

variable {τ : Type} {I : σ → Prop} {view : σ → τ} {C D : τ → τ → Prop}

theorem congr {m : Prog σ ε α} (h : Acts I view C m) (hCD : ∀ x y, C x y ↔ D x y) :
    Acts I view D m :=
  ⟨h.keeps, fun hs y => (h.returns_iff hs y).trans (hCD _ y)⟩

/-- A program that returns and does not change what `view` shows. -/
theorem of_total {m : Prog σ ε α}
    (h : ∀ s, I s → ∃ a t, m s = .ok (a, t) ∧ I t ∧ view t = view s) : Acts I view Eq m where
  keeps hs hm := by
    obtain ⟨a, t, hok, ht, -⟩ := h _ hs
    rw [hm] at hok
    cases hok
    exact ht
  returns_iff hs y := by
    obtain ⟨a, t, hok, -, hview⟩ := h _ hs
    simp [hok, hview]

/-- A program that returns and changes what `view` shows by a function. -/
theorem of_update {g : τ → τ} {m : Prog σ ε α}
    (h : ∀ s, I s → ∃ a t, m s = .ok (a, t) ∧ I t ∧ view t = g (view s)) :
    Acts I view (fun x y => y = g x) m where
  keeps hs hm := by
    obtain ⟨a, t, hok, ht, -⟩ := h _ hs
    rw [hm] at hok
    cases hok
    exact ht
  returns_iff hs y := by
    obtain ⟨a, t, hok, -, hview⟩ := h _ hs
    simp [hok, hview, eq_comm]

theorem pure (a : α) : Acts I view Eq (Pure.pure a : Prog σ ε α) :=
  .of_total fun s hs => ⟨a, s, rfl, hs, rfl⟩

theorem bind {m : Prog σ ε α} {f : α → Prog σ ε β} (hm : Acts I view C m)
    (hf : ∀ a, Acts I view D (f a)) :
    Acts I view (fun x y => ∃ z, C x z ∧ D z y) (m >>= f) where
  keeps hs h := by
    obtain ⟨a, u, hfirst, hrest⟩ := bind_ok_iff.mp h
    exact (hf a).keeps (hm.keeps hs hfirst) hrest
  returns_iff := by
    intro s hs y
    constructor
    · rintro ⟨b, t, h, hview⟩
      obtain ⟨a, u, hfirst, hrest⟩ := bind_ok_iff.mp h
      exact ⟨view u, (hm.returns_iff hs _).mp ⟨a, u, hfirst, rfl⟩,
        ((hf a).returns_iff (hm.keeps hs hfirst) y).mp ⟨b, t, hrest, hview⟩⟩
    · rintro ⟨z, hC, hD⟩
      obtain ⟨a, u, hfirst, rfl⟩ := (hm.returns_iff hs z).mpr hC
      obtain ⟨b, t, hrest, hview⟩ := ((hf a).returns_iff (hm.keeps hs hfirst) y).mpr hD
      exact ⟨b, t, bind_ok_iff.mpr ⟨a, u, hfirst, hrest⟩, hview⟩

/-- What comes first only looks at the state, and only at what `view` shows of it. -/
theorem query {m : Prog σ ε α} {f : α → Prog σ ε β} {r : τ → Except ε α} {D : α → τ → τ → Prop}
    (hm : ∀ s, m s = stateful.lift (r (view s)) s) (hf : ∀ a, Acts I view (D a) (f a)) :
    Acts I view (fun x y => ∃ a, r x = .ok a ∧ D a x y) (m >>= f) where
  keeps hs h := by
    obtain ⟨a, u, hfirst, hrest⟩ := bind_ok_iff.mp h
    rw [hm] at hfirst
    obtain ⟨-, rfl⟩ := lift_ok_iff.mp hfirst
    exact (hf a).keeps hs hrest
  returns_iff := by
    intro s hs y
    constructor
    · rintro ⟨b, t, h, hview⟩
      obtain ⟨a, u, hfirst, hrest⟩ := bind_ok_iff.mp h
      rw [hm] at hfirst
      obtain ⟨hr, rfl⟩ := lift_ok_iff.mp hfirst
      exact ⟨a, hr, ((hf a).returns_iff hs y).mp ⟨b, t, hrest, hview⟩⟩
    · rintro ⟨a, hr, hD⟩
      obtain ⟨b, t, hrest, hview⟩ := ((hf a).returns_iff hs y).mpr hD
      exact ⟨b, t, bind_ok_iff.mpr ⟨a, s, by rw [hm, hr, lift_ok], hrest⟩, hview⟩

theorem lift {x : Except ε α} {f : α → Prog σ ε β} {D : α → τ → τ → Prop}
    (hf : ∀ a, Acts I view (D a) (f a)) :
    Acts I view (fun y z => ∃ a, x = .ok a ∧ D a y z) (stateful.lift x >>= f) :=
  .query (r := fun _ => x) (fun _ => rfl) hf

/-- What comes first reads the state. -/
theorem get_bind {f : σ → Prog σ ε α} {D : τ → τ → τ → Prop}
    (hf : ∀ s, Acts I view (D (view s)) (f s)) :
    Acts I view (fun x y => D x x y) (get >>= f) where
  keeps hs h := (hf _).keeps hs h
  returns_iff hs y := (hf _).returns_iff hs y

theorem ite {p : Prop} [Decidable p] {m n : Prog σ ε α} (hm : Acts I view C m)
    (hn : Acts I view D n) :
    Acts I view (fun x y => (p ∧ C x y) ∨ (¬ p ∧ D x y)) (if p then m else n) := by
  split
  · exact hm.congr fun x y => by simp [‹p›]
  · exact hn.congr fun x y => by simp [‹¬ p›]

theorem forM {l : List β} {f : β → Prog σ ε PUnit} (h : ∀ b, Acts I view Eq (f b)) :
    Acts I view Eq (l.forM f) := by
  induction l with
  | nil => exact .pure _
  | cons b l ih => exact ((h b).bind fun _ => ih).congr fun x y => by simp

/-- A loop whose turns have each a condition. -/
theorem forM_of {l : List β} {f : β → Prog σ ε PUnit} {P : β → Prop}
    (h : ∀ b, Acts I view (fun x y => P b ∧ x = y) (f b)) :
    Acts I view (fun x y => (∀ b ∈ l, P b) ∧ x = y) (l.forM f) := by
  induction l with
  | nil => exact (Acts.pure _).congr fun x y => by simp
  | cons b l ih =>
    refine ((h b).bind fun _ => ih).congr fun x y => ?_
    rw [List.forall_mem_cons]
    constructor
    · rintro ⟨z, ⟨hb, rfl⟩, hrest, rfl⟩
      exact ⟨⟨hb, hrest⟩, rfl⟩
    · rintro ⟨⟨hb, hrest⟩, rfl⟩
      exact ⟨x, ⟨hb, rfl⟩, hrest, rfl⟩

/-- A loop whose turns have each a condition on what `view` shows, and do not change it. -/
theorem foldlM {l : List β} {f : α → β → Prog σ ε α} {P : β → τ → Prop}
    (h : ∀ a, ∀ b ∈ l, Acts I view (fun x y => P b x ∧ x = y) (f a b)) (a : α) :
    Acts I view (fun x y => (∀ b ∈ l, P b x) ∧ x = y) (l.foldlM f a) := by
  induction l generalizing a with
  | nil => exact (Acts.pure a).congr fun x y => by simp
  | cons b l ih =>
    rw [List.foldlM_cons]
    refine ((h a b List.mem_cons_self).bind fun a' =>
      ih (fun a b hb => h a b (List.mem_cons_of_mem _ hb)) a').congr fun x y => ?_
    simp only [List.forall_mem_cons]
    constructor
    · rintro ⟨z, ⟨hb, rfl⟩, hrest, rfl⟩
      exact ⟨⟨hb, hrest⟩, rfl⟩
    · rintro ⟨⟨hb, hrest⟩, rfl⟩
      exact ⟨x, ⟨hb, rfl⟩, hrest, rfl⟩

end Acts

end stateful
