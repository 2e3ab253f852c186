import OpentelemetryExt.Lib.Stateful

open stateful

namespace relational

variable {σ τ ε α β γ δ : Type}

/-- Two outcomes match: both programs return, or both are left, or both fail in the same way. -/
def Outcomes (R : σ → τ → Prop) (V : α → β → Prop) :
    Except (Stop σ ε) (α × σ) → Except (Stop τ ε) (β × τ) → Prop
  | .ok (a, s), .ok (b, t) => V a b ∧ R s t
  | .error (.unwind s), .error (.unwind t) => R s t
  | .error (.fault e), .error (.fault e') => e = e'
  | _, _ => False

theorem Outcomes.mono {R R' : σ → τ → Prop} {V V' : α → β → Prop}
    {x : Except (Stop σ ε) (α × σ)} {y : Except (Stop τ ε) (β × τ)} (h : Outcomes R V x y)
    (hR : ∀ s t, R s t → R' s t) (hV : ∀ a b, V a b → V' a b) : Outcomes R' V' x y := by
  rcases x with (e | s) | ⟨a, s⟩ <;> rcases y with (e' | t) | ⟨b, t⟩
  case error.fault.error.fault => exact h
  case error.unwind.error.unwind => exact hR s t h
  case ok.ok => exact ⟨hV a b h.1, hR s t h.2⟩
  all_goals exact h.elim

theorem Outcomes.symm {R : σ → τ → Prop} {V : α → β → Prop} {x : Except (Stop σ ε) (α × σ)}
    {y : Except (Stop τ ε) (β × τ)} (h : Outcomes R V x y) :
    Outcomes (fun t s => R s t) (fun b a => V a b) y x := by
  rcases x with (e | s) | ⟨a, s⟩ <;> rcases y with (e' | t) | ⟨b, t⟩
  case error.fault.error.fault => exact Eq.symm h
  case error.unwind.error.unwind => exact h
  case ok.ok => exact h
  all_goals exact h.elim

theorem Outcomes.trans {υ : Type} {R : σ → τ → Prop} {R' : τ → υ → Prop} {V : α → β → Prop}
    {V' : β → γ → Prop} {x : Except (Stop σ ε) (α × σ)} {y : Except (Stop τ ε) (β × τ)}
    {z : Except (Stop υ ε) (γ × υ)} (h : Outcomes R V x y) (h' : Outcomes R' V' y z) :
    Outcomes (fun s u => ∃ t, R s t ∧ R' t u) (fun a c => ∃ b, V a b ∧ V' b c) x z := by
  rcases x with (e | s) | ⟨a, s⟩ <;> rcases y with (e' | t) | ⟨b, t⟩ <;>
    rcases z with (e'' | u) | ⟨c, u⟩
  case error.fault.error.fault.error.fault => exact Eq.trans h h'
  case error.unwind.error.unwind.error.unwind => exact ⟨t, h, h'⟩
  case ok.ok.ok => exact ⟨⟨b, h.1, h'.1⟩, t, h.2, h'.2⟩
  all_goals first | exact h.elim | exact h'.elim

/-- Where one program returns, the other does so too. -/
theorem Outcomes.ok {R : σ → τ → Prop} {V : α → β → Prop} {a : α} {s : σ}
    {y : Except (Stop τ ε) (β × τ)} (h : Outcomes R V (.ok (a, s)) y) :
    ∃ b t, y = .ok (b, t) ∧ V a b ∧ R s t := by
  rcases y with (e | t) | ⟨b, t⟩
  · exact h.elim
  · exact h.elim
  · exact ⟨b, t, rfl, h⟩

variable {ι : Type} [Preorder ι] {R : ι → σ → τ → Prop} {i j : ι}

/-- From states that are related in a world `i`, or in any later one, the two programs come to
outcomes that match in a world later still. -/
def Relates (R : ι → σ → τ → Prop) (V : ι → α → β → Prop) (i : ι) (m : Prog σ ε α)
    (n : Prog τ ε β) : Prop :=
  ∀ j, i ≤ j → ∀ s t, R j s t → ∃ k, j ≤ k ∧ Outcomes (R k) (V k) (m s) (n t)

/-- The only world of a relation that does not grow. -/
inductive Still where
  | still

instance instPreorderStill : Preorder Still where
  le _ _ := True
  le_refl _ := trivial
  le_trans _ _ _ _ _ := trivial

/-- The values are the same in every world. -/
abbrev Same : ι → α → α → Prop := fun _ => Eq

namespace Relates

variable {V : ι → α → β → Prop} {W : ι → γ → δ → Prop}

theorem later {m : Prog σ ε α} {n : Prog τ ε β} (h : Relates R V i m n) (hij : i ≤ j) :
    Relates R V j m n := fun k hk => h k (hij.trans hk)

theorem mono {V' : ι → α → β → Prop} {m : Prog σ ε α} {n : Prog τ ε β} (h : Relates R V i m n)
    (hV : ∀ j, i ≤ j → ∀ a b, V j a b → V' j a b) : Relates R V' i m n := by
  intro j hj s t hR
  obtain ⟨k, hk, hmatch⟩ := h j hj s t hR
  exact ⟨k, hk, hmatch.mono (fun _ _ => id) (hV k (hj.trans hk))⟩

theorem pure {a : α} {b : β} (h : ∀ j, i ≤ j → V j a b) :
    Relates R V i (Pure.pure a : Prog σ ε α) (Pure.pure b : Prog τ ε β) :=
  fun j hj _ _ hR => ⟨j, le_rfl, h j hj, hR⟩

theorem pure_same (a : α) :
    Relates R Same i (Pure.pure a : Prog σ ε α) (Pure.pure a : Prog τ ε α) := .pure fun _ _ => rfl

theorem bind {m : Prog σ ε α} {n : Prog τ ε β} {f : α → Prog σ ε γ} {g : β → Prog τ ε δ}
    (hm : Relates R V i m n) (hf : ∀ j, i ≤ j → ∀ a b, V j a b → Relates R W j (f a) (g b)) :
    Relates R W i (m >>= f) (n >>= g) := by
  intro j hj s t hR
  obtain ⟨k, hk, hmatch⟩ := hm j hj s t hR
  rw [bind_apply, bind_apply]
  generalize m s = x at hmatch
  generalize n t = y at hmatch
  rcases x with (e | s') | ⟨a, s'⟩ <;> rcases y with (e' | t') | ⟨b, t'⟩
  case error.fault.error.fault => exact ⟨k, hk, hmatch⟩
  case error.unwind.error.unwind => exact ⟨k, hk, hmatch⟩
  case ok.ok =>
    obtain ⟨l, hl, hrest⟩ := hf k (hj.trans hk) a b hmatch.1 k le_rfl s' t' hmatch.2
    exact ⟨l, hk.trans hl, hrest⟩
  all_goals exact hmatch.elim

/-- What comes first returns the same value on both sides. -/
theorem bind_same {m : Prog σ ε α} {n : Prog τ ε α} {f : α → Prog σ ε γ} {g : α → Prog τ ε δ}
    (hm : Relates R Same i m n) (hf : ∀ j, i ≤ j → ∀ a, Relates R W j (f a) (g a)) :
    Relates R W i (m >>= f) (n >>= g) := by
  refine hm.bind fun j hj a b hab => ?_
  subst hab
  exact hf j hj a

/-- Both make something of what they return. -/
theorem map {f : α → γ} {g : β → δ} {m : Prog σ ε α} {n : Prog τ ε β} (h : Relates R V i m n)
    (hf : ∀ j, i ≤ j → ∀ a b, V j a b → W j (f a) (g b)) :
    Relates R W i (do return f (← m)) (do return g (← n)) := by
  intro j hj s t hR
  obtain ⟨k, hk, hmatch⟩ := h j hj s t hR
  refine ⟨k, hk, ?_⟩
  rw [bind_apply, bind_apply]
  generalize m s = x at hmatch
  generalize n t = y at hmatch
  rcases x with (e | s') | ⟨a, s'⟩ <;> rcases y with (e' | t') | ⟨b, t'⟩
  case ok.ok => exact ⟨hf k (hj.trans hk) a b hmatch.1, hmatch.2⟩
  case error.fault.error.fault => exact hmatch
  case error.unwind.error.unwind => exact hmatch
  all_goals exact hmatch.elim

theorem lift {x : Except ε α} {y : Except ε β} (h : ∀ e, x = .error e ↔ y = .error e)
    (hV : ∀ a b, x = .ok a → y = .ok b → ∀ j, i ≤ j → V j a b) :
    Relates R V i (stateful.lift x) (stateful.lift y) := by
  intro j hj s t hR
  refine ⟨j, le_rfl, ?_⟩
  cases x with
  | error e =>
    rw [(h e).mp rfl]
    rfl
  | ok a =>
    cases y with
    | error e => cases (h e).mpr rfl
    | ok b => exact ⟨hV a b rfl rfl j hj, hR⟩

theorem lift_same (x : Except ε α) :
    Relates R Same i (stateful.lift x : Prog σ ε α) (stateful.lift x : Prog τ ε α) := by
  refine .lift (fun _ => Iff.rfl) fun a b ha hb _ _ => ?_
  rw [ha] at hb
  exact Except.ok.inj hb

theorem ite {p q : Prop} [Decidable p] [Decidable q] {m m' : Prog σ ε α} {n n' : Prog τ ε β}
    (hpq : p ↔ q) (hm : p → Relates R V i m n) (hm' : ¬ p → Relates R V i m' n') :
    Relates R V i (if p then m else m') (if q then n else n') := by
  by_cases hp : p
  · rw [if_pos hp, if_pos (hpq.mp hp)]
    exact hm hp
  · rw [if_neg hp, if_neg fun hq => hp (hpq.mpr hq)]
    exact hm' hp

/-- What the two states show. -/
theorem get {P : σ → τ → Prop} (h : ∀ j s t, R j s t → P s t) :
    Relates R (fun _ => P) i (MonadState.get : Prog σ ε σ) (MonadState.get : Prog τ ε τ) :=
  fun j _ s t hR => ⟨j, le_rfl, h j s t hR, hR⟩

theorem modify {f : σ → σ} {g : τ → τ}
    (h : ∀ j, i ≤ j → ∀ s t, R j s t → ∃ k, j ≤ k ∧ R k (f s) (g t)) :
    Relates R Same i (modify f : Prog σ ε PUnit) (modify g : Prog τ ε PUnit) := by
  intro j hj s t hR
  obtain ⟨k, hk, hR'⟩ := h j hj s t hR
  exact ⟨k, hk, rfl, hR'⟩

theorem forM {f : α → Prog σ ε PUnit} {g : α → Prog τ ε PUnit} {l : List α}
    (h : ∀ j, i ≤ j → ∀ a, Relates R Same j (f a) (g a)) :
    Relates R Same i (l.forM f) (l.forM g) := by
  induction l generalizing i with
  | nil => exact .pure_same _
  | cons a l ih =>
    exact (h i le_rfl a).bind_same fun j hj _ => ih fun k hk => h k (hj.trans hk)

end Relates

end relational
