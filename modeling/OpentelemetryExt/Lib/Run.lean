import Mathlib.Data.List.Induction
import OpentelemetryExt.Lib.Stateful

namespace run

variable {σ ι τ : Type}

/-- The finite runs of a labelled transition relation from `s`, with the labels in order. -/
inductive Run (step : ι → σ → σ → Prop) (s : σ) : List ι → σ → Prop
  | nil : Run step s [] s
  | snoc {is : List ι} {i : ι} {t u : σ} : Run step s is t → step i t u → Run step s (is ++ [i]) u

variable {step : ι → σ → σ → Prop} {s t : σ} {is : List ι}

/-- What holds at the start and is kept by every step holds at the end of every run. -/
theorem Run.invariant {I : σ → Prop} (h : Run step s is t) (hinit : I s)
    (hstep : ∀ i t u, step i t u → I t → I u) : I t := by
  induction h with
  | nil => exact hinit
  | snoc _ hlast ih => exact hstep _ _ _ hlast ih

/-- Forward simulation by a function of the labels: `track` follows the run when each of
its steps matches the step of the run. -/
theorem Run.simulates {R : σ → τ → Prop} {track : τ → ι → τ} {a : τ} (h : Run step s is t)
    (hinit : R s a) (hstep : ∀ i t u b, step i t u → R t b → R u (track b i)) :
    R t (is.foldl track a) := by
  induction h with
  | nil => exact hinit
  | snoc _ hlast ih =>
    rw [List.foldl_append]
    exact hstep _ _ _ _ hlast ih

/-- The same for a tracker that does not take every label: the labels are those of a path of it. -/
theorem Run.follows {R : σ → τ → Prop} {next : τ → ι → Option τ} {a b : τ} (h : Run step s is t)
    (hpath : is.foldlM next a = some b) (hinit : R s a)
    (hstep : ∀ i t u b c, step i t u → next b i = some c → R t b → R u c) : R t b := by
  induction h generalizing b with
  | nil =>
    cases hpath
    exact hinit
  | snoc _ hlast ih =>
    rw [List.foldlM_append] at hpath
    obtain ⟨c, hfirst, hnext⟩ := Option.bind_eq_some_iff.mp hpath
    exact hstep _ _ _ _ _ hlast (by simpa using hnext) (ih hfirst)

theorem Run.last {i : ι} (h : Run step s (is ++ [i]) t) : ∃ u, Run step s is u ∧ step i u t := by
  generalize his : is ++ [i] = labels at h
  cases h with
  | nil => simp at his
  | snoc hrun hlast =>
    obtain ⟨rfl, hlabel⟩ := List.append_inj' his rfl
    cases hlabel
    exact ⟨_, hrun, hlast⟩

theorem Run.eq_of_nil (h : Run step s [] t) : t = s := by
  generalize hnil : ([] : List ι) = labels at h
  cases h with
  | nil => rfl
  | snoc => simp at hnil

theorem Run.cons {i : ι} {u : σ} (hfirst : step i s u) (hrun : Run step u is t) :
    Run step s (i :: is) t := by
  induction hrun with
  | nil => exact .snoc .nil hfirst
  | snoc _ hlast ih => exact .snoc ih hlast

theorem Run.append {js : List ι} {u : σ} (h : Run step s is t) (h' : Run step t js u) :
    Run step s (is ++ js) u := by
  induction h' with
  | nil => rwa [List.append_nil]
  | snoc _ hlast ih =>
    rw [← List.append_assoc]
    exact .snoc ih hlast

theorem run_cons_iff {i : ι} : Run step s (i :: is) t ↔ ∃ u, step i s u ∧ Run step u is t := by
  constructor
  · intro h
    induction is using List.reverseRecOn generalizing t with
    | nil =>
      obtain ⟨u, hnil, hstep⟩ := Run.last (show Run step s ([] ++ [i]) t from h)
      exact ⟨t, hnil.eq_of_nil ▸ hstep, .nil⟩
    | append_singleton is j ih =>
      obtain ⟨u, hrun, hlast⟩ := Run.last (show Run step s ((i :: is) ++ [j]) t from h)
      obtain ⟨v, hfirst, hrest⟩ := ih hrun
      exact ⟨v, hfirst, .snoc hrest hlast⟩
  · rintro ⟨u, hfirst, hrun⟩
    exact hrun.cons hfirst

theorem Run.split {js : List ι} (h : Run step s (is ++ js) t) :
    ∃ u, Run step s is u ∧ Run step u js t := by
  induction is generalizing s with
  | nil => exact ⟨s, .nil, h⟩
  | cons i is ih =>
    obtain ⟨v, hfirst, hrest⟩ := run_cons_iff.mp h
    obtain ⟨u, hrun, hrun'⟩ := ih hrest
    exact ⟨u, run_cons_iff.mpr ⟨v, hfirst, hrun⟩, hrun'⟩

theorem Run.mono {step' : ι → σ → σ → Prop} (h : Run step s is t)
    (himp : ∀ i t u, step i t u → step' i t u) : Run step' s is t := by
  induction h with
  | nil => exact .nil
  | snoc _ hlast ih => exact .snoc ih (himp _ _ _ hlast)

/-- A run with what is known of its labels. -/
theorem Run.guarded {L : ι → Prop} (h : Run step s is t) (hall : ∀ i ∈ is, L i) :
    Run (fun i s t => L i ∧ step i s t) s is t := by
  induction h with
  | nil => exact .nil
  | snoc _ hlast ih =>
    rw [List.forall_mem_append, List.forall_mem_singleton] at hall
    exact .snoc (ih hall.1) ⟨hall.2, hlast⟩

/-- Where the labels determine the steps, they determine the run. -/
theorem Run.unique {u : σ} (hdet : ∀ i s t u, step i s t → step i s u → t = u)
    (h : Run step s is t) (h' : Run step s is u) : t = u := by
  induction h generalizing u with
  | nil => exact h'.eq_of_nil.symm
  | snoc _ hlast ih =>
    obtain ⟨v, hrun, hlast'⟩ := Run.last h'
    rw [← ih hrun] at hlast'
    exact hdet _ _ _ _ hlast hlast'

/-- A run that is computed. -/
theorem Run.of_foldlM {f : σ → ι → Option σ} (hf : ∀ s i t, f s i = some t → step i s t)
    (h : is.foldlM f s = some t) : Run step s is t := by
  induction is using List.reverseRecOn generalizing t with
  | nil =>
    cases h
    exact .nil
  | append_singleton is i ih =>
    rw [List.foldlM_append] at h
    obtain ⟨u, hfirst, hlast⟩ := Option.bind_eq_some_iff.mp h
    exact .snoc (ih hfirst) (hf u i t (by simpa using hlast))

/-- A program that is built of operations does what a run does, when each operation does so. -/
theorem runs_of_built {ε α : Type} {P : ∀ {α : Type}, stateful.Prog σ ε α → Prop} {Q : ι → Prop}
    {m : stateful.Prog σ ε α} (hm : stateful.Built P m)
    (hop : ∀ {α : Type} {m : stateful.Prog σ ε α} {s t : σ}, P m → stateful.Ends m s t →
      ∃ is, Run step s is t ∧ ∀ i ∈ is, Q i) (h : stateful.Ends m s t) :
    ∃ is, Run step s is t ∧ ∀ i ∈ is, Q i := by
  induction hm generalizing s t with
  | op hm => exact hop hm h
  | reads hm =>
    obtain rfl := hm h
    exact ⟨[], .nil, fun i hi => absurd hi List.not_mem_nil⟩
  | bind _ _ ihm ihf =>
    obtain ⟨a, u, hfirst, hrest⟩ | hleft := stateful.ends_bind_iff.mp h
    · obtain ⟨is, hrun, his⟩ := ihm (.of_ok hfirst)
      obtain ⟨js, hrun', hjs⟩ := ihf a hrest
      exact ⟨is ++ js, hrun.append hrun', List.forall_mem_append.mpr ⟨his, hjs⟩⟩
    · exact ihm (.inr hleft)

/-- A state in `P` is come to, whichever of the steps with labels in `L` are taken. -/
inductive Inevitable (step : ι → σ → σ → Prop) (L : ι → Prop) (P : σ → Prop) : σ → Prop
  | now {s : σ} : P s → Inevitable step L P s
  | later {s : σ} : (∃ i t, L i ∧ step i s t) →
      (∀ i t, L i → step i s t → Inevitable step L P t) → Inevitable step L P s

/-- Where there is only one step to take, it is taken. -/
theorem Inevitable.of_only {L : ι → Prop} {P : σ → Prop} {i : ι} (hi : L i) (hstep : step i s t)
    (honly : ∀ j u, L j → step j s u → u = t) (h : Inevitable step L P t) :
    Inevitable step L P s := by
  refine .later ⟨i, t, hi, hstep⟩ fun j u hj hu => ?_
  rw [honly j u hj hu]
  exact h

/-- Where no state is stuck, and every step makes a measure smaller, the steps come to `P`. -/
theorem Inevitable.of_measure {L : ι → Prop} {I P : σ → Prop} (size : σ → Nat)
    (hgo : ∀ s, I s → ¬ P s → ∃ i t, L i ∧ step i s t)
    (hstep : ∀ i s t, I s → L i → step i s t → I t ∧ size t < size s) (hs : I s) :
    Inevitable step L P s := by
  induction hn : size s using Nat.strong_induction_on generalizing s with
  | h n ih =>
    by_cases hP : P s
    · exact .now hP
    · refine .later (hgo s hs hP) fun i t hi ht => ?_
      obtain ⟨ht', hlt⟩ := hstep i s t hs hi ht
      apply ih (size t) (hn ▸ hlt) ht'
      rfl

/-- A transition relation with a ghost state beside the state, which the steps do not look at. -/
def Beside (step : ι → σ → σ → Prop) (next : σ → τ → ι → τ) (i : ι) (s s' : σ × τ) : Prop :=
  step i s.1 s'.1 ∧ s'.2 = next s.1 s.2 i

theorem Run.of_beside_foldlM {next : σ → τ → ι → τ} {f : σ → ι → Option σ} {a b : τ}
    (hf : ∀ s i t, f s i = some t → step i s t)
    (h : is.foldlM (fun s i => (f s.1 i).map fun t => (t, next s.1 s.2 i)) (s, a) = some (t, b)) :
    Run (Beside step next) (s, a) is (t, b) := by
  refine Run.of_foldlM (fun u i v hv => ?_) h
  obtain ⟨x, hx, rfl⟩ := Option.map_eq_some_iff.mp hv
  exact ⟨hf _ _ _ hx, rfl⟩

/-- The runs from the image of a state are the images of the runs from it, if this is so of every
step from the states in which `I` holds. -/
theorem run_image_iff {step' : ι → τ → τ → Prop} {g : σ → τ} {I : σ → Prop} {x : τ}
    (hstep : ∀ i s x, I s → (step' i (g s) x ↔ ∃ t, step i s t ∧ g t = x))
    (hkeeps : ∀ i s t, I s → step i s t → I t) (hs : I s) :
    Run step' (g s) is x ↔ ∃ t, Run step s is t ∧ g t = x := by
  induction is generalizing s with
  | nil =>
    constructor
    · intro h
      exact ⟨s, .nil, h.eq_of_nil.symm⟩
    · rintro ⟨t, h, rfl⟩
      rw [h.eq_of_nil]
      exact .nil
  | cons i is ih =>
    rw [run_cons_iff]
    constructor
    · rintro ⟨y, hfirst', hrest'⟩
      obtain ⟨u, hfirst, rfl⟩ := (hstep i s y hs).mp hfirst'
      obtain ⟨t, hrest, rfl⟩ := (ih (hkeeps i s u hs hfirst)).mp hrest'
      exact ⟨t, hrest.cons hfirst, rfl⟩
    · rintro ⟨t, h, rfl⟩
      obtain ⟨u, hfirst, hrest⟩ := run_cons_iff.mp h
      exact ⟨g u, (hstep i s _ hs).mpr ⟨u, hfirst, rfl⟩,
        (ih (hkeeps i s u hs hfirst)).mpr ⟨t, hrest, rfl⟩⟩

end run
