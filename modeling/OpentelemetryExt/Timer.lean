import OpentelemetryExt.Lib.Run

open run

namespace opentelemetry

namespace timer

/-- Where a thread that `Start` has made stands: before which of its accesses. -/
inductive Worker where
  | whileTest
  | waitFor
  | ifTest
  | task
  | count
  | loopTest
  | setExpired
  | clearTryExpired
  | ended
deriving DecidableEq, Repr

/-- Where the owner stands, likewise. -/
inductive Owner where
  | idle
  | startExpired (bLoop async : Bool)
  | startTryExpired (bLoop async : Bool)
  | startClear (bLoop async : Bool)
  | startLoop (bLoop async : Bool)
  | startCount (async : Bool)
  | deleteThread
  | join
  | newThread
  | sleepFor
  | syncTest
  | syncTask
  | syncExpired
  | syncTryExpired
  | cancelExpired
  | cancelTryExpired
  | cancelThread
  | cancelStore
deriving DecidableEq, Repr

/-- A timer with its threads, of which `m_Thread` is one. `answers` has what the calls of `Start`
have returned, and `tasks` how often a task has been run. -/
structure CTimer where
  m_bExpired : Bool
  m_bTryExpired : Bool
  m_bLoop : Bool
  m_nCount : Nat
  m_Thread : Option Nat
  threads : List Worker
  owner : Owner
  answers : List Bool
  tasks : Nat
deriving DecidableEq

/-- The timer as it is constructed. -/
def CTimer.new : CTimer := ⟨true, false, false, 0, none, [], .idle, [], 0⟩

/-- The calls of the owner. -/
inductive Call where
  | start (bLoop async : Bool)
  | cancel
deriving DecidableEq, Repr

/-- What a step is: the owner begins a call, or goes on with it, or a thread goes on. -/
inductive Action where
  | call (c : Call)
  | owner
  | worker (i : Nat)
deriving DecidableEq, Repr

namespace CTimer

variable (t : CTimer)

@[simp]
def answer (accepted : Bool) : CTimer :=
  { t with owner := .idle, answers := t.answers ++ [accepted] }

/-- The thread `m_Thread` points to. -/
def thread : Option Worker := t.m_Thread.bind (t.threads[·]?)

/-- The next access of the owner. The thread that is joined has to have ended. -/
def ownerStep : Option CTimer :=
  match t.owner with
  | .idle => none
  | .startExpired bLoop async =>
    if t.m_bExpired then some { t with owner := .startTryExpired bLoop async }
    else some (t.answer false)
  | .startTryExpired bLoop async =>
    if t.m_bTryExpired then some (t.answer false)
    else some { t with owner := .startClear bLoop async }
  | .startClear bLoop async => some { t with m_bExpired := false, owner := .startLoop bLoop async }
  | .startLoop bLoop async => some { t with m_bLoop := bLoop, owner := .startCount async }
  | .startCount async =>
    some { t with m_nCount := 0, owner := if async then .deleteThread else .sleepFor }
  | .deleteThread => some { t with owner := if t.m_Thread.isSome then .join else .newThread }
  | .join =>
    if t.thread = some .ended then some { t with m_Thread := none, owner := .newThread } else none
  | .newThread =>
    some (answer { t with
      m_Thread := some t.threads.length, threads := t.threads ++ [.whileTest] } true)
  | .sleepFor => some { t with owner := .syncTest }
  | .syncTest => some { t with owner := if t.m_bTryExpired then .syncExpired else .syncTask }
  | .syncTask => some { t with tasks := t.tasks + 1, owner := .syncExpired }
  | .syncExpired => some { t with m_bExpired := true, owner := .syncTryExpired }
  | .syncTryExpired => some (answer { t with m_bTryExpired := false } true)
  | .cancelExpired => some { t with owner := if t.m_bExpired then .idle else .cancelTryExpired }
  | .cancelTryExpired => some { t with owner := if t.m_bTryExpired then .idle else .cancelThread }
  | .cancelThread => some { t with owner := if t.m_Thread.isSome then .cancelStore else .idle }
  | .cancelStore => some { t with m_bTryExpired := true, owner := .idle }

/-- The next access of a thread that stands at `w`, and where it stands then. -/
def workerStep : Worker → Option (CTimer × Worker)
  | .whileTest => some (t, if t.m_bTryExpired then .setExpired else .waitFor)
  | .waitFor => some (t, .ifTest)
  | .ifTest => some (t, if t.m_bTryExpired then .whileTest else .task)
  | .task => some ({ t with tasks := t.tasks + 1 }, .count)
  | .count => some ({ t with m_nCount := t.m_nCount + 1 }, .loopTest)
  | .loopTest => some (t, if t.m_bLoop then .whileTest else .setExpired)
  | .setExpired => some ({ t with m_bExpired := true }, .clearTryExpired)
  | .clearTryExpired => some ({ t with m_bTryExpired := false }, .ended)
  | .ended => none

def step (a : Action) : Option CTimer :=
  match a with
  | .call (.start bLoop async) =>
    if t.owner = .idle then some { t with owner := .startExpired bLoop async } else none
  | .call .cancel => if t.owner = .idle then some { t with owner := .cancelExpired } else none
  | .owner => t.ownerStep
  | .worker i => do
    let w ← t.threads[i]?
    let (t', w') ← t.workerStep w
    return { t' with threads := t'.threads.set i w' }

end CTimer

/-- The owner is in a call of `Start` that has been accepted, and has not set `m_bExpired` again. -/
@[simp]
def Owner.loads : Owner → Bool
  | .startLoop .. | .startCount .. | .deleteThread | .join | .newThread | .sleepFor | .syncTest
  | .syncTask | .syncExpired => true
  | _ => false

/-- The owner has read in `Start` that `m_bExpired` is set. -/
@[simp]
def Owner.admitted : Owner → Bool
  | .startTryExpired .. | .startClear .. | .syncTryExpired => true
  | owner => owner.loads

/-- The thread has not set `m_bExpired` yet. -/
@[simp]
def Worker.busy : Worker → Bool
  | .clearTryExpired | .ended => false
  | _ => true

/-- The thread of the timer has not set `m_bExpired` yet. -/
def CTimer.busy (t : CTimer) : Bool := t.thread.any Worker.busy

/-- What holds of a timer in every interleaving: all threads but its own have ended, and
`m_bExpired` is set unless its thread or an accepted `Start` is at work, of which only one is. -/
structure CTimer.Inv (t : CTimer) : Prop where
  own (i : Nat) (w : Worker) : t.threads[i]? = some w → w ≠ .ended → t.m_Thread = some i
  bound (i : Nat) : t.m_Thread = some i → i < t.threads.length
  free : t.owner = .newThread → t.m_Thread = none
  expired : t.m_bExpired = !(t.busy || t.owner.loads)
  apart : t.owner.admitted → t.busy = false

section

variable {t u : CTimer} {i : Nat}

theorem inv_new : CTimer.new.Inv where
  own i w h := by simp [CTimer.new] at h
  bound i h := by simp [CTimer.new] at h
  free h := by simp [CTimer.new] at h
  expired := rfl
  apart h := by simp [CTimer.new] at h

/-- A step that leaves the threads alone keeps the invariant if `m_bExpired` is still right. -/
theorem CTimer.Inv.of_threads (h : t.Inv) (hthreads : u.threads = t.threads)
    (hthread : u.m_Thread = t.m_Thread) (hfree : u.owner = .newThread → t.m_Thread = none)
    (hexpired : u.m_bExpired = !(t.busy || u.owner.loads)) (hapart : u.owner.admitted → t.busy = false) :
    u.Inv := by
  have hbusy : u.busy = t.busy := by rw [CTimer.busy, CTimer.thread, hthreads, hthread]; rfl
  refine ⟨?_, ?_, ?_, ?_, ?_⟩
  · rw [hthreads, hthread]
    exact h.own
  · rw [hthreads, hthread]
    exact h.bound
  · rw [hthread]
    exact hfree
  · rw [hbusy]
    exact hexpired
  · rw [hbusy]
    exact hapart

theorem CTimer.Inv.ownerStep (h : t.Inv) (hstep : t.ownerStep = some u) : u.Inv := by
  have hexpired := h.expired
  have hapart := h.apart
  unfold CTimer.ownerStep at hstep
  cases howner : t.owner with
  | idle =>
    rw [howner] at hstep
    cases hstep
  | startExpired bLoop async =>
    simp only [howner] at hstep
    rw [howner] at hexpired
    split at hstep
    · rename_i hset
      cases hstep
      have hidle : t.busy = false := by simpa [hset] using hexpired
      exact h.of_threads rfl rfl (by simp) hexpired fun _ => hidle
    · cases hstep
      exact h.of_threads rfl rfl (by simp) hexpired (by simp)
  | startTryExpired bLoop async =>
    simp only [howner] at hstep
    rw [howner] at hexpired hapart
    split at hstep
    · cases hstep
      exact h.of_threads rfl rfl (by simp) hexpired (by simp)
    · cases hstep
      exact h.of_threads rfl rfl (by simp) hexpired hapart
  | startClear bLoop async =>
    simp only [howner] at hstep
    rw [howner] at hapart
    cases hstep
    exact h.of_threads rfl rfl (by simp) (by simp) hapart
  | startLoop bLoop async =>
    simp only [howner] at hstep
    rw [howner] at hexpired hapart
    cases hstep
    exact h.of_threads rfl rfl (by simp) hexpired hapart
  | startCount async =>
    simp only [howner] at hstep
    rw [howner] at hexpired hapart
    cases hstep
    cases async with
    | true => exact h.of_threads rfl rfl (by simp) hexpired hapart
    | false => exact h.of_threads rfl rfl (by simp) hexpired hapart
  | deleteThread =>
    simp only [howner] at hstep
    rw [howner] at hexpired hapart
    cases hstep
    cases hthread : t.m_Thread with
    | some j => exact h.of_threads rfl hthread.symm (by simp) hexpired hapart
    | none => exact h.of_threads rfl hthread.symm (fun _ => hthread) hexpired hapart
  | join =>
    simp only [howner] at hstep
    rw [howner] at hexpired
    split at hstep
    · rename_i hended
      cases hstep
      -- The thread that is deleted has ended, so that none is left.
      refine ⟨fun j w hj hw => ?_, fun j hj => ?_, fun _ => rfl, ?_, fun _ => rfl⟩
      · have hown := h.own j w hj hw
        rw [CTimer.thread, hown, Option.bind_some, hj] at hended
        exact absurd (Option.some.inj hended) hw
      · cases hj
      · rw [hexpired]
        simp
    · cases hstep
  | newThread =>
    simp only [howner] at hstep
    rw [howner] at hexpired
    have hnone := h.free howner
    cases hstep
    refine ⟨fun j w hj hw => ?_, fun j hj => ?_, fun hnew => ?_, ?_, fun hadmitted => ?_⟩
    · obtain hlt | hge := Nat.lt_or_ge j t.threads.length
      · have hold : t.threads[j]? = some w := by rwa [CTimer.answer, List.getElem?_append_left hlt] at hj
        have hown := h.own j w hold hw
        rw [hnone] at hown
        cases hown
      · have hlast : j = t.threads.length := by
          by_contra hne
          rw [CTimer.answer, List.getElem?_append_right hge, List.getElem?_eq_none (by simp; omega)] at hj
          cases hj
        exact congrArg some hlast.symm
    · cases hj
      simp [CTimer.answer]
    · cases hnew
    · rw [CTimer.answer, hexpired]
      simp [CTimer.busy, CTimer.thread]
    · cases hadmitted
  | sleepFor =>
    simp only [howner] at hstep
    rw [howner] at hexpired hapart
    cases hstep
    exact h.of_threads rfl rfl (by simp) hexpired hapart
  | syncTest =>
    simp only [howner] at hstep
    rw [howner] at hexpired hapart
    cases hstep
    cases t.m_bTryExpired with
    | true => exact h.of_threads rfl rfl (by simp) hexpired hapart
    | false => exact h.of_threads rfl rfl (by simp) hexpired hapart
  | syncTask =>
    simp only [howner] at hstep
    rw [howner] at hexpired hapart
    cases hstep
    exact h.of_threads rfl rfl (by simp) hexpired hapart
  | syncExpired =>
    simp only [howner] at hstep
    rw [howner] at hapart
    cases hstep
    exact h.of_threads rfl rfl (by simp) (by simp [hapart rfl]) hapart
  | syncTryExpired =>
    simp only [howner] at hstep
    rw [howner] at hexpired
    cases hstep
    exact h.of_threads rfl rfl (by simp) hexpired (by simp)
  | cancelExpired =>
    simp only [howner] at hstep
    rw [howner] at hexpired
    cases hstep
    cases hset : t.m_bExpired with
    | true =>
      rw [hset] at hexpired
      exact h.of_threads rfl rfl (by simp) hexpired (by simp)
    | false =>
      rw [hset] at hexpired
      exact h.of_threads rfl rfl (by simp) hexpired (by simp)
  | cancelTryExpired =>
    simp only [howner] at hstep
    rw [howner] at hexpired
    cases hstep
    cases t.m_bTryExpired with
    | true => exact h.of_threads rfl rfl (by simp) hexpired (by simp)
    | false => exact h.of_threads rfl rfl (by simp) hexpired (by simp)
  | cancelThread =>
    simp only [howner] at hstep
    rw [howner] at hexpired
    cases hstep
    cases hthread : t.m_Thread with
    | some j => exact h.of_threads rfl hthread.symm (by simp) hexpired (by simp)
    | none => exact h.of_threads rfl hthread.symm (by simp) hexpired (by simp)
  | cancelStore =>
    simp only [howner] at hstep
    rw [howner] at hexpired
    cases hstep
    exact h.of_threads rfl rfl (by simp) hexpired (by simp)

/-- What one step of a thread does: it goes on to the next access, and sets `m_bExpired` when it
was the one that had to. -/
theorem workerStep_spec {v : CTimer} {w w' : Worker} (h : t.workerStep w = some (v, w')) :
    w ≠ .ended ∧ v.owner = t.owner ∧ v.m_Thread = t.m_Thread ∧ v.threads = t.threads ∧
      v.m_bExpired = (t.m_bExpired || w.busy && !w'.busy) ∧ (w.busy = false → w'.busy = false) ∧
      (w' = .ended → v.m_bTryExpired = false) := by
  cases w with
  | ended => cases h
  | whileTest =>
    cases h
    cases t.m_bTryExpired <;> simp
  | waitFor =>
    cases h
    simp
  | ifTest =>
    cases h
    cases t.m_bTryExpired <;> simp
  | task =>
    cases h
    simp
  | count =>
    cases h
    simp
  | loopTest =>
    cases h
    cases t.m_bLoop <;> simp
  | setExpired =>
    cases h
    simp
  | clearTryExpired =>
    cases h
    simp

/-- A thread that goes on is the thread of the timer. -/
theorem CTimer.Inv.worker (h : t.Inv) (hstep : t.step (.worker i) = some u) : ∃ v w w',
    t.threads[i]? = some w ∧ t.workerStep w = some (v, w') ∧ t.m_Thread = some i ∧
      u = { v with threads := t.threads.set i w' } ∧ t.thread = some w ∧ u.thread = some w' := by
  obtain ⟨w, hw, hrest⟩ := Option.bind_eq_some_iff.mp hstep
  obtain ⟨⟨v, w'⟩, hwork, hu⟩ := Option.bind_eq_some_iff.mp hrest
  obtain ⟨hended, -, hthread, hthreads, -⟩ := workerStep_spec hwork
  have hown := h.own i w hw hended
  have hu' : u = { v with threads := t.threads.set i w' } := by
    rw [← hthreads]
    exact (Option.some.inj hu).symm
  refine ⟨v, w, w', hw, hwork, hown, hu', ?_, ?_⟩
  · rw [CTimer.thread, hown, Option.bind_some, hw]
  · rw [hu', CTimer.thread, hthread, hown, Option.bind_some,
      List.getElem?_set_self (h.bound i hown)]

theorem Owner.admitted_of_loads {owner : Owner} (h : owner.loads = true) : owner.admitted = true := by
  cases owner <;> first | rfl | cases h

theorem CTimer.Inv.workerStep (h : t.Inv) (hstep : t.step (.worker i) = some u) : u.Inv := by
  obtain ⟨v, w, w', hw, hwork, hown, hu, ht, hu'⟩ := h.worker hstep
  obtain ⟨-, howner, hthread, -, hset, hbusy, -⟩ := workerStep_spec hwork
  have hbefore : t.busy = w.busy := by rw [CTimer.busy, ht, Option.any_some]
  have hafter : u.busy = w'.busy := by rw [CTimer.busy, hu', Option.any_some]
  have hexpired := h.expired
  have hapart := h.apart
  rw [hbefore] at hexpired hapart
  subst hu
  refine ⟨fun j x hj hx => ?_, fun j hj => ?_, fun hnew => ?_, ?_, fun hadmitted => ?_⟩
  · rw [hthread]
    by_cases hji : i = j
    · rw [← hji]
      exact hown
    · exact h.own j x (by rwa [List.getElem?_set_ne hji] at hj) hx
  · rw [hthread] at hj
    rw [List.length_set]
    exact h.bound j hj
  · rw [howner] at hnew
    rw [h.free hnew] at hown
    cases hown
  · rw [hafter]
    dsimp only
    rw [howner, hset, hexpired]
    cases hwb : w.busy with
    | true =>
      have hloads : t.owner.loads = false := by
        by_contra hne
        have hidle := hapart (Owner.admitted_of_loads (by simpa using hne))
        rw [hwb] at hidle
        cases hidle
      rw [hloads]
      simp
    | false => rw [hbusy hwb, Bool.false_and, Bool.or_false]
  · rw [hafter]
    exact hbusy (hapart (by rwa [howner] at hadmitted))

/-- A call is made by an idle owner, and has not been accepted yet. -/
theorem CTimer.step_call {c : Call} (hstep : t.step (.call c) = some u) : t.owner = .idle ∧
    ∃ owner : Owner, u = { t with owner := owner } ∧ owner.loads = false ∧ ¬ owner.admitted ∧
      owner ≠ .newThread := by
  cases c with
  | start bLoop async =>
    simp only [CTimer.step] at hstep
    split at hstep
    · rename_i hidle
      cases hstep
      exact ⟨hidle, _, rfl, rfl, by simp, by simp⟩
    · cases hstep
  | cancel =>
    simp only [CTimer.step] at hstep
    split at hstep
    · rename_i hidle
      cases hstep
      exact ⟨hidle, _, rfl, rfl, by simp, by simp⟩
    · cases hstep

theorem CTimer.Inv.call (h : t.Inv) {c : Call} (hstep : t.step (.call c) = some u) : u.Inv := by
  obtain ⟨hidle, owner, rfl, hloads, hadmitted, hnew⟩ := CTimer.step_call hstep
  have hexpired : t.m_bExpired = !(t.busy || owner.loads) := by
    rw [h.expired, hidle, hloads]
    rfl
  exact h.of_threads rfl rfl (fun heq => absurd heq hnew) hexpired fun hin => absurd hin hadmitted

/-- The steps of the owner and of the threads, in any order. -/
def Step (a : Action) (t u : CTimer) : Prop := t.step a = some u

theorem inv_step {a : Action} (hstep : Step a t u) (h : t.Inv) : u.Inv := by
  cases a with
  | call c => exact h.call hstep
  | owner => exact h.ownerStep hstep
  | worker i => exact h.workerStep hstep

theorem inv_run {actions : List Action} (h : Run Step .new actions t) : t.Inv :=
  h.invariant inv_new fun _ _ _ hstep ht => inv_step hstep ht

/-- The worker has finished, and no call of `Start` or `Cancel` is in progress. -/
def Rests (t : CTimer) : Prop := t.owner = .idle ∧ ∀ w ∈ t.threads, w = .ended

/-- At most one thread has not ended. -/
def OneWorker (t : CTimer) : Prop := ∀ (i j : Nat) (w x : Worker), t.threads[i]? = some w →
  t.threads[j]? = some x → w ≠ .ended → x ≠ .ended → i = j

theorem CTimer.Inv.oneWorker (h : t.Inv) : OneWorker t := by
  intro i j w x hi hj hw hx
  have hown := h.own i w hi hw
  rw [h.own j x hj hx] at hown
  exact (Option.some.inj hown).symm

/-- The thread of the timer has not cleared `m_bTryExpired` yet. -/
def Alive (t : CTimer) : Prop := ∃ w, t.thread = some w ∧ w ≠ .ended

/-- `Cancel` stores nothing once the worker has cleared `m_bTryExpired`. -/
def InTime (a : Action) (t u : CTimer) : Prop :=
  Step a t u ∧ (a = .owner → t.owner = .cancelStore → Alive t)

/-- When the worker has cleared it, `m_bTryExpired` stays clear. -/
def Cleared (t : CTimer) : Prop := ¬ Alive t → t.m_bTryExpired = false

/-- Most steps of the owner touch neither the threads nor `m_bTryExpired`. -/
theorem ownerStep_same (hstep : t.ownerStep = some u) (hstore : t.owner ≠ .cancelStore)
    (hclear : t.owner ≠ .syncTryExpired) (hjoin : t.owner ≠ .join) (hnew : t.owner ≠ .newThread) :
    u.thread = t.thread ∧ u.m_bTryExpired = t.m_bTryExpired := by
  unfold CTimer.ownerStep at hstep
  cases howner : t.owner with
  | cancelStore => exact absurd howner hstore
  | syncTryExpired => exact absurd howner hclear
  | join => exact absurd howner hjoin
  | newThread => exact absurd howner hnew
  | idle =>
    rw [howner] at hstep
    cases hstep
  | startExpired bLoop async =>
    simp only [howner] at hstep
    split at hstep <;> cases hstep <;> exact ⟨rfl, rfl⟩
  | startTryExpired bLoop async =>
    simp only [howner] at hstep
    split at hstep <;> cases hstep <;> exact ⟨rfl, rfl⟩
  | _ =>
    simp only [howner] at hstep
    cases hstep
    exact ⟨rfl, rfl⟩

theorem Cleared.ownerStep (h : Cleared t) (hinv : t.Inv) (hstep : InTime .owner t u) : Cleared u := by
  obtain ⟨hstep, hin⟩ := hstep
  have howns : t.ownerStep = some u := hstep
  by_cases hstore : t.owner = .cancelStore
  · simp only [CTimer.ownerStep, hstore] at howns
    cases howns
    exact fun hdead => absurd (hin rfl hstore) hdead
  · by_cases hclear : t.owner = .syncTryExpired
    · simp only [CTimer.ownerStep, hclear] at howns
      cases howns
      exact fun _ => rfl
    · by_cases hjoin : t.owner = .join
      · simp only [CTimer.ownerStep, hjoin] at howns
        split at howns
        · rename_i hended
          cases howns
          -- The thread that was joined had cleared it.
          refine fun _ => h ?_
          rintro ⟨w, hw, hne⟩
          rw [hended] at hw
          exact hne (Option.some.inj hw).symm
        · cases howns
      · by_cases hnew : t.owner = .newThread
        · simp only [CTimer.ownerStep, hnew] at howns
          cases howns
          refine fun hdead => absurd ⟨.whileTest, ?_, by decide⟩ hdead
          simp [CTimer.thread]
        · obtain ⟨hthread, htry⟩ := ownerStep_same howns hstore hclear hjoin hnew
          intro hdead
          rw [htry]
          apply h
          rwa [Alive, hthread] at hdead

theorem Cleared.step {a : Action} (h : Cleared t) (hinv : t.Inv) (hstep : InTime a t u) :
    Cleared u := by
  cases a with
  | owner => exact h.ownerStep hinv hstep
  | call c =>
    obtain ⟨-, owner, rfl, -⟩ := CTimer.step_call hstep.1
    exact h
  | worker i =>
    obtain ⟨v, w, w', hw, hwork, hown, rfl, ht, hu⟩ := hinv.worker hstep.1
    intro hdead
    have hended : w' = .ended := by
      by_contra hne
      exact hdead ⟨w', hu, hne⟩
    exact (workerStep_spec hwork).2.2.2.2.2.2 hended

theorem cleared_run {actions : List Action} (h : Run InTime .new actions t) :
    t.Inv ∧ Cleared t := by
  refine h.invariant (I := fun t => t.Inv ∧ Cleared t) ⟨inv_new, fun _ => rfl⟩
    fun a t u hstep ht => ?_
  exact ⟨inv_step hstep.1 ht.1, ht.2.step ht.1 hstep⟩

theorem Rests.not_alive (h : Rests t) : ¬ Alive t := by
  rintro ⟨w, hw, hne⟩
  obtain ⟨i, -, hi⟩ := Option.bind_eq_some_iff.mp hw
  exact hne (h.2 w (List.mem_of_getElem? hi))

theorem Rests.busy (h : Rests t) : t.busy = false := by
  rw [CTimer.busy, Option.any_eq_false]
  intro w hw
  have hended : w = .ended := by
    by_contra hne
    exact h.not_alive ⟨w, hw, hne⟩
  rw [hended]
  rfl

/-- The owner makes no new call. -/
def Goes (a : Action) : Prop := ∀ c, a ≠ .call c

variable {P : CTimer → Prop}

/-- While no thread is at work, only the owner goes on. -/
theorem inevitable_owner (hended : ∀ w ∈ t.threads, w = .ended) (hstep : t.ownerStep = some u)
    (h : Inevitable Step Goes P u) : Inevitable Step Goes P t := by
  refine .of_only (i := .owner) (fun c hc => by cases hc) hstep (fun a v ha hv => ?_) h
  cases a with
  | call c => exact absurd rfl (ha c)
  | owner => exact Option.some.inj (hv.symm.trans hstep)
  | worker i =>
    obtain ⟨w, hw, hrest⟩ := Option.bind_eq_some_iff.mp hv
    obtain ⟨r, hwork, -⟩ := Option.bind_eq_some_iff.mp hrest
    rw [hended w (List.mem_of_getElem? hw)] at hwork
    cases hwork

/-- While the owner makes no call, only the thread that it has made goes on. -/
theorem inevitable_worker {before : List Worker} {v : CTimer} {w w' : Worker}
    (hended : ∀ x ∈ before, x = .ended) (hthreads : t.threads = before ++ [w])
    (howner : t.owner = .idle) (hwork : t.workerStep w = some (v, w'))
    (h : Inevitable Step Goes P { v with threads := before ++ [w'] }) : Inevitable Step Goes P t := by
  have hlast : t.step (.worker before.length) = some { v with threads := before ++ [w'] } := by
    have hsame := (workerStep_spec hwork).2.2.2.1
    have hget : t.threads[before.length]? = some w := by rw [hthreads]; simp
    have hset : t.threads.set before.length w' = before ++ [w'] := by rw [hthreads]; simp
    rw [← hset, ← hsame]
    exact Option.bind_eq_some_iff.mpr ⟨w, hget, Option.bind_eq_some_iff.mpr ⟨(v, w'), hwork, rfl⟩⟩
  refine .of_only (i := .worker before.length) (fun c hc => by cases hc) hlast (fun a x ha hx => ?_) h
  cases a with
  | call c => exact absurd rfl (ha c)
  | owner =>
    simp only [Step, CTimer.step, CTimer.ownerStep, howner] at hx
    cases hx
  | worker i =>
    by_cases hi : i = before.length
    · rw [hi] at hx
      exact Option.some.inj (hx.symm.trans hlast)
    · obtain ⟨y, hy, hrest⟩ := Option.bind_eq_some_iff.mp hx
      obtain ⟨r, hwork', -⟩ := Option.bind_eq_some_iff.mp hrest
      have hmem : y ∈ before := by
        rw [hthreads, List.getElem?_append] at hy
        split at hy
        · exact List.mem_of_getElem? hy
        · rw [List.getElem?_eq_none (by simp; omega)] at hy
          cases hy
      rw [hended y hmem] at hwork'
      cases hwork'

/-- A call of `Start` that begins now is accepted, and its task is run. -/
def Starts (t : CTimer) : Prop := ∀ bLoop async, ∃ u, Step (.call (.start bLoop async)) t u ∧
  Inevitable Step Goes (fun v => v.tasks = t.tasks + 1 ∧ v.answers = t.answers ++ [true]) u

theorem starts_of_rests (h : t.Inv) (hrests : Rests t) (hexpired : t.m_bExpired = true)
    (htry : t.m_bTryExpired = false) : Starts t := by
  obtain ⟨howner, hended⟩ := hrests
  have hthread : ∀ i, t.m_Thread = some i → t.threads[i]? = some .ended := by
    intro i hi
    have hlt := h.bound i hi
    rw [List.getElem?_eq_getElem hlt, hended _ (List.getElem_mem hlt)]
  obtain ⟨expired, try_expired, loop, count, thread, threads, owner, answers, tasks⟩ := t
  dsimp only at howner hended hthread hexpired htry
  subst howner hexpired htry
  intro bLoop async
  refine ⟨_, rfl, ?_⟩
  refine inevitable_owner hended rfl ?_
  refine inevitable_owner hended rfl ?_
  refine inevitable_owner hended rfl ?_
  refine inevitable_owner hended rfl ?_
  refine inevitable_owner hended rfl ?_
  cases async with
  | false =>
    refine inevitable_owner hended rfl ?_
    refine inevitable_owner hended rfl ?_
    refine inevitable_owner hended rfl ?_
    refine inevitable_owner hended rfl ?_
    refine inevitable_owner hended rfl ?_
    exact .now ⟨rfl, rfl⟩
  | true =>
    have hnew : Inevitable Step Goes (fun v => v.tasks = tasks + 1 ∧ v.answers = answers ++ [true])
        ⟨false, false, bLoop, 0, none, threads, .newThread, answers, tasks⟩ := by
      refine inevitable_owner hended rfl ?_
      refine inevitable_worker hended rfl rfl rfl ?_
      refine inevitable_worker hended rfl rfl rfl ?_
      refine inevitable_worker hended rfl rfl rfl ?_
      refine inevitable_worker hended rfl rfl rfl ?_
      exact .now ⟨rfl, rfl⟩
    cases thread with
    | none =>
      refine inevitable_owner hended rfl ?_
      exact hnew
    | some i =>
      refine inevitable_owner hended rfl ?_
      refine inevitable_owner hended ?_ hnew
      simp [CTimer.ownerStep, CTimer.thread, hthread i rfl]

theorem rests_of_not_alive (h : t.Inv) (howner : t.owner = .idle) (hdead : ¬ Alive t) : Rests t := by
  refine ⟨howner, fun w hw => ?_⟩
  by_contra hne
  obtain ⟨i, hi⟩ := List.getElem?_of_mem hw
  apply hdead
  exact ⟨w, by rw [CTimer.thread, h.own i w hi hne, Option.bind_some, hi], hne⟩

/-- When the worker has finished and no call is in progress, the flags are as they were at first,
and the next `Start` is accepted and its task is run. -/
def Restartable (t : CTimer) : Prop :=
  Rests t → t.m_bExpired = true ∧ t.m_bTryExpired = false ∧ Starts t

theorem restartable_of_cleared (h : t.Inv) (hcleared : Cleared t) : Restartable t := by
  intro hrests
  have hexpired : t.m_bExpired = true := by
    rw [h.expired, hrests.busy, hrests.1]
    rfl
  have htry := hcleared hrests.not_alive
  exact ⟨hexpired, htry, starts_of_rests h hrests hexpired htry⟩

/-- A `Cancel` that is too late leaves the timer at rest with `m_bTryExpired` set. -/
theorem not_restartable_of_late (h : t.Inv) (hstep : Step .owner t u) (hstore : t.owner = .cancelStore)
    (hdead : ¬ Alive t) : ¬ Restartable u := by
  have hinv := h.ownerStep hstep
  simp only [Step, CTimer.step, CTimer.ownerStep, hstore] at hstep
  cases hstep
  intro hrestartable
  obtain ⟨-, htry, -⟩ := hrestartable (rests_of_not_alive hinv rfl hdead)
  cases htry

/-- At most one worker runs at a time. A timer can always be started again, at every rest in the
course of a run, if and only if in this run every `Cancel` is in time. -/
theorem restartable_iff_inTime {actions : List Action} (h : Run Step .new actions t) :
    OneWorker t ∧
      ((∀ before after u, actions = before ++ after → Run Step .new before u → Restartable u) ↔
        Run InTime .new actions t) := by
  refine ⟨(inv_run h).oneWorker, fun hall => ?_, fun hin before after u hactions hbefore => ?_⟩
  · induction h with
    | nil => exact .nil
    | @snoc actions a v u hrun hlast ih =>
      refine .snoc (ih fun before after x hactions => hall before (after ++ [a]) x ?_) ⟨hlast, ?_⟩
      · rw [hactions, List.append_assoc]
      · rintro rfl hstore
        by_contra hdead
        refine not_restartable_of_late (inv_run hrun) hlast hstore hdead ?_
        exact hall _ [] u (List.append_nil _).symm (.snoc hrun hlast)
  · rw [hactions] at hin
    obtain ⟨v, hfirst, -⟩ := hin.split
    have hsame : u = v := hbefore.unique
      (fun i s t u ht hu => Option.some.inj (ht.symm.trans hu))
      (hfirst.mono fun i s t hstep => hstep.1)
    rw [hsame]
    obtain ⟨hinv, hcleared⟩ := cleared_run hfirst
    exact restartable_of_cleared hinv hcleared

end

/-- An asynchronous `Start` of a task that is run once, with nothing else in between. -/
def startOnce : List Action := .call (.start false true) :: List.replicate 7 .owner

/-- The thread runs the task and comes to its end, but for its two last stores. -/
def runsTask : List Action := List.replicate 6 (.worker 0)

/-- A `Cancel` that is complete before the thread has made its last stores. -/
def cancelled : List Action :=
  startOnce ++ .call .cancel :: List.replicate 4 .owner ++ List.replicate 3 (.worker 0)

theorem run_of_steps {actions : List Action} {t : CTimer}
    (h : actions.foldlM CTimer.step .new = some t) : Run Step .new actions t :=
  Run.of_foldlM (fun _ _ _ hstep => hstep) h

theorem restartable_iff_inTime_cancelled : ∃ t, Run Step .new cancelled t ∧ OneWorker t ∧
    ((∀ before after u, cancelled = before ++ after → Run Step .new before u → Restartable u) ↔
      Run InTime .new cancelled t) := by
  have hrun : Run Step .new cancelled _ := run_of_steps rfl
  exact ⟨_, hrun, restartable_iff_inTime hrun⟩

/-- The thread ends between the tests of `Cancel` and its store. -/
def cancelledLate : List Action :=
  startOnce ++ runsTask ++ .call .cancel :: List.replicate 3 .owner ++ List.replicate 2 (.worker 0) ++ [.owner]

/-- The timer that is left. -/
def refusing : CTimer := ⟨true, true, false, 1, some 0, [.ended], .idle, [true], 1⟩

/-- After such a `Cancel` the next `Start` is refused. -/
theorem not_restartable_cancelledLate : Run Step .new cancelledLate refusing ∧ Rests refusing ∧
    ¬ Restartable refusing ∧ ∃ u, Run Step refusing [.call (.start false true), .owner, .owner] u ∧
      u.answers = [true, false] := by
  have hrests : Rests refusing := ⟨rfl, by decide⟩
  refine ⟨run_of_steps rfl, hrests, fun h => ?_, _, Run.of_foldlM (fun _ _ _ hstep => hstep) rfl, rfl⟩
  obtain ⟨-, htry, -⟩ := h hrests
  cases htry

end timer

end opentelemetry
