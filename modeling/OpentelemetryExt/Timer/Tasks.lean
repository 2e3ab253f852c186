import OpentelemetryExt.Timer

open run

namespace opentelemetry

namespace timer

/-- The owner is in a call of `Cancel`. -/
@[simp]
def Owner.cancels : Owner → Bool
  | .cancelExpired | .cancelTryExpired | .cancelThread | .cancelStore => true
  | _ => false

/-- How many accesses the owner makes at most before its call returns. -/
@[simp]
def Owner.left : Owner → Nat
  | .idle => 0
  | .startExpired .. => 18
  | .startTryExpired .. => 17
  | .startClear .. => 16
  | .startLoop .. => 15
  | .startCount _ => 14
  | .deleteThread => 13
  | .join => 12
  | .newThread => 11
  | .sleepFor => 5
  | .syncTest | .cancelExpired => 4
  | .syncTask | .cancelTryExpired => 3
  | .syncExpired | .cancelThread => 2
  | .syncTryExpired | .cancelStore => 1

/-- The same of a thread that is not to run its task again. It tests `m_bTryExpired` again when it
finds it set after its sleep. -/
@[simp]
def Worker.left (tryExpired : Bool) : Worker → Nat
  | .whileTest => if tryExpired then 3 else 9
  | .waitFor => if tryExpired then 5 else 8
  | .ifTest => if tryExpired then 4 else 7
  | .task => 6
  | .count => 5
  | .loopTest => 4
  | .setExpired => 2
  | .clearTryExpired => 1
  | .ended => 0

/-- A task that the thread has decided to run. -/
@[simp]
def Worker.due : Worker → Nat
  | .task => 1
  | _ => 0

/-- A task that the thread has still to run, if it is not cancelled. -/
@[simp]
def Worker.owed : Worker → Nat
  | .whileTest | .waitFor | .ifTest | .task => 1
  | _ => 0

/-- The call of `Start` has been accepted and its task has neither been run nor given to a thread. -/
@[simp]
def Owner.owed : Owner → Nat
  | .startClear .. | .startLoop .. | .startCount _ | .deleteThread | .join | .newThread | .sleepFor
  | .syncTest | .syncTask => 1
  | _ => 0

/-- The call of `Start` has been accepted and has not returned. -/
@[simp]
def Owner.accepted : Owner → Nat
  | .startClear .. | .syncTryExpired => 1
  | owner => owner.loads.toNat

/-- The call of `Start` asks for a loop. -/
@[simp]
def Owner.loops : Owner → Bool
  | .startExpired bLoop _ | .startTryExpired bLoop _ | .startClear bLoop _ | .startLoop bLoop _ => bLoop
  | _ => false

namespace CTimer

variable (t : CTimer)

def due : Nat := t.thread.elim 0 Worker.due

/-- The tasks that have been run or are to be run yet. -/
def charged : Nat := t.tasks + t.owner.owed + t.thread.elim 0 Worker.owed

/-- The calls of `Start` that have been accepted. -/
def taken : Nat := t.owner.accepted + t.answers.count true

def left : Nat := t.owner.left + t.thread.elim 0 (Worker.left t.m_bTryExpired)

end CTimer

section

variable {t u v : CTimer} {w w' : Worker} {a : Action}

theorem CTimer.due_le : t.due ≤ 1 := by
  rw [CTimer.due]
  cases t.thread with
  | none => exact Nat.zero_le 1
  | some w => cases w <;> simp

/-- A thread that has ended, or was not made, counts for nothing. -/
theorem CTimer.not_busy_thread (h : t.busy = false) :
    t.thread.elim 0 Worker.due = 0 ∧ t.thread.elim 0 Worker.owed = 0 := by
  rw [CTimer.busy] at h
  cases hthread : t.thread with
  | none => exact ⟨rfl, rfl⟩
  | some w =>
    rw [hthread] at h
    cases w <;> first | exact ⟨rfl, rfl⟩ | cases h

/-- To be told to end, or to have done it, does not take a thread longer. -/
theorem Worker.left_le {before after : Bool} (h : (before = true → after = true) ∨ w.busy = false) :
    w.left after ≤ w.left before := by
  cases before with
  | false => cases w <;> cases after <;> simp
  | true =>
    obtain hset | hidle := h
    · rw [hset rfl]
    · cases w <;> first | exact Nat.le_refl _ | cases hidle

theorem CTimer.left_lt (hthread : u.thread = t.thread) (hleft : u.owner.left < t.owner.left)
    (htry : (t.m_bTryExpired = true → u.m_bTryExpired = true) ∨ t.busy = false) : u.left < t.left := by
  rw [CTimer.left, CTimer.left, hthread]
  rw [CTimer.busy] at htry
  cases hown : t.thread with
  | none => exact Nat.add_lt_add_right hleft _
  | some w =>
    rw [hown] at htry
    exact Nat.add_lt_add_of_lt_of_le hleft (Worker.left_le htry)

/-- A thread that is told to end does not decide to run a task any more. -/
theorem workerStep_due (hwork : t.workerStep w = some (v, w'))
    (htry : w.busy = true → t.m_bTryExpired = true) :
    v.tasks + w'.due = t.tasks + w.due ∧ (w'.busy = true → v.m_bTryExpired = true) := by
  cases w with
  | ended => cases hwork
  | clearTryExpired =>
    cases hwork
    simp
  | setExpired =>
    cases hwork
    simp
  | loopTest =>
    have hset := htry rfl
    cases hwork
    cases t.m_bLoop <;> simpa using hset
  | whileTest =>
    have hset := htry rfl
    cases hwork
    simp [hset]
  | ifTest =>
    have hset := htry rfl
    cases hwork
    simp [hset]
  | _ =>
    have hset := htry rfl
    cases hwork
    simpa using hset

/-- A thread that is told to end, or has no loop, comes to its end. -/
theorem workerStep_left (hwork : t.workerStep w = some (v, w'))
    (hend : t.m_bLoop = false ∨ (w.busy = true → t.m_bTryExpired = true)) :
    w'.left v.m_bTryExpired < w.left t.m_bTryExpired := by
  cases w with
  | ended => cases hwork
  | whileTest =>
    cases hwork
    cases t.m_bTryExpired <;> simp
  | ifTest =>
    cases hwork
    cases t.m_bTryExpired <;> simp
  | waitFor =>
    cases hwork
    cases t.m_bTryExpired <;> simp
  | loopTest =>
    cases hwork
    cases hloop : t.m_bLoop with
    | false => simp
    | true =>
      rw [hloop] at hend
      obtain hend | hend := hend
      · cases hend
      · simp [hend rfl]
  | _ =>
    cases hwork
    simp

/-- A thread without a loop runs its task once, unless it is told to end. -/
theorem workerStep_owed (hwork : t.workerStep w = some (v, w')) (hloop : t.m_bLoop = false) :
    v.tasks + w'.owed ≤ t.tasks + w.owed ∧
      (t.m_bTryExpired = false → v.tasks + w'.owed = t.tasks + w.owed ∧ v.m_bTryExpired = false) ∧
      v.m_bLoop = false ∧ v.answers = t.answers := by
  cases w with
  | ended => cases hwork
  | whileTest =>
    cases hwork
    cases t.m_bTryExpired <;> simp [hloop]
  | ifTest =>
    cases hwork
    cases t.m_bTryExpired <;> simp [hloop]
  | loopTest =>
    cases hwork
    simp [hloop]
  | _ =>
    cases hwork
    simp [hloop]

/-- What one access of `Cancel` does: it stores at most `m_bTryExpired`, and returns when the timer
needs no store any more. -/
theorem ownerStep_cancels (h : t.owner.cancels = true) (hstep : t.ownerStep = some u) :
    ∃ owner tryExpired, u = { t with owner := owner, m_bTryExpired := tryExpired } ∧
      owner.left < t.owner.left ∧ (t.m_bTryExpired = true → tryExpired = true) ∧
      (owner.cancels = true ∨ owner = .idle ∧
        (t.m_bExpired = true ∨ tryExpired = true ∨ t.m_Thread = none)) := by
  unfold CTimer.ownerStep at hstep
  cases howner : t.owner with
  | cancelExpired =>
    simp only [howner] at hstep
    cases hstep
    refine ⟨_, _, rfl, ?_, id, ?_⟩
    · cases t.m_bExpired <;> simp
    · cases t.m_bExpired <;> simp
  | cancelTryExpired =>
    simp only [howner] at hstep
    cases hstep
    refine ⟨_, _, rfl, ?_, id, ?_⟩
    · cases t.m_bTryExpired <;> simp
    · cases t.m_bTryExpired <;> simp
  | cancelThread =>
    simp only [howner] at hstep
    cases hstep
    refine ⟨_, _, rfl, ?_, id, ?_⟩
    · cases t.m_Thread <;> simp
    · cases t.m_Thread <;> simp
  | cancelStore =>
    simp only [howner] at hstep
    cases hstep
    exact ⟨_, _, rfl, by simp, fun _ => rfl, .inr ⟨rfl, .inr (.inl rfl)⟩⟩
  | _ =>
    rw [howner] at h
    cases h

/-- No call of `Start` is in progress, and the thread has been told to end if it has to be. -/
structure Quiet (t : CTimer) : Prop where
  owner : t.owner = .idle ∨ t.owner.cancels = true
  tried : t.busy = true → t.m_bTryExpired = true

/-- A call of `Cancel` that returns leaves nothing to be told. -/
theorem quiet_of_returns (hinv : t.Inv) (h : t.owner.cancels = true) (hstep : t.ownerStep = some u)
    (hidle : u.owner = .idle) : Quiet u := by
  obtain ⟨owner, tryExpired, rfl, -, -, hcancels | ⟨-, hdone⟩⟩ := ownerStep_cancels h hstep
  · rw [show owner = .idle from hidle] at hcancels
    cases hcancels
  · refine ⟨.inl hidle, fun hbusy => ?_⟩
    have hbusy' : t.busy = true := hbusy
    obtain hexpired | htry | hthread := hdone
    · rw [hinv.expired, hbusy'] at hexpired
      cases hexpired
    · exact htry
    · rw [CTimer.busy, CTimer.thread, hthread] at hbusy'
      cases hbusy'

theorem Quiet.worker {i : Nat} (h : Quiet t) (hinv : t.Inv) (hstep : t.step (.worker i) = some u) :
    Quiet u ∧ u.tasks + u.due = t.tasks + t.due ∧ u.left < t.left := by
  obtain ⟨v, w, w', hw, hwork, hown, rfl, ht, hu⟩ := hinv.worker hstep
  obtain ⟨-, howner, -⟩ := workerStep_spec hwork
  have htry : w.busy = true → t.m_bTryExpired = true := by
    intro hbusy
    apply h.tried
    rw [CTimer.busy, ht]
    exact hbusy
  obtain ⟨htasks, htold⟩ := workerStep_due hwork htry
  have hleft := workerStep_left hwork (.inr htry)
  refine ⟨⟨?_, fun hbusy => ?_⟩, ?_, ?_⟩
  · rw [howner]
    exact h.owner
  · apply htold
    rwa [CTimer.busy, hu] at hbusy
  · rw [CTimer.due, CTimer.due, ht, hu]
    exact htasks
  · rw [CTimer.left, CTimer.left, ht, hu]
    dsimp only [Option.elim_some]
    rw [howner]
    omega

theorem Quiet.ownerStep (h : Quiet t) (hstep : t.ownerStep = some u) :
    Quiet u ∧ u.tasks + u.due = t.tasks + t.due ∧ u.left < t.left := by
  obtain hidle | hcancels := h.owner
  · simp only [CTimer.ownerStep, hidle] at hstep
    cases hstep
  · obtain ⟨owner, tryExpired, rfl, hleft, hkept, hreturns⟩ := ownerStep_cancels hcancels hstep
    refine ⟨⟨?_, fun hbusy => hkept (h.tried hbusy)⟩, rfl, ?_⟩
    · obtain hcancels' | ⟨hidle, -⟩ := hreturns
      · exact .inr hcancels'
      · exact .inl hidle
    · exact CTimer.left_lt rfl hleft (.inl hkept)

/-- The owner asks for no loop. -/
structure OneShot (t : CTimer) : Prop where
  loop : t.m_bLoop = false
  owner : t.owner.loops = false
  joins : t.owner = .join → t.m_Thread.isSome = true

/-- What a step does to the calls in a timer without a loop: none of them runs more than its one
task, and each runs it where nothing is cancelled. -/
structure Repays (t u : CTimer) : Prop where
  shot : OneShot u
  charged : u.charged + t.taken ≤ t.charged + u.taken
  left : u.left < t.left
  uncancelled : t.m_bTryExpired = false → t.owner.cancels = false →
    u.charged + t.taken = t.charged + u.taken ∧ u.m_bTryExpired = false ∧ u.owner.cancels = false

theorem OneShot.worker {i : Nat} (h : OneShot t) (hinv : t.Inv) (hstep : t.step (.worker i) = some u) :
    Repays t u := by
  obtain ⟨v, w, w', hw, hwork, hown, rfl, ht, hu⟩ := hinv.worker hstep
  obtain ⟨-, howner, hthread, -⟩ := workerStep_spec hwork
  obtain ⟨hcharged, hexact, hloop, hanswers⟩ := workerStep_owed hwork h.loop
  have hleft := workerStep_left hwork (.inl h.loop)
  have htaken : CTimer.taken { v with threads := t.threads.set i w' } = t.taken := by
    simp only [CTimer.taken]
    rw [howner, hanswers]
  refine ⟨⟨hloop, ?_, ?_⟩, ?_, ?_, fun htry hcancels => ⟨?_, (hexact htry).2, ?_⟩⟩
  · rw [howner]
    exact h.owner
  · rw [howner, hthread]
    exact h.joins
  · rw [htaken, CTimer.charged, CTimer.charged, ht, hu]
    dsimp only [Option.elim_some]
    rw [howner]
    omega
  · rw [CTimer.left, CTimer.left, ht, hu]
    dsimp only [Option.elim_some]
    rw [howner]
    omega
  · have hsame := (hexact htry).1
    rw [htaken, CTimer.charged, CTimer.charged, ht, hu]
    dsimp only [Option.elim_some]
    rw [howner]
    omega
  · rw [howner]
    exact hcancels

/-- An access of the owner that leaves the thread alone. -/
theorem Repays.of_same (hthread : u.thread = t.thread) (hshot : OneShot u)
    (hleft : u.owner.left < t.owner.left)
    (htry : (t.m_bTryExpired = true → u.m_bTryExpired = true) ∨ t.busy = false)
    (hcharged : u.tasks + u.owner.owed + t.taken ≤ t.tasks + t.owner.owed + u.taken ∧
      (t.m_bTryExpired = false → t.owner.cancels = false →
        t.tasks + t.owner.owed + u.taken ≤ u.tasks + u.owner.owed + t.taken ∧
          u.m_bTryExpired = false ∧ u.owner.cancels = false)) : Repays t u := by
  obtain ⟨hle, hexact⟩ := hcharged
  refine ⟨hshot, ?_, CTimer.left_lt hthread hleft htry, fun hclear hcancels => ?_⟩
  · rw [CTimer.charged, CTimer.charged, hthread]
    omega
  · obtain ⟨hge, hrest⟩ := hexact hclear hcancels
    refine ⟨?_, hrest⟩
    rw [CTimer.charged, CTimer.charged, hthread]
    omega

theorem OneShot.cancel (h : OneShot t) (hcancels : t.owner.cancels = true)
    (hstep : t.ownerStep = some u) : Repays t u := by
  obtain ⟨owner, tryExpired, rfl, hleft, hkept, hreturns⟩ := ownerStep_cancels hcancels hstep
  have howed : t.owner.owed = 0 ∧ t.owner.accepted = 0 := by
    cases howner : t.owner <;> rw [howner] at hcancels <;> first | exact ⟨rfl, rfl⟩ | cases hcancels
  have howed' : owner.owed = 0 ∧ owner.accepted = 0 ∧ owner.loops = false ∧ owner ≠ .join := by
    obtain hcancels' | ⟨rfl, -⟩ := hreturns
    · cases owner <;> first | exact ⟨rfl, rfl, rfl, by simp⟩ | cases hcancels'
    · exact ⟨rfl, rfl, rfl, by simp⟩
  obtain ⟨howed', haccepted', hloops', hjoin'⟩ := howed'
  refine .of_same rfl ⟨h.loop, hloops', fun hjoin => absurd hjoin hjoin'⟩ hleft (.inl hkept)
    ⟨?_, fun _ hout => ?_⟩
  · rw [CTimer.taken, CTimer.taken]
    dsimp only
    omega
  · rw [hcancels] at hout
    cases hout

theorem OneShot.ownerStep (h : OneShot t) (hinv : t.Inv) (hstep : t.ownerStep = some u) :
    Repays t u := by
  obtain ⟨hloop, hloops, hjoins⟩ := h
  by_cases hcancels : t.owner.cancels = true
  · exact OneShot.cancel ⟨hloop, hloops, hjoins⟩ hcancels hstep
  · unfold CTimer.ownerStep at hstep
    cases howner : t.owner with
    | idle =>
      rw [howner] at hstep
      cases hstep
    | startExpired bLoop async =>
      simp only [howner] at hstep
      rw [howner] at hloops
      split at hstep
      · cases hstep
        exact .of_same rfl ⟨hloop, hloops, by simp⟩ (by simp [howner]) (.inl id) (by simp [CTimer.taken, howner])
      · cases hstep
        exact .of_same rfl ⟨hloop, rfl, by simp⟩ (by simp [howner]) (.inl id) (by simp [CTimer.taken, howner])
    | startTryExpired bLoop async =>
      simp only [howner] at hstep
      rw [howner] at hloops
      split at hstep
      · cases hstep
        exact .of_same rfl ⟨hloop, rfl, by simp⟩ (by simp [howner]) (.inl id) (by simp [CTimer.taken, howner])
      · cases hstep
        exact .of_same rfl ⟨hloop, hloops, by simp⟩ (by simp [howner]) (.inl id)
          (by simp [CTimer.taken, howner, Nat.add_assoc])
    | startClear bLoop async =>
      simp only [howner] at hstep
      rw [howner] at hloops
      cases hstep
      exact .of_same rfl ⟨hloop, hloops, by simp⟩ (by simp [howner]) (.inl id) (by simp [CTimer.taken, howner])
    | startLoop bLoop async =>
      simp only [howner] at hstep
      rw [howner] at hloops
      cases hstep
      exact .of_same rfl ⟨hloops, rfl, by simp⟩ (by simp [howner]) (.inl id) (by simp [CTimer.taken, howner])
    | startCount async =>
      simp only [howner] at hstep
      cases hstep
      cases async with
      | true => exact .of_same rfl ⟨hloop, rfl, by simp⟩ (by simp [howner]) (.inl id) (by simp [CTimer.taken, howner])
      | false => exact .of_same rfl ⟨hloop, rfl, by simp⟩ (by simp [howner]) (.inl id) (by simp [CTimer.taken, howner])
    | deleteThread =>
      simp only [howner] at hstep
      cases hstep
      cases hthread : t.m_Thread with
      | some i =>
        exact .of_same (by simp [CTimer.thread, hthread]) ⟨hloop, rfl, by simp⟩ (by simp [howner]) (.inl id)
          (by simp [CTimer.taken, howner])
      | none =>
        exact .of_same (by simp [CTimer.thread, hthread]) ⟨hloop, rfl, by simp⟩ (by simp [howner]) (.inl id)
          (by simp [CTimer.taken, howner])
    | join =>
      simp only [howner] at hstep
      split at hstep
      · rename_i hended
        cases hstep
        -- The thread that is deleted owes nothing any more.
        refine ⟨⟨hloop, rfl, by simp⟩, ?_, ?_, fun htry hout => ⟨?_, htry, rfl⟩⟩
        · simp [CTimer.charged, CTimer.taken, howner, hended]
          simp [CTimer.thread]
        · simp [CTimer.left, howner, hended]
          simp [CTimer.thread]
        · simp [CTimer.charged, CTimer.taken, howner, hended]
          simp [CTimer.thread]
      · cases hstep
    | newThread =>
      simp only [howner] at hstep
      have hnone := hinv.free howner
      cases hstep
      have hthread : t.thread = none := by rw [CTimer.thread, hnone, Option.bind_none]
      have hnew : CTimer.thread { t with
          m_Thread := some t.threads.length, threads := t.threads ++ [.whileTest], owner := .idle,
          answers := t.answers ++ [true] } = some .whileTest := by simp [CTimer.thread]
      refine ⟨⟨hloop, rfl, by simp⟩, ?_, ?_, fun htry hout => ⟨?_, htry, rfl⟩⟩
      · simp [CTimer.charged, CTimer.taken, howner, hthread, hnew]
        omega
      · simp [CTimer.left, howner, hthread, hnew]
        cases t.m_bTryExpired <;> simp
      · simp [CTimer.charged, CTimer.taken, howner, hthread, hnew]
        omega
    | syncTest =>
      simp only [howner] at hstep
      cases hstep
      cases htry : t.m_bTryExpired with
      | true =>
        exact .of_same rfl ⟨hloop, rfl, by simp⟩ (by simp [howner]) (.inl fun _ => rfl)
          (by simp [CTimer.taken, howner, htry])
      | false =>
        exact .of_same rfl ⟨hloop, rfl, by simp⟩ (by simp [howner]) (.inl (by simp [htry]))
          (by simp [CTimer.taken, howner, htry])
    | syncTryExpired =>
      simp only [howner] at hstep
      cases hstep
      have hidle : t.busy = false := hinv.apart (by rw [howner]; rfl)
      exact .of_same rfl ⟨hloop, rfl, by simp⟩ (by simp [howner]) (.inr hidle)
        (by simp [CTimer.taken, howner, Nat.add_comm])
    | sleepFor | syncTask | syncExpired =>
      simp only [howner] at hstep
      cases hstep
      exact .of_same rfl ⟨hloop, rfl, by simp⟩ (by simp [howner]) (.inl id)
        (by simp [CTimer.taken, howner])
    | cancelExpired | cancelTryExpired | cancelThread | cancelStore =>
      rw [howner] at hcancels
      exact absurd rfl hcancels

/-- What the owner owes stays the same when it begins a call. -/
theorem OneShot.call {c : Call} (h : OneShot t) (honce : ∀ async, c ≠ .start true async)
    (hstep : t.step (.call c) = some u) : OneShot u ∧ u.charged = t.charged ∧ u.taken = t.taken ∧
      u.m_bTryExpired = t.m_bTryExpired ∧ (c ≠ .cancel → u.owner.cancels = false) := by
  have hidle := (CTimer.step_call hstep).1
  cases c with
  | start bLoop async =>
    have hloops : bLoop = false := by
      cases bLoop with
      | false => rfl
      | true => exact absurd rfl (honce async)
    simp only [CTimer.step, hidle] at hstep
    cases hstep
    exact ⟨⟨h.loop, hloops, by simp⟩, by simp [CTimer.charged, CTimer.thread, hidle],
      by simp [CTimer.taken, hidle], rfl, fun _ => rfl⟩
  | cancel =>
    simp only [CTimer.step, hidle] at hstep
    cases hstep
    exact ⟨⟨h.loop, rfl, by simp⟩, by simp [CTimer.charged, CTimer.thread, hidle],
      by simp [CTimer.taken, hidle], rfl, fun hne => absurd rfl hne⟩

/-- While something is in progress, the owner or the thread can go on. -/
theorem exists_goes (hinv : t.Inv) (hjoins : t.owner = .join → t.m_Thread.isSome = true)
    (h : ¬ Rests t) : ∃ a u, Goes a ∧ Step a t u := by
  by_cases hended : ∀ w ∈ t.threads, w = .ended
  · have hidle : t.owner ≠ .idle := fun hidle => h ⟨hidle, hended⟩
    have howner : ∃ u, t.ownerStep = some u := by
      unfold CTimer.ownerStep
      cases howner : t.owner with
      | idle => exact absurd howner hidle
      | join =>
        -- The thread that is joined is one of those that have ended.
        obtain ⟨i, hi⟩ := Option.isSome_iff_exists.mp (hjoins howner)
        have hlt := hinv.bound i hi
        have hthread : t.thread = some .ended := by
          rw [CTimer.thread, hi, Option.bind_some, List.getElem?_eq_getElem hlt,
            hended _ (List.getElem_mem hlt)]
        simp only
        rw [if_pos hthread]
        exact ⟨_, rfl⟩
      | startExpired bLoop async =>
        simp only
        split <;> exact ⟨_, rfl⟩
      | startTryExpired bLoop async =>
        simp only
        split <;> exact ⟨_, rfl⟩
      | _ => exact ⟨_, rfl⟩
    obtain ⟨u, hu⟩ := howner
    exact ⟨.owner, u, (fun c hc => by cases hc), hu⟩
  · obtain ⟨w, hw, hne⟩ := by simpa using hended
    obtain ⟨i, hi⟩ := List.getElem?_of_mem hw
    have hwork : ∃ r, t.workerStep w = some r := by
      cases w with
      | ended => exact absurd rfl hne
      | _ => exact ⟨_, rfl⟩
    obtain ⟨r, hr⟩ := hwork
    exact ⟨.worker i, _, (fun c hc => by cases hc),
      Option.bind_eq_some_iff.mpr ⟨w, hi, Option.bind_eq_some_iff.mpr ⟨r, hr, rfl⟩⟩⟩

theorem Quiet.goes (h : Quiet t) (hinv : t.Inv) (ha : Goes a) (hstep : Step a t u) :
    Quiet u ∧ u.tasks + u.due = t.tasks + t.due ∧ u.left < t.left := by
  cases a with
  | call c => exact absurd rfl (ha c)
  | owner => exact h.ownerStep hstep
  | worker i => exact h.worker hinv hstep

/-- The step begins no call of `Start`. -/
def Unstarted (a : Action) : Prop := ∀ bLoop async, a ≠ .call (.start bLoop async)

theorem Quiet.step (h : Quiet t) (hinv : t.Inv) (ha : Unstarted a) (hstep : Step a t u) :
    Quiet u ∧ u.tasks + u.due = t.tasks + t.due := by
  cases a with
  | owner =>
    obtain ⟨hquiet, hdue, -⟩ := h.ownerStep hstep
    exact ⟨hquiet, hdue⟩
  | worker i =>
    obtain ⟨hquiet, hdue, -⟩ := h.worker hinv hstep
    exact ⟨hquiet, hdue⟩
  | call c =>
    cases c with
    | start bLoop async => exact absurd rfl (ha bLoop async)
    | cancel =>
      have hidle := (CTimer.step_call hstep).1
      simp only [Step, CTimer.step, hidle] at hstep
      cases hstep
      exact ⟨⟨.inr rfl, h.tried⟩, rfl⟩

theorem Quiet.rests (h : Quiet t) (hinv : t.Inv) : Inevitable Step Goes Rests t := by
  refine Inevitable.of_measure (I := fun t => t.Inv ∧ Quiet t) CTimer.left (fun t ht => ?_)
    (fun a t u ht ha hstep => ?_) ⟨hinv, h⟩
  · apply exists_goes ht.1
    intro hjoin
    obtain hidle | hcancels := ht.2.owner
    · rw [hjoin] at hidle
      cases hidle
    · rw [hjoin] at hcancels
      cases hcancels
  · obtain ⟨hquiet, -, hleft⟩ := ht.2.goes ht.1 ha hstep
    exact ⟨⟨inv_step hstep ht.1, hquiet⟩, hleft⟩

/-- However the thread and the rest of the call of `Cancel` are interleaved, the thread has been
told when the call returns. -/
theorem quiet_of_cancel {call : List Action} (hinv : t.Inv)
    (h : Run Step t (.call .cancel :: call) u) (hgoes : ∀ a ∈ call, Goes a) (hidle : u.owner = .idle) :
    Quiet u := by
  obtain ⟨v, hfirst, hrest⟩ := run_cons_iff.mp h
  have hcalled : v.owner.cancels = true := by
    have hbefore := (CTimer.step_call hfirst).1
    simp only [Step, CTimer.step, hbefore] at hfirst
    cases hfirst
    rfl
  have hend := (hrest.guarded hgoes).invariant (I := fun t => t.Inv ∧ (t.owner.cancels = true ∨ Quiet t))
    ⟨inv_step hfirst hinv, .inl hcalled⟩ fun a t u hstep ht => ?_
  · obtain ⟨-, hcancels | hquiet⟩ := hend
    · rw [hidle] at hcancels
      cases hcancels
    · exact hquiet
  · obtain ⟨hgo, hstep⟩ := hstep
    refine ⟨inv_step hstep ht.1, ?_⟩
    obtain hcancels | hquiet := ht.2
    · cases a with
      | call c => exact absurd rfl (hgo c)
      | worker i =>
        obtain ⟨x, w, w', -, hwork, -, rfl, -⟩ := ht.1.worker hstep
        left
        rw [← hcancels]
        exact congrArg _ (workerStep_spec hwork).2.1
      | owner =>
        by_cases hreturn : u.owner = .idle
        · exact .inr (quiet_of_returns ht.1 hcancels hstep hreturn)
        · obtain ⟨owner, tryExpired, rfl, -, -, hin | ⟨hout, -⟩⟩ := ownerStep_cancels hcancels hstep
          · exact .inl hin
          · exact absurd hout hreturn
    · exact .inr (hquiet.goes ht.1 hgo hstep).1

/-- When a call of `Cancel` has returned, and `Start` is not called again, then in every
interleaving the task is run once more at most, where the thread had already decided on it, and the
thread comes to its end, also where it loops. -/
theorem cancel_stops {before call after : List Action} {s : CTimer} (hs : Run Step .new before s)
    (hcall : Run Step s (.call .cancel :: call) t) (hgoes : ∀ a ∈ call, Goes a)
    (hreturned : t.owner = .idle) (hafter : Run Step t after u) (hstart : ∀ a ∈ after, Unstarted a) :
    (u.tasks + u.due = t.tasks + t.due ∧ t.due ≤ 1) ∧ Inevitable Step Goes Rests u := by
  have hinv : t.Inv := inv_run (hs.append hcall)
  have hquiet : Quiet t := quiet_of_cancel (inv_run hs) hcall hgoes hreturned
  have hend := (hafter.guarded hstart).invariant
    (I := fun u => u.Inv ∧ Quiet u ∧ u.tasks + u.due = t.tasks + t.due) ⟨hinv, hquiet, rfl⟩
    fun a u v hstep hu => ?_
  · exact ⟨⟨hend.2.2, CTimer.due_le⟩, hend.2.1.rests hend.1⟩
  · obtain ⟨hquiet', hdue⟩ := hu.2.1.step hu.1 hstep.1 hstep.2
    exact ⟨inv_step hstep.2 hu.1, hquiet', hdue.trans hu.2.2⟩

/-- A call of `Start` that asks for a loop. -/
def Looping (a : Action) : Prop := ∃ async, a = .call (.start true async)

theorem OneShot.goes (h : OneShot t) (hinv : t.Inv) (ha : Goes a) (hstep : Step a t u) : Repays t u := by
  cases a with
  | call c => exact absurd rfl (ha c)
  | owner => exact h.ownerStep hinv hstep
  | worker i => exact h.worker hinv hstep

theorem OneShot.rests (h : OneShot t) (hinv : t.Inv) : Inevitable Step Goes Rests t := by
  refine Inevitable.of_measure (I := fun t => t.Inv ∧ OneShot t) CTimer.left
    (fun t ht => exists_goes ht.1 ht.2.joins) (fun a t u ht ha hstep => ?_) ⟨hinv, h⟩
  have hrepays := ht.2.goes ht.1 ha hstep
  exact ⟨⟨inv_step hstep ht.1, hrepays.shot⟩, hrepays.left⟩

/-- What holds of a timer whose tasks have no loop, with every task either run, cancelled or yet to
be run. -/
structure Balanced (t : CTimer) : Prop where
  inv : t.Inv
  shot : OneShot t
  charged : t.charged ≤ t.taken

/-- The same where nothing has been cancelled. -/
structure Uncancelled (t : CTimer) : Prop where
  owner : t.owner.cancels = false
  tried : t.m_bTryExpired = false
  charged : t.charged = t.taken

theorem Balanced.step (h : Balanced t) (ha : ¬ Looping a) (hstep : Step a t u) : Balanced u := by
  have hinv := inv_step hstep h.inv
  have hcharged := h.charged
  by_cases hgo : Goes a
  · obtain ⟨hshot, hstill, -⟩ := h.shot.goes h.inv hgo hstep
    exact ⟨hinv, hshot, by omega⟩
  · cases a with
    | call c =>
      obtain ⟨hshot, hsame, hsame', -⟩ := h.shot.call (fun async hc => ha ⟨async, hc ▸ rfl⟩) hstep
      exact ⟨hinv, hshot, by omega⟩
    | owner => exact absurd (fun c hc => by cases hc) hgo
    | worker i => exact absurd (fun c hc => by cases hc) hgo

theorem Uncancelled.step (h : Uncancelled t) (hbalanced : Balanced t) (ha : ¬ Looping a)
    (hcancel : a ≠ .call .cancel) (hstep : Step a t u) : Uncancelled u := by
  have hcharged := h.charged
  by_cases hgo : Goes a
  · have hrepays := hbalanced.shot.goes hbalanced.inv hgo hstep
    obtain ⟨hexact, htry, howner⟩ := hrepays.uncancelled h.tried h.owner
    exact ⟨howner, htry, by omega⟩
  · cases a with
    | call c =>
      obtain ⟨-, hsame, hsame', htry, howner⟩ :=
        hbalanced.shot.call (fun async hc => ha ⟨async, hc ▸ rfl⟩) hstep
      refine ⟨howner fun hc => hcancel (hc ▸ rfl), ?_, by omega⟩
      rw [htry]
      exact h.tried
    | owner => exact absurd (fun c hc => by cases hc) hgo
    | worker i => exact absurd (fun c hc => by cases hc) hgo

/-- At rest every task that was taken has been run or cancelled. -/
theorem Rests.charged (h : Rests t) : t.charged = t.tasks ∧ t.taken = t.answers.count true := by
  have howed := (CTimer.not_busy_thread h.busy).2
  rw [CTimer.charged, CTimer.taken, h.1, howed]
  exact ⟨rfl, Nat.zero_add _⟩

/-- A timer that is asked for no loop comes to rest in every interleaving. Then no more tasks have
been run than calls of `Start` were accepted, and without a `Cancel` just as many. -/
theorem tasks_once {actions : List Action} (h : Run Step .new actions t)
    (honce : ∀ a ∈ actions, ¬ Looping a) : Inevitable Step Goes Rests t ∧
      (Rests t → t.tasks ≤ t.answers.count true ∧
        ((∀ a ∈ actions, a ≠ .call .cancel) → t.tasks = t.answers.count true)) := by
  have hshot : OneShot CTimer.new := ⟨rfl, rfl, by simp [CTimer.new]⟩
  have hnew : Balanced CTimer.new := ⟨inv_new, hshot, Nat.le_refl _⟩
  have hend : Balanced t := (h.guarded honce).invariant hnew fun a t u hstep ht => ht.step hstep.1 hstep.2
  refine ⟨hend.shot.rests hend.inv, fun hrests => ?_⟩
  obtain ⟨hcharged, htaken⟩ := hrests.charged
  rw [← hcharged, ← htaken]
  refine ⟨hend.charged, fun hcancel => ?_⟩
  have hboth := ((h.guarded honce).guarded hcancel).invariant
    (I := fun t => Balanced t ∧ Uncancelled t) ⟨hnew, rfl, rfl, rfl⟩ fun a t u hstep ht =>
      ⟨ht.1.step hstep.2.1 hstep.2.2, ht.2.step ht.1 hstep.2.1 hstep.1 hstep.2.2⟩
  exact hboth.2.charged

end

/-- A loop that is cancelled when its thread has already decided to run the task. -/
def loopStart : List Action :=
  .call (.start true true) :: List.replicate 7 .owner ++ List.replicate 3 (.worker 0)

/-- The timer then, with its thread before the task, and when it has ended. -/
def looping (tryExpired : Bool) : CTimer :=
  ⟨false, tryExpired, true, 0, some 0, [.task], .idle, [true], 0⟩

def stopped : CTimer := ⟨true, false, true, 1, some 0, [.ended], .idle, [true], 1⟩

theorem cancel_stops_looping : (stopped.tasks + stopped.due = (looping true).tasks + (looping true).due ∧
    (looping true).due ≤ 1) ∧ Inevitable Step Goes Rests stopped := by
  have hs : Run Step .new loopStart (looping false) := run_of_steps rfl
  have ht : Run Step (looping false) (.call .cancel :: List.replicate 4 .owner) (looping true) :=
    Run.of_foldlM (fun _ _ _ h => h) rfl
  have hu : Run Step (looping true) (List.replicate 6 (.worker 0)) stopped :=
    Run.of_foldlM (fun _ _ _ h => h) rfl
  refine cancel_stops hs ht (fun a ha => ?_) rfl hu fun a ha => ?_
  · rw [List.eq_of_mem_replicate ha]
    intro c hc
    cases hc
  · rw [List.eq_of_mem_replicate ha]
    intro bLoop async hc
    cases hc

theorem tasks_once_startOnce : ∃ t, Run Step .new (startOnce ++ List.replicate 8 (.worker 0)) t ∧
    Rests t ∧ t.tasks = 1 ∧ Inevitable Step Goes Rests t ∧
      (Rests t → t.tasks ≤ t.answers.count true ∧
        ((∀ a ∈ startOnce ++ List.replicate 8 (.worker 0), a ≠ .call .cancel) →
          t.tasks = t.answers.count true)) := by
  have h : Run Step .new (startOnce ++ List.replicate 8 (.worker 0)) _ := run_of_steps rfl
  refine ⟨_, h, ⟨rfl, by decide⟩, rfl, tasks_once h fun a ha => ?_⟩
  rintro ⟨async, rfl⟩
  revert ha
  cases async <;> decide

end timer

end opentelemetry
