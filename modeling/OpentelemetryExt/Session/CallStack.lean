import OpentelemetryExt.Session.Outcomes

open heap stateful run

namespace opentelemetry

variable {φ : Type} {eng : Engine φ} {natives : CurlNatives φ} {w w' : World φ}

/-- Only a call of `curl_exec` on a handle is recorded. -/
theorem enter_traced {hook : Hook} {execute_data : ExecuteData} {span : Option Nat}
    (h : hook.enter eng natives execute_data w = .ok (span, w')) (hhook : hook = .curl_exec)
    (hspan : span.isSome) : ∃ zid, execute_data.args = [zid] := by
  subst hhook
  obtain ⟨b, u, -, hguarded⟩ := bind_ok_iff.mp h
  rw [stateful.ite_apply] at hguarded
  split at hguarded
  · obtain ⟨func, args, This, callers⟩ := execute_data
    rcases args with _ | ⟨zid, _ | ⟨_, _⟩⟩
    · cases hguarded
      cases hspan
    · exact ⟨zid, rfl⟩
    · cases hguarded
      cases hspan
  · cases hguarded
    cases hspan

/-- A hooked call between its two halves. -/
structure Frame where
  hook : Hook
  execute_data : ExecuteData
  /-- The local variable of the handler. -/
  span : Option Nat
  /-- How many exceptions of Redis had been thrown when it was entered. -/
  since : Nat
  traced : hook = .curl_exec → span.isSome → ∃ zid, execute_data.args = [zid]

/-- A process with the hooked calls it is in, innermost first. The rest is a record of what has
happened: the spans of the calls that PHP has unwound past, the messages of the exceptions of
Redis that have been thrown, and how many those were when a command of Redis last ended. -/
structure Execution (φ : Type) where
  world : World φ
  stack : List Frame := []
  lost : List Nat := []
  thrown : List Bytes := []
  charged : Nat := 0

/-- The spans whose hooked calls have not got to their second half. -/
def Execution.pending (p : Execution φ) : List Nat := p.stack.filterMap Frame.span ++ p.lost

/-- The exception of Redis that an event is about. -/
def raised (eng : Engine φ) (w : World φ) : Event φ → List Bytes
  | .call (.exception (some args)) =>
    if c_str args.class_name = lit "RedisException" then
      match eng.read_property w.php args.exception (lit "message") with
      | some (.string message) => [message]
      | _ => []
    else []
  | _ => []

/-- What may happen next. Any number of calls that are under way may be unwound past, one after
the other. -/
inductive Happening (φ : Type) where
  | enter (hook : Hook) (execute_data : ExecuteData)
  | leave (return_value : Zval)
  | unwind
  | event (e : Event φ)

def Event.Plain : Event φ → Prop
  | .call c => c.Plain
  | _ => True

/-- How it happens: hooked calls are left in the order in which they nest, and each with the span
that it was entered with. -/
inductive Happens (eng : Engine φ) (natives : CurlNatives φ) :
    Happening φ → Execution φ → Execution φ → Prop
  | enter {p : Execution φ} {hook : Hook} {execute_data : ExecuteData} {span : Option Nat}
      {w : World φ} (h : hook.enter eng natives execute_data p.world = .ok (span, w)) :
      Happens eng natives (.enter hook execute_data) p { p with
        world := w
        stack := ⟨hook, execute_data, span, p.thrown.length, enter_traced h⟩ :: p.stack }
  | enter_unwinds {p : Execution φ} {hook : Hook} {execute_data : ExecuteData} {w : World φ}
      (h : hook.enter eng natives execute_data p.world = .error (.unwind w)) :
      Happens eng natives (.enter hook execute_data) p { p with
        world := w, lost := p.world.memory.spans.next :: p.lost }
  | leave {p : Execution φ} {f : Frame} {rest : List Frame} {return_value : Zval} {w : World φ}
      (hstack : p.stack = f :: rest)
      (h : f.hook.leave eng f.execute_data return_value f.span p.world = .ok ((), w)) :
      Happens eng natives (.leave return_value) p { p with
        world := w, stack := rest
        charged := if f.hook = .redis then p.thrown.length else p.charged }
  | leave_unwinds {p : Execution φ} {f : Frame} {rest : List Frame} {return_value : Zval}
      {w : World φ} (hstack : p.stack = f :: rest)
      (h : f.hook.leave eng f.execute_data return_value f.span p.world = .error (.unwind w)) :
      Happens eng natives (.leave return_value) p { p with
        world := w, stack := rest, lost := f.span.toList ++ p.lost }
  | unwind {p : Execution φ} {f : Frame} {rest : List Frame} (hstack : p.stack = f :: rest) :
      Happens eng natives .unwind p { p with stack := rest, lost := f.span.toList ++ p.lost }
  | event {p : Execution φ} {e : Event φ} {w : World φ} (hplain : e.Plain)
      (h : Step eng natives e p.world w) :
      Happens eng natives (.event e) p { p with
        world := w, thrown := p.thrown ++ raised eng p.world e }

instance (e : Event φ) : Decidable e.Plain :=
  match e with
  | .call (.enter _ _) | .call (.leave _ _ _ _) => inferInstanceAs (Decidable False)
  | .call (.curl_setopt _) | .call (.curl_setopt_array _) | .call (.curl_close _)
  | .call (.error _) | .call (.exception _) | .call (.sdk _) | .surround _ | .reparent _
  | .request_init | .request_shutdown | .start_cli_tracer _ | .shutdown_cli_tracer =>
    inferInstanceAs (Decidable True)

/-- What comes of a happening. -/
def Execution.play (eng : Engine φ) (natives : CurlNatives φ) (p : Execution φ) :
    Happening φ → Option (Execution φ)
  | .enter hook execute_data =>
    match h : hook.enter eng natives execute_data p.world with
    | .ok (span, w) => some { p with
        world := w
        stack := ⟨hook, execute_data, span, p.thrown.length, enter_traced h⟩ :: p.stack }
    | .error (.unwind w) => some { p with world := w, lost := p.world.memory.spans.next :: p.lost }
    | .error (.fault _) => none
  | .leave return_value =>
    match p.stack with
    | f :: rest =>
      match f.hook.leave eng f.execute_data return_value f.span p.world with
      | .ok (_, w) => some { p with
          world := w, stack := rest
          charged := if f.hook = .redis then p.thrown.length else p.charged }
      | .error (.unwind w) => some { p with
          world := w, stack := rest, lost := f.span.toList ++ p.lost }
      | .error (.fault _) => none
    | [] => none
  | .unwind =>
    match p.stack with
    | f :: rest => some { p with stack := rest, lost := f.span.toList ++ p.lost }
    | [] => none
  | .event e =>
    if e.Plain then (final (e.run eng natives) p.world).map fun w => { p with
      world := w, thrown := p.thrown ++ raised eng p.world e }
    else none

theorem happens_of_play {p p' : Execution φ} {i : Happening φ} (h : p.play eng natives i = some p') :
    Happens eng natives i p p' := by
  unfold Execution.play at h
  split at h
  · split at h <;> cases h
    · exact .enter ‹_›
    · exact .enter_unwinds ‹_›
  · split at h
    · split at h <;> cases h
      · exact .leave ‹_› ‹_›
      · exact .leave_unwinds ‹_› ‹_›
    · cases h
  · split at h <;> cases h
    exact .unwind ‹_›
  · split at h
    · obtain ⟨w, hfinal, rfl⟩ := Option.map_eq_some_iff.mp h
      exact .event ‹_› (ends_iff_final.mpr hfinal)
    · cases h

/-- A run that is computed. -/
theorem run_played {p p' : Execution φ} {is : List (Happening φ)}
    (h : is.foldlM (Execution.play eng natives) p = some p') : Run (Happens eng natives) p is p' :=
  Run.of_foldlM (fun _ _ _ hlast => happens_of_play hlast) h

/-- What may happen in the course of a session. -/
def Happening.Inner (cli : Bool) : Happening φ → Prop
  | .event e => e.Inner cli
  | _ => True

/-- A session has just been started. The hooked calls that it is started in, if any, have spans
that are older than its own. -/
structure Begins (eng : Engine φ) (natives : CurlNatives φ) (p : Execution φ) : Prop where
  opened : Opened eng natives p.world
  older : ∀ f ∈ p.stack, ∀ q, f.span = some q → ∀ first, p.world.first eng = some first → q < first
  lost : p.lost = []
  thrown : p.thrown = []
  charged : p.charged = 0

theorem IsTree.at_first {f : Nat} (h : IsTree eng w) (hfirst : w.first eng = some f) :
    ∃ rs r rest first, Tree eng w f rs r rest first := by
  obtain ⟨f', rs, r, rest, first, htree⟩ := h
  obtain ⟨p, hp, hslot, -⟩ := htree.hasFirst
  rw [World.first, World.slots_of_some hp, hslot] at hfirst
  obtain rfl := Option.some.inj hfirst
  exact ⟨rs, r, rest, first, htree⟩

/-- A session is under way, whose first span is at `f`. -/
structure InSession (eng : Engine φ) (f : Nat) (w : World φ) : Prop where
  tree : IsTree eng w
  first : w.first eng = some f
  started : Started eng w

namespace InSession

variable {f : Nat}

theorem provider (h : InSession eng f w) : ∃ p, w.globals.provider = some p := by
  cases hp : w.globals.provider with
  | some p => exact ⟨p, rfl⟩
  | none =>
    have hfirst := h.first
    rw [World.first, World.slots, hp] at hfirst
    cases hfirst

theorem provider_isSome (h : InSession eng f w) : w.globals.provider.isSome := by
  obtain ⟨p, hp⟩ := h.provider
  rw [hp]
  rfl

theorem lt_next (h : InSession eng f w) : f < w.memory.spans.next := by
  obtain ⟨rs, r, rest, first, htree⟩ := h.tree.at_first h.first
  exact Heap.lt_next htree.cell

theorem step {e : Event φ} (h : InSession eng f w) (hstep : Step eng natives e w w')
    (hinner : e.Inner eng.cli) : InSession eng f w' := by
  refine ⟨isTree_inner hstep hinner h.started h.tree, ?_, started_inner hstep hinner h.started⟩
  obtain ⟨c, rfl⟩ | ⟨s, -, rfl⟩ | ⟨hcli, ppid, rfl⟩ | rfl := inner_cases hstep hinner h.started
  · have hsame := first_blind.built (fun _ _ => rfl) (fun _ _ _ => rfl) (Move.built_call c) hstep
    exact hsame.trans h.first
  · exact h.first
  · rw [World.first, key_reparent hcli]
    exact h.first
  · exact h.first

end InSession

section

variable {f : Nat} {i : Happening φ} {p p' : Execution φ}

theorem step_enter {hook : Hook} {execute_data : ExecuteData}
    (h : Ends (hook.enter eng natives execute_data) w w') :
    Step eng natives (.call (.enter hook execute_data)) w w' := ends_ignore_iff.mpr h

theorem InSession.happens (h : InSession eng f p.world) (hstep : Happens eng natives i p p')
    (hinner : i.Inner eng.cli) : InSession eng f p'.world := by
  cases hstep with
  | enter hent =>
    have hcall := step_enter (.of_ok hent)
    exact h.step hcall trivial
  | enter_unwinds hent =>
    have hcall := step_enter (.inr hent)
    exact h.step hcall trivial
  | @leave _ fr rest return_value w hstack hleave =>
    have hcall : Step eng natives (.call (.leave fr.hook fr.execute_data return_value fr.span))
      p.world w := .of_ok hleave
    exact h.step hcall trivial
  | @leave_unwinds _ fr rest return_value w hstack hleave =>
    have hcall : Step eng natives (.call (.leave fr.hook fr.execute_data return_value fr.span))
      p.world w := .inr hleave
    exact h.step hcall trivial
  | unwind hstack => exact h
  | event hplain hevent => exact h.step hevent hinner

/-- A call that is unwound past stays pending. -/
theorem pending_unwind {fr : Frame} {rest : List Frame} (hstack : p.stack = fr :: rest) :
    (rest.filterMap Frame.span ++ (fr.span.toList ++ p.lost)).Perm p.pending := by
  rw [Execution.pending, hstack]
  cases hspan : fr.span with
  | none => rw [List.filterMap_cons_none hspan]; exact .refl _
  | some q =>
    rw [List.filterMap_cons_some hspan, List.cons_append]
    exact List.perm_middle

/-- What happens settles all spans, or makes one more pending, or ends one that is. -/
theorem happens_cases (h : Happens eng natives i p p') (hinner : i.Inner eng.cli)
    (hsession : InSession eng f p.world) :
    (Settles f p.world p'.world ∧ p'.pending.Perm p.pending) ∨
      (∃ q, Adds q p.world p'.world ∧ p'.pending.Perm (q :: p.pending)) ∨
      ∃ q, Closed q p.world p'.world ∧ p.pending.Perm (q :: p'.pending) := by
  have hprovider : p.world.globals.provider.isSome := hsession.provider_isSome
  cases h with
  | enter hent =>
    obtain ⟨rfl, hcalm⟩ | ⟨q, rfl, hadds⟩ := (Enters.hook _ _).returns hent
    · exact .inl ⟨.of_calm hcalm, .refl _⟩
    · exact .inr (.inl ⟨q, hadds, .refl _⟩)
  | enter_unwinds hent =>
    exact .inr (.inl ⟨_, (Enters.hook _ _).unwinds hent, List.perm_middle⟩)
  | @leave _ fr rest return_value w hstack hleave =>
    cases hspan : fr.span with
    | none =>
      rw [hspan] at hleave
      obtain rfl := leave_none hprovider hleave
      refine .inl ⟨.of_spans rfl, ?_⟩
      rw [Execution.pending, Execution.pending, hstack, List.filterMap_cons_none hspan]
    | some q =>
      have htraced (hhook : fr.hook = .curl_exec) := fr.traced hhook (by rw [hspan]; rfl)
      rw [hspan] at hleave
      refine .inr (.inr ⟨q, leave_closed htraced hprovider hleave, ?_⟩)
      rw [Execution.pending, Execution.pending, hstack, List.filterMap_cons_some hspan,
        List.cons_append]
  | leave_unwinds hstack hleave =>
    exact .inl ⟨.of_calm (leave_unwinds hleave), pending_unwind hstack⟩
  | unwind hstack => exact .inl ⟨.of_spans rfl, pending_unwind hstack⟩
  | event hplain hevent =>
    refine .inl ⟨?_, .refl _⟩
    obtain ⟨c, rfl⟩ | ⟨s, -, rfl⟩ | ⟨-, ppid, rfl⟩ | rfl := inner_cases hevent hinner hsession.started
    · exact settles_call hplain hsession.first hevent
    · exact .of_spans rfl
    · exact .of_spans rfl
    · exact .of_spans rfl

/-- The spans of the session that are pending are fresh, and each is so once. -/
structure Standing (eng : Engine φ) (f : Nat) (p : Execution φ) : Prop where
  session : InSession eng f p.world
  once (q : Nat) : f < q → p.pending.count q ≤ 1
  bound : ∀ q ∈ p.pending, q ≠ f ∧ q < p.world.memory.spans.next
  fresh : ∀ q ∈ p.pending, f < q → p.world.FreshAt q

/-- All others but the first are ended. -/
def Settled (f : Nat) (p : Execution φ) : Prop :=
  ∀ q, f < q → q < p.world.memory.spans.next → q ∉ p.pending → p.world.EndedAt q

theorem freshAt_congr {q : Nat} (h : w'.outcome q = w.outcome q) (hw : w.FreshAt q) :
    w'.FreshAt q := freshAt_iff.mpr (h.trans (freshAt_iff.mp hw))

theorem endedAt_congr {q : Nat} (h : w'.outcome q = w.outcome q) (hw : w.EndedAt q) :
    w'.EndedAt q := by
  rw [endedAt_iff, h]
  exact endedAt_iff.mp hw

theorem Standing.step (h : Standing eng f p) (hstep : Happens eng natives i p p')
    (hinner : i.Inner eng.cli) : Standing eng f p' := by
  have hsession := h.session.happens hstep hinner
  obtain ⟨hsettles, hperm⟩ | ⟨q, hadds, hperm⟩ | ⟨q, hclosed, hperm⟩ :=
    happens_cases hstep hinner h.session
  · refine ⟨hsession, fun q hq => ?_, fun q hq => ?_, fun q hq hlt => ?_⟩
    · rw [hperm.count_eq]
      exact h.once q hq
    · obtain ⟨hne, hlt⟩ := h.bound q (hperm.mem_iff.mp hq)
      exact ⟨hne, hlt.trans_le hsettles.grows⟩
    · obtain ⟨hne, hnext⟩ := h.bound q (hperm.mem_iff.mp hq)
      exact freshAt_congr (hsettles.old q hne hnext) (h.fresh q (hperm.mem_iff.mp hq) hlt)
  · have hnew : q ∉ p.pending := by
      intro hmem
      have hlt := (h.bound q hmem).2
      have hpointer := hadds.pointer
      omega
    have hfirst := h.session.lt_next
    have hpointer := hadds.pointer
    have hnext := hadds.next
    refine ⟨hsession, fun q' hq' => ?_, fun q' hq' => ?_, fun q' hq' hlt => ?_⟩
    · rw [hperm.count_eq, List.count_cons]
      by_cases heq : q = q'
      · subst heq
        rw [List.count_eq_zero_of_not_mem hnew]
        simp
      · simpa [heq] using h.once q' hq'
    · rcases List.mem_cons.mp (hperm.mem_iff.mp hq') with rfl | hold
      · omega
      · obtain ⟨hne, hlt⟩ := h.bound q' hold
        omega
    · rcases List.mem_cons.mp (hperm.mem_iff.mp hq') with rfl | hold
      · exact hadds.new
      · have hne : q' ≠ q := fun heq => hnew (heq ▸ hold)
        exact freshAt_congr (hadds.old q' hne) (h.fresh q' hold hlt)
  · have hold {q' : Nat} (hq' : q' ∈ p'.pending) : q' ∈ p.pending :=
      hperm.mem_iff.mpr (List.mem_cons_of_mem q hq')
    refine ⟨hsession, fun q' hq' => ?_, fun q' hq' => ?_, fun q' hq' hlt => ?_⟩
    · have honce := h.once q' hq'
      rw [hperm.count_eq, List.count_cons] at honce
      omega
    · obtain ⟨hne, hlt⟩ := h.bound q' (hold hq')
      rw [hclosed.next]
      exact ⟨hne, hlt⟩
    · -- The span that is ended was pending once, and is so no more.
      have hne : q' ≠ q := by
        rintro rfl
        have honce := h.once q' hlt
        rw [hperm.count_eq, List.count_cons_self] at honce
        have hpos := List.count_pos_iff.mpr hq'
        omega
      exact freshAt_congr (hclosed.outcome q' hne) (h.fresh q' (hold hq') hlt)

theorem Settled.step (h : Settled f p) (hticking : Ticking p.world) (hstanding : Standing eng f p)
    (hstep : Happens eng natives i p p') (hinner : i.Inner eng.cli) : Settled f p' := by
  intro q hq hlt hpending
  obtain ⟨hsettles, hperm⟩ | ⟨q', hadds, hperm⟩ | ⟨q', hclosed, hperm⟩ :=
    happens_cases hstep hinner hstanding.session
  · rw [hperm.mem_iff] at hpending
    by_cases hold : q < p.world.memory.spans.next
    · exact endedAt_congr (hsettles.old q (by omega) hold) (h q hq hold hpending)
    · exact hsettles.new q hticking (by omega) hlt
  · rw [hperm.mem_iff, List.mem_cons, not_or] at hpending
    have hpointer := hadds.pointer
    have hnext := hadds.next
    exact endedAt_congr (hadds.old q hpending.1) (h q hq (by omega) hpending.2)
  · by_cases heq : q = q'
    · subst heq
      exact hclosed.ended hticking
    · have hnot : q ∉ p.pending := by
        rw [hperm.mem_iff, List.mem_cons, not_or]
        exact ⟨heq, hpending⟩
      exact endedAt_congr (hclosed.outcome q heq) (h q hq (hclosed.next ▸ hlt) hnot)

end

end opentelemetry
