import OpentelemetryExt.Session.Overlooked
import OpentelemetryExt.Session.Requests
import OpentelemetryExt.Session.Cycles

open heap stateful run

namespace opentelemetry

variable {φ : Type} {eng : Engine φ} {natives : CurlNatives φ} {w w' : World φ}

/-- The world with `c` for the span at `p`, whatever was there. -/
def World.put (p : Nat) (c : Option Span) (w : World φ) : World φ :=
  w.withMemory { w.memory with spans := w.memory.spans.put p c }

/-- What is done, or what comes of it, depends on the span at `p` or changes it. A span that has
been deleted is touched by going to it as well. -/
def Touches {α : Type} (p : Nat) (m : M φ α) (w : World φ) : Prop :=
  ∃ c, m (w.put p c) ≠ through (World.put p c) (m w)

/-- A second half overlooks what is in the place of any span but its own. -/
theorem overlooked_put (eng : Engine φ) (p : Nat) (c : Option Span) :
    Overlooked eng (· ≠ p) (World.put p c) := by
  have hglobals : Unaware (World.put p c) (globals : M φ Globals) :=
    .get_bind (fun _ => rfl) fun _ => .pure _
  have hprovider : Unaware (World.put p c) (provider : M φ Provider) :=
    .bind hglobals fun _ => .lift _
  have hslot (f : Slot → Slot) : Unaware (World.put p c) (modifySlot eng f) :=
    .bind hprovider fun _ => .bind (.get_bind (fun _ => rfl) fun _ => .pure _) fun _ =>
      .modify fun _ => rfl
  refine ⟨fun _ => rfl, fun _ => .modify fun _ => rfl, fun _ => rfl, .bind hglobals fun _ => .pure _,
    ?_, fun _ => hslot _, fun _ => hslot _, fun {q} hq f => .bind ?_ fun _ => .modify fun w => ?_⟩
  · exact .bind (.bind hprovider fun _ => .bind (.get_bind (fun _ => rfl) fun _ => .pure _)
      fun _ => .pure _) fun _ => .pure _
  · refine .get_bind (fun w => ?_) fun _ => .lift _
    have hcell : (w.put p c).memory.spans.cell q = w.memory.spans.cell q := Heap.cell_put_ne hq
    rw [load, load, hcell]
  · have hspans := Heap.modify_put (h := w.memory.spans) (c := c) f hq
    exact congrArg (fun spans => w.withMemory { w.memory with spans := spans }) hspans

variable {n f q : Nat}

/-- The request of the first span `f` is whole, and every span that has been created since the
address `n` was the next belongs to it. -/
structure Covers (eng : Engine φ) (n f : Nat) (w : World φ) : Prop where
  first : n < w.memory.spans.next → f < w.memory.spans.next
  laid : ∃ rs r, Laid eng w f rs r ∧ Whole eng w rs ∧
    ∀ q, n ≤ q → q < w.memory.spans.next → q ∈ r.spans ∧ (w.memory.spans.cell q).isSome

theorem Covers.of_shape (h : Covers eng n f w) (hshape : w'.shape = w.shape)
    (hlive : ∀ q, (w.memory.spans.cell q).isSome → (w'.memory.spans.cell q).isSome)
    (hnext : w'.memory.spans.next = w.memory.spans.next) : Covers eng n f w' := by
  obtain ⟨hfirst, rs, r, hlaid, hwhole, hall⟩ := h
  refine ⟨hnext.symm ▸ hfirst, rs, r, hlaid.of_shape hshape, hwhole.of_shape hshape,
    fun q hn hq => ?_⟩
  obtain ⟨hmem, hcell⟩ := hall q hn (hnext ▸ hq)
  exact ⟨hmem, hlive q hcell⟩

theorem Covers.createSpan {name : Bytes} {kind : SpanKind} {p : Nat} (h : Covers eng n f w)
    (hf : f < w.memory.spans.next) (hcreate : Provider.createSpan eng name kind w = .ok (p, w')) :
    Covers eng n f w' := by
  obtain ⟨-, rs, r, hlaid, hwhole, hall⟩ := h
  obtain ⟨hlaid', hwhole'⟩ := createSpan_laid hlaid hwhole hcreate
  obtain ⟨s, hspans, hp, -⟩ := createSpan_spans hcreate
  have hnext : w'.memory.spans.next = w.memory.spans.next + 1 := by rw [hspans]; rfl
  refine ⟨fun _ => by omega, rs, _, hlaid', hwhole', fun q hn hq => ?_⟩
  by_cases hnew : q = p
  · subst hnew
    exact ⟨by simp, by rw [hspans, hp, Heap.cell_alloc_self]; rfl⟩
  · obtain ⟨hmem, hcell⟩ := hall q hn (by omega)
    obtain ⟨t, ht⟩ := Option.isSome_iff_exists.mp hcell
    exact ⟨by simp [hmem], by rw [hspans, Heap.cell_alloc_of_some ht]; rfl⟩

/-- What the operations create goes to the request. -/
theorem Op.covers {α : Type} {stores : Prop} {m : M φ α} (h : Op eng stores m) :
    Keeps (Preserves (Covers eng n f)) m := by
  intro w w' hends hw
  obtain ⟨hshape, hnext⟩ | ⟨name, kind, p, hcreate⟩ := h.layout hends
  · refine hw.of_shape hshape (fun q hcell => ?_) hnext
    obtain ⟨s, hs⟩ := Option.isSome_iff_exists.mp hcell
    obtain ⟨s', hs', -⟩ := h.idsKept hends q s hs
    rw [hs']
    rfl
  · obtain ⟨v, f', parent, ⟨provider, hp, hslot, hcell⟩, hspan, rfl⟩ := createChildSpan_ok hcreate
    obtain ⟨rs, r, hlaid, -⟩ := hw.laid
    obtain ⟨provider', hp', hfirst, -⟩ := hlaid.slot
    obtain rfl : provider = provider' := Option.some.inj (hp.symm.trans hp')
    obtain rfl : f' = f := Option.some.inj (hslot.symm.trans hfirst)
    have hv : Covers eng n f' v := hw.createSpan (Heap.lt_next hcell) hspan
    refine hv.of_shape rfl (fun q hcell => ?_) rfl
    by_cases hq : q = p
    · subst hq
      rw [World.withSpan, World.memory_withMemory, Heap.cell_modify_self, Option.isSome_map]
      exact hcell
    · rw [World.withSpan, World.memory_withMemory, Heap.cell_modify_ne hq]
      exact hcell

theorem covers_call {c : Call} (h : Step eng natives (.call c) w w') (hw : Covers eng n f w) :
    Covers eng n f w' :=
  (Op.built_call c).keeps Op.covers h hw

theorem first_call {c : Call} (h : Step eng natives (.call c) w w') : w'.first eng = w.first eng :=
  first_blind.built (fun _ _ => rfl) (fun _ _ _ => rfl) (Move.built_call c) h

/-- Where there are no spans of its own to answer for, a request is covered. -/
theorem Parted.covers (h : Parted w) (hfirst : w.first eng = some f) :
    Covers eng w.memory.spans.next f w := by
  obtain ⟨request, rs, r, howns⟩ := h.owns (w.key eng) (.inl (by rw [← World.first, hfirst]; rfl))
  obtain ⟨p, hp⟩ : ∃ p, w.globals.provider = some p := by
    cases hp : w.globals.provider with
    | some p => exact ⟨p, rfl⟩
    | none =>
      rw [World.first, World.slots, hp] at hfirst
      cases hfirst
  obtain ⟨hslot, hentry, hmessage, hcell, hmem⟩ := howns
  rw [World.slots_of_some hp] at hslot hentry hmem
  rw [World.first, World.slots_of_some hp] at hfirst
  refine ⟨fun hlt => absurd hlt (Nat.lt_irrefl _), rs, r,
    ⟨⟨p, hp, hfirst, ?_, hentry⟩, hcell, hmem f hfirst⟩, ⟨p, request, hp, hslot, hmessage⟩,
    fun q hn hq => absurd hq (by omega)⟩
  rw [hslot]
  rfl

/-- As long as `f` is the first span, the request covers what has been created since `n`. A tracer
that has been replaced does not come back. -/
structure Since (eng : Engine φ) (n f : Nat) (w : World φ) : Prop where
  older : f ≤ n
  past : Past (n + 1) w
  covers : w.first eng = some f → Covers eng n f w

theorem Since.of_first (h : Since eng n f w) (hpast : Past (n + 1) w')
    (hfirst : w'.first eng ≠ some f) : Since eng n f w' :=
  ⟨h.older, hpast, fun heq => absurd heq hfirst⟩

theorem since_step {e : Event φ} (hcli : eng.cli = true) (h : Step eng natives e w w')
    (hparent : ∀ ppid, e ≠ .reparent ppid) (hw : Since eng n f w) : Since eng n f w' := by
  cases e with
  | call c =>
    refine ⟨hw.older, (Op.built_call c).keeps Op.past h hw.past, fun hfirst => ?_⟩
    exact covers_call h (hw.covers (first_call h ▸ hfirst))
  | surround s =>
    obtain ⟨_, h⟩ | h := h <;> cases h
    exact ⟨hw.older, hw.past, fun hfirst => (hw.covers hfirst).of_shape rfl (fun _ => id) rfl⟩
  | reparent ppid => exact absurd rfl (hparent ppid)
  | request_init =>
    obtain ⟨-, rfl⟩ | ⟨hserves, -⟩ := request_init_ends h
    · exact hw
    · exact absurd hcli hserves.2
  | request_shutdown =>
    obtain ⟨-, rfl⟩ | ⟨hserves, -⟩ := request_shutdown_ends h
    · exact hw
    · exact absurd hcli hserves.2
  | start_cli_tracer args =>
    obtain ⟨-, rfl⟩ | ⟨hoffers, _, _, _, -, hstart⟩ := start_cli_tracer_ends (ends_ignore_iff.mp h)
    · exact hw
    · have hstarted : Past (n + 1) w.withStarted := hw.past
      obtain ⟨hpast, f', hfirst, hnew, -⟩ := start_first hstarted hstart hoffers.not_refuses_started
      refine hw.of_first hpast fun heq => ?_
      obtain rfl := Option.some.inj (hfirst.symm.trans heq)
      have holder := hw.older
      omega
  | shutdown_cli_tracer =>
    obtain ⟨-, rfl⟩ | ⟨hoffers, hshutdown⟩ := shutdown_cli_tracer_ends (ends_ignore_iff.mp h)
    · exact hw
    · have hpast := past_shutdown hw.past hshutdown hoffers.not_refuses
      have hfirst : w'.first eng = none := by
        obtain hnone | ⟨hnone, hslots, -, hppid⟩ :=
          shutdown_provider hcli hshutdown hoffers.not_refuses
        · rw [World.first, World.slots, hnone]
          rfl
        · rw [World.first, hslots, World.key_congr hppid]
          exact hnone
      refine hw.of_first hpast fun heq => Option.some_ne_none f ?_
      rw [← heq, hfirst]

theorem since_run {es : List (Event φ)} (hcli : eng.cli = true)
    (hrun : Run (Step eng natives) w es w') (hparent : ∀ e ∈ es, ∀ ppid, e ≠ .reparent ppid)
    (hw : Since eng n f w) : Since eng n f w' := by
  induction hrun with
  | nil => exact hw
  | @snoc es e t u _ hlast ih =>
    have ht := ih fun e he => hparent e (List.mem_append_left _ he)
    exact since_step hcli hlast (hparent e (by simp)) ht

section

variable {hook : Hook} {execute_data : ExecuteData} {return_value : Zval} {span : Option Nat}

theorem Touches.eq_span {p : Nat}
    (h : Touches p (hook.leave eng execute_data return_value span) w) : span = some p := by
  obtain ⟨c, hne⟩ := h
  by_contra hspan
  refine hne ((overlooked_put eng p c).leave (fun q hq => ?_) execute_data return_value w)
  rintro rfl
  exact hspan hq

/-- All hooks but that of curl ask for the provider again. -/
theorem leave_eq_handler (eng : Engine φ) (hhook : hook ≠ .curl_exec) :
    ∃ leave : ExecuteData → Nat → M φ Unit, ∀ execute_data return_value span,
      hook.leave eng execute_data return_value span = leaveHandler leave execute_data span := by
  cases hook with
  | curl_exec => exact absurd rfl hhook
  | redis => exact ⟨redisLeave eng, fun _ _ _ => rfl⟩
  | memcached => exact ⟨memcachedLeave eng, fun _ _ _ => rfl⟩
  | pdo => exact ⟨pdoLeave eng, fun _ _ _ => rfl⟩
  | pdo_statement => exact ⟨pdoStatementLeave eng, fun _ _ _ => rfl⟩
  | mysqli => exact ⟨mysqliLeave, fun _ _ _ => rfl⟩
  | yar_client => exact ⟨yarLeave, fun _ _ _ => rfl⟩
  | yar_server => exact ⟨yarLeave, fun _ _ _ => rfl⟩

/-- Without a provider the second half does nothing, but in the hook of curl. -/
theorem leave_of_none (hhook : hook ≠ .curl_exec) (hw : w.globals.provider = none) :
    hook.leave eng execute_data return_value span w = .ok ((), w) := by
  obtain ⟨leave, hleave⟩ := leave_eq_handler eng hhook
  rw [hleave]
  simp [leaveHandler, is_has_provider, globals_apply, hw]

/-- With a provider it goes to its local variable, set or not. -/
theorem leave_unset (hhook : hook ≠ .curl_exec) (hw : w.globals.provider ≠ none) :
    hook.leave eng execute_data return_value none w = .error (.fault .uninitialised) := by
  obtain ⟨leave, hleave⟩ := leave_eq_handler eng hhook
  rw [hleave]
  simp [leaveHandler, is_has_provider, globals_apply, Option.isSome_iff_ne_none, hw, readLocal]

/-- The hook of curl goes by its local variable. -/
theorem leave_curl_none (hhook : hook = .curl_exec) :
    hook.leave eng execute_data return_value none w = .ok ((), w) := by
  subst hhook
  obtain ⟨func, args, This, callers⟩ := execute_data
  rcases args with _ | ⟨zid, _ | ⟨_, _⟩⟩ <;> rfl

/-- But for the hook of curl, no span means no provider. -/
theorem provider_of_enter_none (hhook : hook ≠ .curl_exec)
    (h : hook.enter eng natives execute_data w = .ok (none, w')) : w.globals.provider = none := by
  have henter {enter : ExecuteData → M φ Nat} {w' : World φ}
      (h : enterHandler enter execute_data w = .ok (none, w')) : w.globals.provider = none := by
    obtain ⟨b, u, hhas, hrest⟩ := bind_ok_iff.mp h
    cases hhas
    by_contra hsome
    rw [stateful.ite_apply, if_pos (Option.isSome_iff_ne_none.mpr hsome)] at hrest
    obtain ⟨q, v, -, hreturn⟩ := bind_ok_iff.mp hrest
    cases hreturn
  cases hook with
  | curl_exec => exact absurd rfl hhook
  | redis => exact henter h
  | memcached => exact henter h
  | pdo => exact henter h
  | pdo_statement => exact henter h
  | mysqli => exact henter h
  | yar_client => exact henter h
  | yar_server =>
    obtain ⟨span, u, hspan, hrest⟩ := bind_ok_iff.mp h
    obtain ⟨q, v, hread, hattribute⟩ := bind_ok_iff.mp hrest
    obtain ⟨hlocal, -⟩ := lift_ok_iff.mp hread
    obtain ⟨⟨⟩, v', -, hreturn⟩ := bind_ok_iff.mp hattribute
    cases hreturn
    cases hlocal

/-- What is right after the original has returned: the second half does not go to a span if
there is none, and a span that it touches is the one which the first half has created, is alive
and belongs to the current request. -/
structure Tidy (eng : Engine φ) (hook : Hook) (execute_data : ExecuteData) (span : Option Nat)
    (w₀ w₁ w : World φ) : Prop where
  set (return_value : Zval) : span = none →
    hook.leave eng execute_data return_value span w ≠ .error (.fault .uninitialised)
  own (return_value : Zval) (q : Nat) :
    Touches q (hook.leave eng execute_data return_value span) w →
      Adds q w₀ w₁ ∧ InRequest eng w q ∧ (w.memory.spans.cell q).isSome

/-- The second half finds nothing to do, or the tracer that the first half has found. -/
def Undisturbed (eng : Engine φ) (hook : Hook) (span : Option Nat) (w₁ w : World φ) : Prop :=
  hook ≠ .curl_exec ∧ w.globals.provider = none ∨ hook = .curl_exec ∧ span = none ∨
    (w.first eng).isSome ∧ w.first eng = w₁.first eng

theorem Tidy.of_returns {w₀ w₁ : World φ} (h : ∀ c return_value q,
    hook.leave eng execute_data return_value span (w.put q c) = .ok ((), w.put q c))
    (hw : ∀ return_value, hook.leave eng execute_data return_value span w = .ok ((), w)) :
    Tidy eng hook execute_data span w₀ w₁ w where
  set return_value _ := by
    rw [hw]
    exact nofun
  own return_value q := by
    rintro ⟨c, hne⟩
    rw [h, hw] at hne
    exact absurd rfl hne

/-- A hook finishes only the live span that it has created, whatever PHP code runs inside of the
original, as long as the tracer is still the one of its first half, or nothing is left to do. -/
theorem finishes_own_span {past during : List (Event φ)} {origin w₀ w₁ : World φ}
    (hcli : eng.cli = true) (hnew : origin.globals.provider = none)
    (hpast : Run (Step eng natives) origin past w₀)
    (henter : hook.enter eng natives execute_data w₀ = .ok (span, w₁))
    (hduring : Run (Step eng natives) w₁ during w)
    (hparent : ∀ e ∈ during, ∀ ppid, e ≠ .reparent ppid)
    (hkept : Undisturbed eng hook span w₁ w) : Tidy eng hook execute_data span w₀ w₁ w := by
  have hcall : Step eng natives (.call (.enter hook execute_data)) w₀ w₁ :=
    step_enter (.of_ok henter)
  obtain ⟨hhook, hnone⟩ | ⟨hhook, rfl⟩ | ⟨hsome, hsame⟩ := hkept
  · exact .of_returns (fun _ _ _ => leave_of_none hhook hnone) fun _ => leave_of_none hhook hnone
  · exact .of_returns (fun _ _ _ => leave_curl_none hhook) fun _ => leave_curl_none hhook
  obtain ⟨f, hfirst⟩ := Option.isSome_iff_exists.mp hsome
  have hentered : w₀.first eng = some f := by rw [← first_call hcall, ← hsame, hfirst]
  obtain ⟨rfl, -⟩ | ⟨q, rfl, hadds⟩ := (Enters.hook _ _).returns henter
  · by_cases hhook : hook = .curl_exec
    · exact .of_returns (fun _ _ _ => leave_curl_none hhook) fun _ => leave_curl_none hhook
    · have hnone := provider_of_enter_none hhook henter
      rw [World.first, World.slots, hnone] at hentered
      cases hentered
  · have hcovers : Covers eng q f w₁ := by
      rw [hadds.pointer]
      exact covers_call hcall ((parted_run hcli hnew hpast).covers hentered)
    have hlt : q < w₁.memory.spans.next := by
      rw [hadds.next]
      exact Nat.lt_succ_self q
    have holder : f < w₁.memory.spans.next := hcovers.first hlt
    rw [hadds.next] at holder
    have hsince : Since eng q f w :=
      since_run hcli hduring hparent ⟨Nat.le_of_lt_succ holder, hlt, fun _ => hcovers⟩
    obtain ⟨-, rs, r, hlaid, -, hall⟩ := hsince.covers hfirst
    obtain ⟨hmem, hcell⟩ := hall q le_rfl hsince.past
    refine ⟨fun return_value hspan => absurd hspan (Option.some_ne_none q),
      fun return_value p hp => ?_⟩
    obtain rfl := Option.some.inj hp.eq_span
    exact ⟨hadds, ⟨f, rs, r, hlaid, hmem⟩, hcell⟩

end

/-- A start of a tracer without any headers. -/
def plainStart : Event φ := .start_cli_tracer (some (none, none, .internal))

/-- A command inside of a command, both recorded by the tracer that was there before. -/
theorem finishes_own_span_nested : ∃ (w₀ w₁ w : World Unit) (q : Nat),
    Hook.redis.enter (.connected true) .bare getFrame w₀ = .ok (some q, w₁) ∧
      Run (Step (.connected true) .bare) w₁
        [.call (.enter .redis getFrame), .call (.leave .redis getFrame .null (some (q + 1)))] w ∧
      Tidy (.connected true) .redis getFrame (some q) w₀ w₁ w := by
  have hplayed : ((final (Event.run (.connected true) .bare plainStart) (cliWorld 1)).any fun w₀ =>
      (Hook.redis.enter (.connected true) .bare getFrame w₀).toOption.any fun r => r.1 == some 1 &&
        (final (Event.run (.connected true) .bare (.call (.enter .redis getFrame))) r.2).any fun u =>
          (final (Event.run (.connected true) .bare (.call (.leave .redis getFrame .null (some 2)))) u).any
            fun w => (w.first (.connected true)).isSome &&
              w.first (.connected true) == r.2.first (.connected true)) = true := by
    decide +kernel
  obtain ⟨w₀, hw₀, hplayed⟩ := (Option.any_eq_true _ _).mp hplayed
  obtain ⟨⟨span, w₁⟩, hw₁, hplayed⟩ := (Option.any_eq_true _ _).mp hplayed
  obtain ⟨hspan, hplayed⟩ := Bool.and_eq_true_iff.mp hplayed
  obtain ⟨u, hu, hplayed⟩ := (Option.any_eq_true _ _).mp hplayed
  obtain ⟨w, hw, hplayed⟩ := (Option.any_eq_true _ _).mp hplayed
  obtain ⟨hsome, hsame⟩ := Bool.and_eq_true_iff.mp hplayed
  obtain rfl : span = some 1 := beq_iff_eq.mp hspan
  have henter : Hook.redis.enter (.connected true) .bare getFrame w₀ = .ok (some 1, w₁) := by
    cases h : Hook.redis.enter (.connected true) .bare getFrame w₀ with
    | ok r =>
      rw [h] at hw₁
      exact congrArg Except.ok (Option.some.inj hw₁)
    | error e =>
      rw [h] at hw₁
      cases hw₁
  have hpast : Run (Step (.connected true) .bare) (cliWorld 1) [plainStart] w₀ :=
    Run.nil.snoc (ends_iff_final.mpr hw₀)
  have hinside : Step (.connected true) .bare (.call (.enter .redis getFrame)) w₁ u := ends_iff_final.mpr hu
  have hreturn : Step (.connected true) .bare (.call (.leave .redis getFrame .null (some 2))) u w :=
    ends_iff_final.mpr hw
  have hduring : Run (Step (.connected true) .bare) w₁
      [.call (.enter .redis getFrame), .call (.leave .redis getFrame .null (some 2))] w :=
    (Run.nil.snoc hinside).snoc hreturn
  exact ⟨w₀, w₁, w, 1, henter, hduring, finishes_own_span rfl rfl hpast henter hduring
    (by simp) (.inr (.inr ⟨hsome, beq_iff_eq.mp hsame⟩))⟩

/-- A tracer that is started inside of a command that was not recorded: the second half reads
its local variable, which was never set. -/
theorem unset_span_read : ∃ w : World Unit,
    Hook.redis.enter (.connected true) .bare getFrame (cliWorld 1) = .ok (none, cliWorld 1) ∧
      Run (Step (.connected true) .bare) (cliWorld 1) [plainStart] w ∧
      ¬ Tidy (.connected true) .redis getFrame none (cliWorld 1) (cliWorld 1) w := by
  have hplayed : ((final (Event.run (.connected true) .bare plainStart) (cliWorld 1)).any fun w =>
      w.globals.provider.isSome) = true := by
    decide +kernel
  obtain ⟨w, hw, hprovider⟩ := (Option.any_eq_true _ _).mp hplayed
  refine ⟨w, rfl, Run.nil.snoc (ends_iff_final.mpr hw), fun htidy => htidy.set .null rfl ?_⟩
  exact leave_unset (by decide) (Option.isSome_iff_ne_none.mp hprovider)

end opentelemetry
