import OpentelemetryExt.Session.Consumers
import OpentelemetryExt.Session.Tree

open stateful run

namespace opentelemetry

variable {φ : Type} {eng : Engine φ} {natives : CurlNatives φ} {w w' : World φ}

/-- The content of an `ExportTraceServiceRequest`. -/
abbrev Message := List (Option Resource × List Span)

/-- A call of the message queue library that the code has come to, or the start of a thread. -/
inductive QueueCall where
  | remove (name : Bytes)
  | open_or_create (name : Bytes)
  | consumer (name : Bytes)
  | open_only (name : Option Bytes) (msg : Bytes)
  | try_send (mq : Nat) (msg : Bytes)
deriving DecidableEq, Repr

/-- What `init_consumers` calls when it has set the flag: the queue is removed and created, and if
that does not throw, the threads are started. -/
def initCalls (name : Bytes) (fails : Bool) (consumers : Nat) : List QueueCall :=
  .remove name ::
    if fails then [] else .open_or_create name :: List.replicate consumers (.consumer name)

/-- What the code has called by the time that `w` has become `w'`. `encode` is
`SerializePartialAsString`. -/
def queueCalls (encode : Message → Bytes) (w w' : World φ) : List QueueCall :=
  (if w'.globals.is_init_consumers && !w.globals.is_init_consumers then
    match w'.globals.message_queue_name with
    | some name => initCalls name (w.queueFails 0) (w'.consumers - w.consumers)
    | none => []
  else []) ++
    (w'.exported.drop w.exported.length).map fun request =>
      .open_only w'.globals.message_queue_name (encode request)

/-- `opentelemetry_module_shutdown`, without the hooks. -/
def opentelemetry_module_shutdown (eng : Engine φ) : M φ Unit := do
  let g ← globals
  if ¬ g.enable ∨ eng.cli ∧ ¬ g.cli_enable then return
  if g.enable ∧ eng.cli ∧ g.cli_enable ∧ g.is_init_consumers then clean_consumers

/-- What `opentelemetry_module_shutdown` calls. -/
def shutdownCalls (eng : Engine φ) (g : Globals) : List QueueCall :=
  if ¬ g.enable ∨ eng.cli ∧ ¬ g.cli_enable then []
  else if g.enable ∧ eng.cli ∧ g.cli_enable ∧ g.is_init_consumers then
    match g.message_queue_name with
    | some name => [.remove name]
    | none => []
  else []

/-- An initialisation does nothing, or it is the first and sets up the pipeline. -/
theorem init_consumers_pipeline (h : init_consumers eng w = .ok ((), w')) :
    w'.pipeline = w.pipeline ∨ w.globals.is_init_consumers = false ∧
      ∃ nums, w'.pipeline = w.pipeline.attempted w.queueName nums (w.queueFails 0) := by
  cases hflag : w.globals.is_init_consumers with
  | true =>
    rw [init_consumers_done hflag] at h
    cases h
    exact .inl rfl
  | false =>
    obtain ⟨v, nums, hv, hpipeline⟩ := init_consumers_first eng hflag
    obtain rfl : v = w' := congrArg Prod.snd (Except.ok.inj (hv.symm.trans h))
    exact .inr ⟨rfl, nums, hpipeline⟩

theorem start_pipeline {traceparent tracebaggage : Bytes} {kind : SpanKind}
    (h : start_tracer eng traceparent tracebaggage kind w = .ok ((), w')) :
    w'.pipeline = w.pipeline ∨ w.globals.is_init_consumers = false ∧
      ∃ nums, w'.pipeline = w.pipeline.attempted w.queueName nums (w.queueFails 0) := by
  obtain rfl | ⟨u, hinit, hu⟩ := start_tracer_pipeline h
  · exact .inl rfl
  · rw [hu]
    exact init_consumers_pipeline hinit

/-- An event leaves the pipeline alone, or it makes the first initialisation. -/
theorem pipeline_of_step {e : Event φ} (h : Step eng natives e w w') :
    w'.pipeline = w.pipeline ∨ w.globals.is_init_consumers = false ∧
      ∃ nums, w'.pipeline = w.pipeline.attempted w.queueName nums (w.queueFails 0) := by
  cases e with
  | call c => exact .inl (pipeline_blind.built (fun _ _ => rfl) (fun _ _ _ => rfl) (Move.built_call c) h)
  | surround s =>
    obtain ⟨_, h⟩ | h := h <;> cases h
    exact .inl rfl
  | reparent ppid =>
    obtain ⟨_, h⟩ | h := h <;> cases h
    exact .inl rfl
  | request_init =>
    obtain ⟨-, rfl⟩ | ⟨-, hstart⟩ := request_init_ends h
    · exact .inl rfl
    · exact start_pipeline hstart
  | request_shutdown =>
    obtain ⟨-, rfl⟩ | ⟨hserves, hshutdown⟩ := request_shutdown_ends h
    · exact .inl rfl
    · exact .inl (shutdown_tracer_pipeline hshutdown hserves.not_refuses)
  | start_cli_tracer args =>
    obtain ⟨-, rfl⟩ | ⟨-, _, _, _, -, hstart⟩ := start_cli_tracer_ends (ends_ignore_iff.mp h)
    · exact .inl rfl
    · exact start_pipeline (w := w.withStarted) hstart
  | shutdown_cli_tracer =>
    obtain ⟨-, rfl⟩ | ⟨hoffers, hshutdown⟩ := shutdown_cli_tracer_ends (ends_ignore_iff.mp h)
    · exact .inl rfl
    · exact .inl (shutdown_tracer_pipeline hshutdown hoffers.not_refuses)

theorem start_exported {traceparent tracebaggage : Bytes} {kind : SpanKind}
    (h : start_tracer eng traceparent tracebaggage kind w = .ok ((), w')) :
    w'.exported = w.exported := by
  by_cases heffective : Refuses eng w.globals
  · obtain ⟨g, _, hglobals, h⟩ := bind_ok_iff.mp h
    cases hglobals
    rw [stateful.ite_apply, if_pos (show eng.cli = true ∧ _ from heffective)] at h
    cases h
    rfl
  · obtain ⟨u, v, v₁, header, name, kind', q, m, hcore, hcreate, hparse, hbuilt, hrest, -⟩ :=
      start_tracer_ok h heffective
    have hblind : Blind eng (SameOn (World.exported : World φ → _)) := exported_blind
    have hu : u.core.exported = (w.reset eng).core.exported := by rw [hcore]
    have hv : v.exported = u.exported := by
      obtain ⟨v', p, hcreate', hp, rfl⟩ := Provider.createFirstSpan_ok hcreate
      have hv' : v'.exported = u.exported := hblind.spanwise.createSpan _ _ (.of_ok hcreate')
      exact hv'
    have hv₁ : v₁.exported = v.exported := hblind.parseTraceParent _ (.of_ok hparse)
    have hw' : w'.exported = v₁.exported :=
      hblind.built (fun _ _ => rfl) (fun _ _ _ => rfl) hbuilt hrest
    rw [hw', hv₁, hv]
    exact hu

/-- The end of a session exports its message, or nothing. -/
theorem shutdown_exported (h : shutdown_tracer eng w = .ok ((), w'))
    (heffective : ¬ Refuses eng w.globals) :
    w'.exported = w.exported ∨ ∃ payload, w'.exported = w.exported ++ [payload] := by
  obtain ⟨p, u, hp, rfl, hend⟩ := shutdown_tracer_ok h heffective
  cases hfirst : (p.slots (w.key eng)).firstSpan with
  | none =>
    rw [hfirst] at hend
    obtain rfl := hend
    exact .inl rfl
  | some first =>
    rw [hfirst] at hend
    obtain ⟨x, y, hok, hattach, hexported⟩ := finishSession_exports hend
    have hblind : Blind eng (SameOn (World.exported : World φ → _)) := exported_blind
    have hx : x.exported = w.exported := hblind.spanwise.okEnd _ (.of_ok hok)
    have hy : y.exported = x.exported := hblind.spanwise.attachResource (.of_ok hattach)
    rw [hy, hx] at hexported
    rcases hexported with hsame | ⟨payload, -, happended⟩
    · exact .inl hsame
    · exact .inr ⟨payload, happended⟩

/-- An event exports one message at most. -/
theorem exported_of_step {e : Event φ} (h : Step eng natives e w w') :
    w'.exported = w.exported ∨ ∃ payload, w'.exported = w.exported ++ [payload] := by
  cases e with
  | call c =>
    have hblind : Blind eng (SameOn (World.exported : World φ → _)) := exported_blind
    exact .inl (hblind.built (fun _ _ => rfl) (fun _ _ _ => rfl) (Move.built_call c) h)
  | surround s =>
    obtain ⟨_, h⟩ | h := h <;> cases h
    exact .inl rfl
  | reparent ppid =>
    obtain ⟨_, h⟩ | h := h <;> cases h
    exact .inl rfl
  | request_init =>
    obtain ⟨-, rfl⟩ | ⟨-, hstart⟩ := request_init_ends h
    · exact .inl rfl
    · exact .inl (start_exported hstart)
  | start_cli_tracer args =>
    obtain ⟨-, rfl⟩ | ⟨-, _, _, _, -, hstart⟩ := start_cli_tracer_ends (ends_ignore_iff.mp h)
    · exact .inl rfl
    · exact .inl (start_exported (w := w.withStarted) hstart)
  | request_shutdown =>
    obtain rfl | ⟨heffective, hshutdown⟩ := shutdown_of_step (.inl rfl) h
    · exact .inl rfl
    · exact shutdown_exported hshutdown heffective
  | shutdown_cli_tracer =>
    obtain rfl | ⟨heffective, hshutdown⟩ := shutdown_of_step (.inr rfl) h
    · exact .inl rfl
    · exact shutdown_exported hshutdown heffective

theorem exported_prefix {e : Event φ} (h : Step eng natives e w w') :
    w'.exported = w.exported ++ w'.exported.drop w.exported.length := by
  rcases exported_of_step h with hsame | ⟨payload, happended⟩
  · rw [hsame, List.drop_length, List.append_nil]
  · rw [happended, List.drop_left]

theorem module_init_exported {hostname ipv4 : Bytes}
    (h : opentelemetry_module_init eng hostname ipv4 w = .ok ((), w')) :
    w'.exported = w.exported := by
  have hinit : Keeps (SameOn (World.exported : World φ → _)) (init_consumers eng) :=
    init_consumers_keeps fun _ _ _ _ _ _ _ => rfl
  have hkeeps : Keeps (SameOn (World.exported : World φ → _))
      (opentelemetry_module_init eng hostname ipv4) :=
    .bind (.of_reads Op.reads_globals) fun _ => .ite (.of_reads (.pure _))
      (.bind (.of_reads .get) fun _ => .bind (.modify fun _ => rfl) fun _ =>
        .ite hinit (.of_reads (.pure _)))
  exact hkeeps (.of_ok h)

/-- The end of the module changes nothing of the process itself. -/
theorem module_shutdown_ok (h : opentelemetry_module_shutdown eng w = .ok ((), w')) :
    w'.exported = w.exported ∧ w'.globals = w.globals ∧ w'.pid = w.pid := by
  have hclean : Keeps (SameOn fun w : World φ => (w.exported, w.globals, w.pid))
      (clean_consumers : M φ Unit) :=
    .bind (.of_reads Op.reads_globals) fun _ => .modify fun _ => rfl
  have hkeeps : Keeps (SameOn fun w : World φ => (w.exported, w.globals, w.pid))
      (opentelemetry_module_shutdown eng) :=
    .bind (.of_reads Op.reads_globals) fun _ => .ite (.of_reads (.pure _))
      (.ite hclean (.of_reads (.pure _)))
  have hsame := hkeeps (.of_ok h)
  simpa only [SameOn, Prod.mk.injEq] using hsame

/-- The name that a process gives its queue. -/
def queueNameOf (pid : Nat) : Bytes := lit "opentelemetry_" ++ to_string pid

theorem c_str_queueNameOf (pid : Nat) : c_str (queueNameOf pid) ≠ [] := by
  have hplain : (0 : UInt8) ∉ lit "opentelemetry_" := by decide
  have hne : lit "opentelemetry_" ≠ [] := by decide
  rw [queueNameOf, c_str_append _ hplain]
  intro h
  exact hne (List.append_eq_nil_iff.mp h).1

/-- The queue is named after a process, and it has its name before it is created. -/
structure World.Named (w : World φ) : Prop where
  name (name : Bytes) : w.globals.message_queue_name = some name → ∃ pid, name = queueNameOf pid
  flag : w.globals.is_init_consumers = true → w.globals.message_queue_name.isSome

/-- The name that the queue of the process has or will get. -/
def World.ownName (w : World φ) : Bytes := w.globals.message_queue_name.getD (queueNameOf w.pid)

theorem World.Named.queueName_eq (hw : w.Named) : w.queueName = w.ownName := by
  cases hname : w.globals.message_queue_name with
  | none =>
    unfold World.queueName World.ownName
    rw [hname]
    rfl
  | some name =>
    obtain ⟨pid, rfl⟩ := hw.name name hname
    unfold World.queueName World.ownName
    rw [hname]
    dsimp only
    rw [if_neg (c_str_queueNameOf pid)]
    rfl

theorem World.ownName_of (hw : w.Named) : ∃ pid, w.ownName = queueNameOf pid := by
  cases hname : w.globals.message_queue_name with
  | none => exact ⟨w.pid, by rw [World.ownName, hname]; rfl⟩
  | some name =>
    obtain ⟨pid, rfl⟩ := hw.name name hname
    exact ⟨pid, by rw [World.ownName, hname]; rfl⟩

/-- An event leaves the name and the flag alone, or it sets the flag and keeps the name. -/
theorem name_of_step {e : Event φ} (hw : w.Named) (h : Step eng natives e w w') :
    w'.globals.message_queue_name = w.globals.message_queue_name ∧
        w'.globals.is_init_consumers = w.globals.is_init_consumers ∨
      w.globals.is_init_consumers = false ∧ w'.globals.is_init_consumers = true ∧
        w'.globals.message_queue_name = some w.ownName := by
  obtain hsame | ⟨hflag, nums, hattempted⟩ := pipeline_of_step h
  · exact .inl ⟨congrArg Pipeline.name hsame, congrArg Pipeline.initialised hsame⟩
  · rw [hw.queueName_eq] at hattempted
    exact .inr ⟨hflag, congrArg Pipeline.initialised hattempted, congrArg Pipeline.name hattempted⟩

theorem World.Named.step {e : Event φ} (hw : w.Named) (h : Step eng natives e w w') : w'.Named := by
  obtain ⟨hname, hflag⟩ | ⟨-, -, hname⟩ := name_of_step hw h
  · constructor
    · rw [hname]
      exact hw.name
    · rw [hname, hflag]
      exact hw.flag
  · constructor
    · intro name hsome
      rw [hname] at hsome
      obtain rfl := Option.some.inj hsome
      exact World.ownName_of hw
    · intro _
      rw [hname]
      rfl

/-- The start of the module does nothing, or it names the queue and, outside the CLI, makes the
first initialisation. -/
theorem module_init_ok {hostname ipv4 : Bytes} (hnew : w.globals.is_init_consumers = false)
    (h : opentelemetry_module_init eng hostname ipv4 w = .ok ((), w')) :
    w' = w ∧ (¬ w.globals.enable = true ∨ eng.cli = true ∧ ¬ w.globals.cli_enable = true) ∨
      w'.pid = w.pid ∧ w'.globals.message_queue_name = some (queueNameOf w.pid) ∧
        w'.globals.is_init_consumers = !eng.cli := by
  obtain ⟨g, _, hglobals, h⟩ := bind_ok_iff.mp h
  cases hglobals
  rw [stateful.ite_apply] at h
  split at h
  · rename_i hdisabled
    cases h
    exact .inl ⟨rfl, hdisabled⟩
  obtain ⟨_, u, hget, h⟩ := bind_ok_iff.mp h
  cases hget
  obtain ⟨⟨⟩, u, hnamed, h⟩ := bind_ok_iff.mp h
  have hu : u.globals.message_queue_name = some (queueNameOf w.pid) ∧
      u.globals.is_init_consumers = false ∧ u.pid = w.pid := by
    cases hnamed
    exact ⟨rfl, hnew, rfl⟩
  obtain ⟨hname, hflag, hpid⟩ := hu
  rw [stateful.ite_apply] at h
  refine .inr ?_
  split at h
  · rename_i hcli
    have hkeeps : Keeps (SameOn fun w : World φ => w.pid) (init_consumers eng) :=
      init_consumers_keeps fun _ _ _ _ _ _ _ => rfl
    have hpid' : w'.pid = u.pid := hkeeps (.of_ok h)
    obtain ⟨v, nums, hv, hpipeline⟩ := init_consumers_first eng hflag
    obtain rfl : v = w' := congrArg Prod.snd (Except.ok.inj (hv.symm.trans h))
    have hqueue : u.queueName = queueNameOf w.pid := by
      unfold World.queueName
      rw [hname]
      dsimp only
      rw [if_neg (c_str_queueNameOf w.pid)]
    refine ⟨hpid'.trans hpid, (congrArg Pipeline.name hpipeline).trans (congrArg some hqueue), ?_⟩
    rw [Bool.eq_false_of_not_eq_true hcli]
    exact congrArg Pipeline.initialised hpipeline
  · rename_i hcli
    cases h
    refine ⟨hpid, hname, hflag.trans ?_⟩
    rw [not_not.mp hcli]
    rfl

theorem module_init_named {hostname ipv4 : Bytes} (hnew : w.globals.is_init_consumers = false)
    (hname : w.globals.message_queue_name = none)
    (h : opentelemetry_module_init eng hostname ipv4 w = .ok ((), w')) : w'.Named := by
  obtain ⟨rfl, -⟩ | ⟨-, hnamed, -⟩ := module_init_ok hnew h
  · constructor
    · intro name hsome
      rw [hname] at hsome
      cases hsome
    · intro hflag
      rw [hnew] at hflag
      cases hflag
  · constructor
    · intro name hsome
      rw [hnamed] at hsome
      exact ⟨w.pid, (Option.some.inj hsome).symm⟩
    · intro _
      rw [hnamed]
      rfl

/-- The queue that a call is about. -/
def QueueCall.IsOf (name : Option Bytes) : QueueCall → Prop
  | .remove n | .open_or_create n | .consumer n => name = some n
  | .open_only n _ => n = name
  | .try_send _ _ => True

theorem isOf_initCalls {name : Bytes} {fails : Bool} {consumers : Nat} {call : QueueCall}
    (hcall : call ∈ initCalls name fails consumers) : call.IsOf (some name) := by
  unfold initCalls at hcall
  rcases List.mem_cons.mp hcall with rfl | hcall
  · rfl
  · cases fails with
    | true => cases hcall
    | false =>
      rcases List.mem_cons.mp hcall with rfl | hcall
      · rfl
      · rw [List.eq_of_mem_replicate hcall]
        rfl

/-- The calls that the code comes to are about its own queue. -/
theorem isOf_queueCalls {encode : Message → Bytes} {call : QueueCall}
    (hcall : call ∈ queueCalls encode w w') : call.IsOf w'.globals.message_queue_name := by
  unfold queueCalls at hcall
  rcases List.mem_append.mp hcall with hcall | hcall
  · split at hcall
    · cases hname : w'.globals.message_queue_name with
      | none =>
        rw [hname] at hcall
        cases hcall
      | some name =>
        rw [hname] at hcall
        exact isOf_initCalls hcall
    · cases hcall
  · obtain ⟨request, -, rfl⟩ := List.mem_map.mp hcall
    rfl

theorem isOf_shutdownCalls {g : Globals} {call : QueueCall} (hcall : call ∈ shutdownCalls eng g) :
    call.IsOf g.message_queue_name ∧ eng.cli = true ∧ g.message_queue_name.map .remove = some call := by
  unfold shutdownCalls at hcall
  split at hcall
  · cases hcall
  · split at hcall
    · rename_i hends
      cases hname : g.message_queue_name with
      | none =>
        rw [hname] at hcall
        cases hcall
      | some name =>
        rw [hname] at hcall
        obtain rfl := List.mem_singleton.mp hcall
        exact ⟨rfl, hends.2.1, rfl⟩
    · cases hcall

/-- Where the flag was set already, all that is called is to send. -/
theorem queueCalls_of_flag {encode : Message → Bytes} {call : QueueCall}
    (hflag : w.globals.is_init_consumers = true) (hcall : call ∈ queueCalls encode w w') :
    ∃ msg, call = .open_only w'.globals.message_queue_name msg := by
  rw [queueCalls, hflag, Bool.not_true, Bool.and_false, if_neg Bool.false_ne_true, List.nil_append]
    at hcall
  obtain ⟨request, -, rfl⟩ := List.mem_map.mp hcall
  exact ⟨_, rfl⟩

end opentelemetry
