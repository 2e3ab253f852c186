import OpentelemetryExt.Session.Phases

open stateful run

namespace opentelemetry

variable {φ : Type} {eng : Engine φ} {natives : CurlNatives φ} {u v w w' : World φ}

/-- What an initialisation of the consumers sets up, and the flag that says it was done. -/
structure Pipeline where
  initialised : Bool
  name : Option Bytes
  consumer_nums : Int
  queues : List Bytes
  consumers : Nat

def World.pipeline (w : World φ) : Pipeline :=
  ⟨w.globals.is_init_consumers, w.globals.message_queue_name, w.globals.consumer_nums, w.queues,
    w.consumers⟩

/-- The queue has been created and all consumers have been started. -/
def Pipeline.Up (p : Pipeline) : Prop :=
  ∃ name, p.name = some name ∧ name ∈ p.queues ∧ p.consumer_nums.toNat ≤ p.consumers

/-- The name that the next initialisation gives the queue. -/
def World.queueName (w : World φ) : Bytes :=
  match w.globals.message_queue_name with
  | some name => if c_str name = [] then lit "opentelemetry_" ++ to_string w.pid else name
  | none => lit "opentelemetry_" ++ to_string w.pid

/-- The pipeline after the first initialisation. The queue of the same name is removed first. -/
def Pipeline.attempted (p : Pipeline) (name : Bytes) (nums : Int) (fails : Bool) : Pipeline where
  initialised := true
  name := some name
  consumer_nums := nums
  queues :=
    if fails then p.queues.filter fun q => some q ≠ some name
    else (p.queues.filter fun q => some q ≠ some name) ++ [name]
  consumers := if fails then p.consumers else p.consumers + nums.toNat

theorem init_consumers_done (h : w.globals.is_init_consumers = true) :
    init_consumers eng w = .ok ((), w) := by
  simp only [init_consumers, bind_apply, globals_apply, ok_bind, ite_apply, h, if_true, pure_apply]

theorem init_consumers_first (eng : Engine φ) (h : w.globals.is_init_consumers = false) :
    ∃ w' nums, init_consumers eng w = .ok ((), w') ∧
      w'.pipeline = w.pipeline.attempted w.queueName nums (w.queueFails 0) := by
  cases hcli : eng.cli <;> cases hfails : w.queueFails 0 <;>
    simp only [init_consumers, bind_apply, globals_apply, ok_bind, ite_apply, h, hcli, hfails,
      Bool.false_eq_true, if_false, if_true, get_apply, clean_consumers, modifyGlobals, modify_apply]
  all_goals exact ⟨_, _, rfl, rfl⟩

/-- A successful attempt has the queue and the consumers, a failed one is without the queue. -/
theorem Pipeline.attempted_up_iff (p : Pipeline) (name : Bytes) (nums : Int) (fails : Bool) :
    (p.attempted name nums fails).Up ↔ fails = false := by
  cases fails with
  | false =>
    refine iff_of_true ⟨name, rfl, ?_, ?_⟩ rfl
    · simp [attempted]
    · simp only [attempted, Bool.false_eq_true, if_false]
      omega
  | true =>
    refine iff_of_false ?_ Bool.noConfusion
    rintro ⟨name', hname, hqueue, -⟩
    obtain rfl : name = name' := Option.some.inj hname
    simp [attempted] at hqueue

/-- What concerns the consumers: an initialisation, with whether the creation of the queue is
tried and fails, or anything else that the process does. -/
inductive ConsumerEvent where
  | init (fails : Bool)
  | other
deriving DecidableEq, Repr

/-- Everything but an initialisation leaves the pipeline alone, once the flag is up. -/
def Establishes (eng : Engine φ) : ConsumerEvent → World φ → World φ → Prop
  | .init fails, w, w' => init_consumers eng w = .ok ((), w') ∧
      fails = (!w.globals.is_init_consumers && w.queueFails 0)
  | .other, w, w' => w'.globals.is_init_consumers = w.globals.is_init_consumers ∧
      (w.globals.is_init_consumers = true → w'.pipeline = w.pipeline)

/-- The flag is up only with the pipeline, and down after an initialisation that has failed. -/
structure UpOrRetried (log : List ConsumerEvent) (w : World φ) : Prop where
  up : w.globals.is_init_consumers = true → w.pipeline.Up
  retried : log.getLast? = some (.init true) → w.globals.is_init_consumers = false

/-- What is kept: until the first initialisation there has been no failure, and from then on
the pipeline is up or there has been one. -/
structure Tried (log : List ConsumerEvent) (w : World φ) : Prop where
  before : w.globals.is_init_consumers = false → ConsumerEvent.init true ∉ log
  after : w.globals.is_init_consumers = true →
    (w.pipeline.Up ↔ ConsumerEvent.init true ∉ log)

theorem Tried.of_same {log : List ConsumerEvent} {l : ConsumerEvent} (hw : Tried log w)
    (hl : l ≠ .init true) (hflag : w'.globals.is_init_consumers = w.globals.is_init_consumers)
    (hsame : w.globals.is_init_consumers = true → w'.pipeline = w.pipeline) :
    Tried (log ++ [l]) w' := by
  have hmem : ConsumerEvent.init true ∈ log ++ [l] ↔ ConsumerEvent.init true ∈ log := by
    rw [List.mem_append, List.mem_singleton]
    constructor
    · exact fun h => h.resolve_right (Ne.symm hl)
    · exact .inl
  constructor
  · rw [hflag, hmem]
    exact hw.before
  · rw [hflag, hmem]
    intro hset
    rw [hsame hset]
    exact hw.after hset

theorem tried_step {log : List ConsumerEvent} {l : ConsumerEvent} (hw : Tried log w)
    (h : Establishes eng l w w') : Tried (log ++ [l]) w' := by
  cases l with
  | other => exact hw.of_same (by simp) h.1 h.2
  | init fails =>
    obtain ⟨hinit, hfails⟩ := h
    cases hflag : w.globals.is_init_consumers with
    | true =>
      rw [init_consumers_done hflag] at hinit
      cases hinit
      rw [hflag] at hfails
      exact hw.of_same (by simp [hfails]) rfl fun _ => rfl
    | false =>
      obtain ⟨v, nums, hv, hpipeline⟩ := init_consumers_first eng hflag
      obtain rfl : v = w' := congrArg Prod.snd (Except.ok.inj (hv.symm.trans hinit))
      have hset : v.globals.is_init_consumers = true := congrArg Pipeline.initialised hpipeline
      obtain rfl : fails = w.queueFails 0 := by simpa [hflag] using hfails
      constructor
      · rw [hset]
        exact Bool.noConfusion
      · intro _
        rw [hpipeline, Pipeline.attempted_up_iff]
        have hnone := hw.before hflag
        cases w.queueFails 0 <;> simp [hnone]

theorem tried_run {log : List ConsumerEvent} (hinit : w.globals.is_init_consumers = false)
    (hrun : Run (Establishes eng) w log v) : Tried log v := by
  induction hrun with
  | nil =>
    refine ⟨fun _ => by simp, fun hset => ?_⟩
    rw [hinit] at hset
    cases hset
  | snoc _ hlast ih => exact tried_step ih hlast

theorem pipeline_blind : Blind eng (SameOn (World.pipeline : World φ → _)) where
  memory _ _ := rfl
  clock _ := rfl
  uuids _ _ := rfl
  slot _ _ _ := rfl

theorem createFirstSpan_pipeline (name : Bytes) (kind : SpanKind) :
    Keeps (SameOn World.pipeline) (Provider.createFirstSpan eng name kind) := by
  refine .bind (pipeline_blind.spanwise.createSpan _ _) fun _ => .bind ?_ fun _ => .of_reads (.pure _)
  intro w w' hends
  obtain ⟨p, hp, rfl⟩ := modifySlot_ends hends
  rfl

theorem startSpan_pipeline {header name : Bytes} {kind : SpanKind} {m : Nat → M φ Unit}
    (hm : ∀ span, Built (Move eng .none) (m span)) :
    Keeps (SameOn World.pipeline) (do
      let span ← Provider.createFirstSpan eng name kind
      Provider.parseTraceParent eng header
      m span : M φ Unit) := by
  refine .bind (createFirstSpan_pipeline _ _) fun span =>
    .bind (pipeline_blind.parseTraceParent _) fun _ => ?_
  exact pipeline_blind.built (fun _ _ => rfl) (fun _ _ _ => rfl) (hm span)

/-- A start initialises the consumers and then leaves the pipeline alone. -/
theorem start_tracer_pipeline {traceparent tracebaggage : Bytes} {kind : SpanKind}
    (h : start_tracer eng traceparent tracebaggage kind w = .ok ((), w')) :
    w' = w ∨ ∃ u, init_consumers eng w = .ok ((), u) ∧ w'.pipeline = u.pipeline := by
  obtain ⟨g, _, hglobals, h⟩ := bind_ok_iff.mp h
  cases hglobals
  rw [stateful.ite_apply] at h
  split at h
  · cases h
    exact .inl rfl
  obtain ⟨⟨⟩, u, hinit, h⟩ := bind_ok_iff.mp h
  obtain ⟨⟨⟩, _, hreset, h⟩ := bind_ok_iff.mp h
  obtain rfl := resetProvider_ok hreset
  obtain ⟨⟨⟩, v, hservice, h⟩ := bind_ok_iff.mp h
  refine .inr ⟨u, hinit, ?_⟩
  have hname : Keeps (SameOn World.pipeline) (serviceNameFromServer eng : M φ Unit) :=
    .bind (.of_reads Op.reads_globals) fun _ => .ite
      (.bind (.of_reads (Op.reads_find_server_string _)) fun _ =>
        .ite (.modify fun _ => rfl) (.of_reads (.pure _)))
      (.of_reads (.pure _))
  have hv : v.pipeline = (u.reset eng).pipeline := hname (.of_ok hservice)
  have hu : (u.reset eng).pipeline = u.pipeline := rfl
  rw [← hu, ← hv]
  split at h
  · have hspan : Keeps (SameOn World.pipeline) (startCliSpan eng traceparent tracebaggage kind) := by
      refine .bind (.of_reads (Op.reads_find_server_string _)) fun _ =>
        .bind (.of_reads (Op.reads_find_server_zval _)) fun _ =>
          .bind (.of_reads (.lift _)) fun _ => startSpan_pipeline fun _ => ?_
      exact .bind (Move.built_parseBaggage _) fun _ => .bind (Move.built_addAttribute _ _) fun _ =>
        .bind (.reads (Op.reads_json_encode _)) fun _ => .bind (Move.built_addAttribute _ _) fun _ =>
          .bind (.reads .get) fun _ => Move.built_addAttribute _ _
    exact hspan (.of_ok h)
  · have hspan : Keeps (SameOn World.pipeline) (startRequestSpan eng kind) := by
      refine .bind (.of_reads (Op.reads_find_server_string _)) fun _ =>
        .bind (.of_reads (Op.reads_find_server_string _)) fun _ =>
          .bind (.of_reads (Op.reads_find_server_string _)) fun _ => startSpan_pipeline fun _ => ?_
      exact .bind (Move.built_parseBaggage _) fun _ => Move.built_requestAttributes _ _
    exact hspan (.of_ok h)

theorem shutdown_tracer_pipeline (h : shutdown_tracer eng w = .ok ((), w'))
    (heffective : ¬ Refuses eng w.globals) : w'.pipeline = w.pipeline := by
  obtain ⟨p, u, hp, rfl, hend⟩ := shutdown_tracer_ok h heffective
  change u.pipeline = w.pipeline
  cases hfirst : (p.slots (w.key eng)).firstSpan with
  | none =>
    rw [hfirst] at hend
    rw [hend]
  | some first =>
    rw [hfirst] at hend
    obtain ⟨v, q, hrelated, -, -, rfl⟩ :=
      finishSession_ok pipeline_blind.spanwise (fun _ _ => rfl) hend
    have hv : v.pipeline = w.pipeline := hrelated
    rw [← hv]
    split <;> rfl

/-- A pipeline that did not change is a run of other things. -/
theorem establishes_other (h : w'.pipeline = w.pipeline) :
    ∃ log, Run (Establishes eng) w log w' := by
  have hflag : w'.globals.is_init_consumers = w.globals.is_init_consumers :=
    congrArg Pipeline.initialised h
  exact ⟨[.other], Run.nil.snoc (And.intro hflag fun _ => h)⟩

theorem establishes_init (hinit : init_consumers eng w = .ok ((), u))
    (h : w'.pipeline = u.pipeline) : ∃ log, Run (Establishes eng) w log w' := by
  have hflag : w'.globals.is_init_consumers = u.globals.is_init_consumers :=
    congrArg Pipeline.initialised h
  exact ⟨[.init _, .other], (Run.nil.snoc (And.intro hinit rfl)).snoc (And.intro hflag fun _ => h)⟩

/-- Every event of the process is made of initialisations and of what leaves the pipeline alone. -/
theorem establishes_of_step {e : Event φ} (h : Step eng natives e w w') :
    ∃ log, Run (Establishes eng) w log w' := by
  have hstart {u : World φ} {traceparent tracebaggage : Bytes} {kind : SpanKind}
      (hu : u.pipeline = w.pipeline)
      (hstart : start_tracer eng traceparent tracebaggage kind u = .ok ((), w')) :
      ∃ log, Run (Establishes eng) w log w' := by
    obtain ⟨log, hlog⟩ : ∃ log, Run (Establishes eng) u log w' := by
      obtain rfl | ⟨v, hinit, hv⟩ := start_tracer_pipeline hstart
      · exact establishes_other rfl
      · exact establishes_init hinit hv
    have hflag : u.globals.is_init_consumers = w.globals.is_init_consumers :=
      congrArg Pipeline.initialised hu
    exact ⟨.other :: log, hlog.cons (And.intro hflag fun _ => hu)⟩
  cases e with
  | call c =>
    have hsame : w'.pipeline = w.pipeline :=
      pipeline_blind.built (fun _ _ => rfl) (fun _ _ _ => rfl) (Move.built_call c) h
    exact establishes_other hsame
  | surround s =>
    obtain ⟨_, h⟩ | h := h <;> cases h
    exact establishes_other rfl
  | reparent ppid =>
    obtain ⟨_, h⟩ | h := h <;> cases h
    exact establishes_other rfl
  | request_init =>
    obtain ⟨-, rfl⟩ | ⟨-, hrequest⟩ := request_init_ends h
    · exact establishes_other rfl
    · exact hstart rfl hrequest
  | request_shutdown =>
    obtain ⟨-, rfl⟩ | ⟨hserves, hshutdown⟩ := request_shutdown_ends h
    · exact establishes_other rfl
    · exact establishes_other (shutdown_tracer_pipeline hshutdown hserves.not_refuses)
  | start_cli_tracer args =>
    obtain ⟨-, rfl⟩ | ⟨-, _, _, _, -, hcli⟩ := start_cli_tracer_ends (ends_ignore_iff.mp h)
    · exact establishes_other rfl
    · exact hstart (u := w.withStarted) rfl hcli
  | shutdown_cli_tracer =>
    obtain ⟨-, rfl⟩ | ⟨hoffers, hshutdown⟩ := shutdown_cli_tracer_ends (ends_ignore_iff.mp h)
    · exact establishes_other rfl
    · exact establishes_other (shutdown_tracer_pipeline hshutdown hoffers.not_refuses)

/-- So is the start of the module, which names the queue before the flag can be up. -/
theorem establishes_of_module_init {hostname ipv4 : Bytes}
    (hinit : w.globals.is_init_consumers = false)
    (h : opentelemetry_module_init eng hostname ipv4 w = .ok ((), w')) :
    ∃ log, Run (Establishes eng) w log w' := by
  obtain ⟨g, _, hglobals, h⟩ := bind_ok_iff.mp h
  cases hglobals
  rw [stateful.ite_apply] at h
  split at h
  · cases h
    exact establishes_other rfl
  obtain ⟨_, u, hget, h⟩ := bind_ok_iff.mp h
  cases hget
  obtain ⟨⟨⟩, u, hnamed, h⟩ := bind_ok_iff.mp h
  have hother : Establishes eng .other w u := by
    cases hnamed
    exact And.intro rfl fun hset => by rw [hinit] at hset; cases hset
  rw [stateful.ite_apply] at h
  split at h
  · exact ⟨[.other, .init _], (Run.nil.snoc hother).snoc (And.intro h rfl)⟩
  · cases h
    exact ⟨[.other], Run.nil.snoc hother⟩

/-- The life of a process: its module starts, and then events come in any order. -/
theorem establishes_life {hostname ipv4 : Bytes} {es : List (Event φ)}
    (hinit : w.globals.is_init_consumers = false)
    (hmodule : opentelemetry_module_init eng hostname ipv4 w = .ok ((), u))
    (hrun : Run (Step eng natives) u es v) : ∃ log, Run (Establishes eng) w log v := by
  induction hrun with
  | nil => exact establishes_of_module_init hinit hmodule
  | snoc _ hlast ih =>
    obtain ⟨log, hlog⟩ := ih
    obtain ⟨log', hlog'⟩ := establishes_of_step hlast
    exact ⟨log ++ log', hlog.append hlog'⟩

/-- After every run of initialisations, with anything in between, the pipeline is up or its
initialisation will be tried again if and only if the creation of the queue has never failed. -/
theorem up_or_retried_iff {log : List ConsumerEvent}
    (hinit : w.globals.is_init_consumers = false) (hrun : Run (Establishes eng) w log v) :
    UpOrRetried log v ↔ ConsumerEvent.init true ∉ log := by
  have htried := tried_run hinit hrun
  constructor
  · intro h
    cases hflag : v.globals.is_init_consumers with
    | false => exact htried.before hflag
    | true => exact (htried.after hflag).mp (h.up hflag)
  · intro hnone
    refine ⟨fun hset => (htried.after hset).mpr hnone, fun hlast => ?_⟩
    exact absurd (List.mem_of_getLast? hlast) hnone

/-- A worker whose second initialisation finds the first one done. -/
theorem up_or_retried_twice : ∃ v,
    Run (Establishes (.bare false)) (World.fresh ()) [.init false, .init false] v ∧
      (UpOrRetried [.init false, .init false] v ↔
        ConsumerEvent.init true ∉ [ConsumerEvent.init false, .init false]) := by
  have hrun : Run (Establishes (.bare false)) (World.fresh ()) [.init false, .init false] _ :=
    (Run.nil.snoc (And.intro rfl rfl)).snoc (And.intro rfl rfl)
  exact ⟨_, hrun, up_or_retried_iff rfl hrun⟩

/-- The one attempt fails, and the flag is up. -/
theorem not_up_or_retried_failed : ∃ v,
    Run (Establishes (.bare false)) { World.fresh () with queueFails := fun _ => true }
      [.init true] v ∧ v.globals.is_init_consumers = true ∧ ¬ UpOrRetried [.init true] v := by
  refine ⟨_, Run.nil.snoc (And.intro rfl rfl), rfl, fun h => ?_⟩
  cases h.retried rfl

end opentelemetry
