import OpentelemetryExt.Provider.Views

open stateful

namespace opentelemetry

variable {φ : Type} {eng : Engine φ} 

namespace Direct

theorem globals : Direct (globals : M φ Globals) := .bind .get fun _ => .pure _

theorem provider : Direct (provider : M φ Provider) := .bind globals fun _ => .lift _

theorem is_has_provider : Direct (is_has_provider : M φ Bool) := .bind globals fun _ => .pure _

theorem slot : Direct (slot eng) :=
  .bind provider fun _ => .bind (.bind .get fun _ => .pure _) fun _ => .pure _

theorem modifySlot (f : Slot → Slot) : Direct (modifySlot eng f) :=
  .bind provider fun _ => .bind (.bind .get fun _ => .pure _) fun _ => .modify _

theorem readSpan (span : Nat) : Direct (readSpan span : M φ Span) := .bind .get fun _ => .lift _

theorem modifySpan (span : Nat) (f : Span → Span) : Direct (modifySpan span f : M φ Unit) :=
  .bind (readSpan _) fun _ => .modify _

theorem get_unix_nanoseconds : Direct (get_unix_nanoseconds : M φ UInt64) :=
  .bind .get fun _ => .bind (.set _) fun _ => .pure _

theorem generate_uuid : Direct (generate_uuid : M φ Bytes) :=
  .bind .get fun _ => .bind (.set _) fun _ => .pure _

theorem firstOneSpan : Direct (Provider.firstOneSpan eng) := .bind slot fun _ => .pure _

theorem getResource : Direct (Provider.getResource eng) := .bind slot fun _ => .pure _

theorem getTracer : Direct (Provider.getTracer eng) := by
  refine .bind slot fun s => ?_
  split
  · exact .lift _
  · exact .bind .get fun _ => .bind (.modify _) fun _ => .bind (modifySlot _) fun _ => .pure _

theorem traceIdFor (first : Option Nat) : Direct (Provider.traceIdFor first : M φ Bytes) := by
  cases first with
  | none => exact generate_uuid
  | some f => exact .bind (readSpan _) fun _ => .pure _

theorem createSpan (name : Bytes) (kind : SpanKind) :
    Direct (Provider.createSpan eng name kind) := by
  refine .bind getTracer fun _ => .bind firstOneSpan fun _ => .bind (traceIdFor _) fun _ =>
    .bind generate_uuid fun _ => .bind get_unix_nanoseconds fun _ => ?_
  exact .bind .get fun _ => .bind (.lift _) fun _ => .bind (.modify _) fun _ => .pure _

theorem createFirstSpan (name : Bytes) (kind : SpanKind) :
    Direct (Provider.createFirstSpan eng name kind) :=
  .bind (createSpan _ _) fun _ => .bind (modifySlot _) fun _ => .pure _

theorem createChildSpan (name : Bytes) (kind : SpanKind) :
    Direct (Provider.createChildSpan eng name kind) :=
  .bind (.bind firstOneSpan fun _ => .bind (.lift _) fun _ => readSpan _) fun _ =>
    .bind (createSpan _ _) fun _ => .bind (modifySpan _ _) fun _ => .pure _

theorem isSampled : Direct (Provider.isSampled eng) := by
  refine .bind slot fun s => .ite (.pure _) ?_
  exact .bind (.lift _) fun _ => .bind (readSpan _) fun _ => .bind get_unix_nanoseconds fun _ =>
    .bind globals fun _ => .pure _

theorem addAttribute (span : Nat) (kv : KeyValue) : Direct (addAttribute span kv : M φ Unit) :=
  modifySpan _ _

theorem setRedisException (message : Bytes) : Direct (Provider.setRedisException eng message) :=
  modifySlot _

theorem errorEnd (span : Nat) (message : Bytes) : Direct (Provider.errorEnd eng span message) :=
  .bind get_unix_nanoseconds fun _ => .bind (modifySpan _ _) fun _ => modifySlot _

theorem clean : Direct (Provider.clean eng) := by
  refine .bind slot fun s => ?_
  dsimp only
  split
  · exact .bind (.bind .get fun _ => .bind (.lift _) fun _ => .modify _) fun _ =>
      .bind (modifySlot _) fun _ => .ite (modifySlot _) (.pure _)
  · exact .ite (modifySlot _) (.pure _)

theorem parseTraceParent (header : Bytes) : Direct (Provider.parseTraceParent eng header) := by
  unfold Provider.parseTraceParent
  split
  · split
    · exact .bind .get fun _ => .bind firstOneSpan fun _ => .bind (.lift _) fun _ =>
        .bind (.lift _) fun _ => .bind (modifySpan _ _) fun _ => .bind (.lift _) fun _ =>
          .bind (modifySpan _ _) fun _ => modifySlot _
    · exact .pure _
  · refine .bind globals fun g => .ite (modifySlot _) ?_
    exact .bind (.bind provider fun _ => .pure _) fun _ => .bind (.lift _) fun _ =>
      .ite (modifySlot _) (.ite (modifySlot _) (.pure _))

theorem addBaggage (key value : Bytes) : Direct (Provider.addBaggage eng key value) :=
  .bind (modifySlot _) fun _ => .bind getResource fun _ => .bind (.lift _) fun _ =>
    .bind .get fun _ => .bind (.lift _) fun _ => .modify _

theorem parseBaggage (header : Bytes) : Direct (Provider.parseBaggage eng header) := by
  refine .ite (.forM fun item => ?_) (.pure _)
  split
  · exact addBaggage _ _
  · exact .pure _

theorem find_server_string (key : Bytes) : Direct (find_server_string key : M φ Bytes) := by
  refine .bind .get fun w => ?_
  cases w.server key with
  | some value => exact .lift _
  | none => exact .pure _

theorem json_encode (value : Zval) : Direct (opentelemetry_json_encode eng value) :=
  .bind .get fun _ => .pure _

theorem init_consumers : Direct (init_consumers eng) := by
  refine .bind globals fun g => .ite (.pure _) (.bind .get fun w => .bind (.modify _) fun _ =>
    .bind (.bind globals fun _ => .modify _) fun _ => .bind (.modify _) fun _ => .ite ?_ ?_)
  · exact .bind (.modify _) fun _ => .bind globals fun _ => .bind (.modify _) fun _ =>
      .ite (.pure _) (.modify _)
  · exact .bind globals fun _ => .bind (.modify _) fun _ => .ite (.pure _) (.modify _)

theorem resetProvider : Direct (resetProvider eng) :=
  .bind (.bind is_has_provider fun _ => .ite (.modify _) (.pure _)) fun _ => .bind clean fun _ =>
    .bind (.bind provider fun _ => .modify _) fun _ => .modify _

theorem serviceNameFromServer : Direct (serviceNameFromServer eng : M φ Unit) := by
  refine .bind globals fun g => .ite (.bind (find_server_string _) fun _ => ?_) (.pure _)
  exact .ite (.modify _) (.pure _)

theorem startCliSpan (traceparent tracebaggage : Bytes) (kind : SpanKind) :
    Direct (startCliSpan eng traceparent tracebaggage kind) :=
  .bind (find_server_string _) fun _ => .bind (.bind .get fun _ => .pure _) fun _ =>
    .bind (.lift _) fun _ => .bind (createFirstSpan _ _) fun _ => .bind (parseTraceParent _) fun _ =>
      .bind (parseBaggage _) fun _ => .bind (addAttribute _ _) fun _ =>
        .bind (json_encode _) fun _ => .bind (addAttribute _ _) fun _ =>
          .bind .get fun _ => addAttribute _ _

theorem postAttribute (span : Nat) (request_method : Bytes) :
    Direct (postAttribute eng span request_method) := by
  refine .ite (.bind .get fun w => ?_) (.pure _)
  split
  · exact .bind (json_encode _) fun _ => addAttribute _ _
  · exact .pure _

theorem requestAttributes (span : Nat) (request_uri : Bytes) :
    Direct (requestAttributes eng span request_uri) :=
  .bind (find_server_string _) fun _ => .bind (find_server_string _) fun _ =>
    .bind (find_server_string _) fun _ => .bind (find_server_string _) fun _ =>
      .bind (find_server_string _) fun _ => .bind (find_server_string _) fun _ =>
        .bind (addAttribute _ _) fun _ => .bind (postAttribute _ _) fun _ =>
          .bind (addAttribute _ _) fun _ => .bind (addAttribute _ _) fun _ =>
            .bind (addAttribute _ _) fun _ => .bind (addAttribute _ _) fun _ =>
              .bind globals fun _ => .bind (addAttribute _ _) fun _ => addAttribute _ _

theorem startRequestSpan (kind : SpanKind) : Direct (startRequestSpan eng kind) :=
  .bind (find_server_string _) fun _ => .bind (find_server_string _) fun _ =>
    .bind (find_server_string _) fun _ => .bind (createFirstSpan _ _) fun _ =>
      .bind (parseTraceParent _) fun _ => .bind (parseBaggage _) fun _ => requestAttributes _ _

theorem start_tracer (traceparent tracebaggage : Bytes) (kind : SpanKind) :
    Direct (start_tracer eng traceparent tracebaggage kind) := by
  refine .bind globals fun g => .ite (.pure _) (.bind init_consumers fun _ =>
    .bind resetProvider fun _ => .bind serviceNameFromServer fun _ => ?_)
  exact .ite (startCliSpan _ _ _) (startRequestSpan _)

theorem okEnd (span : Nat) : Direct (Provider.okEnd span : M φ Unit) :=
  .bind (modifySpan _ _) fun _ => .bind get_unix_nanoseconds fun _ => modifySpan _ _

theorem attachResource : Direct (attachResource eng) :=
  .bind getTracer fun _ => .bind getResource fun _ => .bind .get fun _ =>
    .bind (.lift _) fun _ => .modify _

theorem exporter : Direct (exporterOpenTelemetry eng) :=
  .bind (.bind slot fun _ => .pure _) fun _ => .bind (.lift _) fun _ => .bind .get fun _ =>
    .bind (.lift _) fun _ => .modify _

theorem finishSession (first : Nat) : Direct (finishSession eng first) :=
  .bind (okEnd _) fun _ => .bind attachResource fun _ =>
    .bind (.bind globals fun _ => .ite (.bind isSampled fun _ => .ite exporter (.pure _)) (.pure _))
      fun _ => .bind clean fun _ => .ite (.modify _) (.pure _)

theorem shutdown_tracer : Direct (shutdown_tracer eng) := by
  refine .bind globals fun g => .ite (.modify _) (.bind firstOneSpan fun first => ?_)
  cases first with
  | none => exact .modify _
  | some first => exact .bind (finishSession _) fun _ => .modify _

end Direct

theorem Effect.built_requestAttributes {d : Details} {g : Grants} (span : Nat) (request_uri : Bytes) :
    Built (Effect eng d g) (requestAttributes eng span request_uri) := by
  have hserver (key : Bytes) : Built (Effect eng d g) (find_server_string key : M φ Bytes) :=
    .reads (Op.reads_find_server_string key)
  have hadd (kv : KeyValue) : Built (Effect eng d g) (addAttribute span kv) := built_addAttribute span kv
  have hpost (method : Bytes) : Built (Effect eng d g) (postAttribute eng span method) := by
    refine .ite (.bind (.reads .get) fun w => ?_) (.pure _)
    split
    · exact .bind (.reads (Op.reads_json_encode _)) fun _ => hadd _
    · exact .pure _
  exact .bind (hserver _) fun _ => .bind (hserver _) fun _ => .bind (hserver _) fun _ =>
    .bind (hserver _) fun _ => .bind (hserver _) fun _ => .bind (hserver _) fun _ =>
      .bind (hadd _) fun _ => .bind (hpost _) fun _ => .bind (hadd _) fun _ =>
        .bind (hadd _) fun _ => .bind (hadd _) fun _ => .bind (hadd _) fun _ =>
          .bind (.reads Op.reads_globals) fun _ => .bind (hadd _) fun _ => hadd _

theorem Move.built_requestAttributes {g : Grants} (span : Nat) (request_uri : Bytes) :
    Built (Move eng g) (requestAttributes eng span request_uri) :=
  Effect.built_move (Effect.built_requestAttributes (d := .none) _ _)

variable {u v w w' : World φ}

/-- The state without what the consumers and the service name are kept in. -/
def World.core (w : World φ) : World φ :=
  { w with
    globals := { w.globals with
      message_queue_name := none, is_init_consumers := false, consumer_nums := 0
      service_name := [] }
    queueFails := fun _ => false, queues := [], consumers := 0 }

theorem init_consumers_keeps {R : World φ → World φ → Prop} [Std.Refl R] [IsTrans (World φ) R]
    (h : ∀ (w : World φ) (name : Option Bytes) (init : Bool) (nums : Int) (fails : Nat → Bool)
      (queues : List Bytes) (consumers : Nat), R w { w with
        globals := { w.globals with
          message_queue_name := name, is_init_consumers := init, consumer_nums := nums }
        queueFails := fails, queues := queues, consumers := consumers }) :
    Keeps R (init_consumers eng) := by
  have hglobals : Keeps R (globals : M φ Globals) := .of_reads Op.reads_globals
  have hfails (w : World φ) : R w { w with queueFails := fun n => w.queueFails (n + 1) } :=
    h w _ _ _ _ _ _
  have hcreated (name : Bytes) (nums : Int) (w : World φ) :
      R w { w with queues := w.queues ++ [name], consumers := w.consumers + nums.toNat } :=
    h w _ _ _ _ _ _
  refine .bind hglobals fun g => .ite (.of_reads (.pure _)) (.bind (.of_reads .get) fun w =>
    .bind (.modify fun w => h w _ _ _ _ _ _) fun _ => .bind (.bind hglobals fun _ =>
      .modify fun w => h w _ _ _ _ _ _) fun _ => .bind (.modify fun w => h w _ _ _ _ _ _)
        fun _ => .ite ?_ ?_)
  · exact .bind (.modify fun w => h w _ _ _ _ _ _) fun _ => .bind hglobals fun _ =>
      .bind (.modify hfails) fun _ => .ite (.of_reads (.pure _)) (.modify (hcreated _ _))
  · exact .bind hglobals fun _ => .bind (.modify hfails) fun _ =>
      .ite (.of_reads (.pure _)) (.modify (hcreated _ _))

theorem init_consumers_core : Keeps (SameOn World.core) (init_consumers eng) :=
  init_consumers_keeps fun _ _ _ _ _ _ _ => rfl

theorem serviceName_core : Keeps (SameOn World.core) (serviceNameFromServer eng : M φ Unit) :=
  .bind (.of_reads Op.reads_globals) fun _ => .ite
    (.bind (.of_reads (Op.reads_find_server_string _)) fun _ =>
      .ite (.modify fun _ => rfl) (.of_reads (.pure _)))
    (.of_reads (.pure _))

/-- The world after `resetProvider`. -/
def World.reset (eng : Engine φ) (w : World φ) : World φ :=
  let p := w.globals.provider.getD {}
  let s := (p.slots (w.key eng)).cleaned eng.cli
  let u := (w.cleaned eng p).withProvider
    { p.set (w.key eng) s with counter := Provider.nextCount p.counter }
  { u with globals := { u.globals with curl_header := some [] } }

theorem ensureProvider_ok (h : ensureProvider w = .ok ((), w')) :
    w' = w.withProvider (w.globals.provider.getD {}) := by
  simp only [ensureProvider, is_has_provider, bind_apply, globals_apply, ok_bind, pure_apply] at h
  cases hp : w.globals.provider with
  | none =>
    rw [hp] at h
    cases h
    rfl
  | some p =>
    rw [hp] at h
    cases h
    exact (World.withProvider_self hp).symm

theorem resetProvider_ok (h : resetProvider eng w = .ok ((), w')) : w' = w.reset eng := by
  obtain ⟨⟨⟩, u, hensure, hrest⟩ := bind_ok_iff.mp h
  obtain rfl := ensureProvider_ok hensure
  obtain ⟨⟨⟩, u, hclean, hincrease⟩ := bind_ok_iff.mp hrest
  obtain ⟨p, hp, rfl⟩ := Provider.clean_ok hclean
  cases hp
  obtain ⟨⟨⟩, u, hcount, hheaders⟩ := bind_ok_iff.mp hincrease
  rw [Provider.increase_of_some rfl] at hcount
  cases hcount
  cases hheaders
  rfl

theorem reset_core (h : u.core = w.core) : (u.reset eng).core = (w.reset eng).core := by
  have hself (v : World φ) : (v.reset eng).core = (v.core.reset eng).core := rfl
  rw [hself u, hself w, h]

/-- A start is turned away. -/
def Refuses (eng : Engine φ) (g : Globals) : Prop :=
  eng.cli = true ∧ (¬ g.cli_enable = true ∨ ¬ g.is_started_cli_tracer = true)

instance (g : Globals) : Decidable (Refuses eng g) := inferInstanceAs (Decidable (_ ∧ _))

/-- The stages of a start that is not turned away. After the parse nothing is done that
hooks could not do. -/
theorem start_tracer_effects {traceparent tracebaggage : Bytes} {kind : SpanKind}
    (h : start_tracer eng traceparent tracebaggage kind w = .ok ((), w'))
    (heffective : ¬ Refuses eng w.globals) :
    ∃ (u v v₁ : World φ) (header name : Bytes) (kind' : SpanKind) (q : Nat) (m : M φ Unit),
      u.core = (w.reset eng).core ∧ Provider.createFirstSpan eng name kind' u = .ok (q, v) ∧
      Provider.parseTraceParent eng header v = .ok ((), v₁) ∧ Built (Effect eng .none .none) m ∧ Ends m v₁ w' ∧
      (eng.cli = true → header = traceparent) ∧
      (eng.cli = false → find_server_string (lit "HTTP_TRACEPARENT") u = .ok (header, u)) ∧
      ∃ u₀ : World φ, u₀.globals.service_name = w.globals.service_name ∧
        serviceNameFromServer eng u₀ = .ok ((), u) := by
  obtain ⟨g, _, hglobals, h⟩ := bind_ok_iff.mp h
  cases hglobals
  rw [stateful.ite_apply, if_neg (show ¬ (eng.cli = true ∧ _) from heffective)] at h
  obtain ⟨⟨⟩, u₁, hinit, h⟩ := bind_ok_iff.mp h
  obtain ⟨⟨⟩, _, hreset, h⟩ := bind_ok_iff.mp h
  obtain rfl := resetProvider_ok hreset
  obtain ⟨⟨⟩, u, hservice, h⟩ := bind_ok_iff.mp h
  have hcore : u.core = (w.reset eng).core :=
    (serviceName_core (.of_ok hservice)).trans (reset_core (init_consumers_core (.of_ok hinit)))
  have hkeeps : Keeps (SameOn fun w : World φ => w.globals.service_name) (init_consumers eng) :=
    init_consumers_keeps fun _ _ _ _ _ _ _ => rfl
  have hname : u₁.globals.service_name = w.globals.service_name := hkeeps (.of_ok hinit)
  cases hcli : eng.cli with
  | true =>
    simp only [hcli, if_true, startCliSpan] at h
    obtain ⟨uri, u', huri, hargs⟩ := bind_ok_iff.mp h
    obtain rfl : u' = u := Op.reads_find_server_string _ (.of_ok huri)
    obtain ⟨argv, u, hargv, hstart⟩ := bind_ok_iff.mp hargs
    obtain rfl : u = u' := Op.reads_find_server_zval _ (.of_ok hargv)
    obtain ⟨argv, u', hderef, hspan⟩ := bind_ok_iff.mp hstart
    obtain rfl : u' = u := (lift_ok_iff.mp hderef).2
    obtain ⟨q, v, hcreate, h⟩ := bind_ok_iff.mp hspan
    obtain ⟨⟨⟩, v₁, hparse, h⟩ := bind_ok_iff.mp h
    refine ⟨_, v, v₁, _, _, _, q, _, hcore, hcreate, hparse, ?_, .of_ok h, fun _ => rfl, by simp,
      u₁.reset eng, hname, hservice⟩
    exact .bind (Effect.built_parseBaggage _) fun _ => .bind (Effect.built_addAttribute _ _) fun _ =>
      .bind (.reads (Op.reads_json_encode _)) fun _ => .bind (Effect.built_addAttribute _ _) fun _ =>
        .bind (.reads .get) fun _ => Effect.built_addAttribute _ _
  | false =>
    simp only [hcli, Bool.false_eq_true, if_false, startRequestSpan] at h
    obtain ⟨uri, u', huri, htrace⟩ := bind_ok_iff.mp h
    obtain rfl : u' = u := Op.reads_find_server_string _ (.of_ok huri)
    obtain ⟨header, u, hheader, hbag⟩ := bind_ok_iff.mp htrace
    obtain rfl : u = u' := Op.reads_find_server_string _ (.of_ok hheader)
    obtain ⟨baggage, u', hbaggage, hspan⟩ := bind_ok_iff.mp hbag
    obtain rfl : u' = u := Op.reads_find_server_string _ (.of_ok hbaggage)
    obtain ⟨q, v, hcreate, h⟩ := bind_ok_iff.mp hspan
    obtain ⟨⟨⟩, v₁, hparse, h⟩ := bind_ok_iff.mp h
    refine ⟨_, v, v₁, _, _, _, q, _, hcore, hcreate, hparse, ?_, .of_ok h, by simp, fun _ => hheader,
      u₁.reset eng, hname, hservice⟩
    exact .bind (Effect.built_parseBaggage _) fun _ => Effect.built_requestAttributes _ _

theorem start_tracer_ok {traceparent tracebaggage : Bytes} {kind : SpanKind}
    (h : start_tracer eng traceparent tracebaggage kind w = .ok ((), w'))
    (heffective : ¬ Refuses eng w.globals) :
    ∃ (u v v₁ : World φ) (header name : Bytes) (kind' : SpanKind) (q : Nat) (m : M φ Unit),
      u.core = (w.reset eng).core ∧ Provider.createFirstSpan eng name kind' u = .ok (q, v) ∧
      Provider.parseTraceParent eng header v = .ok ((), v₁) ∧ Built (Move eng .none) m ∧ Ends m v₁ w' ∧
      (eng.cli = true → header = traceparent) ∧
      (eng.cli = false → find_server_string (lit "HTTP_TRACEPARENT") u = .ok (header, u)) ∧
      ∃ u₀ : World φ, u₀.globals.service_name = w.globals.service_name ∧
        serviceNameFromServer eng u₀ = .ok ((), u) := by
  obtain ⟨u, v, v₁, header, name, kind', q, m, hcore, hcreate, hparse, hbuilt, hrest⟩ :=
    start_tracer_effects h heffective
  exact ⟨u, v, v₁, header, name, kind', q, m, hcore, hcreate, hparse, Effect.built_move hbuilt, hrest⟩

theorem attachResource_ok (h : attachResource eng w = .ok ((), w')) :
    ∃ p, w'.globals.provider = some p ∧ (p.slots (w'.key eng)).request.isSome := by
  obtain ⟨rs, u, htracer, hrest⟩ := bind_ok_iff.mp h
  obtain ⟨resource, u', hresource, hattach⟩ := bind_ok_iff.mp hrest
  obtain rfl : u' = u :=
    (Op.reads_getResource : Reads (Provider.getResource eng)) (.of_ok hresource)
  obtain ⟨m, v, hget, hload⟩ := bind_ok_iff.mp hattach
  cases hget
  obtain ⟨r, v, hr, hset⟩ := bind_ok_iff.mp hload
  obtain rfl := (lift_ok_iff.mp hr).2
  cases hset
  obtain ⟨p, hp, ⟨hrequest, -, rfl⟩ | ⟨-, -, rfl⟩⟩ := Provider.getTracer_ok htracer
  · exact ⟨p, hp, hrequest⟩
  · exact ⟨_, rfl, by simp [World.withRequest]⟩

section

variable {R : World φ → World φ → Prop} [Std.Refl R] [IsTrans (World φ) R]

theorem collectSession_keeps (hclock : ∀ w, R w { w with clock := fun n => w.clock (n + 1) })
    (hexported : ∀ w e, R w { w with exported := e }) : Keeps R (collectSession eng) := by
  have hexport : Keeps R (exporterOpenTelemetry eng) :=
    .bind (.of_reads (.bind Op.reads_slot fun _ => .pure _)) fun _ => .bind (.of_reads (.lift _))
      fun _ => .bind (.of_reads .get) fun _ => .bind (.of_reads (.lift _)) fun _ =>
        .modify fun w => hexported w _
  exact .bind (.of_reads Op.reads_globals) fun _ => .ite
    (.bind (isSampled_keeps hclock) fun _ => .ite hexport (.of_reads (.pure _)))
    (.of_reads (.pure _))

theorem Spanwise.attachResource (h : Spanwise eng R) : Keeps R (attachResource eng) :=
  .bind h.getTracer fun _ => .bind (.of_reads Op.reads_getResource) fun _ =>
    .bind (.of_reads .get) fun _ => .bind (.of_reads (.lift _)) fun _ => h.modifyMemory _

/-- The end of a session cleans up the state it has come to. -/
theorem finishSession_ok {first : Nat} (hspans : Spanwise eng R)
    (hexported : ∀ w e, R w { w with exported := e })
    (h : finishSession eng first w = .ok ((), w')) :
    ∃ v p, R w v ∧ v.globals.provider = some p ∧ (p.slots (v.key eng)).request.isSome ∧
      w' = if eng.cli then
          { v.cleaned eng p with globals := { v.globals with provider := none } }
        else v.cleaned eng p := by
  obtain ⟨⟨⟩, u, hend, hattach⟩ := bind_ok_iff.mp h
  obtain ⟨⟨⟩, u₁, hattached, hcollect⟩ := bind_ok_iff.mp hattach
  obtain ⟨⟨⟩, v, hcollected, hclean⟩ := bind_ok_iff.mp hcollect
  obtain ⟨⟨⟩, u₂, hcleaned, hdrop⟩ := bind_ok_iff.mp hclean
  have hrelated : R w v := by
    have hw := IsTrans.trans _ _ _ (hspans.okEnd _ (.of_ok hend))
      (hspans.attachResource (.of_ok hattached))
    exact IsTrans.trans _ _ _ hw (collectSession_keeps hspans.clock hexported (.of_ok hcollected))
  have hkeeps : Keeps (SameOn fun w : World φ => (w.globals.provider, w.ppid))
      (collectSession eng) := collectSession_keeps (fun _ => rfl) fun _ _ => rfl
  obtain ⟨hprovider, hppid⟩ := Prod.mk.inj (hkeeps (.of_ok hcollected))
  obtain ⟨q, hq, hrequest⟩ := attachResource_ok hattached
  obtain ⟨p, hp, rfl⟩ := Provider.clean_ok hcleaned
  obtain rfl : p = q := Option.some.inj (hp.symm.trans (hprovider.trans hq))
  refine ⟨v, p, hrelated, hp, by rwa [World.key_congr hppid], ?_⟩
  rw [stateful.ite_apply] at hdrop
  split at hdrop
  · rw [if_pos ‹_›]
    cases hdrop
    rfl
  · rw [if_neg ‹_›]
    cases hdrop
    rfl

end

/-- The message that is serialised for the current request. -/
def Serialises (eng : Engine φ) (w : World φ) (payload : List (Option Resource × List Span)) :
    Prop :=
  ∃ p request cell, w.globals.provider = some p ∧
    (p.slots (w.key eng)).request = some request ∧ w.memory.requests.cell request = some cell ∧
    payload = w.memory.serialize cell

theorem exporter_exports (h : exporterOpenTelemetry eng w = .ok ((), w')) :
    ∃ payload, Serialises eng w payload ∧ w'.exported = w.exported ++ [payload] := by
  obtain ⟨request, u, hrequest, hderef⟩ := bind_ok_iff.mp h
  obtain ⟨p, hp, rfl, rfl⟩ := Provider.getRequest_ok hrequest
  obtain ⟨q, u, hq, hget⟩ := bind_ok_iff.mp hderef
  obtain ⟨hq, rfl⟩ := lift_ok_iff.mp hq
  obtain ⟨_, u, hread, hload⟩ := bind_ok_iff.mp hget
  cases hread
  obtain ⟨cell, u, hcell, hexport⟩ := bind_ok_iff.mp hload
  obtain ⟨hcell, rfl⟩ := lift_ok_iff.mp hcell
  cases hexport
  exact ⟨_, ⟨p, q, cell, hp, deref_eq_ok_iff.mp hq, load_eq_ok_iff.mp hcell, rfl⟩, rfl⟩

/-- A request is exported when the collection is on and it is sampled. -/
theorem collectSession_cases (h : collectSession eng w = .ok ((), w')) :
    (w.globals.enable_collect = false ∧ w'.exported = w.exported) ∨
    w.globals.enable_collect = true ∧ ∃ sampled u, Provider.isSampled eng w = .ok (sampled, u) ∧
      ((sampled = true ∧ ∃ payload, Serialises eng w payload ∧
          w'.exported = w.exported ++ [payload]) ∨
        sampled = false ∧ w'.exported = w.exported) := by
  obtain ⟨g, _, hglobals, hrest⟩ := bind_ok_iff.mp h
  cases hglobals
  rw [stateful.ite_apply] at hrest
  split at hrest
  · rename_i hcollect
    obtain ⟨sampled, u, hsampled, hexport⟩ := bind_ok_iff.mp hrest
    have hkeeps : Keeps (SameOn fun w : World φ => (w.memory, w.globals, w.ppid, w.exported))
        (Provider.isSampled eng) := isSampled_keeps fun _ => rfl
    have hsame := hkeeps (.of_ok hsampled)
    simp only [SameOn, Prod.mk.injEq] at hsame
    obtain ⟨hmemory, hglobals, hppid, hexported⟩ := hsame
    refine .inr ⟨hcollect, sampled, u, hsampled, ?_⟩
    rw [stateful.ite_apply] at hexport
    split at hexport
    · rename_i htrue
      obtain ⟨payload, ⟨p, request, cell, hp, hrequest, hcell, rfl⟩, happended⟩ :=
        exporter_exports hexport
      rw [hmemory] at hcell happended
      rw [hglobals] at hp
      rw [World.key_congr hppid] at hrequest
      exact .inl ⟨htrue, _, ⟨p, request, cell, hp, hrequest, hcell, rfl⟩, hexported ▸ happended⟩
    · rename_i hfalse
      cases hexport
      exact .inr ⟨Bool.eq_false_of_not_eq_true hfalse, hexported⟩
  · rename_i hcollect
    cases hrest
    exact .inl ⟨Bool.eq_false_of_not_eq_true hcollect, rfl⟩

theorem collectSession_exports (h : collectSession eng w = .ok ((), w')) :
    w'.exported = w.exported ∨ ∃ payload, Serialises eng w payload ∧
      w'.exported = w.exported ++ [payload] := by
  obtain ⟨-, hnothing⟩ | ⟨-, _, _, -, ⟨-, hexports⟩ | ⟨-, hnothing⟩⟩ := collectSession_cases h
  · exact .inl hnothing
  · exact .inr hexports
  · exact .inl hnothing

/-- The end of a session collects what the request is once its first span is ended and the
resource attached. -/
theorem finishSession_collects {first : Nat} (h : finishSession eng first w = .ok ((), w')) :
    ∃ u v x, Provider.okEnd first w = .ok ((), u) ∧ attachResource eng u = .ok ((), v) ∧
      collectSession eng v = .ok ((), x) ∧ w'.exported = x.exported := by
  obtain ⟨⟨⟩, u, hend, hattach⟩ := bind_ok_iff.mp h
  obtain ⟨⟨⟩, v, hattached, hcollect⟩ := bind_ok_iff.mp hattach
  obtain ⟨⟨⟩, x, hcollected, hclean⟩ := bind_ok_iff.mp hcollect
  obtain ⟨⟨⟩, y, hcleaned, hdrop⟩ := bind_ok_iff.mp hclean
  obtain ⟨p, hp, rfl⟩ := Provider.clean_ok hcleaned
  refine ⟨u, v, x, hend, hattached, hcollected, ?_⟩
  rw [stateful.ite_apply] at hdrop
  split at hdrop <;> cases hdrop <;> rfl

theorem finishSession_exports {first : Nat} (h : finishSession eng first w = .ok ((), w')) :
    ∃ u v, Provider.okEnd first w = .ok ((), u) ∧ attachResource eng u = .ok ((), v) ∧
      (w'.exported = v.exported ∨ ∃ payload, Serialises eng v payload ∧
        w'.exported = v.exported ++ [payload]) := by
  obtain ⟨u, v, x, hend, hattached, hcollected, hsame⟩ := finishSession_collects h
  refine ⟨u, v, hend, hattached, ?_⟩
  rw [hsame]
  exact collectSession_exports hcollected

/-- An effective shutdown ends the session under the current key, if there is one. -/
theorem shutdown_tracer_ok (h : shutdown_tracer eng w = .ok ((), w'))
    (heffective : ¬ Refuses eng w.globals) :
    ∃ p u, w.globals.provider = some p ∧
      w' = { u with globals :=
        { u.globals with is_started_cli_tracer := false, curl_header := none } } ∧
      match (p.slots (w.key eng)).firstSpan with
        | some first => finishSession eng first w = .ok ((), u)
        | none => u = w := by
  obtain ⟨g, _, hglobals, hrest⟩ := bind_ok_iff.mp h
  cases hglobals
  rw [stateful.ite_apply, if_neg (show ¬ (eng.cli = true ∧ _) from heffective)] at hrest
  obtain ⟨first, v, hfirst, hend⟩ := bind_ok_iff.mp hrest
  obtain ⟨p, hp, rfl, rfl⟩ := Provider.firstOneSpan_ok hfirst
  cases hslot : (p.slots (v.key eng)).firstSpan with
  | none =>
    rw [hslot] at hend
    cases hend
    exact ⟨p, v, hp, rfl, by simp [hslot]⟩
  | some first =>
    rw [hslot] at hend
    obtain ⟨⟨⟩, u, hfinish, hflags⟩ := bind_ok_iff.mp hend
    cases hflags
    exact ⟨p, u, hp, rfl, by simpa [hslot] using hfinish⟩

/-- Whether a request's start and end reach the tracer. -/
def Serves (eng : Engine φ) (g : Globals) : Prop := g.enable = true ∧ ¬ eng.cli = true

instance (g : Globals) : Decidable (Serves eng g) := inferInstanceAs (Decidable (_ ∧ _))

theorem Serves.not_refuses {g : Globals} (h : Serves eng g) : ¬ Refuses eng g :=
  fun hrefuses => h.2 hrefuses.1

theorem request_init_ends (h : Ends (opentelemetry_request_init eng) w w') :
    ¬ Serves eng w.globals ∧ w' = w ∨
      Serves eng w.globals ∧ start_tracer eng [] [] .server w = .ok ((), w') := by
  have hdirect : Direct (opentelemetry_request_init eng) :=
    .bind Direct.globals fun _ => .ite (.pure _) (Direct.start_tracer _ _ _)
  obtain ⟨⟨⟩, hok⟩ := hdirect.ok h
  obtain ⟨g, _, hglobals, hrest⟩ := bind_ok_iff.mp hok
  cases hglobals
  rw [stateful.ite_apply] at hrest
  split at hrest
  · cases hrest
    exact .inl ⟨by unfold Serves; tauto, rfl⟩
  · exact .inr ⟨by unfold Serves; tauto, hrest⟩

theorem request_shutdown_ends (h : Ends (opentelemetry_request_shutdown eng) w w') :
    ¬ Serves eng w.globals ∧ w' = w ∨
      Serves eng w.globals ∧ shutdown_tracer eng w = .ok ((), w') := by
  have hdirect : Direct (opentelemetry_request_shutdown eng) :=
    .bind Direct.globals fun _ => .ite (.pure _) Direct.shutdown_tracer
  obtain ⟨⟨⟩, hok⟩ := hdirect.ok h
  obtain ⟨g, _, hglobals, hrest⟩ := bind_ok_iff.mp hok
  cases hglobals
  rw [stateful.ite_apply] at hrest
  split at hrest
  · cases hrest
    exact .inl ⟨by unfold Serves; tauto, rfl⟩
  · exact .inr ⟨by unfold Serves; tauto, hrest⟩

/-- The state in which a CLI tracer starts. -/
def World.withStarted (w : World φ) : World φ :=
  { w with globals := { w.globals with is_started_cli_tracer := true } }

/-- Whether a CLI tracer may be started, or may be shut down when `started`. -/
def Offers (eng : Engine φ) (g : Globals) (started : Bool) : Prop :=
  eng.cli = true ∧ g.cli_enable = true ∧ g.is_started_cli_tracer = started

instance (g : Globals) (started : Bool) : Decidable (Offers eng g started) :=
  inferInstanceAs (Decidable (_ ∧ _))

theorem start_cli_tracer_ends {args : Option (Option Bytes × Option Bytes × SpanKind)}
    (h : Ends (opentelemetry_start_cli_tracer eng args) w w') :
    ¬ (Offers eng w.globals false ∧ args.isSome) ∧ w' = w ∨
      Offers eng w.globals false ∧ ∃ traceparent baggage kind,
        args = some (traceparent, baggage, kind) ∧
          start_tracer eng (c_str (traceparent.getD [])) (c_str (baggage.getD [])) kind
            w.withStarted = .ok ((), w') := by
  have hdirect : Direct (opentelemetry_start_cli_tracer eng args) := by
    refine .bind Direct.globals fun g => .ite (.pure _) ?_
    cases args with
    | none => exact .pure _
    | some args =>
      exact .bind (.modify _) fun _ => .bind (Direct.start_tracer _ _ _) fun _ => .pure _
  obtain ⟨b, hok⟩ := hdirect.ok h
  obtain ⟨g, _, hglobals, hrest⟩ := bind_ok_iff.mp hok
  cases hglobals
  rw [stateful.ite_apply] at hrest
  split at hrest
  · rename_i hturned
    cases hrest
    refine .inl ⟨?_, rfl⟩
    rintro ⟨⟨hcli, henabled, hstarted⟩, -⟩
    simp [hcli, henabled, hstarted] at hturned
  · rename_i hoffers
    cases args with
    | none =>
      cases hrest
      exact .inl ⟨by simp, rfl⟩
    | some args =>
      obtain ⟨⟨⟩, u, hstarted, hstart⟩ := bind_ok_iff.mp hrest
      cases hstarted
      obtain ⟨⟨⟩, u, hstart, hreturn⟩ := bind_ok_iff.mp hstart
      cases hreturn
      exact .inr ⟨by simpa [Offers] using hoffers, _, _, _, rfl, hstart⟩

theorem shutdown_cli_tracer_ends (h : Ends (opentelemetry_shutdown_cli_tracer eng) w w') :
    ¬ Offers eng w.globals true ∧ w' = w ∨
      Offers eng w.globals true ∧ shutdown_tracer eng w = .ok ((), w') := by
  have hdirect : Direct (opentelemetry_shutdown_cli_tracer eng) :=
    .bind Direct.globals fun _ => .ite (.pure _) (.bind Direct.shutdown_tracer fun _ => .pure _)
  obtain ⟨b, hok⟩ := hdirect.ok h
  obtain ⟨g, _, hglobals, hrest⟩ := bind_ok_iff.mp hok
  cases hglobals
  rw [stateful.ite_apply] at hrest
  split at hrest
  · cases hrest
    exact .inl ⟨by unfold Offers; tauto, rfl⟩
  · obtain ⟨⟨⟩, u, hshutdown, hreturn⟩ := bind_ok_iff.mp hrest
    cases hreturn
    exact .inr ⟨by unfold Offers; tauto, hshutdown⟩

theorem Offers.not_refuses (h : Offers eng w.globals true) : ¬ Refuses eng w.globals := by
  rintro ⟨-, henabled | hstarted⟩
  · exact henabled h.2.1
  · exact hstarted h.2.2

theorem Offers.not_refuses_started (h : Offers eng w.globals false) :
    ¬ Refuses eng w.withStarted.globals := by
  rintro ⟨-, henabled | hstarted⟩
  · exact henabled h.2.1
  · exact hstarted rfl

theorem ends_ignore_iff {α : Type} {m : M φ α} :
    Ends (do let _ ← m) w w' ↔ Ends m w w' := by
  rw [ends_bind_iff]
  constructor
  · rintro (⟨a, u, hm, hpure⟩ | hm)
    · rw [Reads.pure _ hpure]
      exact .of_ok hm
    · exact .inr hm
  · rintro (⟨a, hm⟩ | hm)
    · exact .inl ⟨a, w', hm, .of_ok rfl⟩
    · exact .inr hm

end opentelemetry
