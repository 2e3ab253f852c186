import OpentelemetryExt.Provider.Elapsed
import OpentelemetryExt.Session.Ended
import OpentelemetryExt.Session.Density

open heap stateful run

namespace opentelemetry

variable {φ : Type} {eng : Engine φ} {natives : CurlNatives φ} {v w w' : World φ} {q : Nat}

/-- What is done in the course of a session, as far as the verdict on its spans goes. -/
inductive Act where
  | okEnd (q : Nat)
  | errorEnd (q : Nat) (message : Bytes)
  | set_sample_ratio_based (args : Option Int)
  | other
deriving DecidableEq

/-- How it is done. Everything else is one kind: code that neither ends spans nor samples, and
changes around the extension, in the CLI other than of the parent. -/
inductive Does (eng : Engine φ) : Act → World φ → World φ → Prop
  | okEnd {q : Nat} {w w' : World φ} (h : Ends (Provider.okEnd q) w w') : Does eng (.okEnd q) w w'
  | errorEnd {q : Nat} {message : Bytes} {w w' : World φ}
      (h : Ends (Provider.errorEnd eng q message) w w') : Does eng (.errorEnd q message) w w'
  | set_sample_ratio_based {args : Option Int} {w w' : World φ}
      (h : Ends (opentelemetry_set_sample_ratio_based eng args) w w') :
      Does eng (.set_sample_ratio_based args) w w'
  | work {g : Grants} {α : Type} {m : M φ α} {w w' : World φ} (hends : ¬ g.ends)
      (hsamples : ¬ g.samples) (hm : Built (Move eng g) m) (h : Ends m w w') :
      Does eng .other w w'
  | surround (w : World φ) (s : Surroundings φ) : Does eng .other w (w.surround s)
  | reparent (w : World φ) (hcli : eng.cli = false) (ppid : Nat) :
      Does eng .other w { w with ppid := ppid }

variable {i : Act} {is : List Act}

/-- The status of a span; that of a new span is the status of none. -/
def World.verdict (w : World φ) (q : Nat) : Status :=
  ((w.memory.spans.cell q).map Span.status).getD {}

/-- What an act makes of the verdict on `q`. -/
def Act.verdict (q : Nat) (s : Status) : Act → Status
  | .okEnd q' => if q' = q ∧ s.code = .unset then ⟨.ok, []⟩ else s
  | .errorEnd q' message => if q' = q then ⟨.error, message⟩ else s
  | .set_sample_ratio_based _ | .other => s

theorem verdict_of_outcome (h : w'.outcome q = w.outcome q) : w'.verdict q = w.verdict q := by
  have hself (w : World φ) : w.verdict q = ((w.outcome q).map Prod.fst).getD {} := by
    simp [World.verdict, World.outcome, Function.comp_def]
  rw [hself, hself, h]

theorem verdict_of_spans (h : w'.memory.spans = w.memory.spans) :
    SameOn World.verdict w w' := by
  unfold SameOn World.verdict
  rw [h]

/-- Code that ends no span changes no verdict: the new spans have none yet. -/
theorem verdict_built {g : Grants} {α : Type} {m : M φ α} (hends : ¬ g.ends)
    (hm : Built (Move eng g) m) : Keeps (SameOn World.verdict) m := by
  have hslot (f : Slot → Slot) : Keeps (SameOn World.verdict) (modifySlot eng f) := by
    intro w w' h
    obtain ⟨p, hp, rfl⟩ := modifySlot_ends h
    exact verdict_of_spans rfl
  refine hm.keeps fun hmove => ?_
  cases hmove with
  | createChildSpan _ name kind =>
    intro w w' h
    obtain ⟨q, hok⟩ := (Direct.createChildSpan name kind).ok h
    have hadds := createChildSpan_adds hok
    funext q'
    by_cases hq : q' = q
    · have hnone : w.memory.spans.cell q = none := by
        by_contra hsome
        obtain ⟨s, hs⟩ := Option.ne_none_iff_exists'.mp hsome
        have hlt := Heap.lt_next hs
        have hpointer := hadds.pointer
        omega
      obtain ⟨s, hs, hfresh, -⟩ := hadds.new
      subst hq
      simp [World.verdict, hs, hnone, hfresh]
    · exact verdict_of_outcome (hadds.old q' hq)
  | note span hf =>
    intro w w' h
    obtain ⟨-, rfl⟩ := modifySpan_ends h
    have hcalm : Calm w (w.withSpan span _) := .notes hf
    funext q'
    exact verdict_of_outcome (hcalm.outcome q' id)
  | okEnd h span => exact absurd h hends
  | errorEnd h span message => exact absurd h hends
  | setSampled _ isSampled => exact hslot _
  | setRedisException _ message => exact hslot _
  | assignBaggage key value => exact hslot _
  | addResourceAttribute resource kv =>
    exact .bind (.of_reads .get) fun _ => .bind (.of_reads (.lift _)) fun _ =>
      .modify fun _ => rfl
  | tick =>
    intro w w' h
    obtain ⟨_, h⟩ | h := h <;> cases h
    rfl
  | php state => exact .modify fun _ => rfl
  | headers _ entries => exact .modify fun _ => rfl

theorem verdict_withSpan {f : Span → Span} {s : Span} (hs : w.memory.spans.cell q = some s)
    (q' : Nat) : (w.withSpan q f).verdict q' = if q = q' then (f s).status else w.verdict q' := by
  by_cases hq : q = q'
  · subst hq
    simp [World.verdict, World.withSpan, hs]
  · rw [if_neg hq]
    exact verdict_of_outcome (outcome_withSpan_ne fun heq => hq heq.symm)

theorem verdict_of_some {s : Span} (hs : w.memory.spans.cell q = some s) :
    w.verdict q = s.status := by
  rw [World.verdict, hs, Option.map_some, Option.getD_some]

/-- Which code the acts are. -/
theorem Does.cases (h : Does eng i w w') :
    (∃ (α : Type) (g : Grants) (m : M φ α), Built (Move eng g) m ∧ Ends m w w') ∨
      (∃ s, w' = w.surround s) ∨ eng.cli = false ∧ ∃ ppid, w' = { w with ppid := ppid } := by
  cases h with
  | @okEnd q _ _ h =>
    exact .inl ⟨_, { Grants.none with ends := True }, _, .op (.okEnd trivial q), h⟩
  | @errorEnd q message _ _ h =>
    exact .inl ⟨_, { Grants.none with ends := True }, _, .op (.errorEnd trivial q message), h⟩
  | @set_sample_ratio_based args _ _ h =>
    have hbuilt : Built (Move eng { Grants.none with samples := True })
        (opentelemetry_set_sample_ratio_based eng args) :=
      Move.built_sdk (.set_sample_ratio_based args) (fun h => h.elim) fun _ => trivial
    exact .inl ⟨_, _, _, hbuilt, h⟩
  | work _ _ hm h => exact .inl ⟨_, _, _, hm, h⟩
  | surround _ s => exact .inr (.inl ⟨s, rfl⟩)
  | reparent _ hcli ppid => exact .inr (.inr ⟨hcli, ppid, rfl⟩)

/-- One act makes of every verdict what it should. -/
theorem Does.verdict (h : Does eng i w w') (q : Nat) : w'.verdict q = i.verdict q (w.verdict q) := by
  cases h with
  | @okEnd q' _ _ h =>
    obtain ⟨_, hok⟩ := (Direct.okEnd q').ok h
    obtain ⟨s, hs, rfl⟩ := Provider.okEnd_ok hok
    rw [verdict_withSpan (w := w.ticked) hs, Act.verdict]
    by_cases hq : q' = q
    · subst hq
      rw [verdict_of_some hs]
      simp
    · simp [hq]
      rfl
  | @errorEnd q' message _ _ h =>
    obtain ⟨_, hok⟩ := (Direct.errorEnd q' message).ok h
    obtain ⟨s, p, hs, hp, rfl⟩ := Provider.errorEnd_ok hok
    exact verdict_withSpan (w := w.ticked) hs q
  | @set_sample_ratio_based args _ _ h =>
    have hbuilt : Built (Move eng { Grants.none with samples := True })
        (opentelemetry_set_sample_ratio_based eng args) :=
      Move.built_sdk (.set_sample_ratio_based args) (fun h => h.elim) fun _ => trivial
    exact congrFun (verdict_built id hbuilt h) q
  | work hends _ hm h => exact congrFun (verdict_built hends hm h) q
  | surround _ s => rfl
  | reparent _ hcli ppid => rfl

theorem verdict_run (hrun : Run (Does eng) v is w) (q : Nat) :
    w.verdict q = is.foldl (Act.verdict q) (v.verdict q) :=
  hrun.simulates (R := fun w s => w.verdict q = s) rfl fun i t u s h ht => by
    rw [h.verdict q, ht]

/-- The messages that a span has been ended with. -/
def messages (q : Nat) (is : List Act) : List Bytes :=
  is.filterMap fun
    | .errorEnd q' message => if q' = q then some message else none
    | _ => none

/-- An error is final but for later errors, and all is well otherwise if anything is. -/
def finalVerdict (q : Nat) (is : List Act) : Status :=
  match (messages q is).getLast? with
  | some message => ⟨.error, message⟩
  | none => if .okEnd q ∈ is then ⟨.ok, []⟩ else {}

theorem messages_append (q : Nat) (is js : List Act) :
    messages q (is ++ js) = messages q is ++ messages q js := List.filterMap_append

theorem finalVerdict_code (q : Nat) (is : List Act) :
    (finalVerdict q is).code = .unset ↔ messages q is = [] ∧ .okEnd q ∉ is := by
  unfold finalVerdict
  cases hlast : (messages q is).getLast? with
  | none =>
    have hnil := List.getLast?_eq_none_iff.mp hlast
    by_cases hok : .okEnd q ∈ is <;> simp [hnil, hok]
  | some message =>
    have hne : messages q is ≠ [] := by
      rintro hnil
      rw [hnil] at hlast
      cases hlast
    simp [hne]

theorem foldl_verdict (q : Nat) (is : List Act) :
    is.foldl (Act.verdict q) {} = finalVerdict q is := by
  induction is using List.reverseRecOn with
  | nil => rfl
  | append_singleton is i ih =>
    rw [List.foldl_append, ih, List.foldl_cons, List.foldl_nil]
    cases i with
    | okEnd q' =>
      have hsame : messages q (is ++ [.okEnd q']) = messages q is := by
        rw [messages_append]
        exact List.append_nil _
      by_cases hq : q' = q
      · subst hq
        rw [Act.verdict]
        simp only [true_and, finalVerdict_code]
        rw [finalVerdict, finalVerdict, hsame]
        cases hlast : (messages q' is).getLast? with
        | none =>
          have hnil := List.getLast?_eq_none_iff.mp hlast
          by_cases hok : .okEnd q' ∈ is <;> simp [hnil, hok]
        | some message =>
          have hne : messages q' is ≠ [] := by
            rintro hnil
            rw [hnil] at hlast
            cases hlast
          simp [hne]
      · have hne : Act.okEnd q ≠ .okEnd q' := fun heq => hq (Act.okEnd.inj heq).symm
        simp [Act.verdict, hq, finalVerdict, hsame, List.mem_append, hne]
    | errorEnd q' message =>
      by_cases hq : q' = q
      · subst hq
        have hlast : messages q' (is ++ [.errorEnd q' message]) = messages q' is ++ [message] := by
          rw [messages_append]
          simp [messages]
        rw [Act.verdict, if_pos rfl, finalVerdict, hlast, List.getLast?_concat]
      · have hsame : messages q (is ++ [.errorEnd q' message]) = messages q is := by
          rw [messages_append]
          simp [messages, hq]
        simp [Act.verdict, hq, finalVerdict, hsame, List.mem_append]
    | set_sample_ratio_based args =>
      have hsame : messages q (is ++ [.set_sample_ratio_based args]) = messages q is := by
        rw [messages_append]
        exact List.append_nil _
      simp [Act.verdict, finalVerdict, hsame, List.mem_append]
    | other =>
      have hsame : messages q (is ++ [.other]) = messages q is := by
        rw [messages_append]
        exact List.append_nil _
      simp [Act.verdict, finalVerdict, hsame, List.mem_append]

theorem flag_withProvider (w : World φ) (p : Provider) :
    sampledFlag eng (w.withProvider p) = (p.slots (w.key eng)).is_sampled := rfl

theorem flag_setSampled : Keeps (fun _ w' => sampledFlag eng w' = true)
    (Provider.setSampled eng true) := by
  intro w w' h
  obtain ⟨p, hp, rfl⟩ := modifySlot_ends h
  rw [flag_withProvider, Provider.set_self]

/-- The SDK takes the flag down only when it is told to. -/
theorem flag_set_sample_ratio_based {args : Option Int} (hne : args ≠ some 0) :
    Keeps (Preserves fun w => sampledFlag eng w = true)
      (opentelemetry_set_sample_ratio_based eng args) := by
  have hset : Keeps (Preserves fun w => sampledFlag eng w = true)
      (Provider.setSampled eng true) := fun w w' h _ => flag_setSampled h
  refine .bind (.of_reads Op.reads_is_has_provider) fun _ => .ite ?_ (.of_reads (.pure _))
  cases args with
  | none => exact .of_reads (.pure _)
  | some ratio_based =>
    have hratio : ratio_based ≠ 0 := fun hzero => hne (by rw [hzero])
    simp only [if_neg hratio]
    refine .ite hset (.bind (.of_reads (Op.reads_find_server_string _)) fun _ =>
      .ite ?_ (.of_reads (.pure _)))
    exact .bind (.of_reads (.bind Op.reads_provider fun _ => .pure _)) fun _ =>
      .bind (.of_reads Op.reads_globals) fun _ => .bind (.of_reads (.lift _)) fun _ =>
        .ite hset (.of_reads (.pure _))

theorem Does.flag_of_error {message : Bytes} (h : Does eng (.errorEnd q message) w w') :
    sampledFlag eng w' = true := by
  cases h with
  | errorEnd h =>
    obtain ⟨_, hok⟩ := (Direct.errorEnd q message).ok h
    obtain ⟨s, p, -, -, rfl⟩ := Provider.errorEnd_ok hok
    rw [flag_withProvider]
    exact congrArg Slot.is_sampled (Provider.set_self _ _ _)

/-- Every other act leaves the flag up. -/
theorem Does.flag (h : Does eng i w w') (hne : i ≠ .set_sample_ratio_based (some 0))
    (hflag : sampledFlag eng w = true) : sampledFlag eng w' = true := by
  cases h with
  | @okEnd q _ _ h =>
    have hsame : sampledFlag eng w' = sampledFlag eng w :=
      (flag_tolerates (g := .none) id id).okEnd q h
    exact hsame.trans hflag
  | errorEnd h => exact Does.flag_of_error (.errorEnd h)
  | set_sample_ratio_based h =>
    exact flag_set_sample_ratio_based (fun heq => hne (by rw [heq])) h hflag
  | work hends hsamples hm h => exact ((flag_tolerates hends hsamples).built hm h).trans hflag
  | surround _ s => exact hflag
  | reparent _ hcli ppid =>
    rw [← hflag]
    simp [sampledFlag, World.key, hcli]

/-- After an error the flag is up, unless the SDK takes it down. -/
theorem flag_run {before after : List Act} {message : Bytes}
    (hrun : Run (Does eng) v (before ++ .errorEnd q message :: after) w)
    (hafter : .set_sample_ratio_based (some 0) ∉ after) : sampledFlag eng w = true := by
  induction after using List.reverseRecOn generalizing w with
  | nil =>
    obtain ⟨u, -, hlast⟩ := hrun.last
    exact hlast.flag_of_error
  | append_singleton after i ih =>
    rw [← List.cons_append, ← List.append_assoc] at hrun
    obtain ⟨u, hrun, hlast⟩ := hrun.last
    rw [List.mem_append, not_or, List.mem_singleton] at hafter
    exact hlast.flag (fun heq => hafter.2 heq.symm) (ih hrun hafter.1)

/-- A session whose end will not be turned away. -/
structure Open (eng : Engine φ) (f : Nat) (w : World φ) : Prop extends InSession eng f w where
  effective : ¬ Refuses eng w.globals

theorem Does.keeps_open {f : Nat} (h : Does eng i w w') (hopen : Open eng f w) :
    Open eng f w' := by
  obtain ⟨α, g, m, hm, hends⟩ | ⟨s, rfl⟩ | ⟨hcli, ppid, rfl⟩ := h.cases
  · have hsessions : w'.sessions = w.sessions :=
      sessions_blind.built (fun _ _ => rfl) (fun _ _ _ => rfl) hm hends
    have hfirst : w'.first eng = w.first eng :=
      first_blind.built (fun _ _ => rfl) (fun _ _ _ => rfl) hm hends
    have hcli : w'.globals.cli_enable = w.globals.cli_enable := congrArg Sessions.cli_enable hsessions
    have hstarted : w'.globals.is_started_cli_tracer = w.globals.is_started_cli_tracer :=
      congrArg Sessions.started hsessions
    refine ⟨⟨(hm.trans Move.built_op).keeps Op.isTree hends hopen.tree,
      hfirst.trans hopen.first, fun h => hstarted.trans (hopen.started h)⟩, ?_⟩
    unfold Refuses
    rw [hcli, hstarted]
    exact hopen.effective
  · exact ⟨⟨hopen.tree.of_shape rfl (.of_spans rfl) rfl, hopen.first, hopen.started⟩,
      hopen.effective⟩
  · refine ⟨⟨hopen.tree.reparent hcli ppid, ?_, hopen.started⟩, hopen.effective⟩
    rw [World.first, key_reparent hcli]
    exact hopen.first

theorem open_run {f : Nat} (hrun : Run (Does eng) v is w) (hopen : Open eng f v) :
    Open eng f w := hrun.invariant hopen fun _ _ _ h => h.keeps_open

theorem verdict_modifySpan {f : Span → Span} (hf : ∀ s, (f s).status = s.status) (span : Nat) :
    Keeps (SameOn World.verdict) (modifySpan span f : M φ Unit) := by
  intro w w' h
  obtain ⟨⟨s, hs⟩, rfl⟩ := modifySpan_ends h
  funext q
  rw [verdict_withSpan hs, hf]
  split
  · subst_vars
    exact (verdict_of_some hs).symm
  · rfl

theorem verdict_parseTraceParent (header : Bytes) :
    Keeps (SameOn World.verdict) (Provider.parseTraceParent eng header) := by
  refine parseTraceParent_keeps (fun span f hf => ?_) (fun b => ?_) header
  · exact verdict_modifySpan (fun s => (hf s).1) span
  · intro w w' h
    obtain ⟨p, hp, rfl⟩ := modifySlot_ends h
    exact verdict_of_spans rfl

/-- A session starts with no verdict on its spans. -/
theorem Opened.verdicts (h : Opened eng natives v) :
    ∃ f, Open eng f v ∧ ∀ q, f ≤ q → v.verdict q = {} := by
  obtain ⟨f, hfirst, hnext⟩ := h.alone
  obtain ⟨u, traceparent, tracebaggage, kind, -, heffective, hstart⟩ := h.start
  have hsessions := sessions_start hstart heffective
  have heffective' : ¬ Refuses eng v.globals := by
    have hcli : v.globals.cli_enable = u.globals.cli_enable := congrArg Sessions.cli_enable hsessions
    have hstarted : v.globals.is_started_cli_tracer = u.globals.is_started_cli_tracer :=
      congrArg Sessions.started hsessions
    unfold Refuses
    rw [hcli, hstarted]
    exact heffective
  refine ⟨f, ⟨⟨h.isTree, hfirst, h.started⟩, heffective'⟩, fun q hq => ?_⟩
  obtain ⟨u₁, v₀, v₁, header, name, kind', q₀, m, -, hcreate, hparse, hbuilt, hrest, -⟩ :=
    start_tracer_ok hstart heffective
  have hsame : v.verdict = v₀.verdict :=
    (verdict_built id hbuilt hrest).trans (verdict_parseTraceParent header (.of_ok hparse))
  obtain ⟨u₂, p, hspan, -, rfl⟩ := Provider.createFirstSpan_ok hcreate
  obtain ⟨s, hspans, rfl, hfresh, -⟩ := createSpan_spans hspan
  have hfirst₀ : v.first eng = some u₁.memory.spans.next := by
    have hbuilt' : v.first eng = v₁.first eng :=
      first_blind.built (fun _ _ => rfl) (fun _ _ _ => rfl) hbuilt hrest
    rw [hbuilt', first_blind.parseTraceParent header (.of_ok hparse)]
    simp [World.first, World.slots]
  obtain rfl : f = u₁.memory.spans.next := Option.some.inj (hfirst.symm.trans hfirst₀)
  rw [hsame, World.verdict, World.memory_withProvider, hspans]
  rcases hq.eq_or_lt with rfl | hlt
  · rw [Heap.cell_alloc_self, Option.map_some, Option.getD_some, hfresh]
  · have hnone : (u₁.memory.spans.alloc s).cell q = none := by
      by_contra hsome
      obtain ⟨s', hs'⟩ := Option.ne_none_iff_exists'.mp hsome
      have hbound : q < u₁.memory.spans.next + 1 := Heap.lt_next hs'
      omega
    rw [hnone]
    rfl

/-- The end of a session returns: each of its stages finds what it looks for. -/
theorem okEnd_returns {s : Span} (hs : w.memory.spans.cell q = some s) :
    Returns (Provider.okEnd q) w := by
  refine .bind (modifySpan_of_some _ hs) (.bind rfl ?_)
  have hcell {f : Span → Span} : (w.withSpan q f).ticked.memory.spans.cell q = some (f s) :=
    (Heap.cell_modify_self _ _ _).trans (congrArg (Option.map f) hs)
  exact .of_ok (modifySpan_of_some _ hcell)

theorem errorEnd_returns (eng : Engine φ) {s : Span} (hs : w.memory.spans.cell q = some s)
    (hprovider : w.globals.provider.isSome) (message : Bytes) :
    Returns (Provider.errorEnd eng q message) w := by
  obtain ⟨p, hp⟩ := Option.isSome_iff_exists.mp hprovider
  have hcell : w.ticked.memory.spans.cell q = some s := hs
  apply Returns.bind (t := w.ticked) rfl
  apply Returns.bind (modifySpan_of_some _ hcell)
  exact .of_ok (modifySlot_of_some _ hp)

theorem load_request {request rs : Nat} (h : w.memory.requests.cell request = some ⟨[rs]⟩) :
    (lift (load w.memory.requests request) : M φ ExportTraceServiceRequest) w = .ok (⟨[rs]⟩, w) :=
  lift_ok_iff.mpr ⟨load_eq_ok_iff.mpr h, rfl⟩

section

variable {f rs : Nat} {r : ResourceSpans} {rest : List Nat} {first : Span}

theorem Tree.attachResource_returns (h : Tree eng w f rs r rest first) :
    Returns (opentelemetry.attachResource eng) w := by
  obtain ⟨⟨p, hp, -, hrequest, hrs⟩, hcell, -⟩ := h.laid
  have htracer : Provider.getTracer eng w = .ok (rs, w) := by
    simp only [Provider.getTracer, bind_apply, slot_of_some hp, ok_bind, hrequest, if_true, hrs]
    rfl
  have hresource : Provider.getResource eng w = .ok ((p.slots (w.key eng)).resource, w) := by
    simp only [Provider.getResource, bind_apply, slot_of_some hp, ok_bind, pure_apply]
  have hload : (lift (load w.memory.resource_spans rs) : M φ ResourceSpans) w = .ok (r, w) :=
    lift_ok_iff.mpr ⟨load_eq_ok_iff.mpr hcell, rfl⟩
  apply Returns.bind htracer
  apply Returns.bind hresource
  apply Returns.bind (s := w) rfl
  apply Returns.bind hload
  exact .of_ok rfl

theorem HasFirst.isSampled_returns (h : HasFirst eng w f first) :
    Returns (Provider.isSampled eng) w := by
  obtain ⟨p, hp, hfirst, hcell⟩ := h
  refine .bind (slot_of_some hp) ?_
  split
  · exact .of_ok rfl
  · rw [hfirst]
    exact .bind rfl (.bind (readSpan_of_some hcell) (.bind rfl (.bind rfl (.of_ok rfl))))

theorem Whole.exporter_returns (h : Whole eng w rs) : Returns (exporterOpenTelemetry eng) w := by
  obtain ⟨p, request, hp, hrequest, hcell⟩ := h
  have hget : Provider.getRequest eng w = .ok (some request, w) := by
    simp only [Provider.getRequest, bind_apply, slot_of_some hp, ok_bind, hrequest, pure_apply]
  exact .bind hget (.bind rfl (.bind rfl (.bind (load_request hcell) (.of_ok rfl))))

theorem Whole.clean_returns (h : Whole eng w rs) : Returns (Provider.clean eng) w := by
  obtain ⟨p, request, hp, hrequest, hcell⟩ := h
  have hdelete : Provider.deleteRequest request w =
      .ok ((), w.withMemory (w.memory.deleteRequest request ⟨[rs]⟩)) :=
    bind_ok_iff.mpr ⟨w, w, rfl, bind_ok_iff.mpr ⟨_, w, load_request hcell, rfl⟩⟩
  refine .bind (slot_of_some hp) ?_
  simp only [hrequest, Option.isSome_some, or_true, if_true]
  exact .bind hdelete (.bind (modifySlot_of_some _ hp) (.of_ok (modifySlot_of_some _ rfl)))

/-- The collection exports the request when the flag is up. -/
theorem collectSession_returns (hfirst : HasFirst eng w f first) (hwhole : Whole eng w rs) :
    ∃ v, collectSession eng w = .ok ((), v) ∧
      (sampledFlag eng w = true → w.globals.enable_collect = true →
        ∃ payload, Serialises eng w payload ∧ v.exported = w.exported ++ [payload]) := by
  cases hcollect : w.globals.enable_collect with
  | false =>
    refine ⟨w, ?_, fun _ hfalse => by cases hfalse⟩
    simp only [collectSession, bind_apply, globals_apply, ok_bind, ite_apply, hcollect,
      Bool.false_eq_true, if_false, pure_apply]
  | true =>
    have hrest {b : Bool} {u : World φ} (hb : Provider.isSampled eng w = .ok (b, u)) :
        collectSession eng w =
          (if b = true then exporterOpenTelemetry eng else pure () : M φ Unit) u := by
      simp only [collectSession, bind_apply, globals_apply, ok_bind, ite_apply, hcollect,
        if_true, hb]
    cases hflag : sampledFlag eng w with
    | true =>
      obtain ⟨⟨⟩, v, hv⟩ := hwhole.exporter_returns
      obtain ⟨payload, hpayload, happended⟩ := exporter_exports hv
      exact ⟨v, (hrest (isSampled_of_flag hflag)).trans hv,
        fun _ _ => ⟨payload, hpayload, happended⟩⟩
    | false =>
      obtain ⟨b, u, hb⟩ := hfirst.isSampled_returns
      have hkeeps : Keeps (SameOn World.shape) (Provider.isSampled eng) :=
        isSampled_keeps fun _ => rfl
      have hu : Whole eng u rs := hwhole.of_shape (hkeeps (.of_ok hb))
      cases b with
      | false => exact ⟨u, hrest hb, fun hfalse => by cases hfalse⟩
      | true =>
        obtain ⟨⟨⟩, v, hv⟩ := hu.exporter_returns
        exact ⟨v, (hrest hb).trans hv, fun hfalse => by cases hfalse⟩

end

theorem collect_blind :
    Blind eng (SameOn fun w : World φ => (w.globals.enable_collect, w.exported)) where
  memory _ _ := rfl
  clock _ := rfl
  uuids _ _ := rfl
  slot _ _ _ := rfl

theorem finishSession_returns {f : Nat} (hsession : InSession eng f w) :
    ∃ x y u rs r rest first, Provider.okEnd f w = .ok ((), x) ∧
      attachResource eng x = .ok ((), y) ∧ Tree eng y f rs r rest first ∧
      finishSession eng f w = .ok ((), u) ∧
      (sampledFlag eng w = true → w.globals.enable_collect = true →
        ∃ payload, Serialises eng y payload ∧ u.exported = w.exported ++ [payload]) := by
  obtain ⟨rs, r, rest, first, htree⟩ := hsession.tree.at_first hsession.first
  obtain ⟨⟨⟩, x, hx⟩ := okEnd_returns htree.cell
  have hfirst : x.first eng = w.first eng := first_blind.spanwise.okEnd f (.of_ok hx)
  obtain ⟨rs, r, rest, first, hxtree⟩ :=
    (hsession.tree.okEnd hx).at_first (hfirst.trans hsession.first)
  obtain ⟨⟨⟩, y, hy⟩ := hxtree.attachResource_returns
  obtain ⟨p, -, -, hytree⟩ := hxtree.attachResource hy
  obtain ⟨v, hv, hexports⟩ := collectSession_returns hytree.hasFirst hytree.whole
  have hkeeps : Keeps (SameOn World.shape) (collectSession eng) :=
    collectSession_keeps (fun _ => rfl) fun _ _ => rfl
  obtain ⟨⟨⟩, t, ht⟩ := (hytree.whole.of_shape (hkeeps (.of_ok hv))).clean_returns
  have hdrop : ∃ u, (if eng.cli = true then modifyGlobals fun g => { g with provider := none }
      else pure () : M φ Unit) t = .ok ((), u) ∧ u.exported = t.exported := by
    cases eng.cli <;> exact ⟨_, rfl, rfl⟩
  obtain ⟨u, hu, hexported⟩ := hdrop
  obtain ⟨q, -, rfl⟩ := Provider.clean_ok ht
  have hfinish : finishSession eng f w = .ok ((), u) :=
    bind_ok_iff.mpr ⟨_, _, hx, bind_ok_iff.mpr ⟨_, _, hy, bind_ok_iff.mpr ⟨_, _, hv,
      bind_ok_iff.mpr ⟨_, _, ht, hu⟩⟩⟩⟩
  refine ⟨x, y, u, rs, _, rest, first, hx, hy, hytree, hfinish, fun hflag hcollect => ?_⟩
  have hends : Ends (do Provider.okEnd f; attachResource eng) w y :=
    .of_ok (bind_ok_iff.mpr ⟨_, _, hx, hy⟩)
  have hspanwise {R : World φ → World φ → Prop} [Std.Refl R] [IsTrans (World φ) R]
      (h : Spanwise eng R) : R w y := Keeps.bind (h.okEnd f) (fun _ => h.attachResource) hends
  have hflag' : sampledFlag eng y = sampledFlag eng w :=
    hspanwise (flag_tolerates (g := .none) id id).toSpanwise
  obtain ⟨hcollect', hexported'⟩ := Prod.mk.inj (hspanwise collect_blind.spanwise)
  rw [hexported, ← hexported']
  exact hexports (hflag'.trans hflag) (hcollect'.trans hcollect)

/-- The end of a session: its first span is ended, and the spans of the request are exported as
they are then, when the flag is up. -/
theorem Open.ends {f : Nat} (h : Open eng f w) :
    ∃ x w', Provider.okEnd f w = .ok ((), x) ∧ shutdown_tracer eng w = .ok ((), w') ∧
      (sampledFlag eng w = true → w.globals.enable_collect = true →
        ∃ resource spans, w'.exported = w.exported ++ [[(resource, spans)]] ∧
          ∀ q, InRequest eng w q → ∃ s ∈ spans, x.memory.spans.cell q = some s) := by
  obtain ⟨x, y, u, rs, r, rest, first, hx, hy, htree, hu, hexports⟩ :=
    finishSession_returns h.toInSession
  obtain ⟨w', hw', hexported⟩ : ∃ w', shutdown_tracer eng w = .ok ((), w') ∧
      w'.exported = u.exported := by
    obtain ⟨_, _, _, _, hfirst⟩ := h.tree.at_first h.first
    refine ⟨{ u with globals :=
      { u.globals with is_started_cli_tracer := false, curl_header := none } }, ?_, rfl⟩
    simp only [shutdown_tracer, bind_apply, globals_apply, ok_bind, ite_apply,
      if_neg (show ¬ (eng.cli = true ∧ _) from h.effective), hfirst.hasFirst.firstOneSpan, hu]
    rfl
  refine ⟨x, w', hx, hw', fun hflag hcollect => ?_⟩
  obtain ⟨payload, hpayload, happended⟩ := hexports hflag hcollect
  rw [htree.serialises hpayload] at happended
  refine ⟨_, _, hexported.trans happended, fun q hq => ?_⟩
  have hspans : y.memory.spans = x.memory.spans := spans_attachResource (.of_ok hy)
  rw [← hspans]
  have hnext : y.memory.spans.next = w.memory.spans.next := by
    rw [hspans, ((Closes.okEnd f).returns hx).next]
  obtain rfl | ⟨hlt, hlast⟩ := h.toInSession.inRequest_iff.mp hq
  · exact ⟨first, List.mem_cons_self, htree.cell⟩
  · have hmem := (htree.spread q).mpr ⟨hlt, hnext ▸ hlast⟩
    obtain ⟨s, hs, -⟩ := htree.children q hmem
    exact ⟨s, List.mem_cons_of_mem _ (List.mem_filterMap.mpr ⟨q, hmem, hs⟩), hs⟩

/-- Code that is not granted to sample acts by ends of spans and otherwise. -/
theorem acts_built {g : Grants} {α : Type} {m : M φ α} (hsamples : ¬ g.samples)
    (hm : Built (Move eng g) m) (h : Ends m w w') :
    ∃ is, Run (Does eng) w is w' ∧ ∀ i ∈ is, ∀ args, i ≠ .set_sample_ratio_based args := by
  refine runs_of_built hm (fun hmove hends => ?_) h
  rename_i α' m' s t
  have hother {g : Grants} (hg : ¬ g.ends ∧ ¬ g.samples) (hbuilt : Move eng g m') :
      ∃ is, Run (Does eng) s is t ∧ ∀ i ∈ is, ∀ args, i ≠ .set_sample_ratio_based args :=
    ⟨[.other], Run.nil.snoc (.work hg.1 hg.2 (.op hbuilt) hends), by simp⟩
  cases hmove with
  | okEnd _ span => exact ⟨[.okEnd span], Run.nil.snoc (.okEnd hends), by simp⟩
  | errorEnd _ span message =>
    exact ⟨[.errorEnd span message], Run.nil.snoc (.errorEnd hends), by simp⟩
  | setSampled h _ => exact absurd h hsamples
  | createChildSpan _ name kind =>
    exact hother (g := { Grants.none with creates := True }) ⟨id, id⟩
      (.createChildSpan trivial name kind)
  | note span hf => exact hother (g := .none) ⟨id, id⟩ (.note span hf)
  | setRedisException _ message =>
    exact hother (g := { Grants.none with raises := True }) ⟨id, id⟩
      (.setRedisException trivial message)
  | assignBaggage key value => exact hother (g := .none) ⟨id, id⟩ (.assignBaggage key value)
  | addResourceAttribute resource kv =>
    exact hother (g := .none) ⟨id, id⟩ (.addResourceAttribute resource kv)
  | tick => exact hother (g := .none) ⟨id, id⟩ .tick
  | php state => exact hother (g := .none) ⟨id, id⟩ (.php state)
  | headers _ entries =>
    exact hother (g := { Grants.none with stores := True }) ⟨id, id⟩ (.headers trivial entries)

/-- What the extension is called for is a run of acts, and it changes the ratio only when it is
called for that. -/
theorem acts_inner {e : Event φ} (h : Step eng natives e w w') (hinner : e.Inner eng.cli)
    (hstarted : Started eng w) : ∃ is, Run (Does eng) w is w' ∧
      ∀ args, .set_sample_ratio_based args ∈ is → e = .call (.sdk (.set_sample_ratio_based args)) := by
  have hnone {e : Event φ} (hacts : ∃ is, Run (Does eng) w is w' ∧
      ∀ i ∈ is, ∀ args, i ≠ .set_sample_ratio_based args) : ∃ is, Run (Does eng) w is w' ∧
        ∀ args, .set_sample_ratio_based args ∈ is →
          e = .call (.sdk (.set_sample_ratio_based args)) := by
    obtain ⟨is, hrun, his⟩ := hacts
    exact ⟨is, hrun, fun args hmem => absurd rfl (his _ hmem args)⟩
  have hcall {c : Call} (hsamples : ¬ c.grants.samples) (h : Step eng natives (.call c) w w') :=
    hnone (e := .call c) (acts_built hsamples (Move.built_call c) h)
  obtain ⟨c, rfl⟩ | ⟨s, rfl, rfl⟩ | ⟨hcli, ppid, rfl⟩ | rfl := inner_cases h hinner hstarted
  · cases c with
    | sdk call =>
      by_cases hsamples : call.Samples
      · cases call with
        | set_sample_ratio_based args =>
          refine ⟨[.set_sample_ratio_based args], Run.nil.snoc (.set_sample_ratio_based h), ?_⟩
          simp
        | _ => exact hsamples.elim
      · exact hnone (acts_built (g := { Grants.none with creates := True, ends := True }) id
          (Move.built_sdk call (fun _ => ⟨trivial, trivial⟩) fun h => absurd h hsamples) h)
    | enter => exact hcall id h
    | leave => exact hcall id h
    | curl_setopt => exact hcall id h
    | curl_setopt_array => exact hcall id h
    | curl_close => exact hcall id h
    | error => exact hcall id h
    | exception => exact hcall id h
  · exact hnone ⟨[.other], Run.nil.snoc (.surround w s), by simp⟩
  · exact hnone ⟨[.other], Run.nil.snoc (.reparent w hcli ppid), by simp⟩
  · exact hnone ⟨[], .nil, by simp⟩

/-- So is a whole session. -/
theorem acts_run {es : List (Event φ)} (hrun : Run (Step eng natives) v es w)
    (hinner : ∀ e ∈ es, e.Inner eng.cli) (hstarted : Started eng v) :
    ∃ is, Run (Does eng) v is w ∧ ∀ args, .set_sample_ratio_based args ∈ is →
      Event.call (.sdk (.set_sample_ratio_based args)) ∈ es := by
  induction hrun with
  | nil => exact ⟨[], .nil, by simp⟩
  | @snoc es e t u hfirst hlast ih =>
    have hbefore : ∀ e ∈ es, e.Inner eng.cli := fun e he => hinner e (List.mem_append_left _ he)
    obtain ⟨is, his, hratio⟩ := ih hbefore
    have hstarted' : Started eng t :=
      (inner_run (I := fun _ => True) (fun _ _ _ _ => trivial) hfirst hbefore hstarted trivial).1
    obtain ⟨js, hjs, hratio'⟩ := acts_inner hlast (hinner e (by simp)) hstarted'
    refine ⟨is ++ js, his.append hjs, fun args hmem => ?_⟩
    rcases List.mem_append.mp hmem with hmem | hmem
    · exact List.mem_append_left _ (hratio args hmem)
    · rw [hratio' args hmem]
      exact List.mem_append_right _ (List.mem_singleton.mpr rfl)

/-- Errors are never lost. At the end of a session a span has the message of the last error it was
ended with, and is well if it was only ever ended well; and if there was an error and the SDK was
not told to sample nothing since, the session is sampled and exported. -/
theorem errors_kept (hopened : Opened eng natives v) (hrun : Run (Does eng) v is w) :
    ∃ f x w', w.first eng = some f ∧ Provider.okEnd f w = .ok ((), x) ∧
      shutdown_tracer eng w = .ok ((), w') ∧
      (∀ q, InRequest eng w q →
        (∀ message, (messages q is).getLast? = some message → x.verdict q = ⟨.error, message⟩) ∧
        (messages q is = [] → .okEnd q ∈ is ∨ q = f → x.verdict q = ⟨.ok, []⟩)) ∧
      ∀ before q message after, is = before ++ .errorEnd q message :: after →
        .set_sample_ratio_based (some 0) ∉ after →
          Provider.isSampled eng w = .ok (true, w) ∧
          (w.globals.enable_collect = true → ∃ resource spans,
            w'.exported = w.exported ++ [[(resource, spans)]] ∧
              ∀ q, InRequest eng w q → ∃ s ∈ spans, x.memory.spans.cell q = some s) := by
  obtain ⟨f, hv, hverdicts⟩ := hopened.verdicts
  have hw := open_run hrun hv
  obtain ⟨x, w', hx, hw', hexports⟩ := hw.ends
  refine ⟨f, x, w', hw.first, hx, hw', fun q hq => ?_, fun before q message after his hafter => ?_⟩
  · have hle : f ≤ q := by
      obtain rfl | ⟨hlt, -⟩ := hw.toInSession.inRequest_iff.mp hq <;> omega
    have hfinal : x.verdict q = finalVerdict q (is ++ [.okEnd f]) := by
      rw [verdict_run (hrun.snoc (.okEnd (.of_ok hx))) q, hverdicts q hle, foldl_verdict]
    have hsame : messages q (is ++ [.okEnd f]) = messages q is := by
      rw [messages_append]
      exact List.append_nil _
    rw [hfinal, finalVerdict, hsame]
    constructor
    · intro message hlast
      rw [hlast]
    · intro hnone hok
      rw [hnone, List.getLast?_nil]
      refine if_pos ?_
      rcases hok with hok | rfl
      · exact List.mem_append_left _ hok
      · exact List.mem_append_right _ (List.mem_singleton.mpr rfl)
  · rw [his] at hrun
    have hflag := flag_run hrun hafter
    exact ⟨isSampled_of_flag hflag, hexports hflag⟩

/-- A request that fails, is then ended well, and has failed all the same. -/
theorem errors_kept_request : ∃ (v w x w' : World Unit) (f : Nat),
    Opened (.bare false) .bare v ∧
      Run (Does (.bare false)) v [.errorEnd f (lit "timeout"), .okEnd f] w ∧
      Provider.okEnd f w = .ok ((), x) ∧ shutdown_tracer (.bare false) w = .ok ((), w') ∧
      x.verdict f = ⟨.error, lit "timeout"⟩ ∧ Provider.isSampled (.bare false) w = .ok (true, w) := by
  have hplayed : ((final (opentelemetry_request_init (.bare false)) (World.fresh ())).any fun v =>
      (final (Provider.errorEnd (.bare false) 0 (lit "timeout")) v).any fun u =>
        (final (Provider.okEnd 0) u).any fun w => w.first (.bare false) == some 0) = true := by
    decide +kernel
  obtain ⟨v, hv, hplayed⟩ := (Option.any_eq_true _ _).mp hplayed
  obtain ⟨u, hu, hplayed⟩ := (Option.any_eq_true _ _).mp hplayed
  obtain ⟨w, hw, hfirst⟩ := (Option.any_eq_true _ _).mp hplayed
  have hopened : Opened (.bare false) .bare v :=
    ⟨World.fresh (), [], _, .request_init, rfl, .nil, ⟨rfl, Bool.false_ne_true⟩,
      ends_iff_final.mpr hv⟩
  have hrun : Run (Does (.bare false)) v [.errorEnd 0 (lit "timeout"), .okEnd 0] w :=
    (Run.nil.snoc (.errorEnd (ends_iff_final.mpr hu))).snoc (.okEnd (ends_iff_final.mpr hw))
  obtain ⟨f, x, w', hf, hx, hw', hverdicts, herrors⟩ := errors_kept hopened hrun
  obtain rfl : f = 0 := Option.some.inj (hf.symm.trans (beq_iff_eq.mp hfirst))
  obtain ⟨g, hopen, -⟩ := hopened.verdicts
  obtain rfl : 0 = g := Option.some.inj (hf.symm.trans (open_run hrun hopen).first)
  have hin : InRequest (.bare false) w 0 :=
    (open_run hrun hopen).toInSession.inRequest_iff.mpr (.inl rfl)
  have hlast : (messages 0 [.errorEnd 0 (lit "timeout"), .okEnd 0]).getLast? =
      some (lit "timeout") := rfl
  exact ⟨v, w, x, w', 0, hopened, hrun, hx, hw', (hverdicts 0 hin).1 _ hlast,
    (herrors [] 0 (lit "timeout") [.okEnd 0] rfl (by simp)).1⟩

end opentelemetry
