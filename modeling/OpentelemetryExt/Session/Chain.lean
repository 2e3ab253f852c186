import OpentelemetryExt.Session.Trace

open heap stateful run

namespace opentelemetry

variable {φ : Type} {eng : Engine φ} {u v w w' : World φ}

/-- The header that stands for a trace id, a span id and a flag. -/
def traceparentHeader (trace_id span_id : Bytes) (sampled : Bool) : Bytes :=
  lit "00-" ++ Hex.encode trace_id ++ lit "-" ++ Hex.encode span_id ++ lit "-" ++
    lit (if sampled then "01" else "00")

theorem formatTraceParentHeader_ok {span : Nat} {header : Bytes}
    (h : Provider.formatTraceParentHeader eng span w = .ok (header, w')) :
    ∃ s sampled, w.memory.spans.cell span = some s ∧ 16 ≤ s.trace_id.length ∧
      8 ≤ s.span_id.length ∧ Provider.isSampled eng w = .ok (sampled, w') ∧
      header = traceparentHeader (s.trace_id.take 16) (s.span_id.take 8) sampled := by
  obtain ⟨s, u, hread, htrace⟩ := bind_ok_iff.mp h
  obtain ⟨rfl, hcell⟩ := readSpan_ok hread
  obtain ⟨trace_id, u', hcopy, hspan⟩ := bind_ok_iff.mp htrace
  obtain ⟨htaken, rfl⟩ := lift_ok_iff.mp hcopy
  obtain ⟨span_id, u, hcopy', hsampled⟩ := bind_ok_iff.mp hspan
  obtain ⟨htaken', rfl⟩ := lift_ok_iff.mp hcopy'
  obtain ⟨sampled, v, hflag, hreturn⟩ := bind_ok_iff.mp hsampled
  obtain ⟨hlen, rfl⟩ := copyBytes_eq_ok_iff.mp htaken
  obtain ⟨hlen', rfl⟩ := copyBytes_eq_ok_iff.mp htaken'
  cases hreturn
  exact ⟨s, sampled, hcell, hlen, hlen', hflag, rfl⟩

theorem not_mem_encode {c : UInt8} (hc : ¬ IsHexDigit c) (data : Bytes) : c ∉ Hex.encode data :=
  fun hmem => hc (Hex.encode_digits data c hmem)

/-- The fields of the header are the two ids and the flag again. -/
theorem fields_traceparentHeader (trace_id span_id : Bytes) (sampled : Bool) :
    fields (traceparentHeader trace_id span_id sampled) =
      [lit "00", Hex.encode trace_id, Hex.encode span_id, lit (if sampled then "01" else "00")] := by
  have hjoin : traceparentHeader trace_id span_id sampled = [45].intercalate
      [lit "00", Hex.encode trace_id, Hex.encode span_id, lit (if sampled then "01" else "00")] := by
    simp [traceparentHeader, List.intercalate, List.intersperse, lit]
  rw [fields, hjoin, List.splitOn_intercalate 45 _ (by simp)]
  intro l hl
  simp only [List.mem_cons, List.not_mem_nil, or_false] at hl
  obtain rfl | rfl | rfl | rfl := hl
  · decide
  · exact not_mem_encode (by decide) _
  · exact not_mem_encode (by decide) _
  · cases sampled <;> decide

/-- The parse of a formatted header gives the ids and the flag to the first span. -/
theorem parseTraceParent_formatted {f : Nat} {s : Span} {trace_id span_id : Bytes} {sampled : Bool}
    (hfirst : HasFirst eng w f s) (htrace : trace_id.length = 16) (hspan : span_id.length = 8) :
    ∃ w', Provider.parseTraceParent eng (traceparentHeader trace_id span_id sampled) w = .ok ((), w') ∧
      HasFirst eng w' f { s with trace_id := trace_id, parent_span_id := span_id } ∧
      sampledFlag eng w' = sampled := by
  obtain ⟨w', hparse, hw', hflag⟩ := Provider.parseTraceParent_copies
    (fields_traceparentHeader trace_id span_id sampled) hfirst
    (by rw [Hex.decode_encode, htrace]) (by rw [Hex.decode_encode, hspan])
  refine ⟨w', hparse, ?_, ?_⟩
  · simpa [Hex.decode_encode, ← htrace, ← hspan] using hw'
  · rw [hflag]
    cases sampled <;> decide

/-- A session starts: the slot is reset, the first span created and the header parsed. -/
def Starts (eng : Engine φ) (header : Bytes) (w parsed : World φ) : Prop :=
  ∃ (u v : World φ) (name : Bytes) (kind : SpanKind) (q : Nat), u.core = (w.reset eng).core ∧
    Provider.createFirstSpan eng name kind u = .ok (q, v) ∧
      Provider.parseTraceParent eng header v = .ok ((), parsed)

/-- What `start_tracer` does: it starts a session, and all it does after that is a deed of it. -/
theorem starts_of_start {traceparent tracebaggage : Bytes} {kind : SpanKind}
    (h : start_tracer eng traceparent tracebaggage kind w = .ok ((), w'))
    (heffective : ¬ Refuses eng w.globals) :
    ∃ header parsed, Starts eng header w parsed ∧ Reaches eng parsed w' ∧
      (eng.cli = true → header = traceparent) := by
  obtain ⟨u, v, v₁, header, name, kind', q, m, hcore, hcreate, hparse, hbuilt, hrest, hcli, -⟩ :=
    start_tracer_ok h heffective
  exact ⟨header, v₁, ⟨u, v, name, kind', q, hcore, hcreate, hparse⟩,
    .single (.work (hbuilt.trans Move.built_op) hrest), hcli⟩

/-- A cleaned slot with its first span: it is alone in the request. -/
theorem createFirstSpan_alone {name : Bytes} {kind : SpanKind} {q : Nat}
    (h : Provider.createFirstSpan eng name kind u = .ok (q, v))
    (hclean : ∀ p, u.globals.provider = some p →
      (p.slots (u.key eng)).request = none ∧ (p.slots (u.key eng)).firstSpan = none) :
    ∃ s rs r, HasFirst eng v q s ∧ s.trace_id.length = 16 ∧ Laid eng v q rs r ∧ r.spans = [q] ∧
      Whole eng v rs := by
  obtain ⟨v', p, hcreate, hp, rfl⟩ := Provider.createFirstSpan_ok h
  obtain ⟨rs, u', p', span, htracer, hp', hadded, hinherits⟩ := Provider.createSpan_ok hcreate
  obtain ⟨p₁, hp₁, ⟨hsome, -, -⟩ | ⟨-, rfl, rfl⟩⟩ := Provider.getTracer_ok htracer
  · rw [(hclean p₁ hp₁).1] at hsome
    cases hsome
  · cases hp'
    rw [hadded.globals] at hp
    cases hp
    have hkey : v'.key eng = u.key eng := World.key_congr hadded.ppid
    have hnone := (hclean p₁ hp₁).2
    simp only [World.withRequest, World.key_withProvider, World.key_withMemory,
      Provider.set_self, hnone] at hinherits
    refine ⟨span, u.memory.resource_spans.next, ⟨none, [q]⟩, ⟨_, rfl, ?_, ?_⟩, hinherits,
      ⟨⟨_, rfl, ?_, ?_, ?_⟩, ?_, ?_⟩, rfl, ⟨_, u.memory.requests.next, rfl, ?_, ?_⟩⟩
    · simp
    · simp [hadded.memory, hadded.pointer]
    · simp
    · simp [hkey]
    · simp [hkey]
    · simp [hadded.memory, World.withRequest]
    · simp
    · simp [hkey]
    · simp [hadded.memory, World.withRequest]

theorem reset_clean (h : Kept w) (heq : u.core = (w.reset eng).core) :
    ∀ p, u.globals.provider = some p →
      (p.slots (u.key eng)).request = none ∧ (p.slots (u.key eng)).firstSpan = none := by
  have hprovider : u.globals.provider = (w.reset eng).globals.provider :=
    show u.core.globals.provider = _ by rw [heq]; rfl
  have hppid : u.ppid = w.ppid := show u.core.ppid = _ by rw [heq]; rfl
  have hslots : ∀ key, ((w.globals.provider.getD {}).slots key).Kept := by
    cases hp : w.globals.provider with
    | none => exact fun key hfirst => hfirst
    | some p => exact h p hp
  rintro p hp
  rw [hprovider] at hp
  cases hp
  rw [World.key_congr hppid]
  simpa [Provider.set] using (hslots (w.key eng)).cleaned_none eng.cli

/-- A new session is one trace: that of its first span. -/
theorem Starts.traced {header : Bytes} (h : Starts eng header w w') (hw : Kept w) :
    ∃ f s, HasFirst eng w' f s ∧ s.trace_id.length = 16 ∧ Traced eng s.trace_id w' := by
  obtain ⟨u, v, name, kind, q, hcore, hcreate, hparse⟩ := h
  obtain ⟨s, rs, r, hfirst, hlen, hlaid, hspans, -⟩ :=
    createFirstSpan_alone hcreate (reset_clean hw hcore)
  have hlaid' : Laid eng w' q rs r := hlaid.of_shape (shape_parseTraceParent header (.of_ok hparse))
  obtain ⟨s', hfirst', hlen'⟩ := Provider.parseTraceParent_length hfirst hlen hparse
  refine ⟨q, s', hfirst', hlen', q, rs, r, hlaid', fun q' hq' => ?_⟩
  rw [hspans, List.mem_singleton] at hq'
  obtain ⟨p, -, -, hcell⟩ := hfirst'
  exact ⟨s', hq' ▸ hcell, rfl⟩

/-- With a formatted header the session takes the ids and the flag from it. -/
theorem Starts.formatted {trace_id span_id : Bytes} {sampled : Bool}
    (h : Starts eng (traceparentHeader trace_id span_id sampled) w w')
    (htrace : trace_id.length = 16) (hspan : span_id.length = 8) :
    ∃ f s, HasFirst eng w' f s ∧ s.trace_id = trace_id ∧ s.parent_span_id = span_id ∧
      sampledFlag eng w' = sampled := by
  obtain ⟨u, v, name, kind, q, -, hcreate, hparse⟩ := h
  obtain ⟨s, hfirst, -⟩ := Provider.createFirstSpan_hasFirst hcreate
  obtain ⟨w'', hformatted, hw', hflag⟩ := parseTraceParent_formatted hfirst htrace hspan
  rw [hparse] at hformatted
  cases hformatted
  exact ⟨q, _, hw', rfl, rfl, hflag⟩

/-- A traced process: what it has done so far, and the start of a session with the header
that it received, up to the parse. -/
structure Process (φ : Type) where
  eng : Engine φ
  natives : CurlNatives φ
  origin : World φ
  past : List (Event φ)
  before : World φ
  header : Bytes
  parsed : World φ
  new : origin.globals.provider = none
  run : Run (Step eng natives) origin past before
  starts : Starts eng header before parsed

/-- A client span of a process, and the header that is formatted for it later on. -/
structure Client (P : Process φ) where
  before : World φ
  name : Bytes
  span : Nat
  created : World φ
  formatting : World φ
  header : Bytes
  after : World φ
  reached : Reaches P.eng P.parsed before
  creates : Provider.createSpan P.eng name .client before = .ok (span, created)
  later : Reaches P.eng created formatting
  formats : Provider.formatTraceParentHeader P.eng span formatting = .ok (header, after)

/-- A chain of processes, each of which receives the header of a client span of the one
before it. -/
inductive Chain (P : Process φ) : Process φ → Prop
  | first : Chain P P
  | hop {Q R : Process φ} (c : Client Q) : Chain P Q → R.header = c.header → Chain P R

/-- The spans of the current request. -/
def InTrace (eng : Engine φ) (w : World φ) (q : Nat) : Prop :=
  ∃ f rs r, Laid eng w f rs r ∧ q ∈ r.spans

/-- All spans that the process ever has in its request are in the trace `T`. -/
def Process.AllIn (P : Process φ) (T : Bytes) : Prop :=
  ∀ w q s, Reaches P.eng P.parsed w → InTrace P.eng w q → w.memory.spans.cell q = some s →
    s.trace_id = T

theorem Process.kept (P : Process φ) : Kept P.before := kept_run P.new P.run

theorem Process.allIn {P : Process φ} {T : Bytes} (h : Traced P.eng T P.parsed) : P.AllIn T := by
  rintro w q s hreach ⟨f, rs, r, hlaid, hmem⟩ hcell
  obtain ⟨f', rs', r', hlaid', hall⟩ := hreach.traced h
  obtain ⟨-, -, rfl⟩ := hlaid.unique hlaid'
  obtain ⟨s', hs', htrace⟩ := hall q hmem
  obtain rfl : s = s' := Option.some.inj (hcell.symm.trans hs')
  exact htrace

/-- The header of a client span carries the trace, the span's id and the flag of the moment. -/
theorem Client.header_eq {P : Process φ} {T : Bytes} (c : Client P)
    (h : Traced P.eng T P.parsed) (hlen : T.length = 16) :
    ∃ s sampled, c.formatting.memory.spans.cell c.span = some s ∧ s.span_id.length = 8 ∧
      Provider.isSampled P.eng c.formatting = .ok (sampled, c.after) ∧
      c.header = traceparentHeader T s.span_id sampled := by
  obtain ⟨-, -, s₀, hcell₀, htrace₀, hid₀⟩ := (c.reached.traced h).createSpan c.creates
  obtain ⟨s, hcell, htrace, hid, -⟩ := c.later.idsKept c.span s₀ hcell₀
  obtain ⟨s', sampled, hcell', -, -, hsampled, hheader⟩ := formatTraceParentHeader_ok c.formats
  obtain rfl : s = s' := Option.some.inj (hcell.symm.trans hcell')
  have htake : s.trace_id.take 16 = T := by
    rw [htrace, htrace₀, List.take_of_length_le hlen.le]
  have htake' : s.span_id.take 8 = s.span_id := List.take_of_length_le (by rw [hid, hid₀])
  exact ⟨s, sampled, hcell, by rw [hid, hid₀], hsampled, by rw [hheader, htake, htake']⟩

/-- One hop: the next process is in the same trace. -/
theorem Client.hop {P R : Process φ} {T : Bytes} (c : Client P) (hheader : R.header = c.header)
    (h : Traced P.eng T P.parsed) (hlen : T.length = 16) :
    Traced R.eng T R.parsed ∧ ∃ f s t sampled, HasFirst R.eng R.parsed f s ∧
      c.formatting.memory.spans.cell c.span = some t ∧ t.span_id.length = 8 ∧
      s.parent_span_id = t.span_id ∧
      Provider.isSampled P.eng c.formatting = .ok (sampled, c.after) ∧
      sampledFlag R.eng R.parsed = sampled := by
  obtain ⟨t, sampled, hcell, hid, hsampled, hformat⟩ := c.header_eq h hlen
  have hstarts : Starts R.eng (traceparentHeader T t.span_id sampled) R.before R.parsed := by
    rw [← hformat, ← hheader]
    exact R.starts
  obtain ⟨f, s, hfirst, -, htraced⟩ := R.starts.traced R.kept
  obtain ⟨f', s', hfirst', htrace, hparent, hflag⟩ := hstarts.formatted hlen hid
  obtain ⟨rfl, rfl⟩ := hfirst.unique hfirst'
  exact ⟨htrace ▸ htraced, f, s, t, sampled, hfirst, hcell, hid, hparent, hsampled, hflag⟩

theorem Chain.traced {P Q : Process φ} (h : Chain P Q) : ∃ f s, HasFirst P.eng P.parsed f s ∧
    s.trace_id.length = 16 ∧ Traced Q.eng s.trace_id Q.parsed := by
  induction h with
  | first => exact P.starts.traced P.kept
  | hop c hchain hheader ih =>
    obtain ⟨f, s, hfirst, hlen, htraced⟩ := ih
    exact ⟨f, s, hfirst, hlen, (c.hop hheader htraced hlen).1⟩

/-- The trace context survives any chain of processes. Every span of a process in the chain
has the trace id of the first span of the first process; and at each hop the first span of the
receiver has the client span as its parent and the flag that was current at the formatting. -/
theorem trace_survives {P Q : Process φ} (h : Chain P Q) :
    ∃ f s, HasFirst P.eng P.parsed f s ∧ s.trace_id.length = 16 ∧ Q.AllIn s.trace_id ∧
      ∀ (c : Client Q) (R : Process φ), R.header = c.header →
        ∃ f' s' t sampled, HasFirst R.eng R.parsed f' s' ∧
          c.formatting.memory.spans.cell c.span = some t ∧ t.span_id.length = 8 ∧
          s'.parent_span_id = t.span_id ∧
          Provider.isSampled Q.eng c.formatting = .ok (sampled, c.after) ∧
          sampledFlag R.eng R.parsed = sampled := by
  obtain ⟨f, s, hfirst, hlen, htraced⟩ := h.traced
  exact ⟨f, s, hfirst, hlen, Process.allIn htraced, fun c R hheader => (c.hop hheader htraced hlen).2⟩

/-- A process that received no header and formats one for a client span. -/
theorem client_bare : ∃ parsed span created header after,
    Starts (.bare false) [] (World.fresh ()) parsed ∧
      Provider.createSpan (.bare false) [] .client parsed = .ok (span, created) ∧
        Provider.formatTraceParentHeader (.bare false) span created = .ok (header, after) :=
  ⟨_, _, _, _, _, ⟨(World.fresh ()).reset (.bare false), _, [], .server, 0, rfl, rfl, rfl⟩, rfl, rfl⟩

/-- A fresh process takes up any formatted header. -/
theorem starts_bare {trace_id span_id : Bytes} (sampled : Bool) (htrace : trace_id.length = 16)
    (hspan : span_id.length = 8) : ∃ parsed,
      Starts (.bare false) (traceparentHeader trace_id span_id sampled) (World.fresh ()) parsed := by
  have hcreate : ∃ v, Provider.createFirstSpan (.bare false) [] .server
      ((World.fresh ()).reset (.bare false)) = .ok (0, v) := ⟨_, rfl⟩
  obtain ⟨v, hcreate⟩ := hcreate
  obtain ⟨s, hfirst, -⟩ := Provider.createFirstSpan_hasFirst hcreate
  obtain ⟨parsed, hparse, -⟩ := parseTraceParent_formatted hfirst htrace hspan
  exact ⟨parsed, _, v, [], .server, 0, rfl, hcreate, hparse⟩

/-- A chain of two processes: the second has all its spans in the trace of the first. -/
theorem trace_survives_hop : ∃ (P Q : Process Unit) (c : Client P), Q.header = c.header ∧
    ∃ f s, HasFirst P.eng P.parsed f s ∧ s.trace_id.length = 16 ∧ Q.AllIn s.trace_id := by
  obtain ⟨parsed, span, created, header, after, hstarts, hcreate, hformat⟩ := client_bare
  let P : Process Unit := ⟨.bare false, .bare, World.fresh (), [], _, [], parsed, rfl, .nil, hstarts⟩
  let c : Client P := ⟨parsed, [], span, created, created, header, after, .refl, hcreate, .refl, hformat⟩
  obtain ⟨f, s, -, hlen, htraced⟩ := (Chain.first (P := P)).traced
  obtain ⟨t, sampled, -, hid, -, hheader⟩ := c.header_eq htraced hlen
  obtain ⟨parsed', hstarts'⟩ := starts_bare sampled hlen hid
  let Q : Process Unit := ⟨.bare false, .bare, World.fresh (), [], _, _, parsed', rfl, .nil, hstarts'⟩
  obtain ⟨f, s, hfirst, hlen, hall, -⟩ := trace_survives (.hop c .first hheader.symm : Chain P Q)
  exact ⟨P, Q, c, hheader.symm, f, s, hfirst, hlen, hall⟩

end opentelemetry
