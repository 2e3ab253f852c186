import OpentelemetryExt.Session.HeaderLines
import OpentelemetryExt.ZendHook.Extraction

open heap stateful run

namespace opentelemetry

variable {φ : Type} {eng : Engine φ} {u v w w' : World φ} {e : ExecuteData} {q : Nat}

/-- A process that starts with the header of a span is in the trace of the span, below it. -/
theorem Process.continues {R : Process φ} {T : Bytes} {s : Span}
    (hformat : Provider.formatTraceParentHeader eng q w = .ok (R.header, w'))
    (hcell : w.memory.spans.cell q = some s) (htrace : s.trace_id = T) (hlen : T.length = 16)
    (hid : s.span_id.length = 8) : R.AllIn T ∧
      ∃ f first, HasFirst R.eng R.parsed f first ∧ first.parent_span_id = s.span_id := by
  obtain ⟨s', sampled, hcell', -, -, -, hheader⟩ := formatTraceParentHeader_ok hformat
  obtain rfl : s = s' := Option.some.inj (hcell.symm.trans hcell')
  rw [htrace, List.take_of_length_le hlen.le, List.take_of_length_le hid.le] at hheader
  have hstarts : Starts R.eng (traceparentHeader T s.span_id sampled) R.before R.parsed := by
    rw [← hheader]
    exact R.starts
  obtain ⟨f, first, hfirst, -, htraced⟩ := R.starts.traced R.kept
  obtain ⟨f', first', hfirst', htrace', hparent, -⟩ := hstarts.formatted hlen hid
  obtain ⟨rfl, rfl⟩ := hfirst.unique hfirst'
  exact ⟨Process.allIn (htrace' ▸ htraced), f, first, hfirst, hparent⟩

/-- The arguments of `setopt` that make the client send the two header lines. -/
def yarOptions (traceparent baggage : Bytes) : List Zval :=
  [.long YAR_OPT_HEADER, .array ([.index 0, .index 1].zip (contextLines traceparent baggage))]

theorem yarHeaders_ok (h : yarHeaders eng e q w = .ok ((), w')) :
    ∃ traceparent baggage formatted result,
      Provider.formatTraceParentHeader eng q w = .ok (traceparent, formatted) ∧
      eng.call_method w.php e.This (lit "setopt") (yarOptions traceparent baggage) =
        some (result, w'.php) := by
  obtain ⟨traceparent, u, hformat, hrest⟩ := bind_ok_iff.mp h
  obtain ⟨list, u₁, hadd, hrest₁⟩ := bind_ok_iff.mp hrest
  obtain ⟨hlist, rfl⟩ := lift_ok_iff.mp hadd
  cases hlist
  obtain ⟨baggage, u₂, hbaggage, hrest₂⟩ := bind_ok_iff.mp hrest₁
  obtain rfl := Op.reads_formatBaggageHeader (.of_ok hbaggage)
  obtain ⟨list', u₃, hadd', hrest₃⟩ := bind_ok_iff.mp hrest₂
  obtain ⟨hlist', rfl⟩ := lift_ok_iff.mp hadd'
  cases hlist'
  obtain ⟨result, u₄, hcall, hreturn⟩ := bind_ok_iff.mp hrest₃
  obtain ⟨handle, class_name, php, -, hmethod, rfl⟩ := zend_call_method_ok.mp hcall
  cases hreturn
  have hphp : u₃.php = w.php := by
    obtain ⟨s, sampled, -, -, -, hsampled, -⟩ := formatTraceParentHeader_ok hformat
    exact php_blind.spanwise.isSampled (.of_ok hsampled)
  refine ⟨traceparent, baggage, u₃, result, hformat, ?_⟩
  rw [← hphp]
  exact hmethod

theorem php_addAttribute (q : Nat) (kv : KeyValue) :
    Keeps (SameOn (World.php : World φ → φ)) (addAttribute q kv) := by
  have hblind : Blind (.bare false) (SameOn (World.php : World φ → φ)) := php_blind
  exact hblind.spanwise.modifySpan q _

/-- The texts of the arguments are only read. -/
theorem php_yarCommand (q : Nat) (command : Bytes) (i : Nat) :
    Keeps (SameOn (World.php : World φ → φ)) (yarCommand eng e q command i) := by
  refine .bind (.of_reads (.lift _)) fun p => ?_
  split
  · exact .bind (.of_reads (Op.reads_json_encode _)) fun _ => .of_reads (.pure _)
  · exact .ite (.bind (php_addAttribute _ _) fun _ => .of_reads (.pure _)) (.of_reads (.pure _))
  · exact .bind (.of_reads (Op.reads_argumentText _)) fun _ => .of_reads (.pure _)

theorem php_yarCall (q : Nat) (command : Bytes) :
    Keeps (SameOn (World.php : World φ → φ)) (yarCall eng e q command) := by
  refine .bind (php_addAttribute _ _) fun _ => ?_
  split
  · refine .bind (.of_reads .get) fun w => ?_
    split
    · exact .bind (.of_reads (.lift _)) fun _ => php_addAttribute _ _
    · exact .of_reads (.pure _)
  · exact .of_reads (.pure _)

/-- What is done to a span after it was created leaves its ids alone. -/
theorem idsKept_of_built {α : Type} (eng : Engine φ) {m : M φ α} {a : α}
    (hm : Built (Effect eng .none .none) m) (h : m w = .ok (a, w')) : IdsKept w w' :=
  ((Effect.built_move hm).trans Move.built_op).keeps Op.idsKept (.of_ok h)

/-- A call of a client opens a span under the first one, hands its header to the client, and
describes it. -/
theorem yarClientEnter_ok (h : yarClientEnter eng e u = .ok (q, w')) :
    ∃ name f first created v told, HasFirst eng u f first ∧
      Provider.createSpan eng name .client u = .ok (q, created) ∧
      IdsKept (created.withSpan q fun s => { s with parent_span_id := first.span_id }) v ∧
      v.php = u.php ∧ yarHeaders eng e q v = .ok ((), told) ∧ IdsKept v w' ∧ w'.php = told.php := by
  obtain ⟨q', opened, hopen, hrest⟩ := bind_ok_iff.mp h
  obtain ⟨⟨⟩, v, hsystem, hrest₁⟩ := bind_ok_iff.mp hrest
  obtain ⟨⟨⟩, told, hheaders, hrest₂⟩ := bind_ok_iff.mp hrest₁
  obtain ⟨command, read, hcommand, hrest₃⟩ := bind_ok_iff.mp hrest₂
  have hphp : v.php = u.php := by
    rw [← (openSpan_ok hopen).2]
    exact php_addAttribute _ _ (.of_ok hsystem)
  have hkept : IdsKept v read :=
    (idsKept_of_built eng (Effect.built_yarHeaders e q') hheaders).trans
      (idsKept_of_built eng (.foldlM (Effect.built_yarCommand e q') _) hcommand)
  have hturns : Built (fun m => Keeps (SameOn (World.php : World φ → φ)) m)
      ((List.range' 1 (ZEND_CALL_NUM_ARGS e)).foldlM (yarCommand eng e q') []) :=
    .foldlM (fun command i => .op (php_yarCommand q' command i)) _
  have hread : read.php = told.php := hturns.keeps (fun hkeeps => hkeeps) (.of_ok hcommand)
  have hend : q = q' ∧ IdsKept read w' ∧ w'.php = read.php := by
    rw [stateful.ite_apply] at hrest₃
    split at hrest₃
    · obtain ⟨⟨⟩, last, hcall, hreturn⟩ := bind_ok_iff.mp hrest₃
      cases hreturn
      exact ⟨rfl, idsKept_of_built eng (Effect.built_yarCall e _ _) hcall,
        php_yarCall _ _ (.of_ok hcall)⟩
    · cases hrest₃
      exact ⟨rfl, Std.Refl.refl _, rfl⟩
  obtain ⟨rfl, hkept', hsame⟩ := hend
  obtain ⟨q', spawned, hchild, hrest⟩ := bind_ok_iff.mp hopen
  obtain ⟨⟨⟩, described, hadd, hreturn⟩ := bind_ok_iff.mp hrest
  cases hreturn
  obtain ⟨created, f, first, hfirst, hcreate, rfl⟩ := createChildSpan_ok hchild
  have hdescribed : IdsKept _ v :=
    (idsKept_of_built eng (Effect.built_addAttributes q _) hadd).trans
      (idsKept_of_built eng (Effect.built_addAttribute q _) hsystem)
  exact ⟨_, f, first, created, v, told, hfirst, hcreate, hdescribed, hphp, hheaders,
    hkept.trans hkept', hsame.trans hread⟩

/-- A call of a method of a Yar client, in the course of a session: the client is told to send the
header of the span that was opened for the call, and a process that starts with this header is in
the same trace, with its first span below that of the call. -/
theorem yar_call_traced {P : Process φ} (hreach : Reaches P.eng P.parsed u)
    (hcall : yarClientEnter P.eng e u = .ok (q, w')) :
    ∃ f₀ origin f first s traceparent baggage result,
      HasFirst P.eng P.parsed f₀ origin ∧ HasFirst P.eng u f first ∧
      w'.memory.spans.cell q = some s ∧ s.trace_id = origin.trace_id ∧
      s.parent_span_id = first.span_id ∧
      P.eng.call_method u.php e.This (lit "setopt") (yarOptions traceparent baggage) =
        some (result, w'.php) ∧
      ∀ R : Process φ, R.header = traceparent → R.AllIn origin.trace_id ∧
        ∃ f' s', HasFirst R.eng R.parsed f' s' ∧ s'.parent_span_id = s.span_id := by
  obtain ⟨f₀, origin, horigin, hlen, htraced⟩ := P.starts.traced P.kept
  obtain ⟨name, f, first, created, v, told, hfirst, hcreate, hkept, hphp, hheaders, hkept', hsame⟩ :=
    yarClientEnter_ok hcall
  obtain ⟨-, -, span, hspan, htrace, hid⟩ := (hreach.traced htraced).createSpan hcreate
  have hchild : (created.withSpan q fun s => { s with parent_span_id := first.span_id }).memory.spans.cell q
      = some { span with parent_span_id := first.span_id } := by
    rw [World.withSpan, World.memory_withMemory, Heap.cell_modify_self, hspan, Option.map_some]
  obtain ⟨s, hs, htrace', hid', hparent⟩ := hkept q _ hchild
  obtain ⟨s', hs', htrace'', hid'', hparent'⟩ := hkept' q s hs
  obtain ⟨traceparent, baggage, formatted, result, hformat, hmethod⟩ := yarHeaders_ok hheaders
  rw [hphp, ← hsame] at hmethod
  have hparents : s'.parent_span_id = first.span_id := hparent'.trans hparent
  have htraces : s.trace_id = origin.trace_id := htrace'.trans htrace
  refine ⟨f₀, origin, f, first, s', traceparent, baggage, result, horigin, hfirst, hs',
    htrace''.trans htraces, hparents, hmethod, fun R hheader => ?_⟩
  subst hheader
  have hlength : s.span_id.length = 8 := (congrArg List.length hid').trans hid
  rw [hid'']
  exact Process.continues hformat hs htraces hlen hlength

/-- An engine in which clients can be told what they like. -/
def yarEngine : Engine Unit := { Engine.bare false with call_method _ _ _ _ := some (.null, ()) }

/-- `$client->hello(1)`, which PHP hands to `__call`. -/
def helloCall : ExecuteData :=
  { methodFrame "Yar_Client" "__call" with
    args := [.string (lit "hello"), .array [(.index 0, .long 1)]] }

/-- A session that starts without a header, and the call in it. -/
def helloSession : M Unit Nat := do
  let _ ← Provider.createFirstSpan yarEngine [] .server
  Provider.parseTraceParent yarEngine []
  yarClientEnter yarEngine helloCall

theorem starts_yarEngine : ∃ parsed q w', Starts yarEngine [] (World.fresh ()) parsed ∧
    yarClientEnter yarEngine helloCall parsed = .ok (q, w') := by
  have hok : (helloSession ((World.fresh ()).reset yarEngine)).isOk = true := by decide +kernel
  cases hsession : helloSession ((World.fresh ()).reset yarEngine) with
  | error stop =>
    rw [hsession] at hok
    cases hok
  | ok r =>
    obtain ⟨f, u, hcreate, hrest⟩ := bind_ok_iff.mp hsession
    obtain ⟨⟨⟩, parsed, hparse, hcall⟩ := bind_ok_iff.mp hrest
    exact ⟨parsed, r.1, r.2, ⟨_, u, [], .server, f, rfl, hcreate, hparse⟩, hcall⟩

theorem yar_call_traced_hello : ∃ (P : Process Unit) (q : Nat) (w' : World Unit),
    yarClientEnter P.eng helloCall P.parsed = .ok (q, w') ∧
      ∃ (origin s : Span) (traceparent : Bytes), w'.memory.spans.cell q = some s ∧ s.trace_id = origin.trace_id ∧
        ∀ R : Process Unit, R.header = traceparent → R.AllIn origin.trace_id ∧
          ∃ f' s', HasFirst R.eng R.parsed f' s' ∧ s'.parent_span_id = s.span_id := by
  obtain ⟨parsed, q, w', hstarts, hcall⟩ := starts_yarEngine
  let P : Process Unit := ⟨yarEngine, .bare, World.fresh (), [], _, [], parsed, rfl, .nil, hstarts⟩
  obtain ⟨_, origin, _, _, s, traceparent, _, _, -, -, hs, htrace, -, -, hcontinues⟩ :=
    yar_call_traced (P := P) .refl hcall
  exact ⟨P, q, w', hcall, origin, s, traceparent, hs, htrace, hcontinues⟩

end opentelemetry
