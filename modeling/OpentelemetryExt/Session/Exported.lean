import OpentelemetryExt.Session.Reflection

open stateful growing run

namespace opentelemetry

variable {φ : Type} {eng : Engine φ} {natives : CurlNatives φ} {origin u v w : World φ}

/-- A run to a state in which the session is chosen, and the end of the session. -/
theorem run_chosen (eng : Engine φ) (natives : CurlNatives φ) (u : World φ) (es : List (Event φ))
    (e : Event φ)
    (h : ((es.foldlM (fun w e => final (Event.run eng natives e) w) u).any fun w =>
      w.globals.enable_collect && sampledFlag eng w && (final (Event.run eng natives e) w).isSome)) :
    ∃ w w', Run (Step eng natives) u es w ∧ Step eng natives e w w' ∧ ∀ now, Chosen eng now w := by
  rw [Option.any_eq_true] at h
  obtain ⟨w, hfold, hends⟩ := h
  rw [Bool.and_eq_true, Bool.and_eq_true] at hends
  obtain ⟨⟨hcollect, hflag⟩, hend⟩ := hends
  obtain ⟨w', hlast⟩ := Option.isSome_iff_exists.mp hend
  exact ⟨w, w', Run.of_foldlM (fun _ _ _ hlast => ends_iff_final.mpr hlast) hfold,
    ends_iff_final.mpr hlast, fun _ => ⟨hcollect, .inl hflag⟩⟩

/-- The tracer keeps a journal. A session begins one with a single span, and every event in its
course is a step of the journal; in every state the memory holds just what the journal says; and
the end of the session exports the journal with its first span ended, if the session is chosen, and
nothing if it is not. -/
theorem exports_journal {es : List (Event φ)} (hopened : Opened eng natives v)
    (hrun : Run (Step eng natives) v es w) (hinner : ∀ e ∈ es, e.Inner eng.cli) :
    ∃ a r r', r.spans.length = 1 ∧ Reflects eng a v r ∧ Run Journal.Step r es r' ∧
      Reflects eng a w r' ∧ ∀ e w', w.sessions.Stops eng.cli e → Step eng natives e w w' →
        ExportsIf (Chosen eng (w.clock 1) w) w w' (r'.write (.okEnd 0)).message := by
  obtain ⟨a, r, hlength, hv⟩ := hopened.reflects
  obtain ⟨-, r', hsteps, hw⟩ := hv.run hrun hinner hopened.started
  exact ⟨a, r, r', hlength, hv, hsteps, hw, fun e w' he hstep => hw.shutdown he hstep⟩

/-- A request in which a command is traced. -/
theorem exports_journal_request : ∃ (v w w' : World Unit) (a : Anchor) (r : Journal),
    Run (Step (.connected false) .bare) v getInRequest w ∧ Reflects (.connected false) a w r ∧
      Step (.connected false) .bare .request_shutdown w w' ∧
      w'.exported = w.exported ++ [(r.write (.okEnd 0)).message] := by
  obtain ⟨w, w', hrun, hlast, hchosen⟩ := run_chosen (.connected false) .bare (World.fresh ())
    (.request_init :: getInRequest) .request_shutdown (by decide +kernel)
  obtain ⟨v, hstart, hrest⟩ := run_cons_iff.mp hrun
  have hopened : Opened (.connected false) .bare v :=
    ⟨World.fresh (), [], _, .request_init, rfl, .nil, ⟨rfl, Bool.false_ne_true⟩, hstart⟩
  obtain ⟨a, r, r', -, -, -, hw, hend⟩ := exports_journal hopened hrest getInRequest_inner
  have hexports := hend _ _ (hopened.stops hrest getInRequest_inner) hlast
  exact ⟨v, w, w', a, r', hrest, hw, hlast, hexports.1 (hchosen _)⟩

/-- Nothing that has been recorded is lost when the session is chosen. What its message holds in any
state is in what the end of the session exports, with as many spans or more, in the same order: a
span keeps its ids, its name, its kind, its attributes and events, and does not become undecided
again, nor a failure anything else; and the resource keeps its attributes. -/
theorem nothing_lost {es es' : List (Event φ)} (hopened : Opened eng natives v)
    (hfirst : Run (Step eng natives) v es u) (hrest : Run (Step eng natives) u es' w)
    (hinner : ∀ e ∈ es ++ es', e.Inner eng.cli) : ∃ attributes spans,
      Serialises eng u [(none, spans)] ∧
      (u.slots (u.key eng)).resource.bind u.memory.resources.cell = some ⟨attributes⟩ ∧
      ∃ attributes' spans', attributes <+: attributes' ∧ Grows Span.Grows spans spans' ∧
        ∀ e w', w.sessions.Stops eng.cli e → Step eng natives e w w' →
          ExportsIf (Chosen eng (w.clock 1) w) w w' [(some ⟨attributes'⟩, spans')] := by
  obtain ⟨hinner, hinner'⟩ := List.forall_mem_append.mp hinner
  obtain ⟨a, r, -, hv⟩ := hopened.reflects
  obtain ⟨hstarted, r', -, hu⟩ := hv.run hfirst hinner hopened.started
  obtain ⟨-, r'', hsteps, hw⟩ := hu.run hrest hinner' hstarted
  have hgrows : r'.Grows (r''.write (.okEnd 0)) :=
    IsTrans.trans _ _ _ (Journal.Grows.run hsteps) (.write _ _)
  refine ⟨r'.attributes, r'.spans, hu.serialises, ?_, _, _, hgrows.attributes, hgrows.spans,
    fun e w' he hstep => hw.shutdown he hstep⟩
  rw [hu.pointer, Option.bind_some, hu.attributes]

/-- What the message holds while a command is under way is exported at the end of the request. -/
theorem nothing_lost_request : ∃ (v u w w' : World Unit) (attributes : List KeyValue)
    (spans : List Span), Step (.connected false) .bare (.call (.enter .redis getFrame)) v u ∧
      Serialises (.connected false) u [(none, spans)] ∧
      Step (.connected false) .bare .request_shutdown w w' ∧
        ∃ attributes' spans', attributes <+: attributes' ∧ Grows Span.Grows spans spans' ∧
          w'.exported = w.exported ++ [[(some ⟨attributes'⟩, spans')]] := by
  obtain ⟨w, w', hrun, hlast, hchosen⟩ := run_chosen (.connected false) .bare (World.fresh ())
    (.request_init :: getInRequest) .request_shutdown (by decide +kernel)
  obtain ⟨v, hstart, hrest⟩ := run_cons_iff.mp hrun
  obtain ⟨u, henter, hnext⟩ := run_cons_iff.mp hrest
  have hopened : Opened (.connected false) .bare v :=
    ⟨World.fresh (), [], _, .request_init, rfl, .nil, ⟨rfl, Bool.false_ne_true⟩, hstart⟩
  obtain ⟨attributes, spans, hserialises, -, attributes', spans', hattributes, hspans, hend⟩ :=
    nothing_lost hopened (.snoc .nil henter) hnext getInRequest_inner
  have hexports := hend _ _ (hopened.stops hrest getInRequest_inner) hlast
  exact ⟨v, u, w, w', attributes, spans, henter, hserialises, hlast, attributes', spans', hattributes,
    hspans, hexports.1 (hchosen _)⟩

/-- As long as the clock advances, the journal is timely. -/
theorem timely_run {es : List (Event φ)} {a : Anchor} {r : Journal} {start : UInt64}
    (h : Reflects eng a v r) (htimely : r.Timely start) (hstarted : Started eng v)
    (hrun : Run (fun e w w' => Step eng natives e w w' ∧ e.Advances w.clock) v es w)
    (hinner : ∀ e ∈ es, e.Inner eng.cli) :
    Started eng w ∧ ∃ r', Reflects eng a w r' ∧ r'.Timely start := by
  induction hrun with
  | nil => exact ⟨hstarted, r, h, htimely⟩
  | @snoc es e t u _ hlast ih =>
    obtain ⟨hstarted, r', ht, htimely⟩ := ih fun e he => hinner e (List.mem_append_left _ he)
    have hinner : e.Inner eng.cli := hinner e (by simp)
    obtain ⟨hstep, hadvances⟩ := hlast
    obtain ⟨r'', hwrites, hu⟩ := ht.step hstep hinner hstarted
    rw [ht.clock] at hadvances
    exact ⟨started_inner hstep hinner hstarted, r'', hu, htimely.step hwrites hadvances⟩

/-- The times that are exported agree with one another. If no reading of the clock is before an
earlier one, and no span of the session is given a start from outside, then the first span, which
began when the session did, encloses all the others: none begins before it or ends after it, nor
before its own start. -/
theorem exported_times {past es : List (Event φ)} {e : Event φ}
    (hnew : origin.globals.provider = none) (hpast : Run (Step eng natives) origin past u)
    (hstarts : u.sessions.Starts eng.cli e) (hstart : Step eng natives e u v)
    (hforward : Forward u.clock)
    (hrun : Run (fun e w w' => Step eng natives e w w' ∧ e.Advances w.clock) v es w)
    (hinner : ∀ e ∈ es, e.Inner eng.cli) : ∃ resource first rest,
      first.start_time_unix_nano = u.clock 0 ∧
      first.start_time_unix_nano ≤ first.end_time_unix_nano ∧
      (∀ s ∈ rest, s.Within first.start_time_unix_nano first.end_time_unix_nano) ∧
      ∀ e w', w.sessions.Stops eng.cli e → Step eng natives e w w' →
        ExportsIf (Chosen eng (w.clock 1) w) w w' [(resource, first :: rest)] := by
  have hopened : Opened eng natives v := ⟨origin, past, u, e, hnew, hpast, hstarts, hstart⟩
  have hkept : Kept u := kept_run hnew hpast
  obtain ⟨x, traceparent, tracebaggage, kind, hx, heffective, hstarted⟩ := start_of_step hstarts hstart
  have hkept : Kept x ∧ x.clock = u.clock := by
    rcases hx with rfl | rfl
    · exact ⟨hkept, rfl⟩
    · exact ⟨hkept, rfl⟩
  obtain ⟨a, r, lines, hbegins, hlines, hv⟩ := start_begins hkept.1 hstarted heffective
  rw [hkept.2] at hbegins
  have htimely : (lines.foldl Journal.write r).Timely (u.clock 0) :=
    (hbegins.timely hforward).writes id hlines
  obtain ⟨-, r', hw, htimely⟩ := timely_run hv htimely hopened.started hrun hinner
  obtain ⟨first, rest, hmessage, hstart, hend, hwithin⟩ := htimely.message
  refine ⟨some ⟨r'.attributes⟩, first, rest, hstart, hend, hwithin, fun e w' he hstep => ?_⟩
  rw [← hmessage]
  exact hw.shutdown he hstep

/-- A request in which a command is traced. The clock may stand still. -/
theorem exported_times_request : ∃ v w w' : World Unit,
    Run (Step (.connected false) .bare) v getInRequest w ∧
    Step (.connected false) .bare .request_shutdown w w' ∧ ∃ resource first rest,
      first.start_time_unix_nano = (World.fresh ()).clock 0 ∧
      first.start_time_unix_nano ≤ first.end_time_unix_nano ∧
      (∀ s ∈ rest, s.Within first.start_time_unix_nano first.end_time_unix_nano) ∧
      w'.exported = w.exported ++ [[(resource, first :: rest)]] := by
  obtain ⟨w, w', hrun, hlast, hchosen⟩ := run_chosen (.connected false) .bare (World.fresh ())
    (.request_init :: getInRequest) .request_shutdown (by decide +kernel)
  obtain ⟨v, hstart, hrest⟩ := run_cons_iff.mp hrun
  have hopened : Opened (.connected false) .bare v :=
    ⟨World.fresh (), [], _, .request_init, rfl, .nil, ⟨rfl, Bool.false_ne_true⟩, hstart⟩
  have hadvances : ∀ e ∈ getInRequest, ∀ clock, e.Advances clock := by
    intro e he clock
    simp only [getInRequest, List.mem_cons, List.not_mem_nil, or_false] at he
    obtain rfl | rfl | rfl := he
    · exact id
    · exact id
    · trivial
  obtain ⟨resource, first, rest, hfirst, hend, hwithin, hexports⟩ :=
    exported_times (e := .request_init) rfl .nil ⟨rfl, Bool.false_ne_true⟩ hstart
      (fun _ => UInt64.le_refl _)
      ((hrest.guarded hadvances).mono fun _ _ _ h => ⟨h.2, h.1 _⟩) getInRequest_inner
  have hend' := hexports _ _ (hopened.stops hrest getInRequest_inner) hlast
  exact ⟨v, w, w', hrest, hlast, resource, first, rest, hfirst, hend, hwithin, hend'.1 (hchosen _)⟩

end opentelemetry
