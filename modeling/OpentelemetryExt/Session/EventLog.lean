import OpentelemetryExt.Session.Exported
import OpentelemetryExt.Sdk.Totality

open stateful growing run

namespace opentelemetry

variable {φ : Type} {eng : Engine φ} {natives : CurlNatives φ} {v w w' : World φ}

/-- What user code adds to the events of a session. -/
def SpanEvent.added (eng : Engine φ) (w : World φ) (name : Bytes)
    (attributes : List (ArrayKey × Zval)) : SpanEvent :=
  ⟨c_str name, w.clock 0, attributes.filterMap (eventAttribute eng w.php)⟩

/-- The events that have been added so far. -/
def logged (eng : Engine φ) (w : World φ) (log : List SpanEvent) : Event φ → List SpanEvent
  | .call (.sdk (.add_event (some (name, attributes)))) =>
    log ++ [SpanEvent.added eng w name attributes]
  | _ => log

/-- The first span has these events, and no other span has any. -/
def Journal.Logs (log : List SpanEvent) (r : Journal) : Prop :=
  ∃ n, r.spans.map Span.events = log :: List.replicate n []

namespace Journal.Logs

variable {r : Journal} {log : List SpanEvent}

theorem edit (h : r.Logs log) (i : Nat) {f : Span → Span} (hf : ∀ s, (f s).events = s.events) :
    (r.edit i f).Logs log := by
  obtain ⟨n, hn⟩ := h
  refine ⟨n, ?_⟩
  rw [← hn]
  refine List.ext_getElem? fun j => ?_
  rw [Journal.edit, List.getElem?_map, List.getElem?_map, List.getElem?_modify]
  cases r.spans[j]? with
  | none => rfl
  | some s =>
    by_cases hij : i = j
    · simp [hij, hf]
    · simp [hij]

/-- Lines that add no events leave them as they are. -/
theorem write {d : Details} {g : Grants} {x : Line} (h : r.Logs log) (hnotes : ¬ d.notes)
    (hx : x.Granted d g) : (r.write x).Logs log := by
  cases x with
  | child uuid name kind =>
    obtain ⟨n, hn⟩ := h
    cases hspans : r.spans with
    | nil => simp [hspans] at hn
    | cons first rest =>
      have hwrite : r.write (.child uuid name kind) =
          { r.tick with spans := r.spans ++ [childOf first (r.clock 0) uuid name kind] } := by
        simp only [Journal.write, hspans]
      refine ⟨n + 1, ?_⟩
      rw [hwrite, List.map_append, hn, List.replicate_succ']
      rfl
  | addEvent i event => exact absurd hx hnotes
  | describe i kv => exact h.edit i fun _ => rfl
  | date i start => exact h.edit i fun _ => rfl
  | okEnd i => exact h.edit i (f := Span.okEnded (r.clock 0)) fun _ => rfl
  | errorEnd i message => exact h.edit i (f := Span.errorEnded (r.clock 0) message) fun _ => rfl
  | label kv => exact h
  | tick => exact h

theorem writes {d : Details} {g : Grants} {lines : List Line} (h : r.Logs log) (hnotes : ¬ d.notes)
    (hlines : ∀ x ∈ lines, x.Granted d g) : (lines.foldl Journal.write r).Logs log := by
  induction lines generalizing r with
  | nil => exact h
  | cons x lines ih =>
    exact ih (h.write hnotes (hlines x List.mem_cons_self))
      fun y hy => hlines y (List.mem_cons_of_mem _ hy)

theorem append (h : r.Logs log) (event : SpanEvent) :
    (r.edit 0 fun s => { s with events := s.events ++ [event] }).Logs (log ++ [event]) := by
  obtain ⟨n, hn⟩ := h
  refine ⟨n, ?_⟩
  cases hspans : r.spans with
  | nil => simp [hspans] at hn
  | cons first rest =>
    rw [hspans, List.map_cons] at hn
    obtain ⟨rfl, hrest⟩ := List.cons.inj hn
    simp [Journal.edit, hspans, hrest]

end Journal.Logs

/-- User code adds an event to the first span. -/
theorem opentelemetry_add_event_eq {f : Nat} {s : Span} (hfirst : HasFirst eng w f s)
    (name : Bytes) (attributes : List (ArrayKey × Zval)) :
    opentelemetry_add_event eng (some (name, attributes)) w = .ok (true, w.ticked.withSpan f fun s =>
      { s with events := s.events ++ [SpanEvent.added eng w name attributes] }) := by
  have hfirstSpan := hfirst.firstOneSpan
  obtain ⟨p, hp, -, hs⟩ := hfirst
  have hprovider : is_has_provider w = .ok (true, w) := by
    apply is_has_provider_of_some
    rw [hp]
    rfl
  have hattributes : eventAttributes eng attributes w.ticked =
      .ok (attributes.filterMap (eventAttribute eng w.php), w.ticked) := eventAttributes_eq attributes _
  refine bind_ok_iff.mpr ⟨true, w, hprovider, ?_⟩
  refine bind_ok_iff.mpr ⟨some f, w, hfirstSpan, bind_ok_iff.mpr ⟨f, w, rfl, ?_⟩⟩
  refine bind_ok_iff.mpr ⟨w.clock 0, w.ticked, rfl, bind_ok_iff.mpr ⟨_, w.ticked, hattributes, ?_⟩⟩
  exact bind_ok_iff.mpr ⟨(), _, modifySpan_of_some _ hs, rfl⟩

section

variable {a : Anchor} {r : Journal} {log : List SpanEvent} {e : Event φ}

theorem Reflects.logs_quiet (h : Reflects eng a w r) (hlogs : r.Logs log)
    (hstep : Step eng natives e w w') (hinner : e.Inner eng.cli) (hstarted : Started eng w)
    (hquiet : ∀ c, e = .call c → ¬ c.details.notes) : ∃ r', Reflects eng a w' r' ∧ r'.Logs log := by
  obtain ⟨r', hwrites, hw'⟩ := h.step hstep hinner hstarted
  refine ⟨r', hw', ?_⟩
  cases hwrites with
  | call c r hlines => exact hlogs.writes (hquiet c rfl) hlines
  | surround s r => exact hlogs
  | other r hcall hsurround => exact hlogs

theorem Reflects.logs_add_event (h : Reflects eng a w r) (hlogs : r.Logs log) {name : Bytes}
    {attributes : List (ArrayKey × Zval)}
    (hstep : Step eng natives (.call (.sdk (.add_event (some (name, attributes))))) w w') :
    ∃ r', Reflects eng a w' r' ∧ r'.Logs (log ++ [SpanEvent.added eng w name attributes]) := by
  obtain ⟨first, hfirst⟩ := h.hasFirst
  have hw' := (ends_ignore_iff.mp hstep).eq_of_ok (opentelemetry_add_event_eq hfirst name attributes)
  refine ⟨r.tick.edit 0 fun s =>
    { s with events := s.events ++ [SpanEvent.added eng w name attributes] }, ?_, hlogs.append _⟩
  rw [hw']
  exact h.ticked.withSpan 0 _

/-- Every event in the course of a session leaves the log as it should be. -/
theorem Reflects.logs_step (h : Reflects eng a w r) (hlogs : r.Logs log)
    (hstep : Step eng natives e w w') (hinner : e.Inner eng.cli) (hstarted : Started eng w) :
    ∃ r', Reflects eng a w' r' ∧ r'.Logs (logged eng w log e) := by
  have hquiet := h.logs_quiet hlogs hstep hinner hstarted
  cases e with
  | call c =>
    cases c with
    | sdk call =>
      cases call with
      | add_event args =>
        cases args with
        | none =>
          have hreads : Reads (opentelemetry_add_event eng none) :=
            .bind Op.reads_is_has_provider fun _ => .ite (Reads.pure _) (Reads.pure _)
          obtain rfl := hreads (ends_ignore_iff.mp hstep)
          exact ⟨r, h, hlogs⟩
        | some args => exact h.logs_add_event hlogs hstep
      | _ => exact hquiet fun c hc => by cases hc; exact id
    | _ => exact hquiet fun c hc => by cases hc; exact id
  | _ => exact hquiet fun c hc => by cases hc

end

theorem logs_run {a : Anchor} {r : Journal} {log log' : List SpanEvent} {es : List (Event φ)}
    (h : Reflects eng a v r) (hlogs : r.Logs log) (hstarted : Started eng v)
    (hrun : Run (Beside (Step eng natives) (logged eng)) (v, log) es (w, log'))
    (hinner : ∀ e ∈ es, e.Inner eng.cli) :
    Started eng w ∧ ∃ r', Reflects eng a w r' ∧ r'.Logs log' := by
  generalize hs : (w, log') = s at hrun
  induction hrun generalizing w log' with
  | nil =>
    cases hs
    exact ⟨hstarted, r, h, hlogs⟩
  | @snoc es e t u _ hlast ih =>
    subst hs
    obtain ⟨hstep, hnext⟩ := hlast
    obtain ⟨hstarted, r', ht, hlogs⟩ := ih (fun e he => hinner e (List.mem_append_left _ he)) rfl
    have hinner : e.Inner eng.cli := hinner e (by simp)
    obtain ⟨r'', hu, hlogs⟩ := ht.logs_step hlogs hstep hinner hstarted
    change log' = logged eng t.1 t.2 e at hnext
    rw [← hnext] at hlogs
    exact ⟨started_inner hstep hinner hstarted, r'', hu, hlogs⟩

theorem Opened.logs (h : Opened eng natives v) : ∃ a r, Reflects eng a v r ∧ r.Logs [] := by
  obtain ⟨clock, a, r, lines, ⟨⟨first, hspans, -, -, hevents⟩, -⟩, hlines, hv⟩ := h.begins
  refine ⟨a, _, hv, Journal.Logs.writes ⟨0, ?_⟩ id hlines⟩
  rw [hspans, List.map_singleton, hevents]
  rfl

end opentelemetry
