import OpentelemetryExt.Provider.TraceParent
import OpentelemetryExt.Session

open stateful

namespace opentelemetry

variable {φ : Type} {eng : Engine φ} {R : World φ → World φ → Prop}

/-- Relations between states that do not mind spans: what becomes of the memory, the ids and the
time, nor that a slot is given a request when it has none. -/
structure Spanwise (eng : Engine φ) (R : World φ → World φ → Prop) : Prop where
  memory (w : World φ) (m : Memory) : R w (w.withMemory m)
  clock (w : World φ) : R w { w with clock := fun n => w.clock (n + 1) }
  uuids (w : World φ) (u : Nat → Uuid) : R w { w with uuids := u }
  request {w : World φ} {p : Provider} (hp : w.globals.provider = some p)
    (hnone : (p.slots (w.key eng)).request = none) (request resourceSpan resource : Nat) :
    R w (w.withProvider (p.set (w.key eng) { p.slots (w.key eng) with
      request := some request, resourceSpan := some resourceSpan, resource := some resource }))

/-- Relations that do not mind either what becomes of a slot as long as its first span is the
same and a request is not lost. -/
structure Blind (eng : Engine φ) (R : World φ → World φ → Prop) : Prop where
  memory (w : World φ) (m : Memory) : R w (w.withMemory m)
  clock (w : World φ) : R w { w with clock := fun n => w.clock (n + 1) }
  uuids (w : World φ) (u : Nat → Uuid) : R w { w with uuids := u }
  slot {w : World φ} {p : Provider} {s : Slot} (hp : w.globals.provider = some p)
    (hfirst : s.firstSpan = (p.slots (w.key eng)).firstSpan)
    (hrequest : (p.slots (w.key eng)).request.isSome → s.request.isSome) :
    R w (w.withProvider (p.set (w.key eng) s))

/-- Relations that do not mind what code with these grants does. -/
structure Tolerates (eng : Engine φ) (g : Grants) (R : World φ → World φ → Prop) : Prop
    extends Spanwise eng R where
  baggage {w : World φ} {p : Provider} (hp : w.globals.provider = some p)
    (baggage : RobinMap) :
    R w (w.withProvider (p.set (w.key eng) { p.slots (w.key eng) with baggage := baggage }))
  sampled {w : World φ} {p : Provider} (h : g.ends ∨ g.samples)
    (hp : w.globals.provider = some p) (isSampled : Bool) :
    R w (w.withProvider (p.set (w.key eng) { p.slots (w.key eng) with is_sampled := isSampled }))
  exception {w : World φ} {p : Provider} (h : g.raises) (hp : w.globals.provider = some p)
    (message : Bytes) :
    R w (w.withProvider (p.set (w.key eng) { p.slots (w.key eng) with redisException := message }))
  php (w : World φ) (php : φ) : R w { w with php := php }
  headers (h : g.stores) (w : World φ) (entries : List (ArrayKey × Zval)) :
    R w { w with globals := { w.globals with curl_header := some entries } }

section

variable [Std.Refl R] [IsTrans (World φ) R]

theorem isSampled_keeps (hclock : ∀ w : World φ, R w { w with clock := fun n => w.clock (n + 1) }) :
    Keeps R (Provider.isSampled eng) := by
  refine .bind (.of_reads Op.reads_slot) fun s => .ite (.of_reads (.pure _)) ?_
  refine .bind (.of_reads (.lift _)) fun _ => .bind (.of_reads (Op.reads_readSpan _)) fun _ =>
    .bind ?_ fun _ => .bind (.of_reads Op.reads_globals) fun _ => .of_reads (.pure _)
  rintro w w' (⟨a, hw⟩ | hw) <;> cases hw
  exact hclock w

/-- The parse writes ids to spans and sets the flag. -/
theorem parseTraceParent_edits
    (hspan : ∀ span f, (∀ s : Span, ∃ trace_id parent_span_id, f s = { s with
      trace_id := trace_id, parent_span_id := parent_span_id }) → Keeps R (modifySpan span f))
    (hsampled : ∀ b, Keeps R (Provider.setSampled eng b)) (header : Bytes) :
    Keeps R (Provider.parseTraceParent eng header) := by
  unfold Provider.parseTraceParent
  split
  · split
    · exact .bind (.of_reads .get) fun _ => .bind (.of_reads Op.reads_firstOneSpan) fun _ =>
        .bind (.of_reads (.lift _)) fun _ => .bind (.of_reads (.lift _)) fun trace_id =>
          .bind (hspan _ _ fun s => ⟨trace_id, s.parent_span_id, rfl⟩) fun _ =>
            .bind (.of_reads (.lift _)) fun parent_span_id =>
              .bind (hspan _ _ fun s => ⟨s.trace_id, parent_span_id, rfl⟩) fun _ => hsampled _
    · exact .of_reads (.pure _)
  · refine .bind (.of_reads Op.reads_globals) fun g => .ite (hsampled _) ?_
    exact .bind (.of_reads (.bind Op.reads_provider fun _ => .pure _)) fun _ =>
      .bind (.of_reads (.lift _)) fun _ => .ite (hsampled _) (.ite (hsampled _) (.of_reads (.pure _)))

theorem parseTraceParent_keeps
    (hspan : ∀ span f, (∀ s, (f s).status = s.status ∧ (f s).attributes = s.attributes) →
      Keeps R (modifySpan span f))
    (hsampled : ∀ b, Keeps R (Provider.setSampled eng b)) (header : Bytes) :
    Keeps R (Provider.parseTraceParent eng header) := by
  refine parseTraceParent_edits (fun span f hf => hspan span f fun s => ?_) hsampled header
  obtain ⟨trace_id, parent_span_id, hs⟩ := hf s
  rw [hs]
  exact ⟨rfl, rfl⟩

end

namespace Spanwise

variable (h : Spanwise eng R)

include h

theorem modifyMemory (f : Memory → Memory) :
    Keeps R (opentelemetry.modifyMemory f) := .modify fun w => h.memory w _

theorem get_unix_nanoseconds :
    Keeps R (opentelemetry.get_unix_nanoseconds : M φ UInt64) := by
  rintro w w' (⟨a, hw⟩ | hw) <;> cases hw
  exact h.clock w

theorem generate_uuid : Keeps R (opentelemetry.generate_uuid : M φ Bytes) := by
  rintro w w' (⟨a, hw⟩ | hw) <;> cases hw
  exact h.uuids w _

variable [Std.Refl R] [IsTrans (World φ) R]

theorem modifySpan (span : Nat) (f : Span → Span) :
    Keeps R (opentelemetry.modifySpan span f) :=
  .bind (.of_reads (Op.reads_readSpan _)) fun _ => h.modifyMemory _

theorem getTracer : Keeps R (Provider.getTracer eng) := by
  intro w w' hends
  cases hp : w.globals.provider with
  | none =>
    refine (hends.false_of_fault (e := .nullPointer) ?_).elim
    simp [Provider.getTracer, slot_of_none hp]
  | some p =>
    have htracer : Provider.getTracer eng w = (if (p.slots (w.key eng)).request.isSome then
        lift (deref (p.slots (w.key eng)).resourceSpan) else Provider.newRequest eng) w := by
      simp only [Provider.getTracer, bind_apply, slot_of_some hp, ok_bind]
    rw [Ends, htracer] at hends
    split at hends
    · exact Keeps.of_reads (.lift _) hends
    · rename_i hnone
      have hends' : w' = w.withRequest eng p :=
        Ends.eq_of_ok hends (Provider.newRequest_of_some hp)
      have hrequest : (p.slots (w.key eng)).request = none :=
        Option.not_isSome_iff_eq_none.mp hnone
      rw [hends']
      -- The request is allocated first, then the slot points to it.
      have hset (m : Memory) := h.request (w := w.withMemory m) hp hrequest
      exact IsTrans.trans _ _ _ (h.memory w _) (hset _ _ _ _)

theorem addSpan (rs : Nat) (span : Span) :
    Keeps R (Provider.addSpan rs span : M φ Nat) :=
  .bind (.of_reads .get) fun _ => .bind (.of_reads (.lift _)) fun _ =>
    .bind (h.modifyMemory _) fun _ => .of_reads (.pure _)

theorem traceIdFor (first : Option Nat) :
    Keeps R (Provider.traceIdFor first : M φ Bytes) := by
  cases first with
  | none => exact h.generate_uuid
  | some f => exact .bind (.of_reads (Op.reads_readSpan _)) fun _ => .of_reads (.pure _)

theorem createSpan (name : Bytes) (kind : SpanKind) :
    Keeps R (Provider.createSpan eng name kind) :=
  .bind h.getTracer fun _ => .bind (.of_reads Op.reads_firstOneSpan) fun _ =>
    .bind (h.traceIdFor _) fun _ => .bind h.generate_uuid fun _ =>
      .bind h.get_unix_nanoseconds fun _ => h.addSpan _ _

theorem createChildSpan (name : Bytes) (kind : SpanKind) :
    Keeps R (Provider.createChildSpan eng name kind) :=
  .bind (.of_reads (.bind Op.reads_firstOneSpan fun _ => .bind (.lift _) fun _ =>
      Op.reads_readSpan _)) fun _ =>
    .bind (h.createSpan _ _) fun _ => .bind (h.modifySpan _ _) fun _ => .of_reads (.pure _)

theorem addResourceAttribute (resource : Nat) (kv : KeyValue) :
    Keeps R (Provider.addResourceAttribute resource kv : M φ Unit) :=
  .bind (.of_reads .get) fun _ => .bind (.of_reads (.lift _)) fun _ => h.modifyMemory _

theorem isSampled : Keeps R (Provider.isSampled eng) := isSampled_keeps h.clock

theorem okEnd (span : Nat) : Keeps R (Provider.okEnd span : M φ Unit) :=
  .bind (h.modifySpan _ _) fun _ => .bind h.get_unix_nanoseconds fun _ => h.modifySpan _ _

end Spanwise

/-- What code does that is made of moves, a relation that tolerates them is kept by. -/
theorem Tolerates.built [Std.Refl R] [IsTrans (World φ) R] {α : Type} {g : Grants} {m : M φ α}
    (h : Tolerates eng g R) (hm : Built (Move eng g) m) : Keeps R m := by
  have hsampled (hg : g.ends ∨ g.samples) (b : Bool) : Keeps R (Provider.setSampled eng b) := by
    intro w w' hends
    obtain ⟨p, hp, rfl⟩ := modifySlot_ends hends
    exact h.sampled hg hp b
  refine hm.keeps fun hmove => ?_
  cases hmove with
  | createChildSpan _ name kind => exact h.createChildSpan name kind
  | note span hf => exact h.modifySpan _ _
  | okEnd _ span => exact h.okEnd span
  | errorEnd hends span message =>
    exact .bind h.get_unix_nanoseconds fun _ => .bind (h.modifySpan _ _) fun _ =>
      hsampled (.inl hends) _
  | setSampled hsamples isSampled => exact hsampled (.inr hsamples) _
  | setRedisException hraises message =>
    intro w w' hends
    obtain ⟨p, hp, rfl⟩ := modifySlot_ends hends
    exact h.exception hraises hp message
  | assignBaggage key value =>
    intro w w' hends
    obtain ⟨p, hp, rfl⟩ := modifySlot_ends hends
    exact h.baggage hp _
  | addResourceAttribute resource kv => exact h.addResourceAttribute _ _
  | tick => exact h.get_unix_nanoseconds
  | php state => exact .modify fun w => h.php w _
  | headers hstores entries => exact .modify fun w => h.headers hstores w _

namespace Blind

variable (h : Blind eng R)

include h

theorem spanwise : Spanwise eng R :=
  ⟨h.memory, h.clock, h.uuids, fun hp _ _ _ _ => h.slot hp rfl fun _ => rfl⟩

theorem tolerates {g : Grants} (hphp : ∀ w php, R w { w with php := php })
    (hheaders : g.stores → ∀ (w : World φ) entries,
      R w { w with globals := { w.globals with curl_header := some entries } }) :
    Tolerates eng g R where
  toSpanwise := h.spanwise
  baggage hp _ := h.slot hp rfl id
  sampled _ hp _ := h.slot hp rfl id
  exception _ hp _ := h.slot hp rfl id
  php := hphp
  headers := hheaders

variable [Std.Refl R] [IsTrans (World φ) R]

theorem parseTraceParent (header : Bytes) : Keeps R (Provider.parseTraceParent eng header) := by
  refine parseTraceParent_keeps (fun span f _ => h.spanwise.modifySpan span f) (fun b => ?_) header
  intro w w' hends
  obtain ⟨p, hp, rfl⟩ := modifySlot_ends hends
  exact h.slot hp rfl id

/-- If PHP's own state and the header store may change as well, the relation is kept by all
that hooks, callbacks and SDK calls do. -/
theorem built {α : Type} {g : Grants} {m : M φ α} (hphp : ∀ w php, R w { w with php := php })
    (hheaders : g.stores → ∀ (w : World φ) entries,
      R w { w with globals := { w.globals with curl_header := some entries } })
    (hm : Built (Move eng g) m) : Keeps R m := (h.tolerates hphp hheaders).built hm

end Blind

end opentelemetry
