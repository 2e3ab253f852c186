import OpentelemetryExt.Session.Inner
import OpentelemetryExt.Lib.Growing

open growing run

namespace opentelemetry

/-- What a session records: its spans in the order in which they were created, the attributes of its
resource, and the readings of the clock that are still to come. -/
structure Journal where
  spans : List Span
  attributes : List KeyValue
  clock : Nat → UInt64

/-- What is left of a journal to say once it is over. -/
def Journal.message (r : Journal) : List (Option Resource × List Span) :=
  [(some ⟨r.attributes⟩, r.spans)]

/-- A span that has gone well, unless it is known to have failed. -/
def Span.okEnded (now : UInt64) (s : Span) : Span := { s with
  status := if s.status.code = .unset then ⟨.ok, []⟩ else s.status
  end_time_unix_nano := now }

/-- A span that has failed. -/
def Span.errorEnded (now : UInt64) (message : Bytes) (s : Span) : Span := { s with
  status := ⟨.error, message⟩, end_time_unix_nano := now }

/-- An entry into a journal. Spans are known by their number. -/
inductive Line where
  | child (uuid : Uuid) (name : Bytes) (kind : SpanKind)
  | describe (i : Nat) (kv : KeyValue)
  | addEvent (i : Nat) (event : SpanEvent)
  | date (i : Nat) (start : UInt64)
  | okEnd (i : Nat)
  | errorEnd (i : Nat) (message : Bytes)
  | label (kv : KeyValue)
  | tick

namespace Journal

def tick (r : Journal) : Journal := { r with clock := fun n => r.clock (n + 1) }

def edit (r : Journal) (i : Nat) (f : Span → Span) : Journal :=
  { r with spans := r.spans.modify i f }

/-- The child that a first span is given. -/
def childOf (first : Span) (now : UInt64) (uuid : Uuid) (name : Bytes) (kind : SpanKind) : Span where
  trace_id := first.trace_id
  span_id := uuid.val.take 8
  parent_span_id := first.span_id
  name := name
  kind := kind
  start_time_unix_nano := now

def write (r : Journal) : Line → Journal
  | .child uuid name kind =>
    match r.spans with
    | [] => r
    | first :: _ => { r.tick with spans := r.spans ++ [childOf first (r.clock 0) uuid name kind] }
  | .describe i kv => r.edit i fun s => { s with attributes := s.attributes ++ [kv] }
  | .addEvent i event => r.edit i fun s => { s with events := s.events ++ [event] }
  | .date i start => r.edit i fun s => { s with start_time_unix_nano := start }
  | .okEnd i => r.tick.edit i (Span.okEnded (r.clock 0))
  | .errorEnd i message => r.tick.edit i (Span.errorEnded (r.clock 0) message)
  | .label kv => { r with attributes := r.attributes ++ [kv] }
  | .tick => r.tick

end Journal

/-- What may be written by code with these grants. -/
def Line.Granted (d : Details) (g : Grants) : Line → Prop
  | .child _ _ _ => g.creates
  | .date _ _ => d.dates
  | .addEvent _ _ => d.notes
  | .okEnd _ | .errorEnd _ _ => g.ends
  | .describe _ _ | .label _ | .tick => True

variable {φ : Type}

/-- What an event in the course of a session does to the journal of it: a call writes lines into
it, and the clock may be another one when the world around the extension has changed. -/
inductive Journal.Step : Event φ → Journal → Journal → Prop
  | call (c : Call) {lines : List Line} (r : Journal) (h : ∀ x ∈ lines, x.Granted c.details c.grants) :
      Step (.call c) r (lines.foldl Journal.write r)
  | surround (s : Surroundings φ) (r : Journal) : Step (.surround s) r { r with clock := s.clock }
  | other {e : Event φ} (r : Journal) (hcall : ∀ c, e ≠ .call c) (hsurround : ∀ s, e ≠ .surround s) :
      Step e r r

/-- What becomes of a span in a journal: it keeps its ids, its name and its kind, and all that was
noted about it; it is not undecided again, and a failure stays one. -/
structure Span.Grows (s s' : Span) : Prop where
  trace_id : s'.trace_id = s.trace_id
  span_id : s'.span_id = s.span_id
  parent_span_id : s'.parent_span_id = s.parent_span_id
  name : s'.name = s.name
  kind : s'.kind = s.kind
  attributes : s.attributes <+: s'.attributes
  events : s.events <+: s'.events
  decided : s.status.code ≠ .unset → s'.status.code ≠ .unset
  failed : s.status.code = .error → s'.status.code = .error

namespace Span.Grows

instance instRefl : Std.Refl Span.Grows :=
  ⟨fun _ => ⟨rfl, rfl, rfl, rfl, rfl, List.prefix_refl _, List.prefix_refl _, id, id⟩⟩

instance instIsTrans : IsTrans Span Span.Grows where
  trans _ _ _ h h' := {
    trace_id := h'.trace_id.trans h.trace_id
    span_id := h'.span_id.trans h.span_id
    parent_span_id := h'.parent_span_id.trans h.parent_span_id
    name := h'.name.trans h.name
    kind := h'.kind.trans h.kind
    attributes := h.attributes.trans h'.attributes
    events := h.events.trans h'.events
    decided := fun hs => h'.decided (h.decided hs)
    failed := fun hs => h'.failed (h.failed hs) }

theorem okEnded (now : UInt64) (s : Span) : s.Grows (s.okEnded now) := by
  refine ⟨rfl, rfl, rfl, rfl, rfl, List.prefix_refl _, List.prefix_refl _, fun hs => ?_, fun hs => ?_⟩
  · simp only [Span.okEnded, if_neg hs]
    exact hs
  · have hset : s.status.code ≠ .unset := by
      rw [hs]
      exact StatusCode.noConfusion
    simp only [Span.okEnded, if_neg hset]
    exact hs

theorem errorEnded (now : UInt64) (message : Bytes) (s : Span) :
    s.Grows (s.errorEnded now message) :=
  ⟨rfl, rfl, rfl, rfl, rfl, List.prefix_refl _, List.prefix_refl _,
    fun _ => StatusCode.noConfusion, fun _ => rfl⟩

end Span.Grows

namespace Journal

variable {r r' : Journal}

/-- A later state of a journal. -/
structure Grows (r r' : Journal) : Prop where
  spans : growing.Grows Span.Grows r.spans r'.spans
  attributes : r.attributes <+: r'.attributes

instance instRefl : Std.Refl Grows := ⟨fun _ => ⟨Std.Refl.refl _, List.prefix_refl _⟩⟩

instance instIsTrans : IsTrans Journal Grows where
  trans _ _ _ h h' :=
    ⟨IsTrans.trans _ _ _ h.spans h'.spans, h.attributes.trans h'.attributes⟩

theorem Grows.edit (i : Nat) {f : Span → Span} (hf : ∀ s : Span, s.Grows (f s)) :
    Grows r (r.edit i f) :=
  ⟨growing.Grows.modify _ i hf, List.prefix_refl _⟩

/-- No line takes anything back. -/
theorem Grows.write (r : Journal) (x : Line) : Grows r (r.write x) := by
  cases x with
  | child uuid name kind =>
    rw [Journal.write]
    split
    · exact Std.Refl.refl r
    · exact ⟨growing.Grows.append _ _, List.prefix_refl _⟩
  | describe i kv =>
    exact .edit i fun s =>
      ⟨rfl, rfl, rfl, rfl, rfl, List.prefix_append _ _, List.prefix_refl _, id, id⟩
  | addEvent i event =>
    exact .edit i fun s =>
      ⟨rfl, rfl, rfl, rfl, rfl, List.prefix_refl _, List.prefix_append _ _, id, id⟩
  | date i start =>
    exact .edit i fun s =>
      ⟨rfl, rfl, rfl, rfl, rfl, List.prefix_refl _, List.prefix_refl _, id, id⟩
  | okEnd i => exact ⟨growing.Grows.modify _ i (Span.Grows.okEnded _), List.prefix_refl _⟩
  | errorEnd i message =>
    exact ⟨growing.Grows.modify _ i (Span.Grows.errorEnded _ message), List.prefix_refl _⟩
  | label kv => exact ⟨Std.Refl.refl _, List.prefix_append _ _⟩
  | tick => exact ⟨Std.Refl.refl _, List.prefix_refl _⟩

theorem Grows.writes (lines : List Line) (r : Journal) : Grows r (lines.foldl Journal.write r) := by
  induction lines generalizing r with
  | nil => exact Std.Refl.refl r
  | cons x lines ih => exact IsTrans.trans _ _ _ (.write r x) (ih (r.write x))

theorem Grows.step {e : Event φ} (h : Step e r r') : Grows r r' := by
  cases h with
  | call c r h => exact .writes _ r
  | surround s r => exact ⟨Std.Refl.refl _, List.prefix_refl _⟩
  | other r hcall hsurround => exact Std.Refl.refl r

theorem Grows.run {es : List (Event φ)} (h : Run Step r es r') : Grows r r' := by
  induction h with
  | nil => exact Std.Refl.refl r
  | snoc _ hlast ih => exact IsTrans.trans _ _ _ ih (.step hlast)

end Journal

/-- What lies between two times of a span: its start, and its end if it has one. -/
structure Span.Within (start now : UInt64) (s : Span) : Prop where
  after : start ≤ s.start_time_unix_nano
  before : s.start_time_unix_nano ≤ now
  ended : s.end_time_unix_nano = 0 ∨
    s.start_time_unix_nano ≤ s.end_time_unix_nano ∧ s.end_time_unix_nano ≤ now

theorem Span.Within.mono {start now now' : UInt64} {s : Span} (h : s.Within start now)
    (hnow : now ≤ now') : s.Within start now' where
  after := h.after
  before := UInt64.le_trans h.before hnow
  ended := h.ended.imp_right fun ⟨hstart, hend⟩ => ⟨hstart, UInt64.le_trans hend hnow⟩

/-- No reading of the clock is before the one that comes first. -/
def Forward (clock : Nat → UInt64) : Prop := ∀ {m n}, m ≤ n → clock m ≤ clock n

/-- An event after which the clock has not been put back, and in which no span is given a start. -/
def Event.Advances (clock : Nat → UInt64) : Event φ → Prop
  | .call c => ¬ c.details.dates
  | .surround s => Forward s.clock ∧ clock 0 ≤ s.clock 0
  | _ => True

namespace Journal

variable {r r' : Journal} {start : UInt64}

/-- The first span is the one that began at `start`, and nothing lies before it or is still to
come. -/
structure Timely (start : UInt64) (r : Journal) : Prop where
  forward : Forward r.clock
  first : r.spans.head?.map Span.start_time_unix_nano = some start
  within : ∀ s ∈ r.spans, s.Within start (r.clock 0)

theorem Timely.tick (h : r.Timely start) : r.tick.Timely start where
  forward hmn := h.forward (Nat.succ_le_succ hmn)
  first := h.first
  within s hs := (h.within s hs).mono (h.forward (Nat.zero_le 1))

theorem Timely.rewind (h : r.Timely start) {clock : Nat → UInt64} (hforward : Forward clock)
    (hclock : r.clock 0 ≤ clock 0) : Timely start { r with clock := clock } where
  forward := hforward
  first := h.first
  within s hs := (h.within s hs).mono hclock

theorem Timely.edit (h : r.Timely start) (i : Nat) {f : Span → Span}
    (hstart : ∀ s, (f s).start_time_unix_nano = s.start_time_unix_nano)
    (hf : ∀ s : Span, s.Within start (r.clock 0) → (f s).Within start (r.clock 0)) :
    (r.edit i f).Timely start where
  forward := h.forward
  first := by
    rw [← h.first]
    cases hspans : r.spans with
    | nil => simp [Journal.edit, hspans]
    | cons s rest =>
      cases i with
      | zero => simp [Journal.edit, hspans, hstart]
      | succ i => simp [Journal.edit, hspans]
  within s hs := by
    obtain ⟨j, hj⟩ := List.mem_iff_getElem?.mp hs
    rw [Journal.edit, List.getElem?_modify] at hj
    obtain ⟨t, ht, rfl⟩ := Option.map_eq_some_iff.mp hj
    have hin := h.within t (List.mem_of_getElem? ht)
    split
    · exact hf t hin
    · exact hin

/-- As long as no span is given another start, every line is timely. -/
theorem Timely.write (h : r.Timely start) {d : Details} {g : Grants} {x : Line} (hdates : ¬ d.dates)
    (hx : x.Granted d g) :
    (r.write x).Timely start := by
  cases x with
  | child uuid name kind =>
    have hfirst := h.first
    cases hspans : r.spans with
    | nil => simp [hspans] at hfirst
    | cons first rest =>
      have hwrite : r.write (.child uuid name kind) =
          { r.tick with spans := r.spans ++ [childOf first (r.clock 0) uuid name kind] } := by
        simp only [Journal.write, hspans]
      have hstart : first.start_time_unix_nano = start := by simpa [hspans] using hfirst
      have hin := h.within first (by simp [hspans])
      rw [hwrite]
      refine ⟨h.tick.forward, ?_, fun s hs => ?_⟩
      · simp [hspans, hstart]
      · rcases List.mem_append.mp hs with hold | hnew
        · exact h.tick.within s hold
        · rw [List.mem_singleton.mp hnew]
          exact ⟨hstart ▸ hin.before, h.forward (Nat.zero_le 1), .inl rfl⟩
  | describe i kv => exact h.edit i (fun _ => rfl) fun s hs => ⟨hs.after, hs.before, hs.ended⟩
  | addEvent i event => exact h.edit i (fun _ => rfl) fun s hs => ⟨hs.after, hs.before, hs.ended⟩
  | date i start => exact absurd hx hdates
  | okEnd i =>
    refine (h.edit i (f := Span.okEnded (r.clock 0)) (fun _ => rfl) fun s hs => ?_).tick
    exact ⟨hs.after, hs.before, .inr ⟨hs.before, UInt64.le_refl _⟩⟩
  | errorEnd i message =>
    refine (h.edit i (f := Span.errorEnded (r.clock 0) message) (fun _ => rfl) fun s hs => ?_).tick
    exact ⟨hs.after, hs.before, .inr ⟨hs.before, UInt64.le_refl _⟩⟩
  | label kv => exact ⟨h.forward, h.first, h.within⟩
  | tick => exact h.tick

theorem Timely.writes (h : r.Timely start) {d : Details} {g : Grants} {lines : List Line}
    (hdates : ¬ d.dates) (hlines : ∀ x ∈ lines, x.Granted d g) : (lines.foldl Journal.write r).Timely start := by
  induction lines generalizing r with
  | nil => exact h
  | cons x lines ih =>
    exact ih (h.write hdates (hlines x List.mem_cons_self)) fun y hy => hlines y (List.mem_cons_of_mem _ hy)

theorem Timely.step (h : r.Timely start) {e : Event φ} (hstep : Step e r r')
    (hadvances : e.Advances r.clock) : r'.Timely start := by
  cases hstep with
  | call c r hlines => exact h.writes hadvances hlines
  | surround s r => exact h.rewind hadvances.1 hadvances.2
  | other r hcall hsurround => exact h

/-- Once the first span is ended as well, it encloses the others. -/
theorem Timely.message (h : r.Timely start) : ∃ first rest,
    (r.write (.okEnd 0)).message = [(some ⟨r.attributes⟩, first :: rest)] ∧
      first.start_time_unix_nano = start ∧
      first.start_time_unix_nano ≤ first.end_time_unix_nano ∧
      ∀ s ∈ rest, s.Within first.start_time_unix_nano first.end_time_unix_nano := by
  have hfirst := h.first
  have hwithin := h.within
  cases hspans : r.spans with
  | nil => simp [hspans] at hfirst
  | cons first rest =>
    have hstart : first.start_time_unix_nano = start := by simpa [hspans] using hfirst
    rw [hspans] at hwithin
    refine ⟨first.okEnded (r.clock 0), rest, ?_, hstart, ?_, fun s hs => ?_⟩
    · simp [Journal.message, Journal.write, Journal.edit, Journal.tick, hspans]
    · exact (hwithin first List.mem_cons_self).before
    · have hs := hwithin s (List.mem_cons_of_mem _ hs)
      rw [← hstart] at hs
      exact hs

end Journal

end opentelemetry
