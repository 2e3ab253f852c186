import OpentelemetryExt.Provider.Slotted
import OpentelemetryExt.Provider.Twin
import OpentelemetryExt.Lib.Run

open heap stateful relational run

namespace opentelemetry

/-- What an operation is supplied with: the settings, the counter, the readings of the clock and
the ids to come, and the addresses from which new messages are allocated. -/
structure Supply where
  settings : Globals
  counter : Int
  clock : Nat → UInt64
  uuids : Nat → Uuid
  pid : Nat
  erange : Bool
  spans : Nat
  resource_spans : Nat
  resources : Nat
  requests : Nat

/-- A call of an operation of the provider, with its arguments. -/
inductive ProviderCall where
  | createFirstSpan (name : Bytes) (kind : SpanKind)
  | createSpan (name : Bytes) (kind : SpanKind)
  | getTracer
  | getRequest
  | getResource
  | parseTraceParent (traceparent : Bytes)
  | parseBaggage (tracebaggage : Bytes)
  | addBaggage (key value : Bytes)
  | setSampled (isSampled : Bool)
  | isSampled
  | setRedisException (message : Bytes)
  | clearRedisException
  | isRedisException
  | formatTraceParentHeader (span : Nat)
  | formatBaggageHeader
  | errorEnd (span : Nat) (message : Bytes)
  | clean
deriving DecidableEq, Repr

/-- What a call returns. -/
inductive Output where
  | done
  | message (p : Option Nat)
  | flag (value : Bool)
  | traceparent (header : Bytes)
  | baggage (header : Bytes)
deriving DecidableEq, Repr

/-- Equal, where a baggage header may list its entries in any order. -/
def Output.Same : Output → Output → Prop
  | .baggage header, .baggage header' => Pairs.SameEntries header header'
  | output, output' => output = output'

/-- The span that a call makes. -/
def Output.made : ProviderCall → Output → List Nat
  | .createFirstSpan .., .message p | .createSpan .., .message p => p.toList
  | _, _ => []

variable {φ : Type}

namespace ProviderCall

def body (eng : Engine φ) : ProviderCall → Body φ Output
  | createFirstSpan name kind => do return .message (some (← Bodies.createFirstSpan eng name kind))
  | createSpan name kind => do return .message (some (← Bodies.createSpan eng name kind))
  | getTracer => do return .message (← Bodies.getTracer eng)
  | getRequest => do return .message (← Bodies.getRequest eng)
  | getResource => do return .message (← Bodies.getResource eng)
  | parseTraceParent traceparent => do Bodies.parseTraceParent eng traceparent; return .done
  | parseBaggage tracebaggage => do Bodies.parseBaggage eng tracebaggage; return .done
  | addBaggage key value => do Bodies.addBaggage eng key value; return .done
  | setSampled sampled => do Bodies.setSampled eng sampled; return .done
  | isSampled => do return .flag (← Bodies.isSampled eng)
  | setRedisException message => do Bodies.setRedisException eng message; return .done
  | clearRedisException => do Bodies.clearRedisException eng; return .done
  | isRedisException => do return .flag (← Bodies.isRedisException eng)
  | formatTraceParentHeader span => do
    return .traceparent (← Bodies.formatTraceParentHeader eng span)
  | formatBaggageHeader => do return .baggage (← Bodies.formatBaggageHeader eng)
  | errorEnd span message => do Bodies.errorEnd eng span message; return .done
  | clean => do Bodies.clean eng; return .done

/-- The same over the slots. -/
def run (eng : Engine φ) : ProviderCall → M φ Output
  | createFirstSpan name kind => do
    return .message (some (← Provider.createFirstSpan eng name kind))
  | createSpan name kind => do return .message (some (← Provider.createSpan eng name kind))
  | getTracer => do return .message (some (← Provider.getTracer eng))
  | getRequest => do return .message (← Provider.getRequest eng)
  | getResource => do return .message (← Provider.getResource eng)
  | parseTraceParent traceparent => do Provider.parseTraceParent eng traceparent; return .done
  | parseBaggage tracebaggage => do Provider.parseBaggage eng tracebaggage; return .done
  | addBaggage key value => do Provider.addBaggage eng key value; return .done
  | setSampled sampled => do Provider.setSampled eng sampled; return .done
  | isSampled => do return .flag (← Provider.isSampled eng)
  | setRedisException message => do Provider.setRedisException eng message; return .done
  | clearRedisException => do Provider.clearRedisException eng; return .done
  | isRedisException => do return .flag (← Provider.isRedisException eng)
  | formatTraceParentHeader span => do
    return .traceparent (← Provider.formatTraceParentHeader eng span)
  | formatBaggageHeader => do return .baggage (← Provider.formatBaggageHeader eng)
  | errorEnd span message => do Provider.errorEnd eng span message; return .done
  | clean => do Provider.clean eng; return .done

theorem refines_map {α : Type} {m : Body φ α} {n : M φ α} (h : Refines m n) (f : α → Output) :
    Refines (do return f (← m)) (do return f (← n)) :=
  Relates.map h fun _ _ _ _ hab => congrArg f hab

/-- The two bodies of every operation do what one body does over the slots. -/
theorem refines (eng : Engine φ) (call : ProviderCall) :
    Refines (call.body eng) (call.run eng) := by
  cases call with
  | createFirstSpan name kind =>
    exact refines_map (Bodies.refines_createFirstSpan name kind) fun p => .message (some p)
  | createSpan name kind =>
    exact refines_map (Bodies.refines_createSpan name kind) fun p => .message (some p)
  | getTracer =>
    refine Relates.map (f := fun p => Output.message p) (g := fun p => Output.message (some p))
      Bodies.refines_getTracer fun _ _ a b hab => ?_
    exact congrArg _ hab
  | getRequest => exact refines_map Bodies.refines_getRequest .message
  | getResource => exact refines_map Bodies.refines_getResource .message
  | parseTraceParent traceparent =>
    exact refines_map (Bodies.refines_parseTraceParent traceparent) fun _ => .done
  | parseBaggage tracebaggage =>
    exact refines_map (Bodies.refines_parseBaggage tracebaggage) fun _ => .done
  | addBaggage key value => exact refines_map (Bodies.refines_addBaggage key value) fun _ => .done
  | setSampled sampled => exact refines_map (Bodies.refines_setSampled sampled) fun _ => .done
  | isSampled => exact refines_map Bodies.refines_isSampled .flag
  | setRedisException message =>
    exact refines_map (Bodies.refines_setRedisException message) fun _ => .done
  | clearRedisException => exact refines_map (Bodies.refines_setRedisException []) fun _ => .done
  | isRedisException => exact refines_map Bodies.refines_isRedisException .flag
  | formatTraceParentHeader span =>
    exact refines_map (Bodies.refines_formatTraceParentHeader span) .traceparent
  | formatBaggageHeader => exact refines_map Bodies.refines_formatBaggageHeader .baggage
  | errorEnd span message => exact refines_map (Bodies.refines_errorEnd span message) fun _ => .done
  | clean => exact refines_map Bodies.refines_clean fun _ => .done

end ProviderCall

/-- What has come of the calls under one pid: whether they are between a `createFirstSpan` and the
next `clean`, and the spans they have made. -/
structure Trail where
  started : Bool := false
  spans : List Nat := []

def Trail.after (trail : Trail) (call : ProviderCall) (output : Output) : Trail where
  started := match call with
    | .createFirstSpan .. => true
    | .clean => false
    | _ => trail.started
  spans := trail.spans ++ output.made call

/-- A trace is begun by `createFirstSpan`, `clean` may come at any time, and all else comes between
the two. A span that is handed in is one that was made under the same pid. -/
def ProviderCall.Allowed (trail : Trail) : ProviderCall → Prop
  | createFirstSpan .. | clean => True
  | formatTraceParentHeader span | errorEnd span _ => trail.started ∧ span ∈ trail.spans
  | _ => trail.started

/-- What a trail tells of the messages of a trace. -/
structure Trail.Within (trail : Trail) (own : Holding) : Prop where
  live : trail.started → own.live
  spans (p : Nat) : p ∈ trail.spans → p ∈ own.spans

namespace Trail.Within

variable {trail : Trail} {own own' : Holding}

theorem grows (h : trail.Within own) (hle : own ≤ own') {made : List Nat}
    (hmade : ∀ p ∈ made, p ∈ own'.spans) :
    Trail.Within ⟨trail.started, trail.spans ++ made⟩ own' where
  live hstarted := hle.2 (h.live hstarted)
  spans p hp := (List.mem_append.mp hp).elim (fun hp => hle.1.1 (h.spans p hp)) (hmade p)

/-- After a call that makes no span. -/
theorem later (h : trail.Within own) (hle : own ≤ own') :
    Trail.Within ⟨trail.started, trail.spans ++ []⟩ own' :=
  h.grows hle fun _ hp => absurd hp List.not_mem_nil

end Trail.Within

namespace ProviderCall

variable {eng fpm : Engine φ} {others own : Holding} {before : World φ} {trail : Trail}

/-- What is kept of two outputs: they are the same, and the trail stays within the messages. -/
def Agree (trail : Trail) (call : ProviderCall) (own : Holding) (output output' : Output) : Prop :=
  output.Same output' ∧ (trail.after call output).Within own

/-- An operation goes the same way under its key in the CLI and in a provider of its own. -/
theorem pairs (hplatform : fpm.platform_name = eng.platform_name) {call : ProviderCall}
    (hclean : call ≠ .clean) (hin : trail.Within own) (hallowed : call.Allowed trail) :
    Pairs eng fpm others before (Agree trail call) own (call.run eng) (call.run fpm) := by
  have hmade {p : Nat} {own' : Holding} (hp : p ∈ own'.spans) : ∀ q ∈ [p], q ∈ own'.spans := by
    intro q hq
    rwa [List.mem_singleton.mp hq]
  cases call with
  | createFirstSpan name kind =>
    refine (Pairs.createFirstSpan hplatform name kind).map fun own' hle p p' hp => ?_
    obtain ⟨⟨rfl, hmem⟩, hlive⟩ := hp
    exact ⟨rfl, fun _ => hlive, (hin.grows hle (hmade hmem)).spans⟩
  | createSpan name kind =>
    refine (Pairs.createSpan hplatform name kind).map fun own' hle p p' hp => ?_
    obtain ⟨⟨rfl, hmem⟩, -⟩ := hp
    exact ⟨rfl, hin.grows hle (hmade hmem)⟩
  | getTracer =>
    refine (Pairs.getTracer hplatform).map fun own' hle p p' hp => ?_
    obtain ⟨⟨rfl, -⟩, -⟩ := hp
    exact ⟨rfl, hin.later hle⟩
  | getRequest =>
    refine Pairs.getRequest.map fun own' hle p p' hp => ?_
    obtain ⟨rfl, -⟩ := hp
    exact ⟨rfl, hin.later hle⟩
  | getResource =>
    refine Pairs.getResource.map fun own' hle p p' hp => ?_
    obtain ⟨rfl, -⟩ := hp
    exact ⟨rfl, hin.later hle⟩
  | parseTraceParent traceparent =>
    exact (Pairs.parseTraceParent traceparent).map fun own' hle _ _ _ => ⟨rfl, hin.later hle⟩
  | parseBaggage tracebaggage =>
    exact (Pairs.parseBaggage (hin.live hallowed) tracebaggage).map fun own' hle _ _ _ =>
      ⟨rfl, hin.later hle⟩
  | addBaggage key value =>
    exact (Pairs.addBaggage (hin.live hallowed) key value).map fun own' hle _ _ _ =>
      ⟨rfl, hin.later hle⟩
  | setSampled sampled =>
    exact (Pairs.setSampled sampled).map fun own' hle _ _ _ => ⟨rfl, hin.later hle⟩
  | isSampled =>
    exact Pairs.isSampled.map fun own' hle _ _ hsame => ⟨congrArg _ hsame, hin.later hle⟩
  | setRedisException message =>
    exact (Pairs.setRedisException (hin.live hallowed) message).map fun own' hle _ _ _ =>
      ⟨rfl, hin.later hle⟩
  | clearRedisException =>
    exact (Pairs.setRedisException (hin.live hallowed) []).map fun own' hle _ _ _ =>
      ⟨rfl, hin.later hle⟩
  | isRedisException =>
    exact Pairs.isRedisException.map fun own' hle _ _ hsame => ⟨congrArg _ hsame, hin.later hle⟩
  | formatTraceParentHeader span =>
    exact (Pairs.formatTraceParentHeader (hin.spans span hallowed.2)).map
      fun own' hle _ _ hsame => ⟨congrArg _ hsame, hin.later hle⟩
  | formatBaggageHeader =>
    exact Pairs.formatBaggageHeader.map fun own' hle _ _ hsame => ⟨hsame, hin.later hle⟩
  | errorEnd span message =>
    exact (Pairs.errorEnd (hin.spans span hallowed.2) message).map fun own' hle _ _ _ =>
      ⟨rfl, hin.later hle⟩
  | clean => exact absurd rfl hclean

/-- The outcomes of an operation, with what the trace has afterwards. -/
theorem outcomes (hplatform : fpm.platform_name = eng.platform_name) {call : ProviderCall}
    (hin : trail.Within own) (hallowed : call.Allowed trail) {w v : World φ}
    (h : Twin eng fpm others before own w v) :
    ∃ own', Outcomes (Twin eng fpm others before own') (Agree trail call own') (call.run eng w)
      (call.run fpm v) := by
  by_cases hclean : call = .clean
  · subst hclean
    refine ⟨{ own with live := False }, ?_⟩
    have houtcomes := h.clean
    rw [run, run, bind_apply, bind_apply]
    generalize Provider.clean eng w = x at houtcomes
    generalize Provider.clean fpm v = y at houtcomes
    rcases x with (e | s') | ⟨a, s'⟩ <;> rcases y with (e' | t') | ⟨b, t'⟩
    case ok.ok =>
      refine ⟨⟨rfl, fun hstarted => absurd hstarted Bool.false_ne_true, fun p hp => ?_⟩, houtcomes.2⟩
      exact hin.spans p ((List.mem_append.mp hp).resolve_right List.not_mem_nil)
    case error.fault.error.fault => exact houtcomes
    case error.unwind.error.unwind => exact houtcomes
    all_goals exact houtcomes.elim
  · obtain ⟨own', -, houtcomes⟩ := pairs hplatform hclean hin hallowed own le_rfl w v h
    exact ⟨own', houtcomes⟩

end ProviderCall

/-- A call that is made: under which pid, and with what supply. -/
structure Issue where
  ppid : Nat
  call : ProviderCall
  supply : Supply

/-- The addresses of the supply have not been used. -/
structure Memory.Vacant (m : Memory) (supply : Supply) : Prop where
  spans : m.spans.next ≤ supply.spans
  resource_spans : m.resource_spans.next ≤ supply.resource_spans
  resources : m.resources.next ≤ supply.resources
  requests : m.requests.next ≤ supply.requests

def World.supplied (w : World φ) (ppid : Nat) (supply : Supply) : World φ :=
  { w with
    globals := { supply.settings with provider := w.globals.provider }
    memory := {
      spans := w.memory.spans.skip supply.spans
      resource_spans := w.memory.resource_spans.skip supply.resource_spans
      resources := w.memory.resources.skip supply.resources
      requests := w.memory.requests.skip supply.requests }
    clock := supply.clock
    uuids := supply.uuids
    pid := supply.pid
    ppid := ppid
    erange := supply.erange }

def Issue.enter (i : Issue) (s : World φ × Members) : World φ × Members :=
  (s.1.supplied i.ppid i.supply, { s.2 with counter := i.supply.counter })

/-- A call and what it returns, with the state before and after. -/
def Performs (eng : Engine φ) (l : Issue × Output) (s s' : World φ × Members) : Prop :=
  s.1.memory.Vacant l.1.supply ∧ l.1.call.body eng (l.1.enter s) = .ok (l.2, s')

namespace Holding

/-- What is not among the messages of the other keys. -/
structure Apart (own other : Holding) : Prop where
  spans (p : Nat) : p ∈ other.spans → p ∉ own.spans
  resource_spans (p : Nat) : p ∈ other.resource_spans → p ∉ own.resource_spans
  resources (p : Nat) : p ∈ other.resources → p ∉ own.resources
  requests (p : Nat) : p ∈ other.requests → p ∉ own.requests

theorem Apart.symm {own other : Holding} (h : own.Apart other) : other.Apart own where
  spans p hp hother := h.spans p hother hp
  resource_spans p hp hother := h.resource_spans p hother hp
  resources p hp hother := h.resources p hother hp
  requests p hp hother := h.requests p hother hp

/-- All that is under the keys other than `ppid`. -/
def besides (owns : Nat → Holding) (ppid : Nat) : Holding where
  spans := {p | ∃ k, k ≠ ppid ∧ p ∈ (owns k).spans}
  resource_spans := {p | ∃ k, k ≠ ppid ∧ p ∈ (owns k).resource_spans}
  resources := {p | ∃ k, k ≠ ppid ∧ p ∈ (owns k).resources}
  requests := {p | ∃ k, k ≠ ppid ∧ p ∈ (owns k).requests}
  live := False

end Holding

/-- The CLI provider under a key, and the provider that has nothing but the trace of the key. -/
structure Alongside (ppid : Nat) (own : Holding) (s t : World φ × Members) : Prop where
  sound : s.2.Sound
  sound' : t.2.Sound
  slot : t.2.slots none = s.2.slots (some ppid)
  fits : (s.2.slots (some ppid)).Fits own
  memory : Memory.Alike own s.1.memory t.1.memory

/-- The process as the slots show it. -/
def shown (s : World φ × Members) : World φ := s.1.withProvider s.2.provider

theorem Members.slots_counter (m : Members) (counter : Int) :
    ({ m with counter } : Members).slots = m.slots :=
  funext fun key => by cases key <;> rfl

theorem Members.Sound.counter {m : Members} (h : m.Sound) (counter : Int) :
    ({ m with counter } : Members).Sound where
  entry key := by
    rw [slots_counter]
    exact h.entry key
  request ppid := by
    rw [slots_counter]
    exact h.request ppid

theorem shows_shown {s : World φ × Members} (h : s.2.Sound) : Shows s (shown s) := ⟨h, rfl⟩

variable {eng fpm : Engine φ} {s t : World φ × Members} {own : Holding} {i : Issue}

/-- An issue finds the two in the same trace, with the same surroundings. -/
theorem Alongside.twin (hcli : eng.cli = true) (hfpm : fpm.cli = false)
    (h : Alongside i.ppid own s t) (hvacant : s.1.memory.Vacant i.supply) {others : Holding}
    (hspans : ∀ p ∈ others.spans, p ∉ own.spans ∧ p < s.1.memory.spans.next)
    (hentries : ∀ p ∈ others.resource_spans,
      p ∉ own.resource_spans ∧ p < s.1.memory.resource_spans.next)
    (hresources : ∀ p ∈ others.resources, p ∉ own.resources ∧ p < s.1.memory.resources.next)
    (hrequests : ∀ p ∈ others.requests, p ∉ own.requests ∧ p < s.1.memory.requests.next) :
    Twin eng fpm others ((shown (i.enter s)).withMemory s.1.memory) own (shown (i.enter s))
      (shown (i.enter t)) where
  memory :=
    ⟨h.memory.spans.shares hvacant.spans hspans,
      h.memory.resource_spans.shares hvacant.resource_spans hentries,
      h.memory.resources.shares hvacant.resources hresources,
      h.memory.requests.shares hvacant.requests hrequests, h.memory.message, h.memory.entry⟩
  provider := by
    refine ⟨(i.enter s).2.provider, (i.enter t).2.provider, rfl, rfl, rfl, ?_, ?_, fun _ _ => rfl⟩
    · rw [key_fields hfpm, key_cli hcli]
      exact h.slot
    · rw [key_cli hcli]
      exact h.fits
  clock := rfl
  uuids := rfl
  pid := rfl
  erange := rfl
  ppid := rfl

/-- What an operation under one key leaves of the messages of another. -/
theorem Memory.Alike.frame {own own' others : Holding} {before m m' u : Memory}
    (h : Memory.Alike own before u) (hs : Memory.Shares own' others before m m')
    (hspans : own.spans ⊆ others.spans) (hentries : own.resource_spans ⊆ others.resource_spans)
    (hresources : own.resources ⊆ others.resources)
    (hrequests : own.requests ⊆ others.requests) : Memory.Alike own m u where
  spans := h.spans.frame hs.spans hspans
  resource_spans := h.resource_spans.frame hs.resource_spans hentries
  resources := h.resources.frame hs.resources hresources
  requests := h.requests.frame hs.requests hrequests
  message p request hp hrequest := by
    rw [(hs.requests.apart p (hrequests hp)).2.2] at hrequest
    exact h.message p request hp hrequest
  entry p r hp hr := by
    rw [(hs.resource_spans.apart p (hentries hp)).2.2] at hr
    exact h.entry p r hp hr

/-- Under every key the CLI provider goes alongside a provider of the key's own, and the messages
of two keys are apart. -/
structure Family (trails : Nat → Trail) (owns : Nat → Holding) (s : World φ × Members)
    (ts : Nat → World φ × Members) : Prop where
  alongside (ppid : Nat) : Alongside ppid (owns ppid) s (ts ppid)
  apart (ppid k : Nat) : k ≠ ppid → (owns ppid).Apart (owns k)
  within (ppid : Nat) : (trails ppid).Within (owns ppid)

/-- Where an issue leaves the two: alongside each other, and the other keys as they were. -/
structure Left (ppid : Nat) (owns : Nat → Holding) (own' : Holding)
    (ts : Nat → World φ × Members) (s' t' : World φ × Members) : Prop where
  alongside : Alongside ppid own' s' t'
  others (k : Nat) : k ≠ ppid → Alongside k (owns k) s' (ts k)
  apart (k : Nat) : k ≠ ppid → own'.Apart (owns k)

namespace Family

variable {trails : Nat → Trail} {owns : Nat → Holding} {ts : Nat → World φ × Members}

theorem twin (hcli : eng.cli = true) (hfpm : fpm.cli = false) (h : Family trails owns s ts)
    (hvacant : s.1.memory.Vacant i.supply) :
    Twin eng fpm (Holding.besides owns i.ppid) ((shown (i.enter s)).withMemory s.1.memory)
      (owns i.ppid) (shown (i.enter s)) (shown (i.enter (ts i.ppid))) := by
  refine (h.alongside i.ppid).twin hcli hfpm hvacant ?_ ?_ ?_ ?_
  · rintro p ⟨k, hk, hp⟩
    exact ⟨(h.apart _ _ hk).spans p hp, (h.alongside k).memory.spans.below p hp⟩
  · rintro p ⟨k, hk, hp⟩
    exact ⟨(h.apart _ _ hk).resource_spans p hp, (h.alongside k).memory.resource_spans.below p hp⟩
  · rintro p ⟨k, hk, hp⟩
    exact ⟨(h.apart _ _ hk).resources p hp, (h.alongside k).memory.resources.below p hp⟩
  · rintro p ⟨k, hk, hp⟩
    exact ⟨(h.apart _ _ hk).requests p hp, (h.alongside k).memory.requests.below p hp⟩

/-- From the relation of the slots back to the two bodies. -/
theorem left (hcli : eng.cli = true) (hfpm : fpm.cli = false) (h : Family trails owns s ts)
    {own' : Holding} {s' t' : World φ × Members} {w v : World φ} (hw : Shows s' w)
    (hv : Shows t' v) (htwin : Twin eng fpm (Holding.besides owns i.ppid)
      ((shown (i.enter s)).withMemory s.1.memory) own' w v) :
    Left i.ppid owns own' ts s' t' := by
  obtain ⟨hs', rfl⟩ := hw
  obtain ⟨ht', rfl⟩ := hv
  obtain ⟨p, q, hp, hq, -, hslot, hfits, hothers⟩ := htwin.provider
  obtain rfl : s'.2.provider = p := Option.some.inj hp
  obtain rfl : t'.2.provider = q := by
    have hprovider := congrArg Globals.provider hq
    exact Option.some.inj hprovider
  have hkey : (s'.1.withProvider s'.2.provider).key eng = some i.ppid := by
    rw [key_cli hcli]
    exact congrArg some htwin.ppid
  rw [hkey] at hfits hslot hothers
  rw [key_fields hfpm] at hslot
  have hmemory := htwin.memory
  refine ⟨⟨hs', ht', hslot, hfits, hmemory.alike⟩, fun k hk => ?_, fun k hk => ?_⟩
  · have hkey := h.alongside k
    have hsame : s'.2.slots (some k) = s.2.slots (some k) :=
      hothers (some k) fun heq => hk (Option.some.inj heq)
    refine ⟨hs', hkey.sound', hsame ▸ hkey.slot, hsame ▸ hkey.fits, ?_⟩
    exact hkey.memory.frame hmemory (fun p hp => ⟨k, hk, hp⟩) (fun p hp => ⟨k, hk, hp⟩)
      (fun p hp => ⟨k, hk, hp⟩) fun p hp => ⟨k, hk, hp⟩
  · exact ⟨fun p hp => (hmemory.spans.apart p ⟨k, hk, hp⟩).1,
      fun p hp => (hmemory.resource_spans.apart p ⟨k, hk, hp⟩).1,
      fun p hp => (hmemory.resources.apart p ⟨k, hk, hp⟩).1,
      fun p hp => (hmemory.requests.apart p ⟨k, hk, hp⟩).1⟩

/-- The outcomes of an issue in the CLI, and in the provider of its key. -/
theorem outcomes (hcli : eng.cli = true) (hfpm : fpm.cli = false)
    (hplatform : fpm.platform_name = eng.platform_name) (h : Family trails owns s ts)
    (hallowed : i.call.Allowed (trails i.ppid)) (hvacant : s.1.memory.Vacant i.supply) :
    ∃ own', Outcomes (Left i.ppid owns own' ts)
      (ProviderCall.Agree (trails i.ppid) i.call own') (i.call.body eng (i.enter s))
      (i.call.body fpm (i.enter (ts i.ppid))) := by
  have hkey := h.alongside i.ppid
  obtain ⟨own', hslots⟩ := ProviderCall.outcomes hplatform (h.within i.ppid) hallowed
    (h.twin hcli hfpm hvacant)
  obtain ⟨⟨⟩, -, hbodies⟩ := i.call.refines eng .still le_rfl _ _
    (shows_shown (hkey.sound.counter i.supply.counter) : Shows (i.enter s) _)
  obtain ⟨⟨⟩, -, hbodies'⟩ := i.call.refines fpm .still le_rfl _ _
    (shows_shown (hkey.sound'.counter i.supply.counter) : Shows (i.enter (ts i.ppid)) _)
  refine ⟨own', ((hbodies.trans hslots).trans hbodies'.symm).mono ?_ ?_⟩
  · rintro s' t' ⟨v, ⟨w, hw, htwin⟩, hv⟩
    exact h.left hcli hfpm hw hv htwin
  · rintro o o' ⟨_, ⟨_, rfl, hagree⟩, rfl⟩
    exact hagree

end Family

/-- The calls that are made under a pid. -/
def callsUnder (ppid : Nat) (ls : List (Issue × Output)) : List (Issue × Output) :=
  ls.filter fun l => l.1.ppid = ppid

def trailUnder (ppid : Nat) (ls : List (Issue × Output)) : Trail :=
  (callsUnder ppid ls).foldl (fun trail l => trail.after l.1.call l.2) {}

/-- Every call is allowed by those made before it under its pid. -/
def Disciplined (ls : List (Issue × Output)) : Prop :=
  ∀ done l, done ++ [l] <+: ls → l.1.call.Allowed (trailUnder l.1.ppid done)

theorem Disciplined.init {ls : List (Issue × Output)} {l : Issue × Output}
    (h : Disciplined (ls ++ [l])) : Disciplined ls :=
  fun done l' hdone => h done l' (hdone.trans (List.prefix_append ls [l]))

/-- Discipline, call by call. -/
theorem Disciplined.of_takes {ls : List (Issue × Output)}
    (h : ∀ k (hk : k < ls.length), ls[k].1.call.Allowed (trailUnder ls[k].1.ppid (ls.take k))) :
    Disciplined ls := by
  rintro done l ⟨rest, rfl⟩
  have hlast := h done.length (by simp)
  simpa using hlast

theorem callsUnder_concat_self (ls : List (Issue × Output)) (l : Issue × Output) :
    callsUnder l.1.ppid (ls ++ [l]) = callsUnder l.1.ppid ls ++ [l] := by
  simp [callsUnder]

theorem callsUnder_concat_ne {ppid : Nat} {l : Issue × Output} (h : ppid ≠ l.1.ppid)
    (ls : List (Issue × Output)) : callsUnder ppid (ls ++ [l]) = callsUnder ppid ls := by
  simp [callsUnder, Ne.symm h]

theorem trailUnder_concat_self (ls : List (Issue × Output)) (l : Issue × Output) :
    trailUnder l.1.ppid (ls ++ [l]) = (trailUnder l.1.ppid ls).after l.1.call l.2 := by
  rw [trailUnder, callsUnder_concat_self, List.foldl_append]
  rfl

theorem trailUnder_concat_ne {ppid : Nat} {l : Issue × Output} (h : ppid ≠ l.1.ppid)
    (ls : List (Issue × Output)) : trailUnder ppid (ls ++ [l]) = trailUnder ppid ls := by
  rw [trailUnder, callsUnder_concat_ne h]
  rfl

/-- The same call with the same supply, and what it returns in the two. -/
def Matches (l l' : Issue × Output) : Prop := l'.1 = l.1 ∧ l.2.Same l'.2

/-- No messages, under any key. -/
def Holding.none : Holding := ⟨∅, ∅, ∅, ∅, False⟩

theorem Family.start (w : World φ) :
    Family (fun ppid => trailUnder ppid []) (fun _ => .none) (w, {}) fun _ => (w, {}) where
  alongside ppid := by
    have hsound : ({} : Members).Sound := by
      refine ⟨fun key h => ?_, fun ppid h => ?_⟩
      · cases key <;> exact absurd h Bool.false_ne_true
      · exact absurd h Bool.false_ne_true
    have halike {α : Type} (h : Heap α) : Heap.Alike ∅ h h :=
      ⟨le_rfl, fun _ _ => rfl, fun _ hp => absurd hp (Set.notMem_empty _)⟩
    refine ⟨hsound, hsound, rfl, ?_, ?_⟩
    · refine ⟨?_, ?_, ?_, ?_, iff_of_false id Bool.false_ne_true, .inr ⟨rfl, rfl⟩⟩
      all_goals rintro p ⟨⟩
    · exact ⟨halike _, halike _, halike _, halike _, fun _ _ hp => absurd hp (Set.notMem_empty _),
        fun _ _ hp => absurd hp (Set.notMem_empty _)⟩
  apart ppid k _ := by
    constructor <;> exact fun p hp => absurd hp (Set.notMem_empty p)
  within ppid := ⟨fun h => absurd h Bool.false_ne_true, fun p hp => absurd hp List.not_mem_nil⟩

/-- One call more, in the CLI and in the provider of its key. -/
theorem Family.step (hcli : eng.cli = true) (hfpm : fpm.cli = false)
    (hplatform : fpm.platform_name = eng.platform_name) {ls : List (Issue × Output)}
    {owns : Nat → Holding} {ts : Nat → World φ × Members} {l : Issue × Output}
    {s' : World φ × Members} (h : Family (fun ppid => trailUnder ppid ls) owns s ts)
    (hallowed : l.1.call.Allowed (trailUnder l.1.ppid ls)) (hstep : Performs eng l s s') :
    ∃ o' t' own', Performs fpm (l.1, o') (ts l.1.ppid) t' ∧ l.2.Same o' ∧
      Family (fun ppid => trailUnder ppid (ls ++ [l])) (Function.update owns l.1.ppid own') s'
        (Function.update ts l.1.ppid t') := by
  obtain ⟨hvacant, hbody⟩ := hstep
  obtain ⟨own', houtcomes⟩ := h.outcomes hcli hfpm hplatform hallowed hvacant
  rw [hbody] at houtcomes
  obtain ⟨o', t', ht', ⟨hsame, hwithin⟩, hleft⟩ := houtcomes.ok
  have hmemory := (h.alongside l.1.ppid).memory
  refine ⟨o', t', own', ⟨?_, ht'⟩, hsame, ?_, ?_, ?_⟩
  · exact ⟨hmemory.spans.next.trans hvacant.spans,
      hmemory.resource_spans.next.trans hvacant.resource_spans,
      hmemory.resources.next.trans hvacant.resources, hmemory.requests.next.trans hvacant.requests⟩
  · intro ppid
    by_cases hppid : ppid = l.1.ppid
    · subst hppid
      rw [Function.update_self, Function.update_self]
      exact hleft.alongside
    · rw [Function.update_of_ne hppid, Function.update_of_ne hppid]
      exact hleft.others ppid hppid
  · intro ppid k hk
    by_cases hppid : ppid = l.1.ppid
    · subst hppid
      rw [Function.update_self, Function.update_of_ne hk]
      exact hleft.apart k hk
    · rw [Function.update_of_ne hppid]
      by_cases hk' : k = l.1.ppid
      · subst hk'
        rw [Function.update_self]
        exact (hleft.apart ppid hppid).symm
      · rw [Function.update_of_ne hk']
        exact h.apart ppid k hk
  · intro ppid
    by_cases hppid : ppid = l.1.ppid
    · subst hppid
      rw [Function.update_self, trailUnder_concat_self]
      exact hwithin
    · rw [Function.update_of_ne hppid, trailUnder_concat_ne hppid]
      exact h.within ppid

/-- The runs of the providers of all keys beside a run of the CLI provider. -/
theorem Family.follows (hcli : eng.cli = true) (hfpm : fpm.cli = false)
    (hplatform : fpm.platform_name = eng.platform_name) {w : World φ}
    {ls : List (Issue × Output)} (hrun : Run (Performs eng) (w, {}) ls s)
    (hdisciplined : Disciplined ls) :
    ∃ owns ts, Family (fun ppid => trailUnder ppid ls) owns s ts ∧
      ∀ ppid, ∃ ls', Run (Performs fpm) (w, {}) ls' (ts ppid) ∧
        List.Forall₂ Matches (callsUnder ppid ls) ls' := by
  induction hrun with
  | nil => exact ⟨_, _, .start w, fun ppid => ⟨[], .nil, .nil⟩⟩
  | @snoc ls l s s' _ hstep ih =>
    obtain ⟨owns, ts, hfamily, hruns⟩ := ih hdisciplined.init
    obtain ⟨o', t', own', hstep', hsame, hfamily'⟩ := hfamily.step hcli hfpm hplatform
      (hdisciplined ls l (List.prefix_refl _)) hstep
    refine ⟨_, _, hfamily', fun ppid => ?_⟩
    obtain ⟨ls', hrun', hmatches⟩ := hruns ppid
    by_cases hppid : ppid = l.1.ppid
    · subst hppid
      refine ⟨ls' ++ [(l.1, o')], ?_, ?_⟩
      · rw [Function.update_self]
        exact .snoc hrun' hstep'
      · rw [callsUnder_concat_self]
        exact List.rel_append hmatches (.cons ⟨rfl, hsame⟩ .nil)
    · rw [Function.update_of_ne hppid, callsUnder_concat_ne hppid]
      exact ⟨ls', hrun', hmatches⟩

/-- What the exporter would find behind a request of the trace. -/
theorem Memory.Alike.serialize {own : Holding} {m m' : Memory} (h : Memory.Alike own m m')
    {p : Nat} {request : ExportTraceServiceRequest} (hp : p ∈ own.requests)
    (hrequest : m.requests.cell p = some request) :
    m'.requests.cell p = some request ∧ m'.serialize request = m.serialize request := by
  refine ⟨(h.requests.same p hp).trans hrequest, ?_⟩
  have hmem := h.message p request hp hrequest
  have howned : m'.owned request = m.owned request :=
    List.filterMap_congr fun rs hrs => h.resource_spans.same rs (hmem rs hrs)
  rw [Memory.serialize, Memory.serialize, howned]
  refine List.map_congr_left fun r hr => ?_
  obtain ⟨rs, hrs, hcell⟩ := List.mem_filterMap.mp hr
  obtain ⟨hspans, hresource⟩ := h.entry rs r (hmem rs hrs) hcell
  have hresources : r.resource.bind m'.resources.cell = r.resource.bind m.resources.cell :=
    Option.bind_congr fun q hq => h.resources.same q (hresource q hq)
  have hcells : r.spans.filterMap m'.spans.cell = r.spans.filterMap m.spans.cell :=
    List.filterMap_congr fun q hq => h.spans.same q (hspans q hq)
  rw [hresources, hcells]

/-- The CLI provider does under each pid what a provider outside the CLI does with the calls under
that pid alone: it returns the same, has the same messages, and answers every next call alike. -/
theorem cli_simulates_fpm (hcli : eng.cli = true) (hfpm : fpm.cli = false)
    (hplatform : fpm.platform_name = eng.platform_name) {w : World φ}
    {ls : List (Issue × Output)} (hrun : Run (Performs eng) (w, {}) ls s)
    (hdisciplined : Disciplined ls) (ppid : Nat) :
    ∃ ls' t, Run (Performs fpm) (w, {}) ls' t ∧
      List.Forall₂ Matches (callsUnder ppid ls) ls' ∧
      (∀ p ∈ (trailUnder ppid ls).spans, t.1.memory.spans.cell p = s.1.memory.spans.cell p) ∧
      (∀ p request, (s.2.slots (some ppid)).request = some p →
        s.1.memory.requests.cell p = some request → t.1.memory.requests.cell p = some request ∧
          t.1.memory.serialize request = s.1.memory.serialize request) ∧
      ∀ i : Issue, i.ppid = ppid → i.call.Allowed (trailUnder ppid ls) →
        s.1.memory.Vacant i.supply → Outcomes (fun _ _ => True) Output.Same
          (i.call.body eng (i.enter s)) (i.call.body fpm (i.enter t)) := by
  obtain ⟨owns, ts, hfamily, hruns⟩ := Family.follows hcli hfpm hplatform hrun hdisciplined
  obtain ⟨ls', hrun', hmatches⟩ := hruns ppid
  have hkey := hfamily.alongside ppid
  refine ⟨ls', ts ppid, hrun', hmatches, fun p hp => ?_, fun p request hp hrequest => ?_, ?_⟩
  · exact hkey.memory.spans.same p ((hfamily.within ppid).spans p hp)
  · exact hkey.memory.serialize (hkey.fits.request p hp) hrequest
  · rintro i rfl hallowed hvacant
    obtain ⟨own', houtcomes⟩ := hfamily.outcomes hcli hfpm hplatform hallowed hvacant
    exact houtcomes.mono (fun _ _ _ => trivial) fun _ _ hagree => hagree.1

instance instDecidableVacant (m : Memory) (supply : Supply) : Decidable (m.Vacant supply) :=
  decidable_of_iff (m.spans.next ≤ supply.spans ∧ m.resource_spans.next ≤ supply.resource_spans ∧
      m.resources.next ≤ supply.resources ∧ m.requests.next ≤ supply.requests)
    ⟨fun ⟨h₁, h₂, h₃, h₄⟩ => ⟨h₁, h₂, h₃, h₄⟩, fun ⟨h₁, h₂, h₃, h₄⟩ => ⟨h₁, h₂, h₃, h₄⟩⟩

instance instDecidableAllowed (trail : Trail) (call : ProviderCall) :
    Decidable (call.Allowed trail) := by
  cases call <;> unfold ProviderCall.Allowed <;> infer_instance

/-- The state after a call that returns what the label says. -/
def perform (eng : Engine φ) (s : World φ × Members) (l : Issue × Output) :
    Option (World φ × Members) :=
  if s.1.memory.Vacant l.1.supply then
    match l.1.call.body eng (l.1.enter s) with
    | .ok (output, s') => if output = l.2 then some s' else none
    | .error _ => none
  else none

theorem performs_of_perform (s : World φ × Members) (l : Issue × Output) (s' : World φ × Members)
    (h : perform eng s l = some s') : Performs eng l s s' := by
  unfold perform at h
  split at h
  case isTrue hvacant =>
    split at h
    case h_1 output s'' hbody =>
      split at h
      case isTrue houtput =>
        cases h
        exact ⟨hvacant, houtput ▸ hbody⟩
      case isFalse => cases h
    case h_2 => cases h
  case isFalse => cases h

/-- Two parents take turns; the second cleans up while the first is in its trace. -/
def twoParents : List (Issue × Output) :=
  let supply (n : Nat) : Supply :=
    { settings := {}, counter := 0, clock := fun _ => 0
      uuids := fun _ => ⟨List.replicate 16 (UInt8.ofNat n), List.length_replicate⟩
      pid := 1, erange := false, spans := n, resource_spans := n, resources := n, requests := n }
  [(⟨7, .createFirstSpan (lit "a") .server, supply 0⟩, .message (some 0)),
    (⟨8, .createFirstSpan (lit "b") .server, supply 1⟩, .message (some 1)),
    (⟨7, .addBaggage (lit "k") (lit "v"), supply 2⟩, .done),
    (⟨8, .addBaggage (lit "k") (lit "w"), supply 3⟩, .done),
    (⟨8, .clean, supply 4⟩, .done),
    (⟨7, .formatBaggageHeader, supply 5⟩, .baggage (lit "k=v")),
    (⟨7, .errorEnd 0 (lit "m"), supply 6⟩, .done)]

theorem cli_simulates_fpm_twoParents :
    ∃ s : World Unit × Members, Run (Performs (.bare true)) (.fresh (), {}) twoParents s ∧
      Disciplined twoParents ∧ ∃ ls' t, Run (Performs (.bare false)) (.fresh (), {}) ls' t ∧
        List.Forall₂ Matches (callsUnder 7 twoParents) ls' := by
  have hplayed : (twoParents.foldlM (perform (.bare true)) ((.fresh (), {}) :
      World Unit × Members)).isSome = true := by decide +kernel
  obtain ⟨s, hs⟩ := Option.isSome_iff_exists.mp hplayed
  have hrun : Run (Performs (.bare true)) (.fresh (), {}) twoParents s :=
    Run.of_foldlM performs_of_perform hs
  have hdisciplined : Disciplined twoParents := by
    refine Disciplined.of_takes ?_
    decide +kernel
  have hcli : (Engine.bare true : Engine Unit).cli = true := rfl
  have hfpm : (Engine.bare false : Engine Unit).cli = false := rfl
  obtain ⟨ls', t, hrun', hmatches, -⟩ := cli_simulates_fpm hcli hfpm rfl hrun hdisciplined 7
  exact ⟨s, hrun, hdisciplined, ls', t, hrun', hmatches⟩

end opentelemetry
