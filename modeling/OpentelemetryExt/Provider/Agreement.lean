import OpentelemetryExt.Provider.Baggage
import OpentelemetryExt.Provider.TraceParent

open assoc heap stateful

namespace opentelemetry

variable {φ : Type} {eng : Engine φ} {u v w : World φ}

/-- A call that adds to the baggage. -/
inductive Addition where
  | parse (header : Bytes)
  | add (key value : Bytes)
deriving DecidableEq, Repr

def Addition.run (eng : Engine φ) : Addition → M φ Unit
  | parse header => Provider.parseBaggage eng header
  | add key value => Provider.addBaggage eng key value

def Addition.entries : Addition → List Entry
  | parse header => parsed header
  | add key value => [(key, value)]

/-- The entries that the calls add, in their order. -/
def added (additions : List Addition) : List Entry := additions.flatMap Addition.entries

/-- The attribute that an entry becomes. -/
def keyValue (e : Entry) : KeyValue := ⟨e.1, .string e.2⟩

/-- The attributes with this key. -/
def withKey (key : Bytes) (attributes : List KeyValue) : List KeyValue :=
  attributes.filter fun kv => kv.key = key

/-- For every key of the map the resource has exactly one keyValue, with the map's value. -/
def Mirrors (eng : Engine φ) (w : World φ) : Prop :=
  ∃ attributes baggage, Holds eng attributes baggage w ∧ ∀ key value,
    baggage.lookup key = some value → withKey key attributes = [keyValue (key, value)]

/-- The keys that every resource has. -/
def builtinKeys : List Bytes :=
  ["service.name", "net.host.ip", "net.host.name", "os.type", "process.pid",
    "telemetry.sdk.language"].map lit

/-- The keys named by the `resource_attributes` setting. -/
def configuredKeys (g : Globals) : List Bytes :=
  (Provider.configuredAttributes (c_str g.resource_attributes)).map KeyValue.key

theorem keys_resourceAttributes (eng : Engine φ) (g : Globals) (pid : Nat) :
    (Provider.resourceAttributes eng g pid).map KeyValue.key = builtinKeys ++ configuredKeys g := by
  rw [Provider.resourceAttributes, List.map_append]
  rfl

theorem withKey_eq_nil_iff {key : Bytes} {attributes : List KeyValue} :
    withKey key attributes = [] ↔ key ∉ attributes.map KeyValue.key := by
  simp [withKey]

theorem withKey_append (key : Bytes) (attributes : List KeyValue) (entries : List Entry) :
    withKey key (attributes ++ entries.map keyValue) =
      withKey key attributes ++ (entries.filter fun e => e.1 = key).map keyValue := by
  rw [withKey, List.filter_append, List.filter_map]
  rfl

theorem Holds.unique {attributes attributes' : List KeyValue} {baggage baggage' : List Entry}
    (h : Holds eng attributes baggage w) (h' : Holds eng attributes' baggage' w) :
    attributes = attributes' ∧ baggage = baggage' := by
  obtain ⟨p, r, hp, hresource, rfl, hcell⟩ := h
  obtain ⟨p', r', hp', hresource', rfl, hcell'⟩ := h'
  obtain rfl : p = p' := Option.some.inj (hp.symm.trans hp')
  obtain rfl : r = r' := Option.some.inj (hresource.symm.trans hresource')
  rw [hcell] at hcell'
  exact ⟨congrArg Resource.attributes (Option.some.inj hcell'), rfl⟩

theorem Holds.addAll {attributes : List KeyValue} {baggage : List Entry}
    (h : Holds eng attributes baggage w) (entries : List Entry) :
    ∃ w', (entries.forM fun e => Provider.addBaggage eng e.1 e.2) w = .ok ((), w') ∧
      Holds eng (attributes ++ entries.map keyValue) (assignAll entries baggage) w' := by
  induction entries generalizing w attributes baggage with
  | nil => exact ⟨w, rfl, by simpa [assignAll] using h⟩
  | cons e entries ih =>
    obtain ⟨v, hadd, hv⟩ := Provider.addBaggage_holds h e.1 e.2
    obtain ⟨w', hrest, hw'⟩ := ih hv
    refine ⟨w', by rw [stateful.forM_cons, bind_apply, hadd, ok_bind, hrest], ?_⟩
    rwa [List.append_assoc] at hw'

/-- What one call adds goes to the end of the resource and into the map. -/
theorem Holds.run {attributes : List KeyValue} {baggage : List Entry}
    (h : Holds eng attributes baggage w) (addition : Addition) :
    ∃ w', addition.run eng w = .ok ((), w') ∧
      Holds eng (attributes ++ addition.entries.map keyValue)
        (assignAll addition.entries baggage) w' := by
  cases addition with
  | parse header =>
    rw [Addition.run, Provider.parseBaggage_eq]
    exact h.addAll _
  | add key value => exact Provider.addBaggage_holds h key value

theorem Holds.runAll {attributes : List KeyValue} {baggage : List Entry}
    (h : Holds eng attributes baggage w) (additions : List Addition) :
    ∃ w', additions.forM (Addition.run eng) w = .ok ((), w') ∧
      Holds eng (attributes ++ (added additions).map keyValue)
        (assignAll (added additions) baggage) w' := by
  induction additions generalizing w attributes baggage with
  | nil => exact ⟨w, rfl, by simpa [assignAll, added] using h⟩
  | cons addition additions ih =>
    obtain ⟨v, hrun, hv⟩ := h.run addition
    obtain ⟨w', hrest, hw'⟩ := ih hv
    refine ⟨w', by rw [stateful.forM_cons, bind_apply, hrun, ok_bind, hrest], ?_⟩
    have hadded : added (addition :: additions) = addition.entries ++ added additions := rfl
    rw [hadded, List.map_append, ← List.append_assoc, assignAll, List.foldl_append]
    exact hw'

/-- The last value for every key is the only one, and no other attribute has the key, if and
only if no key is added twice or was there before. -/
theorem one_attribute_iff {attributes : List KeyValue} {entries : List Entry} :
    (∀ key value, (assignAll entries []).lookup key = some value →
      withKey key (attributes ++ entries.map keyValue) = [keyValue (key, value)]) ↔
    (entries.map Prod.fst).Nodup ∧ ∀ e ∈ entries, e.1 ∉ attributes.map KeyValue.key := by
  have hlookup (key : Bytes) : (assignAll entries []).lookup key = entries.reverse.lookup key := by
    rw [lookup_assignAll, List.lookup_nil, Option.or_none]
  constructor
  · intro hmirror
    have hone (e : Entry) (he : e ∈ entries) : withKey e.1 attributes = [] ∧
        (entries.filter fun e' => e'.1 = e.1).length ≤ 1 := by
      have hsome : (entries.reverse.lookup e.1).isSome := by
        by_contra hnone
        have habsent := List.lookup_eq_none_iff.mp (Option.not_isSome_iff_eq_none.mp hnone) e
          (List.mem_reverse.mpr he)
        simp at habsent
      obtain ⟨value, hvalue⟩ := Option.isSome_iff_exists.mp hsome
      have hlength := congrArg List.length (hmirror e.1 value ((hlookup e.1).trans hvalue))
      rw [withKey_append, List.length_append, List.length_map, List.length_singleton] at hlength
      have hpos : 0 < (entries.filter fun e' => e'.1 = e.1).length :=
        List.length_pos_of_mem (List.mem_filter.mpr ⟨he, by simp⟩)
      exact ⟨List.eq_nil_of_length_eq_zero (by omega), by omega⟩
    constructor
    · rw [List.nodup_iff_count_le_one]
      intro key
      by_cases hmem : key ∈ entries.map Prod.fst
      · obtain ⟨e, he, rfl⟩ := List.mem_map.mp hmem
        rw [← length_filter_key]
        exact (hone e he).2
      · rw [List.count_eq_zero_of_not_mem hmem]
        omega
    · intro e he
      exact withKey_eq_nil_iff.mp (hone e he).1
  · rintro ⟨hnodup, hnew⟩ key value hvalue
    rw [hlookup] at hvalue
    have hmem : (key, value) ∈ entries := List.mem_reverse.mp (mem_of_lookup_eq_some hvalue)
    rw [withKey_append, withKey_eq_nil_iff.mpr (hnew _ hmem), filter_key_of_nodup hnodup hmem]
    rfl

/-- A trace begins with the attributes of its resource and without baggage. -/
theorem createFirstSpan_holds {name : Bytes} {kind : SpanKind} {q : Nat}
    (hspent : ∃ resource, u.slots (u.key eng) = { resource := resource })
    (h : Provider.createFirstSpan eng name kind u = .ok (q, w)) :
    Holds eng (Provider.resourceAttributes eng u.globals u.pid) [] w := by
  obtain ⟨resource, hslot⟩ := hspent
  obtain ⟨v, p, hcreate, hp, rfl⟩ := Provider.createFirstSpan_ok h
  obtain ⟨rs, x, p', span, htracer, hp', hadded, -⟩ := Provider.createSpan_ok hcreate
  obtain rfl : p' = p := by
    rw [hadded.globals, hp'] at hp
    exact Option.some.inj hp
  obtain ⟨p₀, hp₀, ⟨hsome, -, -⟩ | ⟨-, -, rfl⟩⟩ := Provider.getTracer_ok htracer
  · rw [← World.slots_of_some hp₀, hslot] at hsome
    cases hsome
  · have hkey : v.key eng = u.key eng := World.key_congr hadded.ppid
    obtain rfl : p₀.set (u.key eng) { p₀.slots (u.key eng) with
        request := some u.memory.requests.next
        resourceSpan := some u.memory.resource_spans.next
        resource := some u.memory.resources.next } = p' := Option.some.inj hp'
    rw [World.slots_of_some hp₀] at hslot
    refine ⟨_, u.memory.resources.next, rfl, ?_, ?_, ?_⟩
    · simp [hkey]
    · simp [hkey, hslot]
    · simp [hadded.memory, World.withRequest]

end opentelemetry
