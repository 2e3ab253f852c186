import OpentelemetryExt.Provider.Baggage

open assoc heap stateful

namespace opentelemetry

variable {φ ψ : Type} {eng : Engine φ} {w w' : World φ}

/-- What a receiver knows of these entries when they are sent in this order. -/
def received (entries : List Entry) : List Entry := assignAll (parsed (joined entries)) []

/-- The value that an entry, read for itself, gives to a key. -/
def reads (key : Bytes) (e : Entry) : Option Bytes := (parsed (text e)).reverse.lookup key

/-- Of the entries that give a key a value, the last one counts. -/
theorem lookup_received (entries : List Entry) (key : Bytes) :
    (received entries).lookup key = entries.reverse.findSome? (reads key) := by
  rw [received, lookup_assignAll, List.lookup_nil, Option.or_none, parsed_joined,
    lookup_reverse_flatMap]
  rfl

/-- A service takes the baggage of a header into an empty map. -/
def Receives (eng : Engine φ) (header : Bytes) (w' : World φ) : Prop :=
  ∃ w, Ready eng w ∧ w.baggage eng = [] ∧ Provider.parseBaggage eng header w = .ok ((), w')

theorem Receives.baggage {header : Bytes} (h : Receives eng header w) :
    w.baggage eng = assignAll (parsed header) [] := by
  obtain ⟨w₀, -, hempty, hparse⟩ := h
  rw [Provider.parseBaggage_ok hparse, hempty]

theorem Receives.ready {header : Bytes} (h : Receives eng header w) : Ready eng w := by
  obtain ⟨w₀, hready, -, hparse⟩ := h
  obtain ⟨v, hparse', hv⟩ := Provider.parseBaggage_of_ready hready header
  rw [hparse] at hparse'
  cases hparse'
  exact hv

theorem Receives.nodup {header : Bytes} (h : Receives eng header w) :
    ((w.baggage eng).map Prod.fst).Nodup := by
  rw [h.baggage]
  exact nodup_assignAll List.nodup_nil

/-- What was received is written without a separator in it. -/
theorem Receives.clean {header : Bytes} (h : Receives eng header w) :
    ∀ e ∈ w.baggage eng, Clean e.1 ∧ Clean e.2 := by
  intro e he
  have hlookup : (w.baggage eng).lookup e.1 = some e.2 := lookup_eq_some_of_mem h.nodup he
  rw [h.baggage, lookup_assignAll, List.lookup_nil, Option.or_none] at hlookup
  have hmem : e ∈ (parsed header).reverse := mem_of_lookup_eq_some hlookup
  exact clean_of_mem_parsed (List.mem_reverse.mp hmem)

/-- Entries without separators are read as they were written. -/
theorem parsed_joined_of_clean {entries : List Entry}
    (h : ∀ e ∈ entries, Clean e.1 ∧ Clean e.2) : parsed (joined entries) = entries := by
  rw [parsed_joined]
  have hall : ∀ e ∈ entries, parsed (text e) = [e] := by
    intro e he
    obtain ⟨⟨hkey, hkey'⟩, hvalue, hvalue'⟩ := h e he
    rw [parsed_text hkey hvalue, if_pos ⟨hkey', hvalue'⟩]
  rw [List.flatMap_congr hall, List.flatMap_singleton']

/-- One hop: the receiver has the map of the sender. -/
theorem Receives.hop {engψ : Engine ψ} {u : World ψ} {header forwarded : Bytes}
    (h : Receives eng header w) (hbaggage : w'.baggage eng = w.baggage eng)
    (hformat : Provider.formatBaggageHeader eng w' = .ok (forwarded, w'))
    (hreceives : Receives engψ forwarded u) (key : Bytes) :
    (u.baggage engψ).lookup key = (w.baggage eng).lookup key := by
  obtain ⟨order, hperm⟩ : ∃ order, (eng.iterate (w'.baggageMap eng)).val = order := ⟨_, rfl⟩
  have horder : order.Perm (w.baggage eng) := hperm ▸ hbaggage ▸ (eng.iterate _).property
  have hparsed : parsed forwarded = order := by
    rw [Provider.formatBaggageHeader_ok hformat, hperm]
    exact parsed_joined_of_clean fun e he => h.clean e (horder.mem_iff.mp he)
  rw [hreceives.baggage, hparsed, lookup_assignAll, List.lookup_nil, Option.or_none]
  exact lookup_perm ((List.reverse_perm order).trans horder) h.nodup key

/-- A chain of services, each with its own order of iteration: the first receives `header`, and
each of the others what the one before it forwards while it has the baggage that it received. -/
inductive Relay (header : Bytes) : Engine φ → World φ → Prop
  | first {eng : Engine φ} {w : World φ} : Receives eng header w → Relay header eng w
  | hop {eng eng' : Engine φ} {w u w' : World φ} {forwarded : Bytes} : Relay header eng w →
      u.baggage eng = w.baggage eng →
      Provider.formatBaggageHeader eng u = .ok (forwarded, u) →
      Receives eng' forwarded w' → Relay header eng' w'

theorem Relay.receives {header : Bytes} (h : Relay header eng w) :
    ∃ header', Receives eng header' w := by
  cases h with
  | first hfirst => exact ⟨_, hfirst⟩
  | hop _ _ _ hreceives => exact ⟨_, hreceives⟩

/-- A chain can go on: the next service gets a header and can take its baggage. -/
theorem Relay.goes_on {header : Bytes} {eng' : Engine φ} (h : Relay header eng w)
    (hready : Ready eng' w') (hempty : w'.baggage eng' = []) :
    ∃ forwarded u, Provider.formatBaggageHeader eng w = .ok (forwarded, w) ∧
      Provider.parseBaggage eng' forwarded w' = .ok ((), u) ∧ Relay header eng' u := by
  obtain ⟨header', hreceives⟩ := h.receives
  obtain ⟨p, r, a, hp, -⟩ := hreceives.ready
  obtain ⟨u, hparse, -⟩ := Provider.parseBaggage_of_ready hready
    (joined (eng.iterate (w.baggageMap eng)).val)
  have hformat := Provider.formatBaggageHeader_of_some eng hp
  exact ⟨_, u, hformat, hparse, .hop h rfl hformat ⟨w', hready, hempty, hparse⟩⟩

/-- Received baggage is relayed losslessly: whatever the header and the orders, every service in
the chain has the map of the first, and the chain can go on. -/
theorem baggage_relayed {header : Bytes} {eng' : Engine φ} (hfirst : Receives eng header w)
    (hrelay : Relay header eng' w') :
    (∀ key, (w'.baggage eng').lookup key = (w.baggage eng).lookup key) ∧
    ∀ (next : Engine φ) (v : World φ), Ready next v → v.baggage next = [] →
      ∃ forwarded u, Provider.formatBaggageHeader eng' w' = .ok (forwarded, w') ∧
        Provider.parseBaggage next forwarded v = .ok ((), u) ∧ Relay header next u := by
  refine ⟨fun key => ?_, fun next v => hrelay.goes_on⟩
  induction hrelay with
  | first hreceives => rw [hreceives.baggage, hfirst.baggage]
  | hop hbefore hbaggage hformat hreceives ih =>
    obtain ⟨header', hsender⟩ := hbefore.receives
    rw [hsender.hop hbaggage hformat hreceives key, ih]

/-- A process with a trace that has no baggage yet. -/
def newTrace : World Unit :=
  let w := World.fresh ()
  (w.withMemory { w.memory with resources := w.memory.resources.alloc ⟨[]⟩ }).withProvider
    (({} : Provider).set none { resource := some 0 })

theorem newTrace_ready : Ready (.bare false) newTrace := ⟨_, 0, ⟨[]⟩, rfl, rfl, rfl⟩

/-- A header with an empty key, an empty value, a repeated key and a malformed item. -/
theorem baggage_relayed_once : ∃ w w' : World Unit, Receives (.bare false) (lit "=,k=,a=1,a=2,x") w ∧
    Relay (lit "=,k=,a=1,a=2,x") (.bare false) w' ∧
      ∀ key, (w'.baggage (.bare false)).lookup key = (w.baggage (.bare false)).lookup key := by
  obtain ⟨w, hparse, -⟩ := Provider.parseBaggage_of_ready newTrace_ready (lit "=,k=,a=1,a=2,x")
  have hfirst : Receives (.bare false) _ w := ⟨newTrace, newTrace_ready, rfl, hparse⟩
  obtain ⟨-, hnext⟩ := baggage_relayed hfirst (.first hfirst)
  obtain ⟨forwarded, w', -, -, hrelay⟩ := hnext _ newTrace newTrace_ready rfl
  exact ⟨w, w', hfirst, hrelay, (baggage_relayed hfirst hrelay).1⟩

/-- The same engine with another order of iteration. -/
def Engine.listing (eng : Engine φ)
    (iterate : ∀ m : RobinMap, {order : List Entry // order.Perm m.entries}) : Engine φ :=
  { eng with iterate := iterate }

variable {engψ : Engine ψ} {d : World ψ} {key value : Bytes}

/-- Adding an entry changes what a receiver learns at most at the key of the entry, whatever the
order in which the maps are listed. -/
def Confined (eng : Engine φ) (engψ : Engine ψ) (key value : Bytes) (w : World φ) (d : World ψ) :
    Prop :=
  ∀ iterate, ∃ (w' : World φ) (before after : Bytes) (d₁ d₂ : World ψ),
    Provider.formatBaggageHeader (eng.listing iterate) w = .ok (before, w) ∧
    Provider.parseBaggage engψ before d = .ok ((), d₁) ∧
    Provider.addBaggage (eng.listing iterate) key value w = .ok ((), w') ∧
    Provider.formatBaggageHeader (eng.listing iterate) w' = .ok (after, w') ∧
    Provider.parseBaggage engψ after d = .ok ((), d₂) ∧
    ∀ other, other ≠ key → (d₂.baggage engψ).lookup other = (d₁.baggage engψ).lookup other

/-- For every other key the entries give one value or none, and the new entry, or what it
replaces, makes no difference to it. -/
def Agrees (entries : List Entry) (key value : Bytes) : Prop :=
  ∀ other, other ≠ key → ∃ o : Option Bytes,
    (∀ given, Gives (reads other) entries given ↔ o = some given) ∧
    ∀ given, Gives (reads other) (assign key value entries) given ↔ o = some given

/-- What the maps are to a receiver, for all orders of iteration. -/
theorem confined_iff_received (hw : Ready eng w) (hd : Ready engψ d)
    (hempty : d.baggage engψ = []) : Confined eng engψ key value w d ↔
      ∀ iterate : ∀ m : RobinMap, {order : List Entry // order.Perm m.entries},
        ∀ other, other ≠ key →
          (received (iterate ((w.baggageMap eng).assign key value)).val).lookup other =
            (received (iterate (w.baggageMap eng)).val).lookup other := by
  refine forall_congr' fun iterate => ?_
  have hw' : Ready (eng.listing iterate) w := hw
  obtain ⟨v, hadd, hv⟩ := Provider.addBaggage_of_ready hw' key value
  obtain ⟨p, -, -, hp, -⟩ := hw
  obtain ⟨q, -, -, hq, -⟩ := hv
  have hbefore := Provider.formatBaggageHeader_of_some (eng.listing iterate) hp
  have hafter := Provider.formatBaggageHeader_of_some (eng.listing iterate) hq
  rw [Provider.addBaggage_ok hadd] at hafter
  constructor
  · rintro ⟨w', before, after, d₁, d₂, hformat, hparse, hadd', hformat', hparse', hsame⟩
    rw [hbefore] at hformat
    cases hformat
    rw [hadd] at hadd'
    cases hadd'
    rw [hafter] at hformat'
    cases hformat'
    rw [Provider.parseBaggage_ok hparse, Provider.parseBaggage_ok hparse', hempty] at hsame
    exact hsame
  · intro hsame
    obtain ⟨d₁, hparse, -⟩ := Provider.parseBaggage_of_ready hd
      (joined ((eng.listing iterate).iterate (w.baggageMap (eng.listing iterate))).val)
    obtain ⟨d₂, hparse', -⟩ := Provider.parseBaggage_of_ready hd
      (joined ((eng.listing iterate).iterate
        ((w.baggageMap (eng.listing iterate)).assign key value)).val)
    refine ⟨v, _, _, d₁, d₂, hbefore, hparse, hadd, hafter, hparse', ?_⟩
    rw [Provider.parseBaggage_ok hparse, Provider.parseBaggage_ok hparse', hempty]
    exact hsame

/-- Two maps that differ may be listed in any two orders. -/
theorem received_agree_iff {m m' : RobinMap} (hne : m' ≠ m) (other : Bytes) :
    (∀ iterate : ∀ m : RobinMap, {order : List Entry // order.Perm m.entries},
      (received (iterate m').val).lookup other = (received (iterate m).val).lookup other) ↔
    ∃ o : Option Bytes, (∀ given, Gives (reads other) m.entries given ↔ o = some given) ∧
      ∀ given, Gives (reads other) m'.entries given ↔ o = some given := by
  rw [← last_eq_iff]
  simp only [lookup_received]
  constructor
  · intro h order order' hperm hperm'
    let iterate : ∀ m : RobinMap, {order : List Entry // order.Perm m.entries} := fun l =>
      if hl : l = m then ⟨order, hl ▸ hperm⟩
      else if hl' : l = m' then ⟨order', hl' ▸ hperm'⟩
      else ⟨l.entries, .refl _⟩
    have hbefore : (iterate m).val = order := by
      simp only [iterate, dif_pos]
    have hafter : (iterate m').val = order' := by
      simp only [iterate, dif_neg hne, dif_pos]
    have hsame := h iterate
    rwa [hbefore, hafter] at hsame
  · intro h iterate
    exact h _ _ (iterate m).property (iterate m').property

/-- Entries without commas speak for themselves only. -/
theorem gives_of_no_comma {entries : List Entry} (hcomma : ∀ e ∈ entries, 44 ∉ e.1 ∧ 44 ∉ e.2)
    (other given : Bytes) : Gives (reads other) entries given ↔
      (other, given) ∈ entries ∧ 61 ∉ other ∧ 61 ∉ given := by
  have hreads (e : Entry) (he : e ∈ entries) :
      reads other e = some given ↔ e = (other, given) ∧ 61 ∉ e.1 ∧ 61 ∉ e.2 := by
    obtain ⟨hkey, hvalue⟩ := hcomma e he
    rw [reads, parsed_text hkey hvalue]
    by_cases hclean : 61 ∉ e.1 ∧ 61 ∉ e.2
    · obtain ⟨k, v⟩ := e
      rw [if_pos hclean, List.reverse_singleton]
      by_cases hother : other = k
      · subst hother
        simpa using fun _ => hclean
      · rw [lookup_cons_ne v [] hother]
        simp [Ne.symm hother]
    · rw [if_neg hclean]
      simp [hclean]
  constructor
  · rintro ⟨e, he, hgives⟩
    obtain ⟨rfl, hclean⟩ := (hreads e he).mp hgives
    exact ⟨he, hclean⟩
  · rintro ⟨he, hclean⟩
    exact ⟨_, he, (hreads _ he).mpr ⟨rfl, hclean⟩⟩

theorem mem_assign_of_ne {entries : List Entry} (hnodup : (entries.map Prod.fst).Nodup)
    {other given : Bytes} (hother : other ≠ key) :
    (other, given) ∈ assign key value entries ↔ (other, given) ∈ entries := by
  have hmem {l : List Entry} (hl : (l.map Prod.fst).Nodup) :
      (other, given) ∈ l ↔ l.lookup other = some given :=
    ⟨lookup_eq_some_of_mem hl, mem_of_lookup_eq_some⟩
  rw [hmem (nodup_assign key value hnodup), hmem hnodup, lookup_assign_ne value entries hother]

/-- Without a comma anywhere in the map and the new entry, the other keys are safe. -/
theorem agrees_of_no_comma {entries : List Entry} (hnodup : (entries.map Prod.fst).Nodup)
    (hcomma : ∀ e ∈ entries, 44 ∉ e.1 ∧ 44 ∉ e.2) (hkey : 44 ∉ key) (hvalue : 44 ∉ value) :
    Agrees entries key value := by
  have hnodup' := nodup_assign key value hnodup
  have hcomma' : ∀ e ∈ assign key value entries, 44 ∉ e.1 ∧ 44 ∉ e.2 := by
    rintro ⟨k, v⟩ he
    by_cases hk : k = key
    · subst hk
      have hlookup := lookup_eq_some_of_mem hnodup' he
      rw [lookup_assign_self] at hlookup
      cases hlookup
      exact ⟨hkey, hvalue⟩
    · exact hcomma _ ((mem_assign_of_ne hnodup hk).mp he)
  intro other hother
  have hgives (given : Bytes) : Gives (reads other) entries given ↔
      (entries.lookup other).filter (fun v => 61 ∉ other ∧ 61 ∉ v) = some given := by
    rw [gives_of_no_comma hcomma, Option.filter_eq_some_iff, decide_eq_true_iff]
    exact and_congr_left fun _ => ⟨lookup_eq_some_of_mem hnodup, mem_of_lookup_eq_some⟩
  refine ⟨_, hgives, fun given => ?_⟩
  rw [gives_of_no_comma hcomma', mem_assign_of_ne hnodup hother, ← gives_of_no_comma hcomma, hgives]

/-- Adding an entry leaves the other keys alone exactly when it changes nothing, or the entries,
each read for itself, agree on every other key before and after; so it does wherever no comma is
in a key or a value. -/
theorem confined_iff (hw : Ready eng w) (hd : Ready engψ d) (hempty : d.baggage engψ = []) :
    (Confined eng engψ key value w d ↔ assign key value (w.baggage eng) = w.baggage eng ∨
      Agrees (w.baggage eng) key value) ∧
    (((w.baggage eng).map Prod.fst).Nodup → (∀ e ∈ w.baggage eng, 44 ∉ e.1 ∧ 44 ∉ e.2) →
      44 ∉ key → 44 ∉ value → Confined eng engψ key value w d) := by
  have hiff : Confined eng engψ key value w d ↔
      assign key value (w.baggage eng) = w.baggage eng ∨ Agrees (w.baggage eng) key value := by
    rw [confined_iff_received hw hd hempty]
    by_cases hsame : assign key value (w.baggage eng) = w.baggage eng
    · refine iff_of_true (fun iterate other _ => ?_) (.inl hsame)
      rw [Table.assign_eq_self hsame]
    · have hne : (w.baggageMap eng).assign key value ≠ w.baggageMap eng :=
        fun heq => hsame (congrArg Table.entries heq)
      rw [or_iff_right hsame]
      constructor
      · intro h other hother
        exact (received_agree_iff hne other).mp fun iterate => h iterate other hother
      · intro h iterate other hother
        exact (received_agree_iff hne other).mpr (h other hother) iterate
  exact ⟨hiff, fun hnodup hcomma hkey hvalue =>
    hiff.mpr (.inr (agrees_of_no_comma hnodup hcomma hkey hvalue))⟩

/-- The same with an entry in its baggage. -/
def loadedTrace : World Unit := newTrace.withProvider
  (({} : Provider).set none { resource := some 0, baggage := { entries := [(lit "c", lit "3")] } })

theorem loadedTrace_ready : Ready (.bare false) loadedTrace := ⟨_, 0, ⟨[]⟩, rfl, rfl, rfl⟩

theorem confined_plain :
    Confined (.bare false) (.bare false) (lit "a") (lit "1") loadedTrace newTrace :=
  (confined_iff loadedTrace_ready newTrace_ready rfl).2 (List.nodup_singleton _)
    (List.forall_mem_singleton.mpr ⟨by decide, by decide⟩) (by decide) (by decide)

/-- A value with a comma in it forges an entry. -/
theorem not_confined_comma :
    ¬ Confined (.bare false) (.bare false) (lit "a") (lit "1,b=2") newTrace newTrace := by
  intro h
  rw [confined_iff_received newTrace_ready newTrace_ready rfl] at h
  have hforged := h (fun m => ⟨m.entries, .refl _⟩) (lit "b") (by decide)
  revert hforged
  decide

end opentelemetry
