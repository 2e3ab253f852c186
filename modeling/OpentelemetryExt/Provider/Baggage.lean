import OpentelemetryExt.Session
import OpentelemetryExt.Provider.Steps
import OpentelemetryExt.Lib.Delimited

open assoc delimited heap stateful

namespace opentelemetry

variable {φ : Type} {eng : Engine φ} {w w' : World φ}

/-- An entry of a baggage map. -/
abbrev Entry := Bytes × Bytes

/-- What the parser makes of an item: an entry if there is exactly one `=` in it. -/
def pair (item : Bytes) : Option Entry :=
  match item.splitOn 61 with
  | [key, value] => some (key, value)
  | _ => none

/-- The entries of a header, in their order. -/
def parsed (header : Bytes) : List Entry :=
  if header = [] then [] else (header.splitOn 44).filterMap pair

/-- The item that an entry is written as. -/
def text (e : Entry) : Bytes := e.1 ++ lit "=" ++ e.2

/-- The header for the entries in this order. -/
def joined (entries : List Entry) : Bytes := (lit ",").intercalate (entries.map text)

/-- A string in which nothing is cut. -/
def Clean (s : Bytes) : Prop := 44 ∉ s ∧ 61 ∉ s

theorem text_ne_nil (e : Entry) : text e ≠ [] := by
  simp [text, lit]

theorem joined_ne_nil {entries : List Entry} (h : entries ≠ []) : joined entries ≠ [] := by
  obtain ⟨e, rest, rfl⟩ := List.exists_cons_of_ne_nil h
  cases rest with
  | nil => simpa [joined, List.intercalate] using text_ne_nil e
  | cons e' rest => simp [joined, List.intercalate, text_ne_nil]

/-- A header is read entry by entry, each for itself. -/
theorem parsed_joined (entries : List Entry) :
    parsed (joined entries) = entries.flatMap fun e => parsed (text e) := by
  by_cases hnil : entries = []
  · subst hnil
    rfl
  · have hsplit : (joined entries).splitOn 44 =
        (entries.map text).flatMap fun item => item.splitOn 44 :=
      splitOn_intercalate_flatMap (by simpa using hnil)
    rw [parsed, if_neg (joined_ne_nil hnil), hsplit, List.filterMap_flatMap, List.flatMap_map]
    apply List.flatMap_congr
    intro e _
    rw [parsed, if_neg (text_ne_nil e)]

theorem pair_eq_some {item : Bytes} {e : Entry} (h : pair item = some e) :
    item.splitOn 61 = [e.1, e.2] := by
  unfold pair at h
  split at h
  · cases h
    assumption
  · cases h

/-- What is read from a header can be written without a separator in it. -/
theorem clean_of_mem_parsed {header : Bytes} {e : Entry} (h : e ∈ parsed header) :
    Clean e.1 ∧ Clean e.2 := by
  unfold parsed at h
  split at h
  · cases h
  · obtain ⟨item, hitem, hpair⟩ := List.mem_filterMap.mp h
    have hcomma := (mem_splitOn hitem).1
    have hkv := pair_eq_some hpair
    have hkeymem : e.1 ∈ item.splitOn 61 := by simp [hkv]
    have hvaluemem : e.2 ∈ item.splitOn 61 := by simp [hkv]
    obtain ⟨hkey, hinkey⟩ := mem_splitOn hkeymem
    obtain ⟨hvalue, hinvalue⟩ := mem_splitOn hvaluemem
    exact ⟨⟨fun h => hcomma (hinkey _ h), hkey⟩, ⟨fun h => hcomma (hinvalue _ h), hvalue⟩⟩

/-- An item without a comma is read as its own entry or not at all. -/
theorem parsed_text {e : Entry} (hkey : 44 ∉ e.1) (hvalue : 44 ∉ e.2) :
    parsed (text e) = if 61 ∉ e.1 ∧ 61 ∉ e.2 then [e] else [] := by
  have hcomma : 44 ∉ text e := by
    have : 44 ∉ lit "=" := by decide
    simp [text, hkey, hvalue, this]
  rw [parsed, if_neg (text_ne_nil e), List.splitOn_eq_singleton hcomma]
  have hsplit : (text e).splitOn 61 = e.1.splitOn 61 ++ e.2.splitOn 61 := by
    have htext : text e = e.1 ++ 61 :: e.2 := by simp [text, lit]
    rw [htext, List.splitOn_append_cons_self]
  by_cases hclean : 61 ∉ e.1 ∧ 61 ∉ e.2
  · rw [if_pos hclean]
    have hpair : pair (text e) = some e := by
      rw [pair, hsplit, List.splitOn_eq_singleton hclean.1, List.splitOn_eq_singleton hclean.2]
      rfl
    rw [List.filterMap_cons_some hpair, List.filterMap_nil]
  · rw [if_neg hclean]
    have hpair : pair (text e) = none := by
      by_contra hne
      obtain ⟨e', he'⟩ := Option.ne_none_iff_exists'.mp hne
      have hkv := pair_eq_some he'
      rw [hsplit] at hkv
      obtain ⟨k, ks, hks⟩ := List.exists_cons_of_ne_nil (List.splitOn_ne_nil 61 e.1)
      obtain ⟨v, vs, hvs⟩ := List.exists_cons_of_ne_nil (List.splitOn_ne_nil 61 e.2)
      have hlength : ks.length + vs.length = 0 := by
        have := congrArg List.length hkv
        simp only [hks, hvs, List.length_append, List.length_cons, List.length_nil] at this
        omega
      have hks' : ks = [] := List.eq_nil_of_length_eq_zero (by omega)
      have hvs' : vs = [] := List.eq_nil_of_length_eq_zero (by omega)
      have hone {s piece : Bytes} (h : s.splitOn 61 = [piece]) : 61 ∉ s := by
        have hjoin : [(61 : UInt8)].intercalate (s.splitOn 61) = s := List.intercalate_splitOn 61
        rw [h] at hjoin
        have hpiece : piece = s := by simpa [List.intercalate] using hjoin
        rw [← hpiece]
        exact (mem_splitOn (by rw [h]; simp)).1
      exact hclean ⟨hone (hks' ▸ hks), hone (hvs' ▸ hvs)⟩
    rw [List.filterMap_cons_none hpair, List.filterMap_nil]

/-- The map that keeps the baggage of the current trace. -/
def World.baggageMap (eng : Engine φ) (w : World φ) : RobinMap := (w.slots (w.key eng)).baggage

/-- The baggage of the current trace. -/
def World.baggage (eng : Engine φ) (w : World φ) : List Entry := (w.baggageMap eng).entries

/-- The trace has a resource, as it has from its first span on. -/
def Ready (eng : Engine φ) (w : World φ) : Prop :=
  ∃ p r a, w.globals.provider = some p ∧ (p.slots (w.key eng)).resource = some r ∧
    w.memory.resources.cell r = some a

/-- The trace has a resource with these attributes, and this baggage. -/
def Holds (eng : Engine φ) (attributes : List KeyValue) (baggage : List Entry) (w : World φ) :
    Prop :=
  ∃ p r, w.globals.provider = some p ∧ (p.slots (w.key eng)).resource = some r ∧
    (p.slots (w.key eng)).baggage.entries = baggage ∧ w.memory.resources.cell r = some ⟨attributes⟩

theorem ready_iff_holds : Ready eng w ↔ ∃ attributes baggage, Holds eng attributes baggage w := by
  constructor
  · rintro ⟨p, r, ⟨attributes⟩, hp, hresource, hcell⟩
    exact ⟨attributes, _, p, r, hp, hresource, rfl, hcell⟩
  · rintro ⟨attributes, baggage, p, r, hp, hresource, -, hcell⟩
    exact ⟨p, r, _, hp, hresource, hcell⟩

theorem World.baggageMap_of_some {p : Provider} (h : w.globals.provider = some p) :
    w.baggageMap eng = (p.slots (w.key eng)).baggage := by
  rw [World.baggageMap, World.slots_of_some h]

@[simp] theorem World.baggageMap_withMemory (w : World φ) (m : Memory) :
    (w.withMemory m).baggageMap eng = w.baggageMap eng := rfl

@[simp] theorem World.baggageMap_withProvider (w : World φ) (p : Provider) :
    (w.withProvider p).baggageMap eng = (p.slots (w.key eng)).baggage := rfl

namespace Provider

theorem addBaggage_ok {key value : Bytes} (h : addBaggage eng key value w = .ok ((), w')) :
    w'.baggageMap eng = (w.baggageMap eng).assign key value := by
  obtain ⟨⟨⟩, v, hassign, hresource⟩ := bind_ok_iff.mp h
  obtain ⟨p, hp, rfl⟩ := modifySlot_ends (.of_ok hassign)
  obtain ⟨r, u, hget, hderef⟩ := bind_ok_iff.mp hresource
  obtain rfl := Op.reads_getResource (.of_ok hget)
  obtain ⟨q, u, hq, hadd⟩ := bind_ok_iff.mp hderef
  obtain ⟨-, rfl⟩ := lift_ok_iff.mp hq
  obtain ⟨u, u', hread, hload⟩ := bind_ok_iff.mp hadd
  cases hread
  obtain ⟨a, u, hcell, hwrite⟩ := bind_ok_iff.mp hload
  obtain ⟨-, rfl⟩ := lift_ok_iff.mp hcell
  cases hwrite
  simp [World.baggageMap_of_some hp]

/-- The entry goes into the map and, at the end of it, into the resource. -/
theorem addBaggage_holds {attributes : List KeyValue} {baggage : List Entry}
    (h : Holds eng attributes baggage w) (key value : Bytes) :
    ∃ w', addBaggage eng key value w = .ok ((), w') ∧
      Holds eng (attributes ++ [⟨key, .string value⟩]) (assign key value baggage) w' := by
  obtain ⟨p, r, hp, hresource, rfl, hcell⟩ := h
  let q := p.set (w.key eng) { p.slots (w.key eng) with
    baggage := (p.slots (w.key eng)).baggage.assign key value }
  have hassign : modifySlot eng (fun s => { s with baggage := s.baggage.assign key value }) w =
      .ok ((), w.withProvider q) := modifySlot_of_some _ hp
  have hget : getResource eng (w.withProvider q) = .ok (some r, w.withProvider q) := by
    simp only [getResource, bind_apply, slot_of_some (World.provider_withProvider w q), ok_bind,
      pure_apply, World.key_withProvider]
    simp [q, hresource]
  have hload : load (w.withProvider q).memory.resources r = .ok ⟨attributes⟩ :=
    load_eq_ok_iff.mpr hcell
  let m : Memory := { w.memory with resources := w.memory.resources.modify r fun a =>
    { a with attributes := a.attributes ++ [⟨key, .string value⟩] } }
  have hadd : addResourceAttribute r ⟨key, .string value⟩ (w.withProvider q) =
      .ok ((), (w.withProvider q).withMemory m) := by
    simp only [addResourceAttribute, bind_apply, get_apply, ok_bind, hload, lift_ok]
    rfl
  refine ⟨(w.withProvider q).withMemory m, ?_, q, r, rfl, ?_, ?_, ?_⟩
  · simp only [addBaggage, bind_apply, hassign, ok_bind, hget, deref_some, lift_ok, hadd]
  · simp [q, hresource]
  · simp [q]
  · simp [m, hcell]

theorem addBaggage_of_ready (h : Ready eng w) (key value : Bytes) :
    ∃ w', addBaggage eng key value w = .ok ((), w') ∧ Ready eng w' := by
  obtain ⟨attributes, baggage, hholds⟩ := ready_iff_holds.mp h
  obtain ⟨w', hadd, hw'⟩ := addBaggage_holds hholds key value
  exact ⟨w', hadd, ready_iff_holds.mpr ⟨_, _, hw'⟩⟩

/-- The parse adds the entries one after the other. -/
theorem parseBaggage_eq (header : Bytes) :
    parseBaggage eng header = (parsed header).forM fun e => addBaggage eng e.1 e.2 := by
  by_cases hnil : header = []
  · subst hnil
    rfl
  · have hitems : explode (lit ",") header = header.splitOn 44 := explode_singleton 44 header
    rw [parseBaggage, if_pos hnil, hitems, parsed, if_neg hnil, forM_filterMap]
    refine congrArg (List.forM (header.splitOn 44)) (funext fun item => ?_)
    have hparts : explode (lit "=") item = item.splitOn 61 := explode_singleton 61 item
    rw [hparts, pair]
    rcases item.splitOn 61 with _ | ⟨key, _ | ⟨value, _ | ⟨_, _⟩⟩⟩ <;> rfl

theorem parseBaggage_ok {header : Bytes} (h : parseBaggage eng header w = .ok ((), w')) :
    w'.baggage eng = assignAll (parsed header) (w.baggage eng) := by
  rw [parseBaggage_eq] at h
  generalize parsed header = entries at h
  induction entries generalizing w with
  | nil =>
    cases h
    rfl
  | cons e entries ih =>
    rw [stateful.forM_cons] at h
    obtain ⟨⟨⟩, v, hadd, hrest⟩ := bind_ok_iff.mp h
    rw [ih hrest, World.baggage, addBaggage_ok hadd]
    rfl

theorem parseBaggage_of_ready (h : Ready eng w) (header : Bytes) :
    ∃ w', parseBaggage eng header w = .ok ((), w') ∧ Ready eng w' := by
  rw [parseBaggage_eq]
  generalize parsed header = entries
  induction entries generalizing w with
  | nil => exact ⟨w, rfl, h⟩
  | cons e entries ih =>
    obtain ⟨v, hadd, hv⟩ := addBaggage_of_ready h e.1 e.2
    obtain ⟨w', hrest, hw'⟩ := ih hv
    exact ⟨w', by rw [stateful.forM_cons, bind_apply, hadd, ok_bind, hrest], hw'⟩

theorem formatBaggageHeader_of_some (eng : Engine φ) {p : Provider} (hp : w.globals.provider = some p) :
    formatBaggageHeader eng w = .ok (joined (eng.iterate (w.baggageMap eng)).val, w) := by
  rw [World.baggageMap_of_some hp]
  simp only [formatBaggageHeader, bind_apply, slot_of_some hp, ok_bind, pure_apply]
  rfl

theorem formatBaggageHeader_ok {header : Bytes} (h : formatBaggageHeader eng w = .ok (header, w')) :
    header = joined (eng.iterate (w.baggageMap eng)).val := by
  obtain ⟨s, v, hslot, -⟩ := bind_ok_iff.mp h
  obtain ⟨p, hp, -, -⟩ := slot_ok hslot
  rw [formatBaggageHeader_of_some eng hp] at h
  cases h
  rfl

end Provider

end opentelemetry
