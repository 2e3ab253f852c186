import OpentelemetryExt.Provider.Sampling

open heap stateful

namespace opentelemetry

variable {φ : Type} {eng : Engine φ} {w w' : World φ}

/-- The fields of a header, cut at every dash. -/
def fields (header : Bytes) : List Bytes := header.splitOn 45

theorem explode_dash (header : Bytes) : explode (lit "-") header = fields header :=
  explode_singleton 45 header

/-- An id of `n` bytes in hexadecimal. -/
def IsId (n : Nat) (field : Bytes) : Prop := field.length = 2 * n ∧ ∀ c ∈ field, IsHexDigit c

instance (n : Nat) (field : Bytes) : Decidable (IsId n field) := inferInstanceAs (Decidable (_ ∧ _))

theorem IsId.decode {n : Nat} {field : Bytes} (h : IsId n field) (erange : Bool) :
    Hex.decode erange field = denoted field := Hex.decode_digits (by rw [h.1]; omega) h.2

theorem IsId.length_denoted {n : Nat} {field : Bytes} (h : IsId n field) :
    (denoted field).length = n := opentelemetry.length_denoted h.1

/-- The header names a trace and a parent: the second of four fields is a 16-byte id and
the third an 8-byte id. -/
def Names (header trace_id parent_span_id : Bytes) : Prop :=
  ∃ version trace parent flags, fields header = [version, trace, parent, flags] ∧
    IsId 16 trace ∧ IsId 8 parent ∧ trace_id = denoted trace ∧ parent_span_id = denoted parent

theorem HasFirst.withSpan {f : Nat} {s : Span} (h : HasFirst eng w f s) (g : Span → Span) :
    HasFirst eng (w.withSpan f g) f (g s) := by
  obtain ⟨p, hp, hfirst, hcell⟩ := h
  exact ⟨p, hp, hfirst, by simp [World.withSpan, hcell]⟩

theorem HasFirst.unique {f f' : Nat} {s s' : Span} (h : HasFirst eng w f s)
    (h' : HasFirst eng w f' s') : f = f' ∧ s = s' := by
  obtain ⟨p, hp, hfirst, hcell⟩ := h
  obtain ⟨p', hp', hfirst', hcell'⟩ := h'
  obtain rfl : p = p' := Option.some.inj (hp.symm.trans hp')
  obtain rfl : f = f' := Option.some.inj (hfirst.symm.trans hfirst')
  exact ⟨rfl, Option.some.inj (hcell.symm.trans hcell')⟩

theorem HasFirst.setSampled {f : Nat} {s : Span} (h : HasFirst eng w f s) (b : Bool) :
    ∃ w', Provider.setSampled eng b w = .ok ((), w') ∧ HasFirst eng w' f s ∧
      sampledFlag eng w' = b := by
  obtain ⟨p, hp, hfirst, hcell⟩ := h
  refine ⟨_, modifySlot_of_some _ hp, ⟨_, rfl, ?_, hcell⟩, ?_⟩
  · simp [hfirst]
  · simp [sampledFlag]

namespace Provider

section

variable {header version trace parent flags : Bytes} {f : Nat} {s : Span}
  (hfields : fields header = [version, trace, parent, flags]) (hfirst : HasFirst eng w f s)

include hfields in
theorem ne_nil_of_fields : header ≠ [] := by
  rintro rfl
  simp [fields] at hfields

include hfields hfirst in
/-- Four fields: the two copies decide how the parse goes on. -/
theorem parseTraceParent_four : parseTraceParent eng header w = (do
      let trace_id ← lift (copyBytes (Hex.decode w.erange trace) 16)
      modifySpan f fun s => { s with trace_id := trace_id }
      let parent_span_id ← lift (copyBytes (Hex.decode w.erange parent) 8)
      modifySpan f fun s => { s with parent_span_id := parent_span_id }
      setSampled eng (flags == lit "01") : M φ Unit) w := by
  simp only [parseTraceParent, ne_nil_of_fields hfields, ne_eq, not_false_eq_true, if_true,
    explode_dash, hfields, bind_apply, get_apply, ok_bind, hfirst.firstOneSpan, deref_some, lift_ok]

include hfields hfirst in
theorem parseTraceParent_trace_short (hshort : (Hex.decode w.erange trace).length < 16) :
    parseTraceParent eng header w = .error (.fault .outOfBounds) := by
  simp only [parseTraceParent_four hfields hfirst, copyBytes, if_neg (not_le.mpr hshort),
    bind_apply, lift_error, error_bind]

include hfields hfirst in
theorem parseTraceParent_parent_short (htrace : 16 ≤ (Hex.decode w.erange trace).length)
    (hshort : (Hex.decode w.erange parent).length < 8) :
    parseTraceParent eng header w = .error (.fault .outOfBounds) := by
  simp only [parseTraceParent_four hfields hfirst, copyBytes, if_pos htrace,
    if_neg (not_le.mpr hshort), bind_apply, lift_ok, ok_bind, lift_error, error_bind,
    modifySpan_of_some _ hfirst.choose_spec.2.2]

include hfields hfirst in
/-- When both decoded ids are long enough, the first span gets their first bytes. -/
theorem parseTraceParent_copies (htrace : 16 ≤ (Hex.decode w.erange trace).length)
    (hparent : 8 ≤ (Hex.decode w.erange parent).length) :
    ∃ w', parseTraceParent eng header w = .ok ((), w') ∧
      HasFirst eng w' f { s with
        trace_id := (Hex.decode w.erange trace).take 16
        parent_span_id := (Hex.decode w.erange parent).take 8 } ∧
      sampledFlag eng w' = (flags == lit "01") := by
  have hsecond := hfirst.withSpan fun s =>
    { s with trace_id := (Hex.decode w.erange trace).take 16 }
  have hthird := hsecond.withSpan fun s =>
    { s with parent_span_id := (Hex.decode w.erange parent).take 8 }
  obtain ⟨w', hsampled, hw', hflag⟩ := hthird.setSampled (flags == lit "01")
  refine ⟨w', ?_, hw', hflag⟩
  simp only [parseTraceParent_four hfields hfirst, copyBytes, if_pos htrace, if_pos hparent,
    bind_apply, lift_ok, ok_bind, modifySpan_of_some _ hfirst.choose_spec.2.2,
    modifySpan_of_some _ hsecond.choose_spec.2.2, hsampled]

end

/-- Any other number of fields leaves the state alone. -/
theorem parseTraceParent_other {header : Bytes} (hne : header ≠ [])
    (hfields : (fields header).length ≠ 4) : parseTraceParent eng header w = .ok ((), w) := by
  simp only [parseTraceParent, hne, ne_eq, not_false_eq_true, if_true, explode_dash]
  rcases hl : fields header with _ | ⟨_, _ | ⟨_, _ | ⟨_, _ | ⟨_, _ | ⟨_, _⟩⟩⟩⟩⟩
  case cons.cons.cons.cons.nil =>
    rw [hl] at hfields
    exact absurd rfl hfields
  all_goals rfl

theorem parseTraceParent_nil_hasFirst {f : Nat} {s : Span} (hfirst : HasFirst eng w f s) :
    parseTraceParent eng [] w ≠ .error (.fault .outOfBounds) ∧
      ∀ w', parseTraceParent eng [] w = .ok ((), w') → HasFirst eng w' f s := by
  obtain ⟨p, hp, -⟩ := id hfirst
  obtain ⟨u, hset, hu, -⟩ := hfirst.setSampled true
  rw [parseTraceParent_nil hp]
  split
  · rw [hset]
    exact ⟨by simp, by rintro w' ⟨⟩; exact hu⟩
  cases hrest : remainder p.counter w.globals.sample_ratio_based with
  | error e =>
    refine ⟨?_, by rintro w' ⟨⟩⟩
    rintro ⟨⟩
    unfold remainder at hrest
    split at hrest <;> [skip; split at hrest] <;> cases hrest
  | ok rest =>
    dsimp only
    split
    · rw [hset]
      exact ⟨by simp, by rintro w' ⟨⟩; exact hu⟩
    · exact ⟨by simp, by rintro w' ⟨⟩; exact hfirst⟩

/-- Whatever the header, a parse that returns leaves a first span with a 16-byte trace id. -/
theorem parseTraceParent_length {header : Bytes} {f : Nat} {s : Span}
    (hfirst : HasFirst eng w f s) (hlen : s.trace_id.length = 16)
    (h : parseTraceParent eng header w = .ok ((), w')) :
    ∃ s', HasFirst eng w' f s' ∧ s'.trace_id.length = 16 := by
  by_cases hfour : (fields header).length = 4
  · obtain ⟨version, trace, parent, flags, hfields⟩ := List.length_eq_four.mp hfour
    have htrace : 16 ≤ (Hex.decode w.erange trace).length := by
      by_contra hshort
      rw [parseTraceParent_trace_short hfields hfirst (not_le.mp hshort)] at h
      cases h
    have hparent : 8 ≤ (Hex.decode w.erange parent).length := by
      by_contra hshort
      rw [parseTraceParent_parent_short hfields hfirst htrace (not_le.mp hshort)] at h
      cases h
    obtain ⟨u, hparse, hu, -⟩ := parseTraceParent_copies hfields hfirst htrace hparent
    rw [h] at hparse
    cases hparse
    exact ⟨_, hu, by simpa using htrace⟩
  by_cases hne : header = []
  · subst hne
    exact ⟨s, (parseTraceParent_nil_hasFirst hfirst).2 w' h, hlen⟩
  · rw [parseTraceParent_other hne hfour] at h
    cases h
    exact ⟨s, hfirst, hlen⟩

/-- The parse reads nothing outside the decoded ids. When it returns, the ids of the first
span are those that the header names, or the ones they were. -/
def AllOrNothing (eng : Engine φ) (w : World φ) (header : Bytes) : Prop :=
  parseTraceParent eng header w ≠ .error (.fault .outOfBounds) ∧
    ∀ f s w', HasFirst eng w f s → parseTraceParent eng header w = .ok ((), w') →
      ∃ s', HasFirst eng w' f s' ∧ (Names header s'.trace_id s'.parent_span_id ∨
        s'.trace_id = s.trace_id ∧ s'.parent_span_id = s.parent_span_id)

/-- Headers whose ids can be trusted: with four fields, the second is a 16-byte id and the
third an 8-byte id. -/
def Trusted (header : Bytes) : Prop :=
  ∀ version trace parent flags, fields header = [version, trace, parent, flags] →
    IsId 16 trace ∧ IsId 8 parent

theorem allOrNothing_of_trusted {f : Nat} {s : Span} {header : Bytes}
    (hfirst : HasFirst eng w f s) (h : Trusted header) : AllOrNothing eng w header := by
  by_cases hlen : (fields header).length = 4
  · obtain ⟨version, trace, parent, flags, hfields⟩ := List.length_eq_four.mp hlen
    obtain ⟨htrace, hparent⟩ := h _ _ _ _ hfields
    have htake := htrace.decode w.erange
    have hptake := hparent.decode w.erange
    obtain ⟨u, hparse, hu, -⟩ := parseTraceParent_copies hfields hfirst
      (by rw [htake, htrace.length_denoted]) (by rw [hptake, hparent.length_denoted])
    refine ⟨by simp [hparse], fun f' s' w' hf' hw' => ?_⟩
    obtain ⟨rfl, rfl⟩ := hfirst.unique hf'
    rw [hparse] at hw'
    cases hw'
    refine ⟨_, hu, .inl ⟨version, trace, parent, flags, hfields, htrace, hparent, ?_, ?_⟩⟩
    · simp [htake, ← htrace.length_denoted]
    · simp [hptake, ← hparent.length_denoted]
  · by_cases hne : header = []
    · subst hne
      obtain ⟨hsafe, hkept⟩ := parseTraceParent_nil_hasFirst hfirst
      refine ⟨hsafe, fun f' s' w' hf' hw' => ?_⟩
      obtain ⟨rfl, rfl⟩ := hfirst.unique hf'
      exact ⟨s, hkept w' hw', .inr ⟨rfl, rfl⟩⟩
    · rw [AllOrNothing, parseTraceParent_other hne hlen]
      refine ⟨by simp, fun f' s' w' hf' hw' => ?_⟩
      cases hw'
      exact ⟨s', hf', .inr ⟨rfl, rfl⟩⟩

/-- A span without a parent keeps its ids under no header that cannot be trusted. -/
theorem trusted_of_allOrNothing {f : Nat} {s : Span} {header : Bytes}
    (hfirst : HasFirst eng w f s) (hparent : s.parent_span_id = [])
    (h : AllOrNothing eng w header) : Trusted header := by
  intro version trace parent flags hfields
  obtain ⟨hsafe, hids⟩ := h
  have htrace : 16 ≤ (Hex.decode w.erange trace).length := by
    by_contra hshort
    exact hsafe (parseTraceParent_trace_short hfields hfirst (not_le.mp hshort))
  have hlen : 8 ≤ (Hex.decode w.erange parent).length := by
    by_contra hshort
    exact hsafe (parseTraceParent_parent_short hfields hfirst htrace (not_le.mp hshort))
  obtain ⟨w', hparse, hw', -⟩ := parseTraceParent_copies hfields hfirst htrace hlen
  obtain ⟨s', hs', hnames | ⟨-, hsame⟩⟩ := hids f s w' hfirst hparse
  · obtain ⟨_, _, _, _, hfields', htrace', hparent', -⟩ := hnames
    rw [hfields] at hfields'
    cases hfields'
    exact ⟨htrace', hparent'⟩
  · obtain ⟨-, rfl⟩ := hw'.unique hs'
    have hcopied : ((Hex.decode w.erange parent).take 8).length = 0 := by
      rw [show (Hex.decode w.erange parent).take 8 = [] from hsame.trans hparent]
      rfl
    rw [List.length_take] at hcopied
    omega

/-- After `createFirstSpan` the parse treats the ids safely and all at once if and only if
the header can be trusted. -/
theorem all_or_nothing_iff {u : World φ} {name header : Bytes} {kind : SpanKind} {q : Nat}
    (h : createFirstSpan eng name kind u = .ok (q, w)) :
    AllOrNothing eng w header ↔ Trusted header := by
  obtain ⟨s, hfirst, hparent, -⟩ := createFirstSpan_hasFirst h
  exact ⟨trusted_of_allOrNothing hfirst hparent, allOrNothing_of_trusted hfirst⟩

/-- A fresh process with a new provider. -/
def providerWorld : World Unit :=
  { World.fresh () with globals := { provider := some {} } }

/-- A header as it is specified. -/
def sampledHeader : Bytes := lit "00-0af7651916cd43dd8448eb211c80319c-b7ad6b7169203331-01"

theorem all_or_nothing_sampled : ∃ q w,
    createFirstSpan (.bare false) [] .server providerWorld = .ok (q, w) ∧
      (AllOrNothing (.bare false) w sampledHeader ↔ Trusted sampledHeader) :=
  ⟨_, _, rfl, all_or_nothing_iff (u := providerWorld) (q := 0) rfl⟩

/-- Sixteen bytes are copied out of a vector of one. -/
theorem not_all_or_nothing_short : ∃ q w,
    createFirstSpan (.bare false) [] .server providerWorld = .ok (q, w) ∧
      parseTraceParent (.bare false) (lit "00-12-34-01") w = .error (.fault .outOfBounds) ∧
        ¬ AllOrNothing (.bare false) w (lit "00-12-34-01") := by
  refine ⟨0, _, rfl, ?_, ?_⟩
  · rfl
  · rintro ⟨hsafe, -⟩
    exact hsafe rfl

end Provider

end opentelemetry
