import OpentelemetryExt.Provider.Bodies
import OpentelemetryExt.Provider.Steps
import OpentelemetryExt.Lib.Relational

open heap stateful relational

namespace opentelemetry

namespace PidMap

variable {V : Type} {m : PidMap V} {ppid k : Nat} {v d : V}

@[simp] theorem sub_insert_self : (m.insert ppid v).sub ppid d = v := by
  simp [sub, insert]

theorem sub_insert_ne (h : k ≠ ppid) : (m.insert ppid v).sub k d = m.sub k d := by
  simp [sub, insert, h]

@[simp] theorem sub_erase_self : (m.erase ppid).sub ppid d = d := by
  simp [sub, erase]

theorem sub_erase_ne (h : k ≠ ppid) : (m.erase ppid).sub k d = m.sub k d := by
  simp [sub, erase, h]

/-- What is made on the way has the value that a missing entry stands for. -/
@[simp] theorem sub_touch : (m.touch ppid d).sub k d = m.sub k d := by
  by_cases h : k = ppid
  · subst h
    exact sub_insert_self
  · exact sub_insert_ne h

theorem sub_of_none (h : m ppid = none) : m.sub ppid d = d := by
  rw [sub, h, Option.getD_none]

theorem sub_of_not_isSome (h : ¬ (m ppid).isSome) : m.sub ppid d = d :=
  sub_of_none (Option.not_isSome_iff_eq_none.mp h)

end PidMap

namespace Members

/-- The slot under each key. -/
def slots (m : Members) : Option Nat → Slot
  | none =>
    { request := m.request, resourceSpan := m.resourceSpan, resource := m.resource
      firstSpan := m.firstSpan, is_sampled := m.is_sampled
      redisException := m.redisException, baggage := m.baggage }
  | some ppid =>
    { request := m.requests.sub ppid none, resourceSpan := m.resourceSpans.sub ppid none
      resource := m.resources.sub ppid none, firstSpan := m.firstSpans.sub ppid none
      is_sampled := m.sampled_map.sub ppid false
      redisException := m.redisExceptions.sub ppid [], baggage := m.baggage_map.sub ppid {} }

def provider (m : Members) : Provider := ⟨m.counter, m.slots⟩

/-- A request has its entry, and there is no null pointer among the requests of the CLI. -/
structure Sound (m : Members) : Prop where
  entry (key : Option Nat) : (m.slots key).request.isSome → (m.slots key).resourceSpan.isSome
  request (ppid : Nat) : (m.requests ppid).isSome → (m.slots (some ppid)).request.isSome

/-- One slot is changed, and nothing else. -/
structure Moves (key : Option Nat) (g : Slot → Slot) (m m' : Members) : Prop where
  sound : m'.Sound
  provider : m'.provider = m.provider.set key (g (m.slots key))

/-- Nothing is different but for entries that mean what their absence does. -/
structure Touched (m m' : Members) : Prop where
  slots : m'.slots = m.slots
  requests : m'.requests = m.requests
  counter : m'.counter = m.counter

theorem Touched.refl (m : Members) : Touched m m := ⟨rfl, rfl, rfl⟩

theorem Touched.sound {m m' : Members} (h : Touched m m') (hm : m.Sound) : m'.Sound where
  entry key := by
    rw [h.slots]
    exact hm.entry key
  request ppid := by
    rw [h.slots, h.requests]
    exact hm.request ppid

theorem Touched.provider {m m' : Members} (h : Touched m m') : m'.provider = m.provider := by
  rw [Members.provider, Members.provider, h.slots, h.counter]

theorem Touched.resources (m : Members) (ppid : Nat) :
    Touched m { m with resources := m.resources.touch ppid none } := by
  refine ⟨funext fun key => ?_, rfl, rfl⟩
  cases key <;> simp [Members.slots]

theorem Touched.resourceSpans (m : Members) (ppid : Nat) :
    Touched m { m with resourceSpans := m.resourceSpans.touch ppid none } := by
  refine ⟨funext fun key => ?_, rfl, rfl⟩
  cases key <;> simp [Members.slots]

theorem Touched.baggage_map (m : Members) (ppid : Nat) :
    Touched m { m with baggage_map := m.baggage_map.touch ppid {} } := by
  refine ⟨funext fun key => ?_, rfl, rfl⟩
  cases key <;> simp [Members.slots]

theorem Sound.isSome_iff {m : Members} (h : m.Sound) (ppid : Nat) :
    (m.requests ppid).isSome ↔ (m.slots (some ppid)).request.isSome := by
  refine ⟨h.request ppid, fun hsome => ?_⟩
  by_contra hnone
  rw [slots, PidMap.sub_of_not_isSome hnone] at hsome
  cases hsome

/-- A change of the fields. -/
theorem Moves.field {g : Slot → Slot} {m m' : Members} (hm : m.Sound)
    (hself : m'.slots none = g (m.slots none))
    (hmaps : ∀ ppid, m'.slots (some ppid) = m.slots (some ppid))
    (hrequests : m'.requests = m.requests) (hcounter : m'.counter = m.counter)
    (hentry : (g (m.slots none)).request.isSome → (g (m.slots none)).resourceSpan.isSome) :
    Moves none g m m' where
  sound := by
    refine ⟨fun key => ?_, fun ppid => ?_⟩
    · cases key with
      | none => rwa [hself]
      | some ppid =>
        rw [hmaps]
        exact hm.entry _
    · rw [hrequests, hmaps]
      exact hm.request ppid
  provider := by
    rw [Members.provider, Members.provider, hcounter, Provider.set, Provider.mk.injEq]
    refine ⟨rfl, funext fun key => ?_⟩
    cases key with
    | none => rw [Function.update_self, hself]
    | some ppid => rw [Function.update_of_ne (Option.some_ne_none ppid), hmaps]

/-- A change of the entries of a pid. -/
theorem Moves.entries {g : Slot → Slot} {m m' : Members} {ppid : Nat} (hm : m.Sound)
    (hself : m'.slots (some ppid) = g (m.slots (some ppid)))
    (hfields : m'.slots none = m.slots none)
    (hmaps : ∀ k, k ≠ ppid → m'.slots (some k) = m.slots (some k) ∧ m'.requests k = m.requests k)
    (hrequest : (m'.requests ppid).isSome → (m'.slots (some ppid)).request.isSome)
    (hcounter : m'.counter = m.counter)
    (hentry : (m'.slots (some ppid)).request.isSome → (m'.slots (some ppid)).resourceSpan.isSome) :
    Moves (some ppid) g m m' where
  sound := by
    refine ⟨fun key => ?_, fun k => ?_⟩
    · cases key with
      | none =>
        rw [hfields]
        exact hm.entry none
      | some k =>
        by_cases hk : k = ppid
        · subst hk
          exact hentry
        · rw [(hmaps k hk).1]
          exact hm.entry _
    · by_cases hk : k = ppid
      · subst hk
        exact hrequest
      · rw [(hmaps k hk).1, (hmaps k hk).2]
        exact hm.request k
  provider := by
    rw [Members.provider, Members.provider, hcounter, Provider.set, Provider.mk.injEq]
    refine ⟨rfl, funext fun key => ?_⟩
    cases key with
    | none => rw [Function.update_of_ne (Option.some_ne_none ppid).symm, hfields]
    | some k =>
      by_cases hk : k = ppid
      · subst hk
        rw [Function.update_self, hself]
      · rw [Function.update_of_ne (fun heq => hk (Option.some.inj heq)), (hmaps k hk).1]

theorem Moves.same {g : Slot → Slot} {m : Members} {key : Option Nat} (hm : m.Sound)
    (hg : g (m.slots key) = m.slots key) : Moves key g m m where
  sound := hm
  provider := by
    rw [hg]
    exact (Provider.set_slots_self m.provider key).symm

theorem Moves.slots {g : Slot → Slot} {m m' : Members} {key : Option Nat} (h : Moves key g m m') :
    m'.slots key = g (m.slots key) := by
  have hprovider := congrArg (fun p : Provider => p.slots key) h.provider
  rwa [Provider.set_self] at hprovider

theorem Moves.trans {g g' : Slot → Slot} {m m' m'' : Members} {key : Option Nat}
    (h : Moves key g m m') (h' : Moves key g' m' m'') : Moves key (fun s => g' (g s)) m m'' where
  sound := h'.sound
  provider := by rw [h'.provider, h.slots, h.provider, Provider.set_set]

theorem Moves.congr {g g' : Slot → Slot} {m m' : Members} {key : Option Nat} (h : Moves key g m m')
    (hg : g' (m.slots key) = g (m.slots key)) : Moves key g' m m' :=
  ⟨h.sound, by rw [hg, h.provider]⟩

end Members

variable {φ α : Type} {eng : Engine φ}

/-- The process with the members of its provider, and the process as the slots show it. -/
structure Shows (s : World φ × Members) (w : World φ) : Prop where
  sound : s.2.Sound
  eq : w = s.1.withProvider s.2.provider

/-- The two go the same way. -/
abbrev Refines (m : Body φ α) (n : M φ α) : Prop := Relates (fun _ : Still => Shows) Same .still m n

namespace Shows

variable {w : World φ} {m : Members}

theorem slot (w : World φ) (m : Members) : opentelemetry.slot eng (w.withProvider m.provider) =
    .ok (m.slots (w.key eng), w.withProvider m.provider) := by
  rw [slot_of_some rfl]
  rfl

theorem modifySlot (w : World φ) (m : Members) (g : Slot → Slot) :
    opentelemetry.modifySlot eng g (w.withProvider m.provider) =
      .ok ((), w.withProvider (m.provider.set (w.key eng) (g (m.slots (w.key eng))))) := by
  rw [modifySlot_of_some g rfl]
  rfl

end Shows

/-- The provider is not looked at. -/
def Providerless (m : M φ α) : Prop := ∀ p : Provider, Unaware (fun w => w.withProvider p) m

namespace Providerless

theorem modifyMemory (f : Memory → Memory) : Providerless (modifyMemory f : M φ Unit) :=
  fun _ => .modify fun _ => rfl

theorem get_unix_nanoseconds : Providerless (get_unix_nanoseconds : M φ UInt64) := fun _ _ => rfl

theorem generate_uuid : Providerless (generate_uuid : M φ Bytes) := fun _ _ => rfl

theorem readSpan (q : Nat) : Providerless (readSpan q : M φ Span) :=
  fun _ => .get_bind (fun _ => rfl) fun _ => .lift _

theorem modifySpan (q : Nat) (f : Span → Span) : Providerless (modifySpan q f : M φ Unit) :=
  fun p => .bind (readSpan q p) fun _ => modifyMemory _ p

theorem traceIdFor (first : Option Nat) : Providerless (Provider.traceIdFor first : M φ Bytes) := by
  cases first with
  | none => exact generate_uuid
  | some q => exact fun p => .bind (readSpan q p) fun _ => .pure _

theorem addSpan (rs : Nat) (span : Span) : Providerless (Provider.addSpan rs span : M φ Nat) :=
  fun p => .get_bind (fun _ => rfl) fun _ => .bind (.lift _) fun _ =>
    .bind (modifyMemory _ p) fun _ => .pure _

theorem addResourceAttribute (resource : Nat) (kv : KeyValue) :
    Providerless (Provider.addResourceAttribute resource kv : M φ Unit) :=
  fun p => .get_bind (fun _ => rfl) fun _ => .bind (.lift _) fun _ => modifyMemory _ p

end Providerless

/-- What does not know the provider. -/
theorem refines_onFirst {m : M φ α} (h : Providerless m) :
    Refines (onFirst m) m := by
  rintro ⟨⟩ - ⟨w, m'⟩ w' ⟨hsound, rfl⟩
  refine ⟨.still, le_rfl, ?_⟩
  rw [h m'.provider w, onFirst]
  rcases m w with (e | u) | ⟨a, u⟩
  · rfl
  · exact ⟨hsound, rfl⟩
  · exact ⟨rfl, hsound, rfl⟩

/-- A look at the current slot, which may make entries on the way. -/
theorem refines_look {m : Body φ α} {f : Slot → α}
    (h : ∀ w mem, mem.Sound → ∃ mem', m (w, mem) = .ok (f (mem.slots (w.key eng)), (w, mem')) ∧
      mem.Touched mem') :
    Refines m (do return f (← slot eng)) := by
  rintro ⟨⟩ - ⟨w, mem⟩ w' ⟨hsound, rfl⟩
  obtain ⟨mem', hm, htouched⟩ := h w mem hsound
  refine ⟨.still, le_rfl, ?_⟩
  rw [hm, bind_apply, Shows.slot]
  exact ⟨rfl, htouched.sound hsound, by rw [htouched.provider]⟩

/-- A change of the current slot. -/
theorem refines_change {m : Body φ Unit} {g : Slot → Slot}
    (h : ∀ w mem, mem.Sound → ∃ mem', m (w, mem) = .ok ((), (w, mem')) ∧
      mem.Moves (w.key eng) g mem') :
    Refines m (modifySlot eng g) := by
  rintro ⟨⟩ - ⟨w, mem⟩ w' ⟨hsound, rfl⟩
  obtain ⟨mem', hm, hmoves⟩ := h w mem hsound
  refine ⟨.still, le_rfl, ?_⟩
  rw [hm, Shows.modifySlot]
  exact ⟨rfl, hmoves.sound, by rw [hmoves.provider]⟩

theorem key_cli (hcli : eng.cli = true) (w : World φ) : w.key eng = some w.ppid := if_pos hcli

theorem key_fields (hcli : eng.cli = false) (w : World φ) : w.key eng = none :=
  if_neg (by rw [hcli]; exact Bool.false_ne_true)

namespace Bodies

theorem members_apply (w : World φ) (mem : Members) : members (w, mem) = .ok (mem, (w, mem)) := rfl

theorem modifyMembers_apply (f : Members → Members) (w : World φ) (mem : Members) :
    modifyMembers f (w, mem) = .ok ((), (w, f mem)) := rfl

theorem ppid_apply (w : World φ) (mem : Members) :
    get_current_ppid (w, mem) = .ok (w.ppid, (w, mem)) := rfl

theorem refines_getRequest : Refines (getRequest eng) (Provider.getRequest eng) := by
  refine refines_look fun w mem hm => ⟨mem, ?_, .refl mem⟩
  cases hcli : eng.cli with
  | false => simp [getRequest, hcli, key_fields hcli, members_apply, Members.slots]
  | true =>
    simp only [getRequest, hcli, key_cli hcli, not_true_eq_false, if_false, bind_apply, ppid_apply,
      ok_bind, members_apply, ite_apply, pure_apply, Members.slots]
    split
    · rfl
    · rename_i hnot
      by_cases hsome : (mem.requests w.ppid).isSome
      · rw [not_and, not_not] at hnot
        rw [hnot hsome]
      · rw [PidMap.sub_of_not_isSome hsome]

theorem refines_getResource : Refines (getResource eng) (Provider.getResource eng) := by
  refine refines_look fun w mem hm => ?_
  cases hcli : eng.cli with
  | false =>
    refine ⟨mem, ?_, .refl mem⟩
    simp [getResource, hcli, key_fields hcli, members_apply, Members.slots]
  | true =>
    refine ⟨_, ?_, .resources mem w.ppid⟩
    simp [getResource, hcli, key_cli hcli, members_apply, ppid_apply, modifyMembers_apply,
      Members.slots]

theorem refines_firstOneSpan : Refines (firstOneSpan eng) (Provider.firstOneSpan eng) := by
  refine refines_look fun w mem hm => ⟨mem, ?_, .refl mem⟩
  cases hcli : eng.cli with
  | false => simp [firstOneSpan, hcli, key_fields hcli, members_apply, Members.slots]
  | true =>
    simp only [firstOneSpan, hcli, key_cli hcli, not_true_eq_false, if_false, bind_apply,
      ppid_apply, ok_bind, members_apply, ite_apply, pure_apply, Members.slots]
    split
    · rfl
    · rename_i hnone
      rw [PidMap.sub_of_not_isSome hnone]

theorem refines_sampledFlag :
    Refines (sampledFlag eng) (do return (← slot eng).is_sampled) := by
  refine refines_look fun w mem hm => ⟨mem, ?_, .refl mem⟩
  cases hcli : eng.cli with
  | false => simp [sampledFlag, hcli, key_fields hcli, members_apply, Members.slots]
  | true =>
    simp only [sampledFlag, hcli, key_cli hcli, not_true_eq_false, if_false, bind_apply,
      ppid_apply, ok_bind, members_apply, pure_apply, Members.slots]
    by_cases hsome : (mem.sampled_map w.ppid).isSome
    · rw [hsome, Bool.true_and]
    · rw [PidMap.sub_of_not_isSome hsome, Bool.and_false]

theorem refines_getRedisException :
    Refines (getRedisException eng) (Provider.getRedisException eng) := by
  refine refines_look fun w mem hm => ⟨mem, ?_, .refl mem⟩
  cases hcli : eng.cli with
  | false => simp [getRedisException, hcli, key_fields hcli, members_apply, Members.slots]
  | true =>
    simp only [getRedisException, hcli, key_cli hcli, not_true_eq_false, if_false, bind_apply,
      ppid_apply, ok_bind, members_apply, ite_apply, pure_apply, Members.slots]
    split
    · rfl
    · rename_i hnot
      by_cases hsome : (mem.redisExceptions w.ppid).isSome
      · rw [not_and, not_not] at hnot
        rw [hnot hsome]
      · rw [PidMap.sub_of_not_isSome hsome]

theorem refines_baggageValue : Refines (baggageValue eng) (Provider.getBaggage eng) := by
  refine refines_look fun w mem hm => ?_
  cases hcli : eng.cli with
  | false =>
    refine ⟨mem, ?_, .refl mem⟩
    simp [baggageValue, hcli, key_fields hcli, members_apply, Members.slots]
  | true =>
    refine ⟨_, ?_, .baggage_map mem w.ppid⟩
    simp [baggageValue, hcli, key_cli hcli, members_apply, ppid_apply, modifyMembers_apply,
      Members.slots]

/-- An assignment to a field in one body and to an entry in the other. -/
theorem refines_assignment {f : Members → Members} {f' : Nat → Members → Members}
    {g : Slot → Slot} (hfield : ∀ m : Members, m.Sound → m.Moves none g (f m))
    (hentries : ∀ (ppid : Nat) (m : Members), m.Sound → m.Moves (some ppid) g (f' ppid m)) :
    Refines (if ¬ eng.cli then modifyMembers f else do
      let ppid ← get_current_ppid
      modifyMembers (f' ppid)) (modifySlot eng g) := by
  refine refines_change fun w mem hm => ?_
  cases hcli : eng.cli with
  | false =>
    refine ⟨f mem, by simp [modifyMembers_apply], ?_⟩
    rw [key_fields hcli]
    exact hfield mem hm
  | true =>
    refine ⟨f' w.ppid mem, by simp [ppid_apply, modifyMembers_apply], ?_⟩
    rw [key_cli hcli]
    exact hentries w.ppid mem hm

theorem refines_setSampled (isSampled : Bool) :
    Refines (setSampled eng isSampled) (Provider.setSampled eng isSampled) := by
  refine refines_assignment (fun m hm => .field hm rfl (fun _ => rfl) rfl rfl (hm.entry none))
    fun ppid m hm => ?_
  refine .entries hm (by simp [Members.slots]) rfl (fun k hk => ⟨?_, rfl⟩) (hm.request _) rfl
    (hm.entry (some _))
  simp [Members.slots, PidMap.sub_insert_ne hk]

theorem refines_setFirstSpan (span : Nat) : Refines (setFirstSpan eng span)
    (modifySlot eng fun s => { s with firstSpan := some span }) := by
  refine refines_assignment (fun m hm => .field hm rfl (fun _ => rfl) rfl rfl (hm.entry none))
    fun ppid m hm => ?_
  refine .entries hm (by simp [Members.slots]) rfl (fun k hk => ⟨?_, rfl⟩) (hm.request _) rfl
    (hm.entry (some _))
  simp [Members.slots, PidMap.sub_insert_ne hk]

theorem refines_assignBaggage (key value : Bytes) : Refines (assignBaggage eng key value)
    (modifySlot eng fun s => { s with baggage := s.baggage.assign key value }) := by
  refine refines_assignment (fun m hm => .field hm rfl (fun _ => rfl) rfl rfl (hm.entry none))
    fun ppid m hm => ?_
  refine .entries hm (by simp [Members.slots]) rfl (fun k hk => ⟨?_, rfl⟩) (hm.request _) rfl
    (hm.entry (some _))
  simp [Members.slots, PidMap.sub_insert_ne hk]

theorem refines_setRedisException (message : Bytes) :
    Refines (setRedisException eng message) (Provider.setRedisException eng message) := by
  refine refines_assignment (fun m hm => .field hm rfl (fun _ => rfl) rfl rfl (hm.entry none))
    fun ppid m hm => ?_
  refine .entries hm (by simp [Members.slots]) rfl (fun k hk => ⟨?_, rfl⟩) (hm.request _) rfl
    (hm.entry (some _))
  simp [Members.slots, PidMap.sub_insert_ne hk]

/-- The memory with the messages of a new request. -/
def newMemory (eng : Engine φ) (w : World φ) : Memory :=
  { w.memory with
    requests := w.memory.requests.alloc ⟨[w.memory.resource_spans.next]⟩
    resource_spans := w.memory.resource_spans.alloc {}
    resources := w.memory.resources.alloc ⟨Provider.resourceAttributes eng w.globals w.pid⟩ }

theorem newMessages_apply (w : World φ) : newMessages eng w =
    .ok ((w.memory.requests.next, w.memory.resource_spans.next, w.memory.resources.next),
      w.withMemory (newMemory eng w)) := rfl

/-- A change that points the current slot to the new messages. -/
theorem shows_withRequest {w : World φ} {mem mem' : Members}
    (h : mem.Moves (w.key eng) (fun s => { s with
      request := some w.memory.requests.next
      resourceSpan := some w.memory.resource_spans.next
      resource := some w.memory.resources.next }) mem') :
    Shows (w.withMemory (newMemory eng w), mem')
      ((w.withProvider mem.provider).withRequest eng mem.provider) := by
  refine ⟨h.sound, ?_⟩
  rw [h.provider]
  rfl

theorem refines_getTracer : Relates (fun _ : Still => Shows) (fun _ a b => a = some b) .still
    (getTracer eng) (Provider.getTracer eng) := by
  rintro ⟨⟩ - ⟨w, mem⟩ w' ⟨hsound, rfl⟩
  refine ⟨.still, le_rfl, ?_⟩
  have hslot : Provider.getTracer eng (w.withProvider mem.provider) =
      (if (mem.slots (w.key eng)).request.isSome then
        lift (deref (mem.slots (w.key eng)).resourceSpan)
      else Provider.newRequest eng) (w.withProvider mem.provider) := by
    rw [Provider.getTracer, bind_apply, Shows.slot]
    rfl
  rw [hslot, stateful.ite_apply, Provider.newRequest_of_some rfl]
  cases hcli : eng.cli with
  | false =>
    have hkey : w.key eng = none := key_fields hcli w
    by_cases hrequest : mem.request.isSome
    · obtain ⟨rs, hrs⟩ := Option.isSome_iff_exists.mp (hsound.entry none hrequest)
      have htracer : getTracer eng (w, mem) = .ok (some rs, (w, mem)) := by
        have hfield : mem.resourceSpan = some rs := hrs
        simp [getTracer, hcli, members_apply, hrequest, hfield]
      rw [hkey, if_pos (show (mem.slots none).request.isSome from hrequest), hrs, htracer]
      exact ⟨rfl, hsound, rfl⟩
    · have htracer : getTracer eng (w, mem) = .ok (some w.memory.resource_spans.next,
          (w.withMemory (newMemory eng w), { mem with
            request := some w.memory.requests.next
            resourceSpan := some w.memory.resource_spans.next
            resource := some w.memory.resources.next })) := by
        simp [getTracer, hcli, members_apply, hrequest, onFirst, newMessages_apply,
          modifyMembers_apply]
      rw [hkey, if_neg (show ¬ (mem.slots none).request.isSome from hrequest), htracer]
      refine ⟨rfl, shows_withRequest ?_⟩
      rw [hkey]
      exact .field hsound rfl (fun _ => rfl) rfl rfl fun _ => rfl
  | true =>
    have hkey : w.key eng = some w.ppid := key_cli hcli w
    by_cases hrequest : (mem.requests w.ppid).isSome
    · obtain ⟨rs, hrs⟩ := Option.isSome_iff_exists.mp
        (hsound.entry (some w.ppid) (hsound.request _ hrequest))
      have htracer : getTracer eng (w, mem) = .ok (some rs, (w, { mem with
          resourceSpans := mem.resourceSpans.touch w.ppid none })) := by
        have hentry : mem.resourceSpans.sub w.ppid none = some rs := hrs
        simp [getTracer, hcli, members_apply, ppid_apply, modifyMembers_apply, hrequest, hentry]
      rw [hkey, if_pos (hsound.request _ hrequest), hrs, htracer]
      have htouched := Members.Touched.resourceSpans mem w.ppid
      exact ⟨rfl, htouched.sound hsound, by rw [htouched.provider]⟩
    · have htracer : getTracer eng (w, mem) = .ok (some w.memory.resource_spans.next,
          (w.withMemory (newMemory eng w), { mem with
            requests := mem.requests.insert w.ppid (some w.memory.requests.next)
            resourceSpans := mem.resourceSpans.insert w.ppid (some w.memory.resource_spans.next)
            resources := mem.resources.insert w.ppid (some w.memory.resources.next) })) := by
        simp [getTracer, hcli, members_apply, ppid_apply, hrequest, onFirst, newMessages_apply,
          modifyMembers_apply]
      rw [hkey, if_neg fun hsome => hrequest ((hsound.isSome_iff _).mpr hsome), htracer]
      refine ⟨rfl, shows_withRequest ?_⟩
      rw [hkey]
      refine .entries hsound (by simp [Members.slots]) rfl (fun k hk => ⟨?_, ?_⟩) (fun _ => ?_) rfl
        fun _ => ?_
      · simp [Members.slots, PidMap.sub_insert_ne hk]
      · exact Function.update_of_ne hk _ _
      · simp [Members.slots]
      · simp [Members.slots]

theorem cleanBaggage_apply (ppid : Nat) (w : World φ) {mem : Members} (hm : mem.Sound) :
    ∃ mem', cleanBaggage ppid (w, mem) = .ok ((), (w, mem')) ∧
      mem.Moves (some ppid) (fun s => { s with baggage := s.baggage.clear }) mem' := by
  by_cases hbaggage : (mem.baggage_map ppid).isSome
  · refine ⟨{ mem with
      baggage_map := mem.baggage_map.insert ppid (mem.baggage_map.sub ppid {}).clear }, ?_, ?_⟩
    · simp [cleanBaggage, members_apply, hbaggage, modifyMembers_apply]
    · refine .entries hm (by simp [Members.slots]) rfl (fun k hk => ⟨?_, rfl⟩) (hm.request _) rfl
        (hm.entry (some _))
      simp [Members.slots, PidMap.sub_insert_ne hk]
  · refine ⟨mem, by simp [cleanBaggage, members_apply, hbaggage], .same hm ?_⟩
    simp [Members.slots, PidMap.sub_of_not_isSome hbaggage]

theorem cleanRedisException_apply (ppid : Nat) (w : World φ) {mem : Members} (hm : mem.Sound) :
    ∃ mem', cleanRedisException ppid (w, mem) = .ok ((), (w, mem')) ∧
      mem.Moves (some ppid) (fun s => { s with redisException := [] }) mem' := by
  by_cases hredis : (mem.redisExceptions ppid).isSome
  · refine ⟨{ mem with redisExceptions := mem.redisExceptions.erase ppid }, ?_, ?_⟩
    · simp [cleanRedisException, members_apply, hredis, modifyMembers_apply]
    · refine .entries hm (by simp [Members.slots]) rfl (fun k hk => ⟨?_, rfl⟩) (hm.request _) rfl
        (hm.entry (some _))
      simp [Members.slots, PidMap.sub_erase_ne hk]
  · refine ⟨mem, by simp [cleanRedisException, members_apply, hredis], .same hm ?_⟩
    simp [Members.slots, PidMap.sub_of_not_isSome hredis]

/-- What is left of the slot of a request that has been deleted. -/
theorem cleanRequest_apply {ppid r : Nat} {w : World φ} {mem : Members}
    {request : ExportTraceServiceRequest} (hm : mem.Sound)
    (hr : (mem.slots (some ppid)).request = some r)
    (hcell : w.memory.requests.cell r = some request) :
    ∃ mem', cleanRequest ppid (w, mem) =
        .ok ((), (w.withMemory (w.memory.deleteRequest r request), mem')) ∧
      mem.Moves (some ppid) (fun s => { s with
        resourceSpan := none, firstSpan := none, request := none, is_sampled := false }) mem' := by
  have hsome : (mem.requests ppid).isSome := by
    rw [hm.isSome_iff, hr]
    rfl
  have hsub : mem.requests.sub ppid none = some r := hr
  refine ⟨{ mem with
    sampled_map := mem.sampled_map.erase ppid
    firstSpans := mem.firstSpans.erase ppid
    resourceSpans := mem.resourceSpans.erase ppid
    requests := mem.requests.erase ppid }, ?_, ?_⟩
  · simp [cleanRequest, members_apply, hsome, modifyMembers_apply, hsub, onFirst,
      Provider.deleteRequest_of_some hcell]
  · refine .entries hm (by simp [Members.slots]) rfl (fun k hk => ⟨?_, ?_⟩) (fun h => ?_) rfl
      fun h => ?_
    · simp [Members.slots, PidMap.sub_erase_ne hk]
    · exact Function.update_of_ne hk _ _
    · simp [PidMap.erase] at h
    · simp [Members.slots] at h

theorem cleanRequest_of_none {ppid : Nat} {w : World φ} {mem : Members} (hm : mem.Sound)
    (hr : (mem.slots (some ppid)).request = none) :
    cleanRequest ppid (w, mem) = .ok ((), (w, mem)) := by
  have hnone : ¬ (mem.requests ppid).isSome := by
    rw [hm.isSome_iff, hr]
    exact Bool.false_ne_true
  simp [cleanRequest, members_apply, hnone]

theorem cleanRequest_of_dangling {ppid r : Nat} {w : World φ} {mem : Members} (hm : mem.Sound)
    (hr : (mem.slots (some ppid)).request = some r) (hcell : w.memory.requests.cell r = none) :
    cleanRequest ppid (w, mem) = .error (.fault .dangling) := by
  have hsome : (mem.requests ppid).isSome := by
    rw [hm.isSome_iff, hr]
    rfl
  have hsub : mem.requests.sub ppid none = some r := hr
  simp [cleanRequest, members_apply, hsome, modifyMembers_apply, hsub, onFirst,
    Provider.deleteRequest_of_none hcell]

/-- Both bodies of `clean` do to the slot what the model says, in one go or in three. -/
theorem clean_apply {w : World φ} {mem : Members} (hm : mem.Sound)
    (hlive : ∀ r, (mem.slots (w.key eng)).request = some r → (w.memory.requests.cell r).isSome) :
    ∃ mem', clean eng (w, mem) =
        .ok ((), (w.withMemory (w.memory.cleaned (mem.slots (w.key eng))), mem')) ∧
      mem.Moves (w.key eng) (Slot.cleaned eng.cli) mem' := by
  cases hcli : eng.cli with
  | false =>
    rw [key_fields hcli] at hlive ⊢
    cases hr : mem.request with
    | none =>
      have hslot : (mem.slots none).request = none := hr
      refine ⟨mem, ?_, .same hm ?_⟩
      · simp [clean, hcli, members_apply, hr, Memory.cleaned, hslot, World.withMemory]
      · simp [Slot.cleaned, hslot]
    | some r =>
      have hslot : (mem.slots none).request = some r := hr
      obtain ⟨request, hcell⟩ := Option.isSome_iff_exists.mp (hlive r hr)
      refine ⟨{ mem with
        resourceSpan := none, firstSpan := none, request := none, is_sampled := false
        baggage := mem.baggage.clear, redisException := [] }, ?_, ?_⟩
      · simp [clean, hcli, members_apply, hr, modifyMembers_apply, onFirst,
          Provider.deleteRequest_of_some hcell, Memory.cleaned, hslot, hcell]
      · refine .field hm ?_ (fun _ => rfl) rfl rfl ?_
        · simp [Slot.cleaned, hslot]
          rfl
        · simp [Slot.cleaned, hslot]
  | true =>
    rw [key_cli hcli] at hlive ⊢
    have hfinish {u : World φ} {mem₁ : Members} {g : Slot → Slot}
        (hmoves : mem.Moves (some w.ppid) g mem₁)
        (hrequest : cleanRequest w.ppid (w, mem) = .ok ((), (u, mem₁))) :
        ∃ mem', clean eng (w, mem) = .ok ((), (u, mem')) ∧
          mem.Moves (some w.ppid) (fun s => { g s with
            baggage := (g s).baggage.clear, redisException := [] }) mem' := by
      obtain ⟨mem₂, hbaggage, hmoves₂⟩ := cleanBaggage_apply w.ppid u hmoves.sound
      obtain ⟨mem₃, hredis, hmoves₃⟩ := cleanRedisException_apply w.ppid u hmoves₂.sound
      refine ⟨mem₃, ?_, (hmoves.trans hmoves₂).trans hmoves₃⟩
      simp only [clean, hcli, not_true_eq_false, if_false, bind_apply, ppid_apply, ok_bind, hrequest,
        hbaggage, hredis]
    cases hr : (mem.slots (some w.ppid)).request with
    | none =>
      obtain ⟨mem', hclean, hmoves⟩ := hfinish (g := id) (.same hm rfl) (cleanRequest_of_none hm hr)
      refine ⟨mem', ?_, hmoves.congr ?_⟩
      · rw [hclean, Memory.cleaned, hr]
        rfl
      · simp [Slot.cleaned, hr]
    | some r =>
      obtain ⟨request, hcell⟩ := Option.isSome_iff_exists.mp (hlive r hr)
      obtain ⟨mem₁, hrequest, hmoves₁⟩ := cleanRequest_apply hm hr hcell
      obtain ⟨mem', hclean, hmoves⟩ := hfinish hmoves₁ hrequest
      refine ⟨mem', ?_, hmoves.congr ?_⟩
      · rw [hclean, Memory.cleaned, hr]
        simp [hcell]
      · simp [Slot.cleaned, hr]

theorem clean_of_dangling {r : Nat} {w : World φ} {mem : Members} (hm : mem.Sound)
    (hr : (mem.slots (w.key eng)).request = some r) (hcell : w.memory.requests.cell r = none) :
    clean eng (w, mem) = .error (.fault .dangling) := by
  cases hcli : eng.cli with
  | false =>
    rw [key_fields hcli] at hr
    have hfield : mem.request = some r := hr
    simp [clean, hcli, members_apply, hfield, modifyMembers_apply, onFirst,
      Provider.deleteRequest_of_none hcell]
  | true =>
    rw [key_cli hcli] at hr
    simp only [clean, hcli, not_true_eq_false, if_false, bind_apply, ppid_apply, ok_bind,
      cleanRequest_of_dangling hm hr hcell, error_bind]

theorem refines_clean : Refines (clean eng) (Provider.clean eng) := by
  rintro ⟨⟩ - ⟨w, mem⟩ w' ⟨hsound, rfl⟩
  refine ⟨.still, le_rfl, ?_⟩
  by_cases hlive : ∀ r, (mem.slots (w.key eng)).request = some r →
      (w.memory.requests.cell r).isSome
  · obtain ⟨mem', hclean, hmoves⟩ := clean_apply hsound hlive
    rw [hclean, Provider.clean_of_live rfl hlive]
    refine ⟨rfl, hmoves.sound, ?_⟩
    rw [hmoves.provider]
    rfl
  · push Not at hlive
    obtain ⟨r, hr, hcell⟩ := hlive
    have hnone := Option.not_isSome_iff_eq_none.mp hcell
    have hslots : Provider.clean eng (w.withProvider mem.provider) = .error (.fault .dangling) :=
      Provider.clean_of_dangling rfl hr hnone
    rw [clean_of_dangling hsound hr hnone, hslots]
    rfl

theorem refines_createSpan (name : Bytes) (kind : SpanKind) :
    Refines (createSpan eng name kind) (Provider.createSpan eng name kind) := by
  refine Relates.bind refines_getTracer fun _ _ a rs hrs => ?_
  subst hrs
  rw [deref_some, stateful.lift, pure_bind]
  refine Relates.bind_same refines_firstOneSpan fun _ _ first => ?_
  refine Relates.bind_same (refines_onFirst (.traceIdFor first)) fun _ _ trace_id => ?_
  refine Relates.bind_same (refines_onFirst (.generate_uuid)) fun _ _ span_id => ?_
  refine Relates.bind_same (refines_onFirst (.get_unix_nanoseconds)) fun _ _ start => ?_
  exact refines_onFirst (.addSpan rs _)

theorem refines_createFirstSpan (name : Bytes) (kind : SpanKind) :
    Refines (createFirstSpan eng name kind) (Provider.createFirstSpan eng name kind) :=
  Relates.bind_same (refines_createSpan name kind) fun _ _ span =>
    Relates.bind_same (refines_setFirstSpan span) fun _ _ _ => .pure_same span

/-- The settings are those of the process. -/
theorem relates_globals : Relates (fun _ : Still => Shows (φ := φ))
    (fun _ g g' => g'.max_time_consuming = g.max_time_consuming ∧
      g'.sample_ratio_based = g.sample_ratio_based) .still (onFirst globals) globals := by
  rintro ⟨⟩ - ⟨w, mem⟩ w' ⟨hsound, rfl⟩
  exact ⟨.still, le_rfl, ⟨rfl, rfl⟩, hsound, rfl⟩

theorem relates_count : Relates (fun _ : Still => Shows (φ := φ))
    (fun _ mem counter => counter = mem.counter) .still members Provider.count := by
  rintro ⟨⟩ - ⟨w, mem⟩ w' ⟨hsound, rfl⟩
  exact ⟨.still, le_rfl, rfl, hsound, rfl⟩

theorem isSampled_eq : Provider.isSampled eng = (do
    if ← (do return (← slot eng).is_sampled : M φ Bool) then return true
    else
      let firstSpan ← lift (deref (← Provider.firstOneSpan eng))
      let first ← readSpan firstSpan
      let now ← get_unix_nanoseconds
      let g ← globals
      return decide ((g.max_time_consuming % 2 ^ 64).toNat ≤
        toMilliseconds (now - first.start_time_unix_nano))) := by
  funext w
  cases hp : w.globals.provider with
  | none => simp only [Provider.isSampled, bind_apply, slot_of_none hp, error_bind]
  | some p =>
    simp only [Provider.isSampled, Provider.firstOneSpan, bind_apply, slot_of_some hp, ok_bind,
      pure_apply, stateful.ite_apply]

theorem refines_isSampled : Refines (isSampled eng) (Provider.isSampled eng) := by
  rw [isSampled_eq]
  refine Relates.bind_same refines_sampledFlag fun _ _ sampled => ?_
  refine .ite Iff.rfl (fun _ => .pure_same true) fun _ => ?_
  refine Relates.bind_same refines_firstOneSpan fun _ _ firstSpan => ?_
  refine Relates.bind_same (.lift_same _) fun _ _ span => ?_
  refine Relates.bind_same (refines_onFirst (.readSpan span)) fun _ _ first => ?_
  refine Relates.bind_same (refines_onFirst (.get_unix_nanoseconds)) fun _ _ now => ?_
  refine Relates.bind relates_globals fun _ _ g g' hg => ?_
  rw [hg.1]
  exact .pure_same _

theorem refines_addBaggage (key value : Bytes) :
    Refines (addBaggage eng key value) (Provider.addBaggage eng key value) := by
  refine Relates.bind_same (refines_assignBaggage key value) fun _ _ _ => ?_
  refine Relates.bind_same refines_getResource fun _ _ resource => ?_
  exact Relates.bind_same (.lift_same _) fun _ _ p =>
    refines_onFirst (.addResourceAttribute p _)

theorem refines_parseTraceParent (traceparent : Bytes) :
    Refines (parseTraceParent eng traceparent) (Provider.parseTraceParent eng traceparent) := by
  refine .ite Iff.rfl (fun _ => ?_) fun _ => ?_
  · dsimp only
    generalize explode (lit "-") traceparent = parts
    rcases parts with _ | ⟨version, _ | ⟨kv1, _ | ⟨kv2, _ | ⟨kv3, _ | ⟨_, _⟩⟩⟩⟩⟩
    case cons.cons.cons.cons.nil =>
      refine Relates.bind (.get (P := fun s w => w.erange = s.1.erange) ?_) fun _ _ s w herange => ?_
      · rintro - s w ⟨-, rfl⟩
        rfl
      rw [herange]
      refine Relates.bind_same refines_firstOneSpan fun _ _ firstSpan => ?_
      refine Relates.bind_same (.lift_same _) fun _ _ span => ?_
      refine Relates.bind_same (.lift_same _) fun _ _ trace_id => ?_
      refine Relates.bind_same (refines_onFirst (.modifySpan span _)) fun _ _ _ => ?_
      refine Relates.bind_same (.lift_same _) fun _ _ parent_span_id => ?_
      refine Relates.bind_same (refines_onFirst (.modifySpan span _)) fun _ _ _ => ?_
      exact refines_setSampled _
    all_goals exact .pure_same ()
  · refine Relates.bind relates_globals fun _ _ g g' hg => ?_
    rw [hg.2]
    refine .ite Iff.rfl (fun _ => refines_setSampled true) fun _ => ?_
    refine Relates.bind relates_count fun _ _ mem counter hcount => ?_
    subst hcount
    refine Relates.bind_same (.lift_same _) fun _ _ rest => ?_
    exact .ite Iff.rfl (fun _ => refines_setSampled true) fun _ =>
      .ite Iff.rfl (fun _ => refines_setSampled false) fun _ => .pure_same ()

theorem refines_parseBaggage (tracebaggage : Bytes) :
    Refines (parseBaggage eng tracebaggage) (Provider.parseBaggage eng tracebaggage) := by
  refine .ite Iff.rfl (fun _ => .forM fun _ _ item => ?_) fun _ => .pure_same ()
  generalize explode (lit "=") item = parts
  rcases parts with _ | ⟨key, _ | ⟨value, _ | ⟨_, _⟩⟩⟩
  case cons.cons.nil => exact refines_addBaggage key value
  all_goals exact .pure_same ()

theorem refines_formatTraceParentHeader (span : Nat) :
    Refines (formatTraceParentHeader eng span) (Provider.formatTraceParentHeader eng span) := by
  refine Relates.bind_same (refines_onFirst (.readSpan span)) fun _ _ s => ?_
  refine Relates.bind_same (.lift_same _) fun _ _ trace_id => ?_
  refine Relates.bind_same (.lift_same _) fun _ _ span_id => ?_
  exact Relates.bind_same refines_isSampled fun _ _ sampled => .pure_same _

theorem refines_formatBaggageHeader :
    Refines (formatBaggageHeader eng) (Provider.formatBaggageHeader eng) := by
  have hformat : Provider.formatBaggageHeader eng = (do
      let baggage ← Provider.getBaggage eng
      let entries := (eng.iterate baggage).val.map fun e => e.1 ++ lit "=" ++ e.2
      return (lit ",").intercalate entries) := by
    simp only [Provider.formatBaggageHeader, Provider.getBaggage, bind_assoc, pure_bind]
  rw [hformat]
  exact Relates.bind_same refines_baggageValue fun _ _ baggage => .pure_same _

theorem refines_errorEnd (span : Nat) (message : Bytes) :
    Refines (errorEnd eng span message) (Provider.errorEnd eng span message) := by
  refine Relates.bind_same (refines_onFirst .get_unix_nanoseconds) fun _ _ now => ?_
  refine Relates.bind_same (refines_onFirst (.modifySpan span _)) fun _ _ _ => ?_
  exact refines_setSampled true

theorem refines_isRedisException :
    Refines (isRedisException eng) (Provider.isRedisException eng) :=
  Relates.bind_same refines_getRedisException fun _ _ message => .pure_same _

end Bodies

end opentelemetry
