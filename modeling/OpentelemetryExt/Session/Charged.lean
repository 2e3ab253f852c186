import OpentelemetryExt.Session.Ended

open stateful run

namespace opentelemetry

variable {φ : Type} {eng : Engine φ} {natives : CurlNatives φ} {w w' : World φ} {q : Nat}

/-- The exception of Redis that waits under the current key for a command to be charged with it. -/
def World.redisException (eng : Engine φ) (w : World φ) : Bytes :=
  (w.slots (w.key eng)).redisException

def World.hasRequest (eng : Engine φ) (w : World φ) : Prop :=
  (w.slots (w.key eng)).request.isSome

@[simp] theorem World.slots_withProvider (w : World φ) (p : Provider) :
    (w.withProvider p).slots = p.slots := rfl

/-- Only where it is granted is the exception set or cleared. -/
theorem exception_tolerates {g : Grants} (hraises : ¬ g.raises) :
    Tolerates eng g (SameOn (World.redisException eng)) where
  memory _ _ := rfl
  clock _ := rfl
  uuids _ _ := rfl
  request {w p} hp _ request resourceSpan resource := by
    simp [SameOn, World.redisException, World.slots_of_some hp]
  baggage {w p} hp baggage := by simp [SameOn, World.redisException, World.slots_of_some hp]
  sampled {w p} _ hp isSampled := by simp [SameOn, World.redisException, World.slots_of_some hp]
  exception h := absurd h hraises
  php _ _ := rfl
  headers _ _ _ := rfl

/-- Without a request there is none. -/
def Slot.Quiet (s : Slot) : Prop := s.request = none → s.redisException = []

theorem Slot.Quiet.of_request {s : Slot} (h : s.request.isSome) : s.Quiet := by
  intro hnone
  rw [hnone] at h
  cases h

theorem Slot.quiet_steady (cli : Bool) : Slot.Steady cli Slot.Quiet where
  empty _ := rfl
  cleaned h := by
    unfold Slot.cleaned
    split
    · exact fun _ => rfl
    split
    · exact fun _ => rfl
    · exact h
  request _ _ _ _ := .of_request rfl
  firstSpan _ hrequest _ := .of_request hrequest
  sampled _ h := h
  baggage _ h := h

/-- While there is a request, the exception may be set to anything. -/
def Recorded (eng : Engine φ) (w : World φ) : Prop :=
  w.hasRequest eng ∧ Slotwise Slot.Quiet w

theorem recorded_tolerates (g : Grants) : Tolerates eng g (Preserves (Recorded eng)) := by
  have hset {w : World φ} {p : Provider} {s : Slot} (hp : w.globals.provider = some p)
      (hrequest : (p.slots (w.key eng)).request.isSome → s.request.isSome)
      (hw : Recorded eng w) : Recorded eng (w.withProvider (p.set (w.key eng) s)) := by
    have hsome : s.request.isSome := hrequest (by rw [← World.slots_of_some hp]; exact hw.1)
    refine ⟨?_, hw.2.change hp fun _ => .of_request hsome⟩
    simpa [World.hasRequest] using hsome
  exact {
    memory := fun _ _ hw => hw
    clock := fun _ hw => hw
    uuids := fun _ _ hw => hw
    request := fun hp _ _ _ _ => hset hp fun _ => rfl
    baggage := fun hp _ => hset hp id
    sampled := fun _ hp _ => hset hp id
    exception := fun _ hp _ => hset hp id
    php := fun _ _ hw => hw
    headers := fun _ _ _ hw => hw }

theorem createChildSpan_recorded {name : Bytes} {kind : SpanKind}
    (h : Provider.createChildSpan eng name kind w = .ok (q, w')) (hw : Slotwise Slot.Quiet w) :
    Recorded eng w' := by
  have hquiet : Slotwise Slot.Quiet w' :=
    (Slot.quiet_steady eng.cli).spanwise.createChildSpan name kind (.of_ok h) hw
  obtain ⟨v, f, first, -, hspan, rfl⟩ := createChildSpan_ok h
  obtain ⟨p, hp, hrequest⟩ := createSpan_request hspan
  refine ⟨?_, hquiet⟩
  rw [World.hasRequest, World.slots_of_some (w := v.withSpan q _) hp]
  exact hrequest

theorem quiet_redisLeave (execute_data : ExecuteData) (q : Nat) :
    Keeps (Preserves (Slotwise Slot.Quiet)) (redisLeave eng execute_data q) := by
  have hends : Tolerates eng { Grants.none with ends := True } (Preserves (Slotwise Slot.Quiet)) :=
    (Slot.quiet_steady eng.cli).tolerates False.elim
  have hclear : Keeps (Preserves (Slotwise Slot.Quiet)) (Provider.clearRedisException eng) := by
    intro w w' hends hw
    have hclear : Ends (modifySlot eng fun s => { s with redisException := [] }) w w' := hends
    obtain ⟨p, hp, rfl⟩ := modifySlot_ends hclear
    exact hw.change hp fun _ _ => rfl
  refine .bind (.of_reads (.bind Op.reads_getRedisException fun _ => .pure _)) fun raised =>
    .ite (.bind (.of_reads Op.reads_getRedisException) fun message => ?_) ?_
  · exact .bind (hends.built (.op (.errorEnd trivial q message))) fun _ => hclear
  · exact hends.built (.op (.okEnd trivial q))

theorem quiet_traceException (args : ExceptionArgs) :
    Keeps (Preserves (Slotwise Slot.Quiet)) (traceException eng args) := by
  refine .bind (.of_reads (Move.reads_exceptionProperty _ _)) fun _ => .bind (.of_reads (.lift _))
    fun message => .bind (.of_reads (Move.reads_exceptionProperty _ _)) fun _ =>
      .bind (.of_reads (.lift _)) fun file => ?_
  refine .bind (.of_reads (Move.reads_exceptionProperty _ _)) fun _ =>
    .bind (.of_reads (Move.reads_exceptionProperty _ _)) fun _ => .bind (.of_reads (.lift _))
      fun line => .bind (.of_reads (Move.reads_currentFunctionName _)) fun name => ?_
  intro w w' h hw
  obtain ⟨span, u, hcreate, hrest⟩ | hleft := ends_bind_iff.mp h
  · -- From here on there is a request.
    have hu : Recorded eng u := createChildSpan_recorded hcreate hw
    have hbuilt : Built (Move eng ⟨True, True, True, True, True⟩) _ :=
      .bind (.op (.errorEnd trivial span message)) fun _ =>
        Move.built_exceptionAttributes trivial args message file line span
    exact ((recorded_tolerates _).built hbuilt hrest hu).2
  · exact absurd hleft (Direct.createChildSpan _ _ _ _)

theorem quiet_call (c : Call) : Keeps (Preserves (Slotwise Slot.Quiet)) (c.run eng natives) := by
  have hbuilt (hraises : ¬ c.grants.raises) :
      Keeps (Preserves (Slotwise Slot.Quiet)) (c.run eng natives) :=
    ((Slot.quiet_steady eng.cli).tolerates fun h => absurd h hraises).built (Move.built_call c)
  cases c with
  | leave hook execute_data return_value span =>
    by_cases hhook : hook = .redis
    · subst hhook
      exact .bind (.of_reads Op.reads_is_has_provider) fun _ =>
        .ite (.bind (.of_reads (.lift _)) fun _ => quiet_redisLeave _ _) (.of_reads (.pure _))
    · exact hbuilt hhook
  | exception args =>
    refine .ite ?_ (.of_reads (.pure _))
    refine .bind (.of_reads Op.reads_is_has_provider) fun _ => .ite ?_ (.of_reads (.pure _))
    cases args with
    | none => exact .of_reads (.pure _)
    | some args => exact .bind (quiet_traceException args) fun _ => .of_reads (.pure _)
  | _ => exact hbuilt id

/-- No exception is waiting when a session starts. -/
theorem Opened.quiet (h : Opened eng natives w) : w.redisException eng = [] := by
  obtain ⟨u, traceparent, tracebaggage, kind, hu, heffective, hstart⟩ :=
    h.start_of (fun hnew hrun => (Slot.quiet_steady eng.cli).run quiet_call hnew hrun)
      fun _ hu => hu
  obtain ⟨u', v, v₁, header, name, kind', q, m, hcore, hcreate, hparse, hbuilt, hrest, -⟩ :=
    start_tracer_ok hstart heffective
  have htolerates : Tolerates eng .none (SameOn (World.redisException eng)) :=
    exception_tolerates id
  have hsampled (b : Bool) : Keeps (SameOn (World.redisException eng)) (Provider.setSampled eng b) := by
    intro x y hends
    obtain ⟨p, hp, rfl⟩ := modifySlot_ends hends
    simp [SameOn, World.redisException, World.slots_of_some hp]
  have hreset : u'.redisException eng = [] := by
    have hself (x : World φ) : x.core.redisException eng = x.redisException eng := rfl
    rw [← hself u', hcore, hself]
    have hslot : (u.slots (u.key eng)).Quiet := by
      cases hp : u.globals.provider with
      | none => simp [World.slots, hp, Slot.Quiet]
      | some p => exact World.slots_of_some hp ▸ hu p hp _
    have hkey : (u.reset eng).redisException eng =
        ((u.slots (u.key eng)).cleaned eng.cli).redisException := by
      change ((Function.update _ _ _ : Option Nat → Slot) (u.key eng)).redisException = _
      rw [Function.update_self]
      rfl
    rw [hkey]
    unfold Slot.cleaned
    split
    · rfl
    split
    · rfl
    · exact hslot (Option.not_isSome_iff_eq_none.mp ‹_›)
  obtain ⟨v', p, hspan, hp, rfl⟩ := Provider.createFirstSpan_ok hcreate
  have hv : v'.redisException eng = [] :=
    (htolerates.createSpan _ _ (.of_ok hspan)).trans hreset
  have hfirst : World.redisException eng (v'.withProvider
      (p.set (v'.key eng) { p.slots (v'.key eng) with firstSpan := some q })) = [] := by
    rw [← hv]
    simp [World.redisException, World.slots_of_some hp]
  have hv₁ : v₁.redisException eng = [] :=
    (parseTraceParent_keeps (fun span f _ => htolerates.modifySpan span f) hsampled header
      (.of_ok hparse)).trans hfirst
  exact (htolerates.built hbuilt hrest).trans hv₁

theorem Provider.getRedisException_ok {message : Bytes}
    (h : Provider.getRedisException eng w = .ok (message, w')) :
    message = w.redisException eng ∧ w' = w := by
  obtain ⟨s, u, hslot, hrest⟩ := bind_ok_iff.mp h
  obtain ⟨p, hp, rfl, rfl⟩ := slot_ok hslot
  cases hrest
  rw [World.redisException, World.slots_of_some hp]
  exact ⟨rfl, rfl⟩

theorem Provider.setRedisException_ok {message : Bytes} {a : Unit}
    (h : Provider.setRedisException eng message w = .ok (a, w')) :
    w'.redisException eng = message ∧ w'.memory = w.memory := by
  obtain ⟨p, hp, rfl⟩ := modifySlot_ends (.of_ok h)
  exact ⟨by simp [World.redisException], rfl⟩

/-- The end of a command of Redis takes the exception, and charges the command with it. -/
theorem redisLeave_ok {execute_data : ExecuteData} {a : Unit}
    (h : redisLeave eng execute_data q w = .ok (a, w')) : w'.redisException eng = [] ∧
      ∃ s, w.memory.spans.cell q = some s ∧ w'.outcome q = some
        (if w.redisException eng ≠ [] then ⟨.error, w.redisException eng⟩
          else if s.status.code = .unset then ⟨.ok, []⟩ else s.status, w.clock 0) := by
  obtain ⟨raised, v, hraised, hrest⟩ := bind_ok_iff.mp h
  obtain ⟨message, u, hget, hpure⟩ := bind_ok_iff.mp hraised
  obtain ⟨rfl, rfl⟩ := Provider.getRedisException_ok hget
  cases hpure
  rw [stateful.ite_apply] at hrest
  by_cases hnone : v.redisException eng = []
  · rw [if_neg (by simp [hnone])] at hrest
    obtain ⟨s, hs, rfl⟩ := Provider.okEnd_ok hrest
    refine ⟨hnone, s, hs, ?_⟩
    rw [outcome_withSpan_self (w := v.ticked) hs, if_neg (not_not_intro hnone)]
  · rw [if_pos (by simp [hnone])] at hrest
    obtain ⟨message, x, hread, hcharge⟩ := bind_ok_iff.mp hrest
    obtain ⟨rfl, rfl⟩ := Provider.getRedisException_ok hread
    obtain ⟨⟨⟩, y, hend, hclear⟩ := bind_ok_iff.mp hcharge
    obtain ⟨hcleared, hmemory⟩ := Provider.setRedisException_ok hclear
    obtain ⟨s, p, hs, -, rfl⟩ := Provider.errorEnd_ok hend
    refine ⟨hcleared, s, hs, ?_⟩
    rw [World.outcome, hmemory, if_pos hnone]
    exact outcome_withSpan_self (w := x.ticked) hs

namespace Direct

theorem exceptionProperty (exception : Zval) (name : String) :
    Direct (exceptionProperty eng exception name) := .bind .get fun _ => .lift _

theorem currentFunctionName (callers : List (Option ZendFunction)) :
    Direct (currentFunctionName eng callers) := by
  unfold opentelemetry.currentFunctionName
  split
  · exact .pure _
  · exact .bind firstOneSpan fun _ => .bind (.lift _) fun _ => .bind (readSpan _) fun _ => .pure _

theorem redisLeave (execute_data : ExecuteData) (span : Nat) :
    Direct (redisLeave eng execute_data span) := by
  have hread : Direct (Provider.getRedisException eng) := .bind slot fun _ => .pure _
  exact .bind (.bind hread fun _ => .pure _) fun _ =>
    .ite (.bind hread fun _ => .bind (errorEnd _ _) fun _ => setRedisException _) (okEnd _)

theorem traceException (args : ExceptionArgs) : Direct (traceException eng args) :=
  .bind (exceptionProperty _ _) fun _ => .bind (.lift _) fun _ => .bind (exceptionProperty _ _)
    fun _ => .bind (.lift _) fun _ => .bind (exceptionProperty _ _) fun _ =>
      .bind (exceptionProperty _ _) fun _ => .bind (.lift _) fun _ =>
        .bind (currentFunctionName _) fun _ => .bind (createChildSpan _ _) fun _ =>
          .bind (errorEnd _ _) fun _ => direct_exceptionAttributes _ _ _ _ _

end Direct

theorem exceptionProperty_ok {exception value : Zval} {name : String}
    (h : exceptionProperty eng exception name w = .ok (value, w')) :
    eng.read_property w.php exception (lit name) = some value ∧ w' = w := by
  obtain ⟨v, u, hget, hread⟩ := bind_ok_iff.mp h
  cases hget
  obtain ⟨hvalue, rfl⟩ := lift_ok_iff.mp hread
  exact ⟨deref_eq_ok_iff.mp hvalue, rfl⟩

/-- The exception hook keeps the message of an exception of Redis, and no other. -/
theorem traceException_ok {args : ExceptionArgs} {a : Unit}
    (h : traceException eng args w = .ok (a, w')) :
    ∃ message, eng.read_property w.php args.exception (lit "message") = some (.string message) ∧
      w'.redisException eng = if c_str args.class_name = lit "RedisException" then c_str message
        else w.redisException eng := by
  have hsame {α : Type} {m : M φ α} {b : α} {u v : World φ}
      (hm : Built (Move eng { Grants.none with creates := True, ends := True }) m)
      (hok : m u = .ok (b, v)) : v.redisException eng = u.redisException eng :=
    (exception_tolerates id).built hm (.of_ok hok)
  have hnote {span : Nat} {kv : KeyValue} {b : Unit} {u v : World φ}
      (hok : addAttribute span kv u = .ok (b, v)) : v.redisException eng = u.redisException eng :=
    hsame (Move.built_addAttribute span kv) hok
  obtain ⟨value, w₁, hvalue, h₁⟩ := bind_ok_iff.mp h
  obtain ⟨hproperty, rfl⟩ := exceptionProperty_ok hvalue
  obtain ⟨text, w₂, htext, h₂⟩ := bind_ok_iff.mp h₁
  obtain ⟨hstring, rfl⟩ := lift_ok_iff.mp htext
  obtain ⟨fileValue, w₃, hfileValue, h₃⟩ := bind_ok_iff.mp h₂
  obtain ⟨-, rfl⟩ := exceptionProperty_ok hfileValue
  obtain ⟨file, w₄, hfile, h₄⟩ := bind_ok_iff.mp h₃
  obtain ⟨-, rfl⟩ := lift_ok_iff.mp hfile
  obtain ⟨code, w₅, hcode, h₅⟩ := bind_ok_iff.mp h₄
  obtain ⟨-, rfl⟩ := exceptionProperty_ok hcode
  obtain ⟨lineValue, w₆, hlineValue, h₆⟩ := bind_ok_iff.mp h₅
  obtain ⟨-, rfl⟩ := exceptionProperty_ok hlineValue
  obtain ⟨line, w₇, hline, h₇⟩ := bind_ok_iff.mp h₆
  obtain ⟨-, rfl⟩ := lift_ok_iff.mp hline
  obtain ⟨name, w₈, hname, h₈⟩ := bind_ok_iff.mp h₇
  obtain rfl := Move.reads_currentFunctionName _ (.of_ok hname)
  obtain ⟨span, w₉, hcreate, h₉⟩ := bind_ok_iff.mp h₈
  obtain ⟨_, x₁, hend, hattributes⟩ := bind_ok_iff.mp h₉
  obtain ⟨_, x₂, htype, hrest₁⟩ := bind_ok_iff.mp hattributes
  obtain ⟨_, x₃, hnoted, hrest₂⟩ := bind_ok_iff.mp hrest₁
  obtain ⟨_, x₄, hstack, hrest₃⟩ := bind_ok_iff.mp hrest₂
  have hbefore : x₄.redisException eng = w₈.redisException eng := by
    rw [hnote hstack, hnote hnoted, hnote htype, hsame (.op (.errorEnd trivial span text)) hend,
      hsame (.op (.createChildSpan trivial name .internal)) hcreate]
  obtain ⟨message, rfl⟩ : ∃ message, value = .string message := by
    cases value with
    | string message => exact ⟨message, rfl⟩
    | _ => cases hstring
  have hmessage : c_str message = text := Except.ok.inj hstring
  refine ⟨message, hproperty, ?_⟩
  rw [stateful.ite_apply] at hrest₃
  by_cases hclass : c_str args.class_name = lit "RedisException"
  · rw [if_pos hclass] at hrest₃
    obtain ⟨_, x₅, hset, hlast⟩ := bind_ok_iff.mp hrest₃
    rw [if_pos hclass, hmessage, hnote hlast, (Provider.setRedisException_ok hset).1]
  · rw [if_neg hclass] at hrest₃
    rw [if_neg hclass, hnote hrest₃, hbefore]

/-- Of an exception the message is kept that it is raised with. -/
theorem exception_raised {args : Option ExceptionArgs} (hphp : eng.php_version_id < 80000)
    (hprovider : w.globals.provider.isSome)
    (h : Step eng natives (.call (.exception args)) w w') : w'.redisException eng =
      ((raised eng w (.call (.exception args))).getLast?.map c_str).getD (w.redisException eng) := by
  have hhook : Ends (opentelemetry_throw_exception_hook eng (fun _ => return) args) w w' := h
  unfold opentelemetry_throw_exception_hook at hhook
  rw [if_pos hphp] at hhook
  obtain ⟨b, u, hhas, hrest⟩ | hleft := ends_bind_iff.mp hhook
  · rw [is_has_provider_of_some hprovider] at hhas
    cases hhas
    rw [if_pos rfl] at hrest
    cases args with
    | none =>
      obtain rfl := Reads.pure _ hrest
      rfl
    | some args =>
      obtain ⟨_, v, htrace, hpure⟩ | hunwound := ends_bind_iff.mp hrest
      · obtain rfl := Reads.pure _ hpure
        obtain ⟨message, hproperty, hexception⟩ := traceException_ok htrace
        rw [hexception, raised]
        by_cases hclass : c_str args.class_name = lit "RedisException"
        · rw [if_pos hclass, if_pos hclass, hproperty]
          rfl
        · rw [if_neg hclass, if_neg hclass]
          rfl
      · exact absurd hunwound (Direct.traceException args _ _)
  · exact absurd hleft (Direct.is_has_provider _ _)

theorem leave_redis_ok {execute_data : ExecuteData} {return_value : Zval} {span : Option Nat}
    {a : Unit} (hprovider : w.globals.provider.isSome)
    (h : Hook.leave eng .redis execute_data return_value span w = .ok (a, w')) :
    ∃ q, span = some q ∧ redisLeave eng execute_data q w = .ok (a, w') := by
  have hhandler : leaveHandler (redisLeave eng) execute_data span w = .ok (a, w') := h
  rw [leaveHandler_of_provider _ hprovider] at hhandler
  obtain ⟨q, u, hread, hleave⟩ := bind_ok_iff.mp hhandler
  obtain ⟨hspan, rfl⟩ := lift_ok_iff.mp hread
  cases span with
  | none => cases hspan
  | some q' =>
    cases hspan
    exact ⟨_, rfl, hleave⟩

theorem direct_leave_redis (execute_data : ExecuteData) (return_value : Zval) (span : Option Nat) :
    Direct (Hook.leave eng .redis execute_data return_value span) :=
  .bind Direct.is_has_provider fun _ =>
    .ite (.bind (.lift _) fun _ => Direct.redisLeave _ _) (.pure _)

/-- The message that a command is charged with when `messages` have come up since the last one
ended. -/
def lastMessage (messages : List Bytes) : Bytes := (messages.getLast?.map c_str).getD []

theorem lastMessage_append (old new : List Bytes) :
    lastMessage (old ++ new) = (new.getLast?.map c_str).getD (lastMessage old) := by
  rw [lastMessage, lastMessage, List.getLast?_append]
  cases new.getLast? with
  | none => rfl
  | some message => rfl

/-- The exception that waits is the last one since a command of Redis has ended. -/
structure Charging (eng : Engine φ) (p : Execution φ) : Prop where
  waiting : p.world.redisException eng = lastMessage (p.thrown.drop p.charged)
  charged : p.charged ≤ p.thrown.length

section

variable {p p' p₀ : Execution φ} {i : Happening φ} {is : List (Happening φ)} {f : Nat}

theorem Charging.call {c : Call} (h : Charging eng p) (hraises : ¬ c.grants.raises)
    (hstep : Step eng natives (.call c) p.world p'.world) (hthrown : p'.thrown = p.thrown)
    (hcharged : p'.charged = p.charged) : Charging eng p' := by
  have hsame : p'.world.redisException eng = p.world.redisException eng :=
    (exception_tolerates hraises).built (Move.built_call c) hstep
  exact ⟨by rw [hsame, h.waiting, hthrown, hcharged], by rw [hthrown, hcharged]; exact h.charged⟩

theorem raised_eq_nil {e : Event φ} (h : ∀ args, e ≠ .call (.exception args)) :
    raised eng w e = [] := by
  unfold raised
  split
  · exact absurd rfl (h _)
  · rfl

theorem Charging.event {e : Event φ} {w : World φ} (hphp : eng.php_version_id < 80000)
    (h : Charging eng p) (hsession : InSession eng f p.world) (hplain : e.Plain)
    (hstep : Step eng natives e p.world w) (hinner : e.Inner eng.cli) :
    Charging eng { p with world := w, thrown := p.thrown ++ raised eng p.world e } := by
  have hprovider : p.world.globals.provider.isSome := hsession.provider_isSome
  have hdrop : (p.thrown ++ raised eng p.world e).drop p.charged =
      p.thrown.drop p.charged ++ raised eng p.world e := List.drop_append_of_le_length h.charged
  refine ⟨?_, h.charged.trans (by simp)⟩
  change w.redisException eng = lastMessage ((p.thrown ++ raised eng p.world e).drop p.charged)
  rw [hdrop, lastMessage_append, ← h.waiting]
  by_cases hexception : ∃ args, e = .call (.exception args)
  · obtain ⟨args, rfl⟩ := hexception
    exact exception_raised hphp hprovider hstep
  · rw [raised_eq_nil fun args heq => hexception ⟨args, heq⟩]
    obtain ⟨c, rfl⟩ | ⟨s, rfl, rfl⟩ | ⟨hcli, ppid, rfl⟩ | rfl :=
      inner_cases hstep hinner hsession.started
    · have hcall (hraises : ¬ c.grants.raises) :
          w.redisException eng = p.world.redisException eng :=
        (exception_tolerates hraises).built (Move.built_call c) hstep
      cases c with
      | enter hook execute_data => exact hplain.elim
      | leave hook execute_data return_value span => exact hplain.elim
      | exception args => exact absurd ⟨args, rfl⟩ hexception
      | _ => exact hcall id
    · rfl
    · rw [World.redisException, key_reparent hcli]
      rfl
    · rfl

/-- What happens in a session keeps it so. -/
theorem Charging.step (hphp : eng.php_version_id < 80000) (h : Charging eng p)
    (hsession : InSession eng f p.world) (hstep : Happens eng natives i p p')
    (hinner : i.Inner eng.cli) : Charging eng p' := by
  have hprovider : p.world.globals.provider.isSome := hsession.provider_isSome
  cases hstep with
  | enter hent =>
    have hcall := step_enter (.of_ok hent)
    exact h.call (c := .enter _ _) id hcall rfl rfl
  | enter_unwinds hent =>
    have hcall := step_enter (.inr hent)
    exact h.call (c := .enter _ _) id hcall rfl rfl
  | @leave _ fr rest return_value w hstack hleave =>
    by_cases hredis : fr.hook = .redis
    · rw [hredis] at hleave
      obtain ⟨q, -, hclears⟩ := leave_redis_ok hprovider hleave
      obtain ⟨hcleared, -⟩ := redisLeave_ok hclears
      refine ⟨?_, ?_⟩
      · simp only [hredis, if_true, List.drop_length]
        exact hcleared
      · simp only [hredis, if_true, le_refl]
    · have hcall : Step eng natives (.call (.leave fr.hook fr.execute_data return_value fr.span))
        p.world w := .of_ok hleave
      exact h.call (c := .leave _ _ _ _) hredis hcall rfl (if_neg hredis)
  | @leave_unwinds _ fr rest return_value w hstack hleave =>
    have hredis : fr.hook ≠ .redis := by
      intro hredis
      rw [hredis] at hleave
      exact direct_leave_redis _ _ _ _ _ hleave
    have hcall : Step eng natives (.call (.leave fr.hook fr.execute_data return_value fr.span))
      p.world w := .inr hleave
    exact h.call (c := .leave _ _ _ _) hredis hcall rfl rfl
  | unwind hstack => exact ⟨h.waiting, h.charged⟩
  | event hplain hevent => exact h.event hphp hsession hplain hevent hinner

theorem Begins.charging (h : Begins eng natives p) : Charging eng p := by
  refine ⟨?_, ?_⟩
  · rw [h.opened.quiet, h.thrown, List.drop_nil]
    rfl
  · rw [h.charged]
    exact Nat.zero_le _

theorem charging_run (hphp : eng.php_version_id < 80000) (hbegins : Begins eng natives p₀)
    (hrun : Run (Happens eng natives) p₀ is p) (hinner : ∀ i ∈ is, i.Inner eng.cli) :
    Charging eng p := by
  obtain ⟨f, hstanding, -⟩ := hbegins.standing
  induction hrun with
  | nil => exact hbegins.charging
  | @snoc is i p p' hrun hlast ih =>
    have hbefore : ∀ i ∈ is, i.Inner eng.cli := fun i hi => hinner i (List.mem_append_left _ hi)
    have hi : i.Inner eng.cli := hinner i (by simp)
    exact (ih hbefore).step hphp (standing_run hstanding hrun hbefore).session hlast hi

/-- A command is charged with the last exception of Redis that was thrown in the course of it, and
with none if there was none. -/
def Charges (thrown : List Bytes) (status : Status) : Prop :=
  match thrown.getLast? with
  | some message => status = ⟨.error, message⟩
  | none => status.code ≠ .error

/-- When the exception that waits at the end of a command is the command's own. One that was thrown
before it would have to have been charged to another, or to be without a message. One that was
thrown in the course of it must have a message, and none of the commands that have ended since may
have been charged with it. -/
def Due (p : Execution φ) (fr : Frame) : Prop :=
  match (p.thrown.drop fr.since).getLast? with
  | some message => message ≠ [] ∧ 0 ∉ message ∧ p.charged < p.thrown.length
  | none => lastMessage (p.thrown.drop p.charged) = []

/-- The status that a command of Redis ends with is the one it is to be charged with, exactly when
its own exception is the one that waits. -/
theorem charges_iff {fr : Frame} {status : Status} (h : status =
      if lastMessage (p.thrown.drop p.charged) ≠ [] then
        ⟨.error, lastMessage (p.thrown.drop p.charged)⟩ else ⟨.ok, []⟩) :
    Charges (p.thrown.drop fr.since) status ↔ Due p fr := by
  unfold Charges Due
  cases hlast : (p.thrown.drop fr.since).getLast? with
  | none =>
    dsimp only
    by_cases hnone : lastMessage (p.thrown.drop p.charged) = []
    · rw [if_neg (not_not_intro hnone)] at h
      rw [h, iff_true_right hnone]
      exact StatusCode.noConfusion
    · rw [if_pos hnone] at h
      rw [h, iff_false_right hnone]
      exact fun hne => hne rfl
  | some message =>
    dsimp only
    have hthrown : p.thrown.getLast? = some message := by
      rw [List.getLast?_drop] at hlast
      split at hlast
      · cases hlast
      · exact hlast
    by_cases hwaits : p.charged < p.thrown.length
    · have hmessage : lastMessage (p.thrown.drop p.charged) = c_str message := by
        rw [lastMessage, List.getLast?_drop, if_neg (by omega), hthrown]
        rfl
      rw [hmessage] at h
      by_cases hempty : c_str message = []
      · -- Either way the status would be that of an exception without a message.
        rw [if_neg (not_not_intro hempty)] at h
        rw [h, iff_false_left (by exact fun heq => nomatch heq)]
        rintro ⟨hne, hfree, -⟩
        rw [← c_str_eq_self_iff] at hfree
        exact hne (hfree.symm.trans hempty)
      · rw [if_pos hempty] at h
        rw [h, ← c_str_eq_self_iff]
        constructor
        · intro heq
          have hself : c_str message = message := congrArg Status.message heq
          exact ⟨fun hnone => hempty (hself.trans hnone), hself, hwaits⟩
        · rintro ⟨-, hself, -⟩
          rw [hself]
    · have hnone : lastMessage (p.thrown.drop p.charged) = [] := by
        rw [List.drop_eq_nil_of_le (by omega)]
        rfl
      rw [if_neg (not_not_intro hnone)] at h
      rw [h, iff_false_left (by exact fun heq => nomatch heq)]
      exact fun hdue => hwaits hdue.2.2

/-- Which commands are charged rightly. In any run of a session, a command of Redis ends with the
status of the exception thrown in the course of it, if there was one, exactly when the exception is
due to it. -/
theorem redis_errors_charged_iff {fr : Frame} {rest : List Frame} {return_value : Zval}
    (hphp : eng.php_version_id < 80000) (hbegins : Begins eng natives p₀)
    (hrun : Run (Happens eng natives) p₀ is p) (hinner : ∀ i ∈ is, i.Inner eng.cli)
    (hstack : p.stack = fr :: rest) (hredis : fr.hook = .redis) (hspan : fr.span = some q)
    (hin : InRequest eng p.world q) (hleave : Happens eng natives (.leave return_value) p p') :
    ∃ s, p'.world.memory.spans.cell q = some s ∧
      (Charges (p.thrown.drop fr.since) s.status ↔ Due p fr) := by
  obtain ⟨f, hstanding₀, -⟩ := hbegins.standing
  have hstanding := standing_run hstanding₀ hrun hinner
  have hcharging := charging_run hphp hbegins hrun hinner
  have hprovider : p.world.globals.provider.isSome := hstanding.session.provider_isSome
  have hpending : q ∈ p.pending := by
    rw [Execution.pending, hstack, List.filterMap_cons_some hspan]
    exact List.mem_cons_self
  have hfresh : p.world.FreshAt q := by
    obtain rfl | ⟨hlt, -⟩ := hstanding.session.inRequest_iff.mp hin
    · exact absurd rfl (hstanding.bound q hpending).1
    · exact hstanding.fresh q hpending hlt
  cases hleave with
  | leave hstack' h =>
    obtain ⟨rfl, rfl⟩ := List.cons.inj (hstack.symm.trans hstack')
    rw [hredis, hspan] at h
    obtain ⟨q', hq', hends⟩ := leave_redis_ok hprovider h
    obtain rfl := Option.some.inj hq'
    obtain ⟨-, s, hs, hout⟩ := redisLeave_ok hends
    obtain ⟨s', hs', hstatus, -⟩ := hfresh
    obtain rfl : s = s' := Option.some.inj (hs.symm.trans hs')
    obtain ⟨t, ht, houtcome⟩ := Option.map_eq_some_iff.mp hout
    refine ⟨t, ht, charges_iff ?_⟩
    rw [(Prod.mk.inj houtcome).1, hcharging.waiting, hstatus]
    rfl
  | leave_unwinds hstack' h =>
    obtain ⟨rfl, rfl⟩ := List.cons.inj (hstack.symm.trans hstack')
    rw [hredis] at h
    exact absurd h (direct_leave_redis _ _ _ _ _)

end

/-- PHP 7.4, in which all exceptions say the same. -/
def Engine.gone : Engine Unit := { Engine.connected false with
  php_version_id := 70400
  read_property := fun _ _ name =>
    if name = lit "line" then some (.long 3) else some (.string (lit "gone")) }

def connectionLost : Happening Unit :=
  .event (.call (.exception (some ⟨.null, lit "RedisException", []⟩)))

/-- Whether the one command under way, whose span is at `q`, returns as `P` says. -/
def returnsSo (q : Nat) (P : Execution Unit → Frame → Option Span → Bool) (p : Execution Unit)
    (_ : World Unit) : Bool :=
  match p.stack, p.play Engine.gone .bare (.leave .null) with
  | [fr], some p' => decide (fr.hook = .redis) && decide (fr.span = some q) &&
      decide (p.world.first Engine.gone = some 0) && decide (0 < q) &&
      decide (q < p.world.memory.spans.next) && P p fr (p'.world.memory.spans.cell q)
  | _, _ => false

theorem returnsSo_eq_true {P : Execution Unit → Frame → Option Span → Bool}
    {p p₀ : Execution Unit} {is : List (Happening Unit)} {w : World Unit}
    (h : returnsSo q P p w = true) (hbegins : Begins Engine.gone .bare p₀)
    (hrun : Run (Happens Engine.gone .bare) p₀ is p) (hinner : ∀ i ∈ is, i.Inner false) :
    ∃ fr p', p.stack = [fr] ∧ fr.hook = .redis ∧ fr.span = some q ∧ InRequest Engine.gone p.world q ∧
      Happens Engine.gone .bare (.leave .null) p p' ∧ P p fr (p'.world.memory.spans.cell q) = true := by
  unfold returnsSo at h
  split at h
  · rename_i fr p' hstack hplay
    simp only [Bool.and_eq_true, decide_eq_true_eq] at h
    obtain ⟨⟨⟨⟨⟨hhook, hspan⟩, hfirst⟩, hpos⟩, hlt⟩, hP⟩ := h
    obtain ⟨f, hstanding, -⟩ := hbegins.standing
    have hsession := (standing_run hstanding hrun hinner).session
    obtain rfl : f = 0 := Option.some.inj (hsession.first.symm.trans hfirst)
    exact ⟨fr, p', hstack, hhook, hspan, hsession.inRequest_iff.mpr (.inr ⟨hpos, hlt⟩),
      happens_of_play hplay, hP⟩
  · cases h

/-- A command that loses its connection is charged with it. -/
theorem redis_errors_charged_own : ∃ (p₀ p p' : Execution Unit) (s : Span),
    Begins Engine.gone .bare p₀ ∧
      Run (Happens Engine.gone .bare) p₀ [.enter .redis getFrame, connectionLost] p ∧
      Happens Engine.gone .bare (.leave .null) p p' ∧
      p'.world.memory.spans.cell 1 = some s ∧ s.status = ⟨.error, lit "gone"⟩ := by
  have hinner : ∀ i ∈ [.enter .redis getFrame, connectionLost], Happening.Inner false i := by
    intro i hi
    simp only [List.mem_cons, List.not_mem_nil, or_false] at hi
    obtain rfl | rfl := hi <;> trivial
  obtain ⟨p₀, p, w, hbegins, -, hrun, -, hP⟩ :=
    played_request Engine.gone .bare [.enter .redis getFrame, connectionLost]
      (returnsSo 1 fun p fr _ => decide (p.thrown = [lit "gone"] ∧ fr.since = 0 ∧ p.charged = 0))
      rfl (by decide +kernel)
  obtain ⟨fr, p', hstack, hredis, hspan, hin, hleave, hfacts⟩ :=
    returnsSo_eq_true hP hbegins hrun hinner
  obtain ⟨hthrown, hsince, hcharged⟩ := of_decide_eq_true hfacts
  obtain ⟨s, hs, hiff⟩ := redis_errors_charged_iff (by decide) hbegins hrun hinner hstack hredis
    hspan hin hleave
  have hgone : lit "gone" ≠ [] ∧ 0 ∉ lit "gone" ∧ 0 < [lit "gone"].length := by decide
  have hdue : Due p fr := by
    rw [Due, hthrown, hsince, hcharged]
    exact hgone
  have hcharges := hiff.mpr hdue
  rw [hthrown, hsince] at hcharges
  exact ⟨p₀, p, p', s, hbegins, hrun, hleave, hs, hcharges⟩

/-- A connection is lost outside of any hooked command. The next command, in which nothing is
thrown, is charged with it. -/
theorem redis_error_misplaced : ∃ (p₀ p p' : Execution Unit) (fr : Frame) (s : Span),
    Begins Engine.gone .bare p₀ ∧
      Run (Happens Engine.gone .bare) p₀ [connectionLost, .enter .redis getFrame] p ∧
      p.stack = [fr] ∧ fr.hook = .redis ∧ fr.span = some 2 ∧ InRequest Engine.gone p.world 2 ∧
      Happens Engine.gone .bare (.leave .null) p p' ∧ p'.world.memory.spans.cell 2 = some s ∧
      p.thrown.drop fr.since = [] ∧ ¬ Charges (p.thrown.drop fr.since) s.status := by
  have hinner : ∀ i ∈ [connectionLost, .enter .redis getFrame], Happening.Inner false i := by
    intro i hi
    simp only [List.mem_cons, List.not_mem_nil, or_false] at hi
    obtain rfl | rfl := hi <;> trivial
  obtain ⟨p₀, p, w, hbegins, -, hrun, -, hP⟩ :=
    played_request Engine.gone .bare [connectionLost, .enter .redis getFrame]
      (returnsSo 2 fun p fr cell => decide (p.thrown.drop fr.since = []) &&
        cell.any fun s => decide (s.status.code = StatusCode.error)) rfl (by decide +kernel)
  obtain ⟨fr, p', hstack, hredis, hspan, hin, hleave, hfacts⟩ :=
    returnsSo_eq_true hP hbegins hrun hinner
  obtain ⟨hnone, herror⟩ := Bool.and_eq_true_iff.mp hfacts
  obtain ⟨s, hs, hcode⟩ := (Option.any_eq_true _ _).mp herror
  have hthrown : p.thrown.drop fr.since = [] := of_decide_eq_true hnone
  refine ⟨p₀, p, p', fr, s, hbegins, hrun, hstack, hredis, hspan, hin, hleave, hs, hthrown, ?_⟩
  rw [hthrown]
  exact fun hcharges => hcharges (of_decide_eq_true hcode)

end opentelemetry
