import OpentelemetryExt.OtelExporter.Pool
import OpentelemetryExt.OtelExporter.Frames

open heap stateful run channel

namespace opentelemetry

namespace OtelExporter

/-- Up to 280 datagrams the quotient is precise enough for the last of them to be counted. -/
theorem clearOfMultiple_of_le {n : Nat} (hlarge : maxUdpSize < n) (hsmall : n ≤ 280 * maxUdpSize) :
    ClearOfMultiple n := by
  simp only [maxUdpSize] at hlarge hsmall
  have hlog : Nat.log 2 n ≤ 24 := Nat.lt_succ_iff.mp (Nat.log_lt_of_lt_pow (by omega) (by omega))
  have hk : (n - 1) / 60000 ≤ 279 := by omega
  have hpow : 2 ^ Nat.log 2 ((n - 1) / 60000) ≤ 279 :=
    (Nat.pow_log_le_self 2 (by omega)).trans hk
  left
  simp only [maxUdpSize]
  generalize hq : (n - 1) / 60000 = k at hk hpow
  generalize 2 ^ Nat.log 2 k = x at hpow
  by_cases hfine : Nat.log 2 n = 24
  · have hlow : 2 ^ 24 ≤ n := by
      rw [← hfine]
      exact Nat.pow_log_le_self 2 (by omega)
    rw [hfine]
    norm_num
    omega
  · have hunit : Nat.log 2 n - 23 = 0 := by omega
    rw [hunit]
    norm_num
    omega

namespace Sent

variable {s : Sent}

/-- What the frames carry is the payload. -/
theorem flatten_parts (hframed : s.Framed) (hsmall : s.data.length ≤ 280 * maxUdpSize) :
    ((List.range s.shards).map s.part).flatten = s.data := by
  have hint : s.data.length < 2 ^ 31 := by
    simp only [maxUdpSize] at hsmall
    omega
  have hsize := dataSize_of_lt hint
  have hlarge : maxUdpSize < s.data.length := by
    rw [Framed, hsize] at hframed
    exact_mod_cast hframed
  have hcount : ¬ s.shards ≤ (s.data.length - 1) / maxUdpSize := by
    rw [shards, hsize, Int.toNat_natCast, shards_le_multiple_iff hlarge hint, not_not]
    exact clearOfMultiple_of_le hlarge hsmall
  have hparts : (List.range s.shards).map s.part =
      (List.range s.shards).map fun i => (s.data.drop (i * maxUdpSize)).take maxUdpSize := rfl
  rw [hparts, flatten_chunks, List.take_eq_self_iff]
  generalize s.shards = shards at hcount
  simp only [maxUdpSize] at hcount ⊢
  omega

end Sent

/-- What a collector gets: the datagrams that are not frames, and the messages that are put
together of frames. -/
def Collects (delivered : List Bytes) (data : Bytes) : Prop :=
  data ∈ delivered ∧ parseFrame data = none ∨ ∃ id, reassemble id delivered = some data

/-- All that was sent of the payload has come. -/
def Arrived (delivered : List Bytes) (s : Sent) : Prop :=
  ∃ datagrams, s.send = .ok datagrams ∧ datagrams ≠ [] ∧ ∀ d ∈ datagrams, d ∈ delivered

section

variable {sends : List Sent} {delivered : List Bytes} {s : Sent}

/-- A payload that needs no frame arrives as it is. -/
theorem arrived_unframed (hframed : ¬ s.Framed) :
    Arrived delivered s ↔ s.data ≠ [] ∧ s.data ∈ delivered := by
  rw [Arrived, Sent.send, sendTracerByUDP, if_pos (not_lt.mp hframed)]
  by_cases hnil : s.data = []
  · simp [hnil]
  · simp [hnil]

theorem arrived_framed (hframed : s.Framed) :
    Arrived delivered s ↔ ∀ i < s.shards, s.frame i ∈ delivered := by
  obtain ⟨datagrams, hsend, hall⟩ := Sent.send_framed hframed
  constructor
  · rintro ⟨datagrams', hsend', -, harrived⟩ i hi
    obtain rfl : datagrams = datagrams' := Except.ok.inj (hsend.symm.trans hsend')
    exact harrived _ ((hall _).mpr ⟨i, hi, rfl⟩)
  · intro harrived
    refine ⟨datagrams, hsend, ?_, fun d hd => ?_⟩
    · exact List.ne_nil_of_mem ((hall _).mpr ⟨0, Sent.shards_pos hframed, rfl⟩)
    · obtain ⟨i, hi, rfl⟩ := (hall d).mp hd
      exact harrived i hi

/-- A message is put together under the id of one that was sent in frames. -/
theorem framed_of_reassemble (hserial : Serialised sends) (hdelivers : Delivers sends delivered)
    {id data : Bytes} (h : reassemble id delivered = some data) :
    ∃ s ∈ sends, s.Framed ∧ id = Hex.encode s.id := by
  unfold reassemble at h
  generalize hframes : received id delivered = frames at h
  cases frames with
  | nil => cases h
  | cons frame frames =>
    have hmem : frame ∈ received id delivered := by
      rw [hframes]
      exact List.mem_cons_self
    obtain ⟨⟨d, hd, hparse⟩, hid⟩ := mem_received.mp hmem
    obtain ⟨s, hs, datagrams, hsend, hsent⟩ := hdelivers d hd
    have hframed : s.Framed := by
      by_contra hunframed
      rw [parseFrame_unframed hserial hs hunframed hsend hsent] at hparse
      cases hparse
    obtain ⟨datagrams', hsend', hall⟩ := Sent.send_framed hframed
    obtain rfl : datagrams = datagrams' := Except.ok.inj (hsend.symm.trans hsend')
    obtain ⟨i, -, rfl⟩ := (hall d).mp hsent
    rw [Sent.parse_frame, Option.some.injEq] at hparse
    refine ⟨s, hs, hframed, ?_⟩
    rw [← hid, ← hparse]

/-- A collector gets a payload if and only if all that was sent of it has come. -/
theorem collects_iff (hids : (sends.map Sent.id).Nodup) (hserial : Serialised sends)
    (hsmall : ∀ s ∈ sends, s.data.length ≤ 280 * maxUdpSize) (hdelivers : Delivers sends delivered)
    (data : Bytes) : Collects delivered data ↔ ∃ s ∈ sends, s.data = data ∧ Arrived delivered s := by
  constructor
  · rintro (⟨hdata, hparse⟩ | ⟨id, hdata⟩)
    · obtain ⟨s, hs, datagrams, hsend, hsent⟩ := hdelivers data hdata
      by_cases hframed : s.Framed
      · obtain ⟨datagrams', hsend', hall⟩ := Sent.send_framed hframed
        obtain rfl : datagrams = datagrams' := Except.ok.inj (hsend.symm.trans hsend')
        obtain ⟨i, -, rfl⟩ := (hall data).mp hsent
        rw [Sent.parse_frame] at hparse
        cases hparse
      · obtain ⟨datagrams', hsend', hall⟩ := Sent.send_unframed hframed
        obtain rfl : datagrams = datagrams' := Except.ok.inj (hsend.symm.trans hsend')
        obtain ⟨rfl, hne⟩ := hall data hsent
        exact ⟨s, hs, rfl, (arrived_unframed hframed).mpr ⟨hne, hdata⟩⟩
    · obtain ⟨s, hs, hframed, rfl⟩ := framed_of_reassemble hserial hdelivers hdata
      rw [reassemble_eq hids hserial hdelivers hs hframed] at hdata
      split at hdata
      · rename_i hall
        rw [Sent.flatten_parts hframed (hsmall s hs)] at hdata
        exact ⟨s, hs, Option.some.inj hdata, (arrived_framed hframed).mpr hall⟩
      · cases hdata
  · rintro ⟨s, hs, rfl, harrived⟩
    by_cases hframed : s.Framed
    · right
      refine ⟨Hex.encode s.id, ?_⟩
      rw [reassemble_eq hids hserial hdelivers hs hframed, if_pos ((arrived_framed hframed).mp harrived),
        Sent.flatten_parts hframed (hsmall s hs)]
    · obtain ⟨hne, hmem⟩ := (arrived_unframed hframed).mp harrived
      left
      exact ⟨hmem, parseFrame_of_newline (hserial s hs hframed hne)⟩

end

end OtelExporter

section

variable {φ : Type} {encode : Message → Bytes} {turns : List (Turn φ)} {h h' : Host φ}

/-- Some process has exported the message in the course of the turns. -/
def ExportedIn (encode : Message → Bytes) (turns : List (Turn φ)) (msg : Bytes) : Prop :=
  ∃ before after h i p m, turns = before ++ after ∧ Run (Host.Moves encode) .empty before h ∧
    h.processes.cell i = some p ∧ m ∈ p.world.exported ∧ encode m = msg

theorem ExportedIn.snoc {msg : Bytes} (hexported : ExportedIn encode turns msg) (turn : Turn φ) :
    ExportedIn encode (turns ++ [turn]) msg := by
  obtain ⟨before, after, h, i, p, m, rfl, hrun, hp, hm, hmsg⟩ := hexported
  exact ⟨before, after ++ [turn], h, i, p, m, List.append_assoc _ _ _, hrun, hp, hm, hmsg⟩

/-- Only a process that is there tries to send. -/
theorem tried_of_moves {turn : Turn φ} (hturn : Host.Moves encode turn h h') (j : Nat) :
    tried j h'.log = tried j h.log ∨ (h'.processes.cell j).isSome = true := by
  cases hturn with
  | boot => exact .inl rfl
  | event => exact .inl rfl
  | fork => exact .inl rfl
  | shutdown => exact .inl rfl
  | exit => exact .inl rfl
  | @call _ u i p call rest more hp hcalls hperform =>
    obtain ⟨os, hmade⟩ := made_of_perform hperform
    by_cases hj : j = i
    · right
      subst hj
      have hcell : u.processes.cell j = some p := by
        rw [hmade.processes]
        exact hp
      simp [Host.withProcess, hcell]
    · left
      change tried j u.log = _
      rw [hmade.log, tried_append, hmade.others j hj, List.append_nil]
  | openQueue =>
    obtain ⟨stage, hopen, -⟩ := Host.openQueue_eq _ _ _
    rw [hopen]
    exact .inl rfl
  | receive hc hlives hstage hreceive =>
    left
    obtain ⟨-, -, -, rfl⟩ | ⟨msg, directory, -, rfl⟩ := Host.receive_cases hreceive
    · rfl
    · change tried j (_ ++ _) = _
      rw [tried_append]
      exact List.append_nil _

/-- What has been tried to send was exported, also by a process that is gone. -/
theorem exported_of_tried (hrun : Run (Host.Moves encode) .empty turns h) {j : Nat} {msg : Bytes}
    (hmsg : msg ∈ tried j h.log) : ExportedIn encode turns msg := by
  induction hrun with
  | nil => cases hmsg
  | @snoc turns turn u v hbefore hturn ih =>
    obtain hsame | hlives := tried_of_moves hturn j
    · rw [hsame] at hmsg
      exact (ih hmsg).snoc turn
    · have hwhole := hbefore.snoc hturn
      obtain ⟨p, hp⟩ := Option.isSome_iff_exists.mp hlives
      have hmem : msg ∈ p.world.exported.map encode := by
        rw [(accounted_run hwhole).tried j p hp]
        exact List.mem_append_left _ hmsg
      obtain ⟨m, hm, rfl⟩ := List.mem_map.mp hmem
      exact ⟨_, [], v, j, p, m, (List.append_nil _).symm, hwhole, hp, hm, rfl⟩

theorem received_of_mem {log : List Observed} {t : Nat} {msg : Bytes} (hmsg : msg ∈ receivedBy t log) :
    ∃ mq, .received t mq msg ∈ log := by
  obtain ⟨o, ho, hreceived⟩ := List.mem_filterMap.mp hmsg
  cases o with
  | received u mq a =>
    change (if u = t then some a else none) = some msg at hreceived
    split at hreceived
    · rename_i hu
      rw [← hu, ← Option.some.inj hreceived]
      exact ⟨mq, ho⟩
    · cases hreceived
  | _ => cases hreceived

theorem accepted_of_mem {log : List Observed} {mq : Nat} {msg : Bytes}
    (hmsg : msg ∈ accepted mq (uses log)) : ∃ i, .accepted i mq msg ∈ log := by
  obtain ⟨use, huse, hput⟩ := List.mem_filterMap.mp hmsg
  obtain ⟨o, ho, hsame⟩ := List.mem_filterMap.mp huse
  cases o with
  | accepted i mq' a =>
    cases hsame
    change (if mq' = mq then some a else none) = some msg at hput
    split at hput
    · rename_i hmq
      rw [← hmq, ← Option.some.inj hput]
      exact ⟨i, ho⟩
    · cases hput
  | _ => cases hsame <;> cases hput

/-- What a consumer has received was accepted from a process. -/
theorem tried_of_received (hrun : Run (Host.Moves encode) .empty turns h) {t : Nat} {msg : Bytes}
    (hmsg : msg ∈ receivedBy t h.log) : ∃ i, msg ∈ tried i h.log := by
  obtain ⟨mq, hreceived⟩ := received_of_mem hmsg
  have hfetched : msg ∈ fetched mq (uses h.log) :=
    List.mem_filterMap.mpr ⟨.take mq msg, List.mem_filterMap.mpr ⟨_, hreceived, rfl⟩, if_pos rfl⟩
  have haccepted : msg ∈ accepted mq (uses h.log) := by
    rw [Directory.balanced (accounted_run hrun).directory mq]
    exact List.mem_append_left _ hfetched
  obtain ⟨i, hi⟩ := accepted_of_mem haccepted
  exact ⟨i, List.mem_filterMap.mpr ⟨_, hi, if_pos rfl⟩⟩

theorem QueueSettings.mem_passed {s : QueueSettings} {msg a : Bytes} (h : a ∈ s.passed msg) :
    a = msg := by
  unfold QueueSettings.passed at h
  split at h
  · exact List.mem_singleton.mp h
  · cases h

theorem exported_of_passed (hrun : Run (Host.Moves encode) .empty turns h) {t : Nat} {c : Consumer}
    (hc : h.consumers.cell t = some c) {msg : Bytes} (hmsg : msg ∈ c.passed) :
    ExportedIn encode turns msg := by
  rw [(accounted_run hrun).passed t c hc] at hmsg
  obtain ⟨a, ha, hpassed⟩ := List.mem_flatMap.mp hmsg
  obtain rfl := QueueSettings.mem_passed hpassed
  obtain ⟨i, hi⟩ := tried_of_received hrun ha
  exact exported_of_tried hrun hi

/-- No consumer passes on more than its buffer has room for. -/
def Host.Fits (h : Host φ) : Prop :=
  ∀ t c, h.consumers.cell t = some c → ∀ msg ∈ c.passed, msg.length ≤ size_t c.settings.max_message_size

theorem Host.Fits.withConsumer {t : Nat} {c : Consumer} (hfits : h.Fits)
    (hc : ∀ msg ∈ c.passed, msg.length ≤ size_t c.settings.max_message_size) :
    (h.withConsumer t c).Fits := by
  intro u d hd
  obtain ⟨rfl, -, -, rfl⟩ | ⟨-, hd⟩ := Heap.cell_modify_cases hd
  · exact hc
  · exact hfits u d hd

theorem Host.Fits.step {turn : Turn φ} (hfits : h.Fits) (hturn : Host.Moves encode turn h h') :
    h'.Fits := by
  cases hturn with
  | boot => exact hfits
  | event => exact hfits
  | fork => exact hfits
  | shutdown => exact hfits
  | exit => exact hfits
  | call hp hcalls hperform =>
    obtain ⟨os, hmade⟩ := made_of_perform hperform
    intro t c hc
    rcases hmade.consumers with hsame | ⟨name, -, hnew⟩
    · exact hfits t c (hsame ▸ hc)
    · obtain ⟨rfl, rfl⟩ | hold := Heap.cell_alloc_cases (hnew ▸ hc)
      · exact fun msg hmsg => absurd hmsg List.not_mem_nil
      · exact hfits t c hold
  | openQueue hc hlives hstage =>
    obtain ⟨stage, hopen, -⟩ := Host.openQueue_eq _ _ _
    have hold := hfits _ _ hc
    rw [hopen]
    exact hfits.withConsumer hold
  | @receive _ _ t mq c hc hlives hstage hreceive =>
    unfold Host.receive at hreceive
    split at hreceive
    · rename_i channel hchannel
      split at hreceive
      · have hold := hfits _ _ hc
        cases hreceive
        exact hfits.withConsumer hold
      · rename_i hroom
        split at hreceive
        · rename_i msg directory htake
          cases hreceive
          obtain ⟨channel', rest, hcell, hwaiting, -⟩ := Directory.receive_eq_some_iff.mp htake
          obtain rfl : channel = channel' := Option.some.inj (hchannel.symm.trans hcell)
          have hmem : msg ∈ channel.waiting := by
            rw [hwaiting]
            exact List.mem_cons_self
          have hsize : msg.length ≤ channel.limit := channel.size_le msg hmem
          refine Host.Fits.withConsumer (h := ({ h with directory }.record (.received t mq msg)))
            hfits fun a ha => ?_
          rcases List.mem_append.mp ha with hold | hpassed
          · exact hfits t c hc a hold
          · rw [QueueSettings.mem_passed hpassed]
            dsimp only
            omega
        · cases hreceive
    · cases hreceive

theorem fits_run (hrun : Run (Host.Moves encode) .empty turns h) : h.Fits :=
  hrun.invariant (fun t c hc => by cases hc) fun _ _ _ hturn hfits => hfits.step hturn

/-- A consumer has passed the payload on to its UDP exporter. The messages it has room for fit 280
datagrams. -/
def Relayed (h : Host φ) (s : OtelExporter.Sent) : Prop :=
  ∃ t c, h.consumers.cell t = some c ∧ c_str c.settings.receiver_type = lit "udp" ∧
    size_t c.settings.max_message_size ≤ 280 * OtelExporter.maxUdpSize ∧ s.data ∈ c.passed

/-- Whatever the processes of a machine do, and whatever the network loses, repeats or reorders, a
collector gets a request if and only if all its datagrams have come, and each request that it gets
is one that a process has exported, byte for byte. -/
theorem collected_exported {sends : List OtelExporter.Sent} {delivered : List Bytes}
    (hrun : Run (Host.Moves encode) .empty turns h)
    (hencode : ∀ m, encode m ≠ [] → (encode m).head? = some 10)
    (hrelayed : ∀ s ∈ sends, Relayed h s) (hids : (sends.map OtelExporter.Sent.id).Nodup)
    (hdelivers : OtelExporter.Delivers sends delivered) (data : Bytes) :
    (OtelExporter.Collects delivered data ↔
      ∃ s ∈ sends, s.data = data ∧ OtelExporter.Arrived delivered s) ∧
    (OtelExporter.Collects delivered data → ExportedIn encode turns data) := by
  have hexported (s : OtelExporter.Sent) (hs : s ∈ sends) : ExportedIn encode turns s.data := by
    obtain ⟨t, c, hc, -, -, hpassed⟩ := hrelayed s hs
    exact exported_of_passed hrun hc hpassed
  have hserial : OtelExporter.Serialised sends := by
    intro s hs _ hne
    obtain ⟨before, after, u, i, p, m, -, -, -, -, hm⟩ := hexported s hs
    rw [← hm] at hne ⊢
    exact hencode m hne
  have hsmall (s : OtelExporter.Sent) (hs : s ∈ sends) :
      s.data.length ≤ 280 * OtelExporter.maxUdpSize := by
    obtain ⟨t, c, hc, -, hbuffer, hpassed⟩ := hrelayed s hs
    exact (fits_run hrun t c hc s.data hpassed).trans hbuffer
  have hiff := OtelExporter.collects_iff hids hserial hsmall hdelivers data
  refine ⟨hiff, fun hcollects => ?_⟩
  obtain ⟨s, hs, rfl, -⟩ := hiff.mp hcollects
  exact hexported s hs

variable (encode) in
/-- A message that a queue admits waits in it behind the others. -/
theorem send_admitted {i mq : Nat} {p : PhpProcess φ} {msg : Bytes} {rest : List QueueCall}
    {channel : Channel (List.length : Bytes → Nat)} (hp : h.processes.cell i = some p)
    (hcalls : p.calls = .try_send mq msg :: rest)
    (hchannel : h.directory.channels.cell mq = some channel) (hadmits : channel.Admits msg) :
    ∃ h', Host.Moves encode (.call i) h h' ∧ (h'.processes.cell i).isSome ∧
      h'.consumers = h.consumers ∧ h'.directory.waiting mq = channel.waiting ++ [msg] ∧
      ∃ channel', h'.directory.channels.cell mq = some channel' ∧ channel'.limit = channel.limit := by
  have hsend : h.directory.trySend mq msg = .ok (h.directory.modify mq fun c => c.push msg) :=
    Directory.trySend_eq_ok_iff.mpr ⟨channel, hchannel, hadmits, rfl⟩
  have hperform : h.perform i p.settings (.try_send mq msg) =
      some (Host.record (.accepted i mq msg)
        { h with directory := h.directory.modify mq fun c => c.push msg }, []) := by
    simp only [Host.perform, hsend]
  refine ⟨_, .call hp hcalls hperform, ?_, rfl, ?_, channel.push msg, ?_, Channel.push_limit _ _⟩
  · change ((h.processes.modify i _).cell i).isSome = true
    rw [Heap.cell_modify_self, hp]
    rfl
  · change (h.directory.modify mq _).waiting mq = _
    rw [Directory.waiting_modify_self _ hchannel, Channel.push_waiting hadmits]
  · change (h.directory.channels.modify mq _).cell mq = _
    rw [Heap.cell_modify_self, hchannel]
    rfl

end

/-- A request under the tag of its only field, which takes 60000 bytes. -/
def padded (message : Message) : Bytes :=
  10 :: List.replicate OtelExporter.maxUdpSize (UInt8.ofNat message.length)

/-- A worker that may send requests of 100000 bytes. -/
def bulkWorker : PhpProcess Unit := { worker with settings := ⟨10, 100000, lit "udp"⟩ }

/-- It serves one request, up to the call that tries to send it. -/
def bulkTurns : List (Turn Unit) :=
  [.boot bulkWorker [] [], .call 0, .call 0, .call 0, .openQueue 0, .event 0 .request_init,
    .event 0 .request_shutdown, .call 0]

/-- The request of the worker, as its consumer sends it. -/
def bulkSent : OtelExporter.Sent := ⟨[1], 10 :: List.replicate OtelExporter.maxUdpSize 1⟩

theorem length_bulkSent : bulkSent.data.length = 60001 := by
  rw [bulkSent, List.length_cons, List.length_replicate]
  rfl

theorem framed_bulkSent : bulkSent.Framed := by
  rw [OtelExporter.Sent.Framed, OtelExporter.dataSize_of_lt (by rw [length_bulkSent]; decide),
    length_bulkSent]
  decide

/-- What the worker exports is on its way to a queue with room for it. -/
def Host.sending (h : Host Unit) (mq : Nat) : Bool :=
  match h.processes.cell 0, h.consumers.cell 0, h.directory.channels.cell mq with
  | some p, some c, some channel =>
    match p.calls with
    | [.try_send mq' _] => decide (mq' = mq ∧ p.world.exported.map List.length = [1] ∧
        tried 0 h.log = [] ∧ c.process = 0 ∧ c.stage = .receiving mq ∧
        c.settings = bulkWorker.settings ∧ channel.limit = 100000 ∧ channel.capacity = 10 ∧
        channel.waiting = [])
    | _ => false
  | _, _, _ => false

/-- The queue accepts the request of the worker, and the consumer passes it on. -/
theorem relayed_bulk : ∃ h : Host Unit,
    Run (Host.Moves padded) .empty (bulkTurns ++ [.call 0] ++ [.receive 0]) h ∧
      Relayed h bulkSent := by
  have hplay : ((bulkTurns.foldlM (Host.play padded) .empty).any fun h => h.sending 0) = true := by
    decide +kernel
  obtain ⟨h, hrun, hsending⟩ := Host.run_play hplay
  unfold Host.sending at hsending
  split at hsending
  · rename_i p c channel hp hc hchannel
    split at hsending
    · rename_i mq msg hcalls
      obtain ⟨rfl, hexported, huntried, hprocess, hstage, hsettings, hlimit, hcapacity, hempty⟩ :=
        of_decide_eq_true hsending
      obtain ⟨m, hm, hlength⟩ := List.map_eq_singleton_iff.mp hexported
      have htried : p.world.exported.map padded = tried 0 h.log ++ unsent p.calls :=
        (accounted_run hrun).tried 0 p hp
      obtain rfl : msg = bulkSent.data := by
        rw [hm, huntried, hcalls, List.map_singleton, padded, hlength] at htried
        exact (List.cons.inj htried).1.symm
      have hadmits : channel.Admits bulkSent.data := by
        rw [Channel.Admits, length_bulkSent, hlimit, hempty, hcapacity]
        decide
      obtain ⟨h₁, hcall, hlives, hconsumers, hwaiting, channel₁, hchannel₁, hlimit₁⟩ :=
        send_admitted padded hp hcalls hchannel hadmits
      rw [hempty, List.nil_append] at hwaiting
      obtain ⟨h₂, hreceive, -, -, -, hpassed, -⟩ :=
        receive_next padded (hconsumers ▸ hc) (hprocess ▸ hlives) hstage
          ⟨channel₁, hchannel₁, by rw [hlimit₁, hlimit, hsettings]; decide⟩ hwaiting
      refine ⟨h₂, (hrun.snoc hcall).snoc hreceive, 0, _, hpassed, ?_, ?_, ?_⟩
      · rw [hsettings]
        rfl
      · rw [hsettings]
        decide
      · rw [hsettings]
        exact List.mem_append_right _ (List.mem_singleton.mpr rfl)
    · cases hsending
  · cases hsending

/-- The two datagrams of the request come twice, in either order. -/
theorem collected_exported_twice : ∃ (h : Host Unit) (datagrams : List Bytes),
    Run (Host.Moves padded) .empty (bulkTurns ++ [.call 0] ++ [.receive 0]) h ∧
      Relayed h bulkSent ∧ bulkSent.send = .ok datagrams ∧
      OtelExporter.Collects (datagrams.reverse ++ datagrams) bulkSent.data ∧
      ExportedIn padded (bulkTurns ++ [.call 0] ++ [.receive 0]) bulkSent.data := by
  obtain ⟨h, hrun, hrelayed⟩ := relayed_bulk
  obtain ⟨datagrams, hsend, hframes⟩ := OtelExporter.Sent.send_framed framed_bulkSent
  have hdelivers : OtelExporter.Delivers [bulkSent] (datagrams.reverse ++ datagrams) :=
    fun d hd => ⟨bulkSent, List.mem_singleton_self _, datagrams, hsend, by simpa using hd⟩
  have hall : ∀ s ∈ [bulkSent], Relayed h s := fun s hs => by rwa [List.mem_singleton.mp hs]
  obtain ⟨hiff, hexported⟩ :=
    collected_exported hrun (fun m _ => rfl) hall (by simp) hdelivers bulkSent.data
  have harrived : OtelExporter.Arrived (datagrams.reverse ++ datagrams) bulkSent := by
    refine ⟨datagrams, hsend, ?_, fun d hd => List.mem_append_right _ hd⟩
    exact List.ne_nil_of_mem
      ((hframes _).mpr ⟨0, OtelExporter.Sent.shards_pos framed_bulkSent, rfl⟩)
  have hcollects := hiff.mpr ⟨bulkSent, List.mem_singleton_self _, rfl, harrived⟩
  exact ⟨h, datagrams, hrun, hrelayed, hsend, hcollects, hexported hcollects⟩

end opentelemetry
