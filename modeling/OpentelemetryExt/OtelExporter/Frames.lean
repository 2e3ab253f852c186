import Mathlib.Data.FinEnum
import OpentelemetryExt.OtelExporter.Shards
import OpentelemetryExt.Hex
import OpentelemetryExt.Lib.Delimited

open delimited rounding

namespace opentelemetry

namespace OtelExporter

/-- What a receiver reads of a frame. -/
structure Frame where
  id : Bytes
  shards : Nat
  index : Nat
  data : Bytes
deriving DecidableEq, Repr

/-- A number in decimal digits. -/
def readDecimal (s : Bytes) : Option Nat :=
  if s ≠ [] ∧ ∀ c ∈ s, (digit 10 c).isSome then some (digits 10 0 s).1 else none

/-- The receiver's side of `warp`: the header is what stands before the first `:end:`. -/
def parseFrame (datagram : Bytes) : Option Frame := do
  let (head, data) ← cut (lit ":end:") datagram
  let (id, counts) ← cut (lit ":") head
  let (shards, index) ← cut (lit ",") counts
  if ∀ c ∈ id, IsHexDigit c then
    return ⟨id, ← readDecimal shards, ← readDecimal index, data⟩
  else none

/-- The frames of one message among the datagrams, in the order of their arrival. -/
def received (id : Bytes) (datagrams : List Bytes) : List Frame :=
  (datagrams.filterMap parseFrame).filter fun frame => frame.id = id

/-- The chunk with an index, as the first frame that has it brought it. -/
def piece (frames : List Frame) (i : Nat) : Option Bytes :=
  (frames.find? fun frame => frame.index = i).map Frame.data

/-- A message is complete when there is a frame for every index below its `shards`. -/
def reassemble (id : Bytes) (datagrams : List Bytes) : Option Bytes :=
  match received id datagrams with
  | [] => none
  | frame :: frames =>
    ((List.range frame.shards).mapM (piece (frame :: frames))).map List.flatten

theorem digits_append {base d : Nat} {c : UInt8} (hc : digit base c = some d) {s : Bytes} :
    ∀ {value : Nat}, (∀ x ∈ s, (digit base x).isSome) →
      (digits base value (s ++ [c])).1 = (digits base value s).1 * base + d := by
  induction s with
  | nil =>
    intro value _
    simp [digits, hc]
  | cons x s ih =>
    intro value hs
    obtain ⟨y, hy⟩ := Option.isSome_iff_exists.mp (hs x (by simp))
    simp only [List.cons_append, digits, hy]
    exact ih fun x hx => hs x (by simp [hx])

theorem digit_digitChar {n : Nat} (h : n < 10) :
    digit 10 (UInt8.ofNat n.digitChar.toNat) = some n := by
  interval_cases n <;> decide

theorem decimal_of_lt {n : Nat} (h : n < 10) :
    decimal n = [UInt8.ofNat n.digitChar.toNat] := by
  simp [decimal, Nat.toDigits_of_lt_base h]

theorem decimal_of_le {n : Nat} (h : 10 ≤ n) :
    decimal n = decimal (n / 10) ++ [UInt8.ofNat (n % 10).digitChar.toNat] := by
  simp [decimal, Nat.toDigits_of_base_le (by norm_num) h]

/-- Decimal digits are read back, by induction on the number without its last digit. -/
theorem decimal_digits (n : Nat) :
    (∀ c ∈ decimal n, (digit 10 c).isSome) ∧ (digits 10 0 (decimal n)).1 = n := by
  induction n using Nat.strong_induction_on with
  | _ n ih =>
    by_cases hn : n < 10
    · have hlast := digit_digitChar hn
      rw [decimal_of_lt hn]
      refine ⟨?_, ?_⟩
      · intro c hc
        rw [List.mem_singleton.mp hc, hlast]
        rfl
      · simp [digits, hlast]
    · have hlast := digit_digitChar (Nat.mod_lt n (by norm_num : 0 < 10))
      obtain ⟨hdigits, hvalue⟩ := ih (n / 10) (by omega)
      rw [decimal_of_le (by omega)]
      refine ⟨?_, ?_⟩
      · intro c hc
        rcases List.mem_append.mp hc with hc | hc
        · exact hdigits c hc
        · rw [List.mem_singleton.mp hc, hlast]
          rfl
      · rw [digits_append hlast hdigits, hvalue]
        omega

theorem decimal_ne_nil (n : Nat) : decimal n ≠ [] := by
  simp [decimal, Nat.toDigits_ne_nil]

theorem readDecimal_decimal (n : Nat) : readDecimal (decimal n) = some n := by
  obtain ⟨hdigits, hvalue⟩ := decimal_digits n
  rw [readDecimal, if_pos ⟨decimal_ne_nil n, hdigits⟩, hvalue]

theorem to_string_natCast (n : Nat) : to_string (n : Int) = decimal n := by
  rw [to_string, if_neg (by omega), Int.natAbs_natCast]

/-- Neither kind of digit is a separator of the header. -/
theorem separators_ne_digit (c : UInt8) :
    ((digit 10 c).isSome → c ≠ 44 ∧ c ≠ 58) ∧ (IsHexDigit c → c ≠ 58) := by
  revert c
  exact forall_byte (by decide +kernel)

theorem comma_not_mem_decimal (n : Nat) : 44 ∉ decimal n := fun h =>
  ((separators_ne_digit 44).1 ((decimal_digits n).1 44 h)).1 rfl

theorem colon_not_mem_decimal (n : Nat) : 58 ∉ decimal n := fun h =>
  ((separators_ne_digit 58).1 ((decimal_digits n).1 58 h)).2 rfl

/-- The colon after the id does not begin the mark, since a digit follows it. -/
theorem cut_counts (shards i : Nat) (data : Bytes) :
    cut (lit ":end:") (lit ":" ++ (decimal shards ++ lit "," ++ decimal i) ++
      (lit ":end:" ++ data)) = some (lit ":" ++ (decimal shards ++ lit "," ++ decimal i), data) := by
  have hcounts : 58 ∉ decimal shards ++ lit "," ++ decimal i := by
    have hcomma : 58 ∉ lit "," := by decide
    simp only [List.mem_append, colon_not_mem_decimal, hcomma, or_self, not_false_iff]
  have hrest : cut (lit ":end:") (decimal shards ++ lit "," ++ decimal i ++
      (lit ":end:" ++ data)) = some (decimal shards ++ lit "," ++ decimal i, data) :=
    cut_of_not_mem hcounts data
  have hmark : ¬ lit ":end:" <+: 58 :: (decimal shards ++ lit "," ++ decimal i ++
      (lit ":end:" ++ data)) := by
    intro hprefix
    obtain ⟨c, rest, hc⟩ := List.exists_cons_of_ne_nil (decimal_ne_nil shards)
    have hdigit : (digit 10 c).isSome := (decimal_digits shards).1 c (by simp [hc])
    rw [hc] at hprefix
    have hsecond := (List.cons_prefix_cons.mp (List.cons_prefix_cons.mp hprefix).2).1
    rw [← hsecond] at hdigit
    exact Bool.false_ne_true hdigit
  have hcons : lit ":" ++ (decimal shards ++ lit "," ++ decimal i) ++ (lit ":end:" ++ data) =
      58 :: (decimal shards ++ lit "," ++ decimal i ++ (lit ":end:" ++ data)) := rfl
  rw [hcons, cut_cons hmark, hrest]
  rfl

/-- Whatever the chunk contains, the receiver reads back what the sender wrote. -/
theorem parseFrame_warp (id data : Bytes) (shards i : Nat) :
    parseFrame (warp (Hex.encode id) shards i data) = some ⟨Hex.encode id, shards, i, data⟩ := by
  have hid := Hex.encode_digits id
  have hcolon : 58 ∉ Hex.encode id := fun h => (separators_ne_digit 58).2 (hid 58 h) rfl
  have hwarp : warp (Hex.encode id) shards i data = Hex.encode id ++
      (lit ":" ++ (decimal shards ++ lit "," ++ decimal i) ++ (lit ":end:" ++ data)) := by
    simp only [warp, to_string_natCast, List.append_assoc]
  have hhead : cut (lit ":end:") (warp (Hex.encode id) shards i data) =
      some (Hex.encode id ++ (lit ":" ++ (decimal shards ++ lit "," ++ decimal i)), data) := by
    have happend : cut (lit ":end:") (Hex.encode id ++
        (lit ":" ++ (decimal shards ++ lit "," ++ decimal i) ++ (lit ":end:" ++ data))) =
          (cut (lit ":end:") (lit ":" ++ (decimal shards ++ lit "," ++ decimal i) ++
            (lit ":end:" ++ data))).map fun parts => (Hex.encode id ++ parts.1, parts.2) :=
      cut_append hcolon _
    rw [hwarp, happend, cut_counts, Option.map_some]
  have hids : cut (lit ":") (Hex.encode id ++ (lit ":" ++ (decimal shards ++ lit "," ++ decimal i))) =
      some (Hex.encode id, decimal shards ++ lit "," ++ decimal i) := cut_of_not_mem hcolon _
  have hnumbers : cut (lit ",") (decimal shards ++ lit "," ++ decimal i) =
      some (decimal shards, decimal i) := by
    rw [List.append_assoc]
    exact cut_of_not_mem (comma_not_mem_decimal shards) _
  simp only [parseFrame, hhead, hids, hnumbers, readDecimal_decimal, Option.bind_eq_bind,
    Option.bind_some, if_pos hid, Option.pure_def]

/-- The first byte of a serialised request is not a digit, so it does not begin an id. -/
theorem parseFrame_of_newline {datagram : Bytes} (h : datagram.head? = some 10) :
    parseFrame datagram = none := by
  by_contra hne
  obtain ⟨frame, hparse⟩ := Option.ne_none_iff_exists'.mp hne
  simp only [parseFrame, Option.bind_eq_bind, Option.bind_eq_some_iff] at hparse
  obtain ⟨⟨head, data⟩, hhead, ⟨id, counts⟩, hid, ⟨shards, index⟩, -, hframe⟩ := hparse
  dsimp only at hid hframe
  rw [cut_eq_some hhead, cut_eq_some hid] at h
  by_cases hdigits : ∀ c ∈ id, IsHexDigit c
  · cases id with
    | nil => cases h
    | cons c id =>
      obtain rfl : c = 10 := by simpa using h
      exact absurd (hdigits 10 (by simp)) (by decide)
  · rw [if_neg hdigits] at hframe
    cases hframe

theorem mem_zipIdx_range {α : Type} {f : Nat → α} {n i : Nat} {a : α} :
    (a, i) ∈ ((List.range n).map f).zipIdx ↔ i < n ∧ a = f i := by
  rw [List.mk_mem_zipIdx_iff_getElem?, List.getElem?_map]
  by_cases hi : i < n
  · rw [List.getElem?_range hi, Option.map_some, Option.some.injEq]
    exact ⟨fun h => ⟨hi, h.symm⟩, fun h => h.2.symm⟩
  · rw [List.getElem?_eq_none (by simpa using hi)]
    simp [hi]

/-- A payload with the message id that the sender drew for it. -/
structure Sent where
  id : Bytes
  data : Bytes

namespace Sent

def send (s : Sent) : Except Fault (List Bytes) := sendTracerByUDP (Hex.encode s.id) s.data

/-- The payload does not fit one datagram. -/
def Framed (s : Sent) : Prop := maxUdpSize < dataSize s.data

def shards (s : Sent) : Nat := OtelExporter.shards (dataSize s.data).toNat

def part (s : Sent) (i : Nat) : Bytes := (s.data.drop (i * maxUdpSize)).take maxUdpSize

def frame (s : Sent) (i : Nat) : Bytes := warp (Hex.encode s.id) s.shards i (s.part i)

theorem parse_frame (s : Sent) (i : Nat) :
    parseFrame (s.frame i) = some ⟨Hex.encode s.id, s.shards, i, s.part i⟩ :=
  parseFrame_warp _ _ _ _

theorem chunks_framed {s : Sent} (h : s.Framed) :
    chunks s.data = .ok ((List.range s.shards).map s.part) := chunks_eq h

theorem shards_pos {s : Sent} (h : s.Framed) : 0 < s.shards := by
  have hmax : (0 : ℚ) < maxUdpSize := by norm_num [maxUdpSize]
  have hsize : (0 : ℚ) < ((dataSize s.data).toNat : ℚ) := by
    unfold Framed maxUdpSize at h
    exact_mod_cast (by omega : 0 < (dataSize s.data).toNat)
  have hquotient := div_pos (toFloat_pos (p := 24) (by norm_num) hsize)
    (toFloat_pos (p := 24) (by norm_num) hmax)
  exact Nat.ceil_pos.mpr (toFloat_pos (by norm_num) hquotient)

/-- The datagrams of a framed payload are its frames. -/
theorem send_framed {s : Sent} (h : s.Framed) :
    ∃ datagrams, s.send = .ok datagrams ∧
      ∀ d, d ∈ datagrams ↔ ∃ i < s.shards, d = s.frame i := by
  have hne : s.data ≠ [] := by
    intro hnil
    rw [Framed, hnil] at h
    exact absurd h (by decide)
  refine ⟨_, by rw [send, sendTracerByUDP, if_neg hne, if_neg (not_le.mpr h), chunks_framed h]; rfl,
    fun d => ?_⟩
  simp only [List.mem_flatMap, Prod.exists, mem_zipIdx_range]
  constructor
  · rintro ⟨part, i, ⟨hi, rfl⟩, hd⟩
    exact ⟨i, hi, by simpa [frame, shards] using hd⟩
  · rintro ⟨i, hi, rfl⟩
    exact ⟨s.part i, i, ⟨hi, rfl⟩, by simp [frame, shards]⟩

theorem send_unframed {s : Sent} (h : ¬ s.Framed) :
    ∃ datagrams, s.send = .ok datagrams ∧ ∀ d ∈ datagrams, d = s.data ∧ d ≠ [] := by
  rw [send, sendTracerByUDP, if_pos (not_lt.mp h)]
  by_cases hnil : s.data = []
  · exact ⟨[], by rw [if_pos hnil], by simp⟩
  · exact ⟨[s.data], by rw [if_neg hnil], by simpa using hnil⟩

end Sent

theorem mem_received {id : Bytes} {datagrams : List Bytes} {frame : Frame} :
    frame ∈ received id datagrams ↔
      (∃ d ∈ datagrams, parseFrame d = some frame) ∧ frame.id = id := by
  simp [received]

theorem mapM_eq_some {α β : Type} {f : α → Option β} {g : α → β} {l : List α}
    (h : ∀ a ∈ l, f a = some (g a)) : l.mapM f = some (l.map g) := by
  induction l with
  | nil => rfl
  | cons a l ih =>
    have hhead := h a (by simp)
    have htail := ih fun b hb => h b (by simp [hb])
    rw [List.mapM_cons, hhead, htail]
    rfl

theorem mapM_eq_none {α β : Type} {f : α → Option β} {l : List α} {a : α} (ha : a ∈ l)
    (h : f a = none) : l.mapM f = none := by
  induction l with
  | nil => cases ha
  | cons b l ih =>
    rw [List.mapM_cons]
    rcases List.mem_cons.mp ha with rfl | ha
    · rw [h]
      rfl
    · rw [ih ha]
      cases f b <;> rfl

/-- The first frame with an index serves as well as any other. -/
theorem piece_eq_some {frames : List Frame} {part : Nat → Bytes} {frame : Frame}
    (hdata : ∀ f ∈ frames, f.data = part f.index) (hmem : frame ∈ frames) :
    piece frames frame.index = some (part frame.index) := by
  have hfound : (frames.find? fun f => f.index = frame.index).isSome := by
    rw [List.find?_isSome]
    exact ⟨frame, hmem, by simp⟩
  obtain ⟨f, hf⟩ := Option.isSome_iff_exists.mp hfound
  have hindex : f.index = frame.index := by simpa using List.find?_some hf
  rw [piece, hf, Option.map_some, hdata f (List.mem_of_find?_eq_some hf), hindex]

theorem piece_eq_none {frames : List Frame} {i : Nat} (h : ∀ f ∈ frames, f.index ≠ i) :
    piece frames i = none := by
  rw [piece, Option.map_eq_none_iff, List.find?_eq_none]
  exact fun f hf => by simpa using h f hf

/-- The delivered datagrams are some of those sent, in any order and any number. -/
def Delivers (sends : List Sent) (delivered : List Bytes) : Prop :=
  ∀ d ∈ delivered, ∃ s ∈ sends, ∃ datagrams, s.send = .ok datagrams ∧ d ∈ datagrams

/-- Serialised requests that are sent as they are begin with the tag of their first field. -/
def Serialised (sends : List Sent) : Prop :=
  ∀ s ∈ sends, ¬ s.Framed → s.data ≠ [] → s.data.head? = some 10

section

variable {sends : List Sent} {delivered : List Bytes} {s : Sent}

theorem parseFrame_unframed (hserial : Serialised sends) (hs : s ∈ sends) (hframed : ¬ s.Framed)
    {datagrams : List Bytes} (hsend : s.send = .ok datagrams) {d : Bytes} (hd : d ∈ datagrams) :
    parseFrame d = none := by
  obtain ⟨datagrams', hsend', hall⟩ := Sent.send_unframed hframed
  obtain rfl : datagrams = datagrams' := Except.ok.inj (hsend.symm.trans hsend')
  obtain ⟨rfl, hne⟩ := hall d hd
  exact parseFrame_of_newline (hserial s hs hframed hne)

/-- The frames under an id are frames of the one payload that was sent under it. -/
theorem received_iff (hids : (sends.map Sent.id).Nodup) (hserial : Serialised sends)
    (hdelivers : Delivers sends delivered) (hs : s ∈ sends) (hframed : s.Framed) (frame : Frame) :
    frame ∈ received (Hex.encode s.id) delivered ↔ ∃ i < s.shards, s.frame i ∈ delivered ∧
      frame = ⟨Hex.encode s.id, s.shards, i, s.part i⟩ := by
  rw [mem_received]
  constructor
  · rintro ⟨⟨d, hd, hparse⟩, hid⟩
    obtain ⟨s', hs', datagrams, hsend, hmem⟩ := hdelivers d hd
    by_cases hframed' : s'.Framed
    · obtain ⟨datagrams', hsend', hall⟩ := Sent.send_framed hframed'
      obtain rfl : datagrams = datagrams' := Except.ok.inj (hsend.symm.trans hsend')
      obtain ⟨i, hi, rfl⟩ := (hall d).mp hmem
      rw [Sent.parse_frame, Option.some.injEq] at hparse
      subst hparse
      have hsame : s'.id = s.id := by
        rw [← Hex.decode_encode false s'.id, ← Hex.decode_encode false s.id]
        exact congrArg _ hid
      obtain rfl : s' = s := List.inj_on_of_nodup_map hids hs' hs hsame
      exact ⟨i, hi, hd, rfl⟩
    · rw [parseFrame_unframed hserial hs' hframed' hsend hmem] at hparse
      cases hparse
  · rintro ⟨i, hi, hd, rfl⟩
    exact ⟨⟨_, hd, s.parse_frame i⟩, rfl⟩

/-- A message is put together again when all its frames are there, and not before. -/
theorem reassemble_eq (hids : (sends.map Sent.id).Nodup) (hserial : Serialised sends)
    (hdelivers : Delivers sends delivered) (hs : s ∈ sends) (hframed : s.Framed) :
    reassemble (Hex.encode s.id) delivered =
      if ∀ i < s.shards, s.frame i ∈ delivered then
        some ((List.range s.shards).map s.part).flatten
      else none := by
  have hreceived := received_iff hids hserial hdelivers hs hframed
  unfold reassemble
  generalize received (Hex.encode s.id) delivered = frames at hreceived
  have hdata : ∀ f ∈ frames, f.data = s.part f.index := by
    intro f hf
    obtain ⟨i, -, -, rfl⟩ := (hreceived f).mp hf
    rfl
  by_cases hall : ∀ i < s.shards, s.frame i ∈ delivered
  · have hpiece : ∀ i ∈ List.range s.shards, piece frames i = some (s.part i) := by
      intro i hi
      have hlt := List.mem_range.mp hi
      exact piece_eq_some hdata ((hreceived _).mpr ⟨i, hlt, hall i hlt, rfl⟩)
    rw [if_pos hall]
    cases frames with
    | nil =>
      have hfirst := hpiece 0 (List.mem_range.mpr (Sent.shards_pos hframed))
      cases hfirst
    | cons frame frames =>
      obtain ⟨i, -, -, rfl⟩ := (hreceived frame).mp (by simp)
      dsimp only
      rw [mapM_eq_some hpiece, Option.map_some]
  · rw [if_neg hall]
    push Not at hall
    obtain ⟨i, hi, hmissing⟩ := hall
    have hpiece : piece frames i = none := by
      apply piece_eq_none
      intro f hf hindex
      obtain ⟨j, -, hj, rfl⟩ := (hreceived f).mp hf
      exact hmissing (hindex ▸ hj)
    cases frames with
    | nil => rfl
    | cons frame frames =>
      obtain ⟨j, -, -, rfl⟩ := (hreceived frame).mp (by simp)
      dsimp only
      rw [mapM_eq_none (List.mem_range.mpr hi) hpiece, Option.map_none]

end

/-- Of whatever is delivered of datagrams with distinct ids, a receiver gets for each id the
chunks that the sender cut, joined, as soon as each frame has come once, and nothing before;
what is not a frame is not taken for one. -/
theorem frames_reassemble {sends : List Sent} {delivered : List Bytes}
    (hids : (sends.map Sent.id).Nodup) (hserial : Serialised sends)
    (hdelivers : Delivers sends delivered) :
    ∀ s ∈ sends, ∃ datagrams, s.send = .ok datagrams ∧
      (s.Framed → ∃ parts, chunks s.data = .ok parts ∧
        reassemble (Hex.encode s.id) delivered =
          if ∀ d ∈ datagrams, d ∈ delivered then some parts.flatten else none) ∧
      (¬ s.Framed → ∀ d ∈ datagrams, parseFrame d = none) := by
  intro s hs
  by_cases hframed : s.Framed
  · obtain ⟨datagrams, hsend, hall⟩ := Sent.send_framed hframed
    refine ⟨datagrams, hsend, fun _ => ⟨_, Sent.chunks_framed hframed, ?_⟩, fun h => absurd hframed h⟩
    have hcomplete : (∀ d ∈ datagrams, d ∈ delivered) ↔ ∀ i < s.shards, s.frame i ∈ delivered := by
      simp only [hall]
      constructor
      · exact fun h i hi => h _ ⟨i, hi, rfl⟩
      · rintro h d ⟨i, hi, rfl⟩
        exact h i hi
    rw [reassemble_eq hids hserial hdelivers hs hframed]
    simp only [hcomplete]
  · obtain ⟨datagrams, hsend, -⟩ := Sent.send_unframed hframed
    exact ⟨datagrams, hsend, fun h => absurd h hframed,
      fun _ d hd => parseFrame_unframed hserial hs hframed hsend hd⟩

/-- One byte above a datagram, and nothing but colons. -/
private def colons : Sent := ⟨[1], List.replicate 60001 58⟩

private theorem dataSize_colons : dataSize colons.data = 60001 := by
  rw [dataSize_of_lt (by rw [colons, List.length_replicate]; decide), colons,
    List.length_replicate]
  rfl

private theorem shards_colons : colons.shards = 2 := by
  have hlow := (shards_le_multiple_iff (n := 60001) (by decide) (by decide)).not.mpr (by decide)
  have hhigh := shards_le_succ (n := 60001) (by decide) (by decide)
  rw [Sent.shards, dataSize_colons]
  simp only [maxUdpSize] at hlow hhigh
  exact le_antisymm hhigh (not_le.mp hlow)

/-- The frames of a payload of colons, out of order and with a short message between them. -/
theorem frames_reassemble_colons :
    reassemble (Hex.encode [1])
        [warp (Hex.encode [1]) 2 1 [58], [10], warp (Hex.encode [1]) 2 0 (List.replicate 60000 58)] =
      some (List.replicate 60001 58) := by
  have hframed : colons.Framed := by
    rw [Sent.Framed, dataSize_colons]
    decide
  have hfirst : warp (Hex.encode [1]) 2 0 (List.replicate 60000 58) = colons.frame 0 := by
    rw [Sent.frame, shards_colons, Sent.part, colons, Nat.zero_mul, List.drop_zero,
      List.take_replicate]
    rfl
  have hsecond : warp (Hex.encode [1]) 2 1 [58] = colons.frame 1 := by
    rw [Sent.frame, shards_colons, Sent.part, colons, Nat.one_mul, List.drop_replicate,
      List.take_replicate]
    rfl
  obtain ⟨datagrams, hsend, hall⟩ := Sent.send_framed hframed
  rw [shards_colons] at hall
  rw [hfirst, hsecond]
  have hdelivers : Delivers [colons, ⟨[2], [10]⟩] [colons.frame 1, [10], colons.frame 0] := by
    intro d hd
    simp only [List.mem_cons, List.not_mem_nil, or_false] at hd
    obtain rfl | rfl | rfl := hd
    · exact ⟨colons, by simp, datagrams, hsend, (hall _).mpr ⟨1, by norm_num, rfl⟩⟩
    · exact ⟨⟨[2], [10]⟩, by simp, [[10]], rfl, by simp⟩
    · exact ⟨colons, by simp, datagrams, hsend, (hall _).mpr ⟨0, by norm_num, rfl⟩⟩
  have hserial : Serialised [colons, ⟨[2], [10]⟩] := by
    intro s hs hunframed _
    simp only [List.mem_cons, List.not_mem_nil, or_false] at hs
    obtain rfl | rfl := hs
    · exact absurd hframed hunframed
    · rfl
  obtain ⟨datagrams', hsend', hreassemble, -⟩ :=
    frames_reassemble (by decide) hserial hdelivers colons (by simp)
  obtain rfl : datagrams = datagrams' := Except.ok.inj (hsend.symm.trans hsend')
  obtain ⟨parts, hparts, hresult⟩ := hreassemble hframed
  rw [Sent.chunks_framed hframed, shards_colons, Except.ok.injEq] at hparts
  have hflatten : parts.flatten = List.replicate 60001 58 := by
    have hlength : colons.data.length ≤ 2 * maxUdpSize := by
      rw [colons, List.length_replicate]
      decide
    rw [← hparts]
    exact (flatten_chunks _ _ _).trans (List.take_of_length_le hlength)
  rw [hflatten] at hresult
  refine hresult.trans (if_pos fun d hd => ?_)
  obtain ⟨i, hi, rfl⟩ := (hall d).mp hd
  interval_cases i <;> simp

end OtelExporter

end opentelemetry
