import TestIsolation.Proofs.Unit.Recording

/-!
# Channels that break

A channel takes frames one after the other until it breaks, and nothing from then on. So what it takes of some frames
is those up to one of them and perhaps a part of that (`ChannelState.exists_taken`), and a reader gets the records of
the whole ones (`exists_read`). This is how a unit's records go out, whatever its channel does (`Thread.emit_eq_send`,
`Thread.Recording.takes`).
-/

namespace TestIsolation

set_option autoImplicit false

/-- The frame in which a record is sent. -/
def Record.sentFrame (r : Record) : Bytes := frame (Bytes.ofString r.sent.payload)

/-- A channel that has broken, or will break at some time. -/
structure ChannelState where
  fault : SinkFault
  broken : Bool := false
  deriving DecidableEq, Repr

namespace ChannelState

/-- The channel once one more frame was sent. -/
def next (s : ChannelState) : ChannelState :=
  if s.broken then s
  else
    match s.fault with
    | .never => s
    | .write 0 | .tear 0 _ => { s with broken := true }
    | .write (left + 1) => { fault := .write left }
    | .tear (left + 1) taken => { fault := .tear left taken }
    | .flush left => { fault := .flush (left - 1), broken := left ≤ 1 }

/-- What the channel takes of one frame, in pieces. -/
def pieces (s : ChannelState) (bytes : Bytes) : List Bytes :=
  if s.broken then []
  else
    match s.fault with
    | .write 0 => []
    | .tear 0 taken => [bytes.dropLast.take taken]
    | _ => [bytes]

/-- What the channel takes of frames that are sent in turn. -/
def takes : ChannelState → List Bytes → Bytes
  | _, [] => []
  | s, bytes :: rest => (s.pieces bytes).flatten ++ s.next.takes rest

/-- The channel once some frames were sent. -/
def after : ChannelState → List Bytes → ChannelState
  | s, [] => s
  | s, _ :: rest => s.next.after rest

variable {s : ChannelState}

theorem takes_append (s : ChannelState) (first second : List Bytes) :
    s.takes (first ++ second) = s.takes first ++ (s.after first).takes second := by
  induction first generalizing s with
  | nil => rfl
  | cons bytes first ih => simp only [List.cons_append, takes, after, ih, List.append_assoc]

theorem after_append (s : ChannelState) (first second : List Bytes) :
    s.after (first ++ second) = (s.after first).after second := by
  induction first generalizing s with
  | nil => rfl
  | cons bytes first ih => exact ih s.next

theorem next_of_broken (broken : s.broken = true) : s.next = s := if_pos broken

/-- **Nothing is taken once the channel broke.** -/
theorem takes_of_broken (broken : s.broken = true) (frames : List Bytes) : s.takes frames = [] := by
  induction frames with
  | nil => rfl
  | cons bytes frames ih => rw [takes, next_of_broken broken, ih, pieces, if_pos broken]; rfl

/-- What may be taken of a frame at which the channel breaks: a part, but not the whole. -/
def Torn (frame? : Option Bytes) (torn : Bytes) : Prop :=
  torn = [] ∨ ∃ bytes, frame? = some bytes ∧ torn <+: bytes ∧ torn ≠ bytes

/-- A frame is taken whole, or the channel breaks at it. -/
theorem pieces_cases (s : ChannelState) {bytes : Bytes} (some_ : bytes ≠ []) :
    (s.pieces bytes).flatten = bytes ∨ s.next.broken = true ∧ Torn (some bytes) (s.pieces bytes).flatten := by
  obtain ⟨fault, broken⟩ := s
  cases broken with
  | true => exact .inr ⟨rfl, .inl rfl⟩
  | false =>
    match fault with
    | .never | .write (_ + 1) | .tear (_ + 1) _ | .flush _ => exact .inl (List.append_nil bytes)
    | .write 0 => exact .inr ⟨rfl, .inl rfl⟩
    | .tear 0 taken =>
      have torn : (pieces ⟨.tear 0 taken, false⟩ bytes).flatten = bytes.dropLast.take taken := List.append_nil _
      rw [torn]
      refine .inr ⟨rfl, .inr ⟨bytes, rfl, (List.take_prefix _ _).trans (List.dropLast_prefix _), fun whole => ?_⟩⟩
      have length := congrArg List.length whole
      have positive := List.length_pos_iff.2 some_
      simp only [List.length_take, List.length_dropLast] at length
      omega

/-- **A channel takes frames up to one**, and perhaps a part of that. -/
theorem exists_taken (s : ChannelState) (frames : List Bytes) (some_ : ∀ bytes ∈ frames, bytes ≠ []) :
    ∃ k torn, s.takes frames = (frames.take k).flatten ++ torn ∧ Torn frames[k]? torn := by
  induction frames generalizing s with
  | nil => exact ⟨0, [], rfl, .inl rfl⟩
  | cons bytes frames ih =>
    obtain ⟨first, rest⟩ := List.forall_mem_cons.1 some_
    rcases s.pieces_cases first with whole | ⟨broken, torn⟩
    · obtain ⟨k, torn, taken, part⟩ := ih s.next rest
      refine ⟨k + 1, torn, ?_, by rwa [List.getElem?_cons_succ]⟩
      rw [takes, whole, taken, List.take_succ_cons, List.flatten_cons, List.append_assoc]
    · refine ⟨0, (s.pieces bytes).flatten, ?_, by rwa [List.getElem?_cons_zero]⟩
      rw [takes, takes_of_broken broken, List.append_nil]
      rfl

/-- What is taken is the beginning of what is sent. -/
theorem takes_prefix (s : ChannelState) (frames : List Bytes) (some_ : ∀ bytes ∈ frames, bytes ≠ []) :
    s.takes frames <+: frames.flatten := by
  obtain ⟨k, torn, taken, part⟩ := s.exists_taken frames some_
  have split : frames.flatten = (frames.take k).flatten ++ (frames.drop k).flatten := by
    rw [← List.flatten_append, List.take_append_drop]
  rw [taken, split, List.prefix_append_right_inj]
  rcases part with rfl | ⟨bytes, known, within, _⟩
  · exact List.nil_prefix
  · obtain ⟨bound, rfl⟩ := List.getElem?_eq_some_iff.1 known
    rw [List.drop_eq_getElem_cons bound, List.flatten_cons]
    exact within.trans (List.prefix_append _ _)

end ChannelState

theorem Record.sentFrame_ne_nil (r : Record) : r.sentFrame ≠ [] := List.cons_ne_nil _ _

theorem spells_sentFrames (log : List Record) : Spells (log.map Record.sentFrame).flatten (log.map Record.sent) := by
  induction log with
  | nil => exact .nil
  | cons r log ih => exact r.spells_sent.append ih

/-- **A reader gets the records of the frames that were taken whole**, and nothing else. -/
theorem ChannelState.exists_read (s : ChannelState) (log : List Record) :
    ∃ k torn d, s.takes (log.map Record.sentFrame) = ((log.take k).map Record.sentFrame).flatten ++ torn ∧
      Torn (log[k]?.map Record.sentFrame) torn ∧
      Decoder.new.feedFrom [] (s.takes (log.map Record.sentFrame)) = .ok (d, (log.take k).map Record.sent) := by
  obtain ⟨k, torn, taken, part⟩ := s.exists_taken (log.map Record.sentFrame) <| by
    intro bytes mem
    obtain ⟨r, _, rfl⟩ := List.mem_map.1 mem
    exact r.sentFrame_ne_nil
  rw [← List.map_take] at taken
  rw [List.getElem?_map] at part
  have open_ : torn = [] ∨ Unfinished torn := by
    rcases part with empty | ⟨bytes, known, within, short⟩
    · exact .inl empty
    · obtain ⟨r, _, rfl⟩ := Option.map_eq_some_iff.1 known
      obtain ⟨_, small⟩ := Record.encode_eq_ok r.encode_sent
      refine unfinished_of_prefix small within (Nat.lt_of_le_of_ne within.length_le fun same => short ?_)
      exact within.eq_of_length same
  have read := (spells_sentFrames (log.take k)).feedFrom [] torn
  rw [← taken, List.append_nil] at read
  rcases open_ with rfl | unfinished
  · exact ⟨k, [], .new, taken, part, by rw [read, Decoder.feedFrom, List.reverse_reverse]⟩
  · obtain ⟨d, rest, _⟩ := unfinished.feedFrom ((log.take k).map Record.sent).reverse
    exact ⟨k, torn, d, taken, part, by rw [read, rest, List.reverse_reverse]⟩

/-- The channel of a unit. -/
def UnitContext.channel (c : UnitContext) : ChannelState := ⟨c.fault, c.broken⟩

namespace Thread

open ChannelState

/-- A frame goes out on the channel of a unit. -/
def send (t : Thread) (c : UnitContext) (bytes : Bytes) : Thread :=
  { (c.channel.pieces bytes).foldl (fun (t : Thread) piece => t.put (.outcome c.unit piece)) t with
    context := some { c with fault := c.channel.next.fault, broken := c.channel.next.broken } }

variable {t u : Thread} {c : UnitContext} {log : List Record}

/-- The frame of a record is written, with whatever success. -/
theorem write_eq_send (intact : c.broken = false) {r : Record} {bytes : Bytes} (encoded : r.encode = .ok bytes) :
    (t.write c r).1 = t.send c bytes ∧ ∀ length, (t.write c r).2 ≠ .error (.oversized length) := by
  obtain ⟨unit, fault, broken, queue, failures, skipped⟩ := c
  cases intact
  rcases fault with _ | (_ | left) | ⟨_ | left, taken⟩ | left
  case flush =>
    rcases left with _ | _ | left <;>
      simp [write, Record.writeTo, encoded, Sink.write, Sink.flush, Sink.accepted, send, UnitContext.channel,
        ChannelState.next, ChannelState.pieces]
  all_goals
    simp [write, Record.writeTo, encoded, Sink.write, Sink.refuse, Sink.flush, Sink.accepted, send,
      UnitContext.channel, ChannelState.next, ChannelState.pieces]

/-- **Every record goes out as one frame**, with whatever success. -/
theorem emit_eq_send (active : t.context = some c) (r : Record) : t.emit r = t.send c r.sentFrame := by
  cases broken : c.broken with
  | true =>
    have same : some { c with fault := c.fault, broken := true } = t.context := by rw [active, ← broken]
    simp only [emit, active, broken, if_true, send, UnitContext.channel, next, pieces, List.foldl_nil]
    rw [same]
  | false =>
    have sent := r.encode_sent
    simp only [emit, active, broken, Bool.false_eq_true, if_false]
    by_cases small : r.payload.utf8ByteSize ≤ maxPayload
    · have encoded := Record.encode_of_size_le small
      have same : r.sent = r := by simp only [Record.sent, encoded]
      obtain ⟨written, passed⟩ := write_eq_send (t := t) broken encoded
      rw [Record.sentFrame, same, ← written]
      rcases result : t.write c r with ⟨u, e⟩
      rw [result] at passed
      cases e with
      | ok _ => rfl
      | error e =>
        cases e with
        | oversized length => exact absurd rfl (passed length)
        | io _ | malformed | badTag _ => rfl
    · have large : r.encode = .error (.oversized r.payload.utf8ByteSize) := if_neg small
      rw [write_of_oversized active broken large]
      simp only [active]
      cases cut : r.shortened r.payload.utf8ByteSize with
      | some short =>
        have same : r.sent = short := by simp only [Record.sent, large, cut, Option.getD_some]
        rw [same] at sent
        rw [Record.sentFrame, same]
        exact (write_eq_send broken sent).1
      | none =>
        have same : r.sent = r := by simp only [Record.sent, large, cut, Option.getD_none]
        rw [same, large] at sent
        cases sent

theorem bytesOf_foldl_put (t : Thread) (unit : Nat) (chunks : List Bytes) :
    (chunks.foldl (fun (t : Thread) piece => t.put (.outcome unit piece)) t).bytesOf unit =
      t.bytesOf unit ++ chunks.flatten := by
  induction chunks generalizing t with
  | nil => exact (List.append_nil _).symm
  | cons piece chunks ih =>
    rw [List.foldl_cons, ih, bytesOf_put_outcome, List.flatten_cons, List.append_assoc]

/-- A unit's channel after some frames, and the bytes it has taken since. -/
structure Takes (t : Thread) (c : UnitContext) (frames : List Bytes) (u : Thread) : Prop where
  context : ∃ d, u.context = some d ∧ d.unit = c.unit ∧ d.channel = c.channel.after frames
  bytes : u.bytesOf c.unit = t.bytesOf c.unit ++ c.channel.takes frames

theorem Takes.emit {frames : List Bytes} (takes : Takes t c frames u) (r : Record) :
    Takes t c (frames ++ [r.sentFrame]) (u.emit r) := by
  obtain ⟨⟨d, context, unit, channel⟩, bytes⟩ := takes
  rw [emit_eq_send context]
  refine ⟨⟨_, rfl, unit, ?_⟩, ?_⟩
  · rw [after_append, ← channel]
    rfl
  · rw [takes_append, ← List.append_assoc, ← bytes, ← channel, ← unit]
    have sent : (u.send d r.sentFrame).bytesOf d.unit = u.bytesOf d.unit ++ (d.channel.pieces r.sentFrame).flatten :=
      bytesOf_foldl_put u d.unit _
    simpa [ChannelState.takes] using sent

/-- A change of the unit's tallies. -/
theorem Takes.modifyContext {frames : List Bytes} (takes : Takes t c frames u) {f : UnitContext → UnitContext}
    (apart : ∀ d, (f d).unit = d.unit ∧ (f d).channel = d.channel) : Takes t c frames (u.modifyContext f) := by
  obtain ⟨⟨d, context, unit, channel⟩, bytes⟩ := takes
  refine ⟨⟨f d, by rw [Thread.modifyContext, context]; rfl, ?_, ?_⟩, bytes⟩
  · rw [(apart d).1, unit]
  · rw [(apart d).2, channel]

/-- **What is recorded goes out in order**, as far as the channel takes it. -/
theorem Recording.takes (recording : Recording t log u) (active : t.context = some c) :
    Takes t c (log.map Record.sentFrame) u := by
  induction recording with
  | refl => exact ⟨⟨c, active, rfl, rfl⟩, (List.append_nil _).symm⟩
  | @aside log u v _ aside ih =>
    obtain ⟨⟨d, context, unit, channel⟩, bytes⟩ := ih
    have same := aside.context
    rw [context, Option.map_some, Option.map_eq_some_iff] at same
    obtain ⟨d', found, same⟩ := same
    simp only [UnitContext.mk.injEq] at same
    obtain ⟨units, fault, broken, _⟩ := same
    refine ⟨⟨d', found, units.trans unit, ?_⟩, (aside.bytes c.unit).trans bytes⟩
    rw [← channel, UnitContext.channel, UnitContext.channel, fault, broken]
  | enter _ p ih =>
    rw [List.map_append]
    exact ih.emit (.phase p)
  | fail _ f ih =>
    rw [List.map_append]
    have counted := ih.modifyContext (f := fun c => { c with failures := c.failures + 1 }) fun _ => ⟨rfl, rfl⟩
    exact counted.emit (.failure f)
  | skip _ notice ih =>
    rw [List.map_append]
    have marked := ih.modifyContext (f := fun c => { c with skipped := true }) fun _ => ⟨rfl, rfl⟩
    exact marked.emit (.skip notice)

end Thread

end TestIsolation
