import TestIsolation.Proofs.Outcome.Keeping
import TestIsolation.Proofs.Unit.Channel

/-!
# Delivery of records

A record that is too large is replaced by one that says the same of a shorter text (`Failure.ShortenedTo`,
`SkipNotice.ShortenedTo`) and always fits. So a working channel gets one frame for every record, in which a reader
finds the record or what stands in for it (`Thread.exists_delivered`).
-/

namespace TestIsolation

set_option autoImplicit false

/-- A text with a note on how large its record was. -/
def tooLarge (length : UInt64) (text : String) : String :=
  "record too large (" ++ toString length.toNat ++ " bytes): " ++ text

open Record (Kept)

/-- A failure that stands for another whose record was too large. -/
structure Failure.ShortenedTo (f : Failure) (length : UInt64) (short : Failure) : Prop where
  expression : Kept f.expression short.expression
  file : Kept f.site.file short.site.file
  line : short.site.line = f.site.line
  function : Kept f.site.function short.site.function
  message : ∃ kept, Kept f.message kept ∧ short.message = tooLarge length kept
  fatal : short.fatal = f.fatal

/-- A notice that stands for another whose record was too large. -/
structure SkipNotice.ShortenedTo (s : SkipNotice) (length : UInt64) (short : SkipNotice) : Prop where
  file : Kept s.site.file short.site.file
  line : short.site.line = s.site.line
  function : Kept s.site.function short.site.function
  unexplained : s.reason = none → short.reason = none
  reason : ∀ reason ∈ s.reason, ∃ kept, Kept reason kept ∧ short.reason = some (tooLarge length kept)

namespace Record

theorem clippedNote_eq (length : UInt64) (text : String) :
    clippedNote (.ofNat length.toNat) text = tooLarge length (clip text) := by
  have same : UInt64.ofNat length.toNat = length := UInt64.ofNat_toNat
  unfold clippedNote tooLarge
  rw [same]

theorem shortened_failure (length : UInt64) (f : Failure) : ∃ short,
    (failure f).shortened length.toNat = some (failure short) ∧ f.ShortenedTo length short := by
  refine ⟨_, rfl, ?_⟩
  exact {
    expression := kept_clip _
    file := kept_clip _
    line := rfl
    function := kept_clip _
    message := ⟨_, kept_clip _, clippedNote_eq length f.message⟩
    fatal := rfl }

theorem shortened_skip (length : UInt64) (s : SkipNotice) : ∃ short,
    (skip s).shortened length.toNat = some (skip short) ∧ s.ShortenedTo length short := by
  refine ⟨_, rfl, ?_⟩
  exact {
    file := kept_clip _
    line := rfl
    function := kept_clip _
    unexplained := fun missing => by rw [missing]; rfl
    reason := by
      intro reason given
      rw [Option.mem_def.1 given]
      exact ⟨_, kept_clip _, congrArg some (clippedNote_eq length reason)⟩ }

/-- What is sent for a record is the record, or what stands in for it. -/
theorem sent_cases (r : Record) :
    r.sent = r ∨ ∃ length, r.encode = .error (.oversized length) ∧ r.shortened length = some r.sent := by
  by_cases small : r.payload.utf8ByteSize ≤ maxPayload
  · exact .inl (by rw [sent, encode_of_size_le small])
  · have large : r.encode = .error (.oversized r.payload.utf8ByteSize) := if_neg small
    cases cut : r.shortened r.payload.utf8ByteSize with
    | none => exact .inl (by simp only [sent, large, cut, Option.getD_none])
    | some short => exact .inr ⟨_, large, by simp only [sent, large, cut, Option.getD_some]⟩

/-- A reader finds in the frame of a record what was sent for it. -/
theorem feed_sentFrame (r : Record) : Decoder.new.feed r.sentFrame = (.new, .ok [r.sent]) := by
  have read : Decoder.new.feedFrom [] r.sentFrame = .ok (.new, [r.sent]) := by
    have fed := r.spells_sent.feedFrom [] []
    rwa [List.append_nil] at fed
  rw [Decoder.feed_of_isReading Decoder.isReading_new, read]

end Record

/-- **A working channel gets one frame for every record.** -/
theorem Thread.exists_delivered {t : Thread} {c : UnitContext} (active : t.context = some c) (works : c.fault = .never)
    (intact : c.broken = false) (r : Record) : (t.emit r).output = t.output ++ [.outcome c.unit r.sentFrame] ∧
      (t.emit r).context = some c := by
  have pieces : c.channel.pieces r.sentFrame = [r.sentFrame] := by
    simp [ChannelState.pieces, UnitContext.channel, works, intact]
  have next : c.channel.next = c.channel := by
    simp [ChannelState.next, UnitContext.channel, works]
  rw [Thread.emit_eq_send active, Thread.send, pieces, next]
  exact ⟨List.reverse_cons, rfl⟩

/-- **A shortened record always fits**, and so a working channel gets one frame for every record. -/
theorem shortened_fits :
    (∀ (length : UInt64) (f : Failure), ∃ short bytes,
      (Record.failure f).shortened length.toNat = some (.failure short) ∧ f.ShortenedTo length short ∧
        (Record.failure short).encode = .ok bytes) ∧
    (∀ (length : UInt64) (s : SkipNotice), ∃ short bytes,
      (Record.skip s).shortened length.toNat = some (.skip short) ∧ s.ShortenedTo length short ∧
        (Record.skip short).encode = .ok bytes) ∧
    (∀ text, Record.clip? text = some (Record.clip text)) ∧
    (∀ (t : Thread) (c : UnitContext) (r : Record), t.context = some c → c.fault = .never → c.broken = false →
      ∃ sent bytes, (t.emit r).output = t.output ++ [.outcome c.unit bytes] ∧ (t.emit r).context = some c ∧
        sent.encode = .ok bytes ∧ Decoder.new.feed bytes = (.new, .ok [sent]) ∧
        (sent = r ∨ ∃ length, r.encode = .error (.oversized length) ∧ r.shortened length = some sent)) := by
  refine ⟨fun length f => ?_, fun length s => ?_, Record.clip?_eq, fun t c r active works intact => ?_⟩
  · obtain ⟨short, cut, stands⟩ := Record.shortened_failure length f
    exact ⟨short, _, cut, stands, Record.encode_shortened cut⟩
  · obtain ⟨short, cut, stands⟩ := Record.shortened_skip length s
    exact ⟨short, _, cut, stands, Record.encode_shortened cut⟩
  · obtain ⟨put, same⟩ := Thread.exists_delivered active works intact r
    exact ⟨r.sent, r.sentFrame, put, same, r.encode_sent, r.feed_sentFrame, r.sent_cases⟩

/-- A failure with a text of two million characters, on a channel that works. -/
theorem shortened_fits_long : ∃ (t : Thread) (c : UnitContext) (f : Failure), f.message.length = 2000000 ∧
    t.context = some c ∧ c.fault = .never ∧ c.broken = false ∧ ∃ sent bytes,
      (t.emit (.failure f)).output = [.outcome 0 bytes] ∧ Decoder.new.feed bytes = (.new, .ok [sent]) := by
  let f : Failure := ⟨"a == b", ⟨"t.rs", 7, "f"⟩, String.ofList (List.replicate 2000000 'x'), false⟩
  let t : Thread := { context := some { unit := 0 } }
  obtain ⟨sent, bytes, put, _, _, read, _⟩ := shortened_fits.2.2.2 t { unit := 0 } (.failure f) rfl rfl rfl
  have long : f.message.length = 2000000 := by
    rw [String.length_ofList, List.length_replicate]
  exact ⟨t, _, f, long, rfl, rfl, rfl, sent, bytes, put, read⟩

end TestIsolation
