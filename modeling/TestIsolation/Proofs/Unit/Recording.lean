import TestIsolation.Proofs.Outcome.Clipping
import TestIsolation.Proofs.Schedule.Reception
import TestIsolation.Unit.Thread

/-!
# What a thread records

While a unit is active, its thread enters phases and records failures and requests to be skipped (`Recording`). On a
channel that never breaks, the tallies of the unit and the bytes of its channel always follow what was recorded
(`Recording.sends`): each record has a frame, and a record that is too large has that of its shortened form.
-/

namespace TestIsolation

set_option autoImplicit false

namespace Record

/-- The phase of a marker. -/
def phase? : Record → Option Phase
  | phase p => some p
  | _ => none

/-- The notice of a request to be skipped. -/
def skip? : Record → Option SkipNotice
  | skip notice => some notice
  | _ => none

/-- What is sent for a record is of the same kind, and only failures and skips are ever shortened. -/
theorem kind_sent (r : Record) :
    r.sent.phase? = r.phase? ∧ r.sent.failure?.isSome = r.failure?.isSome ∧ r.sent.skip?.isSome = r.skip?.isSome ∧
      r.sent.isTerminal = r.isTerminal := by
  unfold sent
  split
  · cases r <;> exact ⟨rfl, rfl, rfl, rfl⟩
  · exact ⟨rfl, rfl, rfl, rfl⟩

theorem sent_terminal (v : Verdict) : (terminal v).sent = terminal v := by
  unfold sent
  split <;> rfl

end Record

theorem Spells.append {a b : Bytes} {records more : List Record} (first : Spells a records) (second : Spells b more) :
    Spells (a ++ b) (records ++ more) := by
  induction first with
  | nil => exact second
  | cons small holds _ ih =>
    rw [List.append_assoc]
    exact .cons small holds ih

/-- The frame of what is sent for a record. -/
theorem Record.spells_sent (r : Record) : Spells (frame (Bytes.ofString r.sent.payload)) [r.sent] := by
  have spells := spells_frames (.cons r.encode_sent .nil)
  rwa [List.flatten_singleton] at spells

namespace Thread

/-- A thread changes so that nothing is recorded: of the active unit only the queue may change. -/
structure Aside (t u : Thread) : Prop where
  context : u.context.map (fun c => { c with queue := {} }) = t.context.map fun c => { c with queue := {} }
  bytes : ∀ unit, u.bytesOf unit = t.bytesOf unit

/-- A thread comes from another by recording some things in turn. -/
inductive Recording (t : Thread) : List Record → Thread → Prop where
  | refl : Recording t [] t
  | aside {log : List Record} {u v : Thread} (before : Recording t log u) (aside : u.Aside v) : Recording t log v
  | enter {log : List Record} {u : Thread} (before : Recording t log u) (p : Phase) :
      Recording t (log ++ [.phase p]) (u.emit (.phase p))
  | fail {log : List Record} {u : Thread} (before : Recording t log u) (f : Failure) :
      Recording t (log ++ [.failure f]) (u.fail f)
  | skip {log : List Record} {u : Thread} (before : Recording t log u) (notice : SkipNotice) :
      Recording t (log ++ [.skip notice]) (u.skip notice)

section Basics

variable {t u v : Thread} {log more : List Record}

/-! ## Changes aside -/

/-- The context stays, and nothing is put out. -/
theorem Aside.of_eq (context : u.context = t.context) (emissions : u.emissions = t.emissions) : t.Aside u where
  context := by rw [context]
  bytes := by
    intro unit
    rw [bytesOf, bytesOf, output, output, emissions]

/-- The queue of the active unit changes. -/
theorem Aside.queue {c : UnitContext} (active : t.context = some c) (queue : ExpectQueue) :
    t.Aside { t with context := some { c with queue } } where
  context := by rw [active]; rfl
  bytes := fun _ => rfl

theorem output_put (t : Thread) (e : Emission) : (t.put e).output = t.output ++ [e] := List.reverse_cons

theorem bytesOf_put_outcome (t : Thread) (unit : Nat) (bytes : Bytes) :
    (t.put (.outcome unit bytes)).bytesOf unit = t.bytesOf unit ++ bytes := by
  rw [bytesOf, bytesOf, output_put, List.flatMap_append, List.flatMap_singleton]
  exact congrArg _ (if_pos rfl)

/-- Something that is not for an outcome channel is put out. -/
theorem bytesOf_put_other {e : Emission} (other : ∀ unit bytes, e ≠ .outcome unit bytes) (t : Thread) (unit : Nat) :
    (t.put e).bytesOf unit = t.bytesOf unit := by
  rw [bytesOf, bytesOf, output_put, List.flatMap_append, List.flatMap_singleton]
  cases e with
  | outcome u bytes => exact absurd rfl (other u bytes)
  | closed u | console bytes | pause millis => exact List.append_nil _

theorem Aside.put {e : Emission} (other : ∀ unit bytes, e ≠ .outcome unit bytes) : t.Aside (t.put e) where
  context := rfl
  bytes := bytesOf_put_other other t

/-! ## Recordings -/

theorem Recording.trans (first : Recording t log u) (second : Recording u more v) : Recording t (log ++ more) v := by
  induction second with
  | refl => rwa [List.append_nil]
  | aside _ aside ih => exact ih.aside aside
  | enter _ p ih => rw [← List.append_assoc]; exact ih.enter p
  | fail _ f ih => rw [← List.append_assoc]; exact ih.fail f
  | skip _ notice ih => rw [← List.append_assoc]; exact ih.skip notice

theorem isActive_write (t : Thread) (c : UnitContext) (r : Record) : (t.write c r).1.isActive = true := rfl

theorem isActive_emit (t : Thread) (r : Record) : (t.emit r).isActive = t.isActive := by
  cases active : t.context with
  | none => simp only [emit, active]
  | some c =>
    have here : t.isActive = true := by simp [isActive, active]
    rw [here]
    simp only [emit, active]
    split
    · exact here
    · split
      · rename_i next length written
        have still : next.isActive = true := by
          have kept := isActive_write t c r
          rwa [written] at kept
        split
        · exact isActive_write _ _ _
        · exact still
      · rename_i next result _ written
        have kept := isActive_write t c r
        rwa [written] at kept

theorem isActive_fail (t : Thread) (f : Failure) : (t.fail f).isActive = t.isActive := by
  rw [fail, isActive_emit]
  simp [isActive, modifyContext]

theorem isActive_skip (t : Thread) (notice : SkipNotice) : (t.skip notice).isActive = t.isActive := by
  rw [skip, isActive_emit]
  simp [isActive, modifyContext]

/-- A unit stays active while its thread records. -/
theorem Recording.isActive (recording : Recording t log u) : u.isActive = t.isActive := by
  induction recording with
  | refl => rfl
  | aside _ aside ih =>
    rw [← ih]
    have same := congrArg Option.isSome aside.context
    simpa [Thread.isActive] using same
  | enter _ p ih => rw [isActive_emit, ih]
  | fail _ f ih => rw [isActive_fail, ih]
  | skip _ notice ih => rw [isActive_skip, ih]

/-- A thread comes from another by recording some things, and among these are the starts of some phases in turn. -/
def Enters (t : Thread) (phases : List Phase) (u : Thread) : Prop :=
  ∃ log, Recording t log u ∧ log.filterMap Record.phase? = phases

theorem Aside.enters (aside : t.Aside u) : t.Enters [] u := ⟨[], .aside .refl aside, rfl⟩

theorem enters_emit (t : Thread) (p : Phase) : t.Enters [p] (t.emit (.phase p)) := ⟨_, .enter .refl p, rfl⟩

theorem enters_fail (t : Thread) (f : Failure) : t.Enters [] (t.fail f) := ⟨_, .fail .refl f, rfl⟩

theorem enters_skip (t : Thread) (notice : SkipNotice) : t.Enters [] (t.skip notice) := ⟨_, .skip .refl notice, rfl⟩

theorem Enters.trans {first second : List Phase} (enters : t.Enters first u) (more : u.Enters second v) :
    t.Enters (first ++ second) v := by
  obtain ⟨log, recording, phases⟩ := enters
  obtain ⟨log', recording', phases'⟩ := more
  exact ⟨log ++ log', recording.trans recording', by rw [List.filterMap_append, phases, phases']⟩

theorem Enters.isActive {phases : List Phase} (enters : t.Enters phases u) : u.isActive = t.isActive := by
  obtain ⟨log, recording, _⟩ := enters
  exact recording.isActive

/-- Nothing but a verdict ends a unit, and none is recorded. -/
theorem Recording.isTerminal_eq_false (recording : Recording t log u) : ∀ r ∈ log, r.isTerminal = false := by
  induction recording with
  | refl => simp
  | aside _ _ ih => exact ih
  | enter _ _ ih | fail _ _ ih | skip _ _ ih => exact List.forall_mem_append.2 ⟨ih, by simp [Record.isTerminal]⟩

end Basics

/-! ## What is sent -/

/-- A unit's tallies and the bytes of its channel are those of some records. -/
structure Sends (unit : Nat) (log : List Record) (t : Thread) : Prop where
  context : ∃ queue, t.context =
    some { unit, queue, failures := (log.filterMap Record.failure?).length, skipped := log.any (·.skip?.isSome) }
  bytes : Spells (t.bytesOf unit) (log.map Record.sent)

section Sending

variable {t u : Thread} {log : List Record} {c : UnitContext} {unit : Nat}

theorem write_of_encode (active : t.context = some c) (whole : c.fault = .never) (intact : c.broken = false)
    {r : Record} {bytes : Bytes} (encoded : r.encode = .ok bytes) :
    t.write c r = (t.put (.outcome c.unit bytes), .ok ()) := by
  have same : some { c with fault := .never, broken := false } = t.context := by
    rw [active, ← whole, ← intact]
  simp only [write, Record.writeTo, encoded, whole, Sink.write, Sink.flush, Sink.accepted, List.reverse_singleton,
    List.foldl_cons, List.foldl_nil, intact, Bool.or_false, same, put]

theorem write_of_oversized (active : t.context = some c) (intact : c.broken = false) {r : Record} {length : Nat}
    (encoded : r.encode = .error (.oversized length)) : t.write c r = (t, .error (.oversized length)) := by
  have same : some { c with fault := c.fault, broken := false } = t.context := by
    rw [active, ← intact]
  simp only [write, Record.writeTo, encoded, Sink.accepted, List.reverse_nil, List.foldl_nil, intact, Bool.or_false,
    same]

/-- **Every record is sent**, in shortened form if it is too large. -/
theorem emit_eq (active : t.context = some c) (whole : c.fault = .never) (intact : c.broken = false) (r : Record) :
    t.emit r = t.put (.outcome c.unit (frame (Bytes.ofString r.sent.payload))) := by
  have sent := r.encode_sent
  simp only [emit, active, intact, Bool.false_eq_true, if_false]
  by_cases small : r.payload.utf8ByteSize ≤ maxPayload
  · have encoded := Record.encode_of_size_le small
    have same : r.sent = r := by simp only [Record.sent, encoded]
    rw [write_of_encode active whole intact encoded, same]
  · have large : r.encode = .error (.oversized r.payload.utf8ByteSize) := if_neg small
    rw [write_of_oversized active intact large]
    simp only [active]
    cases cut : r.shortened r.payload.utf8ByteSize with
    | some short =>
      have same : r.sent = short := by simp only [Record.sent, large, cut, Option.getD_some]
      rw [same] at sent ⊢
      simp only [write_of_encode active whole intact sent]
    | none =>
      have same : r.sent = r := by simp only [Record.sent, large, cut, Option.getD_none]
      rw [same, large] at sent
      cases sent

/-- A record is sent after others. -/
theorem Sends.emit {queue : ExpectQueue} {failures : Nat} {skipped : Bool}
    (context : t.context = some { unit, queue, failures, skipped })
    (bytes : Spells (t.bytesOf unit) (log.map Record.sent)) (r : Record) :
    (t.emit r).context = some { unit, queue, failures, skipped } ∧
      Spells ((t.emit r).bytesOf unit) ((log ++ [r]).map Record.sent) := by
  rw [emit_eq context rfl rfl]
  refine ⟨context, ?_⟩
  rw [bytesOf_put_outcome, List.map_append]
  exact bytes.append r.spells_sent

/-- **Tallies and bytes follow what was recorded.** -/
theorem Recording.sends (start : Sends unit [] t) (recording : Recording t log u) : Sends unit log u := by
  induction recording with
  | refl => exact start
  | aside _ aside ih =>
    obtain ⟨⟨queue, context⟩, bytes⟩ := ih
    refine ⟨?_, aside.bytes unit ▸ bytes⟩
    have same := aside.context
    rw [context, Option.map_some, Option.map_eq_some_iff] at same
    obtain ⟨c, found, same⟩ := same
    refine ⟨c.queue, ?_⟩
    rw [found, Option.some.injEq]
    simp only [UnitContext.mk.injEq] at same
    obtain ⟨rfl, fault, broken, _, failures, skipped⟩ := same
    cases c
    simp_all
  | enter _ p ih =>
    obtain ⟨⟨queue, context⟩, bytes⟩ := ih
    obtain ⟨context, bytes⟩ := Sends.emit context bytes (.phase p)
    exact ⟨⟨queue, by simpa [List.filterMap_cons, Record.failure?, Record.skip?] using context⟩, bytes⟩
  | @fail log u _ f ih =>
    obtain ⟨⟨queue, context⟩, bytes⟩ := ih
    have counted : (u.modifyContext fun c => { c with failures := c.failures + 1 }).context =
        some { unit, queue, failures := (log.filterMap Record.failure?).length + 1,
               skipped := log.any (·.skip?.isSome) } := by
      rw [modifyContext, context]
      rfl
    obtain ⟨context, bytes⟩ := Sends.emit counted bytes (.failure f)
    exact ⟨⟨queue, by simpa [Thread.fail, List.filterMap_cons, Record.failure?, Record.skip?] using context⟩, bytes⟩
  | @skip log u _ notice ih =>
    obtain ⟨⟨queue, context⟩, bytes⟩ := ih
    have marked : (u.modifyContext fun c => { c with skipped := true }).context =
        some { unit, queue, failures := (log.filterMap Record.failure?).length, skipped := true } := by
      rw [modifyContext, context]
      rfl
    obtain ⟨context, bytes⟩ := Sends.emit marked bytes (.skip notice)
    exact ⟨⟨queue, by simpa [Thread.skip, List.filterMap_cons, Record.failure?, Record.skip?] using context⟩, bytes⟩

end Sending

end Thread

end TestIsolation
