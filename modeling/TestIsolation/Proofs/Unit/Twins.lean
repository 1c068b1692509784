import TestIsolation.Proofs.Unit.Channel
import TestIsolation.Proofs.Unit.Verdict

/-!
# Two threads with one channel apart

Two threads are `Twins` if they differ in one unit's channel only: on one of them it never breaks, and the other one's
took of the same frames what it could. Twins look the same from inside (`Twins.seen`), and whatever both of them record,
they stay twins (`Alike.emit`).
-/

namespace TestIsolation

set_option autoImplicit false

/-- Whether something put out is anything but bytes of a unit's channel. -/
def Emission.isApart (unit : Nat) : Emission → Bool
  | .outcome u _ => u ≠ unit
  | _ => true

namespace UnitContext

/-- The state of an active unit with another channel. -/
def withChannel (c : UnitContext) (s : ChannelState) : UnitContext := { c with fault := s.fault, broken := s.broken }

/-- The state of an active unit, with another channel if it is a given unit. -/
def onChannel (unit : Nat) (s : ChannelState) (c : UnitContext) : UnitContext :=
  if c.unit = unit then c.withChannel s else c

variable {unit : Nat} {s s' : ChannelState} (c : UnitContext)

@[simp] theorem unit_onChannel : (c.onChannel unit s).unit = c.unit := by unfold onChannel; split <;> rfl

@[simp] theorem queue_onChannel : (c.onChannel unit s).queue = c.queue := by unfold onChannel; split <;> rfl

@[simp] theorem verdict_onChannel : (c.onChannel unit s).verdict = c.verdict := by unfold onChannel; split <;> rfl

@[simp] theorem onChannel_onChannel : (c.onChannel unit s).onChannel unit s' = c.onChannel unit s' := by
  by_cases own : c.unit = unit <;> simp [onChannel, withChannel, own]

theorem onChannel_of_eq (own : c.unit = unit) : c.onChannel unit s = c.withChannel s := if_pos own

theorem onChannel_of_ne (other : c.unit ≠ unit) : c.onChannel unit s = c := if_neg other

end UnitContext

namespace Thread

/-- What can be seen of a thread from inside: everything but the channel of a unit and what that has taken. -/
def seen (unit : Nat) (t : Thread) : Thread :=
  { t with
    context := t.context.map (·.onChannel unit { fault := .never })
    emissions := t.emissions.filter (·.isApart unit) }

/-- What is seen of the bytes of other channels is all of them. -/
theorem bytesOf_seen {t : Thread} {unit other : Nat} (apart : other ≠ unit) :
    (t.seen unit).bytesOf other = t.bytesOf other := by
  simp only [bytesOf, output, seen]
  generalize t.emissions = emissions
  induction emissions with
  | nil => rfl
  | cons e emissions ih =>
    rw [List.reverse_cons, List.flatMap_append, ← ih]
    cases kept : e.isApart unit with
    | true => rw [List.filter_cons_of_pos kept, List.reverse_cons, List.flatMap_append]
    | false =>
      rw [List.filter_cons_of_neg (by rw [kept]; exact Bool.false_ne_true)]
      cases e with
      | outcome u bytes =>
        have own : u = unit := by simpa [Emission.isApart] using kept
        simp [own, apart.symm]
      | closed u | console bytes | pause millis => simp [Emission.isApart] at kept

/-- Two threads that differ in the channel of a unit only, which may be `past`. The channel has been sent the frames of
some records. On the first thread it never breaks, and on the second one it started in some state. -/
structure Twins (unit : Nat) (s : ChannelState) (past : Prop) (log : List Record) (x y : Thread) : Prop where
  context : y.context = x.context.map (·.onChannel unit (s.after (log.map Record.sentFrame)))
  whole : ∀ c ∈ x.context, c.unit = unit → c.channel = { fault := .never }
  away : past → ∀ c ∈ x.context, c.unit ≠ unit
  calls : y.calls = x.calls
  notes : y.notes = x.notes
  installed : y.installed = x.installed
  panicSite : y.panicSite = x.panicSite
  emissions : y.emissions.filter (·.isApart unit) = x.emissions.filter (·.isApart unit)
  sent : x.bytesOf unit = (log.map Record.sentFrame).flatten
  taken : y.bytesOf unit = s.takes (log.map Record.sentFrame)
  known : unit < x.installed

variable {unit : Nat} {s : ChannelState} {past : Prop} {log : List Record} {x y : Thread} {c : UnitContext}

namespace Twins

/-- **Twins look the same from inside.** -/
theorem seen (twins : Twins unit s past log x y) : y.seen unit = x.seen unit := by
  obtain ⟨context, _, _, calls, notes, installed, panicSite, emissions, _⟩ := twins
  simp only [Thread.seen, context, calls, notes, installed, panicSite, emissions, Option.map_map]
  congr 2
  funext c
  exact c.onChannel_onChannel

theorem isActive (twins : Twins unit s past log x y) : y.isActive = x.isActive := by
  rw [Thread.isActive, twins.context, Option.isSome_map, Thread.isActive]

/-- The tallies of the active unit are the same. -/
theorem verdict (twins : Twins unit s past log x y) : y.context.map (·.verdict) = x.context.map (·.verdict) := by
  rw [twins.context, Option.map_map]
  congr 1
  funext c
  exact c.verdict_onChannel

theorem context_some (twins : Twins unit s past log x y) (active : x.context = some c) :
    y.context = some (c.onChannel unit (s.after (log.map Record.sentFrame))) := by
  rw [twins.context, active]
  rfl

theorem bytesOf (twins : Twins unit s past log x y) {other : Nat} (apart : other ≠ unit) :
    y.bytesOf other = x.bytesOf other := by
  rw [← bytesOf_seen apart, twins.seen, bytesOf_seen apart]

/-! ### Changes that do not concern the channel -/

theorem note (twins : Twins unit s past log x y) (item : TraceItem) :
    Twins unit s past log (x.note item) (y.note item) :=
  { twins with notes := congrArg (item :: ·) twins.notes }

theorem change (twins : Twins unit s past log x y) (f : List (String × MockCall) → List (String × MockCall)) :
    Twins unit s past log { x with calls := f x.calls } { y with calls := f y.calls } :=
  { twins with calls := congrArg f twins.calls }

/-- The tallies of the active unit change. -/
theorem modifyContext (twins : Twins unit s past log x y) {f : UnitContext → UnitContext}
    (apart : ∀ c s, f (c.withChannel s) = (f c).withChannel s)
    (same : ∀ c, (f c).unit = c.unit ∧ (f c).channel = c.channel) :
    Twins unit s past log (x.modifyContext f) (y.modifyContext f) where
  context := by
    simp only [Thread.modifyContext, twins.context, Option.map_map]
    congr 1
    funext c
    simp only [Function.comp_apply, UnitContext.onChannel, (same c).1, apply_ite f, apart]
  whole := by
    intro c mem own
    obtain ⟨d, active, rfl⟩ := Option.map_eq_some_iff.1 mem
    rw [(same d).2]
    exact twins.whole d active ((same d).1 ▸ own)
  away := by
    intro gone c mem
    obtain ⟨d, active, rfl⟩ := Option.map_eq_some_iff.1 mem
    rw [(same d).1]
    exact twins.away gone d active
  calls := twins.calls
  notes := twins.notes
  installed := twins.installed
  panicSite := twins.panicSite
  emissions := twins.emissions
  sent := twins.sent
  taken := twins.taken
  known := twins.known

/-- Something that is not for an outcome channel is put out. -/
theorem put (twins : Twins unit s past log x y) {e : Emission} (other : ∀ u bytes, e ≠ .outcome u bytes) :
    Twins unit s past log (x.put e) (y.put e) :=
  { twins with
    emissions := by simp only [Thread.put, List.filter_cons, twins.emissions]
    sent := (bytesOf_put_other other x unit).trans twins.sent
    taken := (bytesOf_put_other other y unit).trans twins.taken }

end Twins

/-! ### Sending -/

theorem bytesOf_put_apart {u : Nat} (apart : u ≠ unit) (t : Thread) (bytes : Bytes) :
    (t.put (.outcome u bytes)).bytesOf unit = t.bytesOf unit := by
  rw [Thread.bytesOf, Thread.bytesOf, output_put, List.flatMap_append, List.flatMap_singleton]
  simp [apart]

/-- What goes out on another channel, and that it goes out is all that happens. -/
theorem send_apart (t : Thread) (apart : c.unit ≠ unit) (bytes : Bytes) :
    (t.send c bytes).bytesOf unit = t.bytesOf unit := by
  have put (t : Thread) (chunks : List Bytes) :
      (chunks.foldl (fun (t : Thread) piece => t.put (.outcome c.unit piece)) t).bytesOf unit = t.bytesOf unit := by
    induction chunks generalizing t with
    | nil => rfl
    | cons piece chunks ih => rw [List.foldl_cons, ih, bytesOf_put_apart apart]
  exact put t _

/-- All that happens when a frame goes out. -/
theorem send_eq (t : Thread) (c : UnitContext) (bytes : Bytes) :
    t.send c bytes =
      { t with
        context := some (c.withChannel c.channel.next)
        emissions := ((c.channel.pieces bytes).map (.outcome c.unit)).reverse ++ t.emissions } := by
  have put (t : Thread) (chunks : List Bytes) :
      chunks.foldl (fun (t : Thread) piece => t.put (.outcome c.unit piece)) t =
        { t with emissions := (chunks.map (.outcome c.unit)).reverse ++ t.emissions } := by
    induction chunks generalizing t with
    | nil => rfl
    | cons piece chunks ih => rw [List.foldl_cons, ih, List.map_cons, List.reverse_cons, List.append_assoc]; rfl
  rw [send, put]
  rfl

namespace Twins

/-- A record goes out on the channel that is apart. -/
theorem emit_own (twins : Twins unit s past log x y) (active : x.context = some c) (own : c.unit = unit) (r : Record) :
    Twins unit s past (log ++ [r]) (x.emit r) (y.emit r) := by
  have whole := twins.whole c active own
  have other := twins.context_some active
  rw [c.onChannel_of_eq own] at other
  have sends (t : Thread) (d : UnitContext) (same : d.unit = unit) :
      (t.send d r.sentFrame).bytesOf unit = t.bytesOf unit ++ (d.channel.pieces r.sentFrame).flatten := by
    rw [← same]
    exact bytesOf_foldl_put t d.unit _
  have kept (d : UnitContext) (same : d.unit = unit) :
      ((d.channel.pieces r.sentFrame).map (Emission.outcome d.unit)).reverse.filter (·.isApart unit) = [] := by
    simp [Emission.isApart, same]
  have stays : c.withChannel c.channel.next = c := by
    have channel : c.channel.next = c.channel := by rw [whole]; rfl
    rw [channel]
    rfl
  have first : (c.channel.pieces r.sentFrame).flatten = r.sentFrame := by rw [whole]; exact List.append_nil _
  rw [emit_eq_send active, emit_eq_send other]
  have sent := sends x c own
  have taken := sends y (c.withChannel (s.after (log.map Record.sentFrame))) own
  rw [twins.sent, first] at sent
  rw [twins.taken] at taken
  simp only [send_eq, stays] at sent taken ⊢
  constructor
  · rw [Option.map_some, c.onChannel_of_eq own, List.map_append, ChannelState.after_append]
    rfl
  · exact fun d active same => by cases active; exact whole
  · exact fun gone => absurd own (twins.away gone c active)
  · exact twins.calls
  · exact twins.notes
  · exact twins.installed
  · exact twins.panicSite
  · simp only [List.filter_append, kept c own, kept (c.withChannel _) own, twins.emissions]
  · rw [sent, List.map_append, List.flatten_append, List.map_singleton, List.flatten_singleton]
  · rw [taken, List.map_append, ChannelState.takes_append]
    simp [ChannelState.takes, UnitContext.channel, UnitContext.withChannel]
  · exact twins.known

/-- A record goes out on another channel, or nowhere. -/
theorem emit_apart (twins : Twins unit s past log x y) (apart : ∀ c ∈ x.context, c.unit ≠ unit) (r : Record) :
    Twins unit s past log (x.emit r) (y.emit r) := by
  cases active : x.context with
  | none =>
    have other : y.context = none := by rw [twins.context, active]; rfl
    simp only [emit, active, other]
    exact twins
  | some c =>
    have other := twins.context_some active
    rw [c.onChannel_of_ne (apart c active)] at other
    rw [emit_eq_send active, emit_eq_send other]
    have sent := (x.send_apart (apart c active) r.sentFrame).trans twins.sent
    have taken := (y.send_apart (apart c active) r.sentFrame).trans twins.taken
    simp only [send_eq] at sent taken ⊢
    constructor
    · exact congrArg some ((c.withChannel _).onChannel_of_ne (apart c active)).symm
    · exact fun d active' same => by cases active'; exact absurd same (apart c active)
    · exact fun _ d active' => by cases active'; exact apart c active
    · exact twins.calls
    · exact twins.notes
    · exact twins.installed
    · exact twins.panicSite
    · simp only [List.filter_append, twins.emissions]
    · exact sent
    · exact taken
    · exact twins.known

/-! ### Units that begin and end -/

theorem uninstall (twins : Twins unit s past log x y) : Twins unit s True log x.uninstall y.uninstall := by
  have gone {t : Thread} (none_ : t.context = none) : t.uninstall = t := by simp only [Thread.uninstall, none_]
  cases active : x.context with
  | none =>
    have other : y.context = none := by rw [twins.context, active]; rfl
    rw [gone active, gone other]
    exact { twins with away := by simp [active] }
  | some c =>
    have other := twins.context_some active
    have closed := twins.put (e := .closed c.unit) nofun
    simp only [Thread.uninstall, active, other, UnitContext.unit_onChannel]
    exact { closed with context := rfl, whole := nofun, away := nofun }

/-- A unit that is new takes the place of the active one. -/
theorem install (twins : Twins unit s past log x y) : Twins unit s True log (x.install .never) (y.install .never) := by
  have closed := twins.uninstall
  have same (t : Thread) : t.uninstall.installed = t.installed := by
    unfold Thread.uninstall
    split <;> rfl
  have new : x.installed ≠ unit := (same x ▸ closed.known).ne'
  have fresh : UnitContext.unit { unit := x.installed, fault := .never } ≠ unit := new
  refine { closed with context := ?_, whole := ?_, away := ?_, installed := ?_, known := ?_ }
  · simp only [Thread.install, twins.installed, Option.map_some, UnitContext.onChannel_of_ne _ fresh]
  · exact fun d active own => by cases active; exact absurd own new
  · exact fun _ d active => by cases active; exact new
  · exact congrArg (· + 1) twins.installed
  · exact Nat.lt_succ_of_lt twins.known

end Twins

/-- A unit that is new is installed on two channels. -/
theorem twins_install {t : Thread} (new : t.bytesOf t.installed = []) (fault : SinkFault) :
    Twins t.installed { fault } False [] (t.install .never) (t.install fault) where
  context := by simp [Thread.install, UnitContext.onChannel, UnitContext.withChannel, ChannelState.after]
  whole := fun c active _ => by cases active; rfl
  away := False.elim
  calls := rfl
  notes := rfl
  installed := rfl
  panicSite := rfl
  emissions := rfl
  sent := (bytesOf_uninstall t _).trans new
  taken := (bytesOf_uninstall t _).trans new
  known := Nat.lt_succ_self _

/-- Twins that have not been sent the verdict of the unit whose channel is apart. -/
def Alike (unit : Nat) (s : ChannelState) (past : Prop) (x y : Thread) : Prop :=
  ∃ log, Twins unit s past log x y ∧ ∀ r ∈ log, r.isTerminal = false

namespace Alike

theorem seen (alike : Alike unit s past x y) : y.seen unit = x.seen unit := by
  obtain ⟨log, twins, _⟩ := alike
  exact twins.seen

theorem isActive (alike : Alike unit s past x y) : y.isActive = x.isActive := by
  obtain ⟨log, twins, _⟩ := alike
  exact twins.isActive

theorem calls (alike : Alike unit s past x y) : y.calls = x.calls := by
  obtain ⟨log, twins, _⟩ := alike
  exact twins.calls

theorem panicSite (alike : Alike unit s past x y) : y.panicSite = x.panicSite := by
  obtain ⟨log, twins, _⟩ := alike
  exact twins.panicSite

/-- Of the active unit, only the channel differs. -/
theorem context (alike : Alike unit s past x y) : ∃ s', y.context = x.context.map (·.onChannel unit s') := by
  obtain ⟨log, twins, _⟩ := alike
  exact ⟨_, twins.context⟩

/-- A unit that is over makes no difference. -/
theorem weaken (alike : Alike unit s True x y) : Alike unit s past x y := by
  obtain ⟨log, twins, plain⟩ := alike
  exact ⟨log, { twins with away := fun _ => twins.away trivial }, plain⟩

theorem note (alike : Alike unit s past x y) (item : TraceItem) : Alike unit s past (x.note item) (y.note item) := by
  obtain ⟨log, twins, plain⟩ := alike
  exact ⟨log, twins.note item, plain⟩

theorem change (alike : Alike unit s past x y) (f : List (String × MockCall) → List (String × MockCall)) :
    Alike unit s past { x with calls := f x.calls } { y with calls := f y.calls } := by
  obtain ⟨log, twins, plain⟩ := alike
  exact ⟨log, twins.change f, plain⟩

theorem put (alike : Alike unit s past x y) {e : Emission} (other : ∀ u bytes, e ≠ .outcome u bytes) :
    Alike unit s past (x.put e) (y.put e) := by
  obtain ⟨log, twins, plain⟩ := alike
  exact ⟨log, twins.put other, plain⟩

theorem modifyContext (alike : Alike unit s past x y) {f : UnitContext → UnitContext}
    (apart : ∀ c s, f (c.withChannel s) = (f c).withChannel s)
    (same : ∀ c, (f c).unit = c.unit ∧ (f c).channel = c.channel) :
    Alike unit s past (x.modifyContext f) (y.modifyContext f) := by
  obtain ⟨log, twins, plain⟩ := alike
  exact ⟨log, twins.modifyContext apart same, plain⟩

/-- The queue of the active unit becomes another one. -/
theorem setQueue (alike : Alike unit s past x y) {d : UnitContext} (active : x.context = some c)
    (other : y.context = some d) (queue : ExpectQueue) :
    Alike unit s past { x with context := some { c with queue } } { y with context := some { d with queue } } := by
  have changed := alike.modifyContext (f := fun c => { c with queue }) (fun _ _ => rfl) fun _ => ⟨rfl, rfl⟩
  simpa only [Thread.modifyContext, active, other, Option.map_some] using changed

/-- **Twins that record the same are twins again.** -/
theorem emit (alike : Alike unit s past x y) {r : Record} (kind : r.isTerminal = false) :
    Alike unit s past (x.emit r) (y.emit r) := by
  obtain ⟨log, twins, plain⟩ := alike
  by_cases own : ∃ c ∈ x.context, c.unit = unit
  · obtain ⟨c, active, own⟩ := own
    refine ⟨log ++ [r], twins.emit_own active own r, List.forall_mem_append.2 ⟨plain, ?_⟩⟩
    rintro _ (_ | ⟨_, ⟨⟩⟩)
    exact kind
  · push Not at own
    exact ⟨log, twins.emit_apart own r, plain⟩

theorem fail (alike : Alike unit s past x y) (f : Failure) : Alike unit s past (x.fail f) (y.fail f) := by
  refine emit (alike.modifyContext ?_ ?_) rfl
  · exact fun _ _ => rfl
  · exact fun _ => ⟨rfl, rfl⟩

/-- A failure is recorded if there is a unit to record it in. -/
theorem fail_of_isActive (alike : Alike unit s past x y) (f : Failure) :
    Alike unit s past (if x.isActive then x.fail f else x) (if y.isActive then y.fail f else y) := by
  rw [alike.isActive]
  split
  · exact alike.fail f
  · exact alike

theorem skip (alike : Alike unit s past x y) (notice : SkipNotice) :
    Alike unit s past (x.skip notice) (y.skip notice) := by
  refine emit (alike.modifyContext ?_ ?_) rfl
  · exact fun _ _ => rfl
  · exact fun _ => ⟨rfl, rfl⟩

end Alike

end Thread

end TestIsolation
