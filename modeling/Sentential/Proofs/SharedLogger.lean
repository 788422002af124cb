import Sentential.Proofs.Loggers
import Sentential.Session.Stack

/-!
# The shared logger

Once it has been opened, the channel of the shared logger has one handler, and both have the level
that was set last (`Registry.SharesAt`). Of some events it writes those that reach the level
(`SharesAt.writeShared_eq`), and the level decides on the stack that a program finds
(`SharesAt.stack_eq`).
-/

namespace Sentential

namespace Registry

/-- There is a shared logger, and its channel has the given level and one handler with the same
level. -/
def SharesAt (r : Registry) (level : Severity) : Prop :=
  ∃ logger, r.shared = some logger ∧ r.channel? logger.channel = some (.ofLevel level.number)

/-- The events that the shared logger writes, in order. -/
def sharedRecords (r : Registry) (events : List Event) : List Event :=
  match r.shared with
  | some logger => r.records logger events
  | none => []

theorem writeShared_eq_sharedRecords (r : Registry) (events : List Event) :
    r.writeShared events = String.join ((r.sharedRecords events).map Event.written) := by
  rw [writeShared, sharedRecords]
  cases r.shared with
  | some logger => exact r.write_eq_records logger events
  | none => rfl

namespace SharesAt

variable {r : Registry} {old : Severity}

theorem sharedRecords_eq (h : r.SharesAt old) (events : List Event) :
    r.sharedRecords events = events.filter fun e => old.number ≤ e.number := by
  obtain ⟨logger, hshared, hchannel⟩ := h
  rw [sharedRecords, hshared]
  exact records_eq_filter hchannel events

theorem writeShared_eq (h : r.SharesAt old) (events : List Event) :
    r.writeShared events =
      String.join ((events.filter fun e => old.number ≤ e.number).map Event.written) := by
  rw [writeShared_eq_sharedRecords, h.sharedRecords_eq]

/-- Setting the level of the shared logger opens no other logger. -/
theorem setSharedLevel (h : r.SharesAt old) (level : Severity) :
    (r.setSharedLevel level).SharesAt level := by
  obtain ⟨logger, hshared, hchannel⟩ := h
  rw [Registry.setSharedLevel, sharedLogger_of_some hshared]
  refine ⟨logger, (shared_setLevel r logger level).trans hshared, ?_⟩
  rw [channel?_setLevel hchannel, if_pos rfl]

/-- The stack depends on the level of the shared logger alone. -/
theorem stack_eq (h : r.SharesAt old) : r.stack = .ofLevel old.number := by
  obtain ⟨logger, hshared, hchannel⟩ := h
  rw [stack, hshared, Option.bind_some, hchannel]
  rfl

end SharesAt

/-- The first request for the shared logger opens it at the level of warnings. -/
theorem sharesAt_sharedLogger_empty :
    (Registry.empty.sharedLogger defaultLoggerName).2.SharesAt .warning :=
  ⟨⟨channelName defaultLoggerName⟩, rfl,
    (channel?_openLogger .empty defaultLoggerName _ .warning).trans (if_pos rfl)⟩

theorem sharesAt_configure_empty (verbose debug : Bool) :
    (Registry.empty.configure verbose debug).SharesAt (switchLevel verbose debug) :=
  sharesAt_sharedLogger_empty.setSharedLevel (switchLevel verbose debug)

end Registry

end Sentential
