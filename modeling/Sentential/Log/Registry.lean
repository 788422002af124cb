import Sentential.Log.Event

/-!
# The registry of loggers

A channel writes events: it has a level and handlers with levels of their own, and an event is
written once by every handler if its number reaches the level of the channel and of the handler. A
`Logger` is a handle on the channel of a name; loggers of one name share their channel. The
`Registry` keeps the channels, and at most one logger that is shared by the whole library.
-/

namespace Sentential

/-- The level from which on a handler writes events. -/
structure Handler where
  level : Int
  deriving DecidableEq

/-- The level and the handlers behind the loggers of one name. -/
structure Channel where
  level : Int
  handlers : List Handler
  deriving DecidableEq

namespace Channel

/-- A channel with a single handler, both at the given level. -/
def ofLevel (level : Int) : Channel := ⟨level, [⟨level⟩]⟩

/-- The channel and all its handlers at a new level. -/
def setLevel (c : Channel) (level : Int) : Channel := ⟨level, c.handlers.map fun _ => ⟨level⟩⟩

/-- The handlers that write an event. -/
def writers (c : Channel) (e : Event) : List Handler :=
  if c.level ≤ e.number then c.handlers.filter fun h => h.level ≤ e.number else []

/-- What a channel writes for an event: one line per handler that writes it. -/
def write (c : Channel) (e : Event) : String :=
  String.join ((c.writers e).map fun _ => e.line ++ "\n")

end Channel

/-- A handle on the channel of a name. -/
structure Logger where
  channel : String
  deriving DecidableEq

/-- The channels by name, and the logger that the library shares. -/
structure Registry where
  channels : List (String × Channel)
  shared : Option Logger
  deriving DecidableEq

/-- The name of the channel that a logger name stands for; the empty name stands for the root. -/
def channelName (name : String) : String := if name = "" then "root" else name

/-- The name of the shared logger if no other is asked for. -/
def defaultLoggerName : String := "tabula"

namespace Registry

/-- No channel and no shared logger. -/
def empty : Registry := ⟨[], none⟩

/-- The channel of a name. -/
def channel? (r : Registry) (name : String) : Option Channel := r.channels.lookup name

/-- Stores a channel in place of the one that has its name, or at the end. -/
def putChannel (name : String) (c : Channel) : List (String × Channel) → List (String × Channel)
  | [] => [(name, c)]
  | entry :: rest =>
      if entry.1 = name then (name, c) :: rest else entry :: putChannel name c rest

/-- Stores a channel under its name. -/
def put (r : Registry) (name : String) (c : Channel) : Registry :=
  { r with channels := putChannel name c r.channels }

/-- Opens a logger: its channel begins anew, with a single handler at the given level. -/
def openLogger (r : Registry) (name : String) (level : Severity) : Logger × Registry :=
  let channel := channelName name
  (⟨channel⟩, r.put channel (.ofLevel level.number))

/-- The shared logger. The first request opens it, at the level of warnings; any later request
returns the same logger, whatever name it asks for. -/
def sharedLogger (r : Registry) (name : String) : Logger × Registry :=
  match r.shared with
  | some logger => (logger, r)
  | none =>
      let (logger, opened) := r.openLogger name .warning
      (logger, { opened with shared := some logger })

/-- Sets the level of a logger and of the handlers behind it. -/
def setLevel (r : Registry) (logger : Logger) (level : Severity) : Registry :=
  match r.channel? logger.channel with
  | some c => r.put logger.channel (c.setLevel level.number)
  | none => r

/-- Sets the level of the shared logger. -/
def setSharedLevel (r : Registry) (level : Severity) : Registry :=
  let (logger, opened) := r.sharedLogger defaultLoggerName
  opened.setLevel logger level

/-- The level that the switches of the command line ask for. -/
def switchLevel (verbose debug : Bool) : Severity :=
  if debug then .debug else if verbose then .info else .warning

/-- Sets the level of the shared logger from the switches of the command line. -/
def configure (r : Registry) (verbose debug : Bool) : Registry :=
  r.setSharedLevel (switchLevel verbose debug)

/-- What a logger writes for some events. -/
def write (r : Registry) (logger : Logger) (events : List Event) : String :=
  match r.channel? logger.channel with
  | some c => String.join (events.map c.write)
  | none => ""

/-- What the shared logger writes for some events. -/
def writeShared (r : Registry) (events : List Event) : String :=
  match r.shared with
  | some logger => r.write logger events
  | none => ""

end Registry

end Sentential
