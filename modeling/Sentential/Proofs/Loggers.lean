import Sentential.Log.Registry

/-!
# Loggers that share their channels

Loggers are handles, and loggers of one name share a channel. `LogAction` lists everything that can
be done with them, and `Loggers` is what has been done so far: the registry, the loggers in the
order in which they were opened, and the place of the shared one among them. The levels that an
action gives to channels are its `grants`. The registry holds for every channel what the last grant
says and nothing else (`Registry.Reflects`), so that each channel has one handler, at the level of
the channel. This is kept by every action (`Loggers.Sound.step`) and thus holds after any sequence
of actions (`Loggers.run_channels`).
-/

namespace Sentential

/-! ## What a channel writes -/

/-- An event as it is written: a line of its own. -/
def Event.written (e : Event) : String := e.line ++ "\n"

/-- The events that a logger writes, in order; an event stands here once for every handler that
writes it. -/
def Registry.records (r : Registry) (logger : Logger) (events : List Event) : List Event :=
  match r.channel? logger.channel with
  | some c => events.flatMap fun e => (c.writers e).map fun _ => e
  | none => []

namespace Registry

variable {r : Registry} {logger : Logger}

theorem write_eq_records (r : Registry) (logger : Logger) (events : List Event) :
    r.write logger events = String.join ((r.records logger events).map Event.written) := by
  rw [write, records]
  cases r.channel? logger.channel with
  | none => rfl
  | some c =>
      induction events with
      | nil => rfl
      | cons e rest ih =>
          dsimp only at ih ⊢
          rw [List.map_cons, String.join_cons, ih, List.flatMap_cons, List.map_append,
            String.join_append, List.map_map]
          rfl

theorem writers_ofLevel (level : Int) (e : Event) :
    (Channel.ofLevel level).writers e = if level ≤ e.number then [⟨level⟩] else [] := by
  rw [Channel.writers, Channel.ofLevel]
  by_cases h : level ≤ e.number <;> simp [h]

/-- A channel with one handler at its own level writes an event once if the number of the event
reaches the level, and not at all otherwise. -/
theorem records_eq_filter {level : Int} (h : r.channel? logger.channel = some (.ofLevel level))
    (events : List Event) : r.records logger events = events.filter fun e => level ≤ e.number := by
  rw [records, h]
  dsimp only
  induction events with
  | nil => rfl
  | cons e rest ih =>
      rw [List.flatMap_cons, ih, writers_ofLevel, List.filter_cons]
      by_cases hlevel : level ≤ e.number <;> simp [hlevel]

end Registry

/-! ## What the operations do to the channels -/

theorem lookup_cons_ite {α : Type} (key name : String) (a : α) (entries : List (String × α)) :
    ((key, a) :: entries).lookup name = if name = key then some a else entries.lookup name := by
  rw [List.lookup_cons]
  by_cases h : name = key
  · rw [if_pos h, beq_iff_eq.2 h]
  · rw [if_neg h, beq_false_of_ne h]

namespace Registry

variable {r : Registry} {name other : String} {level : Severity} {logger : Logger}

theorem lookup_putChannel (name other : String) (c : Channel) (channels : List (String × Channel)) :
    (putChannel name c channels).lookup other =
      if other = name then some c else channels.lookup other := by
  induction channels with
  | nil => exact lookup_cons_ite name other c []
  | cons entry rest ih =>
      obtain ⟨key, d⟩ := entry
      rw [putChannel, lookup_cons_ite]
      by_cases hkey : key = name
      · subst hkey
        rw [if_pos rfl, lookup_cons_ite]
        split <;> rfl
      · rw [if_neg hkey, lookup_cons_ite, ih]
        -- the entry of another name keeps its place
        by_cases hother : other = key
        · subst hother
          rw [if_pos rfl, if_pos rfl, if_neg hkey]
        · rw [if_neg hother, if_neg hother]

theorem channel?_put (r : Registry) (name other : String) (c : Channel) :
    (r.put name c).channel? other = if other = name then some c else r.channel? other :=
  lookup_putChannel name other c r.channels

theorem channel?_openLogger (r : Registry) (name other : String) (level : Severity) :
    (r.openLogger name level).2.channel? other =
      if other = channelName name then some (.ofLevel level.number) else r.channel? other :=
  channel?_put r (channelName name) other _

/-- The handler of a channel follows the level of the channel. -/
theorem channel?_setLevel {old : Int} (h : r.channel? logger.channel = some (.ofLevel old))
    (level : Severity) (other : String) :
    (r.setLevel logger level).channel? other =
      if other = logger.channel then some (.ofLevel level.number) else r.channel? other := by
  rw [setLevel, h]
  exact channel?_put r logger.channel other _

theorem shared_setLevel (r : Registry) (logger : Logger) (level : Severity) :
    (r.setLevel logger level).shared = r.shared := by
  rw [setLevel]
  split <;> rfl

theorem sharedLogger_of_some (h : r.shared = some logger) (name : String) :
    r.sharedLogger name = (logger, r) := by
  rw [sharedLogger, h]

theorem sharedLogger_of_none (h : r.shared = none) (name : String) :
    r.sharedLogger name =
      (⟨channelName name⟩,
        { (r.openLogger name .warning).2 with shared := some ⟨channelName name⟩ }) := by
  rw [sharedLogger, h]
  rfl

end Registry

/-! ## Levels given to channels -/

/-- Levels that were given to channels, in the order in which they were given. -/
abbrev Grants := List (String × Severity)

/-- The level that was given last to the channel of a name. -/
def Grants.last? (grants : Grants) (name : String) : Option Severity := grants.reverse.lookup name

/-- Every channel is what the last grant to it made of it: it has the level that was given, and one
handler with the same level. -/
def Registry.Reflects (r : Registry) (grants : Grants) : Prop :=
  ∀ name, r.channel? name = (grants.last? name).map fun level => .ofLevel level.number

/-- The grants that come with asking for the shared logger: the first request opens it. -/
def Registry.sharingGrants (r : Registry) (name : String) : Grants :=
  match r.shared with
  | some _ => []
  | none => [(channelName name, .warning)]

/-- Asking for the shared logger gives a level to no channel but its own. -/
theorem Registry.fst_of_mem_sharingGrants (r : Registry) {name : String} {p : String × Severity}
    (hp : p ∈ r.sharingGrants name) : p.1 = (r.sharedLogger name).1.channel := by
  rw [sharingGrants] at hp
  cases hshared : r.shared with
  | some logger => simp [hshared] at hp
  | none =>
      simp only [hshared, List.mem_singleton] at hp
      rw [sharedLogger_of_none hshared, hp]

namespace Grants

theorem last?_append (grants more : Grants) (name : String) :
    last? (grants ++ more) name = (last? more name).or (last? grants name) := by
  rw [last?, List.reverse_append, List.lookup_append]
  rfl

theorem last?_concat (grants : Grants) (target : String) (level : Severity) (name : String) :
    last? (grants ++ [(target, level)]) name =
      if name = target then some level else last? grants name := by
  rw [last?_append, last?, List.reverse_singleton, lookup_cons_ite]
  split <;> rfl

theorem last?_append_of_not_mem {more : Grants} {name : String} (h : ∀ level, (name, level) ∉ more)
    (grants : Grants) : last? (grants ++ more) name = last? grants name := by
  have hnone : last? more name = none := by
    rw [last?, List.lookup_eq_none_iff]
    rintro ⟨target, level⟩ hmem
    rw [bne_iff_ne]
    rintro rfl
    exact h level (List.mem_reverse.1 hmem)
  rw [last?_append, hnone, Option.none_or]

theorem isSome_last?_append {grants : Grants} {name : String}
    (h : (last? grants name).isSome = true)
    (more : Grants) : (last? (grants ++ more) name).isSome = true := by
  rw [last?_append, Option.isSome_or, h, Bool.or_true]

end Grants

namespace Registry.Reflects

variable {r r' : Registry} {grants : Grants} {name : String} {level : Severity} {logger : Logger}

theorem empty : Registry.empty.Reflects [] := fun _ => rfl

/-- A registry reflects one more grant if it changed for the channel of the grant alone. -/
theorem concat (h : r.Reflects grants)
    (hchanged : ∀ other, r'.channel? other =
      if other = name then some (.ofLevel level.number) else r.channel? other) :
    r'.Reflects (grants ++ [(name, level)]) := by
  intro other
  rw [hchanged, Grants.last?_concat, h other]
  split <;> rfl

theorem openLogger (h : r.Reflects grants) (name : String) (level : Severity) :
    (r.openLogger name level).2.Reflects (grants ++ [(channelName name, level)]) :=
  h.concat fun other => channel?_openLogger r name other level

theorem setLevel (h : r.Reflects grants) (hgiven : (grants.last? logger.channel).isSome = true)
    (level : Severity) :
    (r.setLevel logger level).Reflects (grants ++ [(logger.channel, level)]) := by
  obtain ⟨old, hold⟩ := Option.isSome_iff_exists.1 hgiven
  have hchannel := h logger.channel
  rw [hold] at hchannel
  exact h.concat (channel?_setLevel hchannel level)

end Registry.Reflects

/-! ## Actions -/

/-- What can be done with loggers. A logger that was opened is meant by its position among all that
were. -/
inductive LogAction where
  | openLogger (name : String) (level : Severity)
  | askShared (name : String)
  | setLevel (position : Nat) (level : Severity)
  | setSharedLevel (level : Severity)
  | configure (verbose debug : Bool)
  | write (position : Nat) (events : List Event)

/-- The loggers of a program. -/
structure Loggers where
  registry : Registry
  /-- The loggers in the order in which they were opened. -/
  opened : List Logger
  /-- The position of the shared logger. -/
  sharedAt : Option Nat

namespace Loggers

/-- No logger. -/
def empty : Loggers := ⟨.empty, [], none⟩

/-- The position of the shared logger and the loggers after it was asked for. -/
def askShared (s : Loggers) (name : String) : Nat × Loggers :=
  let (logger, registry) := s.registry.sharedLogger name
  match s.sharedAt with
  | some i => (i, { s with registry })
  | none => (s.opened.length, ⟨registry, s.opened ++ [logger], some s.opened.length⟩)

/-- The loggers after an action. Nothing happens to a logger that was not opened. -/
def step (s : Loggers) : LogAction → Loggers
  | .openLogger name level =>
      let (logger, registry) := s.registry.openLogger name level
      { s with registry, opened := s.opened ++ [logger] }
  | .askShared name => (s.askShared name).2
  | .setLevel i level =>
      match s.opened[i]? with
      | some logger => { s with registry := s.registry.setLevel logger level }
      | none => s
  | .setSharedLevel level =>
      { (s.askShared defaultLoggerName).2 with registry := s.registry.setSharedLevel level }
  | .configure verbose debug =>
      { (s.askShared defaultLoggerName).2 with registry := s.registry.configure verbose debug }
  | .write .. => s

/-- The loggers after a sequence of actions. -/
def run (s : Loggers) (actions : List LogAction) : Loggers := actions.foldl step s

/-- What the logger at a position writes for some events. -/
def output (s : Loggers) (position : Nat) (events : List Event) : String :=
  match s.opened[position]? with
  | some logger => s.registry.write logger events
  | none => ""

/-- The levels given by setting the level of the shared logger, which is opened if there is none. -/
def sharedGrants (s : Loggers) (level : Severity) : Grants :=
  s.registry.sharingGrants defaultLoggerName ++
    [((s.registry.sharedLogger defaultLoggerName).1.channel, level)]

/-- The levels that an action gives to channels. -/
def grants (s : Loggers) : LogAction → Grants
  | .openLogger name level => [(channelName name, level)]
  | .askShared name => s.registry.sharingGrants name
  | .setLevel i level =>
      match s.opened[i]? with
      | some logger => [(logger.channel, level)]
      | none => []
  | .setSharedLevel level => s.sharedGrants level
  | .configure verbose debug => s.sharedGrants (Registry.switchLevel verbose debug)
  | .write .. => []

/-- The levels that a sequence of actions gives to channels. -/
def history (s : Loggers) : List LogAction → Grants
  | [] => []
  | action :: rest => s.grants action ++ (s.step action).history rest

section AskShared

variable {s : Loggers} {i : Nat}

theorem askShared_of_some (h : s.sharedAt = some i) (name : String) :
    s.askShared name = (i, { s with registry := (s.registry.sharedLogger name).2 }) := by
  rw [askShared, h]

theorem askShared_of_none (h : s.sharedAt = none) (name : String) :
    s.askShared name =
      (s.opened.length,
        ⟨(s.registry.sharedLogger name).2, s.opened ++ [(s.registry.sharedLogger name).1],
          some s.opened.length⟩) := by
  rw [askShared, h]

end AskShared

/-! ## What every action keeps -/

/-- The loggers are what the grants so far made of them, and the registry shares the logger at the
position of the shared one. -/
structure Sound (s : Loggers) (grants : Grants) : Prop where
  reflects : s.registry.Reflects grants
  given : ∀ logger ∈ s.opened, (grants.last? logger.channel).isSome = true
  shared : ∀ i, s.sharedAt = some i →
    ∃ logger, s.opened[i]? = some logger ∧ s.registry.shared = some logger
  unshared : s.sharedAt = none → s.registry.shared = none

theorem sound_empty : empty.Sound [] where
  reflects := .empty
  given := fun _ h => absurd h List.not_mem_nil
  shared := fun _ h => nomatch h
  unshared := fun _ => rfl

namespace Sound

variable {s : Loggers} {grants : Grants} {logger : Logger} {i : Nat}

theorem getElem?_concat (h : s.Sound grants) (hi : s.sharedAt = some i) (logger : Logger) :
    ∃ shared, (s.opened ++ [logger])[i]? = some shared ∧ s.registry.shared = some shared := by
  obtain ⟨shared, hget, hshared⟩ := h.shared i hi
  have hlt : i < s.opened.length := (List.getElem?_eq_some_iff.1 hget).1
  exact ⟨shared, (List.getElem?_append_left hlt).trans hget, hshared⟩

theorem given_concat (h : s.Sound grants) (target : String) (level : Severity) :
    ∀ logger ∈ s.opened ++ [⟨target⟩],
      ((grants ++ [(target, level)]).last? logger.channel).isSome = true := by
  intro logger hmem
  rcases List.mem_append.1 hmem with hmem | hmem
  · exact Grants.isSome_last?_append (h.given logger hmem) _
  · rw [List.mem_singleton.1 hmem, Grants.last?_concat, if_pos rfl]
    rfl

theorem openLogger (h : s.Sound grants) (name : String) (level : Severity) :
    (s.step (.openLogger name level)).Sound (grants ++ [(channelName name, level)]) where
  reflects := h.reflects.openLogger name level
  given := h.given_concat (channelName name) level
  shared _ hi := h.getElem?_concat hi _
  unshared := h.unshared

/-- The shared logger is asked for at its position, and it is opened by the first request alone. -/
theorem askShared (h : s.Sound grants) (name : String) :
    (s.askShared name).2.Sound (grants ++ s.registry.sharingGrants name) ∧
      (s.askShared name).2.registry = (s.registry.sharedLogger name).2 ∧
      (s.askShared name).2.opened[(s.askShared name).1]? =
        some (s.registry.sharedLogger name).1 := by
  cases hposition : s.sharedAt with
  | some i =>
      obtain ⟨logger, hget, hshared⟩ := h.shared i hposition
      rw [askShared_of_some hposition, Registry.sharingGrants, hshared,
        Registry.sharedLogger_of_some hshared, List.append_nil]
      exact ⟨h, rfl, hget⟩
  | none =>
      have hshared := h.unshared hposition
      rw [askShared_of_none hposition, Registry.sharingGrants, hshared,
        Registry.sharedLogger_of_none hshared]
      have hreflects := h.reflects.openLogger name .warning
      have hgiven := h.given_concat (channelName name) .warning
      refine ⟨⟨hreflects, hgiven, ?_, ?_⟩, rfl, List.getElem?_concat_length⟩
      · intro i hi
        rw [← Option.some.inj hi]
        exact ⟨_, List.getElem?_concat_length, rfl⟩
      · exact fun hnone => nomatch hnone

theorem setLevel (h : s.Sound grants) (hmem : logger ∈ s.opened) (level : Severity) :
    Sound { s with registry := s.registry.setLevel logger level }
      (grants ++ [(logger.channel, level)]) where
  reflects := h.reflects.setLevel (h.given logger hmem) level
  given other hother := Grants.isSome_last?_append (h.given other hother) _
  shared i hi := by
    obtain ⟨shared, hget, hshared⟩ := h.shared i hi
    exact ⟨shared, hget, (Registry.shared_setLevel _ _ _).trans hshared⟩
  unshared hnone := (Registry.shared_setLevel _ _ _).trans (h.unshared hnone)

theorem setSharedLevel (h : s.Sound grants) (level : Severity) :
    (s.step (.setSharedLevel level)).Sound (grants ++ s.sharedGrants level) := by
  obtain ⟨hasked, hregistry, hget⟩ := h.askShared defaultLoggerName
  have hset := hasked.setLevel (List.mem_of_getElem? hget) level
  rw [hregistry, List.append_assoc] at hset
  exact hset

/-- Every action keeps the loggers sound. -/
theorem step (h : s.Sound grants) (action : LogAction) :
    (s.step action).Sound (grants ++ s.grants action) := by
  cases action with
  | openLogger name level => exact h.openLogger name level
  | askShared name => exact (h.askShared name).1
  | setLevel i level =>
      rw [Loggers.step, Loggers.grants]
      cases hget : s.opened[i]? with
      | some logger => exact h.setLevel (List.mem_of_getElem? hget) level
      | none =>
          rw [List.append_nil]
          exact h
  | setSharedLevel level => exact h.setSharedLevel level
  | configure verbose debug => exact h.setSharedLevel (Registry.switchLevel verbose debug)
  | write i events =>
      rw [Loggers.grants, List.append_nil]
      exact h

/-- Every sequence of actions keeps the loggers sound. -/
theorem run (h : s.Sound grants) (actions : List LogAction) :
    (s.run actions).Sound (grants ++ s.history actions) := by
  induction actions generalizing s grants with
  | nil =>
      rw [history, List.append_nil]
      exact h
  | cons action rest ih =>
      rw [history, ← List.append_assoc]
      exact ih (h.step action)

/-- Nothing happens when the shared logger is asked for again. -/
theorem askShared_eq (h : s.Sound grants) (hi : s.sharedAt = some i) (name : String) :
    s.askShared name = (i, s) := by
  obtain ⟨logger, -, hshared⟩ := h.shared i hi
  rw [askShared_of_some hi, Registry.sharedLogger_of_some hshared]

end Sound

/-! ## The shared logger and the others -/

variable {s : Loggers} {i : Nat}

theorem sharedAt_askShared (hi : s.sharedAt = some i) (name : String) :
    (s.askShared name).2.sharedAt = some i := by
  rw [askShared_of_some hi]
  exact hi

theorem sharedAt_run (hi : s.sharedAt = some i) (actions : List LogAction) :
    (s.run actions).sharedAt = some i := by
  induction actions generalizing s with
  | nil => exact hi
  | cons action rest ih =>
      apply ih
      cases action with
      | openLogger name level => exact hi
      | askShared name => exact sharedAt_askShared hi name
      | setLevel position level =>
          rw [step]
          split <;> exact hi
      | setSharedLevel level => exact sharedAt_askShared hi defaultLoggerName
      | configure verbose debug => exact sharedAt_askShared hi defaultLoggerName
      | write position events => exact hi

/-- A logger keeps its position. -/
theorem opened_prefix_step (s : Loggers) (action : LogAction) :
    s.opened <+: (s.step action).opened := by
  have hasked (name : String) : s.opened <+: (s.askShared name).2.opened := by
    cases hposition : s.sharedAt with
    | some i => simp [askShared_of_some hposition]
    | none => simp [askShared_of_none hposition]
  cases action with
  | openLogger name level => exact List.prefix_append _ _
  | askShared name => exact hasked name
  | setLevel position level =>
      rw [step]
      split <;> exact List.prefix_rfl
  | setSharedLevel level => exact hasked defaultLoggerName
  | configure verbose debug => exact hasked defaultLoggerName
  | write position events => exact List.prefix_rfl

theorem opened_prefix_run (s : Loggers) (actions : List LogAction) :
    s.opened <+: (s.run actions).opened := by
  induction actions generalizing s with
  | nil => exact List.prefix_rfl
  | cons action rest ih => exact (s.opened_prefix_step action).trans (ih (s.step action))

/-- If the shared logger is opened before its level is set, both levels go to the same channel. -/
theorem fst_of_mem_sharedGrants (s : Loggers) {level : Severity} {p : String × Severity}
    (hp : p ∈ s.sharedGrants level) :
    p.1 = (s.registry.sharedLogger defaultLoggerName).1.channel := by
  rcases List.mem_append.1 hp with hp | hp
  · exact s.registry.fst_of_mem_sharingGrants hp
  · rw [List.mem_singleton.1 hp]

/-- An action gives levels to one channel at most. -/
theorem grants_fst_eq {s : Loggers} {action : LogAction} {p q : String × Severity}
    (hp : p ∈ s.grants action) (hq : q ∈ s.grants action) : p.1 = q.1 := by
  cases action with
  | openLogger name level => rw [List.mem_singleton.1 hp, List.mem_singleton.1 hq]
  | askShared name =>
      rw [s.registry.fst_of_mem_sharingGrants hp, s.registry.fst_of_mem_sharingGrants hq]
  | setLevel position level =>
      rw [grants] at hp hq
      cases hget : s.opened[position]? with
      | some logger =>
          rw [hget] at hp hq
          rw [List.mem_singleton.1 hp, List.mem_singleton.1 hq]
      | none =>
          rw [hget] at hp
          exact absurd hp List.not_mem_nil
  | setSharedLevel level => rw [s.fst_of_mem_sharedGrants hp, s.fst_of_mem_sharedGrants hq]
  | configure verbose debug => rw [s.fst_of_mem_sharedGrants hp, s.fst_of_mem_sharedGrants hq]
  | write position events => exact absurd hp List.not_mem_nil

namespace Sound

variable {grants : Grants} {logger : Logger}

/-- A logger writes every event that reaches the level of its channel once, and no other event. -/
theorem exists_level (h : s.Sound grants) (hget : s.opened[i]? = some logger) :
    ∃ level : Severity, grants.last? logger.channel = some level ∧
      s.registry.channel? logger.channel = some ⟨level.number, [⟨level.number⟩]⟩ ∧
      ∀ events : List Event, s.output i events =
        String.join ((events.filter fun e => level.number ≤ e.number).map Event.written) := by
  obtain ⟨level, hlevel⟩ := Option.isSome_iff_exists.1 (h.given logger (List.mem_of_getElem? hget))
  have hchannel := h.reflects logger.channel
  rw [hlevel] at hchannel
  refine ⟨level, hlevel, hchannel, fun events => ?_⟩
  rw [output, hget]
  dsimp only
  rw [Registry.write_eq_records, Registry.records_eq_filter hchannel]

/-- A channel to which an action gives no level is left as it is. -/
theorem channel?_step (h : s.Sound grants) {action : LogAction} {name : String}
    (hname : ∀ level, (name, level) ∉ s.grants action) :
    (s.step action).registry.channel? name = s.registry.channel? name := by
  rw [(h.step action).reflects name, h.reflects name, Grants.last?_append_of_not_mem hname]

/-- The shared logger stays the same, by whatever name it is asked for. -/
theorem askShared_run (h : s.Sound grants) (hi : s.sharedAt = some i)
    (hget : s.opened[i]? = some logger) (more : List LogAction) (name : String) :
    (s.run more).opened[i]? = some logger ∧ (s.run more).askShared name = (i, s.run more) ∧
      ((s.run more).registry.sharedLogger name).1 = logger := by
  have hmore := h.run more
  have hposition := sharedAt_run hi more
  obtain ⟨rest, hrest⟩ := s.opened_prefix_run more
  have hkept : (s.run more).opened[i]? = some logger := by
    rw [← hrest, List.getElem?_append_left (List.getElem?_eq_some_iff.1 hget).1, hget]
  obtain ⟨shared, hshared, hregistry⟩ := hmore.shared i hposition
  rw [hkept, Option.some.injEq] at hshared
  refine ⟨hkept, hmore.askShared_eq hposition name, ?_⟩
  rw [Registry.sharedLogger_of_some hregistry, hshared]

end Sound

/-! ## The main statement -/

/-- The loggers after a sequence of actions from the start. -/
def after (actions : List LogAction) : Loggers := empty.run actions

/-- The levels that were given to channels by a sequence of actions from the start. -/
def given (actions : List LogAction) : Grants := empty.history actions

theorem sound_after (actions : List LogAction) : (after actions).Sound (given actions) :=
  sound_empty.run actions

/-- After any sequence of actions, the channel of every logger has one handler, and channel and
handler have the level that was given last to the channel, through whichever logger. So a logger
writes an event once if its number reaches that level, and not at all otherwise. An action gives
levels to one channel at most and leaves every other channel as it is. Once there is a shared
logger, that same logger is returned whatever happens and whatever name it is asked for by. -/
theorem run_channels (actions : List LogAction) :
    (∀ (i : Nat) (logger : Logger), (after actions).opened[i]? = some logger →
        ∃ level : Severity, (given actions).last? logger.channel = some level ∧
          (after actions).registry.channel? logger.channel =
            some ⟨level.number, [⟨level.number⟩]⟩ ∧
          ∀ events : List Event, (after actions).output i events =
            String.join ((events.filter fun e => level.number ≤ e.number).map Event.written)) ∧
      (∀ action : LogAction,
        (∀ p ∈ (after actions).grants action, ∀ q ∈ (after actions).grants action, p.1 = q.1) ∧
          ∀ name : String, (∀ level, (name, level) ∉ (after actions).grants action) →
            ((after actions).step action).registry.channel? name =
              (after actions).registry.channel? name) ∧
      ∀ i : Nat, (after actions).sharedAt = some i →
        ∃ logger : Logger, (after actions).opened[i]? = some logger ∧
          ∀ (more : List LogAction) (name : String),
            ((after actions).run more).opened[i]? = some logger ∧
              ((after actions).run more).askShared name = (i, (after actions).run more) ∧
              (((after actions).run more).registry.sharedLogger name).1 = logger := by
  have hsound := sound_after actions
  refine ⟨fun i logger hget => hsound.exists_level hget, ?_, ?_⟩
  · intro action
    exact ⟨fun p hp q hq => grants_fst_eq hp hq, fun name hname => hsound.channel?_step hname⟩
  · intro i hi
    obtain ⟨logger, hget, -⟩ := hsound.shared i hi
    exact ⟨logger, hget, hsound.askShared_run hi hget⟩

/-- Two names of the root channel, a level given through the older of the two loggers, and a shared
logger that is asked for by another name. -/
theorem run_channels_root :
    let actions : List LogAction := [.openLogger "" .info, .openLogger "root" .error,
      .setLevel 0 .debug, .askShared "tabula"]
    (after actions).opened[1]? = some ⟨"root"⟩ ∧
      (after actions).output 1 [.parsing "p"] = "[DEBUG] Parsing formula: p\n" ∧
      (after actions).registry.channel? "tabula" =
        ((after actions).step (.setLevel 1 .error)).registry.channel? "tabula" ∧
      ((after actions).askShared "other").1 = 2 := by
  intro actions
  obtain ⟨hchannels, hothers, hshared⟩ := run_channels actions
  have hget : (after actions).opened[1]? = some ⟨"root"⟩ := by decide
  obtain ⟨level, hlevel, -, hout⟩ := hchannels 1 _ hget
  have hlast : (given actions).last? "root" = some .debug := by decide
  have hdebug : level = .debug := Option.some.inj (hlevel.symm.trans hlast)
  refine ⟨hget, ?_, ?_, ?_⟩
  · rw [hout, hdebug]
    decide +kernel
  · refine ((hothers (.setLevel 1 .error)).2 "tabula" ?_).symm
    intro level
    have hgrants : (after actions).grants (.setLevel 1 .error) = [("root", .error)] := by decide
    rw [hgrants, List.mem_singleton]
    exact fun h => absurd (Prod.mk.inj h).1 (by decide)
  · obtain ⟨logger, -, hsame⟩ := hshared 2 (by decide)
    have hasked : (after actions).askShared "other" = (2, after actions) := (hsame [] "other").2.1
    rw [hasked]

end Loggers

end Sentential
