/-!
# Events

What the engine reports while it runs. Every event has a level, a sentence and named values, and most can also
open a span that later events are reported inside of. Sentence, values and span are functions of the event, so
they cannot disagree.
-/

namespace Spellcast

inductive Level where
  | trace
  | debug
  | info
  | warn
  | error
deriving DecidableEq

def Level.name : Level → String
  | trace => "TRACE"
  | debug => "DEBUG"
  | info => "INFO"
  | warn => "WARN"
  | error => "ERROR"

/-- A value reported with an event. -/
inductive Detail where
  | nat (value : Nat)
  | int (value : Int)
  | bool (value : Bool)
  | text (value : String)
deriving DecidableEq

inductive Event where
  /-- The program counter was moved past the end of the program. -/
  | boundsFault (program : String) (index length : Nat) (caster site : String)
  /-- A context was canceled and its remaining instructions were notified. -/
  | canceled (reason : String) (counter observers : Nat) (absorbed : Bool)
  /-- A context was stopped without notifying anyone. -/
  | terminated (counter length : Nat)
  /-- An instruction supplied the child of a fork. -/
  | manipulatorSelected (instruction : String) (position : Nat)
  /-- A child context was stored. -/
  | contextForked (parent child depth remaining : Nat)
  /-- A context was copied together with its ancestors. -/
  | lineageDuplicated (source copy copied : Nat) (truncated : Bool)
  /-- A cast was registered. -/
  | castStarted (cast : Nat) (program caster : String)
  /-- A cast has nothing left to run. -/
  | castCompleted (cast steps forks ticks : Nat) (reason : Option String)
  /-- A cast waits for its suspension to end. -/
  | castSuspended (cast : Nat) (remaining : Int)
  /-- The suspension of a cast has ended. -/
  | castResumed (cast counter : Nat)
  /-- A cast wanted to fork more often than it may. -/
  | forkLimitExceeded (cast limit : Nat)
  /-- A tick is over. -/
  | tickCompleted (tick steps completed inFlight : Nat)
  /-- A cast gets its turn in a tick. -/
  | castStepping (cast context tick : Nat)
  /-- A cast moved on into a child context. -/
  | castForked (cast parent child forks : Nat)
  /-- A cast was stopped from outside. -/
  | castInterrupted (cast : Nat) (reason : String) (notify : Bool)
  /-- An instruction is about to run. -/
  | casting (instruction effect : String)
  /-- The counter of a mark could not be used. -/
  | markUnavailable (error : String)
  /-- A program was decoded. -/
  | programDecoded (form : String) (instructions : Nat)
  /-- A program could not be decoded. -/
  | programRefused (form error : String)
  /-- A configuration was loaded. -/
  | configLoaded (path format : String) (stepsPerTick tickInterval : Nat)
deriving DecidableEq

namespace Event

def level : Event → Level
  | boundsFault .. => .error
  | canceled .. | terminated .. | manipulatorSelected .. | contextForked .. | lineageDuplicated .. => .debug
  | castStarted .. | castCompleted .. | castInterrupted .. | configLoaded .. => .info
  | castSuspended .. | tickCompleted .. | castStepping .. | casting .. => .trace
  | castResumed .. | castForked .. | programDecoded .. => .debug
  | forkLimitExceeded .. | markUnavailable .. | programRefused .. => .warn

def sentence : Event → String
  | boundsFault program index length caster site =>
    s!"Invalid spell cast found, this is a bug and should be reported: index {index} is out of bounds " ++
      s!"for program of length {length} [{program}], caster={caster}, casting_site={site}"
  | canceled reason counter observers absorbed =>
    s!"Context canceled ({reason}) at index {counter}: {observers} observer(s) notified" ++
      if absorbed then ", walk stopped early" else ""
  | terminated counter length => s!"Context terminated at index {counter} of {length}"
  | manipulatorSelected instruction position =>
    s!"Manipulator '{instruction}' at remainder position {position} supplied the child context"
  | contextForked parent child depth remaining =>
    s!"Context {parent} forked into {child} (depth {depth}, {remaining} instruction(s) remaining)"
  | lineageDuplicated source copy copied truncated =>
    s!"Duplicated lineage of context {source} as {copy}: {copied} context(s) copied" ++
      if truncated then " (depth limit reached)" else ""
  | castStarted cast program caster => s!"Cast {cast} started by {caster}: [{program}]"
  | castCompleted cast steps forks ticks reason =>
    s!"Cast {cast} finished after {steps} step(s), {forks} fork(s), {ticks} tick(s)" ++
      match reason with
      | some reason => s!" (canceled: {reason})"
      | none => ""
  | castSuspended cast remaining => s!"Cast {cast} suspended, {remaining} tick(s) remaining"
  | castResumed cast counter => s!"Cast {cast} resumed at index {counter}"
  | forkLimitExceeded cast limit => s!"Cast {cast} exceeded the fork limit of {limit}, terminating"
  | tickCompleted tick steps completed inFlight =>
    s!"Tick {tick}: {steps} step(s), {completed} cast(s) completed, {inFlight} in flight"
  | castStepping cast context tick => s!"Cast {cast} stepping context {context} (tick {tick} of this cast)"
  | castForked cast parent child forks =>
    s!"Cast {cast} moved from context {parent} to {child} (fork {forks})"
  | castInterrupted cast reason notify =>
    let mode := if notify then "canceled" else "terminated"
    s!"Cast {cast} {mode} ({reason})"
  | casting .. => "Casting instruction"
  | markUnavailable _ => "Mark counter attachment unavailable"
  | programDecoded form instructions => s!"Decoded {form} program with {instructions} instruction(s)"
  | programRefused form error => s!"Failed to decode {form} program: {error}"
  | configLoaded path format stepsPerTick tickInterval =>
    s!"Loaded {format} config '{path}': max_steps_per_tick={stepsPerTick}, tick_interval={tickInterval}ms"

/-- The values reported with the event. A missing one is left out. -/
def details : Event → List (String × Detail)
  | boundsFault program index length caster site =>
    [("program", .text program), ("index", .nat index), ("length", .nat length),
      ("caster", .text caster), ("casting_site", .text site)]
  | canceled reason counter observers absorbed =>
    [("reason", .text reason), ("counter", .nat counter), ("observers_notified", .nat observers),
      ("absorbed", .bool absorbed)]
  | terminated counter length => [("counter", .nat counter), ("length", .nat length)]
  | manipulatorSelected instruction position =>
    [("instruction", .text instruction), ("position", .nat position)]
  | contextForked parent child depth remaining =>
    [("parent", .nat parent), ("child", .nat child), ("depth", .nat depth), ("remaining", .nat remaining)]
  | lineageDuplicated source copy copied truncated =>
    [("source", .nat source), ("copy", .nat copy), ("copied", .nat copied), ("truncated", .bool truncated)]
  | castStarted cast program caster =>
    [("cast_id", .nat cast), ("program", .text program), ("caster", .text caster)]
  | castCompleted cast steps forks ticks reason =>
    [("cast_id", .nat cast), ("steps", .nat steps), ("forks", .nat forks), ("ticks", .nat ticks)] ++
      (reason.map fun reason => ("cancel_reason", Detail.text reason)).toList
  | castSuspended cast remaining => [("cast_id", .nat cast), ("remaining", .int remaining)]
  | castResumed cast counter => [("cast_id", .nat cast), ("counter", .nat counter)]
  | forkLimitExceeded cast limit => [("cast_id", .nat cast), ("limit", .nat limit)]
  | tickCompleted tick steps completed inFlight =>
    [("tick", .nat tick), ("steps", .nat steps), ("completed", .nat completed), ("in_flight", .nat inFlight)]
  | castStepping cast context tick => [("cast_id", .nat cast), ("context", .nat context), ("tick", .nat tick)]
  | castForked cast parent child forks =>
    [("cast_id", .nat cast), ("parent", .nat parent), ("child", .nat child), ("forks", .nat forks)]
  | castInterrupted cast reason notify =>
    [("cast_id", .nat cast), ("reason", .text reason), ("notify", .bool notify)]
  | casting instruction effect => [("instruction", .text instruction), ("effect", .text effect)]
  | markUnavailable error => [("error", .text error)]
  | programDecoded form instructions => [("form", .text form), ("instruction_count", .nat instructions)]
  | programRefused form error => [("form", .text form), ("error", .text error)]
  | configLoaded path format stepsPerTick tickInterval =>
    [("path", .text path), ("format", .text format), ("max_steps_per_tick", .nat stepsPerTick),
      ("tick_interval_ms", .nat tickInterval)]

def spanName : Event → String
  | boundsFault .. => "program_bounds_fault"
  | canceled .. => "context_canceled"
  | terminated .. => "context_terminated"
  | manipulatorSelected .. => "manipulator_selected"
  | contextForked .. => "context_forked"
  | lineageDuplicated .. => "lineage_duplicated"
  | castStarted .. => "cast"
  | castCompleted .. => "cast_completed"
  | castSuspended .. => "cast_suspended"
  | castResumed .. => "cast_resumed"
  | forkLimitExceeded .. => "fork_limit_exceeded"
  | tickCompleted .. => "tick"
  | castStepping .. => "cast_step"
  | castForked .. => "cast_fork"
  | castInterrupted .. => "cast_interrupt"
  | casting .. => "casting"
  | markUnavailable .. => "mark_unavailable"
  | programDecoded .. => "program_decoded"
  | programRefused .. => "program_decode_failed"
  | configLoaded .. => "config_loaded"

/-- How much the span of the event matters: as much as the event, except for the turn of a cast. -/
def spanLevel : Event → Level
  | castStepping .. => .debug
  | event => event.level

def spanKeys : Event → List String
  | boundsFault .. => ["program", "index", "length"]
  | canceled .. => ["reason", "counter"]
  | terminated .. => ["counter", "length"]
  | manipulatorSelected .. => ["instruction"]
  | contextForked .. => ["parent", "child"]
  | lineageDuplicated .. => ["source", "copy"]
  | castStarted .. => ["cast_id", "caster"]
  | castCompleted .. => ["cast_id", "steps"]
  | castSuspended .. => ["cast_id", "remaining"]
  | castResumed .. => ["cast_id"]
  | forkLimitExceeded .. => ["cast_id"]
  | tickCompleted .. => ["tick"]
  | castStepping .. => ["cast_id", "context"]
  | castForked .. => ["cast_id", "parent", "child"]
  | castInterrupted .. => ["cast_id", "reason"]
  | casting .. => []
  | markUnavailable .. => []
  | programDecoded .. => ["form"]
  | programRefused .. => ["form", "error"]
  | configLoaded .. => ["path"]

def spanDetails (title : String) (event : Event) : List (String × Detail) :=
  ("span_name", .text title) :: event.details.filter fun (key, _) => event.spanKeys.contains key

end Event

/-- An event in the log, with the names of the spans it was reported inside of, the outermost first. -/
structure LogEntry where
  event : Event
  spans : List String
deriving DecidableEq

end Spellcast
