import RemoteDebug.Text.Numeral

/-! The command line: a list of arguments as an invocation, or why it is none.

Options that go with every command may stand before or behind its name; where an
option is given in both places, the inner one counts. An option that takes a value
keeps it back until the next option or the end shows that it is complete, so the
first of two faults is not always the one that is told. Behind `--` every argument
is a value. -/
namespace RemoteDebug.Cli

inductive Command where
  | check
  | tabs
  /-- Attach to a tab, perhaps run a script there, and perhaps leave after so many seconds. -/
  | attach (tab : UInt32) (script : Option String) (seconds : Option Nat)
  deriving DecidableEq, Repr, Inhabited

structure Invocation where
  /-- How often the verbose switch was given, at most 255 times. -/
  verbosity : Nat := 0
  host : String := "127.0.0.1"
  port : Nat := 9222
  /-- Milliseconds. -/
  timeout : Nat := 3000
  command : Command
  deriving DecidableEq, Repr, Inhabited

/-- Why the arguments are no invocation. The first three are requests for a text. -/
inductive Refusal where
  | help
  | version
  /-- Nothing was given at all. -/
  | helpForNothing
  | unknownArgument
  | unknownCommand
  | missingCommand
  | missingArgument
  /-- An option that takes a value has none. -/
  | missingValue
  | badValue
  | repeatedOption
  /-- A switch has a value. -/
  | surplusValue
  deriving DecidableEq, Repr, Inhabited

def Refusal.exitCode : Refusal → Nat
  | .help | .version => 0
  | _ => 2

/-! ### Options -/

/-- Where an argument stands: before the name of a command, or behind it. -/
inductive Level where
  | root
  | check
  | tabs
  | attach
  deriving DecidableEq, Repr, Inhabited

/-- What a value can be given for. -/
inductive Slot where
  | host
  | port
  | timeout
  | tab
  | script
  | seconds
  deriving DecidableEq, Repr, Inhabited

inductive Flag where
  /-- An option that takes a value. -/
  | value (slot : Slot)
  | verbose
  | help
  | version
  deriving DecidableEq, Repr, Inhabited

def Level.long? (level : Level) (name : String) : Option Flag :=
  match name, level with
  | "verbose", _ => some .verbose
  | "help", _ => some .help
  | "host", _ => some (.value .host)
  | "port", _ => some (.value .port)
  | "timeout", _ => some (.value .timeout)
  | "version", .root => some .version
  | "eval", .attach => some (.value .script)
  | "duration", .attach => some (.value .seconds)
  | _, _ => none

def Level.short? (level : Level) (letter : Char) : Option Flag :=
  match letter, level with
  | 'v', _ => some .verbose
  | 'h', _ => some .help
  | 'p', _ => some (.value .port)
  | 'V', .root => some .version
  | 'e', .attach => some (.value .script)
  | _, _ => none

/-- The level of a command name. -/
def Level.ofName? : String → Option Level
  | "check" => some .check
  | "tabs" => some .tabs
  | "attach" => some .attach
  | _ => none

/-- What was given at one level. -/
structure Given where
  verbosity : Option Nat := none
  host : Option String := none
  port : Option Nat := none
  timeout : Option Nat := none
  tab : Option Nat := none
  script : Option String := none
  seconds : Option Nat := none
  deriving DecidableEq, Repr, Inhabited

namespace Given

/-- Nothing was given. -/
def isEmpty (g : Given) : Bool := g == {}

def has (g : Given) : Slot → Bool
  | .host => g.host.isSome
  | .port => g.port.isSome
  | .timeout => g.timeout.isSome
  | .tab => g.tab.isSome
  | .script => g.script.isSome
  | .seconds => g.seconds.isSome

/-- A number from 0 to below `bound`; a minus sign is allowed before zero. -/
def signedBelow (bound : Nat) : List Char → Option Nat
  | '-' :: s => if Text.isNumeral s then (Text.parseBelow 1 s) else none
  | s => Text.parseBelow bound s

/-- Stores the value of a slot, once. -/
def store (g : Given) (slot : Slot) (text : String) : Except Refusal Given :=
  if g.has slot then .error .repeatedOption
  else
    let number (n : Option Nat) (put : Nat → Given) : Except Refusal Given :=
      match n with
      | some n => .ok (put n)
      | none => .error .badValue
    let s := text.toList
    match slot with
    | .host => .ok { g with host := some text }
    | .script => .ok { g with script := some text }
    | .port => number (signedBelow UInt16.size s) fun n => { g with port := some n }
    | .tab => number (signedBelow UInt32.size s) fun n => { g with tab := some n }
    | .timeout => number (Text.parseBelow UInt64.size s) fun n => { g with timeout := some n }
    | .seconds => number (Text.parseBelow UInt64.size s) fun n => { g with seconds := some n }

end Given

/-! ### One level -/

/-- The reading of one level so far. -/
structure Scan where
  given : Given := {}
  /-- A slot whose value, if there is one yet, is not stored. -/
  pending : Option (Slot × Option String) := none
  /-- The tab was given or is pending. -/
  tabSeen : Bool := false
  /-- Behind `--`. -/
  onlyValues : Bool := false
  deriving DecidableEq, Repr, Inhabited

namespace Scan

/-- The next argument is the value of an option. -/
def awaits (s : Scan) : Bool :=
  match s.pending with
  | some (_, none) => true
  | _ => false

/-- Stores what is pending. -/
def resolve (s : Scan) : Except Refusal Scan :=
  match s.pending with
  | none => .ok s
  | some (_, none) => .error .missingValue
  | some (slot, some text) => do
    return { s with given := ← s.given.store slot text, pending := none }

/-- Stores a value that stands in one argument with its option. -/
def attach (s : Scan) (slot : Slot) (text : String) : Except Refusal Scan := do
  let s ← s.resolve
  return { s with given := ← s.given.store slot text }

/-- Begins to wait for the value of an option. -/
def expect (s : Scan) (slot : Slot) : Except Refusal Scan := do
  return { (← s.resolve) with pending := some (slot, none) }

/-- An option that takes no value. -/
def switch (s : Scan) (flag : Flag) : Except Refusal Scan := do
  let s ← s.resolve
  match flag with
  | .help => .error .help
  | .version => .error .version
  | _ =>
    let count := min 255 (s.given.verbosity.getD 0 + 1)
    return { s with given := { s.given with verbosity := some count } }

/-- An argument that begins with two minus signs. -/
def long (level : Level) (s : Scan) (name : String) (value : Option String) : Except Refusal Scan :=
  match level.long? name, value with
  | none, _ => .error .unknownArgument
  | some (.value slot), some text => s.attach slot text
  | some (.value slot), none => s.expect slot
  | some _, some _ => .error .surplusValue
  | some flag, none => s.switch flag

/-- The letters behind one minus sign: switches, and at last perhaps an option with its value. -/
def short (level : Level) : Scan → List Char → Except Refusal Scan
  | s, [] => .ok s
  | s, letter :: rest =>
    match level.short? letter with
    | none => .error .unknownArgument
    | some (.value slot) =>
      match rest with
      | [] => s.expect slot
      | '=' :: text => s.attach slot (String.ofList text)
      | text => s.attach slot (String.ofList text)
    | some flag =>
      match s.switch flag with
      | .ok s => short level s rest
      | .error e => .error e

/-- A value that belongs to no option. Only one command takes one, and only one. -/
def value (level : Level) (s : Scan) (text : String) : Except Refusal Scan :=
  match level with
  | .attach =>
    if s.tabSeen then .error .unknownArgument
    else do return { (← s.resolve) with pending := some (.tab, some text), tabSeen := true }
  | .root =>
    if s.onlyValues && ((Level.ofName? text).isSome || text == "help") then .error .unknownArgument
    else .error .unknownCommand
  | _ => .error .unknownArgument

end Scan

/-- What an argument looks like. -/
inductive Shape where
  | onlyValues
  | long (name : String) (value : Option String)
  | short (letters : List Char)
  | plain
  deriving DecidableEq, Repr

/-- The shape of an argument; a single minus sign is plain. -/
def shape (argument : String) : Shape :=
  match argument.toList with
  | ['-', '-'] => .onlyValues
  | '-' :: '-' :: body =>
    match body.span (· != '=') with
    | (name, []) => .long (String.ofList name) none
    | (name, _ :: value) => .long (String.ofList name) (some (String.ofList value))
  | '-' :: c :: letters => .short (c :: letters)
  | _ => .plain

/-- Whether the names behind the command `help` lead to something: one command or `help` itself. -/
def helpOn : List String → Refusal
  | [] => .help
  | [name] => if (Level.ofName? name).isSome || name == "help" then .help else .unknownCommand
  | _ => .unknownCommand

/-- Reads the arguments of one level. At the root this ends at the name of a command, and the
level of the command and the arguments behind it come with the result. -/
def scan (level : Level) (s : Scan) : List String → Except Refusal (Scan × Option (Level × List String))
  | [] => .ok (s, none)
  | argument :: rest =>
    if s.onlyValues then do scan level (← s.value level argument) rest
    else if level == .root && !s.awaits && argument == "help" then .error (helpOn rest)
    else
      match if level == .root && !s.awaits then Level.ofName? argument else none with
      | some command => .ok (s, some (command, rest))
      | none =>
        match shape argument with
        | .onlyValues => scan level { s with onlyValues := true } rest
        | .long name value => do scan level (← s.long level name value) rest
        | .short letters => do scan level (← s.short level letters) rest
        | .plain =>
          match s.pending with
          | some (slot, none) => scan level { s with pending := some (slot, some argument) } rest
          | _ => do scan level (← s.value level argument) rest

/-! ### Invocations -/

/-- The command of a level with what was given there. -/
def commandOf (level : Level) (g : Given) : Except Refusal Command :=
  match level with
  | .root => .error .missingCommand
  | .check => .ok .check
  | .tabs => .ok .tabs
  | .attach =>
    match g.tab with
    | some tab => .ok (.attach (UInt32.ofNat tab) g.script g.seconds)
    | none => .error .missingArgument

/-- The options of two levels together; the inner ones count. -/
def invocation (outer inner : Given) (command : Command) : Invocation :=
  let base : Invocation := { command }
  { verbosity := (inner.verbosity <|> outer.verbosity).getD base.verbosity
    host := (inner.host <|> outer.host).getD base.host
    port := (inner.port <|> outer.port).getD base.port
    timeout := (inner.timeout <|> outer.timeout).getD base.timeout
    command }

/-- Reads the arguments behind the program's name. What is pending before the name of a command
is stored only when the command is complete. -/
def parse (arguments : List String) : Except Refusal Invocation := do
  let (s, command) ← scan .root {} arguments
  match command with
  | none =>
    let outer ← s.resolve
    .error (if outer.given.isEmpty then .helpForNothing else .missingCommand)
  | some (level, rest) =>
    let (inner, _) ← scan level {} rest
    let inner ← inner.resolve
    let command ← commandOf level inner.given
    let outer ← s.resolve
    return invocation outer.given inner.given command

end RemoteDebug.Cli
