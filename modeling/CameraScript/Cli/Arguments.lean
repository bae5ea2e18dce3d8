import CameraScript.Dialect
import CameraScript.Number

/-!
The grammar of the command line. Arguments are taken in order: the first one that is
wrong ends the reading, and so does a request for the version or for help that comes
before it.
-/

namespace CameraScript.Cli

inductive Refusal where
  | usage
  | version
  | help
  deriving DecidableEq, Repr

/-- An option: its letter and its word, and whether it takes a value. -/
structure OptionSpec (Key : Type) where
  key : Key
  letter : Option Char
  word : String
  takesValue : Bool

/-- A value that looks like an option is none. A lone dash is a value. -/
def looksLikeOption (argument : String) : Bool :=
  argument.startsWith "-" && argument != "-"

section Scan

variable {Key Given : Type} (specs : List (OptionSpec Key))
  (apply : Key → String → Given → Except Refusal Given)

/-- Letters after one dash. The rest of a cluster is the value of a letter that takes one;
with nothing left, the letter waits for the next argument. -/
def scanCluster : List Char → Given → Except Refusal (Given × Option Key)
  | [], given => .ok (given, none)
  | letter :: rest, given =>
      match specs.find? fun spec => spec.letter == some letter with
      | none => .error .usage
      | some spec =>
          if spec.takesValue then
            match rest with
            | [] => .ok (given, some spec.key)
            | '=' :: value => (apply spec.key (String.ofList value) given).map (·, none)
            | value => (apply spec.key (String.ofList value) given).map (·, none)
          else
            match apply spec.key "" given with
            | .ok next => scanCluster rest next
            | .error refusal => .error refusal

def scanWord (argument : List Char) (given : Given) : Except Refusal (Given × Option Key) :=
  let word := String.ofList (argument.takeWhile (· != '='))
  let inline? := argument.dropWhile (· != '=')
  match specs.find? fun spec => spec.word == word with
  | none => .error .usage
  | some spec =>
      match inline?, spec.takesValue with
      | [], true => .ok (given, some spec.key)
      | [], false => (apply spec.key "" given).map (·, none)
      | _ :: value, true => (apply spec.key (String.ofList value) given).map (·, none)
      | _ :: _, false => .error .usage

/-- Options up to the first argument that is none, with an option that may still wait for
its value. Two dashes alone must be the last argument, since nothing may follow them. -/
def scan : Option Key → List String → Given → Except Refusal (Given × List String)
  | none, [], given => .ok (given, [])
  | some _, [], _ => .error .usage
  | some key, argument :: rest, given =>
      if looksLikeOption argument then .error .usage
      else
        match apply key argument given with
        | .ok next => scan none rest next
        | .error refusal => .error refusal
  | none, argument :: rest, given =>
      match argument.toList with
      | ['-', '-'] => if rest.isEmpty then .ok (given, []) else .error .usage
      | '-' :: '-' :: word =>
          match scanWord specs apply word given with
          | .ok (next, waiting) => scan waiting rest next
          | .error refusal => .error refusal
      | '-' :: letter :: letters =>
          match scanCluster specs apply (letter :: letters) given with
          | .ok (next, waiting) => scan waiting rest next
          | .error refusal => .error refusal
      | _ => .ok (given, argument :: rest)

end Scan

structure DumpArguments where
  input : String
  dialect : Dialect
  offset : UInt32
  deriving DecidableEq, Repr

inductive Command where
  | list (dump : DumpArguments) (output : String)
  | simulate (dump : DumpArguments) (frames : Nat) (length? : Option Nat) (base : UInt32)
      (patch : Bool)
  deriving DecidableEq, Repr

structure Invocation where
  config : Option String
  trace : Bool
  command : Command
  deriving DecidableEq, Repr

inductive TopKey where
  | config
  | trace
  | version
  | help
  deriving DecidableEq, Repr

inductive CommandKey where
  | input
  | dialect
  | offset
  | output
  | frames
  | length
  | base
  | noPatch
  | help
  deriving DecidableEq, Repr

def topSpecs : List (OptionSpec TopKey) :=
  [⟨.config, some 'c', "config", true⟩, ⟨.trace, none, "trace", false⟩,
    ⟨.version, some 'V', "version", false⟩, ⟨.help, some 'h', "help", false⟩]

def dumpSpecs : List (OptionSpec CommandKey) :=
  [⟨.input, some 'i', "input", true⟩, ⟨.dialect, some 'd', "dialect", true⟩,
    ⟨.offset, none, "offset", true⟩, ⟨.help, some 'h', "help", false⟩]

def listSpecs : List (OptionSpec CommandKey) :=
  dumpSpecs ++ [⟨.output, some 'o', "output", true⟩]

def simulateSpecs : List (OptionSpec CommandKey) :=
  dumpSpecs ++ [⟨.frames, some 'f', "frames", true⟩, ⟨.length, none, "len", true⟩,
    ⟨.base, none, "base", true⟩, ⟨.noPatch, none, "no-patch", false⟩]

def once {Item : Type} (present : Option Item) (value : Except Refusal Item) :
    Except Refusal (Option Item) :=
  if present.isSome then .error .usage else value.map some

def pathValue (value : String) : Except Refusal String :=
  if value == "" then .error .usage else .ok value

def dialectValue (value : String) : Except Refusal Dialect :=
  (Dialect.ofText? value).elim (.error .usage) .ok

def numberValue (value : String) : Except Refusal UInt32 :=
  (parseNumber value).mapError fun _ => .usage

/-- A count is decimal, without blanks, and fits in 64 bits. -/
def countValue (value : String) : Except Refusal Nat :=
  (Number.unsigned 10 UInt64.size value.toList).mapError fun _ => .usage

structure TopGiven where
  config : Option String := none
  trace : Option Unit := none

def applyTop (key : TopKey) (value : String) (given : TopGiven) : Except Refusal TopGiven :=
  match key with
  | .config => do return { given with config := ← once given.config (pathValue value) }
  | .trace => do return { given with trace := ← once given.trace (.ok ()) }
  | .version => .error .version
  | .help => .error .help

structure CommandGiven where
  input : Option String := none
  dialect : Option Dialect := none
  offset : Option UInt32 := none
  output : Option String := none
  frames : Option Nat := none
  length : Option Nat := none
  base : Option UInt32 := none
  noPatch : Option Unit := none

def applyCommand (key : CommandKey) (value : String) (given : CommandGiven) :
    Except Refusal CommandGiven :=
  match key with
  | .input => do return { given with input := ← once given.input (pathValue value) }
  | .dialect => do return { given with dialect := ← once given.dialect (dialectValue value) }
  | .offset => do return { given with offset := ← once given.offset (numberValue value) }
  | .output => do return { given with output := ← once given.output (pathValue value) }
  | .frames => do return { given with frames := ← once given.frames (countValue value) }
  | .length => do return { given with length := ← once given.length (countValue value) }
  | .base => do return { given with base := ← once given.base (numberValue value) }
  | .noPatch => do return { given with noPatch := ← once given.noPatch (.ok ()) }
  | .help => .error .help

def scanCommand (specs : List (OptionSpec CommandKey)) (arguments : List String) :
    Except Refusal CommandGiven := do
  let (given, rest) ← scan specs applyCommand none arguments {}
  if rest.isEmpty then return given else throw .usage

def needed {Item : Type} (value : Option Item) : Except Refusal Item :=
  value.elim (.error .usage) .ok

def CommandGiven.dump (given : CommandGiven) : Except Refusal DumpArguments := do
  return ⟨← needed given.input, given.dialect.getD .routine5C3FD5, given.offset.getD 0⟩

def helpTopics : List (List String) :=
  [[], ["list"], ["simulate"], ["help"]]

def readCommand : List String → Except Refusal Command
  | "list" :: arguments => do
      let given ← scanCommand listSpecs arguments
      return .list (← given.dump) (← needed given.output)
  | "simulate" :: arguments => do
      let given ← scanCommand simulateSpecs arguments
      return .simulate (← given.dump) (given.frames.getD 1) given.length (given.base.getD 0)
        given.noPatch.isNone
  | "help" :: topic => .error (if helpTopics.contains topic then .help else .usage)
  | _ => .error .usage

def readArguments (arguments : List String) : Except Refusal Invocation := do
  let (given, rest) ← scan topSpecs applyTop none arguments {}
  return ⟨given.config, given.trace.isSome, ← readCommand rest⟩

end CameraScript.Cli
