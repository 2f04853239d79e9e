import Registrar.Event
import Registrar.Settings

/-! What the arguments of a call ask for. -/

namespace Registrar

namespace CommandLine

structure Options where
  outputDir : Option Text := none
  inputDir : Option Text := none
  roots : List Text := []
  out : Option Text := none
  verbose : Bool := false
  debug : Bool := false
  quiet : Bool := false
deriving DecidableEq

/-- The options that are turned on by their name alone. -/
inductive Switch where
  | verbose
  | debug
  | quiet
  | version
deriving DecidableEq

inductive Valued where
  | root
  | out
deriving DecidableEq

inductive Flag where
  | switch (switch : Switch)
  | valued (valued : Valued)
deriving DecidableEq

def Flag.ofLetter? : Char → Option Flag
  | 'v' => some (.switch .verbose)
  | 'd' => some (.switch .debug)
  | 'q' => some (.switch .quiet)
  | 'V' => some (.switch .version)
  | 'r' => some (.valued .root)
  | 'o' => some (.valued .out)
  | _ => none

/-- The option that a word stands for. Words are not shortened. -/
def Flag.ofWord? (word : Text) : Option Flag :=
  if word = "verbose".toList then some (.switch .verbose)
  else if word = "debug".toList then some (.switch .debug)
  else if word = "quiet".toList then some (.switch .quiet)
  else if word = "version".toList then some (.switch .version)
  else if word = "root".toList then some (.valued .root)
  else if word = "out".toList then some (.valued .out)
  else none

/-- Why the arguments are not taken as options of a run. -/
inductive Refusal where
  | version
  | usage
deriving DecidableEq

namespace Options

def turnOn (options : Options) : Switch → Except Refusal Options
  | .verbose => if options.verbose then .error .usage else .ok { options with verbose := true }
  | .debug => if options.debug then .error .usage else .ok { options with debug := true }
  | .quiet => if options.quiet then .error .usage else .ok { options with quiet := true }
  | .version => .error .version

def give (options : Options) (valued : Valued) (value : Text) : Except Refusal Options :=
  if value.isEmpty then .error .usage
  else match valued with
    | .root => .ok { options with roots := options.roots ++ [value] }
    | .out => if options.out.isSome then .error .usage else .ok { options with out := some value }

/-- Takes an argument that is no option: first the output directory, then the input directory. -/
def takePosition (options : Options) (value : Text) : Except Refusal Options :=
  if value.isEmpty then .error .usage
  else if options.outputDir.isNone then .ok { options with outputDir := some value }
  else if options.inputDir.isNone then .ok { options with inputDir := some value }
  else .error .usage

def takePositions (options : Options) : List Text → Except Refusal Options
  | [] => .ok options
  | value :: more => (options.takePosition value).bind fun options => takePositions options more

/-- Takes the letters of one argument. The last of them can be an option with a value: the value
follows directly or behind `=`, or else is the next argument. -/
def takeLetters (options : Options) : Text → Except Refusal (Options × Option Valued)
  | [] => .ok (options, none)
  | letter :: more =>
    match Flag.ofLetter? letter with
    | none => .error .usage
    | some (.switch switch) =>
      match options.turnOn switch with
      | .error refusal => .error refusal
      | .ok options => takeLetters options more
    | some (.valued valued) =>
      match more with
      | [] => .ok (options, some valued)
      | '=' :: value => (options.give valued value).map (·, none)
      | value => (options.give valued value).map (·, none)

def takeWord (options : Options) (argument : Text) : Except Refusal (Options × Option Valued) :=
  let word := argument.takeWhile (· != '=')
  match Flag.ofWord? word, argument.dropWhile (· != '=') with
  | some (.switch switch), [] => (options.turnOn switch).map (·, none)
  | some (.valued valued), [] => .ok (options, some valued)
  | some (.valued valued), _ :: value => (options.give valued value).map (·, none)
  | _, _ => .error .usage

/-- Takes the arguments of a call. `awaited` is an option that the next argument is the value of;
an argument that looks like an option is no value. -/
def takeAll (options : Options) (awaited : Option Valued) : List Text → Except Refusal Options
  | [] => if awaited.isSome then .error .usage else .ok options
  | argument :: more =>
    let proceed (taken : Except Refusal (Options × Option Valued)) : Except Refusal Options :=
      match taken with
      | .error refusal => .error refusal
      | .ok (options, awaited) => takeAll options awaited more
    match awaited, argument with
    | some valued, ['-'] => proceed ((options.give valued ['-']).map (·, none))
    | some _, '-' :: _ => .error .usage
    | some valued, value => proceed ((options.give valued value).map (·, none))
    | none, ['-', '-'] => options.takePositions more
    | none, '-' :: '-' :: word => proceed (options.takeWord word)
    | none, ['-'] => proceed ((options.takePosition ['-']).map (·, none))
    | none, '-' :: letters => proceed (options.takeLetters letters)
    | none, value => proceed ((options.takePosition value).map (·, none))

def ofArguments (arguments : List Text) : Except Refusal Options := takeAll {} none arguments

/-- The settings drafted by the options. The input directory is the first root, and an output file
comes before an output directory. -/
def draft (options : Options) : Draft :=
  let draft := ({} : Draft).addRoots (options.inputDir.toList ++ options.roots)
  match options.out, options.outputDir with
  | some file, _ => draft.writeTo file
  | none, some directory => draft.writeInto directory
  | none, none => draft

def settings? (arguments : List Text) : Option Settings :=
  match ofArguments arguments with
  | .error _ => none
  | .ok options => options.draft.build.toOption

def logLevel (options : Options) : Level :=
  if options.debug then .debug
  else if options.verbose then .info
  else if options.quiet then .error
  else .warn

end Options

end CommandLine

end Registrar
