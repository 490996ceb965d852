import NextStop.Command.Use

/-!
# Flags

The grammar of a command line of flags: `--name`, `--name value`, `--name=value`, and for flags
with a letter also `-n value` and `-nvalue`. A flag that is not on the command line may be set by
a variable of the environment. There are no arguments but flags and their values, and nothing may
follow `--`.

A value is read when the next flag turns up or the line ends. What is on the line at that point
decides which of two mistakes is found first: an unknown flag is found before a bad value in
front of it, a bad value before one of a later flag.
-/

namespace NextStop

/-- A flag. -/
structure Flag (σ : Type) where
  name : String
  letter : Option Char
  /-- The variable that may set it. -/
  variableName : Option String
  /-- What it is for. -/
  about : String
  use : Use σ

namespace Flag

variable {σ τ : Type}

/-- A flag of options that are a part of other options. -/
def within (outer : Part τ σ) (f : Flag σ) : Flag τ :=
  { f with use := f.use.within outer }

/-- How far the reading of a command line has come. -/
structure Progress (σ : Type) where
  options : σ
  /-- The names of the flags that were given. -/
  given : List String
  /-- The last flag with its value, which has not been read yet; no value if it is to come. -/
  pending : Option (Flag σ × Option String)

/-- Carries out a flag with its value. -/
def take (f : Flag σ) (value : String) (p : Progress σ) : Except Refusal (Progress σ) :=
  if p.given.contains f.name && !f.use.mayRepeat then .error .repeated
  else (f.use.read value).map fun change => ⟨change p.options, f.name :: p.given, none⟩

/-- Carries out the pending flag. -/
def settle (p : Progress σ) : Except Refusal (Progress σ) :=
  match p.pending with
  | none => .ok p
  | some (_, none) => .error .invalidValue
  | some (f, some value) => f.take value p

/-- Meets a flag on the command line, with the value attached to it. -/
def meet (f : Flag σ) (attached : Option String) (p : Progress σ) :
    Except Refusal (Progress σ) :=
  match f.use, attached with
  | .switch _, some _ => .error .unwantedValue
  | .switch _, none => (settle p).bind (f.take "true")
  | _, some value => (settle p).bind (f.take value)
  | _, none => (settle p).map fun p => { p with pending := some (f, none) }

/-- Meets the request for help. -/
def meetHelp (full : Bool) (p : Progress σ) : Except Refusal (Progress σ) :=
  (settle p).bind fun _ => .error (.help full)

/-- Meets a flag by its name. -/
def meetName (flags : List (Flag σ)) (name : String) (attached : Option String)
    (p : Progress σ) : Except Refusal (Progress σ) :=
  if name = "help" then if attached.isSome then .error .unwantedValue else meetHelp true p
  else
    match flags.find? (·.name == name) with
    | none => .error .unknownArgument
    | some f => f.meet attached p

/-- The value attached to a letter: what follows it, less an equals sign in front. -/
def attachedTo : List Char → Option String
  | [] => none
  | '=' :: cs => some (String.ofList cs)
  | cs => some (String.ofList cs)

/-- Meets flags by their letters. -/
def meetLetters (flags : List (Flag σ)) : List Char → Progress σ → Except Refusal (Progress σ)
  | [], p => .ok p
  | c :: cs, p =>
    if c = 'h' then meetHelp false p
    else
      match flags.find? (·.letter == some c) with
      | none => .error .unknownArgument
      | some f =>
        match f.use with
        | .switch _ => (f.meet none p).bind (meetLetters flags cs)
        | _ => f.meet (attachedTo cs) p

/-- Meets an argument. -/
def meetArgument (flags : List (Flag σ)) (argument : String) (p : Progress σ) :
    Except Refusal (Progress σ) :=
  match argument.toList with
  | '-' :: '-' :: cs =>
    let name := cs.takeWhile (· != '=')
    let attached := (cs.dropWhile (· != '=')).tail?
    meetName flags (String.ofList name) (attached.map String.ofList) p
  | '-' :: c :: cs => meetLetters flags (c :: cs) p
  | _ =>
    match p.pending with
    | some (f, none) => .ok { p with pending := some (f, some argument) }
    | _ => .error .unknownArgument

/-- Meets the arguments of a command line. -/
def meetAll (flags : List (Flag σ)) : List String → Progress σ → Except Refusal (Progress σ)
  | [], p => settle p
  | argument :: rest, p =>
    if argument = "--" then if rest.isEmpty then settle p else .error .unknownArgument
    else (meetArgument flags argument p).bind (meetAll flags rest)

/-- Carries out the flags that were not given but have a variable which is set. -/
def takeVariables (environment : String → Option String) (given : List String) :
    List (Flag σ) → σ → Except Refusal σ
  | [], options => .ok options
  | f :: rest, options =>
    let value := if given.contains f.name then none else f.variableName.bind environment
    match value with
    | none => takeVariables environment given rest options
    | some s =>
      (f.use.read s).bind fun change => takeVariables environment given rest (change options)

/-- The options of a command line, `options` being those of an empty one. -/
def parse (flags : List (Flag σ)) (needed : List String) (environment : String → Option String)
    (options : σ) (arguments : List String) : Except Refusal σ := do
  let p ← meetAll flags arguments ⟨options, [], none⟩
  let options ← takeVariables environment p.given flags p.options
  if needed.all p.given.contains then return options else throw .missingArgument

end Flag

end NextStop
