import NextStop.Text.Number

/-!
# What flags stand for

A flag of the command line stands for a part of the options of a command. How its value is read
and what makes it acceptable depends on the kind of that part.
-/

namespace NextStop

/-- Why a command line is refused. -/
inductive Refusal where
  /-- Help was asked for, in full or in short. -/
  | help (full : Bool)
  /-- Nothing was asked for. -/
  | nothing
  | unknownCommand
  | unknownArgument
  /-- A flag that is needed is missing. -/
  | missingArgument
  /-- A flag that may be given once was given again. -/
  | repeated
  /-- A flag without a value was given one. -/
  | unwantedValue
  /-- A value is missing, or is not one of those to choose from. -/
  | invalidValue
  /-- A value could not be read. -/
  | unreadableValue
  deriving DecidableEq

/-- Why a command line is refused, in words. -/
def Refusal.message : Refusal → String
  | help _ => "help was asked for"
  | nothing => "no command was given"
  | unknownCommand => "unknown command"
  | unknownArgument => "unknown argument"
  | missingArgument => "a needed argument is missing"
  | repeated => "an argument was given more than once"
  | unwantedValue => "an argument without a value was given one"
  | invalidValue => "a value is missing, or is not one of the possible values"
  | unreadableValue => "a value could not be read"

/-- A part of the options. -/
structure Part (σ β : Type) where
  get : σ → β
  set : β → σ → σ

/-- A part of a part. -/
def Part.inside {σ τ β : Type} (outer : Part τ σ) (part : Part σ β) : Part τ β :=
  ⟨fun t => part.get (outer.get t), fun b t => outer.set (part.set b (outer.get t)) t⟩

/-- A value to choose, with what it means. -/
structure Choice where
  name : String
  about : String

/-- What a flag stands for. -/
inductive Use (σ : Type) where
  /-- It has no value; a variable sets it to `true` or `false`. -/
  | switch (part : Part σ Bool)
  /-- A natural number of 64 bits. -/
  | natural64 (part : Part σ Nat)
  /-- A natural number of 32 bits, which may have a minus sign if it is zero. -/
  | natural32 (part : Part σ Nat)
  /-- A whole number of a range. -/
  | integer (range : Number.Range) (part : Part σ Int)
  /-- A time, which may be left open. -/
  | time (part : Part σ (Option Int))
  | double (part : Part σ Float)
  /-- One of several names. -/
  | choice (choices : List Choice) (part : Part σ String)
  /-- The path of a file or folder, which is not empty. -/
  | path (part : Part σ String)
  /-- A value that is split at commas; values add up. -/
  | list (part : Part σ (List String))

namespace Use

variable {σ τ : Type}

/-- Sets a part to a value, if it could be read. -/
def setting {β : Type} (part : Part σ β) (otherwise : Refusal) : Option β → Except Refusal (σ → σ)
  | some b => .ok (part.set b)
  | none => .error otherwise

/-- What a value does to the options. -/
def read (s : String) : Use σ → Except Refusal (σ → σ)
  | switch part =>
    setting part .invalidValue
      (if s = "true" then some true else if s = "false" then some false else none)
  | natural64 part =>
    setting part .unreadableValue ((Number.Range.word64.read? 10 s.toList).map Int.toNat)
  | natural32 part =>
    setting part .unreadableValue
      (((Number.Range.signed64.read? 10 s.toList).bind Number.Range.word32.checked?).map
        Int.toNat)
  | integer range part => setting part .unreadableValue (range.read? 10 s.toList)
  | time part =>
    setting part .unreadableValue ((Number.Range.signed64.read? 10 s.toList).map some)
  | double part => setting part .unreadableValue (Number.double? s.toList)
  | choice choices part =>
    setting part .invalidValue (if choices.any (·.name == s) then some s else none)
  | path part => setting part .invalidValue (if s = "" then none else some s)
  | list part => .ok fun options => part.set (part.get options ++ s.splitOn ",") options

/-- The same use in options that the options are a part of. -/
def within (outer : Part τ σ) : Use σ → Use τ
  | switch part => switch (outer.inside part)
  | natural64 part => natural64 (outer.inside part)
  | natural32 part => natural32 (outer.inside part)
  | integer range part => integer range (outer.inside part)
  | time part => time (outer.inside part)
  | double part => double (outer.inside part)
  | choice choices part => choice choices (outer.inside part)
  | path part => path (outer.inside part)
  | list part => list (outer.inside part)

/-- Whether the flag has a value. -/
def takesValue : Use σ → Bool
  | switch _ => false
  | _ => true

/-- Whether the flag may be given more than once. -/
def mayRepeat : Use σ → Bool
  | list _ => true
  | _ => false

end Use

end NextStop
