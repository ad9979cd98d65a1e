import MesonCheck.Text.Quoted
import MesonCheck.Text.Sorted
import MesonCheck.Text.Split
import MesonCheck.Yaml.Value

/-! Flags on a command line. A flag has a long name and perhaps a letter; letters can be written together, a value
follows an equals sign or is the next argument, and `--` ends the flags. -/
namespace MesonCheck.Cli

inductive FlagKind where
  | switch
  | text
  | number
deriving DecidableEq

structure Flag where
  name : String
  letter : Option Char
  kind : FlagKind

inductive FlagValue where
  | switch (b : Bool)
  | text (s : String)
  | number (n : Int)

inductive UsageError where
  | unknownFlag (name : String)
  | unknownLetter (letters : List Char)
  | noValue (name : String)
  | noValueForLetter (letters : List Char)
  | malformed (arg : String)
  | unsuitable (flag : Flag) (value cause : String)

def Flag.title (f : Flag) : String :=
  match f.letter with
  | some c => "-" ++ c.toString ++ ", --" ++ f.name
  | none => "--" ++ f.name

def UsageError.message : UsageError → String
  | unknownFlag name => "unknown flag: --" ++ name
  | unknownLetter letters =>
    "unknown shorthand flag: '" ++ String.ofList (letters.take 1) ++ "' in -" ++ String.ofList letters
  | noValue name => "flag needs an argument: --" ++ name
  | noValueForLetter letters =>
    "flag needs an argument: '" ++ String.ofList (letters.take 1) ++ "' in -" ++ String.ofList letters
  | malformed arg => "bad flag syntax: " ++ arg
  | unsuitable flag value cause =>
    "invalid argument " ++ Text.quoted value ++ " for " ++ Text.quoted flag.title ++ " flag: " ++ cause

def bool? (s : String) : Option Bool :=
  if ["1", "t", "T", "true", "TRUE", "True"].contains s then some true
  else if ["0", "f", "F", "false", "FALSE", "False"].contains s then some false
  else none

def separates : Char → List Char → Bool
  | last, [] => last != '_'
  | last, c :: cs => (c != '_' || last.isAlphanum) && (last != '_' || c.isAlphanum) && separates c cs

/-- A number of 64 bits with sign, in the base that its start tells; the error is its cause. -/
def number (s : String) : Except String Int :=
  let cause (what : String) := "strconv.ParseInt: parsing " ++ Text.quoted s ++ ": " ++ what
  let (negative, cs) := match s.toList with
    | '-' :: rest => (true, rest)
    | '+' :: rest => (false, rest)
    | cs => (false, cs)
  match Yaml.natural? (cs.filter (· != '_')) with
  | none => .error (cause "invalid syntax")
  | some n =>
    if !separates ' ' cs then .error (cause "invalid syntax")
    else if negative && n ≤ signedLimit then .ok (-n)
    else if !negative && n < signedLimit then .ok n
    else .error (cause "value out of range")

def Flag.value (f : Flag) (s : String) : Except UsageError FlagValue :=
  match f.kind with
  | .text => .ok (.text s)
  | .switch =>
    match bool? s with
    | some b => .ok (.switch b)
    | none => .error (.unsuitable f s ("strconv.ParseBool: parsing " ++ Text.quoted s ++ ": invalid syntax"))
  | .number =>
    match number s with
    | .ok n => .ok (.number n)
    | .error cause => .error (.unsuitable f s cause)

structure Parsed where
  values : List (String × FlagValue) := []
  args : List String := []

namespace Parsed

def switch (p : Parsed) (name : String) : Bool :=
  match p.values.lookup name with
  | some (.switch b) => b
  | _ => false

def text (p : Parsed) (name default : String) : String :=
  match p.values.lookup name with
  | some (.text s) => s
  | _ => default

def number (p : Parsed) (name : String) (default : Int) : Int :=
  match p.values.lookup name with
  | some (.number n) => n
  | _ => default

def set (p : Parsed) (f : Flag) (value : String) : Except UsageError Parsed := do
  pure { p with values := (f.name, ← f.value value) :: p.values }

def add (p : Parsed) (arg : String) : Parsed :=
  { p with args := p.args ++ [arg] }

/-- Reads letters that are written together. The result tells whether the next argument was taken as a value. -/
def letters (flags : List Flag) (next : Option String) (p : Parsed) : List Char → Except UsageError (Parsed × Bool)
  | [] => .ok (p, false)
  | c :: cs => do
    let some f := flags.find? (·.letter == some c) | throw (.unknownLetter (c :: cs))
    match cs with
    | '=' :: d :: ds => pure (← p.set f (String.ofList (d :: ds)), false)
    | _ =>
      if f.kind = .switch then letters flags next (← p.set f "true") cs
      else if !cs.isEmpty then pure (← p.set f (String.ofList cs), false)
      else
        match next with
        | some v => pure (← p.set f v, true)
        | none => throw (.noValueForLetter (c :: cs))

def long (flags : List Flag) (next : Option String) (p : Parsed) (arg : List Char) :
    Except UsageError (Parsed × Bool) := do
  let name := String.ofList (arg.takeWhile (· != '='))
  if arg.head? = some '-' ∨ arg.head? = some '=' then throw (.malformed ("--" ++ String.ofList arg))
  let some f := flags.find? (·.name == name) | throw (.unknownFlag name)
  match arg.dropWhile (· != '=') with
  | _ :: value => pure (← p.set f (String.ofList value), false)
  | [] =>
    if f.kind = .switch then pure (← p.set f "true", false)
    else
      match next with
      | some v => pure (← p.set f v, true)
      | none => throw (.noValue name)

end Parsed

def parse (flags : List Flag) (p : Parsed) : List String → Except UsageError Parsed
  | [] => .ok p
  | arg :: rest => do
    match arg.toList with
    | ['-', '-'] => pure { p with args := p.args ++ rest }
    | '-' :: c :: cs =>
      let (p, taken) ← if c = '-' then p.long flags rest.head? cs else p.letters flags rest.head? (c :: cs)
      match taken, rest with
      | true, _ :: rest => parse flags p rest
      | _, rest => parse flags p rest
    | _ => parse flags (p.add arg) rest

/-- Whether an argument is a flag whose value is the next argument. Flags that are not known count as such. -/
def takesNext (flags : List Flag) (arg : String) : Bool :=
  let isSwitch (f : Option Flag) := f.any (·.kind == .switch)
  match arg.toList with
  | '-' :: '-' :: cs => !cs.contains '=' && !isSwitch (flags.find? (·.name == String.ofList cs))
  | ['-', c] => c != '=' && !isSwitch (flags.find? (·.letter == some c))
  | _ => false

def isFlag (arg : String) : Bool :=
  arg.toList.head? == some '-'

/-- The first argument that is neither a flag nor the value of one. A flag at the end has no value to skip. -/
def firstArgument? (flags : List Flag) : List String → Option String
  | [] => none
  | arg :: rest =>
    if arg = "--" then none
    else if takesNext flags arg then
      match rest with
      | _ :: next :: more => firstArgument? flags (next :: more)
      | _ => none
    else if arg ≠ "" ∧ !isFlag arg then some arg
    else firstArgument? flags rest

def without (flags : List Flag) (word : String) : List String → List String
  | [] => []
  | arg :: rest =>
    if arg = "--" then arg :: rest
    else if takesNext flags arg then
      match rest with
      | value :: rest => arg :: value :: without flags word rest
      | [] => [arg]
    else if arg = word ∧ !isFlag arg then rest
    else arg :: without flags word rest

end MesonCheck.Cli
