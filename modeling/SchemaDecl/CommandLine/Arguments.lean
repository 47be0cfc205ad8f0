import SchemaDecl.CommandLine.Words
import SchemaDecl.Logging

/-!
# Arguments

What a command line asks for. It names at most one source of input: a file, an address, or standard
input. A request for help or for the version counts from where it stands: what is wrong before it prevails,
what is wrong after it does not matter.
-/

namespace SchemaDecl.CommandLine

structure Arguments where
  file? : Option String := none
  url? : Option String := none
  stdin : Bool := false
  language : String := "typescript"
  output? : Option String := none
  config? : Option String := none
  listLanguages : Bool := false
  leading? : Option String := none
  systemFields : Bool := false
  editableTags : Bool := false
  referencedEntry : Bool := false
  taxonomyEntry : Bool := false
  noDocs : Bool := false
  verbose : Bool := false
  logLevel : LogLevel := .warning

/-- Why a command line ends before anything is done. -/
inductive Stop
  | usage | help | version
  deriving DecidableEq, Repr

inductive Step
  | options (flags : List Opt) (valued? : Option (Opt × String))
  | operand (s : String)
  | separator
  | unknown
  /-- An option without the value that it needs, or with one that it cannot have. -/
  | broken
  deriving DecidableEq, Repr

namespace Step

/-- How the options of one word end. -/
inductive Tail
  | done
  | value (opt : Opt) (s : String)
  /-- An option needs the next word as its value. -/
  | needsValue (opt : Opt)
  deriving DecidableEq, Repr

/-- The options before the last one of a word, and how the word ends. -/
abbrev Reading := List Opt × Tail

/-- An option without a value in its word. -/
def alone (opt : Opt) : Reading := if opt.takesValue then ([], .needsValue opt) else ([opt], .done)

def Reading.after (opt : Opt) (reading : Reading) : Reading := (opt :: reading.1, reading.2)

/-- A short option with what is joined to it: its value, or the letters of further options if it takes
none. Nothing is read of a word in which a letter is no option, or in which no letter is joined. -/
def readJoined (opt : Opt) (tail : List Char) : Option Reading :=
  if opt.takesValue then some ([], .value opt (String.ofList tail))
  else match tail with
    | [] => none
    | c :: rest =>
      match Opt.ofLetter? c with
      | none => none
      | some next =>
        (if rest.isEmpty then some (alone next) else readJoined next rest).map (Reading.after opt)

def reading? : Word → Option Reading
  | .option opt none => some (alone opt)
  | .option opt (some value) => if opt.takesValue then some ([], .value opt value) else none
  | .joined opt tail => readJoined opt tail
  | _ => none

/-- The steps of words. The options at the front, of which the last needs a value, take the operand that
follows; the separator belongs to the operand before it. Nothing after a broken word matters. -/
def ofWords : Option (List Opt × Opt) → List Word → List Step
  | some (flags, opt), .operand value :: rest => .options flags (some (opt, value)) :: ofWords none rest
  | some _, _ => [.broken]
  | none, [] => []
  | none, .operand s :: .separator :: rest => .operand s :: ofWords none rest
  | none, .operand s :: rest => .operand s :: ofWords none rest
  | none, .separator :: rest => .separator :: ofWords none rest
  | none, .unknown :: rest => .unknown :: ofWords none rest
  | none, word :: rest =>
    match reading? word with
    | none => [.broken]
    | some (flags, .done) => .options flags none :: ofWords none rest
    | some (flags, .value opt value) => .options flags (some (opt, value)) :: ofWords none rest
    | some (flags, .needsValue opt) => ofWords (some (flags, opt)) rest

end Step

namespace Arguments

def setFlag (a : Arguments) : Opt → Except Stop Arguments
  | .help => .error .help
  | .version => .error .version
  | .stdin => if a.file?.isSome || a.url?.isSome then .error .usage else .ok { a with stdin := true }
  | .listLanguages => .ok { a with listLanguages := true }
  | .systemFields => .ok { a with systemFields := true }
  | .editableTags => .ok { a with editableTags := true }
  | .referencedEntry => .ok { a with referencedEntry := true }
  | .taxonomyEntry => .ok { a with taxonomyEntry := true }
  | .noDocs => .ok { a with noDocs := true }
  | .verbose => .ok { a with verbose := true }
  | _ => .ok a

def setValue (a : Arguments) (opt : Opt) (value : String) : Except Stop Arguments :=
  match opt with
  | .url => if a.file?.isSome || a.stdin then .error .usage else .ok { a with url? := some value }
  | .language => .ok { a with language := value }
  | .output => .ok { a with output? := some value }
  | .config => .ok { a with config? := some value }
  | .leading => .ok { a with leading? := some value }
  | .logLevel =>
    match [LogLevel.debug, .info, .warning, .error].find? fun level => level.name = value with
    | some level => .ok { a with logLevel := level }
    | none => .error .usage
  | _ => .ok a

def setFile (a : Arguments) (file : String) : Except Stop Arguments :=
  if a.url?.isSome || a.stdin then .error .usage else .ok { a with file? := some file }

/-- Takes the steps one by one. Whatever is left over shows only at the end. -/
def take (a : Arguments) (leftOver : Bool) : List Step → Except Stop Arguments
  | [] => if leftOver then .error .usage else .ok a
  | .operand s :: rest =>
    if a.file?.isSome then take a true rest
    else do take (← a.setFile s) leftOver rest
  | .separator :: rest => take a (leftOver || a.file?.isSome) rest
  | .unknown :: rest => take a true rest
  | .broken :: _ => .error .usage
  | .options flags valued? :: rest => do
    let a ← flags.foldlM setFlag a
    match valued? with
    | none => take a leftOver rest
    | some (opt, value) => take (← a.setValue opt value) leftOver rest

def read (words : List String) : Except Stop Arguments :=
  match Word.readAll? words with
  | some words => take {} false (Step.ofWords none words)
  | none => .error .usage

end Arguments

end SchemaDecl.CommandLine
