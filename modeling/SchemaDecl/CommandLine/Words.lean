import SchemaDecl.Text.Digit

/-!
# Words of a command line

A word is an operand, an option, or the separator `--`, after which every word is an operand. A long
option may be cut short where the rest is beyond doubt, and may have its value behind `=`. To a short
option its value, or the letters of further short options, may be joined, with one `=` between or none.
-/

namespace SchemaDecl.CommandLine

inductive Opt
  | help | version
  | url | stdin
  | language | output | config | listLanguages
  | leading | systemFields | editableTags | referencedEntry | taxonomyEntry | noDocs
  | verbose | logLevel
  deriving DecidableEq, Repr

namespace Opt

def takesValue : Opt → Bool
  | url | language | output | config | leading | logLevel => true
  | _ => false

def spellings : List (String × Opt) :=
  [("-h", help), ("--help", help), ("--url", url), ("--stdin", stdin), ("--language", language),
   ("-l", language), ("--output", output), ("-o", output), ("--config", config),
   ("--list-languages", listLanguages), ("--prefix", leading), ("-p", leading),
   ("--system-fields", systemFields), ("--editable-tags", editableTags),
   ("--include-referenced-entry", referencedEntry), ("--taxonomy-entry", taxonomyEntry),
   ("--no-docs", noDocs), ("--verbose", verbose), ("-v", verbose), ("--log-level", logLevel),
   ("--version", version)]

def ofSpelling? (s : String) : Option Opt := (spellings.find? fun (t, _) => t = s).map Prod.snd

def ofLetter? (c : Char) : Option Opt := ofSpelling? (String.ofList ['-', c])

/-- The spelling of a short option is a minus sign and a letter. -/
def isShortSpelling (cs : List Char) : Bool := cs.length = 2

end Opt

inductive Word
  | operand (s : String)
  | option (opt : Opt) (value? : Option String)
  /-- A short option with what is joined to it. -/
  | joined (opt : Opt) (tail : List Char)
  | unknown
  | separator
  deriving DecidableEq, Repr

namespace Word

/-- The part before the first `=` and the part after it. -/
def splitEquals (cs : List Char) : List Char × Option (List Char) :=
  match cs.dropWhile (· ≠ '=') with
  | _ :: value => (cs.takeWhile (· ≠ '='), some value)
  | [] => (cs, none)

def isNegativeNumber (cs : List Char) : Bool :=
  let isDecimal (c : Char) : Bool := (Text.decimalValue? c).isSome
  match (if cs.getLast? = some '\n' then cs.dropLast else cs) with
  | '-' :: number =>
    match number.dropWhile isDecimal with
    | [] => !number.isEmpty
    | '.' :: fraction => !fraction.isEmpty && fraction.all isDecimal
    | _ => false
  | _ => false

/-- A word that begins with a minus sign and is no option: an operand if it can be one. -/
def stray (cs : List Char) : Word :=
  if isNegativeNumber cs || cs.contains ' ' then .operand (String.ofList cs) else .unknown

def withValue (opt : Opt) (spelling value : List Char) : Word :=
  if Opt.isShortSpelling spelling then .joined opt value else .option opt (some (String.ofList value))

/-- A long option that may be cut short; `none` if several begin so. -/
def readLong? (cs : List Char) : Option Word :=
  let (start, value?) := splitEquals cs
  match Opt.spellings.filter fun (spelling, _) => start.isPrefixOf spelling.toList with
  | [] => some (stray cs)
  | [(_, opt)] => some (.option opt (value?.map String.ofList))
  | _ => none

/-- How a word before the separator reads; `none` if it is ambiguous. -/
def read? (s : String) : Option Word :=
  let cs := s.toList
  match cs with
  | '-' :: c :: rest =>
    match Opt.ofSpelling? s with
    | some opt => some (.option opt none)
    | none =>
      let (start, value?) := splitEquals cs
      match Opt.ofSpelling? (String.ofList start), value? with
      | some opt, some value => some (withValue opt start value)
      | _, _ =>
        if c = '-' then readLong? cs
        else match Opt.ofLetter? c with
          | some opt => some (.joined opt rest)
          | none => some (stray cs)
  | _ => some (.operand s)

/-- How the words of a command line read; `none` if one is ambiguous. -/
def readAll? : List String → Option (List Word)
  | [] => some []
  | s :: rest =>
    if s = "--" then some (.separator :: rest.map .operand)
    else do return (← read? s) :: (← readAll? rest)

end Word

end SchemaDecl.CommandLine
