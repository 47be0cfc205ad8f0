import SchemaDecl.Json.Basic
import SchemaDecl.Text.Lowercase

/-!
# Logging

The loggers of the program lie under one name. Records below the level that was set are not handled.
-/

namespace SchemaDecl

inductive LogLevel
  | debug | info | warning | error
  deriving DecidableEq, Repr

namespace LogLevel

def name : LogLevel → String
  | debug => "debug"
  | info => "info"
  | warning => "warning"
  | error => "error"

def rank : LogLevel → Int
  | debug => 10
  | info => 20
  | warning => 30
  | error => 40

def ofName? (name : String) : Option LogLevel :=
  [debug, info, warning, error].find? fun level => level.name = Text.lower name

end LogLevel

structure LogRecord where
  level : LogLevel
  text : String
  deriving DecidableEq, Repr

/-- A logger with its level, the number of its handlers, and whether outer loggers see its records. -/
structure Logger where
  level : Json := .int 0
  handlers : Nat := 0
  propagates : Bool := true

namespace Logger

inductive Fault
  | unknownLevel (name : String)
  | notLevel
  deriving DecidableEq, Repr

def Fault.message : Fault → String
  | unknownLevel name => "Unknown log level: " ++ name
  | notLevel => "a level is neither a name nor a whole number"

/-- The level that a name or a number stands for. -/
def readLevel : Json → Except Fault Json
  | .text name =>
    match LogLevel.ofName? name with
    | some level => .ok (.int level.rank)
    | none => .error (.unknownLevel name)
  | .int rank => .ok (.int rank)
  | .bool b => .ok (.bool b)
  | _ => .error .notLevel

/-- Sets the level and puts one handler in place of all. -/
def setup (logger : Logger) (level : Json) : Except Fault Logger := do
  let level ← readLevel level
  return { logger with level, handlers := 1, propagates := false }

def root : String := "cms_typegen"

def nameOf (name : String) : String :=
  if name = root || name.startsWith (root ++ ".") then name else root ++ "." ++ name

end Logger

end SchemaDecl
