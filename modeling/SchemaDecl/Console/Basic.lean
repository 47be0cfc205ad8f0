/-!
# Consoles

A console shows messages and tables, whose texts may hold markup, and code. What it makes of them is left to it.
-/

namespace SchemaDecl

/-- What a console cannot show: markup that is wrong, or a value in markup that is right. -/
inductive Console.Fault
  | markup (reason : String)
  | value (reason : String)

def Console.Fault.message : Console.Fault → String
  | markup reason | value reason => reason

structure Console where
  /-- The lines of a message. -/
  message : String → Except Console.Fault (List String)
  /-- The lines of a table, from its headers and rows. -/
  table : List String → List (List String) → Except Console.Fault (List String)
  /-- The lines of code, in which nothing is markup. -/
  code : String → List String
  /-- The markup of a text in which nothing is markup. -/
  escape : String → String

end SchemaDecl
