import SchemaDecl.Source.FileTree
import SchemaDecl.Table

/-!
# Libraries for templates

A library compiles the source of a template and renders the template in a context. While it renders, it may
ask for the sources of other templates by their names, and it goes on with what it is given; it keeps nothing
from one rendering to the next. How templates are written, and what is made of them, is left to the library.
-/

namespace SchemaDecl.Template

/-- Why the source of a template cannot be had. -/
inductive LoadFault
  /-- There is no template, rather than one that cannot be read. -/
  | absent (reason : String)
  | unreadable (reason : String)

def LoadFault.reason : LoadFault → String
  | absent reason | unreadable reason => reason

/-- What is answered when the source of a template is asked for. -/
abbrev Sources := String → Except LoadFault String

/-- The rendering of a template: a text, or what is wrong; or a template whose source is asked for, and how
rendering goes on with the answer. -/
inductive Rendering
  | done (outcome : Except String String)
  | ask (name : String) (next : Except LoadFault String → Rendering)

namespace Rendering

def outcome (sources : Sources) : Rendering → Except String String
  | done outcome => outcome
  | ask name next => (next (sources name)).outcome sources

/-- The names of the templates whose sources are asked for. -/
def asked (sources : Sources) : Rendering → List String
  | done _ => []
  | ask name next => name :: (next (sources name)).asked sources

end Rendering

structure Library (Context : Type) where
  /-- Compiles a source, given with its name: what is wrong with it, or how it is rendered in a context. -/
  compile : String → String → Except String (Context → Rendering)
  /-- The source that is found under a name in a table of sources. -/
  inTable : Table String → Sources
  /-- The source that is found under a name in a folder. -/
  inFolder : FileTree → FilePath → Sources

end SchemaDecl.Template
