import SchemaDecl.Json.Display

/-!
# Templates

A template is a list of pieces: literal text, holes that a context fills, and parts that appear only
where the context has something under a name. A hole without a value stays empty. A few names stand for
values of their own, whatever the context.
-/

namespace SchemaDecl

inductive Piece
  | text (s : String)
  | hole (name : String)
  | ifSet (name : String) (body : List Piece)

abbrev Template := List Piece

/-- The value that a name stands for in every context. -/
def Template.constant? (name : String) : Option Json :=
  if name = "true" || name = "True" then some (.bool true)
  else if name = "false" || name = "False" then some (.bool false)
  else if name = "none" || name = "None" then some .null
  else none

/-- What a name stands for, if anything. -/
def Template.valueOf? (context : Entries) (name : String) : Option Json :=
  (constant? name).or (Table.get? name context)

mutual

def Piece.render (context : Entries) : Piece → String
  | .text s => s
  | .hole name => ((Template.valueOf? context name).map Json.display).getD ""
  | .ifSet name body =>
    if ((Template.valueOf? context name).getD .null).truthy then Piece.renderAll context body else ""

def Piece.renderAll (context : Entries) : List Piece → String
  | [] => ""
  | piece :: rest => Piece.render context piece ++ Piece.renderAll context rest

end

def Template.render (template : Template) (context : Entries) : String :=
  Piece.renderAll context template

mutual

def Piece.source : Piece → String
  | .text s => s
  | .hole name => "\x7b\x7b " ++ name ++ " \x7d\x7d"
  | .ifSet name body => "\x7b% if " ++ name ++ " %\x7d" ++ Piece.sourceAll body ++ "\x7b% endif %\x7d"

def Piece.sourceAll : List Piece → String
  | [] => ""
  | piece :: rest => Piece.source piece ++ Piece.sourceAll rest

end

def Template.source (template : Template) : String := Piece.sourceAll template

end SchemaDecl
