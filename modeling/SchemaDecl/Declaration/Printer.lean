import SchemaDecl.Declaration.Basic
import SchemaDecl.Template.Basic
import SchemaDecl.TypeExpr.Printer

/-!
# Writing declarations

The templates of an interface and of a union of blocks, and the text of a declaration: its unions, then
its interface, with an empty line between any two.
-/

namespace SchemaDecl

namespace Template

def extendsPart : Piece := .ifSet "extends" [.text " extends ", .hole "extends"]

def interface : Template :=
  [.ifSet "description" [.hole "description", .text "\n"],
   .text "export interface ", .hole "name", extendsPart, .text " \x7b\n",
   .ifSet "version_doc" [.hole "indent", .hole "version_doc", .text "\n"],
   .hole "indent", .text "_version?: number;\n",
   .ifSet "body" [.hole "body", .text "\n"],
   .text "\x7d"]

def blockUnion : Template :=
  [.text "export interface ", .hole "name", extendsPart, .text " \x7b\n", .hole "body",
   .text "\n\x7d"]

end Template

/-- A text that may be missing, as a value of a context. -/
def Json.ofText? : Option String → Json
  | some s => .text s
  | none => .null

/-- The name of the system fields, for a declaration that extends them. -/
def systemFields? (style : Style) (extended : Bool) : Option String :=
  if extended then some (style.nameOf .systemFields) else none

def BlockUnion.text (style : Style) (u : BlockUnion) : String :=
  let lines := u.blocks.map fun (uid, type) => uid.display ++ ": " ++ type.text style ++ ";"
  Template.blockUnion.render
    [("name", .text u.name),
     ("extends", .ofText? (systemFields? style style.systemFields)),
     ("body", .text (Text.indent margin ("\n".intercalate lines)))]

def Interface.text (style : Style) (i : Interface) : String :=
  Template.interface.render
    [("name", .text i.name),
     ("description", .ofText? (comment? style i.description)),
     ("extends", .ofText? (systemFields? style i.extendsSystem)),
     ("version_doc", .ofText? (versionComment? style)),
     ("body", .text (Text.indent margin (TypeExpr.membersText style i.members))),
     ("indent", .text margin)]

def joinParts (parts : List String) : String := "\n\n".intercalate parts

def Declaration.text (style : Style) (d : Declaration) : String :=
  joinParts (d.unions.map (BlockUnion.text style) ++ [d.main.text style])

end SchemaDecl
