import SchemaDecl.Json.Display
import SchemaDecl.Number.Numeral
import SchemaDecl.Text.Lines
import SchemaDecl.TypeExpr.Basic
import SchemaDecl.TypeExpr.Brackets

/-!
# Writing type expressions

A type is written in the words of TypeScript. An object type has one member to a line, with a comment
before it where the style asks for comments, and a last member `$` with the mappings of live preview
where the style asks for those.
-/

namespace SchemaDecl

def margin : String := "  "

/-- A comment on one line. -/
def comment (s : String) : String := "/** " ++ s ++ " */"

/-- The comment with a value, where comments are asked for and there is something to say. -/
def comment? (style : Style) (value : Json) : Option String :=
  if style.documented && value.truthy then some (comment value.display) else none

/-- The comment before the version of a declaration. -/
def versionComment? (style : Style) : Option String :=
  if style.documented then some (comment "Version") else none

namespace LivePreview

def mapping (uid : Json) : String := uid.render ++ "?: CSLPFieldMapping"

/-- The member that maps every member of a list. -/
def mappings (uids : List Json) : String :=
  "$?: \x7b\n  " ++ ";\n  ".intercalate (uids.map mapping) ++ ";\n\x7d;"

end LivePreview

namespace TypeExpr

def fallbackText : String := "Record<string, any>"
def richTextNode : String := "JSONRTENode"

def extensionText : String := "\x7b value: \x7b key: string; value: string \x7d[] \x7d"

def richTextText : String :=
  "\x7b\n  type: string;\n  uid: string;\n  _version: number;\n  attrs: " ++ fallbackText ++
    ";\n  children: " ++ richTextNode ++ "[];\n\x7d"

/-- A choice as a literal: the numeral itself for a text that is one, on number fields. -/
def literal (numeric : Bool) (value : Json) : String :=
  match value with
  | .text s => if numeric && Numeral.isFinite s then String.ofList (Text.trim s.toList) else value.render
  | _ => value.render

def choicesText (numeric : Bool) (values : List Json) : String :=
  "(" ++ " | ".intercalate (values.map (literal numeric)) ++ ")"

/-- A list of entries; the members of a union stand in parentheses. -/
def referencesText (style : Style) (names : List String) : String :=
  if names.isEmpty then fallbackText ++ "[]"
  else
    let members := if style.referencedEntry then names ++ [style.nameOf .referencedEntry] else names
    match members with
    | [name] => name ++ "[]"
    | names => "(" ++ " | ".intercalate names ++ ")[]"

def taxonomyText (style : Style) : String :=
  if style.taxonomyEntry then
    "(" ++ style.nameOf .taxonomy ++ " | " ++ style.nameOf .taxonomyEntry ++ ")"
  else style.nameOf .taxonomy

def arrayText (element : String) : String :=
  if isUnion element then "(" ++ element ++ ")[]" else element ++ "[]"

def atMostText (element : String) (count : Json) : String :=
  "MaxTuple<" ++ element ++ ", " ++ count.display ++ ">"

def objectText (body : String) : String :=
  if body = "" then "\x7b\x7d" else "\x7b\n" ++ Text.indent margin body ++ "\n\x7d"

/-- Whether a type already ends with `null`. -/
def endsWithNull (type : String) : Bool := "| null".toList.reverse.isPrefixOf type.toList.reverse

/-- The line of a member: a mark if it may be absent, and `null` if it may be empty. -/
def memberLine (uid : Json) (isOptional isNullable : Bool) (type : String) : String :=
  let type := if isNullable && !endsWithNull type then type ++ " | null" else type
  uid.display ++ (if isOptional then "?" else "") ++ ": " ++ type ++ ";"

/-- The lines of members joined, with the mappings after them where the style asks for those. -/
def bodyText (style : Style) (uids : List Json) (lines : List String) : String :=
  "\n".intercalate
    (if style.editableTags && !uids.isEmpty then lines ++ [LivePreview.mappings uids] else lines)

def uidsOf (members : List Member) : List Json := members.map Member.uid

mutual

def text (style : Style) : TypeExpr → String
  | .primitive p => p.name
  | .link => style.nameOf .link
  | .file => style.nameOf .file
  | .folder => "string | null"
  | .taxonomy => taxonomyText style
  | .declared name => name
  | .choices numeric values => choicesText numeric values
  | .references names => referencesText style names
  | .extension => extensionText
  | .richText => richTextText
  | .fallback => fallbackText
  | .object members => objectText (bodyText style (uidsOf members) (linesOf style members))
  | .array element => arrayText (text style element)
  | .atMost element count => atMostText (text style element) count

/-- The comment of a member, if it has one, and its line. -/
def memberLines (style : Style) : Member → List String
  | ⟨uid, label, isOptional, isNullable, type⟩ =>
    (comment? style label).toList ++ [memberLine uid isOptional isNullable (text style type)]

def linesOf (style : Style) : List Member → List String
  | [] => []
  | member :: rest => memberLines style member ++ linesOf style rest

end

def membersText (style : Style) (members : List Member) : String :=
  bodyText style (uidsOf members) (linesOf style members)

end TypeExpr

end SchemaDecl
