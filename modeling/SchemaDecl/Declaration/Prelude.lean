import SchemaDecl.Declaration.Printer
import SchemaDecl.Template.Engine
import SchemaDecl.TypeExpr.Printer

/-!
# Builtin declarations

The declarations that stand before those of a schema, as templates over the lead of all names, and the
choice of those that a style needs.
-/

namespace SchemaDecl.Prelude

/-- The lines of a block between braces, each with a margin. -/
def braced (lines : List Template) : Template :=
  [.text "\x7b\n"] ++ lines.flatMap (fun line => [.text margin] ++ line ++ [.text ";\n"]) ++ [.text "\x7d"]

def plain (s : String) : Template := [.text s]

/-- The name of a builtin declaration after the lead. -/
def named (builtin : Builtin) : Template := [.hole "prefix", .text builtin.baseName]

def interfaceOf (builtin : Builtin) (lines : List Template) : Template :=
  [.text "export interface "] ++ named builtin ++ [.text " "] ++ braced lines

def tuple : Template :=
  [.text ("type BuildTuple<T, N extends number, R extends T[] = []> =\n" ++
    "  R['length'] extends N ? R : BuildTuple<T, N, [...R, T]>;\n" ++
    "type TuplePrefixes<T extends any[]> =\n" ++
    "  T extends [any, ...infer Rest] ? T | TuplePrefixes<Rest extends any[] ? Rest : []> : [];\n" ++
    "type MaxTuple<T, N extends number> = TuplePrefixes<BuildTuple<T, N>>;")]

def referencedEntry : Template :=
  interfaceOf .referencedEntry [plain "uid: string", plain "_content_type_uid: string"]

def publishDetails : Template :=
  interfaceOf .publishDetails
    [plain "environment: string", plain "locale: string", plain "time: string", plain "user: string"]

def file : Template :=
  interfaceOf .file
    ([plain "uid: string", plain "created_at: string", plain "updated_at: string",
      plain "created_by: string", plain "updated_by: string", plain "content_type: string",
      plain "file_size: string", plain "tags: string[]", plain "filename: string", plain "url: string",
      plain "ACL: any[] | object", plain "is_dir: boolean", plain "parent_uid: string",
      plain "_version: number", plain "title: string", plain "_metadata?: object",
      plain "description?: string"] ++
     [.text "publish_details: " :: named .publishDetails])

def link : Template := interfaceOf .link [plain "title: string", plain "href: string"]

def taxonomy : Template :=
  interfaceOf .taxonomy
    [plain "taxonomy_uid: string", plain "max_terms?: number", plain "mandatory: boolean",
     plain "non_localizable: boolean"]

def taxonomyEntry : Template :=
  [.text "export type "] ++ named .taxonomyEntry ++ [.text " = "] ++ named .taxonomy ++
    [.text " & \x7b term_uid: string \x7d;"]

def richText : Template :=
  [.text "export interface ", .hole "node",
   .text " \x7b\n  type: string;\n  uid: string;\n  _version: number;\n  attrs: ", .hole "fallback",
   .text ";\n  children?: ", .hole "node",
   .text ("[];\n  text?: string;\n  bold?: boolean;\n  italic?: boolean;\n  underline?: boolean;\n" ++
     "  src?: string;\n  alt?: string;\n  href?: string;\n  target?: string;\n" ++
     "  embed?: \x7b\n    type: string;\n    uid: string;\n    _version: number;\n    attrs: "),
   .hole "fallback", .text ";\n  \x7d;\n\x7d"]

def livePreview : String :=
  "export interface CSLPAttribute \x7b\n  \"data-cslp\"?: string;\n" ++
    "  \"data-cslp-parent-field\"?: string;\n\x7d\n" ++
    "export type CSLPFieldMapping = CSLPAttribute | string;"

def systemFields : Template :=
  interfaceOf .systemFields
    ([plain "uid?: string", plain "created_at?: string", plain "updated_at?: string",
      plain "created_by?: string", plain "updated_by?: string", plain "_content_type_uid?: string",
      plain "tags?: string[]", plain "ACL?: any[]", plain "_version?: number",
      plain "_in_progress?: boolean", plain "locale?: string"] ++
     [.text "publish_details?: " :: named .publishDetails] ++ [plain "title?: string"])

def modularBlocks : Template :=
  [.text "export type ", .hole "prefix", .text "ModularBlocksExtension<T> = T & "] ++
    named .systemFields ++ [.text ";"]

def templates : Table Template :=
  [("builtins/tuple.ts.j2", tuple), ("builtins/referenced_entry.ts.j2", referencedEntry),
   ("builtins/publish_details.ts.j2", publishDetails), ("builtins/file.ts.j2", file),
   ("builtins/link.ts.j2", link), ("builtins/taxonomy.ts.j2", taxonomy),
   ("builtins/taxonomy_entry.ts.j2", taxonomyEntry), ("builtins/json_rte.ts.j2", richText),
   ("builtins/system_fields.ts.j2", systemFields),
   ("builtins/modular_blocks_extension.ts.j2", modularBlocks)]

/-- The templates that declarations are written with, and the builtin ones. -/
def engine : Template.Engine :=
  .added (([("interface.ts.j2", Template.interface), ("block_union.ts.j2", Template.blockUnion)] ++
    templates).map fun (name, template) => (name, Template.source template))

def context (style : Style) : Entries :=
  [("prefix", .text style.lead), ("node", .text TypeExpr.richTextNode),
   ("fallback", .text TypeExpr.fallbackText)]

/-- The builtin declarations that a style needs, in their order; `richTextUsed` if rich text occurs. -/
def select (style : Style) (richTextUsed : Bool) : List String :=
  let write (template : Template) : String := template.render (context style)
  [write tuple] ++
  (if style.referencedEntry then [write referencedEntry] else []) ++
  [write publishDetails, write file, write link, write taxonomy] ++
  (if style.taxonomyEntry then [write taxonomyEntry] else []) ++
  (if richTextUsed then [write richText] else []) ++
  (if style.editableTags then [livePreview] else []) ++
  (if style.systemFields then [write systemFields, write modularBlocks] else [])

end SchemaDecl.Prelude
