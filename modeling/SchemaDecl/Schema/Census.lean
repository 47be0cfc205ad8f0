import SchemaDecl.Schema.Basic

/-!
# Walks over fields

`countFields` counts fields at every level. `fieldsRichText` looks for a json field that allows rich
text, in groups and in blocks at any depth.
-/

namespace SchemaDecl

mutual

def countField : Field → Nat
  | ⟨_, schema?, blocks⟩ => 1 + countSchema schema? + countBlocks blocks

def countFields : List Field → Nat
  | [] => 0
  | field :: rest => countField field + countFields rest

def countSchema : Option (List Field) → Nat
  | none => 0
  | some fields => countFields fields

def countBlock : Block → Nat
  | ⟨_, _, _, schema?⟩ => countSchema schema?

def countBlocks : List Block → Nat
  | [] => 0
  | block :: rest => countBlock block + countBlocks rest

end

/-- The first of two findings that is positive, the second looked at only if the first is not. -/
def orFind (first second : Except Fault Bool) : Except Fault Bool :=
  match first with
  | .ok false => second
  | found => found

mutual

def fieldRichText : Field → Except Fault Bool
  | ⟨attrs, schema?, blocks⟩ =>
    match attrs.kind with
    | .json => attrs.allowsRichText
    | .group => schemaRichText schema?
    | .blocks => blocksRichText blocks
    | _ => .ok false

def fieldsRichText : List Field → Except Fault Bool
  | [] => .ok false
  | field :: rest => orFind (fieldRichText field) (fieldsRichText rest)

def schemaRichText : Option (List Field) → Except Fault Bool
  | none => .ok false
  | some fields => fieldsRichText fields

def blockRichText : Block → Except Fault Bool
  | ⟨_, _, _, schema?⟩ => schemaRichText schema?

def blocksRichText : List Block → Except Fault Bool
  | [] => .ok false
  | block :: rest => orFind (blockRichText block) (blocksRichText rest)

end

def recordsRichText : List Record → Except Fault Bool
  | [] => .ok false
  | record :: rest => orFind (fieldsRichText record.fields) (recordsRichText rest)

end SchemaDecl
