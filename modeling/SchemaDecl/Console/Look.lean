import SchemaDecl.Console.Colour

/-!
# Looks of text

A look is written in words: effects that are switched on, or off after `not`, a colour, a background
after `on`, and the address of a link after `link`. Where a word is repeated the last one holds. The
normal form names the parts of a look in a fixed order; words that are no look have their small letters
as normal form.
-/

namespace SchemaDecl.Console

inductive Effect
  | bold | dim | italic | underline | blink | blink2 | reverse | conceal | strike | underline2 | frame
  | encircle | overline
  deriving DecidableEq, Repr

namespace Effect

def all : List Effect :=
  [bold, dim, italic, underline, blink, blink2, reverse, conceal, strike, underline2, frame, encircle,
   overline]

def name : Effect → String
  | bold => "bold"
  | dim => "dim"
  | italic => "italic"
  | underline => "underline"
  | blink => "blink"
  | blink2 => "blink2"
  | reverse => "reverse"
  | conceal => "conceal"
  | strike => "strike"
  | underline2 => "underline2"
  | frame => "frame"
  | encircle => "encircle"
  | overline => "overline"

def short : List (String × Effect) :=
  [("d", dim), ("b", bold), ("i", italic), ("u", underline), ("r", reverse), ("c", conceal),
   ("s", strike), ("uu", underline2), ("o", overline)]

def ofName? (s : String) : Option Effect :=
  (all.find? fun effect => effect.name = s).or ((short.find? fun (t, _) => t = s).map Prod.snd)

end Effect

structure Look where
  effects : List (Effect × Bool) := []
  colour? : Option String := none
  background? : Option String := none
  link? : Option String := none
  deriving DecidableEq, Repr

namespace Look

def switch (look : Look) (effect : Effect) (on : Bool) : Look :=
  { look with effects := (effect, on) :: look.effects }

/-- The look of words together with one that was read before; nothing if a word has no sense. -/
def readWords (look : Look) : List String → Except Colour.Fault (Option Look)
  | [] => .ok (some look)
  | word :: rest =>
    let small := Text.lower word
    if small = "on" then
      match rest with
      | [] => .ok none
      | word :: rest => do
        match ← Colour.normal? word with
        | some colour => readWords { look with background? := some colour } rest
        | none => return none
    else if small = "not" then
      match rest with
      | [] => .ok none
      | word :: rest =>
        match Effect.ofName? word with
        | some effect => readWords (look.switch effect false) rest
        | none => .ok none
    else if small = "link" then
      match rest with
      | [] => .ok none
      | word :: rest => readWords { look with link? := some word } rest
    else match Effect.ofName? small with
      | some effect => readWords (look.switch effect true) rest
      | none => do
        match ← Colour.normal? small with
        | some colour => readWords { look with colour? := some colour } rest
        | none => return none

/-- The word for a look without any part. -/
def noLook : String := "none"

/-- The words for a look in their fixed order. -/
def words (look : Look) : List String :=
  (Effect.all.flatMap fun effect =>
    match look.effects.find? fun (other, _) => other = effect with
    | some (_, true) => [effect.name]
    | some (_, false) => ["not", effect.name]
    | none => []) ++
  look.colour?.toList ++
  (look.background?.map fun colour => ["on", colour]).getD [] ++
  (look.link?.map fun address => ["link", address]).getD []

def text (look : Look) : String :=
  if look.words.isEmpty then noLook else " ".intercalate look.words

def read (cs : List Char) : Except Colour.Fault (Option Look) :=
  if Text.trim cs = noLook.toList then .ok (some {})
  else readWords {} ((Text.words cs).map String.ofList)

def normal (cs : List Char) : Except Colour.Fault String := do
  match ← read cs with
  | some look => return look.text
  | none => return Text.lower (String.ofList (Text.trim cs))

end Look

end SchemaDecl.Console
