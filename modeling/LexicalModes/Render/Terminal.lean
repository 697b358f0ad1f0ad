import LexicalModes.Render

/-!
Colours for terminals.

Content is wrapped in escape sequences according to its class. Classes without an ink of their own
are left plain, and regions add nothing where they start and end.
-/

namespace LexicalModes

/-- A colour by its red, green and blue parts. -/
structure Colour where
  red : Nat
  green : Nat
  blue : Nat
  deriving DecidableEq, Repr

/-- The face that content is written in. -/
inductive Face
  | upright
  | bold
  | italic
  deriving DecidableEq, Repr

/-- How the content of a class looks. -/
structure Ink where
  colour : Option Colour
  face : Face
  deriving DecidableEq, Repr

/-- The escape sequence with these parameters. -/
def escapeSequence (parameters : String) : String :=
  String.singleton (Char.ofNat 0x1B) ++ "[" ++ parameters ++ "m"

/-- The parameters that switch to a colour. -/
def Colour.parameters (c : Colour) : String :=
  "38;2;" ++ c.red.repr ++ ";" ++ c.green.repr ++ ";" ++ c.blue.repr

namespace Ink

/-- Content in the ink's colour. -/
def tint (ink : Ink) (content : String) : String :=
  match ink.colour with
  | some c => escapeSequence c.parameters ++ content ++ escapeSequence "39"
  | none => content

/-- Content in the ink's colour and face. -/
def apply (ink : Ink) (content : String) : String :=
  match ink.face with
  | .upright => ink.tint content
  | .bold => escapeSequence "1" ++ ink.tint content ++ escapeSequence "0"
  | .italic => escapeSequence "3" ++ ink.tint content ++ escapeSequence "0"

/-- An ink of the given colour. -/
def tinted (red green blue : Nat) (face : Face) : Ink := ⟨some ⟨red, green, blue⟩, face⟩

/-- The ink of a class, if it has one. -/
def ofClass? : String → Option Ink
  | "keyword" | "selector-tag" => some (tinted 0x75 0x50 0x7b .bold)
  | "built_in" | "type" | "class" => some (tinted 0x8f 0x59 0x02 .bold)
  | "title" | "function" | "section" => some (tinted 0x34 0x65 0xa4 .bold)
  | "string" | "regexp" | "symbol" => some (tinted 0x4e 0x9a 0x06 .upright)
  | "number" | "literal" => some (tinted 0xad 0x7f 0xa8 .upright)
  | "comment" | "quote" => some (tinted 0x99 0x99 0x99 .italic)
  | "doctag" | "meta" => some (tinted 0xc4 0xa0 0x00 .bold)
  | "variable" | "params" | "template-variable" => some (tinted 0x72 0x9f 0xcf .upright)
  | "attr" | "attribute" | "name" | "tag" => some (tinted 0x60 0x98 0x9a .upright)
  | "subst" | "operator" => some (tinted 0xcc 0x00 0x00 .upright)
  | "strong" => some ⟨none, .bold⟩
  | "emphasis" => some ⟨none, .italic⟩
  | _ => none

end Ink

namespace Renderer

/-- Escape sequences around the content of classes that have an ink. -/
def terminal : Renderer where
  opening _ := ""
  closing _ := ""
  style className content :=
    match className.bind Ink.ofClass? with
    | some ink => ink.apply content
    | none => content

end Renderer

end LexicalModes
