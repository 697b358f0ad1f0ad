import LexicalModes.Render

/-!
Markup for web pages.

Regions become `span` elements. Class names get a common start, by default `hljs-`, so that they
cannot collide with the styles of a page; embedded languages are marked with their bare name. The
characters that mean something in markup are written as entities, in content and in names alike.
-/

namespace LexicalModes

/-- Characters written as entities in content and in attribute values. -/
def markupEntity? : Char → Option String
  | '&' => some "&amp;"
  | '<' => some "&lt;"
  | '>' => some "&gt;"
  | '"' => some "&quot;"
  | _ => none

/-- Replace each character that has an entity. -/
def replaceEntities (entity? : Char → Option String) (content : String) : String :=
  String.join (content.toList.map fun c => (entity? c).getD (String.singleton c))

/-- Text with the characters that mean something in markup written as entities. -/
def escapeMarkup (content : String) : String := replaceEntities markupEntity? content

/-- The start tag of a `span` with this class. -/
def spanTag (className : String) : String := "<span class=\"" ++ className ++ "\">"

namespace Renderer

/-- Spans whose class names start with the given text. -/
def html (classStart : String) : Renderer where
  opening
    | .region className => spanTag (classStart ++ escapeMarkup className)
    | .language name => spanTag (escapeMarkup name)
  closing _ := "</span>"
  style _ content := escapeMarkup content

/-- What class names start with unless something else is asked for. -/
def defaultClassStart : String := "hljs-"

end Renderer

end LexicalModes
