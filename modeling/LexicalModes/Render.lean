import LexicalModes.Token

/-!
Turning tokens into marked up text.

A `Renderer` says what is written where a region starts and ends and how content is written;
`render` goes through the tokens and keeps track of the classes open around them. Content is written
with the innermost open class; embedded languages are transparent to it. A keyword is a region of
its own around its text.
-/

namespace LexicalModes

/-- What is written for regions and their content. -/
structure Renderer where
  /-- Written where a region starts. -/
  opening : Scope → String
  /-- Written where a region ends. -/
  closing : Scope → String
  /-- Written for content inside the innermost open class, if there is one. -/
  style : Option String → String → String

namespace Renderer

/-- The renderer that leaves content as it is and adds nothing. -/
def identity : Renderer where
  opening _ := ""
  closing _ := ""
  style _ content := content

/-- What is written for a token inside the given classes, the innermost first. -/
def piece (r : Renderer) (classes : List String) : Token → String
  | .text content => r.style classes.head? content
  | .keyword className content =>
    r.opening (.region className) ++ r.style (some className) content ++
      r.closing (.region className)
  | .begins scope => r.opening scope
  | .ends scope => r.closing scope

end Renderer

/-- The classes open after a token, the innermost first. -/
def openClasses (classes : List String) : Token → List String
  | .begins (.region className) => className :: classes
  | .ends (.region _) => classes.tail
  | _ => classes

/-- What is written for each token, inside the given classes. -/
def Renderer.pieces (r : Renderer) : List String → List Token → List String
  | _, [] => []
  | classes, t :: rest => r.piece classes t :: r.pieces (openClasses classes t) rest

/-- The marked up text of the tokens. -/
def render (r : Renderer) (tokens : List Token) : String := String.join (r.pieces [] tokens)

end LexicalModes
