import LexicalModes.Render.Html

/-!
Complete web pages around rendered markup.

The page holds a title, a style sheet in the colours that terminals get, and the markup as
preformatted code. Title and language are escaped; the markup is taken as it is.
-/

namespace LexicalModes

/-- Characters written as entities in the title of a page and in its language. -/
def pageEntity? : Char → Option String
  | '\'' => some "&#39;"
  | c => markupEntity? c

/-- A rule of a style sheet on one line. -/
def styleRule (selectors declarations : String) : String :=
  selectors ++ " \x7b " ++ declarations ++ " \x7d"

/-- Colours for the classes of the markup. -/
def styleSheet : String :=
  "\n".intercalate
    [styleRule ".hljs" "display: block; padding: 0.5em; color: #2e3436; background: #fafafa;",
     styleRule ".hljs-keyword, .hljs-selector-tag" "color: #75507b; font-weight: bold;",
     styleRule ".hljs-built_in, .hljs-type, .hljs-class" "color: #8f5902; font-weight: bold;",
     styleRule ".hljs-title, .hljs-function, .hljs-section" "color: #3465a4; font-weight: bold;",
     styleRule ".hljs-string, .hljs-regexp, .hljs-symbol" "color: #4e9a06;",
     styleRule ".hljs-number, .hljs-literal" "color: #ad7fa8;",
     styleRule ".hljs-comment, .hljs-quote" "color: #999999; font-style: italic;",
     styleRule ".hljs-doctag, .hljs-meta" "color: #c4a000; font-weight: bold;",
     styleRule ".hljs-variable, .hljs-params, .hljs-template-variable" "color: #729fcf;",
     styleRule ".hljs-attr, .hljs-attribute, .hljs-name, .hljs-tag" "color: #60989a;",
     styleRule ".hljs-subst, .hljs-operator" "color: #cc0000;",
     styleRule ".hljs-strong" "font-weight: bold;",
     styleRule ".hljs-emphasis" "font-style: italic;"]

/-- The class of the code element: the common class, then the language unless it is absent or
empty. -/
def codeClass (language : Option String) : String :=
  match language with
  | some name => if name.isEmpty then "hljs" else "hljs " ++ replaceEntities pageEntity? name
  | none => "hljs"

/-- A page that can be opened by itself, around markup that is already escaped. -/
def page (markup title : String) (language : Option String) : String :=
  "<!DOCTYPE html>\n<html>\n<head>\n<meta charset=\"utf-8\">\n<title>" ++
    replaceEntities pageEntity? title ++ "</title>\n<style>\n" ++ styleSheet ++
    "\n</style>\n</head>\n<body>\n<pre><code class=\"" ++ codeClass language ++ "\">" ++ markup ++
    "</code></pre>\n</body>\n</html>\n"

end LexicalModes
