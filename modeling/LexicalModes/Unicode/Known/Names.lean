import LexicalModes.Unicode.Age
import LexicalModes.Unicode.Break

/-!
The names that patterns ask for character properties by.

A name is compared in small letters without separators. It may stand alone, for a property that a
character has or lacks, a general category or a script (`named?`), or before a value of the property
it names (`valued?`).
-/

namespace LexicalModes.Unicode.Known

open LexicalModes.Unicode.Break

/-- Properties that a character has or lacks, by their names. -/
def binaries : List (List String × CharSet) :=
  [(["ahex", "asciihexdigit"], asciiHexDigit),
   (["alpha", "alphabetic"], alphabetic),
   (["bidic", "bidicontrol"], bidiControl),
   (["bidim", "bidimirrored"], bidiMirrored),
   (["cased"], .unionAll [lowercase, uppercase, categories [.lt]]),
   (["ci", "caseignorable"], (categories [.mn, .me, .cf, .lm, .sk]).union midWord),
   (["cwcf", "changeswhencasefolded"], changesWhenCasefolded),
   (["cwcm", "changeswhencasemapped"],
     .unionAll [changesWhenLowercased, changesWhenTitlecased, changesWhenUppercased]),
   (["cwl", "changeswhenlowercased"], changesWhenLowercased),
   (["cwt", "changeswhentitlecased"], changesWhenTitlecased),
   (["cwu", "changeswhenuppercased"], changesWhenUppercased),
   (["dash"], dash),
   (["dep", "deprecated"], deprecated),
   (["di", "defaultignorablecodepoint"], defaultIgnorable),
   (["dia", "diacritic"], diacritic),
   (["ebase", "emojimodifierbase"], emojiModifierBase),
   (["ecomp", "emojicomponent"], emojiComponent),
   (["emod", "emojimodifier"], emojiModifier),
   (["emoji"], emoji),
   (["epres", "emojipresentation"], emojiPresentation),
   (["ext", "extender"], extender),
   (["extpict", "extendedpictographic"], extendedPictographic),
   (["grbase", "graphemebase"],
     ((categories [.cc, .cf, .cs, .co, .cn, .zl, .zp]).union graphemeExtend).compl),
   (["grext", "graphemeextend"], graphemeExtend),
   (["grlink", "graphemelink"], graphemeLink),
   (["hex", "hexdigit"], hexDigit),
   (["hyphen"], hyphen),
   (["idc", "idcontinue"], idContinue),
   (["idcompatmathcontinue"], idCompatMathContinue),
   (["idcompatmathstart"], idCompatMathStart),
   (["ideo", "ideographic"], ideographic),
   (["ids", "idstart"], idStart),
   (["idsb", "idsbinaryoperator"], idsBinary),
   (["idst", "idstrinaryoperator"], idsTrinary),
   (["idsu", "idsunaryoperator"], idsUnary),
   (["joinc", "joincontrol"], joinControl),
   (["loe", "logicalorderexception"], logicalOrderException),
   (["lower", "lowercase"], lowercase),
   (["math"], (categories [.sm]).union otherMath),
   (["mcm", "modifiercombiningmark"], modifierCombiningMark),
   (["nchar", "noncharactercodepoint"], nonCharacter),
   (["oalpha", "otheralphabetic"], otherAlphabetic.diff latest),
   (["odi", "otherdefaultignorablecodepoint"], otherDefaultIgnorable),
   (["ogrext", "othergraphemeextend"], otherGraphemeExtend),
   (["oidc", "otheridcontinue"], otherIdContinue),
   (["oids", "otheridstart"], otherIdStart),
   (["olower", "otherlowercase"], otherLowercase.diff latest),
   (["omath", "othermath"], otherMath),
   (["oupper", "otheruppercase"], otherUppercase),
   (["patsyn", "patternsyntax"], patternSyntax),
   (["patws", "patternwhitespace"], patternWhiteSpace),
   (["pcm", "prependedconcatenationmark"], prependedConcatenationMark),
   (["qmark", "quotationmark"], quotationMark),
   (["radical"], radical),
   (["ri", "regionalindicator"], regionalIndicator),
   (["sd", "softdotted"], softDotted),
   (["space", "whitespace", "wspace"], whiteSpace),
   (["sterm", "sentenceterminal"], sentenceTerminal),
   (["term", "terminalpunctuation"], terminalPunctuation),
   (["uideo", "unifiedideograph"], unifiedIdeograph),
   (["upper", "uppercase"], uppercase),
   (["vs", "variationselector"], variationSelector),
   (["xidc", "xidcontinue"], idContinue.diff unstableIdContinue),
   (["xids", "xidstart"], idStart.diff unstableIdStart)]

/-- General categories and groups of them, by their names. There is no name for the surrogates
alone, which are no characters. -/
def categoryNames : List (List String × List Category) :=
  [(["l", "letter"], letter),
   (["lc", "casedletter"], [.lu, .ll, .lt]),
   (["lu", "uppercaseletter"], [.lu]),
   (["ll", "lowercaseletter"], [.ll]),
   (["lt", "titlecaseletter"], [.lt]),
   (["lm", "modifierletter"], [.lm]),
   (["lo", "otherletter"], [.lo]),
   (["m", "mark", "combiningmark"], mark),
   (["mn", "nonspacingmark"], [.mn]),
   (["mc", "spacingmark"], [.mc]),
   (["me", "enclosingmark"], [.me]),
   (["n", "number"], [.nd, .nl, .no]),
   (["nd", "decimalnumber", "digit"], [.nd]),
   (["nl", "letternumber"], [.nl]),
   (["no", "othernumber"], [.no]),
   (["p", "punctuation", "punct"], [.pc, .pd, .ps, .pe, .pi, .pf, .po]),
   (["pc", "connectorpunctuation"], [.pc]),
   (["pd", "dashpunctuation"], [.pd]),
   (["ps", "openpunctuation"], [.ps]),
   (["pe", "closepunctuation"], [.pe]),
   (["pi", "initialpunctuation"], [.pi]),
   (["pf", "finalpunctuation"], [.pf]),
   (["po", "otherpunctuation"], [.po]),
   (["s", "symbol"], [.sm, .sc, .sk, .so]),
   (["sm", "mathsymbol"], [.sm]),
   (["sc", "currencysymbol"], [.sc]),
   (["sk", "modifiersymbol"], [.sk]),
   (["so", "othersymbol"], [.so]),
   (["z", "separator"], [.zs, .zl, .zp]),
   (["zs", "spaceseparator"], [.zs]),
   (["zl", "lineseparator"], [.zl]),
   (["zp", "paragraphseparator"], [.zp]),
   (["c", "other"], [.cc, .cf, .cs, .co, .cn]),
   (["cc", "control", "cntrl"], [.cc]),
   (["cf", "format"], [.cf]),
   (["co", "privateuse"], [.co]),
   (["cn", "unassigned"], [.cn])]

/-- Parts that characters play in the division into clusters, by their names. -/
def clusterBreaks : List (List String × CharSet) :=
  [(["cn", "control"], Cluster.control), (["cr"], carriageReturn),
   (["ex", "extend"], Cluster.extend), (["l"], Cluster.lead), (["lf"], lineFeed),
   (["lv"], Cluster.leadVowel), (["lvt"], Cluster.leadVowelTrail),
   (["pp", "prepend"], Cluster.prepend),
   (["ri", "regionalindicator"], regionalIndicator), (["sm", "spacingmark"], Cluster.spacingMark),
   (["t"], Cluster.trail), (["v"], Cluster.vowel), (["zwj"], joiner)]

/-- Parts that characters play in the division into words, by their names. -/
def wordBreaks : List (List String × CharSet) :=
  [(["le", "aletter"], Word.letter), (["cr"], carriageReturn),
   (["dq", "doublequote"], codes [0x22]), (["extend"], Word.extend),
   (["ex", "extendnumlet"], Word.connector),
   (["fo", "format"], Word.format), (["hl", "hebrewletter"], Word.hebrew),
   (["ka", "katakana"], Word.katakana), (["lf"], lineFeed), (["ml", "midletter"], Word.midLetter),
   (["mn", "midnum"], Word.midNumber), (["mb", "midnumlet"], Word.midEither),
   (["nl", "newline"], Word.newline), (["nu", "numeric"], numeric),
   (["ri", "regionalindicator"], regionalIndicator), (["sq", "singlequote"], codes [0x27]),
   (["wsegspace"], Word.space), (["zwj"], joiner)]

/-- Parts that characters play in the division into sentences, by their names. -/
def sentenceBreaks : List (List String × CharSet) :=
  [(["at", "aterm"], Sentence.abbreviation), (["cl", "close"], Sentence.close),
   (["cr"], carriageReturn), (["ex", "extend"], Sentence.extend),
   (["fo", "format"], Sentence.format), (["le", "oletter"], Sentence.letter), (["lf"], lineFeed),
   (["lo", "lower"], Sentence.lower), (["nu", "numeric"], Sentence.numeric),
   (["sc", "scontinue"], Sentence.continuer), (["se", "sep"], Sentence.separator),
   (["sp"], Sentence.space), (["st", "sterm"], Sentence.terminal),
   (["up", "upper"], Sentence.upper)]

/-- Look a name up in a list of names and what they stand for. -/
def findName? {α : Type} (table : List (List String × α)) (name : String) : Option α :=
  (table.find? (·.1.contains name)).map (·.2)

/-- Characters of the general category, or group of categories, with this name. -/
def category? (name : String) : Option CharSet :=
  match name with
  | "any" => some .all
  | "assigned" => some (categories [.cn]).compl
  | "ascii" => some (.range (Char.ofNat 0) (Char.ofNat 127))
  | _ => (findName? categoryNames name).map categories

/-- The spelling in which names are compared: small letters without separators and without a
leading `is`. Characters that no name has are dropped. The name `isc` is kept whole, as it is that
of a property by itself. -/
def key (name : List Char) : String :=
  let (marked, rest) := match name with
    | i :: s :: rest => if i.toLower == 'i' && s.toLower == 's' then (true, rest) else (false, name)
    | _ => (false, name)
  let letters := (rest.filter fun c => c.toNat < 128 && c != ' ' && c != '_' && c != '-').map
    Char.toLower
  if marked && letters == ['c'] then "isc" else String.ofList letters

/-- Characters that have the named property, or belong to the named category or script. -/
def named? (name : List Char) : Option CharSet :=
  let key := key name
  (findName? binaries key).or ((category? key).or ((Script.code? key).map Script.members))

/-- Characters for which the named property has the named value. -/
def valued? (property value : List Char) : Option CharSet :=
  match key property with
  | "gc" | "generalcategory" => category? (key value)
  | "sc" | "script" => (Script.code? (key value)).map Script.members
  | "scx" | "scriptextensions" => (Script.code? (key value)).map Script.users
  | "age" => Age.upTo? (key value)
  | "gcb" | "graphemeclusterbreak" => findName? clusterBreaks (key value)
  | "wb" | "wordbreak" => findName? wordBreaks (key value)
  | "sb" | "sentencebreak" => findName? sentenceBreaks (key value)
  | _ => none

end LexicalModes.Unicode.Known
