import Interview.Unicode.Age
import Interview.Unicode.Break

/-! The sets of characters that patterns call by name. -/

namespace Interview.Pattern

open Unicode

def asciiDigit : CodeSet := .ofText ["30-39"]

def asciiWord : CodeSet := .ofText ["30-39 41-5A 5F 61-7A"]

def asciiSpace : CodeSet := .ofText ["9-D 20"]

def asciiClass? (name : String) : Option CodeSet :=
  match name with
  | "alnum" => some (.ofText ["30-39 41-5A 61-7A"])
  | "alpha" => some (.ofText ["41-5A 61-7A"])
  | "ascii" => some (.range 0 0x7f)
  | "blank" => some (.ofText ["9 20"])
  | "cntrl" => some (.ofText ["0-1F 7F"])
  | "digit" => some asciiDigit
  | "graph" => some (.range 0x21 0x7e)
  | "lower" => some (.range 0x61 0x7a)
  | "print" => some (.range 0x20 0x7e)
  | "punct" => some (.ofText ["21-2F 3A-40 5B-60 7B-7E"])
  | "space" => some asciiSpace
  | "upper" => some (.range 0x41 0x5a)
  | "word" => some asciiWord
  | "xdigit" => some (.ofText ["30-39 41-46 61-66"])
  | _ => none

/-- Names of properties are compared without case, blanks, hyphens, underscores and a leading "is". -/
def plainName (cs : List Char) : String :=
  let isPrefixed := Text.lowerAscii (cs.take 2) == ['i', 's']
  let body := if isPrefixed then cs.drop 2 else cs
  let kept := body.filter fun c => c != ' ' && c != '_' && c != '-' && c.toNat < 0x80
  let name := String.ofList (Text.lowerAscii kept)
  if isPrefixed && name == "c" then "isc" else name

def named? (name : String) (entries : List (String × α)) : Option α :=
  (entries.find? fun (names, _) => (Text.words names.toList).contains name.toList).map (·.2)

def category? (name : String) : Option CodeSet :=
  match name with
  | "any" => some .any
  | "assigned" => some assigned
  | "ascii" => some (.range 0 0x7f)
  | _ => (categoryNames.find? (·.1.contains name)).map fun (_, codes) => inCategories codes

/-- The code of a script; a script is called by its code too. -/
def scriptCode? (name : String) : Option String :=
  named? name <| scriptNames.map fun names =>
    (String.ofList (Text.lowerAscii names.toList), String.ofList (names.toList.take 4))

def binaryProperties : List (String × CodeSet) := [
    ("alphabetic alpha", alphabetic), ("asciihexdigit ahex", asciiHexDigit),
    ("bidicontrol bidic", bidiControl), ("caseignorable ci", caseIgnorable), ("cased", cased),
    ("changeswhencasefolded cwcf", changesWhenCasefolded),
    ("changeswhencasemapped cwcm", changesWhenCasemapped),
    ("changeswhenlowercased cwl", changesWhenLowercased),
    ("changeswhentitlecased cwt", changesWhenTitlecased),
    ("changeswhenuppercased cwu", changesWhenUppercased), ("dash", dash),
    ("defaultignorablecodepoint di", defaultIgnorable), ("deprecated dep", deprecated),
    ("diacritic dia", diacritic), ("emoji", emoji), ("emojicomponent ecomp", emojiComponent),
    ("emojimodifier emod", emojiModifier), ("emojimodifierbase ebase", emojiModifierBase),
    ("emojipresentation epres", emojiPresentation),
    ("extendedpictographic extpict", extendedPictographic), ("extender ext", extender),
    ("graphemebase grbase", graphemeBase), ("graphemeextend grext", graphemeExtend),
    ("graphemelink grlink", graphemeLink), ("hexdigit hex", hexDigit), ("hyphen", hyphen),
    ("idcompatmathcontinue", idCompatMathContinue), ("idcompatmathstart", idCompatMathStart),
    ("idcontinue idc", idContinue), ("idstart ids", idStart), ("ideographic ideo", ideographic),
    ("idsbinaryoperator idsb", idsBinaryOperator), ("idstrinaryoperator idst", idsTrinaryOperator),
    ("idsunaryoperator idsu", idsUnaryOperator), ("joincontrol joinc", joinControl),
    ("logicalorderexception loe", logicalOrderException), ("lowercase lower", lowercase),
    ("math", math), ("modifiercombiningmark mcm", modifierCombiningMark),
    ("noncharactercodepoint nchar", noncharacter), ("otheralphabetic oalpha", otherAlphabetic),
    ("otherdefaultignorablecodepoint odi", otherDefaultIgnorable),
    ("othergraphemeextend ogrext", otherGraphemeExtend), ("otheridcontinue oidc", otherIdContinue),
    ("otheridstart oids", otherIdStart), ("otherlowercase olower", otherLowercase),
    ("othermath omath", otherMath), ("otheruppercase oupper", otherUppercase),
    ("patternsyntax patsyn", patternSyntax), ("patternwhitespace patws", patternWhiteSpace),
    ("prependedconcatenationmark pcm", prependedConcatenationMark),
    ("quotationmark qmark", quotationMark), ("radical", radical),
    ("regionalindicator ri", regionalIndicator), ("sentenceterminal sterm", sentenceTerminal),
    ("softdotted sd", softDotted), ("terminalpunctuation term", terminalPunctuation),
    ("unifiedideograph uideo", unifiedIdeograph), ("uppercase upper", uppercase),
    ("variationselector vs", variationSelector), ("whitespace wspace space", whiteSpace),
    ("xidcontinue xidc", xidContinue), ("xidstart xids", xidStart)]

def property? (cs : List Char) : Option CodeSet :=
  let name := plainName cs
  named? name binaryProperties <|> category? name <|> (scriptCode? name).map script

/-- A version as it is written, such as `6.1`, or as a name, such as `v61`. -/
def age? (name : String) : Option CodeSet :=
  (versions.find? fun (_, version) =>
    name == version || name == "v" ++ version.replace "." "").bind fun (_, version) =>
      assignedBy? version

def propertyValue? (property value : List Char) : Option CodeSet :=
  let value := plainName value
  match plainName property with
  | "gc" | "generalcategory" => category? value
  | "sc" | "script" => (scriptCode? value).map script
  | "scx" | "scriptextensions" => (scriptCode? value).map usedInScript
  | "age" => age? value
  | "gcb" | "graphemeclusterbreak" => named? value Grapheme.classes
  | "wb" | "wordbreak" => named? value Word.classes
  | "sb" | "sentencebreak" => named? value Sentence.classes
  | _ => none

end Interview.Pattern
