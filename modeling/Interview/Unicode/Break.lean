import Interview.Unicode.Derived
import Interview.Unicode.Script

/-! The classes of characters from which the breaks between graphemes, words and sentences are found. -/

namespace Interview.Unicode

def carriageReturn : CodeSet := .single 0xd

def lineFeed : CodeSet := .single 0xa

def joiner : CodeSet := .single 0x200d

/-- Marks that number what follows them; of the prepended marks only the abbreviation mark does not. -/
def numberMarks : CodeSet := prependedConcatenationMark \ .single 0x70f

namespace Grapheme

def extend : CodeSet := graphemeExtend ∪ emojiModifier

def control : CodeSet :=
  (inCategories ["Zl", "Zp", "Cc", "Cf"] ∪ defaultIgnorable \ assigned) \
    (carriageReturn ∪ lineFeed ∪ joinControl ∪ prependedConcatenationMark ∪ extend)

def prepended : CodeSet :=
  prependedConcatenationMark ∪
    .ofText ["D4E 111C2-111C3 113D1 1193F 11941 11A3A 11A84-11A89 11D46 11F02"]

def spacingMark : CodeSet :=
  (inCategories ["Mc"] ∪ .ofText ["E33 EB3"]) \ (extend ∪
    .ofText ["102B 102C 1038 1062-1064 1067-106D 1083 1087-108C 108F 109A-109C 1A61 1A63 1A64 AA7B",
      "AA7D 11720 11721"])

def leadingJamo : CodeSet := .ofText ["1100-115F A960-A97C"]

def vowelJamo : CodeSet := .ofText ["1160-11A7 D7B0-D7C6 16D63 16D67-16D6A"]

def trailingJamo : CodeSet := .ofText ["11A8-11FF D7CB-D7FB"]

/-- Syllables without a trailing consonant: every 28th. -/
def openSyllable : CodeSet := .ofList ((List.range 399).map (0xac00 + 28 * ·))

def closedSyllable : CodeSet := .range 0xac00 0xd7a3 \ openSyllable

def classes : List (String × CodeSet) := [
    ("control cn", control), ("cr", carriageReturn), ("extend ex", extend), ("l", leadingJamo),
    ("lf", lineFeed), ("lv", openSyllable), ("lvt", closedSyllable), ("prepend pp", prepended),
    ("regionalindicator ri", regionalIndicator), ("spacingmark sm", spacingMark),
    ("t", trailingJamo), ("v", vowelJamo), ("zwj", joiner)]

end Grapheme

namespace Word

def extend : CodeSet := Grapheme.extend ∪ inCategories ["Mc"]

def format : CodeSet :=
  inCategories ["Cf"] \ (.ofText ["200B-200D"] ∪ prependedConcatenationMark ∪ extend)

def katakana : CodeSet := script "Kana" ∪ .ofText ["3031-3035 309B-309C 30A0 30FC FF70"]

def hebrewLetter : CodeSet := script "Hebr" ∩ inCategories ["Lo"]

/-- Letters of scripts that put nothing between words. -/
def unspaced : CodeSet := .ofText [
    "E01-E30 E32-E33 E40-E46 E81-E82 E84 E86-E8A E8C-EA3 EA5 EA7-EB0 EB2-EB3 EBD EC0-EC4 EC6",
    "EDC-EDF 1000-102A 103F 1050-1055 105A-105D 1061 1065-1066 106E-1070 1075-1081 108E 1780-17B3",
    "17D7 17DC 1950-196D 1970-1974 1980-19AB 19B0-19C9 1A20-1A54 1AA7 A9E0-A9E4 A9E6-A9EF",
    "A9FA-A9FE AA60-AA76 AA7A AA7E-AAAF AAB1 AAB5-AAB6 AAB9-AABD AAC0 AAC2 AADB-AADD 11700-1171A",
    "11740-11746"]

def letter : CodeSet :=
  (alphabetic ∪ .ofText ["2C2-2C5 2D2-2D7 2DE-2DF 2E5-2EB 2ED 2EF-2FF 55A-55C 55E 58A 5F3 70F",
    "A708-A716 A720-A721 A789-A78A AB5B"]) \
    (ideographic ∪ katakana ∪ hebrewLetter ∪ script "Hira" ∪ unspaced ∪ extend)

def midNum : CodeSet := .ofText [
    "2C 3B 37E 589 60C-60D 66C 7F8 2044 FE10 FE14 FE50 FE54 FF0C FF1B"]

def numeric : CodeSet := decimal ∪ .single 0x66b ∪ numberMarks

def joining : CodeSet := inCategories ["Pc"] ∪ .single 0x202f

def classes : List (String × CodeSet) := [
    ("aletter le", letter), ("cr", carriageReturn), ("doublequote dq", .single 0x22),
    ("extend", extend), ("extendnumlet ex", joining), ("format fo", format),
    ("hebrewletter hl", hebrewLetter), ("katakana ka", katakana), ("lf", lineFeed),
    ("midletter ml", midLetter), ("midnum mn", midNum), ("midnumlet mb", midNumLet),
    ("newline nl", .ofText ["B-C 85 2028-2029"]), ("numeric nu", numeric),
    ("regionalindicator ri", regionalIndicator), ("singlequote sq", singleQuote),
    ("wsegspace", .ofText ["20 1680 2000-2006 2008-200A 205F 3000"]), ("zwj", joiner)]

end Word

namespace Sentence

def extend : CodeSet := graphemeExtend ∪ inCategories ["Mc"] ∪ joiner

def format : CodeSet := inCategories ["Cf"] \ (numberMarks ∪ extend)

def separator : CodeSet := .ofText ["85 2028-2029"]

def space : CodeSet := whiteSpace \ (separator ∪ carriageReturn ∪ lineFeed)

/-- Georgian letters count as neither small nor capital. -/
def lower : CodeSet := lowercase \ (graphemeExtend ∪ .ofText ["10D0-10FA 10FD-10FF"])

def upper : CodeSet := (uppercase ∪ titlecase) \ .ofText ["1C90-1CBA 1CBD-1CBF"]

def otherLetter : CodeSet := (alphabetic ∪ .single 0x5f3) \ (lower ∪ upper ∪ extend)

def numeric : CodeSet := Word.numeric ∪ .single 0x66c

def fullStop : CodeSet := .ofText ["2E 2024 FE52 FF0E"]

def terminator : CodeSet := sentenceTerminal \ fullStop

def continuation : CodeSet := .ofText [
    "2C-2D 3A-3B 37E 55D 60C-60D 7F8 1802 1808 2013-2014 3001 FE10-FE11 FE13-FE14 FE31-FE32",
    "FE50-FE51 FE54-FE55 FE58 FE63 FF0C-FF0D FF1A-FF1B FF64"]

def closing : CodeSet :=
  inCategories ["Ps", "Pe", "Pi", "Pf"] ∪
    .ofText ["22 27 275B-2760 2E00-2E01 2E06-2E08 2E0B 1F676-1F678"]

def classes : List (String × CodeSet) := [
    ("aterm at", fullStop), ("close cl", closing), ("cr", carriageReturn), ("extend ex", extend),
    ("format fo", format), ("lf", lineFeed), ("lower lo", lower), ("numeric nu", numeric),
    ("oletter le", otherLetter), ("scontinue sc", continuation), ("sep se", separator),
    ("sp", space), ("sterm st", terminator), ("upper up", upper)]

end Sentence
end Interview.Unicode
