import Interview.Unicode.CaseFold
import Interview.Unicode.Category
import Interview.Unicode.Listed

/-! The sets of characters that the standard derives from categories and listed sets. -/

namespace Interview.Unicode

def alphabetic : CodeSet := letters ∪ inCategories ["Nl"] ∪ otherAlphabetic

def lowercase : CodeSet := inCategories ["Ll"] ∪ otherLowercase

def uppercase : CodeSet := inCategories ["Lu"] ∪ otherUppercase

def titlecase : CodeSet := inCategories ["Lt"]

def cased : CodeSet := lowercase ∪ uppercase ∪ titlecase

def numeric : CodeSet := inCategories ["Nd", "Nl", "No"]

def decimal : CodeSet := inCategories ["Nd"]

def math : CodeSet := inCategories ["Sm"] ∪ otherMath

def word : CodeSet := alphabetic ∪ marks ∪ inCategories ["Nd", "Pc"] ∪ joinControl

/-- Full mappings to several characters count as changes, here and below, which adds the characters that
have only such a mapping. -/
def changesWhenCasefolded : CodeSet :=
  foldable \ .ofText ["1FBE 1FD3 1FE3"] ∪
    .ofText ["DF 130 149 587 1E9A 1F80-1F87 1F90-1F97 1FA0-1FA7 1FB2-1FB4 1FB7 1FC2-1FC4 1FC7",
      "1FF2-1FF4 1FF7 FB00-FB04 FB06 FB13-FB17"]

def changesWhenLowercased : CodeSet :=
  (uppercase ∪ titlecase) ∩ foldable ∪ .ofText ["130 13A0-13F5"]

def changesWhenUppercased : CodeSet :=
  (.ofList (foldings.map (·.2)) ∪ foldable) \ uppercase ∪ titlecase ∪
    .ofText ["131 149 1F0 587 1E96-1E9A 1F50 1F52 1F54 1F56 1FB2 1FB4 1FB6-1FB7 1FC2 1FC4",
      "1FC6-1FC7 1FD2 1FD6-1FD7 1FE2 1FE4 1FE6-1FE7 1FF2 1FF4 1FF6-1FF7 FB00-FB04 FB13-FB17"]

/-- Georgian letters have capitals, but titles are not set in them; the digraphs change to the form
in which only the first letter is a capital. -/
def changesWhenTitlecased : CodeSet :=
  changesWhenUppercased \ (titlecase ∪ .ofText ["10D0-10FA 10FD-10FF"]) ∪
    .ofText ["1C4 1C7 1CA 1F1"]

def changesWhenCasemapped : CodeSet :=
  changesWhenLowercased ∪ changesWhenUppercased ∪ changesWhenTitlecased

def defaultIgnorable : CodeSet :=
  (otherDefaultIgnorable ∪ inCategories ["Cf"] ∪ variationSelector) \
    (whiteSpace ∪ prependedConcatenationMark ∪ .ofText ["FFF9-FFFB 13430-1343F"])

def graphemeExtend : CodeSet := inCategories ["Me", "Mn"] ∪ otherGraphemeExtend

def graphemeBase : CodeSet :=
  ((inCategories ["Cc", "Cf", "Cn", "Co", "Zl", "Zp"]) ∪ graphemeExtend).compl

def singleQuote : CodeSet := .ofText ["27"]

def midLetter : CodeSet := .ofText ["3A B7 387 55F 5F4 2027 FE13 FE55 FF1A"]

def midNumLet : CodeSet := .ofText ["2E 2018-2019 2024 FE52 FF07 FF0E"]

def caseIgnorable : CodeSet :=
  inCategories ["Mn", "Me", "Cf", "Lm", "Sk"] ∪ midLetter ∪ midNumLet ∪ singleQuote

def idStart : CodeSet :=
  (letters ∪ inCategories ["Nl"] ∪ otherIdStart) \ (patternSyntax ∪ patternWhiteSpace)

def idContinue : CodeSet :=
  (idStart ∪ inCategories ["Mn", "Mc", "Nd", "Pc"] ∪ otherIdContinue) \
    (patternSyntax ∪ patternWhiteSpace)

/-- What normalization would take apart, which the extended sets leave out. -/
def notClosed : CodeSet := .ofText [
    "37A 309B-309C FC5E-FC63 FDFA-FDFB FE70 FE72 FE74 FE76 FE78 FE7A FE7C FE7E"]

def xidStart : CodeSet := idStart \ (notClosed ∪ .ofText ["E33 EB3 FF9E-FF9F"])

def xidContinue : CodeSet := idContinue \ notClosed

def isAlphabetic (c : Char) : Bool := alphabetic.contains c.toNat

def isNumeric (c : Char) : Bool := numeric.contains c.toNat

def isWord (c : Char) : Bool := word.contains c.toNat

end Interview.Unicode
