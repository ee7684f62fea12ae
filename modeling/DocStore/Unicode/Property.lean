import DocStore.Unicode.Category
import DocStore.Unicode.PropertyTable

/-!
# Character properties

The properties that follow from the listed ones and the general categories, and all properties by
name.
-/

set_option autoImplicit false

namespace DocStore.Unicode

/-! ## Letters and case -/

/-- Lower-case characters. -/
def lowercase : CharSet := (Category.select ["ll"]).union otherLowercase

/-- Upper-case characters. -/
def uppercase : CharSet := (Category.select ["lu"]).union otherUppercase

/-- Letters and what counts as such. -/
def alphabetic : CharSet :=
  .unions [Category.select ["ll", "lo", "lu", "lm", "lt", "nl"], otherAlphabetic, lowercase,
    uppercase]

/-- Characters in lower, upper or title case. -/
def cased : CharSet := .unions [lowercase, uppercase, Category.select ["lt"]]

/-- Characters that stand inside words without a bearing on case. -/
def caseIgnorable : CharSet :=
  (Category.select ["mn", "me", "cf", "lm", "sk"]).union
    (.ofText "27 2E 3A B7 387 55F 5F4 2018 2019 2024 2027 FE13 FE52 FE55 FF07 FF0E FF1A")

/-- Characters that have another lower-case form. -/
def changesWhenLowercased : CharSet :=
  (uppercase.union (Category.select ["lt"])).diff withoutLowercase

/-- Characters that have another upper-case form. -/
def changesWhenUppercased : CharSet :=
  (lowercase.union (Category.select ["lt"])).diff withoutUppercase

/-- Characters that have another title-case form. -/
def changesWhenTitlecased : CharSet :=
  (changesWhenUppercased.diff ownTitlecase).union onlyTitlecase

/-- Characters that case folding changes. -/
def changesWhenCasefolded : CharSet :=
  (changesWhenLowercased.diff foldedUppercase).union foldedLowercase

/-- Characters that have another form in some case. -/
def changesWhenCasemapped : CharSet :=
  .unions [changesWhenLowercased, changesWhenUppercased, changesWhenTitlecased]

/-! ## Identifiers -/

/-- Characters that may start an identifier. -/
def idStart : CharSet :=
  ((Category.select ["l", "nl", "ll", "lo", "lu", "lm", "lt"]).union otherIdStart).diff
    (patternSyntax.union patternWhiteSpace)

/-- Characters that may continue an identifier. -/
def idContinue : CharSet :=
  (CharSet.unions [idStart, Category.select ["mn", "mc", "nd", "pc"], otherIdContinue]).diff
    (patternSyntax.union patternWhiteSpace)

/-! ## Marks and signs -/

/-- Characters that extend the one before them. -/
def graphemeExtend : CharSet := (Category.select ["me", "mn"]).union otherGraphemeExtend

/-- Characters that something can be added to. -/
def graphemeBase : CharSet :=
  (CharSet.range 0 CharSet.top).diff
    ((Category.select ["cc", "cf", "co", "cn", "zl", "zp"]).union graphemeExtend)

/-- Characters that are ignored in display where they are not supported. -/
def defaultIgnorable : CharSet :=
  (CharSet.unions [Category.select ["cf"], variationSelector, otherDefaultIgnorable]).diff
    (.unions [whiteSpace, prependedConcatenationMark, .ofText "FFF9-FFFB 13430-13440"])

/-- Mathematical characters. -/
def math : CharSet := (Category.select ["sm"]).union otherMath

/-- Decimal digits of any script. -/
def decimalDigit : CharSet := Category.select ["nd"]

/-- Characters of words: alphabetic ones, marks, digits, connectors and joiners. -/
def word : CharSet :=
  .unions [alphabetic, Category.select ["mn", "mc", "me", "nd", "pc"], joinControl]

/-- What a quoted text does not show as it is: controls, format characters, separators other than
the space, unassigned characters, and what would join with the character before it. -/
def hidden : CharSet :=
  ((Category.select ["cc", "cf", "co", "cn", "zl", "zp", "zs"]).union graphemeExtend).diff
    (.single ' ')

/-! ## Tests of one character -/

/-- Whether a character is a letter or counts as such. -/
def isAlphabetic (c : Char) : Bool := alphabetic.contains c

/-- The characters that are numbers of any kind. -/
def number : CharSet := Category.select ["nd", "nl", "no"]

/-- Whether a character is a number of any kind. -/
def isNumeric (c : Char) : Bool := number.contains c

/-- Whether a character is white space. -/
def isWhiteSpace (c : Char) : Bool := whiteSpace.contains c

/-- Whether a quoted text shows a character as it is. -/
def isPrintable (c : Char) : Bool := !hidden.contains c

/-! ## Properties by name -/

/-- The properties with their names in lower case. -/
def properties : List (List String × CharSet) :=
  [ (["alphabetic", "alpha"], alphabetic),
    (["asciihexdigit", "ahex"], asciiHexDigit),
    (["bidicontrol", "bidic"], bidiControl),
    (["caseignorable", "ci"], caseIgnorable),
    (["cased"], cased),
    (["changeswhencasefolded", "cwcf"], changesWhenCasefolded),
    (["changeswhencasemapped", "cwcm"], changesWhenCasemapped),
    (["changeswhenlowercased", "cwl"], changesWhenLowercased),
    (["changeswhentitlecased", "cwt"], changesWhenTitlecased),
    (["changeswhenuppercased", "cwu"], changesWhenUppercased),
    (["dash"], dash),
    (["defaultignorablecodepoint", "di"], defaultIgnorable),
    (["deprecated", "dep"], deprecated),
    (["diacritic", "dia"], diacritic),
    (["emoji"], emoji),
    (["emojicomponent", "ecomp"], emojiComponent),
    (["emojimodifier", "emod"], emojiModifier),
    (["emojimodifierbase", "ebase"], emojiModifierBase),
    (["emojipresentation", "epres"], emojiPresentation),
    (["extendedpictographic", "extpict"], extendedPictographic),
    (["extender", "ext"], extender),
    (["graphemebase", "grbase"], graphemeBase),
    (["graphemeextend", "grext"], graphemeExtend),
    (["graphemelink", "grlink"], graphemeLink),
    (["hexdigit", "hex"], hexDigit),
    (["hyphen"], hyphen),
    (["idcompatmathcontinue"], mathIdStart.union mathIdScript),
    (["idcompatmathstart"], mathIdStart),
    (["idcontinue", "idc"], idContinue),
    (["idstart", "ids"], idStart),
    (["ideographic", "ideo"], ideographic),
    (["idsbinaryoperator", "idsb"], idsBinaryOperator),
    (["idstrinaryoperator", "idst"], idsTrinaryOperator),
    (["idsunaryoperator", "idsu"], idsUnaryOperator),
    (["joincontrol", "joinc"], joinControl),
    (["logicalorderexception", "loe"], logicalOrderException),
    (["lowercase", "lower"], lowercase),
    (["math"], math),
    (["modifiercombiningmark", "mcm"], modifierCombiningMark),
    (["noncharactercodepoint", "nchar"], noncharacter),
    (["otheralphabetic", "oalpha"], otherAlphabetic),
    (["otherdefaultignorablecodepoint", "odi"], otherDefaultIgnorable),
    (["othergraphemeextend", "ogrext"], otherGraphemeExtend),
    (["otheridcontinue", "oidc"], otherIdContinue),
    (["otheridstart", "oids"], otherIdStart),
    (["otherlowercase", "olower"], otherLowercase),
    (["othermath", "omath"], otherMath),
    (["otheruppercase", "oupper"], otherUppercase),
    (["patternsyntax", "patsyn"], patternSyntax),
    (["patternwhitespace", "patws"], patternWhiteSpace),
    (["prependedconcatenationmark", "pcm"], prependedConcatenationMark),
    (["quotationmark", "qmark"], quotationMark),
    (["radical"], radical),
    (["regionalindicator", "ri"], regionalIndicator),
    (["sentenceterminal", "sterm"], sentenceTerminal),
    (["softdotted", "sd"], softDotted),
    (["terminalpunctuation", "term"], terminalPunctuation),
    (["unifiedideograph", "uideo"], unifiedIdeograph),
    (["uppercase", "upper"], uppercase),
    (["variationselector", "vs"], variationSelector),
    (["whitespace", "wspace", "space"], whiteSpace),
    (["xidcontinue", "xidc"], idContinue.diff unstableIdContinue),
    (["xidstart", "xids"], idStart.diff unstableIdStart) ]

/-- The characters with a property, by its name in lower case without separators. -/
def property? (name : String) : Option CharSet :=
  (properties.find? fun e => e.1.contains name).map (·.2)

end DocStore.Unicode
