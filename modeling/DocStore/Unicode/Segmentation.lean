import DocStore.Unicode.Property
import DocStore.Unicode.Script

/-!
# Segmentation of text

The classes by which text is divided into user-perceived characters, words and sentences. Characters
in none of the listed classes belong to a rest that has no name here.
-/

set_option autoImplicit false

namespace DocStore.Unicode.Segmentation

/-! ## Building blocks -/

/-- The carriage return. -/
def carriageReturn : CharSet := .single '\r'

/-- The line feed. -/
def lineFeed : CharSet := .single '\n'

/-- The joiner. -/
def joiner : CharSet := .single '\u200d'

/-- Spacing marks. -/
def spacingMark : CharSet := Category.select ["mc"]

/-- Digits as the breaking of lines sees them, with the signs that enclose digits. -/
def numeric : CharSet :=
  (CharSet.unions [decimalDigit, prependedConcatenationMark, .ofText "66B-66C"]).diff
    (.ofText "70F")

/-! ## User-perceived characters -/

/-- What extends the character before it. -/
def clusterExtend : CharSet := graphemeExtend.union emojiModifier

/-- Controls, line breaks and what is ignored in display without being assigned. -/
def clusterControl : CharSet :=
  (CharSet.unions [Category.select ["zl", "zp", "cc", "cf"],
      (Category.select ["cn"]).inter defaultIgnorable]).diff
    (.unions [carriageReturn, lineFeed, joiner, graphemeExtend, prependedConcatenationMark])

/-- Spacing marks that join with what stands before them, with two vowels that do so. -/
def clusterSpacing : CharSet :=
  (spacingMark.union (.ofText "E33 EB3")).diff (clusterExtend.union detachedMark)

/-- Whole syllables of Hangul. -/
def syllable : CharSet := .range 0xAC00 0xD7A3

/-- Syllables that end in a vowel: one after each 27 that end in a consonant. -/
def openSyllable : CharSet :=
  .ofRanges ((List.range 399).map fun i => (0xAC00 + 28 * i, 0xAC00 + 28 * i))

/-- The classes of user-perceived characters with their names in lower case. -/
def clusterClasses : List (List String × CharSet) :=
  [ (["cr"], carriageReturn),
    (["lf"], lineFeed),
    (["control", "cn"], clusterControl),
    (["extend", "ex"], clusterExtend),
    (["zwj"], joiner),
    (["regionalindicator", "ri"], regionalIndicator),
    (["prepend", "pp"], prependedConcatenationMark.union prefixedConsonant),
    (["spacingmark", "sm"], clusterSpacing),
    (["l"], .ofText "1100-115F A960-A97C"),
    (["v"], .ofText "1160-11A7 D7B0-D7C6 16D63 16D67-16D6A"),
    (["t"], .ofText "11A8-11FF D7CB-D7FB"),
    (["lv"], openSyllable),
    (["lvt"], syllable.diff openSyllable) ]

/-! ## Words -/

/-- What extends the character before it inside a word. -/
def wordExtend : CharSet :=
  (CharSet.unions [graphemeExtend, spacingMark, emojiModifier]).diff joiner

/-- Letters of Katakana and what goes with them. -/
def wordKatakana : CharSet :=
  ((Script.set? "kana").getD .empty).union (.ofText "3031-3035 309B-309C 30A0 30FC FF70")

/-- Letters of Hebrew. -/
def wordHebrew : CharSet := ((Script.set? "hebr").getD .empty).inter (Category.select ["lo"])

/-- Letters of scripts that set blanks between words. -/
def wordLetter : CharSet :=
  (alphabetic.union wordLetterSign).diff
    (.unions [ideographic, wordKatakana, complexContext, (Script.set? "hira").getD .empty,
      wordExtend, wordHebrew])

/-- The classes of words with their names in lower case. -/
def wordClasses : List (List String × CharSet) :=
  [ (["cr"], carriageReturn),
    (["lf"], lineFeed),
    (["newline", "nl"], .ofText "B-C 85 2028-2029"),
    (["extend"], wordExtend),
    (["zwj"], joiner),
    (["format", "fo"],
      (Category.select ["cf"]).diff
        (.unions [wordExtend, prependedConcatenationMark, .ofText "200B-200D"])),
    (["regionalindicator", "ri"], regionalIndicator),
    (["katakana", "ka"], wordKatakana),
    (["hebrewletter", "hl"], wordHebrew),
    (["aletter", "le"], wordLetter),
    (["singlequote", "sq"], .ofText "27"),
    (["doublequote", "dq"], .ofText "22"),
    (["midnumlet", "mb"], .ofText "2E 2018-2019 2024 FE52 FF07 FF0E"),
    (["midletter", "ml"], .ofText "3A B7 387 55F 5F4 2027 FE13 FE55 FF1A"),
    (["midnum", "mn"],
      .ofText "2C 3B 37E 589 60C-60D 66C 7F8 2044 FE10 FE14 FE50 FE54 FF0C FF1B"),
    (["numeric", "nu"], numeric.diff (.ofText "66C")),
    (["extendnumlet", "ex"], (Category.select ["pc"]).union (.ofText "202F")),
    (["wsegspace"], (Category.select ["zs"]).diff (.ofText "A0 2007 202F")) ]

/-! ## Sentences -/

/-- Lower-case letters, Georgian ones apart. -/
def sentenceLower : CharSet :=
  lowercase.diff (graphemeExtend.union (.ofText "10D0-10FA 10FD-10FF"))

/-- Upper-case and title-case letters, Georgian ones apart. -/
def sentenceUpper : CharSet :=
  (uppercase.union (Category.select ["lt"])).diff (.ofText "1C90-1CBA 1CBD-1CBF")

/-- What extends the character before it inside a sentence. -/
def sentenceExtend : CharSet := .unions [graphemeExtend, spacingMark, joiner]

/-- Full stops, which may also end an abbreviation. -/
def fullStop : CharSet := .ofText "2E 2024 FE52 FF0E"

/-- Other punctuation that ends a sentence. -/
def sentenceEnd : CharSet := sentenceTerminal.diff fullStop

/-- The classes of sentences with their names in lower case. -/
def sentenceClasses : List (List String × CharSet) :=
  [ (["cr"], carriageReturn),
    (["lf"], lineFeed),
    (["extend", "ex"], sentenceExtend),
    (["sep", "se"], .ofText "85 2028-2029"),
    (["format", "fo"],
      (Category.select ["cf"]).diff
        (.unions [sentenceExtend, prependedConcatenationMark.diff (.ofText "70F"),
          .ofText "200C"])),
    (["sp"], whiteSpace.diff (.ofText "A D 85 2028-2029")),
    (["lower", "lo"], sentenceLower),
    (["upper", "up"], sentenceUpper),
    (["oletter", "le"],
      (alphabetic.union (.ofText "5F3")).diff
        (.unions [sentenceLower, sentenceUpper, sentenceExtend])),
    (["numeric", "nu"], numeric),
    (["aterm", "at"], fullStop),
    (["sterm", "st"], sentenceEnd),
    (["scontinue", "sc"],
      .ofText "2C-2D 3A-3B 37E 55D 60C-60D 7F8 1802 1808 2013-2014 3001 FE10-FE11 FE13-FE14
        FE31-FE32 FE50-FE51 FE54-FE55 FE58 FE63 FF0C-FF0D FF1A-FF1B FF64"),
    (["close", "cl"],
      ((Category.select ["ps", "pe"]).union lineQuotation).diff
        (.unions [.ofText "5F3", fullStop, sentenceEnd])) ]

/-! ## Classes by name -/

/-- The class of a list with a given name. -/
def find? (classes : List (List String × CharSet)) (name : String) : Option CharSet :=
  (classes.find? fun e => e.1.contains name).map (·.2)

end DocStore.Unicode.Segmentation
