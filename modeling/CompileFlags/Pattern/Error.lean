/-!
# Why a text is no pattern
-/

namespace CompileFlags.Pattern

/-- The ways in which a text fails to be a pattern. -/
inductive Error where
  | tooMuchNesting
  | tooHeavy
  | groupNameTaken
  | groupUnclosed
  | groupCut
  | groupUnopened
  | lookAround
  | flagsEmpty
  | groupNameMissing
  | groupNameInvalid
  | groupNameCut
  | groupNameEmpty
  | flagUnknown
  | flagNegatedTwice
  | flagRepeated
  | flagsCut
  | flagsEndNegated
  | decimalMissing
  | decimalTooLarge
  | hexBraceNoHexDigit
  | hexBraceCut
  | hexBraceEmpty
  | hexBraceNoCharacter
  | hexFixedCut
  | hexFixedNoHexDigit
  | hexFixedNoCharacter
  | hexCut
  | escapeCut
  | backreference
  | unicodeClass
  | escapeUnknown
  | repeatNothing
  | countNothing
  | countUnclosed
  | countMinUnclosed
  | countCommaUnclosed
  | countMaxUnclosed
  | countNotClosed
  | countReversed
  | classUnclosed
  | classUnclosedAfterItem
  | classUnclosedAfterDash
  | classUnclosedAfterNegation
  | classUnclosedAfterBracket
  | rangeEndNoCharacter
  | classItemInvalid
  | rangeReversed
  | classNested
  | classIntersection
  | classDifference
  | classSymmetricDifference
  | boundaryUnclosed
  | boundaryUnknown
  | boundaryCut
  deriving DecidableEq, Repr

/-- The message of a failure. -/
def Error.message : Error → String
  | tooMuchNesting => "pattern has too much nesting"
  | tooHeavy => "compiled regex exceeded size limit"
  | groupNameTaken => "duplicate capture group name"
  | groupUnclosed => "found open group without closing ')'"
  | groupCut => "expected closing ')', but got end of pattern"
  | groupUnopened => "found closing ')' without matching '('"
  | lookAround => "look-around is not supported"
  | flagsEmpty => "empty flag directive '(?)' is not allowed"
  | groupNameMissing => "expected capture group name, but got end of pattern"
  | groupNameInvalid => "invalid group name"
  | groupNameCut => "expected end of capture group name, but got end of pattern"
  | groupNameEmpty => "empty capture group names are not allowed"
  | flagUnknown => "unrecognized inline flag"
  | flagNegatedTwice => "inline flag negation cannot be repeated"
  | flagRepeated => "duplicate inline flag is not allowed"
  | flagsCut => "expected ':' or ')' to end inline flags, but got end of pattern"
  | flagsEndNegated => "inline flags cannot end with negation directive"
  | decimalMissing => "expected decimal number, but found no digits"
  | decimalTooLarge => "got invalid decimal number"
  | hexBraceNoHexDigit => "expected hexadecimal number in braces, but got non-hex digit"
  | hexBraceCut => "expected hexadecimal number, but saw end of pattern before closing brace"
  | hexBraceEmpty => "expected hexadecimal number in braces, but got no digits"
  | hexBraceNoCharacter => "got invalid hexadecimal number in braces"
  | hexFixedCut => "expected fixed length hexadecimal number, but saw end of pattern first"
  | hexFixedNoHexDigit => "expected fixed length hexadecimal number, but got non-hex digit"
  | hexFixedNoCharacter => "got invalid fixed length hexadecimal number"
  | hexCut => "expected hexadecimal number, but saw end of pattern first"
  | escapeCut => "saw start of escape sequence, but saw end of pattern before it finished"
  | backreference => "backreferences are not supported"
  | unicodeClass => "Unicode character classes are not supported"
  | escapeUnknown => "unrecognized escape sequence"
  | repeatNothing => "uncounted repetition operator must be applied to a sub-expression"
  | countNothing => "counted repetition operator must be applied to a sub-expression"
  | countUnclosed => "found unclosed counted repetition operator"
  | countMinUnclosed => "found incomplete and unclosed counted repetition operator"
  | countCommaUnclosed => "found counted repetition operator with a comma that is unclosed"
  | countMaxUnclosed => "found counted repetition with min and max that is unclosed"
  | countNotClosed => "expected closing brace for counted repetition, but got something else"
  | countReversed => "found counted repetition with a min bigger than its max"
  | classUnclosed => "found unclosed character class"
  | classUnclosedAfterItem => "non-empty character class has no closing bracket"
  | classUnclosedAfterDash => "non-empty character class has no closing bracket after dash"
  | classUnclosedAfterNegation => "negated character class has no closing bracket"
  | classUnclosedAfterBracket =>
    "character class begins with literal ']' but has no closing bracket"
  | rangeEndNoCharacter => "character class ranges must start and end with a single character"
  | classItemInvalid => "invalid escape sequence in character class"
  | rangeReversed => "invalid range in character class"
  | classNested => "nested character classes are not supported"
  | classIntersection => "character class intersection is not supported"
  | classDifference => "character class difference is not supported"
  | classSymmetricDifference => "character class symmetric difference is not supported"
  | boundaryUnclosed =>
    "special word boundary assertion is unclosed or has an invalid character"
  | boundaryUnknown => "special word boundary assertion is unrecognized"
  | boundaryCut => "found start of special word boundary or repetition without an end"

end CompileFlags.Pattern
