import FeatureRun.Text.Numeral

/-!
# What can be wrong with a YAML document

A `Fault` is a breach of the YAML rules. A `Refusal` is a number, a date, a truth value or an escape
that keeps the rules and still has no value. Both can be told in words by a loader of another make.
-/
set_option autoImplicit false

namespace FeatureRun.Yaml

inductive Fault where
  | unprintable (c : Char)
  | noToken (c : Char)
  | missingColon
  | misplacedEntry
  | misplacedKey
  | misplacedValue
  | badDirective
  | badName
  | badTag
  | badBlockHeader
  | openQuote
  | separatorInQuote
  | badEscape
  | expectedDocument
  | repeatedDirective
  | otherVersion
  | unknownHandle (handle : String)
  | expectedNode
  | expectedBlockEnd
  | expectedSequenceEnd
  | expectedMappingEnd
  | unknownAlias (name : String)
  | repeatedAnchor (name : String)
  | severalDocuments
  | unhashableKey
  | unmergeable
  | unknownTag (tag : String)
  | wrongKind (tag : String)
  /-- Any other breach, in words. -/
  | other (message : String)
  deriving DecidableEq, Repr

def Fault.message : Fault → String
  | .unprintable c => "special characters are not allowed: " ++ Text.quoted c.toString
  | .noToken c => "found character " ++ Text.quoted c.toString ++ " that cannot start any token"
  | .missingColon => "could not find expected ':'"
  | .misplacedEntry => "sequence entries are not allowed here"
  | .misplacedKey => "mapping keys are not allowed here"
  | .misplacedValue => "mapping values are not allowed here"
  | .badDirective => "malformed directive"
  | .badName => "malformed anchor or alias name"
  | .badTag => "malformed tag"
  | .badBlockHeader => "malformed header of a block scalar"
  | .openQuote => "found unexpected end of stream"
  | .separatorInQuote => "found unexpected document separator"
  | .badEscape => "found unknown escape character"
  | .expectedDocument => "expected '<document start>'"
  | .repeatedDirective => "found duplicate directive"
  | .otherVersion => "found incompatible YAML document (version 1.* is required)"
  | .unknownHandle h => "found undefined tag handle " ++ Text.quoted h
  | .expectedNode => "expected the node content"
  | .expectedBlockEnd => "expected <block end>"
  | .expectedSequenceEnd => "expected ',' or ']'"
  | .expectedMappingEnd => "expected ',' or '\x7d'"
  | .unknownAlias n => "found undefined alias " ++ Text.quoted n
  | .repeatedAnchor n => "found duplicate anchor " ++ Text.quoted n
  | .severalDocuments => "expected a single document in the stream"
  | .unhashableKey => "found unhashable key"
  | .unmergeable => "expected a mapping or list of mappings for merging"
  | .unknownTag t => "could not determine a constructor for the tag " ++ Text.quoted t
  | .wrongKind t => "the tag " ++ Text.quoted t ++ " does not fit the node"
  | .other m => m

inductive Refusal where
  | numeral (e : Text.NumeralError)
  | badFloat (text : String)
  /-- A number that no double can hold. -/
  | tooLarge
  /-- A number without any character. -/
  | empty
  /-- A truth value that is none of the words for one. -/
  | unknownWord (word : String)
  /-- An escape that names no character. -/
  | noCharacter
  /-- An escape whose number is out of all bounds. -/
  | noCode
  /-- A date that has not the form of one. -/
  | formless
  /-- A date that is given as a mapping. -/
  | notText
  /-- A mapping that is given as the text of itself. -/
  | endless
  | yearRange (year : Nat)
  | monthRange
  | dayRange
  | hourRange
  | minuteRange
  | secondRange
  /-- A time zone a day or more away, given as minutes. -/
  | zoneRange (minutes : Int)
  /-- Any other trouble, in words. -/
  | other (message : String)
  deriving DecidableEq, Repr

/-- The length of a time zone's offset in days and seconds, the seconds never negative. -/
def spanText (minutes : Int) : String :=
  let days := minutes.fdiv 1440
  let seconds := minutes.fmod 1440 * 60
  "datetime.timedelta(days=" ++ toString days ++
    (if seconds = 0 then "" else ", seconds=" ++ toString seconds) ++ ")"

def Refusal.message : Refusal → String
  | .numeral e => e.message
  | .badFloat s => "could not convert string to float: " ++ Text.quoted s
  | .tooLarge => "int too large to convert to float"
  | .empty => "string index out of range"
  | .unknownWord w => Text.quoted w
  | .noCharacter => "chr() arg not in range(0x110000)"
  | .noCode => "Python int too large to convert to C int"
  | .formless => "'NoneType' object has no attribute 'groupdict'"
  | .notText => "expected string or bytes-like object, got 'list'"
  | .endless => "maximum recursion depth exceeded"
  | .yearRange y => "year " ++ toString y ++ " is out of range"
  | .monthRange => "month must be in 1..12"
  | .dayRange => "day is out of range for month"
  | .hourRange => "hour must be in 0..23"
  | .minuteRange => "minute must be in 0..59"
  | .secondRange => "second must be in 0..59"
  | .zoneRange m =>
    "offset must be a timedelta strictly between -timedelta(hours=24) and timedelta(hours=24), not "
      ++ spanText m ++ "."
  | .other m => m

/-- Why a document has no value. -/
inductive Error where
  | fault (what : Fault)
  | refusal (what : Refusal)
  deriving DecidableEq, Repr

def Error.message : Error → String
  | .fault f => f.message
  | .refusal r => r.message

end FeatureRun.Yaml
