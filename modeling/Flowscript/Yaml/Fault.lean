/-!
# Why a text is no YAML

The causes for which a YAML text is refused.
-/

namespace Flowscript.Yaml

/-- A cause for which a text is no YAML document, or not one that can be read as data. -/
inductive Fault where
  | controlCharacter
  | noToken
  | keyWithoutColon
  | sequenceNotAllowed
  | keyNotAllowed
  | valueNotAllowed
  | badDirective
  | badVersion
  | badTag
  | badAnchor
  | badEscape
  | endInsideScalar
  | markerInsideScalar
  | tabInIndentation
  | badBlockHeader
  | colonInFlow
  | expectedNode
  | expectedEntry
  | expectedKey
  | expectedSeparator
  | expectedDocumentStart
  | repeatedDirective
  | unknownHandle
  | unknownAnchor
  | tooDeep
  | tooManyAliases
  | repeatedKey
  | integerTooLong
  | tagMismatch
  | manyDocuments
  | notATable
  | tagInTable
deriving DecidableEq

/-- The wording of a cause. -/
def Fault.message : Fault → String
  | .controlCharacter => "control characters are not allowed"
  | .noToken => "found character that cannot start any token"
  | .keyWithoutColon => "could not find expected ':'"
  | .sequenceNotAllowed => "block sequence entries are not allowed in this context"
  | .keyNotAllowed => "mapping keys are not allowed in this context"
  | .valueNotAllowed => "mapping values are not allowed in this context"
  | .badDirective => "found a directive that is not well formed"
  | .badVersion => "found incompatible YAML document"
  | .badTag => "found a tag that is not well formed"
  | .badAnchor => "did not find expected alphabetic or numeric character"
  | .badEscape => "found unknown escape character"
  | .endInsideScalar => "found unexpected end of stream"
  | .markerInsideScalar => "found unexpected document indicator"
  | .tabInIndentation => "found a tab character where an indentation space is expected"
  | .badBlockHeader => "did not find expected comment or line break"
  | .colonInFlow => "found unexpected ':'"
  | .expectedNode => "did not find expected node content"
  | .expectedEntry => "did not find expected '-' indicator"
  | .expectedKey => "did not find expected key"
  | .expectedSeparator => "did not find expected ',' or closing bracket"
  | .expectedDocumentStart => "did not find expected <document start>"
  | .repeatedDirective => "found duplicate directive"
  | .unknownHandle => "found undefined tag handle"
  | .unknownAnchor => "unknown anchor"
  | .tooDeep => "recursion limit exceeded"
  | .tooManyAliases => "repetition limit exceeded"
  | .repeatedKey => "duplicate entry"
  | .integerTooLong => "integer out of range"
  | .tagMismatch => "value does not fit its tag"
  | .manyDocuments => "more than one document"
  | .notATable => "expected a map"
  | .tagInTable => "tags are not allowed in a table"

end Flowscript.Yaml
