/-!
What can be wrong with a YAML text or with the shape of what it holds.
-/

namespace PerceptronMesh.Yaml

inductive Fault where
  | forbiddenCharacter (code : Nat)
  | unexpectedCharacter (c : Char)
  | tabInIndentation
  | unclosedQuote
  | unknownEscape
  | misplacedEntry
  | misplacedKey
  | misplacedColon
  /-- Text that has to be a key is not followed by a colon. -/
  | keyWithoutColon
  | malformedAnchor
  | malformedTag
  | malformedDirective
  | unknownDirective (name : String)
  | repeatedDirective
  | unsupportedVersion
  | unknownAnchor (name : String)
  | unknownHandle (handle : String)
  | unexpectedToken
  | unexpectedEnd
  /-- References are followed too often for the size of the document. -/
  | tooManyReferences
  | tooDeep
  | wrongKind (wanted : String)
  | unknownName (name : String)
  | missingField (name : String)
  | repeatedField (name : String)
deriving DecidableEq, Repr

def Fault.message : Fault → String
  | .forbiddenCharacter code => s!"character number {code} is not allowed"
  | .unexpectedCharacter c => s!"no token starts with '{c}'"
  | .tabInIndentation => "a tab stands in the indentation"
  | .unclosedQuote => "a quoted scalar is not closed"
  | .unknownEscape => "unknown escape sequence"
  | .misplacedEntry => "a list entry is not allowed here"
  | .misplacedKey => "a key is not allowed here"
  | .misplacedColon => "a colon is not allowed here"
  | .keyWithoutColon => "a key has no colon"
  | .malformedAnchor => "an anchor has no proper name"
  | .malformedTag => "a tag is malformed"
  | .malformedDirective => "a directive is malformed"
  | .unknownDirective name => s!"unknown directive '{name}'"
  | .repeatedDirective => "a directive is given twice"
  | .unsupportedVersion => "the version is neither 1.1 nor 1.2"
  | .unknownAnchor name => s!"unknown anchor '{name}'"
  | .unknownHandle handle => s!"unknown tag handle '{handle}'"
  | .unexpectedToken => "unexpected token"
  | .unexpectedEnd => "unexpected end of the text"
  | .tooManyReferences => "references are followed too often"
  | .tooDeep => "values are nested too deep"
  | .wrongKind wanted => s!"expected {wanted}"
  | .unknownName name => s!"unknown name '{name}'"
  | .missingField name => s!"field '{name}' is missing"
  | .repeatedField name => s!"field '{name}' is given twice"

end PerceptronMesh.Yaml
