/-!
# What may be wrong with a YAML text
-/

namespace Station.Yaml

/-- Why a text is not read as YAML. -/
inductive Problem where
  /-- A character that no YAML text holds. -/
  | forbiddenCharacter
  /-- A place at which no token starts. -/
  | noToken
  /-- An entry or a key where the layout allows none, or a tab among indentation. -/
  | misplaced
  /-- A key without its colon. -/
  | unfinishedKey
  /-- A directive that is not understood. -/
  | badDirective
  /-- An anchor or an alias without a proper name. -/
  | badAnchor
  /-- A tag that is not written properly. -/
  | badTag
  /-- A tag handle that no directive defines. -/
  | unknownHandle
  /-- A backslash sequence that stands for nothing. -/
  | badEscape
  /-- A quoted text without an end. -/
  | unclosedQuote
  /-- A block text with a wrong header. -/
  | badBlockHeader
  /-- A token that the grammar does not allow there. -/
  | unexpectedToken
  /-- More than one document. -/
  | secondDocument
  /-- An alias of nothing. -/
  | unknownAlias
  /-- More than 128 collections inside one another. -/
  | tooDeep
  /-- Aliases that are expanded far too often. -/
  | tooManyAliases
  /-- A key that the mapping has already. -/
  | duplicateKey
  /-- A text that does not fit its tag, or a number beyond every range. -/
  | badScalar
  /-- A value of another shape than the reader asks for. -/
  | wrongShape
  deriving DecidableEq, Repr, Inhabited

end Station.Yaml
